import Mcr.Vfs.System
import Mcr.Net.Table

/-!
# The file system calls of the runtime

`RuntimeFileSystem` puts the virtual file system, the guest's memory and the socket table together, and a
system call works on all three. The memory is a parameter: the calls read and write bytes of it and learn
whether the access faults, and nothing else.
-/

namespace Mcr.Runtime

open Vfs (Fd VfsError VirtualFileSystem oRdwr oCloexec oNonblock fGetfl fSetfl)
open Net (LinuxErrno HostNet NetState SocketAddress SocketDomain SocketError SocketId SocketProtocol SocketSpec
  SocketType TableProg)

/-- `GuestMemoryAccess`. An access that faults has no bytes to return; what a faulting write has already
written is up to the memory. -/
class GuestMemoryAccess (μ : Type) where
  readBytes : Nat → Nat → μ → Option (List UInt8)
  writeBytes : Nat → List UInt8 → Prog μ Unit Unit

/-- A memory of the addresses from zero on, all of them readable and writable. -/
structure FlatMemory where
  bytes : List UInt8

instance : GuestMemoryAccess FlatMemory where
  readBytes addr len memory :=
    if addr + len ≤ memory.bytes.length then some ((memory.bytes.drop addr).take len) else none
  writeBytes addr bytes := do
    let memory ← .get
    if addr + bytes.length ≤ memory.bytes.length then
      .modify fun memory =>
        ⟨memory.bytes.take addr ++ bytes ++ memory.bytes.drop (addr + bytes.length)⟩
    else .throw ()

structure RuntimeFileSystem (σ ω μ : Type) where
  vfs : VirtualFileSystem
  memory : μ
  net : NetState σ ω

variable {σ ω μ : Type}

abbrev FsProg (σ ω μ α : Type) : Type := Prog (RuntimeFileSystem σ ω μ) LinuxErrno α

/-! ### Errors -/

def enomem : LinuxErrno := ⟨12⟩
def efault : LinuxErrno := ⟨14⟩
def einval : LinuxErrno := .invalidArgument
def ebadf : LinuxErrno := .badFileDescriptor
def eafnosupport : LinuxErrno := .addressFamilyNotSupported

def vfsErrno : VfsError → LinuxErrno
  | .notPermitted => ⟨1⟩
  | .noEntry => ⟨2⟩
  | .badFd => ebadf
  | .wouldBlock => .wouldBlock
  | .permissionDenied => ⟨13⟩
  | .busy => ⟨16⟩
  | .alreadyExists => ⟨17⟩
  | .notDirectory => ⟨20⟩
  | .isDirectory => ⟨21⟩
  | .invalidPath => einval
  | .notTerminal => ⟨25⟩
  | .noSpace => ⟨28⟩
  | .notSeekable => ⟨29⟩
  | .brokenPipe => .brokenPipe
  | .nameTooLong => ⟨36⟩
  | .notEmpty => ⟨39⟩
  | .loop => ⟨40⟩
  | .notSocket => ⟨88⟩

def netErrno (error : SocketError) : LinuxErrno := error.linuxErrno

/-! ### The parts of the state -/

def onVfs {α : Type} (call : VirtualFileSystem.Call α) : FsProg σ ω μ α :=
  .mapError vfsErrno (.zoom RuntimeFileSystem.vfs (fun vfs s => { s with vfs := vfs }) call)

def onNet {α : Type} (call : TableProg σ ω α) : FsProg σ ω μ α :=
  .mapError netErrno (.zoom RuntimeFileSystem.net (fun net s => { s with net := net }) call)

section Memory

variable [GuestMemoryAccess μ]

def readBytes (addr len : Nat) : FsProg σ ω μ (List UInt8) := do
  let s ← .get
  match GuestMemoryAccess.readBytes addr len s.memory with
  | some bytes => pure bytes
  | none => .throw efault

def writeBytes (addr : Nat) (bytes : List UInt8) : FsProg σ ω μ Unit :=
  .mapError (fun _ => efault)
    (.zoom RuntimeFileSystem.memory (fun memory s => { s with memory := memory })
      (GuestMemoryAccess.writeBytes addr bytes))

/-- The little-endian bytes of a `u32` and back. -/
def leBytes32 (value : Nat) : List UInt8 := (List.range 4).map fun i => UInt8.ofNat (value / 256 ^ i)

def ofLeBytes (bytes : List UInt8) : Nat := bytes.foldr (fun byte rest => byte.toNat + 256 * rest) 0

def ofBeBytes (bytes : List UInt8) : Nat := bytes.foldl (fun rest byte => 256 * rest + byte.toNat) 0

def beBytes (count value : Nat) : List UInt8 :=
  (List.range count).map fun i => UInt8.ofNat (value / 256 ^ (count - 1 - i))

def readGuestU32 (addr : Nat) : FsProg σ ω μ Nat := do
  let bytes ← readBytes addr 4
  pure (ofLeBytes bytes)

/-! ### Socket addresses -/

def afUnix : Nat := 1
def afInet : Nat := 2
def afInet6 : Nat := 10
def sockaddrInLen : Nat := 16
def sockaddrIn6Len : Nat := 28
def sockaddrUnPathLen : Nat := 108

def encodeSocketAddress : SocketAddress → List UInt8
  | .unix path =>
    [1, 0] ++ path ++ (if path.length < sockaddrUnPathLen ∧ path.head? ≠ some 0 then [0] else [])
  | .inet address port => [2, 0] ++ beBytes 2 port.toNat ++ beBytes 4 address.toNat ++ List.replicate 8 0
  | .inet6 address port flowinfo scopeId =>
    [10, 0] ++ beBytes 2 port.toNat ++ leBytes32 flowinfo.toNat ++ beBytes 16 address.toNat ++
      leBytes32 scopeId.toNat

/-- The path of a UNIX address: to its end when it starts with a zero, else to the first zero. -/
def unixPath (bytes : List UInt8) : List UInt8 :=
  if bytes.head? = some 0 then bytes else bytes.takeWhile (· ≠ 0)

def readSocketAddress (sockaddr addrlen : Nat) : FsProg σ ω μ SocketAddress := do
  if addrlen < 2 then .throw einval
  else do
    let family ← readBytes sockaddr 2
    if ofLeBytes family = afUnix then do
      let bytes ← readBytes sockaddr (min addrlen (2 + sockaddrUnPathLen))
      pure (.unix (unixPath (bytes.drop 2)))
    else if ofLeBytes family = afInet then
      if addrlen < sockaddrInLen then .throw einval
      else do
        let bytes ← readBytes sockaddr sockaddrInLen
        pure (.inet (.ofNat 32 (ofBeBytes ((bytes.drop 4).take 4))) (.ofNat (ofBeBytes ((bytes.drop 2).take 2))))
    else if ofLeBytes family = afInet6 then
      if addrlen < sockaddrIn6Len then .throw einval
      else do
        let bytes ← readBytes sockaddr sockaddrIn6Len
        pure (.inet6 (.ofNat 128 (ofBeBytes ((bytes.drop 8).take 16))) (.ofNat (ofBeBytes ((bytes.drop 2).take 2)))
          (.ofNat (ofLeBytes ((bytes.drop 4).take 4))) (.ofNat (ofLeBytes ((bytes.drop 24).take 4))))
    else .throw eafnosupport

def writeSocketAddress (sockaddr addrlenAddr : Nat) (address : SocketAddress) : FsProg σ ω μ Unit := do
  let encoded := encodeSocketAddress address
  let addrlen ← readGuestU32 addrlenAddr
  Prog.when (0 < min addrlen encoded.length) (writeBytes sockaddr (encoded.take (min addrlen encoded.length)))
  writeBytes addrlenAddr (leBytes32 encoded.length)

def writeOptionalSocketAddress (sockaddr addrlenAddr : Nat) (address : SocketAddress) : FsProg σ ω μ Unit :=
  if sockaddr = 0 then pure ()
  else if addrlenAddr = 0 then .throw efault
  else writeSocketAddress sockaddr addrlenAddr address

end Memory

/-! ### Socket specifications -/

def sockTypeMask : UInt32 := 0xf
def sockNonblock : UInt32 := 0o4000
def sockCloexec : UInt32 := 0o2000000

def domainFromLinux (value : UInt32) : Except SocketError SocketDomain :=
  if value = 1 then .ok .unix
  else if value = 2 then .ok .inet
  else if value = 10 then .ok .inet6
  else .error (.unsupported .createSocket .addressFamilyNotSupported "socket domain is not supported")

def typeFromLinux (value : UInt32) : Except SocketError SocketType :=
  if value = 1 then .ok .stream
  else if value = 2 then .ok .datagram
  else if value = 3 then
    .error (.unsupported .createSocket .socketTypeNotSupported "raw sockets are not supported")
  else .error (.unsupported .createSocket .socketTypeNotSupported "socket type is not supported")

def protocolFromLinux (value : UInt32) : Except SocketError SocketProtocol :=
  if value = 0 then .ok .default
  else if value = 6 then .ok .tcp
  else if value = 17 then .ok .udp
  else .error (.unsupported .createSocket .protocolNotSupported "socket protocol is not supported")

/-- `SocketSpec::from_linux`. -/
def specFromLinux (domain kind protocol : UInt32) : Except SocketError SocketSpec := do
  if kind &&& ~~~(sockTypeMask ||| sockNonblock ||| sockCloexec) ≠ 0 then
    .error (.invalidInput .createSocket .invalidArgument "socket kind contains unsupported flags")
  else do
    let socketType ← typeFromLinux (kind &&& sockTypeMask)
    let domain ← domainFromLinux domain
    let protocol ← protocolFromLinux protocol
    Net.validateSocketProtocol socketType protocol
    pure ⟨domain, socketType, protocol, ⟨kind &&& sockNonblock ≠ 0, kind &&& sockCloexec ≠ 0⟩⟩

/-! ### Descriptors and sockets -/

/-- `VirtualFileSystem::socket_id_for_fd`. -/
def vfsSocketIdForFd (fd : Fd) : VirtualFileSystem.Call Nat := do
  let vfs ← .get
  let entry ← .ofExcept (vfs.fds.get fd)
  match entry.file.inode.backend with
  | .socket id => pure id
  | _ => .throw .notSocket

/-- `socket_id_for_fd`; a socket id is not zero. -/
def socketIdForFd (fd : Fd) : FsProg σ ω μ SocketId := do
  let raw ← onVfs (vfsSocketIdForFd fd)
  if raw = 0 then .throw ebadf else pure raw

def insertSocket (id : SocketId) (flags : UInt32) : FsProg σ ω μ Fd :=
  onVfs (VirtualFileSystem.onFiles (Vfs.Files.insertSocket id ⟨flags⟩))

def socketFlags (cloexec nonblocking : Bool) : UInt32 :=
  oRdwr ||| (if cloexec then oCloexec else 0) ||| (if nonblocking then oNonblock else 0)

def sysSocket (domain kind protocol : UInt32) : FsProg σ ω μ Fd := do
  let spec ← .mapError netErrno (.ofExcept (specFromLinux domain kind protocol))
  let id ← onNet (Net.createSocketFromSpec spec)
  insertSocket id (socketFlags spec.flags.cloexec spec.flags.nonblocking)

section

variable [GuestMemoryAccess μ] (host : HostNet σ ω)

def sysBind (fd : Fd) (sockaddr addrlen : Nat) : FsProg σ ω μ Unit := do
  let id ← socketIdForFd fd
  let address ← readSocketAddress sockaddr addrlen
  onNet (Net.bind host id address)

def sysConnect (fd : Fd) (sockaddr addrlen : Nat) : FsProg σ ω μ Unit := do
  let id ← socketIdForFd fd
  let address ← readSocketAddress sockaddr addrlen
  onNet (Net.connect host id address)

def sysListen (fd : Fd) (backlog : Nat) : FsProg σ ω μ Unit := do
  let id ← socketIdForFd fd
  onNet (Net.listen host id backlog)

def sysAccept4 (fd : Fd) (sockaddr addrlen : Nat) (flags : UInt32) : FsProg σ ω μ Fd := do
  if flags &&& ~~~(sockCloexec ||| sockNonblock) ≠ 0 then .throw einval
  else do
    let id ← socketIdForFd fd
    let (accepted, peer) ← onNet (Net.accept host id)
    writeOptionalSocketAddress sockaddr addrlen peer
    insertSocket accepted (socketFlags (flags &&& sockCloexec ≠ 0) (flags &&& sockNonblock ≠ 0))

/-- The part of `sys_fcntl` that tells the socket layer of an `F_SETFL` on a socket. -/
def setSocketMode (fd : Fd) (cmd : UInt32) (arg : Nat) : FsProg σ ω μ Unit := do
  if cmd = fSetfl then do
    let named ← .attempt (socketIdForFd fd : FsProg σ ω μ SocketId)
    match named with
    | .ok id => onNet (Net.setNonblocking host id (UInt32.ofNat arg &&& oNonblock ≠ 0))
    | .error _ => pure ()
  else pure ()

def sysFcntl (fd : Fd) (cmd : UInt32) (arg : Nat) : FsProg σ ω μ Nat := do
  setSocketMode host fd cmd arg
  onVfs (VirtualFileSystem.fcntl fd cmd arg)

def sysIoctlFionbio (fd : Fd) (argp : Nat) : FsProg σ ω μ Unit := do
  let value ← readGuestU32 argp
  let flags ← onVfs (VirtualFileSystem.fcntl fd fGetfl 0)
  let next := if value ≠ 0 then UInt32.ofNat flags ||| oNonblock else UInt32.ofNat flags &&& ~~~oNonblock
  let _ ← onVfs (VirtualFileSystem.fcntl fd fSetfl next.toNat)

end

end Mcr.Runtime
