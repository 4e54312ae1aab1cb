import Mcr.Runtime.FileSystem

/-!
# Reading and writing through a descriptor

`read`, `write`, `readv` and `writev` of the runtime. A descriptor of a socket goes to the socket table and
every other one to the virtual file system. The bytes move through the guest's pages directly where the
memory can lend them, and through a buffer where it cannot.
-/

namespace Mcr.Runtime

open Vfs (Fd VirtualFileSystem u64Limit)
open Net (HandleSends HostNet SocketId)

/-- `RuntimeMemoryAccess`. A slice borrowed for writing may make pages the process's own first; what is put
in it overwrites its beginning. -/
class RuntimeMemoryAccess (μ : Type) extends GuestMemoryAccess μ where
  borrowedBytes : Nat → Nat → μ → Except Unit (Option (List UInt8))
  borrowedBytesMut : Nat → Nat → Prog μ Unit (Option (List UInt8 → μ → μ))

/-- The memory that lends no slice. -/
instance : RuntimeMemoryAccess FlatMemory where
  borrowedBytes _ _ _ := .ok none
  borrowedBytesMut _ _ := pure none

/-- What lies outside the runtime: the host's files, its network stack and the sends of its sockets. -/
structure Outside (σ ω : Type) where
  files : Vfs.Host
  net : HostNet σ ω
  sends : HandleSends σ ω

variable {σ ω μ : Type} [RuntimeMemoryAccess μ]

/-! ### The guest's buffers -/

def borrowedBytes (addr len : Nat) : FsProg σ ω μ (Option (List UInt8)) := do
  let s ← .get
  match RuntimeMemoryAccess.borrowedBytes addr len s.memory with
  | .ok slice => pure slice
  | .error _ => .throw efault

def borrowedBytesMut (addr len : Nat) : FsProg σ ω μ (Option (List UInt8 → μ → μ)) :=
  .mapError (fun _ => efault)
    (.zoom RuntimeFileSystem.memory (fun memory s => { s with memory := memory })
      (RuntimeMemoryAccess.borrowedBytesMut addr len))

/-- A borrowed slice, where a fault is no reason to stop. -/
def tryBorrowedBytesMut (addr len : Nat) : FsProg σ ω μ (Option (List UInt8 → μ → μ)) :=
  .tryCatch (borrowedBytesMut addr len) fun _ => pure none

def fill (put : List UInt8 → μ → μ) (bytes : List UInt8) : FsProg σ ω μ Unit :=
  .modify fun s => { s with memory := put bytes s.memory }

structure LinuxIovec where
  iovBase : Nat
  iovLen : Nat
deriving DecidableEq, Repr

def linuxIovMax : Nat := 1024

def readIovecs (addr count : Nat) : FsProg σ ω μ (List LinuxIovec) :=
  if linuxIovMax < count then .throw einval
  else
    .collect (List.range count) fun index => do
      if u64Limit ≤ addr + index * 16 then .throw efault
      else do
        let bytes ← readBytes (addr + index * 16) 16
        pure ⟨ofLeBytes (bytes.take 8), ofLeBytes (bytes.drop 8)⟩

def readIovecBuffers (iovecs : List LinuxIovec) : FsProg σ ω μ (List (List UInt8)) :=
  .collect iovecs fun iovec => readBytes iovec.iovBase iovec.iovLen

/-- `write_iovec_buffers`: the bytes received, spread over the vectors in order. -/
def writeIovecBuffers : List LinuxIovec → List UInt8 → FsProg σ ω μ Unit
  | [], _ => pure ()
  | iovec :: rest, bytes => do
    .when (0 < min iovec.iovLen bytes.length) (writeBytes iovec.iovBase (bytes.take iovec.iovLen))
    if bytes.length ≤ iovec.iovLen then pure () else writeIovecBuffers rest (bytes.drop iovec.iovLen)

def iovecsAreBorrowable (iovecs : List LinuxIovec) : FsProg σ ω μ Bool := do
  let s ← .get
  pure (iovecs.all fun iovec =>
    match RuntimeMemoryAccess.borrowedBytes iovec.iovBase iovec.iovLen s.memory with
    | .ok (some _) => true
    | _ => false)

def iovecsAreBorrowableMut : List LinuxIovec → FsProg σ ω μ Bool
  | [] => pure true
  | iovec :: rest => do
    match ← tryBorrowedBytesMut iovec.iovBase iovec.iovLen with
    | some _ => iovecsAreBorrowableMut rest
    | none => pure false

def borrowedIovecSlices : List LinuxIovec → FsProg σ ω μ (Option (List (List UInt8)))
  | [] => pure (some [])
  | iovec :: rest => do
    match ← borrowedBytes iovec.iovBase iovec.iovLen with
    | none => pure none
    | some bytes => do
      match ← borrowedIovecSlices rest with
      | none => pure none
      | some slices => pure (some (bytes :: slices))

/-- The loop of the vectored calls: a vector that is not moved whole is the last one. -/
def moveIovecs (move : LinuxIovec → FsProg σ ω μ Nat) : List LinuxIovec → Nat → FsProg σ ω μ Nat
  | [], total => pure total
  | iovec :: rest, total => do
    let count ← move iovec
    if u64Limit ≤ total + count then .throw einval
    else if count < iovec.iovLen then pure (total + count)
    else moveIovecs move rest (total + count)

/-! ### The four calls, over the way a descriptor moves bytes -/

/-- `sys_read` once it is known what the descriptor is read with. -/
def readInto (receive : Nat → FsProg σ ω μ (List UInt8)) (addr len : Nat) : FsProg σ ω μ Nat := do
  match ← tryBorrowedBytesMut addr len with
  | some put => do
    let bytes ← receive len
    fill put bytes
    pure bytes.length
  | none => do
    let bytes ← receive len
    writeBytes addr bytes
    pure bytes.length

/-- `sys_write` once the bytes are there. -/
def writeFrom (send : List UInt8 → FsProg σ ω μ Nat) (addr len : Nat) : FsProg σ ω μ Nat := do
  match ← borrowedBytes addr len with
  | some bytes => send bytes
  | none => do
    let bytes ← readBytes addr len
    send bytes

/-- `sys_readv` of anything but a socket; `whole` is the fast path of a regular file, which reads for all
the vectors at once. -/
def readvInto (receive : Nat → FsProg σ ω μ (List UInt8)) (regularFastPath : Bool)
    (whole : List Nat → FsProg σ ω μ (Option (List UInt8))) (iov : List LinuxIovec) : FsProg σ ω μ Nat := do
  let borrowable ← iovecsAreBorrowableMut iov
  if borrowable then
    moveIovecs (fun iovec => do
      match ← borrowedBytesMut iovec.iovBase iovec.iovLen with
      | some put => do
        let bytes ← receive iovec.iovLen
        fill put bytes
        pure bytes.length
      -- the vectors were all borrowed a moment ago
      | none => .throw efault) iov 0
  else if regularFastPath then do
    match ← whole (iov.map LinuxIovec.iovLen) with
    | some bytes => do
      writeIovecBuffers iov bytes
      pure bytes.length
    -- the descriptor was found to be a regular file a moment ago
    | none => .throw einval
  else
    moveIovecs (fun iovec => do
      let bytes ← receive iovec.iovLen
      writeBytes iovec.iovBase bytes
      pure bytes.length) iov 0

/-- `sys_writev` of anything but a socket. -/
def writevFrom (send : List UInt8 → FsProg σ ω μ Nat) (regularFastPath : Bool)
    (whole : List (List UInt8) → FsProg σ ω μ (Option Nat)) (iov : List LinuxIovec) : FsProg σ ω μ Nat := do
  let borrowable ← iovecsAreBorrowable iov
  if borrowable then
    moveIovecs (fun iovec => do
      match ← borrowedBytes iovec.iovBase iovec.iovLen with
      | some bytes => send bytes
      | none => .throw efault) iov 0
  else if regularFastPath then do
    let buffers ← readIovecBuffers iov
    match ← whole buffers with
    | some count => pure count
    | none => .throw einval
  else
    moveIovecs (fun iovec => do
      let bytes ← readBytes iovec.iovBase iovec.iovLen
      send bytes) iov 0

/-! ### The system calls -/

/-- `socket_id_for_fd_or_none`; a socket id is not zero. -/
def socketIdForFdOrNone (fd : Fd) : FsProg σ ω μ (Option SocketId) := do
  let s ← .get
  match (vfsSocketIdForFd fd s.vfs).1 with
  | .ok raw => pure (if raw = 0 then none else some raw)
  | .error .notSocket => pure none
  | .error error => .throw (vfsErrno error)

def canRegularReadvFastPath (fd : Fd) : VirtualFileSystem.Call Bool := do
  let vfs ← .get
  let entry ← .ofExcept (vfs.fds.get fd)
  .ofExcept (Vfs.failIf ((vfs.shared.description entry.description).flags.canRead = false) .badFd)
  pure (decide (entry.file.kind = .regular ∨ entry.file.kind = .symlink))

def canRegularWritevFastPath (fd : Fd) : VirtualFileSystem.Call Bool := do
  let vfs ← .get
  let entry ← .ofExcept (vfs.fds.get fd)
  .ofExcept (Vfs.failIf ((vfs.shared.description entry.description).flags.canWrite = false) .badFd)
  pure (decide (entry.file.kind = .regular))

variable (outside : Outside σ ω)

/-- What a read of the descriptor takes its bytes from. -/
def receiveFrom (socket : Option SocketId) (fd : Fd) (len : Nat) : FsProg σ ω μ (List UInt8) :=
  match socket with
  | some id => onNet (Net.recvConnected outside.net id len)
  | none => onVfs (VirtualFileSystem.read outside.files fd len)

def sendTo (socket : Option SocketId) (fd : Fd) (bytes : List UInt8) : FsProg σ ω μ Nat :=
  match socket with
  | some id => onNet (Net.sendConnected outside.sends id bytes)
  | none => onVfs (VirtualFileSystem.write outside.files fd bytes)

def sysRead (fd : Fd) (addr len : Nat) : FsProg σ ω μ Nat := do
  let socket ← socketIdForFdOrNone fd
  readInto (receiveFrom outside socket fd) addr len

def sysWrite (fd : Fd) (addr len : Nat) : FsProg σ ω μ Nat :=
  writeFrom (fun bytes => do
    let socket ← socketIdForFdOrNone fd
    sendTo outside socket fd bytes) addr len

def sysReadv (fd : Fd) (addr count : Nat) : FsProg σ ω μ Nat := do
  let iov ← readIovecs addr count
  match ← socketIdForFdOrNone fd with
  | some id => do
    let bytes ← onNet (Net.recvConnectedVectored outside.net id (iov.map LinuxIovec.iovLen))
    writeIovecBuffers iov bytes
    pure bytes.length
  | none => do
    let regularFastPath ← onVfs (canRegularReadvFastPath fd)
    readvInto (receiveFrom outside none fd) regularFastPath
      (fun lens => onVfs (VirtualFileSystem.readvRegular outside.files fd lens)) iov

def sysWritev (fd : Fd) (addr count : Nat) : FsProg σ ω μ Nat := do
  let iov ← readIovecs addr count
  match ← socketIdForFdOrNone fd with
  | some id => do
    match ← borrowedIovecSlices iov with
    | some slices => onNet (Net.sendConnectedVectored outside.sends id slices)
    | none => do
      let buffers ← readIovecBuffers iov
      onNet (Net.sendConnectedVectored outside.sends id buffers)
  | none => do
    let regularFastPath ← onVfs (canRegularWritevFastPath fd)
    writevFrom (sendTo outside none fd) regularFastPath
      (fun buffers => onVfs (VirtualFileSystem.writevRegular outside.files fd buffers)) iov

end Mcr.Runtime
