import Mcr.Lib.Prog
import Mcr.Lib.SortedMap

/-!
# Inodes of the virtual file system

The errors, flag words and attribute records of the file system, and the `PathNode` every name of the
tree leads to. A file of the image keeps its bytes on the host until the first change, so the host is a
parameter: `Host` answers for the files and pipes the program asks it for. Memory is taken as
unbounded: a `Vec` that grows never fails.
-/

namespace Mcr.Vfs

abbrev Fd := Int
abbrev InodeId := Nat

def u64Limit : Nat := 2 ^ 64
def i64Max : Int := 2 ^ 63 - 1
def i32Max : Int := 2 ^ 31 - 1

inductive VfsError
  | alreadyExists
  | badFd
  | brokenPipe
  | busy
  | invalidPath
  | isDirectory
  | loop
  | nameTooLong
  | noEntry
  | notEmpty
  | noSpace
  | notSeekable
  | notSocket
  | notTerminal
  | notDirectory
  | notPermitted
  | permissionDenied
  | wouldBlock
deriving DecidableEq, Repr

def okOr {α : Type} (option : Option α) (error : VfsError) : Except VfsError α :=
  match option with
  | some a => .ok a
  | none => .error error

/-- An early `return Err(error)` under a condition. -/
def failIf (c : Prop) [Decidable c] (error : VfsError) : Except VfsError Unit :=
  if c then .error error else .ok ()

@[simp] theorem okOr_eq_ok {α : Type} {option : Option α} {error : VfsError} {a : α} :
    okOr option error = .ok a ↔ option = some a := by
  cases option <;> simp [okOr]

@[simp] theorem failIf_eq_ok {c : Prop} [Decidable c] {error : VfsError} {u : Unit} :
    failIf c error = .ok u ↔ ¬ c := by
  by_cases hc : c <;> simp [failIf, hc]

theorem failIf_eq_error {c : Prop} [Decidable c] {error error' : VfsError}
    (h : failIf c error = .error error') : error' = error := by
  by_cases hc : c
  · rw [failIf, if_pos hc] at h
    exact (Except.error.inj h).symm
  · rw [failIf, if_neg hc] at h
    nomatch h

theorem holds_of_failIf_error {c : Prop} [Decidable c] {error error' : VfsError}
    (h : failIf c error = .error error') : c := by
  by_contra hc
  rw [failIf, if_neg hc] at h
  nomatch h

/-! ### Flag words -/

def atFdcwd : Fd := -100
def atEmptyPath : UInt32 := 0x1000
def atRemovedir : UInt32 := 0x200
def atSymlinkFollow : UInt32 := 0x400
def atSymlinkNofollow : UInt32 := 0x100
def defaultUmask : UInt32 := 0o022
def dtUnknown : UInt8 := 0
def dtChr : UInt8 := 2
def dtDir : UInt8 := 4
def dtReg : UInt8 := 8
def dtLnk : UInt8 := 10
def dtSock : UInt8 := 12
def fDupfd : UInt32 := 0
def fGetfd : UInt32 := 1
def fSetfd : UInt32 := 2
def fGetfl : UInt32 := 3
def fSetfl : UInt32 := 4
def fSetlk : UInt32 := 6
def fSetlkw : UInt32 := 7
def fDupfdCloexec : UInt32 := 1030
def fSetpipeSz : UInt32 := 1031
def fGetpipeSz : UInt32 := 1032
def fdCloexec : UInt32 := 1
def fOk : UInt32 := 0
def oAccmode : UInt32 := 0o3
def oRdonly : UInt32 := 0
def oWronly : UInt32 := 1
def oRdwr : UInt32 := 2
def oCreat : UInt32 := 0o100
def oExcl : UInt32 := 0o200
def oTrunc : UInt32 := 0o1000
def oAppend : UInt32 := 0o2000
def oNonblock : UInt32 := 0o4000
def oDirectory : UInt32 := 0o200000
def oNofollow : UInt32 := 0o400000
def oCloexec : UInt32 := 0o2000000
def rOk : UInt32 := 4
def wOk : UInt32 := 2
def xOk : UInt32 := 1
def renameNoreplace : UInt32 := 1
def renameExchange : UInt32 := 2
def supportedRenameFlags : UInt32 := renameNoreplace ||| renameExchange
def sIfmt : UInt32 := 0o170000
def sIfifo : UInt32 := 0o010000
def sIfdir : UInt32 := 0o040000
def sIfreg : UInt32 := 0o100000
def sIflnk : UInt32 := 0o120000
def sIfchr : UInt32 := 0o020000
def sIfsock : UInt32 := 0o140000
def setflMutableFlags : UInt32 := oAppend ||| oNonblock

def rootInodeId : InodeId := 1
def procInodeId : InodeId := 2 ^ 60
def procSelfInodeId : InodeId := procInodeId + 1
def procSelfExeInodeId : InodeId := procInodeId + 2
def procSelfCmdlineInodeId : InodeId := procInodeId + 3
def procSelfEnvironInodeId : InodeId := procInodeId + 4
def procSelfFdInodeId : InodeId := procInodeId + 5
def firstProcSelfFdLinkInodeId : InodeId := procInodeId + 1024
def devNullInodeId : InodeId := 2 ^ 61
def devZeroInodeId : InodeId := devNullInodeId + 1
def devUrandomInodeId : InodeId := devNullInodeId + 2
def firstPipeInodeId : InodeId := 2 ^ 62
def firstSocketInodeId : InodeId := 2 ^ 59
def firstEpollInodeId : InodeId := 2 ^ 59 + 2 ^ 58
def firstEventfdInodeId : InodeId := 2 ^ 59 + 2 ^ 57
def firstAllocFd : Fd := 0
def defaultPipeCapacity : Nat := 65536
def minPipeCapacity : Nat := 4096
def symlinkLimit : Nat := 40
def smallReadCacheLimit : Nat := 4096
def hostReadHandleCacheLimit : Nat := 32

theorem or_and_mask {keep mask : UInt32} (h : keep &&& mask = 0) (a b : UInt32) :
    (a ||| (b &&& keep)) &&& mask = a &&& mask := by
  have hdistrib : (a ||| (b &&& keep)) &&& mask = (a &&& mask) ||| (b &&& keep &&& mask) :=
    UInt32.toBitVec_inj.mp BitVec.and_or_distrib_right
  rw [hdistrib, UInt32.and_assoc, h]
  simp

structure OpenFlags where
  raw : UInt32
deriving DecidableEq, Repr

namespace OpenFlags

def accessMode (flags : OpenFlags) : UInt32 := flags.raw &&& oAccmode
def canRead (flags : OpenFlags) : Bool := flags.accessMode = oRdonly || flags.accessMode = oRdwr
def canWrite (flags : OpenFlags) : Bool := flags.accessMode = oWronly || flags.accessMode = oRdwr
def cloexec (flags : OpenFlags) : Bool := flags.raw &&& oCloexec ≠ 0
def create (flags : OpenFlags) : Bool := flags.raw &&& oCreat ≠ 0
def exclusive (flags : OpenFlags) : Bool := flags.raw &&& oExcl ≠ 0
def truncate (flags : OpenFlags) : Bool := flags.raw &&& oTrunc ≠ 0
def append (flags : OpenFlags) : Bool := flags.raw &&& oAppend ≠ 0
def directory (flags : OpenFlags) : Bool := flags.raw &&& oDirectory ≠ 0
def nofollow (flags : OpenFlags) : Bool := flags.raw &&& oNofollow ≠ 0

def withStatusFlags (flags : OpenFlags) (statusFlags : UInt32) : OpenFlags :=
  ⟨(flags.raw &&& ~~~setflMutableFlags) ||| (statusFlags &&& setflMutableFlags)⟩

end OpenFlags

/-! ### Attributes -/

structure LinuxFileAttr where
  inode : InodeId
  mode : UInt32
  uid : UInt32
  gid : UInt32
  nlink : Nat
  size : Nat
  blksize : Nat
  blocks : Nat
  atimeSec : Int
  atimeNsec : Int
  mtimeSec : Int
  mtimeNsec : Int
  ctimeSec : Int
  ctimeNsec : Int
deriving DecidableEq, Repr

structure FileTimes where
  atimeSec : Int
  atimeNsec : Int
  mtimeSec : Int
  mtimeNsec : Int
deriving DecidableEq, Repr

def blocksOf (size : Nat) : Nat := (size + 511) / 512

/-- `i64::saturating_add(1)`. -/
def tick (nsec : Int) : Int := if nsec < i64Max then nsec + 1 else nsec

namespace LinuxFileAttr

def new (inode : InodeId) (mode : UInt32) (size : Nat) : LinuxFileAttr where
  inode := inode
  mode := mode
  uid := 0
  gid := 0
  nlink := if mode &&& sIfmt = sIfdir then 2 else 1
  size := size
  blksize := 4096
  blocks := blocksOf size
  atimeSec := 0
  atimeNsec := 0
  mtimeSec := 0
  mtimeNsec := 0
  ctimeSec := 0
  ctimeNsec := 0

def directoryWithMode (inode : InodeId) (mode : UInt32) : LinuxFileAttr :=
  new inode (sIfdir ||| (mode &&& 0o7777)) 0

def directory (inode : InodeId) : LinuxFileAttr := directoryWithMode inode 0o755

def regular (inode : InodeId) (mode : UInt32) (size : Nat) : LinuxFileAttr :=
  new inode (sIfreg ||| (mode &&& 0o7777)) size

def symlink (inode : InodeId) (size : Nat) : LinuxFileAttr := new inode (sIflnk ||| 0o777) size

def characterDevice (inode : InodeId) (mode : UInt32) : LinuxFileAttr :=
  new inode (sIfchr ||| (mode &&& 0o7777)) 0

def socket (inode : InodeId) : LinuxFileAttr := new inode (sIfsock ||| 0o666) 0

def fifo (inode : InodeId) : LinuxFileAttr := new inode (sIfifo ||| 0o600) 0

def kindBits (attr : LinuxFileAttr) : UInt32 := attr.mode &&& sIfmt

def isDirectory (attr : LinuxFileAttr) : Bool := attr.kindBits = sIfdir

def isSymlink (attr : LinuxFileAttr) : Bool := attr.kindBits = sIflnk

def direntType (attr : LinuxFileAttr) : UInt8 :=
  if attr.kindBits = sIfdir then dtDir
  else if attr.kindBits = sIfreg then dtReg
  else if attr.kindBits = sIflnk then dtLnk
  else if attr.kindBits = sIfchr then dtChr
  else if attr.kindBits = sIfsock then dtSock
  else dtUnknown

def checkAccess (attr : LinuxFileAttr) (mode : UInt32) : Except VfsError Unit := do
  failIf (mode &&& ~~~(rOk ||| wOk ||| xOk) ≠ 0) .invalidPath
  if mode = fOk then return
  let permissions := attr.mode &&& 0o777
  failIf (mode &&& rOk ≠ 0 ∧ permissions &&& 0o444 = 0) .permissionDenied
  failIf (mode &&& wOk ≠ 0 ∧ permissions &&& 0o222 = 0) .permissionDenied
  failIf (mode &&& xOk ≠ 0 ∧ permissions &&& 0o111 = 0) .permissionDenied

end LinuxFileAttr

structure MetadataSidecar where
  attr : LinuxFileAttr
deriving DecidableEq, Repr

namespace MetadataSidecar

def touchMtime (m : MetadataSidecar) : MetadataSidecar :=
  ⟨{ m.attr with mtimeNsec := tick m.attr.mtimeNsec }⟩

def touchCtime (m : MetadataSidecar) : MetadataSidecar :=
  ⟨{ m.attr with ctimeNsec := tick m.attr.ctimeNsec }⟩

def setMode (m : MetadataSidecar) (mode : UInt32) : MetadataSidecar :=
  touchCtime ⟨{ m.attr with mode := (m.attr.mode &&& sIfmt) ||| (mode &&& 0o7777) }⟩

def setOwner (m : MetadataSidecar) (uid gid : Option UInt32) : MetadataSidecar :=
  touchCtime ⟨{ m.attr with uid := uid.getD m.attr.uid, gid := gid.getD m.attr.gid }⟩

def setSize (m : MetadataSidecar) (size : Nat) : MetadataSidecar :=
  touchCtime (touchMtime ⟨{ m.attr with size := size, blocks := blocksOf size }⟩)

def incrementLinkCount (m : MetadataSidecar) : Except VfsError MetadataSidecar :=
  if m.attr.nlink + 1 < u64Limit then .ok (touchCtime ⟨{ m.attr with nlink := m.attr.nlink + 1 }⟩)
  else .error .noSpace

def decrementLinkCount (m : MetadataSidecar) : MetadataSidecar :=
  touchCtime ⟨{ m.attr with nlink := m.attr.nlink - 1 }⟩

def setTimes (m : MetadataSidecar) (times : FileTimes) : MetadataSidecar :=
  touchCtime ⟨{ m.attr with
    atimeSec := times.atimeSec
    atimeNsec := times.atimeNsec
    mtimeSec := times.mtimeSec
    mtimeNsec := times.mtimeNsec }⟩

end MetadataSidecar

/-! ### Nodes -/

inductive DevNodeKind
  | null
  | zero
  | urandom
  | stdin
  | stdout
  | stderr
deriving DecidableEq, Repr

def DevNodeKind.name : DevNodeKind → String
  | null => "null"
  | zero => "zero"
  | urandom => "urandom"
  | stdin => "stdin"
  | stdout => "stdout"
  | stderr => "stderr"

inductive ProcNodeKind
  | directory
  | exe
  | cmdline
  | environ
  | fdDirectory
  | fdLink (fd : Fd)
deriving DecidableEq, Repr

inductive StdioKind
  | stdin
  | stdout
  | stderr
deriving DecidableEq, Repr

def StdioKind.name : StdioKind → String
  | stdin => "stdin"
  | stdout => "stdout"
  | stderr => "stderr"

def StdioKind.toDevNodeKind : StdioKind → DevNodeKind
  | stdin => .stdin
  | stdout => .stdout
  | stderr => .stderr

inductive FileKind
  | regular
  | directory
  | symlink
  | dev (kind : DevNodeKind)
  | pipeRead
  | pipeWrite
  | socket
  | epoll
  | eventfd
  | stdio (kind : StdioKind)
deriving DecidableEq, Repr

namespace ProcNodeKind

def attr (kind : ProcNodeKind) (inode : InodeId) (mode : UInt32) : LinuxFileAttr :=
  match kind with
  | directory | fdDirectory => .directoryWithMode inode mode
  | exe | fdLink _ => .symlink inode 0
  | cmdline | environ => .regular inode mode 0

def fileKind : ProcNodeKind → FileKind
  | directory | fdDirectory => .directory
  | exe | fdLink _ => .symlink
  | cmdline | environ => .regular

def name : ProcNodeKind → String
  | directory => "directory"
  | exe => "self/exe"
  | cmdline => "self/cmdline"
  | environ => "self/environ"
  | fdDirectory => "self/fd"
  | fdLink _ => "self/fd"

end ProcNodeKind

inductive PathNodeKind
  | directory
  | file
  | device (kind : DevNodeKind)
  | proc (kind : ProcNodeKind)
  | symlink (target : String)
deriving DecidableEq, Repr

def isDirectoryKind : PathNodeKind → Bool
  | .directory | .proc .directory | .proc .fdDirectory => true
  | _ => false

abbrev HostPath := String

inductive HostErrorKind
  | notFound
  | accessDenied
  | alreadyExists
  | invalidInput
  | timedOut
  | interrupted
  | wouldBlock
  | brokenPipe
  | outOfMemory
  | unsupported
  | poisoned
  | unavailable
  | other
deriving DecidableEq, Repr

def vfsErrorFromHost : HostErrorKind → VfsError
  | .notFound => .noEntry
  | .accessDenied => .permissionDenied
  | .interrupted | .wouldBlock => .wouldBlock
  | .brokenPipe => .brokenPipe
  | _ => .invalidPath

/-- The host's answers: `fs::read` of a whole file, the handle opened for reading and what is read
through it, a read-only mapping, random bytes, whether a pipe gets a host pipe pair, and how many of the
requested bytes one transfer through it moves that the pair's buffer has room for. -/
structure Host where
  readFile : HostPath → Option (List UInt8)
  openRead : HostPath → Except HostErrorKind Unit
  readAt : HostPath → Nat → Nat → Except HostErrorKind (List UInt8)
  mapReadonlyAt : HostPath → Nat → Nat → Except HostErrorKind (List UInt8)
  getrandom : Nat → Option (List UInt8)
  pipePair : Nat → Bool
  pipeTransfer : Nat → Except HostErrorKind Nat

structure PathNode where
  inodeId : InodeId
  kind : PathNodeKind
  metadata : MetadataSidecar
  data : List UInt8
  deferredHostPath : Option HostPath
deriving DecidableEq, Repr

/-- `Vec::resize` with zeros, to a length that a `Vec` can have: a longer one is a panic. -/
def resizeBytes (data : List UInt8) (length : Nat) : List UInt8 :=
  data.take length ++ List.replicate (length - data.length) 0

/-- `copy_from_slice` into `data[offset..]`. -/
def overwriteAt (data : List UInt8) (offset : Nat) (bytes : List UInt8) : List UInt8 :=
  data.take offset ++ bytes ++ data.drop (offset + bytes.length)

namespace PathNode

def directory (inodeId : InodeId) : PathNode :=
  ⟨inodeId, .directory, ⟨.directory inodeId⟩, [], none⟩

def attr (node : PathNode) : LinuxFileAttr := node.metadata.attr

def isDirectory (node : PathNode) : Bool := isDirectoryKind node.kind

/-- A change of a node that may stop early with part of it done. -/
abbrev Change := Prog PathNode VfsError

def materializeDeferredContent (host : Host) : Change Unit := fun node =>
  match node.deferredHostPath with
  | none => (.ok (), node)
  | some path =>
    match host.readFile path with
    | none => (.error .noEntry, node)
    | some data => (.ok (), { node with data := data, deferredHostPath := none })

def setLen (host : Host) (length : Nat) : Change Unit := do
  let node ← .get
  .ofExcept (failIf (node.kind ≠ .file) .invalidPath)
  materializeDeferredContent host
  .modify fun node =>
    { node with data := resizeBytes node.data length, metadata := node.metadata.setSize length }

def truncate (host : Host) : Change Unit := setLen host 0

def writeAt (host : Host) (offset : Nat) (bytes : List UInt8) : Change Nat := do
  let node ← .get
  .ofExcept (failIf (node.kind ≠ .file) .invalidPath)
  materializeDeferredContent host
  let stop := offset + bytes.length
  .ofExcept (failIf (u64Limit ≤ stop) .invalidPath)
  .modify fun node =>
    let data := if node.data.length < stop then resizeBytes node.data stop else node.data
    let data := overwriteAt data offset bytes
    { node with data := data, metadata := node.metadata.setSize data.length }
  pure bytes.length

def incrementLinkCount : Change Unit := fun node =>
  match node.metadata.incrementLinkCount with
  | .ok metadata => (.ok (), { node with metadata := metadata })
  | .error error => (.error error, node)

def decrementLinkCount (node : PathNode) : PathNode :=
  { node with metadata := node.metadata.decrementLinkCount }

end PathNode

/-! ### Data of `/proc/self` -/

structure ProcSelfData where
  executablePath : List UInt8
  argv : List (List UInt8)
  envp : List (List UInt8)
deriving DecidableEq, Repr

def nulJoinedEntries (entries : List (List UInt8)) : List UInt8 := entries.flatMap (· ++ [0])

def ProcSelfData.cmdlineBytes (procSelf : ProcSelfData) : List UInt8 := nulJoinedEntries procSelf.argv

def ProcSelfData.environBytes (procSelf : ProcSelfData) : List UInt8 := nulJoinedEntries procSelf.envp

end Mcr.Vfs
