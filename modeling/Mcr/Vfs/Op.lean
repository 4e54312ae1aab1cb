import Mcr.Vfs.System

/-!
# Runs of the virtual file system

The calls that change a `VirtualFileSystem` or its cache, as data, and the runs they make up. A call that
fails is a step like any other.
-/

namespace Mcr.Vfs

def Host.empty : Host where
  readFile _ := none
  openRead _ := .error .notFound
  readAt _ _ _ := .error .notFound
  mapReadonlyAt _ _ _ := .error .notFound
  getrandom _ := none
  pipePair _ := false
  pipeTransfer _ := .error .unavailable

/-- The calls `tree_mut` gives access to. -/
inductive TreeOp
  | createDir (path : String)
  | createFile (path : String)
  | createFileWithContent (path : String) (data : List UInt8) (mode : UInt32)
  | createFileWithHostContent (path : String) (hostPath : HostPath) (size : Nat) (mode : UInt32)
  | createSymlink (path target : String)
  | mountMinimalDevfs
  | mountMinimalProcfs
  | setMode (path : GuestPath) (mode : UInt32)

def TreeOp.exec : TreeOp → PathTree.Call Unit
  | .createDir path => do let _ ← PathTree.createDir path
  | .createFile path => do let _ ← PathTree.createFile path
  | .createFileWithContent path data mode => do let _ ← PathTree.createFileWithContent path data mode
  | .createFileWithHostContent path hostPath size mode => do
    let _ ← PathTree.createFileWithHostContent path hostPath size mode
  | .createSymlink path target => do let _ ← PathTree.createSymlink path target
  | .mountMinimalDevfs => PathTree.mountMinimalDevfs
  | .mountMinimalProcfs => PathTree.mountMinimalProcfs
  | .setMode path mode =>
    PathTree.withPath path (.modify fun node => { node with metadata := node.metadata.setMode mode })

inductive Op
  | treeMut (op : TreeOp)
  | mountMinimalDevfs
  | mountMinimalProcfs
  | setProcSelf (procSelf : ProcSelfData)
  | replaceFds (fds : FdTable)
  | closeOnExec
  | takeStdout
  | takeStderr
  | chdir (path : String)
  | setUmask (mask : UInt32)
  | openat (dirfd : Fd) (path : String) (flags : OpenFlags) (mode : UInt32)
  | close (fd : Fd)
  | closeWithFile (fd : Fd)
  | read (fd : Fd) (len : Nat)
  | pread (fd : Fd) (offset len : Nat)
  | readvRegular (fd : Fd) (lengths : List Nat)
  | mapReadonlyRegularFileAt (fd : Fd) (offset len : Nat)
  | write (fd : Fd) (bytes : List UInt8)
  | pwrite (fd : Fd) (offset : Nat) (bytes : List UInt8)
  | writevRegular (fd : Fd) (buffers : List (List UInt8))
  | ftruncate (fd : Fd) (length : Nat)
  | fallocate (fd : Fd) (offset length : Nat)
  | lseek (fd : Fd) (offset : Int) (whence : SeekWhence)
  | pipe (flags : OpenFlags)
  | insertSocket (socketId : Nat) (flags : OpenFlags)
  | insertEpoll (epollId : Nat) (flags : OpenFlags)
  | eventfd (initial : Nat) (flags : OpenFlags)
  | dup (oldfd : Fd)
  | dup2 (oldfd newfd : Fd)
  | dup3 (oldfd newfd : Fd) (flags : OpenFlags)
  | fcntl (fd : Fd) (cmd : UInt32) (arg : Nat)
  | fstat (fd : Fd)
  | newfstatat (dirfd : Fd) (path : String) (flags : UInt32)
  | statx (dirfd : Fd) (path : String) (flags : UInt32)
  | access (path : String) (mode : UInt32)
  | faccessat2 (dirfd : Fd) (path : String) (mode flags : UInt32)
  | getdents64 (fd : Fd) (maxBytes : Nat)
  | chmod (path : String) (mode : UInt32)
  | chown (path : String) (uid gid : Option UInt32)
  | utimensat (dirfd : Fd) (path : String) (times : FileTimes) (flags : UInt32)
  | mkdirat (dirfd : Fd) (path : String) (mode : UInt32)
  | symlinkat (target : String) (newdirfd : Fd) (linkpath : String)
  | linkat (olddirfd : Fd) (oldpath : String) (newdirfd : Fd) (newpath : String) (flags : UInt32)
  | unlinkat (dirfd : Fd) (path : String) (flags : UInt32)
  | renameat2 (olddirfd : Fd) (oldpath : String) (newdirfd : Fd) (newpath : String) (flags : UInt32)

open VirtualFileSystem in
def Op.exec (host : Host) : Op → Call Unit
  | .treeMut op => VirtualFileSystem.treeMut op.exec
  | .mountMinimalDevfs => VirtualFileSystem.mountMinimalDevfs
  | .mountMinimalProcfs => VirtualFileSystem.mountMinimalProcfs
  | .setProcSelf procSelf => VirtualFileSystem.setProcSelf procSelf
  | .replaceFds fds => do let _ ← VirtualFileSystem.replaceFds fds
  | .closeOnExec => onFiles Files.closeOnExec
  | .takeStdout => do let _ ← VirtualFileSystem.takeStdout
  | .takeStderr => do let _ ← VirtualFileSystem.takeStderr
  | .chdir path => VirtualFileSystem.chdir path
  | .setUmask mask => do let _ ← VirtualFileSystem.setUmask mask
  | .openat dirfd path flags mode => do let _ ← VirtualFileSystem.openat host dirfd path flags mode
  | .close fd => VirtualFileSystem.close fd
  | .closeWithFile fd => do let _ ← VirtualFileSystem.closeWithFile fd
  | .read fd len => do let _ ← VirtualFileSystem.read host fd len
  | .pread fd offset len => do let _ ← VirtualFileSystem.pread host fd offset len
  | .readvRegular fd lengths => do let _ ← VirtualFileSystem.readvRegular host fd lengths
  | .mapReadonlyRegularFileAt fd offset len => do
    let _ ← VirtualFileSystem.mapReadonlyRegularFileAt host fd offset len
  | .write fd bytes => do let _ ← VirtualFileSystem.write host fd bytes
  | .pwrite fd offset bytes => do let _ ← VirtualFileSystem.pwrite host fd offset bytes
  | .writevRegular fd buffers => do let _ ← VirtualFileSystem.writevRegular host fd buffers
  | .ftruncate fd length => VirtualFileSystem.ftruncate host fd length
  | .fallocate fd offset length => VirtualFileSystem.fallocate host fd offset length
  | .lseek fd offset whence => do let _ ← VirtualFileSystem.lseek fd offset whence
  | .pipe flags => do let _ ← onFiles (Files.pipe host flags)
  | .insertSocket socketId flags => do let _ ← onFiles (Files.insertSocket socketId flags)
  | .insertEpoll epollId flags => do let _ ← onFiles (Files.insertEpoll epollId flags)
  | .eventfd initial flags => do let _ ← onFiles (Files.eventfd initial flags)
  | .dup oldfd => do let _ ← VirtualFileSystem.dup oldfd
  | .dup2 oldfd newfd => do let _ ← VirtualFileSystem.dup2 oldfd newfd
  | .dup3 oldfd newfd flags => do let _ ← VirtualFileSystem.dup3 oldfd newfd flags
  | .fcntl fd cmd arg => do let _ ← VirtualFileSystem.fcntl fd cmd arg
  | .fstat fd => do let _ ← VirtualFileSystem.fstat fd
  | .newfstatat dirfd path flags => do let _ ← VirtualFileSystem.newfstatat dirfd path flags
  | .statx dirfd path flags => do let _ ← VirtualFileSystem.statx dirfd path flags
  | .access path mode => VirtualFileSystem.access path mode
  | .faccessat2 dirfd path mode flags => VirtualFileSystem.faccessat2 dirfd path mode flags
  | .getdents64 fd maxBytes => do let _ ← VirtualFileSystem.getdents64 fd maxBytes
  | .chmod path mode => VirtualFileSystem.chmod path mode
  | .chown path uid gid => VirtualFileSystem.chown path uid gid
  | .utimensat dirfd path times flags => VirtualFileSystem.utimensat dirfd path times flags
  | .mkdirat dirfd path mode => VirtualFileSystem.mkdirat dirfd path mode
  | .symlinkat target newdirfd linkpath => VirtualFileSystem.symlinkat target newdirfd linkpath
  | .linkat olddirfd oldpath newdirfd newpath flags =>
    VirtualFileSystem.linkat olddirfd oldpath newdirfd newpath flags
  | .unlinkat dirfd path flags => VirtualFileSystem.unlinkat dirfd path flags
  | .renameat2 olddirfd oldpath newdirfd newpath flags =>
    VirtualFileSystem.renameat2 olddirfd oldpath newdirfd newpath flags

namespace VirtualFileSystem

/-- The state a call leaves, whether it returned or failed. -/
def step (host : Host) (vfs : VirtualFileSystem) (op : Op) : VirtualFileSystem := (op.exec host vfs).2

def run (host : Host) (vfs : VirtualFileSystem) (ops : List Op) : VirtualFileSystem :=
  ops.foldl (step host) vfs

/-- Every step of the run finds a state that meets its condition. -/
def Along (host : Host) (condition : VirtualFileSystem → Op → Prop) :
    VirtualFileSystem → List Op → Prop
  | _, [] => True
  | vfs, op :: ops => condition vfs op ∧ Along host condition (vfs.step host op) ops

theorem run_invariant {host : Host} {condition : VirtualFileSystem → Op → Prop}
    {I : VirtualFileSystem → Prop}
    (hstep : ∀ vfs op, I vfs → condition vfs op → I (vfs.step host op)) :
    ∀ ops vfs, I vfs → Along host condition vfs ops → I (vfs.run host ops) := by
  intro ops
  induction ops with
  | nil => intro vfs hI _; exact hI
  | cons op ops ih =>
      intro vfs hI hrun
      exact ih (vfs.step host op) (hstep vfs op hI hrun.1) hrun.2

theorem run_append (host : Host) (vfs : VirtualFileSystem) (first second : List Op) :
    vfs.run host (first ++ second) = (vfs.run host first).run host second :=
  List.foldl_append

theorem along_append {host : Host} {condition : VirtualFileSystem → Op → Prop} (first : List Op) :
    ∀ {vfs : VirtualFileSystem} {second : List Op}, Along host condition vfs (first ++ second) →
      Along host condition vfs first ∧ Along host condition (vfs.run host first) second := by
  induction first with
  | nil => exact fun h => ⟨trivial, h⟩
  | cons op first ih => exact fun h => ⟨⟨h.1, (ih h.2).1⟩, (ih h.2).2⟩

def blank : VirtualFileSystem := fromParts (.new "/") .new .new .empty

end VirtualFileSystem

end Mcr.Vfs
