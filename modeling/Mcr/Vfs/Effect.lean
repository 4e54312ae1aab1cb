import Mcr.Vfs.RenameCall

/-!
# What one call can do

`Effect` lists the ways a call may leave the tree, the table of descriptors and the cache, whether it
returns or fails. It says of each what the call had checked before, so that an invariant of the runs is
a case analysis over `Effect` and never looks into a call again.

A call that hands out an inode id relies on the id being free. The counter does not check that, and the
mounts use fixed ids, so `Sane` asks for it.
-/

namespace Mcr.Vfs

open Subtree

namespace PathNode

def content (host : Host) (node : PathNode) : Option (List UInt8) :=
  match node.deferredHostPath with
  | some path => host.readFile path
  | none => some node.data

/-- What a change in place never touches. -/
structure Same (node node' : PathNode) : Prop where
  inodeId : node'.inodeId = node.inodeId
  kind : node'.kind = node.kind
  kindBits : node'.attr.kindBits = node.attr.kindBits

theorem Same.refl (node : PathNode) : Same node node := ⟨rfl, rfl, rfl⟩

theorem Same.trans {node node' node'' : PathNode} (h : Same node node') (h' : Same node' node'') :
    Same node node'' :=
  ⟨h'.inodeId.trans h.inodeId, h'.kind.trans h.kind, h'.kindBits.trans h.kindBits⟩

theorem Same.isDirectory {node node' : PathNode} (h : Same node node') :
    node'.isDirectory = node.isDirectory := by
  rw [PathNode.isDirectory, PathNode.isDirectory, h.kind]

end PathNode

namespace PathTree

def allocated (tree : PathTree) : PathTree :=
  { tree with nextInodeId := (tree.nextInodeId + 1) % u64Limit }

/-- The id the tree hands out next belongs to no node. -/
def FreshId (tree : PathTree) : Prop := tree.inodes.get? tree.nextInodeId = none

/-- One change of a tree that is being built. -/
inductive Grows (tree : PathTree) : PathTree → Prop
  | allocate : Grows tree tree.allocated
  | node {dir : GuestPath} {name : String} {node : PathNode} (hdir : tree.IsDir dir)
      (hnew : tree.nodes.get? (dir ++ [name]) = none) (hid : tree.inodes.get? node.inodeId = none) :
      Grows tree (tree.addNode (dir ++ [name]) node)
  | replace {path : GuestPath} {node : PathNode} (hdir : tree.IsDir path)
      (hnode : node.isDirectory = true) (hid : tree.inodes.get? node.inodeId = none) :
      Grows tree (tree.replacePathNode path node)
  | change {i : InodeId} {node node' : PathNode} (hnode : tree.inodes.get? i = some node)
      (hsame : node.Same node') : Grows tree { tree with inodes := tree.inodes.insert i node' }

/-- A tree some changes later. -/
abbrev Grown : PathTree → PathTree → Prop := Relation.ReflTransGen Grows

end PathTree

namespace VfsCache

/-- The entries of `ids` are dropped, and perhaps more. -/
structure Drops (cache cache' : VfsCache) (ids : List InodeId) : Prop where
  metadata : ∀ i attr, cache'.metadataOf i = some attr → i ∉ ids ∧ cache.metadataOf i = some attr
  listing : ∀ i entries, cache'.directoryListing i = some entries →
    i ∉ ids ∧ cache.directoryListing i = some entries
  smallRead : ∀ i data, cache'.smallRead i = some data → i ∉ ids ∧ cache.smallRead i = some data
  generation : ∀ i, ∃ n ≤ 3, cache'.keyGeneration i = (cache.keyGeneration i + n) % u64Limit ∧
    (i ∈ ids → 0 < n)

end VfsCache

/-- The calls that build the tree. -/
def Op.isSetup : Op → Bool
  | .treeMut _ | .mountMinimalDevfs | .mountMinimalProcfs => true
  | _ => false

/-- The calls that only look at the tree, or do not come near it. -/
def Op.isQuiet : Op → Bool
  | .setProcSelf _ | .closeOnExec | .takeStdout | .takeStderr | .chdir _ | .setUmask _ | .read _ _
  | .pread _ _ _ | .readvRegular _ _ | .mapReadonlyRegularFileAt _ _ _ | .lseek _ _ _ | .pipe _
  | .insertSocket _ _ | .insertEpoll _ _ | .eventfd _ _ | .dup _ | .dup2 _ _ | .dup3 _ _ _ | .fcntl _ _ _
  | .fstat _ | .newfstatat _ _ _ | .statx _ _ _ | .access _ _ | .faccessat2 _ _ _ _ | .getdents64 _ _ => true
  | _ => false

namespace PathTree

/-- The mount of devfs finds the ids it uses free. -/
structure DevfsSane (tree : PathTree) : Prop where
  directory : tree.nodes.get? ["dev"] = none →
    tree.FreshId ∧ ∀ node ∈ devNodes, tree.nextInodeId ≠ node.inodeId
  nodes : ∀ node ∈ devNodes, ∀ path, parseAbsolutePath node.path = .ok path → tree.nodes.get? path = none →
    tree.inodes.get? node.inodeId = none

/-- The mount of procfs finds the ids it uses free. -/
def ProcfsSane (tree : PathTree) : Prop :=
  ∀ node ∈ procStaticNodes, ∀ path, parseAbsolutePath node.path = .ok path →
    (∀ old, tree.lookupPath path = some old → old.kind = .directory) → tree.inodes.get? node.inodeId = none

end PathTree

def TreeOp.Sane (tree : PathTree) : TreeOp → Prop
  | .createDir _ | .createFile _ | .createFileWithContent _ _ _ | .createFileWithHostContent _ _ _ _
  | .createSymlink _ _ => tree.FreshId
  | .mountMinimalDevfs => tree.DevfsSane
  | .mountMinimalProcfs => tree.ProcfsSane
  | .setMode _ _ => True

namespace VirtualFileSystem

/-- The ids the call hands out are free. -/
def Sane (vfs : VirtualFileSystem) : Op → Prop
  | .treeMut op => op.Sane vfs.tree
  | .mountMinimalDevfs => vfs.tree.DevfsSane
  | .mountMinimalProcfs => vfs.tree.ProcfsSane
  | .openat _ _ flags _ => flags.create = true → vfs.tree.FreshId
  | .mkdirat _ _ _ | .symlinkat _ _ _ => vfs.tree.FreshId
  | _ => True

/-- What a query may have put into the cache. -/
inductive Filled (vfs : VirtualFileSystem) : VfsCache → Prop
  | same : Filled vfs vfs.cache
  | metadata {i : InodeId} {node : PathNode} (hnode : vfs.tree.inodes.get? i = some node) :
      Filled vfs (vfs.cache.insertMetadata i node.attr)
  | listing {path : GuestPath} {i : InodeId} {entries : List DirectoryEntry}
      (hpath : vfs.tree.nodes.get? path = some i)
      (hentries : staticDirectoryEntries vfs.tree path = .ok entries) :
      Filled vfs (vfs.cache.insertDirectoryListing i entries)
  | smallRead {i : InodeId} {node : PathNode} (hnode : vfs.tree.inodes.get? i = some node)
      (hdata : node.deferredHostPath = none) : Filled vfs (vfs.cache.insertSmallRead i node.data)
  | handles (handles : SortedMap InodeId HostReadHandleCacheEntry) (lru : List InodeId) :
      Filled vfs { vfs.cache with hostReadHandles := handles, hostReadLru := lru }
  | emptied : Filled vfs vfs.cache.invalidateProcViews

/-- Every entry of the table was in it before, or stands for no node of the tree. -/
def Inherits (fds fds' : FdTable) : Prop :=
  ∀ fd entry, fds'.entries.get? fd = some entry →
    isAnonymous entry.file.kind = true ∨ ∃ fd', fds.entries.get? fd' = some entry

/-- The call may change the bytes of the node. -/
def Writes (vfs : VirtualFileSystem) : Op → InodeId → Prop
  | .write fd _, i | .pwrite fd _ _, i | .writevRegular fd _, i | .ftruncate fd _, i | .fallocate fd _ _, i =>
    ∃ entry, vfs.fds.entries.get? fd = some entry ∧ entry.inodeId = i
  | .openat dirfd path flags _, i => flags.truncate = true ∧ flags.canWrite = true ∧
    ∃ resolved, vfs.resolveAt dirfd path (nofollowOption flags.nofollow) = .ok resolved ∧
      vfs.tree.nodes.get? resolved.guestPath = some i
  | _, _ => False

def WritesNothing (vfs : VirtualFileSystem) : Op → Prop
  | .write fd bytes | .pwrite fd _ bytes => bytes = [] ∧
    ∃ entry, vfs.fds.entries.get? fd = some entry ∧ entry.file.kind = .regular
  | _ => False

/-- The path an `openat` leads to. -/
def OpensAt (vfs : VirtualFileSystem) (dirfd : Fd) (path : String) (flags : OpenFlags) (place : GuestPath) : Prop :=
  ∃ resolved, vfs.resolveAt dirfd path (nofollowOption flags.nofollow) = .ok resolved ∧
    resolved.guestPath = place

/-- No number is left for another descriptor. -/
def NoFreeFd (vfs : VirtualFileSystem) : Prop := ∀ fd, vfs.fds.nextFdFrom firstAllocFd ≠ .ok fd

def Opened (vfs vfs' : VirtualFileSystem) (path : GuestPath) (node : PathNode) : Prop :=
  ∃ fd entry, vfs.fds.entries.get? fd = none ∧ vfs'.fds.entries = vfs.fds.entries.insert fd entry ∧
    entry.inodeId = node.inodeId ∧ entry.file.kind = fileKindOf node.kind ∧ entry.path = some path ∧
    entry.description = vfs.shared.nextDescription

/-- What counts of the state besides the shared objects. -/
def core (vfs : VirtualFileSystem) : PathTree × VfsCache × FdTable := (vfs.tree, vfs.cache, vfs.fds)

theorem core_eq {vfs vfs' : VirtualFileSystem} (h : vfs'.core = vfs.core) :
    vfs'.tree = vfs.tree ∧ vfs'.cache = vfs.cache ∧ vfs'.fds = vfs.fds := by
  simpa [core] using h

/-- The ways a call may leave the state. -/
inductive Effect (host : Host) (vfs vfs' : VirtualFileSystem) : Op → Prop
  | unchanged {op : Op} (hcore : vfs'.core = vfs.core) : Effect host vfs vfs' op
  | quiet {op : Op} (hop : op.isQuiet = true) (htree : vfs'.tree = vfs.tree) (hcache : Filled vfs vfs'.cache)
      (hfds : Inherits vfs.fds vfs'.fds) : Effect host vfs vfs' op
  | replaceFds {fds : FdTable} (hvfs : vfs' = { vfs with fds := fds }) : Effect host vfs vfs' (.replaceFds fds)
  /-- A node changes, and the cache with it. -/
  | rewrite {op : Op} {i : InodeId} {node node' : PathNode} (hnode : vfs.tree.inodes.get? i = some node)
      (hsame : node.Same node') (hcontent : Writes vfs op i ∨ node'.content host = node.content host)
      (htree : vfs'.tree = { vfs.tree with inodes := vfs.tree.inodes.insert i node' })
      (hcache : vfs.cache.Drops vfs'.cache [i]) (hfds : vfs'.fds = vfs.fds) : Effect host vfs vfs' op
  /-- The bytes of a node are fetched from the host before the call fails. -/
  | loaded {op : Op} {i : InodeId} {node : PathNode} {path : HostPath} {data : List UInt8}
      (hnode : vfs.tree.inodes.get? i = some node) (hpath : node.deferredHostPath = some path)
      (hdata : host.readFile path = some data)
      (htree : vfs'.tree = { vfs.tree with
        inodes := vfs.tree.inodes.insert i { node with data := data, deferredHostPath := none } })
      (hcache : vfs'.cache = vfs.cache) (hfds : vfs'.fds = vfs.fds) : Effect host vfs vfs' op
  /-- A write of no bytes changes a node and leaves the cache as it was. -/
  | emptyWrite {op : Op} {i : InodeId} {node node' : PathNode} (hop : WritesNothing vfs op)
      (hwrites : Writes vfs op i) (hnode : vfs.tree.inodes.get? i = some node) (hsame : node.Same node')
      (htree : vfs'.tree = { vfs.tree with inodes := vfs.tree.inodes.insert i node' })
      (hcache : vfs'.cache = vfs.cache) (hfds : vfs'.fds = vfs.fds) : Effect host vfs vfs' op
  | opened {dirfd : Fd} {path : String} {flags : OpenFlags} {mode : UInt32} {place : GuestPath}
      {node : PathNode} (hplace : OpensAt vfs dirfd path flags place)
      (hnode : vfs.tree.lookupPath place = some node) (htree : vfs'.tree = vfs.tree)
      (hcache : vfs'.cache = vfs.cache) (hopened : Opened vfs vfs' place node) :
      Effect host vfs vfs' (.openat dirfd path flags mode)
  /-- A file is emptied; when no descriptor is left the call then fails. -/
  | truncated {dirfd : Fd} {path : String} {flags : OpenFlags} {mode : UInt32} {place : GuestPath} {i : InodeId}
      {node node' : PathNode} (hplace : OpensAt vfs dirfd path flags place)
      (hflags : flags.truncate = true ∧ flags.canWrite = true) (hi : vfs.tree.nodes.get? place = some i)
      (hnode : vfs.tree.inodes.get? i = some node) (hkind : node.kind = .file) (hsame : node.Same node')
      (htree : vfs'.tree = { vfs.tree with inodes := vfs.tree.inodes.insert i node' })
      (hend : NoFreeFd vfs ∧ vfs'.cache = vfs.cache ∧ vfs'.fds = vfs.fds ∨
        vfs.cache.Drops vfs'.cache [i] ∧ Opened vfs vfs' place node') :
      Effect host vfs vfs' (.openat dirfd path flags mode)
  /-- A file is made; under `O_DIRECTORY`, or when no descriptor is left, the call then fails. -/
  | created {dirfd : Fd} {path : String} {flags : OpenFlags} {mode : UInt32} {dir : GuestPath} {name : String}
      {parent : InodeId} {node : PathNode} (hplace : OpensAt vfs dirfd path flags (dir ++ [name]))
      (hcreate : flags.create = true) (hparent : vfs.tree.nodes.get? dir = some parent)
      (hdir : vfs.tree.IsDir dir) (hnew : vfs.tree.nodes.get? (dir ++ [name]) = none)
      (hid : node.inodeId = vfs.tree.nextInodeId) (hfresh : vfs.tree.FreshId) (hkind : node.kind = .file)
      (htree : vfs'.tree = vfs.tree.allocated.addNode (dir ++ [name]) node)
      (hend : (flags.directory = true ∨ NoFreeFd vfs) ∧ vfs'.cache = vfs.cache ∧ vfs'.fds = vfs.fds ∨
        vfs.cache.Drops vfs'.cache [parent] ∧ Opened vfs vfs' (dir ++ [name]) node) :
      Effect host vfs vfs' (.openat dirfd path flags mode)
  | closed {op : Op} {fd : Fd} {entry : FdEntry} (hop : op = .close fd ∨ op = .closeWithFile fd)
      (hentry : vfs.fds.entries.get? fd = some entry) (hfds : vfs'.fds.entries = vfs.fds.entries.erase fd)
      (hend : vfs'.tree = vfs.tree ∧ vfs'.cache = vfs.cache ∨
        (∀ p, vfs.tree.nodes.get? p ≠ some entry.inodeId) ∧
          vfs'.tree = vfs.tree.removeInode entry.inodeId ∧ vfs.cache.Drops vfs'.cache [entry.inodeId]) :
      Effect host vfs vfs' op
  /-- `mkdirat` and `symlinkat`. -/
  | named {op : Op} {dir : GuestPath} {name : String} {parent : InodeId} {node : PathNode}
      (hparent : vfs.tree.nodes.get? dir = some parent) (hdir : vfs.tree.IsDir dir)
      (hnew : vfs.tree.nodes.get? (dir ++ [name]) = none) (hid : node.inodeId = vfs.tree.nextInodeId)
      (hfresh : vfs.tree.FreshId) (htree : vfs'.tree = vfs.tree.allocated.addNode (dir ++ [name]) node)
      (hcache : vfs.cache.Drops vfs'.cache [parent]) (hfds : vfs'.fds = vfs.fds) : Effect host vfs vfs' op
  | linked {op : Op} {dir : GuestPath} {name : String} {parent i : InodeId} {node node' : PathNode}
      (hparent : vfs.tree.nodes.get? dir = some parent) (hdir : vfs.tree.IsDir dir)
      (hnew : vfs.tree.nodes.get? (dir ++ [name]) = none) (hnode : vfs.tree.inodes.get? i = some node)
      (hfile : node.isDirectory = false) (hsame : node.Same node')
      (hcontent : node'.content host = node.content host)
      (htree : vfs'.tree =
        PathTree.addLink { vfs.tree with inodes := vfs.tree.inodes.insert i node' } (dir ++ [name]) i)
      (hcache : vfs.cache.Drops vfs'.cache [parent, i]) (hfds : vfs'.fds = vfs.fds) : Effect host vfs vfs' op
  | unlinked {op : Op} {dir : GuestPath} {name : String} {parent i : InodeId}
      (hparent : vfs.tree.nodes.get? dir = some parent) (hi : vfs.tree.nodes.get? (dir ++ [name]) = some i)
      (hleaf : ∀ c, vfs.tree.nodes.get? (dir ++ [name] ++ [c]) = none)
      (htree : vfs'.tree = (dropLink i (setTree (vfs.tree.dropPath (dir ++ [name])) vfs)).tree)
      (hcache : vfs.cache.Drops vfs'.cache [parent, i]) (hfds : vfs'.fds = vfs.fds) : Effect host vfs vfs' op
  | renamed {olddirfd : Fd} {oldpath : String} {newdirfd : Fd} {newpath : String} {flags : UInt32}
      {ends : Option (GuestPath × InodeId × ResolvedPath)}
      (hends : vfs.renameEnds olddirfd oldpath newdirfd newpath flags = .ok ends)
      (hrenamed : Renamed vfs flags ends vfs') :
      Effect host vfs vfs' (.renameat2 olddirfd oldpath newdirfd newpath flags)
  /-- `tree_mut`, and a mount that returns. -/
  | built {op : Op} (hop : op.isSetup = true) (htree : vfs.tree.Grown vfs'.tree)
      (hcache : ∀ ids, vfs.cache.Drops vfs'.cache ids) (hfds : vfs'.fds = vfs.fds) : Effect host vfs vfs' op
  /-- A mount that fails may have put some of its nodes into the tree. -/
  | mountFailed {op : Op} {mount : PathTree.Call Unit} {error : VfsError}
      (hop : op = .mountMinimalDevfs ∧ mount = PathTree.mountMinimalDevfs ∨
        op = .mountMinimalProcfs ∧ mount = PathTree.mountMinimalProcfs)
      (hrun : mount vfs.tree = (.error error, vfs'.tree)) (htree : vfs.tree.Grown vfs'.tree)
      (hcache : vfs'.cache = vfs.cache) (hfds : vfs'.fds = vfs.fds) : Effect host vfs vfs' op

end VirtualFileSystem

end Mcr.Vfs
