import Mcr.Vfs.Cache

/-!
# The virtual file system

`VirtualFileSystem` ties the tree, the descriptor table and the cache together. Its calls are programs
over the whole state: what a call has done before it fails stays done. Calls on `&self` may still fill
the cache, which sits in a `RefCell`.

The queries that neither change the state nor read the cache (`getcwd`, `statfs`, `readlink`, `ioctl` and
the like) are left to the modules that need them.
-/

namespace Mcr.Vfs

structure VirtualFileSystem where
  rootfs : Rootfs
  tree : PathTree
  fds : FdTable
  shared : Shared
  procSelf : ProcSelfData
  umask : UInt32
  cache : VfsCache

inductive SeekWhence
  | set
  | cur
  | fromEnd
deriving DecidableEq, Repr

namespace VirtualFileSystem

def fromParts (rootfs : Rootfs) (tree : PathTree) (fds : FdTable) (shared : Shared) : VirtualFileSystem where
  rootfs := rootfs
  tree := tree
  fds := fds
  shared := shared
  procSelf := ⟨[], [], []⟩
  umask := defaultUmask
  cache := .default

/-- `VirtualFileSystem::new` before it mounts devfs. -/
def bare (hostRoot : HostPath) : VirtualFileSystem :=
  fromParts (.new hostRoot) .new Files.withStdio.fds Files.withStdio.shared

def files (vfs : VirtualFileSystem) : Files := ⟨vfs.fds, vfs.shared⟩

def setFiles (files : Files) (vfs : VirtualFileSystem) : VirtualFileSystem :=
  { vfs with fds := files.fds, shared := files.shared }

def setTree (tree : PathTree) (vfs : VirtualFileSystem) : VirtualFileSystem := { vfs with tree := tree }

/-- A call on `&mut VirtualFileSystem`, or on `&VirtualFileSystem` with its cache. -/
abbrev Call := Prog VirtualFileSystem VfsError

def onTree {α : Type} (call : PathTree.Call α) : Call α := .zoom VirtualFileSystem.tree setTree call

def onFiles {α : Type} (call : Files.Call α) : Call α := .zoom VirtualFileSystem.files setFiles call

/-! ### Invalidation -/

def onCache (change : VfsCache → VfsCache) : Call Unit :=
  .modify fun vfs => { vfs with cache := change vfs.cache }

def invalidateVfsCaches : Call Unit := onCache VfsCache.invalidateAll

def invalidateProcCaches : Call Unit := onCache VfsCache.invalidateProcViews

def invalidateInodeCache (inodeId : InodeId) : Call Unit := onCache (·.invalidateInode inodeId)

def invalidateInodeCaches (inodeIds : List InodeId) : Call Unit := onCache (·.invalidateInodes inodeIds)

def parentInode (vfs : VirtualFileSystem) (path : GuestPath) : Option InodeId := do
  let parent ← path.parent
  let node ← vfs.tree.lookupPath parent
  pure node.inodeId

def invalidateParentCache (path : GuestPath) : Call Unit := do
  let vfs ← .get
  match vfs.parentInode path with
  | some parentInode => invalidateInodeCache parentInode
  | none => pure ()

/-! ### Permissions and resolution -/

/-- The search permission of the directories strictly above `path`, of which `done` are passed. -/
def checkTraversalFrom (tree : PathTree) : GuestPath → List String → Except VfsError Unit
  | _, [] => .ok ()
  | _, [_] => .ok ()
  | done, component :: rest => do
    let ancestor := done.joinComponent component
    match tree.lookupPath ancestor with
    | none => pure ()
    | some node =>
      if node.attr.isDirectory then node.attr.checkAccess xOk
      checkTraversalFrom tree ancestor rest

def checkTraversalPermissions (vfs : VirtualFileSystem) (path : GuestPath) : Except VfsError Unit :=
  checkTraversalFrom vfs.tree .root path

def checkParentWritePermissions (vfs : VirtualFileSystem) (path : GuestPath) : Except VfsError Unit := do
  let parent ← okOr path.parent .invalidPath
  let node ← okOr (vfs.tree.lookupPath parent) .noEntry
  failIf (node.isDirectory = false) .notDirectory
  node.attr.checkAccess (wOk ||| xOk)

/-- `resolve_at`; every caller passes `false` for `require_directory_base`. -/
def resolveAt (vfs : VirtualFileSystem) (dirfd : Fd) (path : String) (options : ResolveOptions) :
    Except VfsError ResolvedPath := do
  failIf (path = "") .noEntry
  if path.toList.head? = some '/' ∨ dirfd = atFdcwd then
    let resolved ← vfs.rootfs.resolvePathWithOptions path vfs.tree options
    vfs.checkTraversalPermissions resolved.guestPath
    pure resolved
  else
    let entry ← vfs.fds.get dirfd
    let base ← okOr entry.path .notDirectory
    let baseNode ← okOr (vfs.tree.lookupPath base) .noEntry
    failIf (baseNode.isDirectory = false) .notDirectory
    let scopedRootfs ← vfs.rootfs.setCwd base
    let resolved ← scopedRootfs.resolvePathWithOptions path vfs.tree options
    vfs.checkTraversalPermissions resolved.guestPath
    pure resolved

def nofollowOption (nofollow : Bool) : ResolveOptions := if nofollow then .nofollowFinal else .follow

/-! ### Setup -/

def mountMinimalDevfs : Call Unit := do
  onTree PathTree.mountMinimalDevfs
  invalidateVfsCaches

def mountMinimalProcfs : Call Unit := do
  onTree PathTree.mountMinimalProcfs
  invalidateVfsCaches

def setProcSelf (procSelf : ProcSelfData) : Call Unit := do
  .modify fun vfs => { vfs with procSelf := procSelf }
  invalidateProcCaches

def treeMut {α : Type} (call : PathTree.Call α) : Call α := do
  invalidateVfsCaches
  onTree call

/-- The table put aside is the result. -/
def replaceFds (fds : FdTable) : Call FdTable := do
  let vfs ← .get
  .modify fun vfs => { vfs with fds := fds }
  pure vfs.fds

def takeStdout : Call (List UInt8) := do
  let vfs ← .get
  onFiles (Files.share fun shared => { shared with stdout := [] })
  pure vfs.shared.stdout

def takeStderr : Call (List UInt8) := do
  let vfs ← .get
  onFiles (Files.share fun shared => { shared with stderr := [] })
  pure vfs.shared.stderr

def chdir (path : String) : Call Unit := do
  let vfs ← .get
  let rootfs ← .ofExcept do
    let resolved ← vfs.resolveAt atFdcwd path .follow
    let node ← okOr (vfs.tree.lookupPath resolved.guestPath) .noEntry
    failIf (node.isDirectory = false) .notDirectory
    node.attr.checkAccess xOk
    vfs.rootfs.setCwd resolved.guestPath
  .modify fun vfs => { vfs with rootfs := rootfs }

def setUmask (mask : UInt32) : Call UInt32 := do
  let vfs ← .get
  .modify fun vfs => { vfs with umask := mask &&& 0o777 }
  pure vfs.umask

/-! ### The cached queries -/

def cachedMetadata (node : PathNode) : Call LinuxFileAttr := do
  let vfs ← .get
  match vfs.cache.metadataOf node.inodeId with
  | some attr => pure attr
  | none =>
    onCache (·.insertMetadata node.inodeId node.attr)
    pure node.attr

def cachedSmallReadData (inodeId : InodeId) (data : List UInt8) : Call (List UInt8) := do
  let vfs ← .get
  match vfs.cache.smallRead inodeId with
  | some cached => pure cached
  | none =>
    onCache (·.insertSmallRead inodeId data)
    pure data

def cachedHostReadHandle (host : Host) (inodeId : InodeId) (path : HostPath) : Call HostPath := fun vfs =>
  let (result, cache) := vfs.cache.hostReadHandle host inodeId path
  (result, { vfs with cache := cache })

/-! ### Directory listings -/

def isProcSelfFdDirectory (tree : PathTree) (path : GuestPath) : Bool :=
  (tree.lookupPath path).map PathNode.kind = some (.proc .fdDirectory)

def procSelfFdLinkInode (fd : Fd) : Except VfsError InodeId :=
  if fd < 0 then .error .badFd else Files.inodeIdFrom firstProcSelfFdLinkInodeId fd.toNat

def procFdChildren (fds : FdTable) : List DirectoryChild :=
  fds.entries.keys.filterMap fun fd =>
    match procSelfFdLinkInode fd with
    | .ok inode => some ⟨toString fd, inode, dtLnk⟩
    | .error _ => none

def directoryEntriesFromChildren (tree : PathTree) (path : GuestPath) (children : List DirectoryChild) :
    Except VfsError (List DirectoryEntry) := do
  let children := children.insertionSort fun left right => left.name ≤ right.name
  let directory ← okOr (tree.lookupPath path) .noEntry
  let dots : List DirectoryEntry :=
    [⟨directory.inodeId, 1, dtDir, "."⟩, ⟨directory.inodeId, 2, dtDir, ".."⟩]
  pure (dots ++ children.mapIdx fun index child =>
    ⟨child.inode, min (index + 3) i64Max, child.fileType, child.name⟩)

def staticDirectoryEntries (tree : PathTree) (path : GuestPath) : Except VfsError (List DirectoryEntry) := do
  let children ← tree.staticChildren path
  directoryEntriesFromChildren tree path children

def directoryEntries (tree : PathTree) (fds : FdTable) (path : GuestPath) :
    Except VfsError (List DirectoryEntry) := do
  let children ← tree.staticChildren path
  directoryEntriesFromChildren tree path
    (if isProcSelfFdDirectory tree path then children ++ procFdChildren fds else children)

structure DirectoryListingSource where
  inode : InodeId
  path : GuestPath
  cacheable : Bool
deriving DecidableEq, Repr

def directoryListingSource (vfs : VirtualFileSystem) (fd : Fd) : Except VfsError DirectoryListingSource := do
  let entry ← vfs.fds.get fd
  failIf (entry.file.kind ≠ .directory) .notDirectory
  let path ← okOr entry.path .badFd
  let node ← okOr (vfs.tree.lookupPath path) .noEntry
  pure ⟨node.inodeId, path, !isProcSelfFdDirectory vfs.tree path⟩

def cachedDirectoryEntries (inodeId : InodeId) (path : GuestPath) : Call (List DirectoryEntry) := do
  let vfs ← .get
  match vfs.cache.directoryListing inodeId with
  | some entries => pure entries
  | none =>
    let entries ← .ofExcept (staticDirectoryEntries vfs.tree path)
    onCache (·.insertDirectoryListing inodeId entries)
    pure entries

/-- The records that fit, `used` bytes being taken already. -/
def fittingRecords (maxBytes : Nat) : Nat → List DirectoryEntry → List DirectoryEntry
  | _, [] => []
  | used, item :: rest =>
    if maxBytes < used + item.recordLen then []
    else item :: fittingRecords maxBytes (used + item.recordLen) rest

def consumeDirectoryEntries (fd : Fd) (maxBytes : Nat) (entries : List DirectoryEntry) :
    Call (List DirectoryEntry) := do
  let vfs ← .get
  let entry ← .ofExcept (vfs.fds.get fd)
  let description := vfs.shared.description entry.description
  let pending := entries.drop description.dirCursor
  let returned := fittingRecords maxBytes 0 pending
  .ofExcept (failIf (returned = [] ∧ pending ≠ []) .invalidPath)
  if returned = [] then pure []
  else do
    let cursor := description.dirCursor + returned.length
    onFiles (Files.setDescription entry { description with dirCursor := cursor, offset := cursor })
    pure returned

def getdents64 (fd : Fd) (maxBytes : Nat) : Call (List DirectoryEntry) := do
  let vfs ← .get
  let source ← .ofExcept (vfs.directoryListingSource fd)
  let entries ← if source.cacheable then cachedDirectoryEntries source.inode source.path
    else .ofExcept (directoryEntries vfs.tree vfs.fds source.path)
  consumeDirectoryEntries fd maxBytes entries

/-! ### Attributes -/

def anonymousAttr (file : FileRef) : LinuxFileAttr :=
  match file.kind with
  | .stdio _ | .pipeRead | .pipeWrite => .fifo file.inode.id
  | .socket => .socket file.inode.id
  | .epoll | .eventfd => .regular file.inode.id 0o600 0
  | .dev _ => .characterDevice file.inode.id 0o666
  | .regular | .directory | .symlink => .new 0 (sIfreg ||| 0o666) 0

/-- The kinds of descriptors that no inode of the tree stands behind. -/
def isAnonymous : FileKind → Bool
  | .stdio _ | .pipeRead | .pipeWrite | .socket | .epoll | .eventfd => true
  | .regular | .directory | .symlink | .dev _ => false

def fstat (fd : Fd) : Call LinuxFileAttr := do
  let vfs ← .get
  let entry ← .ofExcept (vfs.fds.get fd)
  if isAnonymous entry.file.kind then pure (anonymousAttr entry.file)
  else match vfs.tree.lookupInode entry.inodeId with
    | some node => cachedMetadata node
    | none => pure (anonymousAttr entry.file)

def decimalValue (digits : List Char) : Option Nat :=
  if digits = [] ∨ ∃ c ∈ digits, c.isDigit = false then none
  else some (digits.foldl (fun value c => value * 10 + (c.toNat - '0'.toNat)) 0)

/-- `parse::<i32>` of a name, kept when it is not negative. -/
def parseFd (name : String) : Option Fd :=
  match name.toList with
  | '-' :: digits => (decimalValue digits).bind fun value => if value = 0 then some 0 else none
  | '+' :: digits => (decimalValue digits).bind fun value => if (value : Int) ≤ i32Max then some value else none
  | digits => (decimalValue digits).bind fun value => if (value : Int) ≤ i32Max then some value else none

def procSelfFdPathFd (path : GuestPath) : Option Fd :=
  match path with
  | ["proc", "self", "fd", name] => parseFd name
  | _ => none

def procFdTarget (vfs : VirtualFileSystem) (fd : Fd) : Except VfsError String := do
  let entry ← okOr (vfs.fds.entries.get? fd) .noEntry
  match entry.file.kind with
  | .regular | .directory | .symlink =>
    let path ← okOr entry.path .noEntry
    vfs.rootfs.visiblePath path
  | .dev kind => pure ("/dev/" ++ kind.name)
  | .pipeRead | .pipeWrite => pure ("pipe:[" ++ toString entry.inodeId ++ "]")
  | .socket => pure ("socket:[" ++ toString entry.inodeId ++ "]")
  | .epoll => pure ("anon_inode:[eventpoll:" ++ toString entry.inodeId ++ "]")
  | .eventfd => pure ("anon_inode:[eventfd:" ++ toString entry.inodeId ++ "]")
  | .stdio kind => pure ("/dev/" ++ kind.name)

def statPath (path : GuestPath) : Call LinuxFileAttr := do
  let vfs ← .get
  match procSelfFdPathFd path with
  | some fd => .ofExcept do
    let target ← vfs.procFdTarget fd
    let inode ← procSelfFdLinkInode fd
    pure (.symlink inode target.utf8ByteSize)
  | none =>
    let node ← .ofExcept (okOr (vfs.tree.lookupPath path) .noEntry)
    cachedMetadata node

def newfstatat (dirfd : Fd) (path : String) (flags : UInt32) : Call LinuxFileAttr := do
  if path = "" ∧ flags &&& atEmptyPath ≠ 0 then fstat dirfd
  else do
    let vfs ← .get
    let resolved ← .ofExcept (vfs.resolveAt dirfd path (nofollowOption (flags &&& atSymlinkNofollow ≠ 0)))
    statPath resolved.guestPath

def statx (dirfd : Fd) (path : String) (flags : UInt32) : Call LinuxFileAttr := newfstatat dirfd path flags

def access (path : String) (mode : UInt32) : Call Unit := do
  let vfs ← .get
  let resolved ← .ofExcept do
    failIf (path = "") .noEntry
    let resolved ← vfs.rootfs.resolvePath path vfs.tree
    vfs.checkTraversalPermissions resolved.guestPath
    pure resolved
  let attr ← statPath resolved.guestPath
  .ofExcept (attr.checkAccess mode)

def faccessat2 (dirfd : Fd) (path : String) (mode flags : UInt32) : Call Unit := do
  .ofExcept (failIf (flags &&& ~~~(atEmptyPath ||| atSymlinkNofollow) ≠ 0) .invalidPath)
  let attr ← if path = "" ∧ flags &&& atEmptyPath ≠ 0 then fstat dirfd
    else do
      .ofExcept (failIf (path = "") .noEntry)
      let vfs ← .get
      let resolved ← .ofExcept (vfs.resolveAt dirfd path (nofollowOption (flags &&& atSymlinkNofollow ≠ 0)))
      statPath resolved.guestPath
  .ofExcept (attr.checkAccess mode)

/-! ### Reading -/

def readMemoryAt (data : List UInt8) (offset len : Nat) : List UInt8 := (data.drop offset).take len

def readHostFileAt (host : Host) (path : HostPath) (offset len : Nat) : Except VfsError (List UInt8) :=
  if len = 0 then .ok []
  else match host.readAt path offset len with
    | .ok bytes => .ok (bytes.take len)
    | .error kind => .error (vfsErrorFromHost kind)

def readHostPathAt (host : Host) (path : HostPath) (offset len : Nat) : Except VfsError (List UInt8) :=
  match host.openRead path with
  | .ok () => readHostFileAt host path offset len
  | .error kind => .error (vfsErrorFromHost kind)

def readRegularNodeAt (host : Host) (node : PathNode) (procSelf : ProcSelfData) (offset len : Nat)
    (hostFile : Option HostPath) : Except VfsError (List UInt8) :=
  if node.kind = .proc .cmdline then .ok (readMemoryAt procSelf.cmdlineBytes offset len)
  else if node.kind = .proc .environ then .ok (readMemoryAt procSelf.environBytes offset len)
  else match node.deferredHostPath, hostFile with
    | some _, some file => readHostFileAt host file offset len
    | some path, none => readHostPathAt host path offset len
    | none, _ => .ok (readMemoryAt node.data offset len)

def cachedSmallReadForEntry (entry : FdEntry) (offset len : Nat) : Call (Option (List UInt8)) := do
  let vfs ← .get
  .ofExcept (failIf ((vfs.shared.description entry.description).flags.canRead = false) .badFd)
  if entry.file.kind ≠ .regular then pure none
  else if len = 0 then pure (some [])
  else do
    let node ← .ofExcept (okOr (vfs.tree.lookupInode entry.inodeId) .noEntry)
    if node.kind ≠ .file ∨ node.deferredHostPath.isSome ∨ smallReadCacheLimit < node.data.length then
      pure none
    else do
      let data ← cachedSmallReadData entry.inodeId node.data
      pure (some (readMemoryAt data offset len))

/-- The offset of a description moves by `count`, with `checked_add`. -/
def advanceOffset (entry : FdEntry) (offset count : Nat) : Call Unit := do
  .ofExcept (failIf (u64Limit ≤ offset + count) .invalidPath)
  let vfs ← .get
  let description := vfs.shared.description entry.description
  onFiles (Files.setDescription entry { description with offset := offset + count })

def readFromSmallCache (fd : Fd) (len : Nat) : Call (Option (List UInt8)) := do
  let vfs ← .get
  let entry ← .ofExcept (vfs.fds.get fd)
  let offset := (vfs.shared.description entry.description).offset
  match ← cachedSmallReadForEntry entry offset len with
  | none => pure none
  | some bytes =>
    advanceOffset entry offset bytes.length
    pure (some bytes)

def regularReadRequest (vfs : VirtualFileSystem) (fd : Fd) : Except VfsError (Option (InodeId × Nat)) := do
  let entry ← vfs.fds.get fd
  let description := vfs.shared.description entry.description
  failIf (description.flags.canRead = false) .badFd
  if entry.file.kind = .regular ∨ entry.file.kind = .symlink then
    pure (some (entry.inodeId, description.offset))
  else pure none

def readRegularInodeAt (host : Host) (inodeId : InodeId) (offset len : Nat) : Call (List UInt8) := do
  let vfs ← .get
  let node ← .ofExcept (okOr (vfs.tree.lookupInode inodeId) .noEntry)
  .ofExcept (failIf (node.attr.isDirectory = true) .isDirectory)
  match node.deferredHostPath with
  | some path =>
    let file ← cachedHostReadHandle host inodeId path
    .ofExcept (readRegularNodeAt host node vfs.procSelf offset len (some file))
  | none => .ofExcept (readRegularNodeAt host node vfs.procSelf offset len none)

/-- `FdTable::read`. -/
def fdsRead (host : Host) (fd : Fd) (len : Nat) : Call (List UInt8) := do
  let vfs ← .get
  let entry ← .ofExcept (vfs.fds.get fd)
  let description := vfs.shared.description entry.description
  .ofExcept (failIf (description.flags.canRead = false) .badFd)
  match entry.file.kind with
  | .regular | .symlink =>
    let node ← .ofExcept (okOr (vfs.tree.lookupInode entry.inodeId) .noEntry)
    .ofExcept (failIf (node.attr.isDirectory = true) .isDirectory)
    let bytes ← .ofExcept (readRegularNodeAt host node vfs.procSelf description.offset len none)
    onFiles (Files.setDescription entry
      { description with offset := (description.offset + bytes.length) % u64Limit })
    pure bytes
  | .dev .null | .dev .stdin | .stdio .stdin => pure []
  | .dev .zero => pure (List.replicate len 0)
  | .dev .urandom => .ofExcept (Files.fillUrandom host len)
  | .pipeRead => onFiles (Files.pipeRead host entry len)
  | .eventfd => onFiles (Files.eventfdRead entry len)
  | .directory => .throw .isDirectory
  | .dev _ | .pipeWrite | .socket | .epoll | .stdio _ => .throw .badFd

/-- `FdTable::pread`. -/
def fdsPread (host : Host) (fd : Fd) (offset len : Nat) : Call (List UInt8) := do
  let vfs ← .get
  let entry ← .ofExcept (vfs.fds.get fd)
  .ofExcept (failIf ((vfs.shared.description entry.description).flags.canRead = false) .badFd)
  match entry.file.kind with
  | .regular | .symlink =>
    let node ← .ofExcept (okOr (vfs.tree.lookupInode entry.inodeId) .noEntry)
    .ofExcept (failIf (node.attr.isDirectory = true) .isDirectory)
    .ofExcept (readRegularNodeAt host node vfs.procSelf offset len none)
  | .dev .null | .dev .stdin => pure []
  | .dev .zero => pure (List.replicate len 0)
  | .dev .urandom => .ofExcept (Files.fillUrandom host len)
  | _ => .throw .badFd

def read (host : Host) (fd : Fd) (len : Nat) : Call (List UInt8) := do
  match ← readFromSmallCache fd len with
  | some bytes => pure bytes
  | none =>
    let vfs ← .get
    match ← .ofExcept (vfs.regularReadRequest fd) with
    | none => fdsRead host fd len
    | some (inodeId, offset) =>
      let bytes ← readRegularInodeAt host inodeId offset len
      let entry ← .ofExcept (vfs.fds.get fd)
      advanceOffset entry offset bytes.length
      pure bytes

def pread (host : Host) (fd : Fd) (offset len : Nat) : Call (List UInt8) := do
  let vfs ← .get
  let entry ← .ofExcept (vfs.fds.get fd)
  match ← cachedSmallReadForEntry entry offset len with
  | some bytes => pure bytes
  | none =>
    let vfs ← .get
    match ← .ofExcept (vfs.regularReadRequest fd) with
    | none => fdsPread host fd offset len
    | some (inodeId, _) => readRegularInodeAt host inodeId offset len

def vectoredLen (lengths : List Nat) : Except VfsError Nat :=
  if lengths.sum < u64Limit then .ok lengths.sum else .error .invalidPath

/-- The bytes read, before they are scattered over the buffers. -/
def readvRegular (host : Host) (fd : Fd) (lengths : List Nat) : Call (Option (List UInt8)) := do
  let vfs ← .get
  match ← .ofExcept (vfs.regularReadRequest fd) with
  | none => pure none
  | some (inodeId, offset) =>
    let totalLen ← .ofExcept (vectoredLen lengths)
    if totalLen = 0 then pure (some [])
    else do
      let bytes ← readRegularInodeAt host inodeId offset totalLen
      let entry ← .ofExcept (vfs.fds.get fd)
      advanceOffset entry offset bytes.length
      pure (some bytes)

/-- The file a readable descriptor of kind `Regular` stands for, when the tree has one. -/
def regularFileOf (vfs : VirtualFileSystem) (fd : Fd) : Except VfsError (Option (InodeId × PathNode)) := do
  let entry ← vfs.fds.get fd
  failIf ((vfs.shared.description entry.description).flags.canRead = false) .badFd
  if entry.file.kind ≠ .regular then pure none
  else match vfs.tree.lookupInode entry.inodeId with
    | none => pure none
    | some node => if node.kind ≠ .file then pure none else pure (some (entry.inodeId, node))

def regularFileCacheKey (vfs : VirtualFileSystem) (fd : Fd) : Except VfsError (Option RegularFileCacheKey) := do
  match ← vfs.regularFileOf fd with
  | none => pure none
  | some (inode, _) => pure (some ⟨inode, vfs.cache.keyGeneration inode⟩)

def mapReadonlyRegularFileAt (host : Host) (fd : Fd) (offset len : Nat) : Call (Option (List UInt8)) := do
  if len = 0 then pure none
  else do
    let vfs ← .get
    match ← .ofExcept (vfs.regularFileOf fd) with
    | none => pure none
    | some (inode, node) =>
      match node.deferredHostPath with
      | none => pure none
      | some path =>
        let mapLen := min len (node.attr.size - offset)
        if node.attr.size < offset ∨ mapLen = 0 then pure none
        else do
          let file ← cachedHostReadHandle host inode path
          match host.mapReadonlyAt file offset mapLen with
          | .ok mapping => pure (some mapping)
          | .error .invalidInput | .error .unsupported => pure none
          | .error kind => .throw (vfsErrorFromHost kind)

/-! ### Writing -/

/-- The write of a regular file through its description, shared by `write` and `writev`. -/
def writeRegular (host : Host) (entry : FdEntry) (bytes : List UInt8) : Call Nat := do
  let vfs ← .get
  let description := vfs.shared.description entry.description
  let node ← .ofExcept (okOr (vfs.tree.lookupInode entry.inodeId) .noEntry)
  let offset := if description.flags.append then node.attr.size else description.offset
  let count ← onTree (PathTree.withInode entry.inodeId (PathNode.writeAt host offset bytes))
  onFiles (Files.setDescription entry { description with offset := offset + count })
  pure count

def writevRegular (host : Host) (fd : Fd) (buffers : List (List UInt8)) : Call (Option Nat) := do
  let vfs ← .get
  let entry ← .ofExcept (vfs.fds.get fd)
  .ofExcept (failIf ((vfs.shared.description entry.description).flags.canWrite = false) .badFd)
  if entry.file.kind ≠ .regular then pure none
  else do
    let _ ← .ofExcept (okOr (vfs.tree.lookupInode entry.inodeId) .noEntry)
    let totalLen ← .ofExcept (vectoredLen (buffers.map List.length))
    if totalLen = 0 then pure (some 0)
    else do
      let count ← writeRegular host entry buffers.flatten
      .when (0 < count) (invalidateInodeCache entry.inodeId)
      pure (some count)

/-- `FdTable::write`. -/
def fdsWrite (host : Host) (fd : Fd) (bytes : List UInt8) : Call Nat := do
  let vfs ← .get
  let entry ← .ofExcept (vfs.fds.get fd)
  .ofExcept (failIf ((vfs.shared.description entry.description).flags.canWrite = false) .badFd)
  match entry.file.kind with
  | .regular => writeRegular host entry bytes
  | .dev .null | .dev .zero | .dev .urandom | .dev .stdout | .dev .stderr => pure bytes.length
  | .directory => .throw .isDirectory
  | .symlink => .throw .invalidPath
  | .pipeWrite => onFiles (Files.pipeWrite host entry bytes)
  | .eventfd => onFiles (Files.eventfdWrite entry bytes)
  | .stdio kind => onFiles (Files.stdioWrite kind bytes)
  | .dev .stdin | .pipeRead | .socket | .epoll => .throw .badFd

def write (host : Host) (fd : Fd) (bytes : List UInt8) : Call Nat := do
  let vfs ← .get
  let count ← fdsWrite host fd bytes
  match vfs.fds.entries.get? fd with
  | some entry => .when (0 < count ∧ entry.file.kind = .regular) (invalidateInodeCache entry.inodeId)
  | none => pure ()
  pure count

def pwrite (host : Host) (fd : Fd) (offset : Nat) (bytes : List UInt8) : Call Nat := do
  let vfs ← .get
  let entry ← .ofExcept (vfs.fds.get fd)
  .ofExcept (failIf ((vfs.shared.description entry.description).flags.canWrite = false) .badFd)
  .ofExcept (failIf (entry.file.kind ≠ .regular) .badFd)
  let count ← onTree (PathTree.withInode entry.inodeId (PathNode.writeAt host offset bytes))
  .when (0 < count) (invalidateInodeCache entry.inodeId)
  pure count

/-- The inode behind a descriptor open for writing on a regular file. -/
def writableFile (vfs : VirtualFileSystem) (fd : Fd) : Except VfsError InodeId := do
  let entry ← vfs.fds.get fd
  failIf ((vfs.shared.description entry.description).flags.canWrite = false) .badFd
  failIf (entry.file.kind ≠ .regular) .invalidPath
  pure entry.inodeId

def ftruncate (host : Host) (fd : Fd) (length : Nat) : Call Unit := do
  let vfs ← .get
  let inodeId ← .ofExcept (vfs.writableFile fd)
  onTree (PathTree.withInode inodeId (PathNode.setLen host length))
  invalidateInodeCache inodeId

def fallocate (host : Host) (fd : Fd) (offset length : Nat) : Call Unit := do
  .ofExcept (failIf (u64Limit ≤ offset + length) .noSpace)
  let vfs ← .get
  let inodeId ← .ofExcept (vfs.writableFile fd)
  let node ← .ofExcept (okOr (vfs.tree.lookupInode inodeId) .noEntry)
  .when (node.attr.size < offset + length) do
    onTree (PathTree.withInode inodeId (PathNode.setLen host (offset + length)))
    invalidateInodeCache inodeId

def lseek (fd : Fd) (offset : Int) (whence : SeekWhence) : Call Nat := do
  let vfs ← .get
  let entry ← .ofExcept (vfs.fds.get fd)
  let description := vfs.shared.description entry.description
  let kind := entry.file.kind
  .ofExcept (failIf (¬ (kind = .regular ∨ kind = .symlink ∨ kind = .directory)) .notSeekable)
  let size ← if kind = .directory then pure 0
    else do
      let node ← .ofExcept (okOr (vfs.tree.lookupInode entry.inodeId) .noEntry)
      pure node.attr.size
  let base : Int := match whence with
    | .set => 0
    | .cur => description.offset
    | .fromEnd => size
  let next := base + offset
  .ofExcept (failIf (next < 0 ∨ (u64Limit : Int) ≤ next) .invalidPath)
  let description := { description with offset := next.toNat }
  onFiles (Files.setDescription entry
    (if kind = .directory then { description with dirCursor := next.toNat } else description))
  pure next.toNat

/-! ### Descriptors -/

def dup (oldfd : Fd) : Call Fd := onFiles (Files.dup oldfd firstAllocFd false)

def dup2 (oldfd newfd : Fd) : Call Fd := onFiles (Files.dup2 oldfd newfd false)

def dup3 (oldfd newfd : Fd) (flags : OpenFlags) : Call Fd := do
  .ofExcept (failIf (flags.raw &&& ~~~oCloexec ≠ 0 ∨ oldfd = newfd) .invalidPath)
  onFiles (Files.dup2 oldfd newfd flags.cloexec)

/-- `i32::try_from` of a `u64`. -/
def fdOfArg (arg : Nat) : Except VfsError Fd := if (arg : Int) ≤ i32Max then .ok arg else .error .badFd

def fcntl (fd : Fd) (cmd : UInt32) (arg : Nat) : Call Nat := do
  if cmd = fDupfd ∨ cmd = fDupfdCloexec then do
    let minFd ← .ofExcept (fdOfArg arg)
    let newfd ← onFiles (Files.dup fd minFd (cmd = fDupfdCloexec))
    pure newfd.toNat
  else if cmd = fGetfd then do
    let flags ← onFiles (Files.fdFlags fd)
    pure flags.toNat
  else if cmd = fSetfd then do
    onFiles (Files.setFdFlags fd (UInt32.ofNat arg))
    pure 0
  else if cmd = fGetfl then do
    let flags ← onFiles (Files.statusFlags fd)
    pure flags.toNat
  else if cmd = fSetfl then do
    onFiles (Files.setStatusFlags fd (UInt32.ofNat arg))
    pure 0
  else if cmd = fSetlk ∨ cmd = fSetlkw then do
    let _ ← onFiles (Files.get fd)
    pure 0
  else if cmd = fGetpipeSz then onFiles (Files.pipeCapacity fd)
  else if cmd = fSetpipeSz then onFiles (Files.setPipeCapacity fd arg)
  else .throw .invalidPath

/-- The inode of a closed descriptor goes with its last name. -/
def reclaim (inodeId : InodeId) : Call Unit := do
  let vfs ← .get
  .when ((vfs.tree.lookupInode inodeId).isSome ∧ vfs.tree.linkCount inodeId = 0) do
    onTree (.modify (·.removeInode inodeId))
    invalidateInodeCache inodeId

def closeWithFile (fd : Fd) : Call FileRef := do
  let file ← onFiles (Files.close fd)
  reclaim file.inode.id
  pure file

def close (fd : Fd) : Call Unit := do
  let file ← onFiles (Files.close fd)
  reclaim file.inode.id

/-! ### Names -/

def createResolvedFile (path : GuestPath) (mode : UInt32) : Call Unit := do
  let vfs ← .get
  .ofExcept (vfs.tree.ensureParentDir path)
  onTree do
    let inodeId ← PathTree.allocateInodeId
    PathTree.insertPathNode path ⟨inodeId, .file, ⟨.regular inodeId mode 0⟩, [], none⟩

def fileKindOf : PathNodeKind → FileKind
  | .directory => .directory
  | .file => .regular
  | .device kind => .dev kind
  | .proc kind => kind.fileKind
  | .symlink _ => .symlink

def inodeBackendForPathNode (node : PathNode) (hostRoot : HostPath) (path : GuestPath) : InodeBackend :=
  match node.kind with
  | .device kind => .devVirtual kind
  | .proc kind => .procVirtual kind.name
  | .directory | .file | .symlink _ => .hostPath hostRoot path

/-- The checks of `openat` on the node it is about to open, which is new when `created`. -/
def openCheck (node : PathNode) (flags : OpenFlags) (created : Bool) : Except VfsError Unit := do
  failIf (flags.directory = true ∧ node.attr.isDirectory = false) .notDirectory
  failIf (node.attr.isSymlink = true ∧ flags.nofollow = true) .loop
  failIf (node.attr.isDirectory = true ∧ flags.canWrite = true) .isDirectory
  let accessMode := (if flags.canRead then rOk else fOk) ||| (if flags.canWrite then wOk else fOk)
  if created then pure () else node.attr.checkAccess accessMode

/-- The missing file `openat` may create; the result is the inode of its directory. -/
def openCreate (resolved : ResolvedPath) (flags : OpenFlags) (mode : UInt32) : Call (Option InodeId) := do
  if resolved.inode.isNone then do
    .ofExcept (failIf (flags.create = false) .noEntry)
    let vfs ← .get
    .ofExcept (vfs.tree.ensureParentDir resolved.guestPath)
    .ofExcept (vfs.checkParentWritePermissions resolved.guestPath)
    createResolvedFile resolved.guestPath (mode &&& ~~~vfs.umask)
    let vfs ← .get
    pure (vfs.parentInode resolved.guestPath)
  else do
    .ofExcept (failIf (flags.create = true ∧ flags.exclusive = true) .alreadyExists)
    pure none

def invalidateIfSome (inodeId : Option InodeId) : Call Unit :=
  match inodeId with
  | some inodeId => invalidateInodeCache inodeId
  | none => pure ()

def openat (host : Host) (dirfd : Fd) (path : String) (flags : OpenFlags) (mode : UInt32) : Call Fd := do
  let vfs ← .get
  let resolved ← .ofExcept (vfs.resolveAt dirfd path (nofollowOption flags.nofollow))
  let path := resolved.guestPath
  let createdParent ← openCreate resolved flags mode
  let vfs ← .get
  let node ← .ofExcept (okOr (vfs.tree.lookupPath path) .noEntry)
  .ofExcept (openCheck node flags createdParent.isSome)
  let truncates := flags.truncate && flags.canWrite && decide (node.kind = .file)
  .when (truncates = true) (onTree (PathTree.withPath path (PathNode.truncate host)))
  let vfs ← .get
  let node ← .ofExcept (okOr (vfs.tree.lookupPath path) .noEntry)
  let inode : Inode := ⟨node.inodeId, inodeBackendForPathNode node vfs.rootfs.hostRoot path⟩
  let fd ← onFiles (Files.insertOpen ⟨inode, fileKindOf node.kind⟩ flags (some path))
  invalidateIfSome createdParent
  invalidateIfSome (if truncates then some node.inodeId else none)
  pure fd

/-- A new node under `path`, with the id the tree hands out; shared by `mkdirat` and `symlinkat`. -/
def addNewNode (path : GuestPath) (node : InodeId → PathNode) : Call Unit := do
  onTree do
    let inodeId ← PathTree.allocateInodeId
    PathTree.insertPathNode path (node inodeId)
  invalidateParentCache path

def newName (vfs : VirtualFileSystem) (dirfd : Fd) (path : String) : Except VfsError GuestPath := do
  let resolved ← vfs.resolveAt dirfd path .nofollowFinal
  failIf (resolved.inode.isSome) .alreadyExists
  vfs.tree.ensureParentDir resolved.guestPath
  vfs.checkParentWritePermissions resolved.guestPath
  pure resolved.guestPath

def mkdirat (dirfd : Fd) (path : String) (mode : UInt32) : Call Unit := do
  let vfs ← .get
  let target ← .ofExcept (vfs.newName dirfd path)
  addNewNode target fun inodeId =>
    ⟨inodeId, .directory, ⟨.directoryWithMode inodeId (mode &&& ~~~vfs.umask)⟩, [], none⟩

def symlinkat (target : String) (newdirfd : Fd) (linkpath : String) : Call Unit := do
  .ofExcept (failIf (target = "" ∨ '\x00' ∈ target.toList) .invalidPath)
  let vfs ← .get
  let path ← .ofExcept (vfs.newName newdirfd linkpath)
  addNewNode path fun inodeId =>
    ⟨inodeId, .symlink target, ⟨.symlink inodeId target.utf8ByteSize⟩, [], none⟩

/-- One name of the inode is gone; the inode goes when it was the last and no descriptor is open. -/
def dropLink (inodeId : InodeId) (vfs : VirtualFileSystem) : VirtualFileSystem :=
  let tree := match vfs.tree.inodes.get? inodeId with
    | some node => { vfs.tree with inodes := vfs.tree.inodes.insert inodeId node.decrementLinkCount }
    | none => vfs.tree
  { vfs with tree :=
      if tree.linkCount inodeId = 0 ∧ vfs.fds.openCount inodeId = 0 then tree.removeInode inodeId else tree }

def unlinkTarget (vfs : VirtualFileSystem) (dirfd : Fd) (path : String) (flags : UInt32) :
    Except VfsError GuestPath := do
  failIf (flags &&& ~~~atRemovedir ≠ 0) .invalidPath
  let resolved ← vfs.resolveAt dirfd path .nofollowFinal
  let target := resolved.guestPath
  failIf target.isRoot .permissionDenied
  let node ← okOr (vfs.tree.lookupPath target) .noEntry
  if flags &&& atRemovedir ≠ 0 then do
    failIf (node.isDirectory = false) .notDirectory
    failIf (vfs.tree.isEmptyDirectory target = false) .notEmpty
  else failIf (node.isDirectory = true) .isDirectory
  vfs.checkParentWritePermissions target
  pure target

def unlinkat (dirfd : Fd) (path : String) (flags : UInt32) : Call Unit := do
  let vfs ← .get
  let target ← .ofExcept (vfs.unlinkTarget dirfd path flags)
  let inodeId ← onTree (PathTree.removePathLink target)
  .modify (dropLink inodeId)
  invalidateInodeCaches ([vfs.parentInode target, some inodeId].filterMap id)

/-- The inode `linkat` gives a second name. -/
def linkSource (vfs : VirtualFileSystem) (olddirfd : Fd) (oldpath : String) (flags : UInt32) :
    Except VfsError InodeId := do
  failIf (flags &&& ~~~(atSymlinkFollow ||| atEmptyPath) ≠ 0) .invalidPath
  failIf (oldpath = "" ∧ flags &&& atEmptyPath = 0) .noEntry
  let oldInode ←
    if oldpath = "" then do
      let entry ← vfs.fds.get olddirfd
      let _ ← okOr entry.path .noEntry
      pure entry.inodeId
    else do
      let resolved ← vfs.resolveAt olddirfd oldpath (nofollowOption (flags &&& atSymlinkFollow = 0))
      okOr resolved.inode .noEntry
  let node ← okOr (vfs.tree.lookupInode oldInode) .noEntry
  failIf (node.isDirectory = true) .notPermitted
  pure oldInode

def linkat (olddirfd : Fd) (oldpath : String) (newdirfd : Fd) (newpath : String) (flags : UInt32) :
    Call Unit := do
  let vfs ← .get
  let oldInode ← .ofExcept (vfs.linkSource olddirfd oldpath flags)
  let target ← .ofExcept (vfs.newName newdirfd newpath)
  onTree (PathTree.withInode oldInode PathNode.incrementLinkCount)
  onTree (PathTree.insertLink target oldInode)
  let vfs ← .get
  invalidateInodeCaches ([vfs.parentInode target, some oldInode].filterMap id)

def validateRenameReplacement (tree : PathTree) (oldInode targetInode : InodeId) (targetPath : GuestPath) :
    Except VfsError Unit := do
  let oldNode ← okOr (tree.lookupInode oldInode) .noEntry
  let targetNode ← okOr (tree.lookupInode targetInode) .noEntry
  match oldNode.isDirectory, targetNode.isDirectory with
  | true, false => .error .notDirectory
  | false, true => .error .isDirectory
  | true, true => failIf (tree.isEmptyDirectory targetPath = false) .notEmpty
  | false, false => .ok ()

def removeExistingRenameTarget (targetPath : GuestPath) (targetInode : InodeId) : Call Unit := do
  let vfs ← .get
  .ofExcept do
    let targetNode ← okOr (vfs.tree.lookupInode targetInode) .noEntry
    failIf (targetNode.isDirectory = true ∧ vfs.tree.isEmptyDirectory targetPath = false) .notEmpty
  let _ ← onTree (PathTree.removePathLink targetPath)
  .modify (dropLink targetInode)

/-- The names under `paths` are taken out, and paired with where they go. -/
def takeLinks (paths : List GuestPath) (oldPrefix newPrefix : GuestPath) :
    PathTree.Call (List (GuestPath × InodeId)) :=
  .collect paths fun path => do
    let inodeId ← PathTree.removePathLink path
    pure (PathTree.replacePrefix path oldPrefix newPrefix, inodeId)

def putLinks (updates : List (GuestPath × InodeId)) : PathTree.Call Unit :=
  .forEach updates fun update => PathTree.insertLink update.1 update.2

def rebindPaths (oldPath newPath : GuestPath) : Call Unit :=
  .modify fun vfs => { vfs with fds := vfs.fds.rebindPaths oldPath newPath }

def movePath (oldPath newPath : GuestPath) : Call Unit := do
  let vfs ← .get
  let updates ← onTree (takeLinks (vfs.tree.pathsUnderPrefix oldPath) oldPath newPath)
  onTree (putLinks updates)
  rebindPaths oldPath newPath

/-- The names that move along with `path`. -/
def exchangedPaths (tree : PathTree) (path : GuestPath) (isDir : Bool) : List GuestPath :=
  if isDir then tree.pathsUnderPrefix path else [path]

def exchangePaths (oldPath : GuestPath) (oldInode : InodeId) (newPath : GuestPath) (newInode : InodeId) :
    Call Unit := do
  let vfs ← .get
  let (oldIsDir, newIsDir) ← .ofExcept do
    let oldNode ← okOr (vfs.tree.lookupInode oldInode) .noEntry
    let newNode ← okOr (vfs.tree.lookupInode newInode) .noEntry
    failIf (oldNode.isDirectory = true ∧ newPath.startsWith oldPath = true) .invalidPath
    failIf (newNode.isDirectory = true ∧ oldPath.startsWith newPath = true) .invalidPath
    pure (oldNode.isDirectory, newNode.isDirectory)
  let oldUpdates ← onTree (takeLinks (exchangedPaths vfs.tree oldPath oldIsDir) oldPath newPath)
  let newUpdates ← onTree (takeLinks (exchangedPaths vfs.tree newPath newIsDir) newPath oldPath)
  onTree (putLinks (oldUpdates ++ newUpdates))
  rebindPaths oldPath newPath
  rebindPaths newPath oldPath

/-- The two ends of a rename, once the flags and paths are found to be acceptable; `none` when they are
the same path and nothing is to be done. -/
def renameEnds (vfs : VirtualFileSystem) (olddirfd : Fd) (oldpath : String) (newdirfd : Fd) (newpath : String)
    (flags : UInt32) : Except VfsError (Option (GuestPath × InodeId × ResolvedPath)) := do
  failIf (flags &&& ~~~supportedRenameFlags ≠ 0) .invalidPath
  failIf (flags &&& renameNoreplace ≠ 0 ∧ flags &&& renameExchange ≠ 0) .invalidPath
  let oldResolved ← vfs.resolveAt olddirfd oldpath .nofollowFinal
  let newResolved ← vfs.resolveAt newdirfd newpath .nofollowFinal
  let oldPath := oldResolved.guestPath
  let newPath := newResolved.guestPath
  failIf (oldPath.isRoot = true ∨ newPath.isRoot = true) .permissionDenied
  let oldInode ← okOr oldResolved.inode .noEntry
  if oldPath = newPath then pure none
  else do
    let oldNode ← okOr (vfs.tree.lookupInode oldInode) .noEntry
    failIf (flags &&& renameNoreplace ≠ 0 ∧ newResolved.inode.isSome = true) .alreadyExists
    failIf (oldNode.isDirectory = true ∧ newPath.startsWith oldPath = true ∧ flags &&& renameExchange = 0)
      .invalidPath
    vfs.tree.ensureParentDir newPath
    vfs.checkParentWritePermissions oldPath
    vfs.checkParentWritePermissions newPath
    pure (some (oldPath, oldInode, newResolved))

def renameat2 (olddirfd : Fd) (oldpath : String) (newdirfd : Fd) (newpath : String) (flags : UInt32) :
    Call Unit := do
  let vfs ← .get
  match ← .ofExcept (vfs.renameEnds olddirfd oldpath newdirfd newpath flags) with
  | none => pure ()
  | some (oldPath, oldInode, newResolved) =>
    let newPath := newResolved.guestPath
    if flags &&& renameExchange ≠ 0 then do
      let newInode ← .ofExcept (okOr newResolved.inode .noEntry)
      exchangePaths oldPath oldInode newPath newInode
      invalidateVfsCaches
    else do
      match newResolved.inode with
      | some targetInode =>
        .ofExcept (validateRenameReplacement vfs.tree oldInode targetInode newPath)
        removeExistingRenameTarget newPath targetInode
      | none => pure ()
      let vfs ← .get
      movePath oldPath newPath
      invalidateInodeCaches ([vfs.parentInode oldPath, vfs.parentInode newPath, newResolved.inode].filterMap id)

def changeMetadata (path : String) (change : MetadataSidecar → MetadataSidecar) : Call Unit := do
  let vfs ← .get
  let (path, node) ← .ofExcept do
    let resolved ← vfs.resolveAt atFdcwd path .follow
    let node ← okOr (vfs.tree.lookupPath resolved.guestPath) .noEntry
    pure (resolved.guestPath, node)
  onTree (PathTree.withPath path (.modify fun node => { node with metadata := change node.metadata }))
  invalidateInodeCache node.inodeId

def chmod (path : String) (mode : UInt32) : Call Unit := changeMetadata path (·.setMode mode)

def chown (path : String) (uid gid : Option UInt32) : Call Unit := changeMetadata path (·.setOwner uid gid)

def utimensat (dirfd : Fd) (path : String) (times : FileTimes) (flags : UInt32) : Call Unit := do
  let vfs ← .get
  let inodeId ← .ofExcept do
    failIf (flags &&& ~~~(atSymlinkNofollow ||| atEmptyPath) ≠ 0) .invalidPath
    if path = "" ∧ flags &&& atEmptyPath ≠ 0 then do
      let entry ← vfs.fds.get dirfd
      pure entry.inodeId
    else do
      let resolved ← vfs.resolveAt dirfd path (nofollowOption (flags &&& atSymlinkNofollow ≠ 0))
      okOr resolved.inode .noEntry
  onTree (PathTree.withInode inodeId
    (.modify fun node => { node with metadata := node.metadata.setTimes times }))
  invalidateInodeCache inodeId

end VirtualFileSystem

end Mcr.Vfs
