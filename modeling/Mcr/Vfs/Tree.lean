import Mcr.Vfs.Node

/-!
# The path tree

A `PathTree` keeps two tables, names to inode ids and inode ids to nodes, and an index of the names in
each directory. A path is the list of its components. Inode ids are handed out by a counter that wraps
around as an unchecked `u64` does.
-/

namespace Mcr.Vfs

abbrev GuestPath := List String

namespace GuestPath

def root : GuestPath := []

def parent (path : GuestPath) : Option GuestPath := if path = [] then none else some path.dropLast

def fileName (path : GuestPath) : Option String := path.getLast?

def startsWith (path other : GuestPath) : Bool := other.isPrefixOf path

def isRoot (path : GuestPath) : Bool := path.isEmpty

def joinComponent (path : GuestPath) (component : String) : GuestPath := path ++ [component]

@[simp] theorem startsWith_iff {path other : GuestPath} : path.startsWith other = true ↔ other <+: path :=
  List.isPrefixOf_iff_prefix

end GuestPath

def splitGuestComponents (path : String) : Except VfsError (List String) := do
  failIf ('\x00' ∈ path.toList) .invalidPath
  let parts := ((path.toList.splitOn '/').filter (· ≠ [])).map String.ofList
  failIf (∃ part ∈ parts, 255 < part.utf8ByteSize) .nameTooLong
  pure parts

def parseAbsolutePath (path : String) : Except VfsError GuestPath := do
  failIf (path.toList.head? ≠ some '/') .invalidPath
  splitGuestComponents path

structure DirectoryChild where
  name : String
  inode : InodeId
  fileType : UInt8
deriving DecidableEq, Repr

structure PathTree where
  nodes : SortedMap GuestPath InodeId
  inodes : SortedMap InodeId PathNode
  children : SortedMap GuestPath (SortedMap String InodeId)
  nextInodeId : InodeId

namespace PathTree

def new : PathTree where
  nodes := SortedMap.empty.insert .root rootInodeId
  inodes := SortedMap.empty.insert rootInodeId (.directory rootInodeId)
  children := .empty
  nextInodeId := rootInodeId + 1

def lookupPath (tree : PathTree) (path : GuestPath) : Option PathNode :=
  (tree.nodes.get? path).bind tree.inodes.get?

def lookupInode (tree : PathTree) (inodeId : InodeId) : Option PathNode := tree.inodes.get? inodeId

/-- The number of names of an inode. -/
def linkCount (tree : PathTree) (inodeId : InodeId) : Nat := tree.nodes.values.countP (· = inodeId)

def isEmptyDirectory (tree : PathTree) (path : GuestPath) : Bool :=
  match tree.children.get? path with
  | none => true
  | some names => names.entries.isEmpty

def pathsUnderPrefix (tree : PathTree) (pre : GuestPath) : List GuestPath :=
  tree.nodes.keys.filter (·.startsWith pre)

def replacePrefix (path oldPrefix newPrefix : GuestPath) : GuestPath :=
  newPrefix ++ path.drop oldPrefix.length

def ensureParentDir (tree : PathTree) (path : GuestPath) : Except VfsError Unit := do
  failIf path.isRoot .invalidPath
  let parent ← okOr path.parent .invalidPath
  match tree.lookupPath parent with
  | some node => failIf (node.isDirectory = false) .notDirectory
  | none => .error .noEntry

/-- The children listed so far are collected in order; a name without an inode is an error. -/
def childrenOf (tree : PathTree) : List (String × InodeId) → Except VfsError (List DirectoryChild)
  | [] => .ok []
  | (name, childInode) :: rest => do
    let childNode ← okOr (tree.inodes.get? childInode) .invalidPath
    let children ← tree.childrenOf rest
    pure (⟨name, childNode.inodeId, childNode.attr.direntType⟩ :: children)

def staticChildren (tree : PathTree) (path : GuestPath) : Except VfsError (List DirectoryChild) := do
  let node ← okOr (tree.lookupPath path) .noEntry
  failIf (node.isDirectory = false) .notDirectory
  tree.childrenOf (((tree.children.get? path).map SortedMap.entries).getD [])

/-! ### Changes of the tables -/

def indexChild (tree : PathTree) (path : GuestPath) (inodeId : InodeId) : PathTree :=
  match path.parent, path.fileName with
  | some parent, some name =>
    let names := (tree.children.get? parent).getD .empty
    { tree with children := tree.children.insert parent (names.insert name inodeId) }
  | _, _ => tree

/-- A directory without names left has no entry in the index. -/
def withoutName (children : SortedMap GuestPath (SortedMap String InodeId)) (parent : GuestPath)
    (name : String) : SortedMap GuestPath (SortedMap String InodeId) :=
  match children.get? parent with
  | none => children
  | some names =>
    if (names.erase name).entries.isEmpty then children.erase parent
    else children.insert parent (names.erase name)

def unindexChild (tree : PathTree) (path : GuestPath) : PathTree :=
  match path.parent, path.fileName with
  | some parent, some name => { tree with children := withoutName tree.children parent name }
  | _, _ => tree

/-- A call on `&mut PathTree`. -/
abbrev Call := Prog PathTree VfsError

def allocateInodeId : Call InodeId := fun tree =>
  (.ok tree.nextInodeId, { tree with nextInodeId := (tree.nextInodeId + 1) % u64Limit })

def addNode (tree : PathTree) (path : GuestPath) (node : PathNode) : PathTree :=
  indexChild
    { tree with
      inodes := tree.inodes.insert node.inodeId node
      nodes := tree.nodes.insert path node.inodeId } path node.inodeId

def insertPathNode (path : GuestPath) (node : PathNode) : Call Unit := do
  let tree ← .get
  .ofExcept (failIf (tree.nodes.get? path).isSome .alreadyExists)
  .modify (·.addNode path node)

def addLink (tree : PathTree) (path : GuestPath) (inodeId : InodeId) : PathTree :=
  indexChild { tree with nodes := tree.nodes.insert path inodeId } path inodeId

def insertLink (path : GuestPath) (inodeId : InodeId) : Call Unit := do
  let tree ← .get
  .ofExcept (failIf (tree.nodes.get? path).isSome .alreadyExists)
  .ofExcept (failIf (tree.inodes.get? inodeId).isNone .noEntry)
  .modify (·.addLink path inodeId)

def dropPath (tree : PathTree) (path : GuestPath) : PathTree :=
  unindexChild { tree with nodes := tree.nodes.erase path } path

def removePathLink (path : GuestPath) : Call InodeId := do
  let tree ← .get
  let inodeId ← .ofExcept (okOr (tree.nodes.get? path) .noEntry)
  .modify (·.dropPath path)
  pure inodeId

def removeInode (tree : PathTree) (inodeId : InodeId) : PathTree :=
  { tree with inodes := tree.inodes.erase inodeId }

def replacePathNode (tree : PathTree) (path : GuestPath) (node : PathNode) : PathTree :=
  let inodes := match tree.nodes.get? path with
    | some existing => tree.inodes.erase existing
    | none => tree.inodes
  let tree := indexChild
    { tree with nodes := tree.nodes.insert path node.inodeId, inodes := inodes } path node.inodeId
  { tree with inodes := tree.inodes.insert node.inodeId node }

/-- The call on the node behind `lookup_inode_mut`, which fails with `NoEntry` when there is none. -/
def withInode {α : Type} (inodeId : InodeId) (change : PathNode.Change α) : Call α := fun tree =>
  match tree.inodes.get? inodeId with
  | none => (.error .noEntry, tree)
  | some node =>
    let (result, node') := change node
    (result, { tree with inodes := tree.inodes.insert inodeId node' })

def withPath {α : Type} (path : GuestPath) (change : PathNode.Change α) : Call α := fun tree =>
  match tree.nodes.get? path with
  | none => (.error .noEntry, tree)
  | some inodeId => withInode inodeId change tree

/-! ### Building a tree -/

def insertNode (path : GuestPath) (kind : PathNodeKind) (mode : UInt32) : Call InodeId := do
  let tree ← .get
  .ofExcept (failIf (tree.nodes.get? path).isSome .alreadyExists)
  let inodeId ← allocateInodeId
  let attr := match kind with
    | .directory => LinuxFileAttr.directoryWithMode inodeId mode
    | .file => .regular inodeId mode 0
    | .device _ => .characterDevice inodeId mode
    | .proc kind => kind.attr inodeId mode
    | .symlink target => .symlink inodeId target.utf8ByteSize
  insertPathNode path ⟨inodeId, kind, ⟨attr⟩, [], none⟩
  pure inodeId

/-- The checks before a `create_*` call inserts its node. -/
def creationPath (path : String) : Call GuestPath := do
  let tree ← .get
  .ofExcept do
    let path ← parseAbsolutePath path
    tree.ensureParentDir path
    pure path

def createDir (path : String) : Call InodeId := do
  let path ← creationPath path
  insertNode path .directory 0o755

def createFile (path : String) : Call InodeId := do
  let path ← creationPath path
  insertNode path .file 0o644

def createFileWithContent (path : String) (data : List UInt8) (mode : UInt32) : Call InodeId := do
  let path ← creationPath path
  let inodeId ← allocateInodeId
  insertPathNode path ⟨inodeId, .file, ⟨.regular inodeId mode data.length⟩, data, none⟩
  pure inodeId

def createFileWithHostContent (path : String) (hostPath : HostPath) (size : Nat) (mode : UInt32) :
    Call InodeId := do
  let path ← creationPath path
  let inodeId ← allocateInodeId
  insertPathNode path ⟨inodeId, .file, ⟨.regular inodeId mode size⟩, [], some hostPath⟩
  pure inodeId

def createSymlink (path target : String) : Call InodeId := do
  let path ← creationPath path
  insertNode path (.symlink target) 0o777

def createDirIfMissing (path : String) : Call InodeId := do
  let path ← .ofExcept (parseAbsolutePath path)
  let tree ← .get
  match tree.lookupPath path with
  | some node =>
    .ofExcept (failIf (node.isDirectory = false) .notDirectory)
    pure node.inodeId
  | none =>
    .ofExcept (tree.ensureParentDir path)
    insertNode path .directory 0o755

def insertDevNode (path : String) (inodeId : InodeId) (kind : DevNodeKind) : Call Unit := do
  let path ← .ofExcept (parseAbsolutePath path)
  let tree ← .get
  match tree.lookupPath path with
  | some node => .ofExcept (failIf (node.kind ≠ .device kind) .alreadyExists)
  | none =>
    .ofExcept (tree.ensureParentDir path)
    insertPathNode path ⟨inodeId, .device kind, ⟨.characterDevice inodeId 0o666⟩, [], none⟩

def insertProcStaticNode (path : String) (inodeId : InodeId) (kind : ProcNodeKind) (mode : UInt32) :
    Call Unit := do
  let path ← .ofExcept (parseAbsolutePath path)
  let tree ← .get
  let node : PathNode := ⟨inodeId, .proc kind, ⟨kind.attr inodeId mode⟩, [], none⟩
  match tree.lookupPath path with
  | some existing =>
    if existing.kind = .proc kind then pure ()
    -- a directory of the image gives way to the directory of procfs
    else if existing.kind = .directory ∧ (kind = .directory ∨ kind = .fdDirectory) then
      .modify (·.replacePathNode path node)
    else .throw .alreadyExists
  | none =>
    .ofExcept (if path.isRoot then .ok () else tree.ensureParentDir path)
    insertPathNode path node

structure DevNode where
  path : String
  inodeId : InodeId
  kind : DevNodeKind

/-- The nodes of devfs, in the order they are mounted. -/
def devNodes : List DevNode :=
  [⟨"/dev/null", devNullInodeId, .null⟩, ⟨"/dev/zero", devZeroInodeId, .zero⟩,
    ⟨"/dev/urandom", devUrandomInodeId, .urandom⟩]

def mountMinimalDevfs : Call Unit := do
  let _ ← createDirIfMissing "/dev"
  .forEach devNodes fun node => insertDevNode node.path node.inodeId node.kind

structure ProcStaticNode where
  path : String
  inodeId : InodeId
  kind : ProcNodeKind
  mode : UInt32

/-- The nodes of procfs, in the order they are mounted. -/
def procStaticNodes : List ProcStaticNode :=
  [⟨"/proc", procInodeId, .directory, 0o555⟩,
    ⟨"/proc/self", procSelfInodeId, .directory, 0o555⟩,
    ⟨"/proc/self/exe", procSelfExeInodeId, .exe, 0o777⟩,
    ⟨"/proc/self/cmdline", procSelfCmdlineInodeId, .cmdline, 0o444⟩,
    ⟨"/proc/self/environ", procSelfEnvironInodeId, .environ, 0o400⟩,
    ⟨"/proc/self/fd", procSelfFdInodeId, .fdDirectory, 0o555⟩]

def mountMinimalProcfs : Call Unit :=
  .forEach procStaticNodes fun node => insertProcStaticNode node.path node.inodeId node.kind node.mode

end PathTree

end Mcr.Vfs
