import Mcr.Vfs.Tree

/-!
# Path resolution

A path is walked component by component. A symbolic link puts the components of its target in front of
the ones still to come, and at most `symlinkLimit` links are followed, so the walk is a recursion on the
links left and, between two links, on the components.
-/

namespace Mcr.Vfs

structure Rootfs where
  hostRoot : HostPath
  root : GuestPath
  cwd : GuestPath
deriving DecidableEq, Repr

namespace Rootfs

def new (hostRoot : HostPath) : Rootfs := ⟨hostRoot, .root, .root⟩

def withGuestRoot (hostRoot : HostPath) (root : GuestPath) : Rootfs := ⟨hostRoot, root, root⟩

def setCwd (rootfs : Rootfs) (cwd : GuestPath) : Except VfsError Rootfs :=
  if cwd.startsWith rootfs.root then .ok { rootfs with cwd := cwd } else .error .noEntry

def visiblePath (rootfs : Rootfs) (path : GuestPath) : Except VfsError String := do
  failIf (path.startsWith rootfs.root = false) .noEntry
  let suffix := path.drop rootfs.root.length
  if suffix = [] then pure "/" else pure ("/" ++ "/".intercalate suffix)

end Rootfs

structure SymlinkPlaceholder where
  parent : GuestPath
  target : String
deriving DecidableEq, Repr

def rewriteTarget (target : String) (suffix : List String) : String :=
  suffix.foldl
    (fun rewritten component =>
      (if rewritten.toList.getLast? = some '/' then rewritten else rewritten.push '/') ++ component)
    target

/-- The ancestors of `path` of at most `length` components, the longest first. -/
def PathTree.symlinkPlaceholderFrom (tree : PathTree) (path : GuestPath) :
    Nat → Option SymlinkPlaceholder
  | 0 => none
  | length + 1 =>
    let ancestor := path.take (length + 1)
    match (tree.lookupPath ancestor).map PathNode.kind with
    | none => tree.symlinkPlaceholderFrom path length
    | some .directory | some (.proc .directory) | some (.proc .fdDirectory) =>
      tree.symlinkPlaceholderFrom path length
    | some .file | some (.device _) | some (.proc _) => none
    | some (.symlink target) =>
      some ⟨(GuestPath.parent ancestor).getD .root, rewriteTarget target (path.drop (length + 1))⟩

def PathTree.lookupSymlinkPlaceholder (tree : PathTree) (path : GuestPath) :
    Option SymlinkPlaceholder :=
  tree.symlinkPlaceholderFrom path path.length

structure PathResolver where
  rootfs : Rootfs
  tree : PathTree
  followFinalSymlink : Bool

namespace PathResolver

def enforceJail (resolver : PathResolver) (path : GuestPath) : Except VfsError Unit :=
  failIf (path.startsWith resolver.rootfs.root = false) .noEntry

def allowMissingLeaf (resolver : PathResolver) (current : GuestPath) (pending : List String) : Bool :=
  current.startsWith resolver.rootfs.root && pending.isEmpty

/-- Where the walk stands when it needs no further component, or comes to a link it follows. -/
inductive Stop
  | finished (path : GuestPath)
  | atLink (link : SymlinkPlaceholder) (pending : List String)
deriving DecidableEq, Repr

def walkToLink (resolver : PathResolver) : GuestPath → List String → Except VfsError Stop
  | current, [] => .ok (.finished current)
  | current, component :: pending =>
    if component = "" ∨ component = "." then do
      resolver.enforceJail current
      resolver.walkToLink current pending
    else if component = ".." then do
      let current :=
        if resolver.rootfs.root.length < current.length then current.dropLast else current
      resolver.enforceJail current
      resolver.walkToLink current pending
    else do
      let nextPath := current.joinComponent component
      resolver.enforceJail nextPath
      match resolver.tree.lookupSymlinkPlaceholder nextPath with
      | some link =>
        if !resolver.followFinalSymlink && pending.isEmpty then resolver.walkToLink nextPath pending
        else .ok (.atLink link pending)
      | none =>
        match resolver.tree.lookupPath nextPath with
        | some node =>
          if !node.isDirectory && !pending.isEmpty then .error .notDirectory
          else resolver.walkToLink nextPath pending
        | none =>
          if resolver.allowMissingLeaf nextPath pending then .ok (.finished nextPath)
          else .error .noEntry

/-- Where the walk goes on behind a link, and the components it has then to pass. -/
def expandLink (resolver : PathResolver) (link : SymlinkPlaceholder) (pending : List String) :
    Except VfsError (GuestPath × List String) := do
  let current :=
    if link.target.toList.head? = some '/' then resolver.rootfs.root else link.parent
  let components ← splitGuestComponents link.target
  resolver.enforceJail current
  pure (current, components ++ pending)

def walk (resolver : PathResolver) (links : Nat) (current : GuestPath) (pending : List String) :
    Except VfsError GuestPath := do
  match ← resolver.walkToLink current pending with
  | .finished path => pure path
  | .atLink link pending =>
    match links with
    | 0 => .error .loop
    | links + 1 =>
      let (current, pending) ← resolver.expandLink link pending
      resolver.walk links current pending

/-- Where the walk of a path starts. -/
def base (resolver : PathResolver) (path : String) : GuestPath :=
  if path.toList.head? = some '/' then resolver.rootfs.root else resolver.rootfs.cwd

def resolve (resolver : PathResolver) (path : String) : Except VfsError GuestPath := do
  failIf (path = "" ∨ '\x00' ∈ path.toList) .invalidPath
  let components ← splitGuestComponents path
  resolver.walk symlinkLimit (resolver.base path) components

end PathResolver

structure ResolvedPath where
  guestPath : GuestPath
  inode : Option InodeId
deriving DecidableEq, Repr

inductive ResolveOptions
  | follow
  | nofollowFinal
deriving DecidableEq, Repr

def ResolveOptions.followFinalSymlink : ResolveOptions → Bool
  | follow => true
  | nofollowFinal => false

def Rootfs.resolvePathWithOptions (rootfs : Rootfs) (path : String) (tree : PathTree)
    (options : ResolveOptions) : Except VfsError ResolvedPath := do
  let resolved ← PathResolver.resolve ⟨rootfs, tree, options.followFinalSymlink⟩ path
  pure ⟨resolved, (tree.lookupPath resolved).map PathNode.inodeId⟩

def Rootfs.resolvePath (rootfs : Rootfs) (path : String) (tree : PathTree) :
    Except VfsError ResolvedPath :=
  rootfs.resolvePathWithOptions path tree .follow

end Mcr.Vfs
