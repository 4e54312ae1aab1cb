import Mcr.Vfs.Jail
import Mcr.Vfs.Names
import Mcr.Vfs.OpenFailure

/-!
# Link counts

A node stores the number of its names, and the calls that make, link, remove and rename names keep that number right
without ever counting: each of them changes it by one, or moves names about. A node that has just been made has one
name, unless its id already belonged to another node; the ids of `/proc` and `/dev` are fixed, and the counter of ids
does not step over them.
-/

namespace Mcr.Vfs

open Prog

namespace PathTree

variable {tree tree' : PathTree} {i : InodeId}

/-! ### Counting names -/

theorem linkCount_eq_total (tree : PathTree) (i : InodeId) :
    tree.linkCount i = tree.nodes.total fun j => if j = i then 1 else 0 := by
  unfold linkCount SortedMap.total
  induction tree.nodes.values with
  | nil => rfl
  | cons j rest ih =>
      rw [List.countP_cons, List.map_cons, List.sum_cons, ih, Nat.add_comm]
      simp

theorem linkCount_insert {path : GuestPath} {j : InodeId} (hnodes : tree'.nodes = tree.nodes.insert path j)
    (hnew : tree.nodes.get? path = none) (i : InodeId) :
    tree'.linkCount i = tree.linkCount i + if j = i then 1 else 0 := by
  rw [linkCount_eq_total, linkCount_eq_total, hnodes, SortedMap.total_insert, SortedMap.erase_of_none hnew,
    Nat.add_comm]

theorem linkCount_erase {path : GuestPath} {j : InodeId} (hnodes : tree'.nodes = tree.nodes.erase path)
    (hj : tree.nodes.get? path = some j) (i : InodeId) :
    tree.linkCount i = tree'.linkCount i + if j = i then 1 else 0 := by
  rw [linkCount_eq_total, linkCount_eq_total, hnodes, SortedMap.total_erase hj, Nat.add_comm]

theorem linkCount_congr (hnodes : tree'.nodes = tree.nodes) (i : InodeId) : tree'.linkCount i = tree.linkCount i := by
  rw [linkCount, linkCount, hnodes]

theorem Relocated.linkCount {f : GuestPath → GuestPath} (h : Relocated tree tree' f) (i : InodeId) :
    tree'.linkCount i = tree.linkCount i := by
  rw [linkCount_eq_total, linkCount_eq_total]
  exact SortedMap.total_rename h.names h.inj _

theorem Wf.linkCount_of_none (hwf : tree.Wf) (hi : tree.inodes.get? i = none) : tree.linkCount i = 0 := by
  refine linkCount_eq_zero_iff.mpr fun p hp => ?_
  obtain ⟨node, hnode⟩ := hwf.named p i hp
  exact nomatch hi.symm.trans hnode

/-! ### Exact counts -/

/-- The stored count of the inode, if it is there and no directory, is the number of its names. -/
def Exact (tree : PathTree) (i : InodeId) : Prop :=
  ∀ node, tree.inodes.get? i = some node → node.isDirectory = false → node.attr.nlink = tree.linkCount i

theorem Exact.congr (h : tree.Exact i) (hnodes : tree'.nodes = tree.nodes)
    (hinodes : ∀ node', tree'.inodes.get? i = some node' → ∃ node, tree.inodes.get? i = some node ∧
      node'.attr.nlink = node.attr.nlink ∧ node'.isDirectory = node.isDirectory) : tree'.Exact i := by
  intro node' hnode' hfile
  obtain ⟨node, hnode, hnlink, hdir⟩ := hinodes node' hnode'
  rw [hnlink, linkCount_congr hnodes]
  exact h node hnode (hdir ▸ hfile)

theorem Exact.relocated {f : GuestPath → GuestPath} (hrelocated : Relocated tree tree' f) (h : tree.Exact i) :
    tree'.Exact i := by
  intro node hnode hfile
  rw [hrelocated.inodes] at hnode
  rw [hrelocated.linkCount]
  exact h node hnode hfile

theorem Exact.addNode (hwf : tree.Wf) {path : GuestPath} {node : PathNode} (hnew : tree.nodes.get? path = none)
    (hfresh : tree.inodes.get? node.inodeId = none) (hnlink : node.attr.nlink = 1) (h : tree.Exact i) :
    (tree.allocated.addNode path node).Exact i := by
  have hcount : (tree.allocated.addNode path node).linkCount i =
      tree.linkCount i + if node.inodeId = i then 1 else 0 :=
    linkCount_insert (by simp [PathTree.addNode, allocated]) hnew i
  intro node' hnode' hfile
  rw [Wf.addNode_inodes] at hnode'
  rw [hcount]
  split at hnode'
  · rename_i hid
    cases hnode'
    rw [hid, hwf.linkCount_of_none hfresh, if_pos rfl]
    exact hnlink
  · rename_i hid
    rw [if_neg (Ne.symm hid)]
    exact h node' hnode' hfile

theorem Exact.addLink {path : GuestPath} {j : InodeId} {node node' : PathNode} (hnew : tree.nodes.get? path = none)
    (hnode : tree.inodes.get? j = some node) (hnlink : node'.attr.nlink = node.attr.nlink + 1)
    (hdir : node'.isDirectory = node.isDirectory) (h : tree.Exact i) :
    ((tree.setNode j node').addLink path j).Exact i := by
  have hcount : ((tree.setNode j node').addLink path j).linkCount i = tree.linkCount i + if j = i then 1 else 0 :=
    linkCount_insert (by simp [PathTree.addLink, setNode]) hnew i
  intro last hlast hfile
  rw [Wf.addLink_inodes, setNode, SortedMap.get?_insert] at hlast
  rw [hcount]
  split at hlast
  · rename_i hij
    subst hij
    cases hlast
    rw [hnlink, if_pos rfl, h node hnode (hdir ▸ hfile)]
  · rename_i hij
    rw [if_neg (Ne.symm hij)]
    exact h last hlast hfile

def KeepsExact (i : InodeId) (tree tree' : PathTree) : Prop := tree.Exact i → tree'.Exact i

theorem withInode_exact {α : Type} (j : InodeId) {change : PathNode.Change α}
    (hchange : ∀ node, (change node).2.attr.nlink = node.attr.nlink ∧ (change node).2.isDirectory = node.isDirectory) :
    Prog.Along (KeepsExact i) (withInode j change) := by
  intro tree
  unfold withInode
  cases hnode : tree.inodes.get? j with
  | none => exact id
  | some node =>
      refine fun h => h.congr rfl fun node' hnode' => ?_
      simp only [SortedMap.get?_insert] at hnode'
      split at hnode'
      · rename_i hij
        cases hnode'
        exact ⟨node, hij ▸ hnode, hchange node⟩
      · exact ⟨node', hnode', rfl, rfl⟩

theorem withPath_exact {α : Type} (path : GuestPath) {change : PathNode.Change α}
    (hchange : ∀ node, (change node).2.attr.nlink = node.attr.nlink ∧ (change node).2.isDirectory = node.isDirectory) :
    Prog.Along (KeepsExact i) (withPath path change) := by
  intro tree
  unfold withPath
  cases tree.nodes.get? path with
  | none => exact id
  | some j => exact withInode_exact j hchange tree

end PathTree

/-! ### The calls -/

namespace VirtualFileSystem

variable {vfs vfs' : VirtualFileSystem} {host : Host} {i : InodeId}

theorem dropName_exact {path : GuestPath} {j : InodeId} (hj : vfs.tree.nodes.get? path = some j)
    (h : vfs.tree.Exact i) : (dropLink j (setTree (vfs.tree.dropPath path) vfs)).tree.Exact i := by
  obtain ⟨inodes, heq⟩ := dropLink_eq (setTree (vfs.tree.dropPath path) vfs) j
  have hcount : vfs.tree.linkCount i =
      (dropLink j (setTree (vfs.tree.dropPath path) vfs)).tree.linkCount i + if j = i then 1 else 0 := by
    refine PathTree.linkCount_erase ?_ hj i
    rw [heq]
    simp [setTree, PathTree.dropPath]
  intro node hnode hfile
  by_cases hij : i = j
  · subst hij
    rw [dropLink_get_self] at hnode
    split at hnode
    · cases hnode
    · obtain ⟨before, hbefore, rfl⟩ := Option.map_eq_some_iff.mp hnode
      have hbefore : vfs.tree.inodes.get? i = some before := by
        rw [← hbefore]
        exact congrArg (·.get? i) (PathTree.Wf.dropPath_inodes path).symm
      have hexact := h before hbefore hfile
      rw [hcount, if_pos rfl] at hexact
      show before.attr.nlink - 1 = _
      rw [hexact, Nat.add_sub_cancel]
  · rw [dropLink_get_ne j hij] at hnode
    rw [if_neg (Ne.symm hij), Nat.add_zero] at hcount
    rw [← hcount]
    refine h node ?_ hfile
    rw [← hnode]
    exact congrArg (·.get? i) (PathTree.Wf.dropPath_inodes path).symm

/-- A rename moves names about, and drops the one it replaces. -/
theorem Renamed.exact {flags : UInt32} {ends : Option (GuestPath × InodeId × ResolvedPath)}
    (hrenamed : Renamed vfs flags ends vfs') (hwf : vfs.tree.Wf) (h : vfs.tree.Exact i) : vfs'.tree.Exact i := by
  cases hrenamed with
  | same => exact h
  | exchange _ _ hapart => exact h.relocated (PathTree.swapTree_relocated _ hapart)
  | @move old _ new _ hends _ hvalid =>
      have hcleared : (vfs.withoutTarget new.guestPath new.inode).tree.Exact i := by
        cases htarget : new.inode with
        | none => exact h
        | some j => exact dropName_exact (hends.target.trans htarget) h
      exact hcleared.relocated (PathTree.moveTree_relocated old (withoutTarget_free hwf hends hvalid))

def KeepsExact (i : InodeId) (vfs vfs' : VirtualFileSystem) : Prop := PathTree.KeepsExact i vfs.tree vfs'.tree

instance : Std.Refl (KeepsExact i) := ⟨fun _ => id⟩

instance : IsTrans VirtualFileSystem (KeepsExact i) := ⟨fun _ _ _ h h' hexact => h' (h hexact)⟩

theorem onCache_exact (change : VfsCache → VfsCache) : Prog.Along (KeepsExact i) (onCache change) := fun _ => id

theorem onFiles_exact {α : Type} (call : Files.Call α) : Prog.Along (KeepsExact i) (onFiles call) := fun _ => id

theorem invalidateIfSome_exact (j : Option InodeId) : Prog.Along (KeepsExact i) (invalidateIfSome j) := by
  cases j with
  | none => exact .pure ()
  | some j => exact onCache_exact _

theorem invalidateParentCache_exact (path : GuestPath) : Prog.Along (KeepsExact i) (invalidateParentCache path) := by
  refine .get fun vfs => ?_
  cases vfs.parentInode path with
  | none => exact .pure ()
  | some parent => exact onCache_exact _

theorem incrementLinkCount_nlink (node : PathNode) :
    wp PathNode.incrementLinkCount
      (fun _ node' => node'.attr.nlink = node.attr.nlink + 1 ∧ node'.isDirectory = node.isDirectory)
      (fun _ node' => node' = node) node := by
  have hrun := PathNode.incrementLinkCount_run node
  by_cases hroom : node.metadata.attr.nlink + 1 < u64Limit
  · rw [MetadataSidecar.incrementLinkCount, if_pos hroom] at hrun
    exact wp_of_run hrun ⟨rfl, rfl⟩
  · rw [MetadataSidecar.incrementLinkCount, if_neg hroom] at hrun
    exact wp_of_error hrun rfl

theorem newFile_nlink (j : InodeId) (mode : UInt32) : (newFile j mode).attr.nlink = 1 := by
  refine if_neg ?_
  have hkind : (sIfreg ||| (mode &&& 0o7777)) &&& sIfmt = sIfreg := newFile_kindBits j mode
  rw [hkind]
  decide

theorem materialize_nlink (host : Host) (node : PathNode) :
    (PathNode.materializeDeferredContent host node).2.attr.nlink = node.attr.nlink ∧
      (PathNode.materializeDeferredContent host node).2.isDirectory = node.isDirectory := by
  unfold PathNode.materializeDeferredContent
  split
  · exact ⟨rfl, rfl⟩
  · split
    · exact ⟨rfl, rfl⟩
    · exact ⟨rfl, rfl⟩

theorem truncate_nlink (host : Host) (node : PathNode) :
    (PathNode.truncate host node).2.attr.nlink = node.attr.nlink ∧
      (PathNode.truncate host node).2.isDirectory = node.isDirectory := by
  have hspec : wp (PathNode.truncate host)
      (fun _ node' => node'.attr.nlink = node.attr.nlink ∧ node'.isDirectory = node.isDirectory)
      (fun _ node' => node'.attr.nlink = node.attr.nlink ∧ node'.isDirectory = node.isDirectory) node := by
    rw [PathNode.truncate, PathNode.setLen, wp_bind, wp_get, wp_bind]
    apply wp_check
    · exact fun _ _ => ⟨rfl, rfl⟩
    intro _ _
    rw [wp_bind]
    exact wp_mono (wp_of_state (materialize_nlink host node)) (fun _ _ h => (wp_modify _).mpr h) (fun _ _ h => h)
  exact wp_state hspec

theorem openTail_exact (host : Host) (path : GuestPath) (flags : OpenFlags) (createdParent : Option InodeId) :
    Prog.Along (KeepsExact i) (openTail host path flags createdParent) :=
  .get fun _ => .bind (.ofExcept _) fun _ => .bind (.ofExcept _) fun _ =>
    .bind (.when (.zoom (PathTree.withPath_exact path (truncate_nlink host)) fun _ _ h => h)) fun _ =>
      .get fun _ => .bind (.ofExcept _) fun _ => .bind (onFiles_exact _) fun _ =>
        .bind (invalidateIfSome_exact _) fun _ => .bind (invalidateIfSome_exact _) fun _ => .pure _

theorem close_exact (fd : Fd) : Prog.Along (KeepsExact i) (close fd) := by
  refine .bind (onFiles_exact _) fun file => .get fun _ => .when (.bind ?_ fun _ => onCache_exact _)
  refine .zoom (T := PathTree.KeepsExact i) (.modify fun tree h => ?_) fun _ _ h => h
  refine h.congr rfl fun node hnode => ⟨node, ?_, rfl, rfl⟩
  simp only [PathTree.removeInode, SortedMap.get?_erase] at hnode
  split at hnode
  · cases hnode
  · exact hnode

/-- Whether the call returns or fails. -/
abbrev LeavesExact {α : Type} (i : InodeId) (call : Call α) (vfs : VirtualFileSystem) : Prop :=
  wp call (fun _ vfs' => vfs'.tree.Exact i) (fun _ vfs' => vfs'.tree.Exact i) vfs

theorem openat_exact (host : Host) (hwf : vfs.tree.Wf) (dirfd : Fd) (path : String) (flags : OpenFlags) (mode : UInt32)
    (hfresh : flags.create = true → vfs.tree.FreshId) (h : vfs.tree.Exact i) :
    LeavesExact i (openat host dirfd path flags mode) vfs := by
  unfold LeavesExact
  rw [openat_eq, wp_bind, wp_get, wp_bind]
  apply wp_check
  · exact fun _ _ => h
  intro resolved hresolved
  rw [wp_bind]
  refine wp_mono (openCreate_spec hwf (resolveAt_nodes hwf hresolved) hfresh mode) ?_ (fun _ _ heq => heq ▸ h)
  intro createdParent vfs' hcreated
  have hexact : vfs'.tree.Exact i := by
    rcases hcreated with ⟨_, _, rfl⟩ | ⟨hcreate, hnew, _, _, _, _, _, _, _, _, rfl⟩
    · exact h
    · exact h.addNode hwf hnew (hfresh hcreate) (newFile_nlink _ _)
  exact wp_of_state (openTail_exact host resolved.guestPath flags createdParent vfs' hexact)

theorem symlinkat_exact (hwf : vfs.tree.Wf) (hfresh : vfs.tree.FreshId) (target : String) (newdirfd : Fd)
    (linkpath : String) (h : vfs.tree.Exact i) : LeavesExact i (symlinkat target newdirfd linkpath) vfs := by
  unfold LeavesExact symlinkat
  rw [wp_bind]
  apply wp_check
  · exact fun _ _ => h
  intro _ _
  rw [wp_bind, wp_get, wp_bind]
  apply wp_check
  · exact fun _ _ => h
  intro path hpath
  unfold addNewNode
  rw [wp_bind, onTree, wp_zoom]
  refine wp_of_run (PathTree.newNode_run _ (newName_ok hwf hpath).1) ?_
  have hadded : (vfs.tree.allocated.addNode path ⟨vfs.tree.nextInodeId, .symlink target,
      ⟨.symlink vfs.tree.nextInodeId target.utf8ByteSize⟩, [], none⟩).Exact i :=
    h.addNode hwf (newName_ok hwf hpath).1 hfresh rfl
  exact wp_of_state (invalidateParentCache_exact path _ hadded)

theorem linkat_exact (hwf : vfs.tree.Wf) (olddirfd : Fd) (oldpath : String) (newdirfd : Fd) (newpath : String)
    (flags : UInt32) (h : vfs.tree.Exact i) :
    LeavesExact i (linkat olddirfd oldpath newdirfd newpath flags) vfs := by
  unfold LeavesExact linkat
  rw [wp_bind, wp_get, wp_bind]
  apply wp_check
  · exact fun _ _ => h
  intro j hj
  obtain ⟨node, hnode, -⟩ := linkSource_ok hj
  rw [wp_bind]
  apply wp_check
  · exact fun _ _ => h
  intro target htarget
  have hnew := (newName_ok hwf htarget).1
  rw [wp_bind, onTree, wp_zoom, PathTree.wp_withInode hnode]
  refine wp_mono (incrementLinkCount_nlink node) ?_ ?_
  · rintro _ node' ⟨hnlink, hdir⟩
    have hset : (vfs.tree.setNode j node').inodes.get? j = some node' := by simp [PathTree.setNode]
    rw [wp_bind, onTree, wp_zoom]
    refine wp_of_run (PathTree.insertLink_run (by exact hnew) (by exact hset)) ?_
    rw [wp_bind, wp_get]
    exact wp_of_state (onCache_exact _ _ (h.addLink hnew hnode hnlink hdir))
  · rintro _ _ rfl
    rw [PathTree.setNode_self hnode]
    exact h

theorem unlinkat_exact (dirfd : Fd) (path : String) (flags : UInt32) (h : vfs.tree.Exact i) :
    LeavesExact i (unlinkat dirfd path flags) vfs := by
  unfold LeavesExact unlinkat
  rw [wp_bind, wp_get, wp_bind]
  apply wp_check
  · exact fun _ _ => h
  intro target _
  rw [wp_bind, onTree, wp_zoom]
  cases hj : vfs.tree.nodes.get? target with
  | none =>
      have hrun : PathTree.removePathLink target vfs.tree = (.error .noEntry, vfs.tree) := by
        simp [PathTree.removePathLink, hj, okOr, Prog.get, Prog.ofExcept, Prog.throw, bind]
      exact wp_of_error hrun h
  | some j =>
      refine wp_of_run (PathTree.removePathLink_run hj) ?_
      rw [wp_bind, wp_modify]
      exact wp_of_state (onCache_exact _ _ (dropName_exact hj h))

/-! ### Runs -/

/-- The calls that make, link, remove and rename names, and `close`. -/
def isLinkCall : Op → Bool
  | .openat _ _ _ _ | .symlinkat _ _ _ | .linkat _ _ _ _ _ | .unlinkat _ _ _ | .renameat2 _ _ _ _ _ | .close _ => true
  | _ => false

/-- One of these calls, which is handed a free id if it makes a node. -/
structure LinkStep (vfs : VirtualFileSystem) (op : Op) : Prop where
  call : isLinkCall op = true
  fresh : vfs.Sane op

theorem step_exact (host : Host) (hwf : vfs.tree.Wf) {op : Op} (hop : vfs.LinkStep op) (h : vfs.tree.Exact i) :
    (vfs.step host op).tree.Exact i := by
  have hfresh := hop.fresh
  have hcall := hop.call
  unfold step
  cases op with
  | openat dirfd path flags mode =>
      have hopened := wp_state (P := fun vfs' : VirtualFileSystem => vfs'.tree.Exact i)
        (openat_exact host hwf dirfd path flags mode hfresh h)
      exact (congrArg (·.tree.Exact i) (discard_state _ vfs)).mpr hopened
  | symlinkat target newdirfd linkpath => exact wp_state (symlinkat_exact hwf hfresh target newdirfd linkpath h)
  | linkat olddirfd oldpath newdirfd newpath flags =>
      exact wp_state (linkat_exact hwf olddirfd oldpath newdirfd newpath flags h)
  | unlinkat dirfd path flags => exact wp_state (unlinkat_exact dirfd path flags h)
  | renameat2 olddirfd oldpath newdirfd newpath flags =>
      refine wp_state (wp_mono (renameat2_spec hwf olddirfd oldpath newdirfd newpath flags) ?_ (fun _ _ heq => heq ▸ h))
      rintro _ _ ⟨ends, -, hrenamed⟩
      exact hrenamed.exact hwf h
  | close fd => exact close_exact fd vfs h
  | _ => nomatch hcall

theorem run_exact (host : Host) (hwf : vfs.tree.Wf) (ops : List Op) (hrun : Along host LinkStep vfs ops)
    (h : vfs.tree.Exact i) : (vfs.run host ops).tree.Wf ∧ (vfs.run host ops).tree.Exact i :=
  run_invariant (I := fun vfs => vfs.tree.Wf ∧ vfs.tree.Exact i)
    (fun _ _ hinv hstep => ⟨(step_effect host hinv.1 hstep.fresh).wf hinv.1, step_exact host hinv.1 hstep hinv.2⟩)
    ops vfs ⟨hwf, h⟩ hrun

/-- In every state that such calls reach, each handed a free id, an inode that was once not there and is no directory
stores the number of its names. -/
theorem created_linkCount_exact (host : Host) (start : VirtualFileSystem) (hwf : start.tree.Wf) (first second : List Op)
    (hrun : Along host LinkStep start (first ++ second)) {node : PathNode}
    (hnew : (start.run host first).tree.inodes.get? i = none)
    (hnode : (start.run host (first ++ second)).tree.inodes.get? i = some node) (hfile : node.isDirectory = false) :
    node.attr.nlink = (start.run host (first ++ second)).tree.linkCount i := by
  obtain ⟨hfirst, hsecond⟩ := along_append first hrun
  have hwf' : (start.run host first).tree.Wf :=
    run_invariant (I := fun vfs => vfs.tree.Wf) (fun _ _ hwf hstep => (step_effect host hwf hstep.fresh).wf hwf) first
      start hwf hfirst
  have habsent : (start.run host first).tree.Exact i := fun _ hsome => nomatch hnew.symm.trans hsome
  have hexact := (run_exact host hwf' second hsecond habsent).2
  rw [← run_append] at hexact
  exact hexact node hnode hfile

/-- A file is made, and linked. -/
def linkTwice : List Op :=
  [.openat atFdcwd "/a" ⟨oCreat⟩ 0o644, .linkat atFdcwd "/a" atFdcwd "/b" 0]

theorem linkTwice_exact : ∃ node, (blank.run .empty linkTwice).tree.inodes.get? 2 = some node ∧
    node.attr.nlink = (blank.run .empty linkTwice).tree.linkCount 2 := by
  have hrun : Along .empty LinkStep blank ([] ++ linkTwice) := by
    refine ⟨⟨rfl, fun _ => ?_⟩, ⟨rfl, trivial⟩, trivial⟩
    show PathTree.new.inodes.get? 2 = none
    decide +kernel
  have hfile : ((blank.run .empty linkTwice).tree.inodes.get? 2).map PathNode.isDirectory = some false := by
    decide +kernel
  obtain ⟨node, hnode, hfile⟩ := Option.map_eq_some_iff.mp hfile
  have hnew : (blank.run .empty []).tree.inodes.get? 2 = none := by decide +kernel
  exact ⟨node, hnode, created_linkCount_exact .empty blank new_wf [] linkTwice hrun hnew hnode hfile⟩

/-! ### An id that is handed out twice -/

structure WritableRoot (vfs : VirtualFileSystem) : Prop where
  root : vfs.rootfs.root = []
  node : ∃ node, vfs.tree.lookupPath [] = some node ∧ node.isDirectory = true ∧
    node.attr.checkAccess (wOk ||| xOk) = .ok ()

theorem resolveAt_link (hroot : vfs.rootfs.root = [])
    (hlink : ∀ node, vfs.tree.lookupPath ["l"] = some node → node.kind = .symlink "t") :
    vfs.resolveAt atFdcwd "/l" .nofollowFinal =
      .ok ⟨["l"], (vfs.tree.lookupPath ["l"]).map PathNode.inodeId⟩ := by
  have hsplit : splitGuestComponents "/l" = .ok ["l"] := by decide +kernel
  have hresolve : PathResolver.resolve ⟨vfs.rootfs, vfs.tree, false⟩ "/l" = .ok ["l"] := by
    rw [PathResolver.resolve_eq (by decide) hsplit]
    have hbase : PathResolver.base ⟨vfs.rootfs, vfs.tree, false⟩ "/l" = [] := by
      simp [PathResolver.base, hroot]
    have hwalk : PathResolver.walkToLink ⟨vfs.rootfs, vfs.tree, false⟩ [] ["l"] = .ok (.finished ["l"]) := by
      cases hnode : vfs.tree.lookupPath ["l"] with
      | none =>
          simp [PathResolver.walkToLink, PathResolver.enforceJail, PathTree.lookupSymlinkPlaceholder,
            PathTree.symlinkPlaceholderFrom, PathResolver.allowMissingLeaf, GuestPath.joinComponent, hnode, hroot, failIf,
            GuestPath.startsWith]
      | some node =>
          simp [PathResolver.walkToLink, PathResolver.enforceJail, PathTree.lookupSymlinkPlaceholder,
            PathTree.symlinkPlaceholderFrom, GuestPath.joinComponent, hnode, hlink node hnode, hroot, failIf,
            GuestPath.startsWith]
    rw [hbase, symlinkLimit, PathResolver.walk, hwalk]
    rfl
  have hfinal : vfs.rootfs.resolvePathWithOptions "/l" vfs.tree .nofollowFinal =
      .ok ⟨["l"], (vfs.tree.lookupPath ["l"]).map PathNode.inodeId⟩ := by
    show (do
      let resolved ← PathResolver.resolve ⟨vfs.rootfs, vfs.tree, false⟩ "/l"
      pure ⟨resolved, (vfs.tree.lookupPath resolved).map PathNode.inodeId⟩ : Except VfsError ResolvedPath) = _
    rw [hresolve]
    rfl
  simp only [resolveAt, hfinal]
  rfl

theorem checkParent_link (h : vfs.WritableRoot) : vfs.checkParentWritePermissions ["l"] = .ok () := by
  obtain ⟨node, hnode, hdir, haccess⟩ := h.node
  have hparent : GuestPath.parent ["l"] = some [] := rfl
  simp [checkParentWritePermissions, hparent, okOr, hnode, hdir, failIf, haccess]

theorem newName_link (h : vfs.WritableRoot) (hfree : vfs.tree.nodes.get? ["l"] = none) :
    vfs.newName atFdcwd "/l" = .ok ["l"] := by
  have hmissing : vfs.tree.lookupPath ["l"] = none := by rw [PathTree.lookupPath, hfree]; rfl
  obtain ⟨node, hnode, hdir, haccess⟩ := h.node
  have hensure : vfs.tree.ensureParentDir ["l"] = .ok () := by
    have hparent : GuestPath.parent ["l"] = some [] := rfl
    simp [PathTree.ensureParentDir, GuestPath.isRoot, hparent, okOr, hnode, hdir, failIf]
  rw [newName, resolveAt_link h.root (fun node hsome => by cases hmissing.symm.trans hsome), hmissing]
  show (do
    vfs.tree.ensureParentDir ["l"]
    vfs.checkParentWritePermissions ["l"]
    pure ["l"] : Except VfsError GuestPath) = _
  rw [hensure, checkParent_link h]
  rfl

theorem unlinkTarget_link (h : vfs.WritableRoot) {node : PathNode} (hnode : vfs.tree.lookupPath ["l"] = some node)
    (hkind : node.kind = .symlink "t") : vfs.unlinkTarget atFdcwd "/l" 0 = .ok ["l"] := by
  have hdir : node.isDirectory = false := by rw [PathNode.isDirectory, hkind]; rfl
  have hresolved := resolveAt_link h.root (fun other hother => by
    rw [hnode] at hother
    cases hother
    exact hkind)
  simp [unlinkTarget, hresolved, hnode, okOr, failIf, hdir, checkParent_link h, GuestPath.isRoot]

/-- The node `symlinkat` makes. -/
def newLink (j : InodeId) : PathNode := ⟨j, .symlink "t", ⟨.symlink j ("t" : String).utf8ByteSize⟩, [], none⟩

/-- A link comes and goes. -/
def linkRound : List Op := [.symlinkat "t" atFdcwd "/l", .unlinkat atFdcwd "/l" 0]

/-- Nothing has changed but the counter of ids. -/
structure Counted (vfs vfs' : VirtualFileSystem) (count : Nat) : Prop where
  nodes : vfs'.tree.nodes = vfs.tree.nodes
  inodes : vfs'.tree.inodes = vfs.tree.inodes
  next : vfs'.tree.nextInodeId = vfs.tree.nextInodeId + count
  rootfs : vfs'.rootfs = vfs.rootfs
  fds : vfs'.fds = vfs.fds

theorem WritableRoot.congr (h : vfs.WritableRoot) (hrootfs : vfs'.rootfs = vfs.rootfs)
    (hlookup : vfs'.tree.lookupPath [] = vfs.tree.lookupPath []) : vfs'.WritableRoot := by
  refine ⟨by rw [hrootfs, h.root], ?_⟩
  rw [hlookup]
  exact h.node

theorem symlinkat_link (host : Host) (h : vfs.WritableRoot) (hfree : vfs.tree.nodes.get? ["l"] = none) :
    (vfs.step host (.symlinkat "t" atFdcwd "/l")).tree =
        vfs.tree.allocated.addNode ["l"] (newLink vfs.tree.nextInodeId) ∧
      (vfs.step host (.symlinkat "t" atFdcwd "/l")).rootfs = vfs.rootfs ∧
      (vfs.step host (.symlinkat "t" atFdcwd "/l")).fds = vfs.fds := by
  refine wp_state (m := symlinkat "t" atFdcwd "/l") (P := fun vfs' : VirtualFileSystem =>
    vfs'.tree = vfs.tree.allocated.addNode ["l"] (newLink vfs.tree.nextInodeId) ∧ vfs'.rootfs = vfs.rootfs ∧
      vfs'.fds = vfs.fds) ?_
  unfold symlinkat
  rw [wp_bind]
  refine (wp_ofExcept _).mpr ?_
  show wp (do
    let vfs ← .get
    _) _ _ vfs
  rw [wp_bind, wp_get, newName_link h hfree, wp_bind]
  refine (wp_ofExcept _).mpr ?_
  show wp (addNewNode ["l"] newLink) _ _ vfs
  unfold addNewNode
  rw [wp_bind, onTree, wp_zoom]
  refine wp_of_run (PathTree.newNode_run newLink hfree) ?_
  unfold invalidateParentCache
  rw [wp_bind, wp_get]
  cases parentInode _ _ with
  | none => exact (wp_pure ()).mpr ⟨rfl, rfl, rfl⟩
  | some parent => exact (wp_modify _).mpr ⟨rfl, rfl, rfl⟩

theorem unlinkat_link (host : Host) (h : vfs.WritableRoot) {j : InodeId} {node : PathNode}
    (hj : vfs.tree.nodes.get? ["l"] = some j) (hnode : vfs.tree.inodes.get? j = some node)
    (hkind : node.kind = .symlink "t") :
    (vfs.step host (.unlinkat atFdcwd "/l" 0)).tree = (dropLink j (setTree (vfs.tree.dropPath ["l"]) vfs)).tree ∧
      (vfs.step host (.unlinkat atFdcwd "/l" 0)).rootfs = vfs.rootfs ∧
      (vfs.step host (.unlinkat atFdcwd "/l" 0)).fds = vfs.fds := by
  refine wp_state (m := unlinkat atFdcwd "/l" 0) (P := fun vfs' : VirtualFileSystem =>
    vfs'.tree = (dropLink j (setTree (vfs.tree.dropPath ["l"]) vfs)).tree ∧ vfs'.rootfs = vfs.rootfs ∧
      vfs'.fds = vfs.fds) ?_
  unfold unlinkat
  rw [wp_bind, wp_get, unlinkTarget_link h (PathTree.lookupPath_eq_some.mpr ⟨j, hj, hnode⟩) hkind, wp_bind]
  refine (wp_ofExcept _).mpr ?_
  show wp (do
    let inodeId ← onTree (PathTree.removePathLink ["l"])
    _) _ _ vfs
  rw [wp_bind, onTree, wp_zoom]
  refine wp_of_run (PathTree.removePathLink_run hj) ?_
  rw [wp_bind, wp_modify]
  obtain ⟨inodes, heq⟩ := dropLink_eq (setTree (vfs.tree.dropPath ["l"]) vfs) j
  refine (wp_modify _).mpr ⟨rfl, ?_, ?_⟩
  · show (dropLink j (setTree (vfs.tree.dropPath ["l"]) vfs)).rootfs = vfs.rootfs
    rw [heq]
    rfl
  · show (dropLink j (setTree (vfs.tree.dropPath ["l"]) vfs)).fds = vfs.fds
    rw [heq]
    rfl

theorem linkRound_counted (host : Host) (h : vfs.WritableRoot) (hfree : vfs.tree.nodes.get? ["l"] = none)
    (hfresh : vfs.tree.FreshId) (hunused : vfs.tree.linkCount vfs.tree.nextInodeId = 0)
    (hroom : vfs.tree.nextInodeId + 1 < u64Limit) (hopen : vfs.fds.openCount vfs.tree.nextInodeId = 0) :
    Counted vfs (vfs.run host linkRound) 1 := by
  obtain ⟨htree, hrootfs, hfds⟩ := symlinkat_link host h hfree
  have hnames : ∀ p, (vfs.step host (.symlinkat "t" atFdcwd "/l")).tree.nodes.get? p =
      if p = ["l"] then some vfs.tree.nextInodeId else vfs.tree.nodes.get? p := by
    intro p
    rw [htree, PathTree.Wf.addNode_nodes]
    rfl
  have hnodes : ∀ j, (vfs.step host (.symlinkat "t" atFdcwd "/l")).tree.inodes.get? j =
      if j = vfs.tree.nextInodeId then some (newLink vfs.tree.nextInodeId) else vfs.tree.inodes.get? j := by
    intro j
    rw [htree, PathTree.Wf.addNode_inodes]
    rfl
  have hroot : (vfs.step host (.symlinkat "t" atFdcwd "/l")).WritableRoot := by
    refine h.congr hrootfs ?_
    obtain ⟨node, hnode, -⟩ := h.node
    obtain ⟨j, hj, hjn⟩ := PathTree.lookupPath_eq_some.mp hnode
    rw [hnode]
    refine PathTree.lookupPath_eq_some.mpr ⟨j, ?_, ?_⟩
    · rw [hnames, if_neg (by simp)]
      exact hj
    · rw [hnodes, if_neg]
      · exact hjn
      · rintro rfl
        exact nomatch hfresh.symm.trans hjn
  obtain ⟨htree', hrootfs', hfds'⟩ := unlinkat_link host hroot ((hnames ["l"]).trans (if_pos rfl))
    ((hnodes vfs.tree.nextInodeId).trans (if_pos rfl)) rfl
  obtain ⟨inodes, heq⟩ := dropLink_eq (setTree ((vfs.step host (.symlinkat "t" atFdcwd "/l")).tree.dropPath ["l"])
    (vfs.step host (.symlinkat "t" atFdcwd "/l"))) vfs.tree.nextInodeId
  have hback : ∀ p, ((vfs.step host (.symlinkat "t" atFdcwd "/l")).tree.dropPath ["l"]).nodes.get? p =
      vfs.tree.nodes.get? p := by
    intro p
    rw [PathTree.Wf.dropPath_nodes, hnames]
    by_cases hp : p = ["l"]
    · rw [if_pos hp, hp, hfree]
    · rw [if_neg hp, if_neg hp]
  have hunnamed : ((vfs.step host (.symlinkat "t" atFdcwd "/l")).tree.dropPath ["l"]).linkCount
      vfs.tree.nextInodeId = 0 := by
    refine PathTree.linkCount_eq_zero_iff.mpr fun p hp => ?_
    rw [hback] at hp
    exact PathTree.linkCount_eq_zero_iff.mp hunused p hp
  refine ⟨?_, ?_, ?_, hrootfs'.trans hrootfs, hfds'.trans hfds⟩
  · show (((vfs.step host _).step host _).tree).nodes = _
    rw [htree', heq]
    exact SortedMap.ext_get? hback
  · show (((vfs.step host _).step host _).tree).inodes = _
    rw [htree']
    refine SortedMap.ext_get? fun j => ?_
    by_cases hj : j = vfs.tree.nextInodeId
    · have hclosed : (vfs.step host (.symlinkat "t" atFdcwd "/l")).fds.openCount vfs.tree.nextInodeId = 0 := by
        rw [hfds]
        exact hopen
      rw [hj, dropLink_get_self, if_pos ⟨hunnamed, hclosed⟩]
      exact hfresh.symm
    · rw [dropLink_get_ne _ hj]
      show ((vfs.step host _).tree.dropPath ["l"]).inodes.get? j = _
      rw [PathTree.Wf.dropPath_inodes, hnodes, if_neg hj]
  · show (((vfs.step host _).step host _).tree).nextInodeId = _
    rw [htree', heq]
    show ((vfs.step host _).tree.dropPath ["l"]).nextInodeId = _
    rw [htree]
    simp [PathTree.dropPath, PathTree.addNode, PathTree.allocated, Nat.mod_eq_of_lt hroom]

/-- As long as the ids it is handed are free, the counter moves on and nothing else does. -/
theorem linkRounds_counted (host : Host) (hwf : vfs.tree.Wf) (h : vfs.WritableRoot)
    (hfree : vfs.tree.nodes.get? ["l"] = none) (hopen : ∀ j, vfs.fds.openCount j = 0) (count : Nat)
    (hroom : vfs.tree.nextInodeId + count < u64Limit)
    (hids : ∀ k < count, vfs.tree.inodes.get? (vfs.tree.nextInodeId + k) = none) :
    Counted vfs (vfs.run host (List.replicate count linkRound).flatten) count := by
  induction count with
  | zero => exact ⟨rfl, rfl, rfl, rfl, rfl⟩
  | succ count ih =>
      have hcounted := ih (Nat.lt_of_succ_lt hroom) fun k hk => hids k (Nat.lt_succ_of_lt hk)
      have hnext := hids count (Nat.lt_succ_self count)
      have hfresh : (vfs.run host (List.replicate count linkRound).flatten).tree.FreshId := by
        unfold PathTree.FreshId
        rw [hcounted.inodes, hcounted.next]
        exact hnext
      have hunused : (vfs.run host (List.replicate count linkRound).flatten).tree.linkCount
          (vfs.run host (List.replicate count linkRound).flatten).tree.nextInodeId = 0 := by
        rw [PathTree.linkCount_congr hcounted.nodes, hcounted.next]
        exact hwf.linkCount_of_none hnext
      have hlookup : (vfs.run host (List.replicate count linkRound).flatten).tree.lookupPath [] =
          vfs.tree.lookupPath [] := by
        rw [PathTree.lookupPath, PathTree.lookupPath, hcounted.nodes, hcounted.inodes]
      have hround := linkRound_counted host (h.congr hcounted.rootfs hlookup) (by rw [hcounted.nodes, hfree]) hfresh
        hunused (by rw [hcounted.next]; exact hroom) (by rw [hcounted.fds]; exact hopen _)
      rw [List.replicate_succ', List.flatten_append, List.flatten_singleton, run_append]
      exact ⟨hround.nodes.trans hcounted.nodes, hround.inodes.trans hcounted.inodes,
        by rw [hround.next, hcounted.next, Nat.add_assoc], hround.rootfs.trans hcounted.rootfs,
        hround.fds.trans hcounted.fds⟩

theorem linkRounds_reuse (host : Host) (hwf : vfs.tree.Wf) (h : vfs.WritableRoot)
    (hfree : vfs.tree.nodes.get? ["l"] = none) (hopen : ∀ j, vfs.fds.openCount j = 0) (count : Nat)
    (hroom : vfs.tree.nextInodeId + count < u64Limit)
    (hids : ∀ k < count, vfs.tree.inodes.get? (vfs.tree.nextInodeId + k) = none) {j : InodeId}
    (hj : vfs.tree.nextInodeId + count = j) :
    (vfs.run host ((List.replicate count linkRound).flatten ++ [.symlinkat "t" atFdcwd "/l"])).tree.inodes.get? j =
        some (newLink j) ∧
      (vfs.run host ((List.replicate count linkRound).flatten ++ [.symlinkat "t" atFdcwd "/l"])).tree.linkCount j =
        vfs.tree.linkCount j + 1 := by
  have hcounted := linkRounds_counted host hwf h hfree hopen count hroom hids
  have hfree' : (vfs.run host (List.replicate count linkRound).flatten).tree.nodes.get? ["l"] = none := by
    rw [hcounted.nodes, hfree]
  have hlookup : (vfs.run host (List.replicate count linkRound).flatten).tree.lookupPath [] =
      vfs.tree.lookupPath [] := by
    rw [PathTree.lookupPath, PathTree.lookupPath, hcounted.nodes, hcounted.inodes]
  have htree := (symlinkat_link host (h.congr hcounted.rootfs hlookup) hfree').1
  rw [hcounted.next, hj] at htree
  have hrun : (vfs.run host ((List.replicate count linkRound).flatten ++ [.symlinkat "t" atFdcwd "/l"])).tree =
      (vfs.run host (List.replicate count linkRound).flatten).tree.allocated.addNode ["l"] (newLink j) := by
    rw [run_append]
    exact htree
  constructor
  · rw [hrun, PathTree.Wf.addNode_inodes]
    exact if_pos rfl
  · have hnodes : (vfs.run host ((List.replicate count linkRound).flatten ++
        [.symlinkat "t" atFdcwd "/l"])).tree.nodes =
          (vfs.run host (List.replicate count linkRound).flatten).tree.nodes.insert ["l"] j := by
      rw [hrun]
      simp [PathTree.addNode, PathTree.allocated, newLink]
    rw [PathTree.linkCount_insert hnodes hfree' j, PathTree.linkCount_congr hcounted.nodes, if_pos rfl]

def procOnly : VirtualFileSystem := blank.run .empty [.mountMinimalProcfs]

/-- Links are made until the counter is at the id of `/proc`, and one more. -/
def untilReuse : List Op := (List.replicate (2 ^ 60 - 2) linkRound).flatten ++ [.symlinkat "t" atFdcwd "/l"]

theorem procOnly_ids {j : InodeId} (hlow : 2 ≤ j) (hhigh : j < 2 ^ 60) : procOnly.tree.inodes.get? j = none := by
  have hkeys : procOnly.tree.inodes.keys.all (fun k => decide (k < 2 ∨ 2 ^ 60 ≤ k)) = true := by decide +kernel
  by_contra hsome
  obtain ⟨node, hnode⟩ := Option.ne_none_iff_exists'.mp hsome
  have hkey := List.all_eq_true.mp hkeys j (SortedMap.mem_keys.mpr ⟨node, hnode⟩)
  rw [decide_eq_true_eq] at hkey
  rcases hkey with hkey | hkey
  · exact absurd hkey (Nat.not_lt.mpr hlow)
  · exact absurd hhigh (Nat.not_lt.mpr hkey)

theorem procOnly_closed (j : InodeId) : procOnly.fds.openCount j = 0 := by
  have hvalues : procOnly.fds.entries.values.isEmpty = true := by decide +kernel
  rw [FdTable.openCount, List.isEmpty_iff.mp hvalues]
  rfl

theorem procOnly_wf : procOnly.tree.Wf := by
  have hsane : blank.Sane .mountMinimalProcfs := by
    intro node hnode path hpath _
    have hfree : PathTree.procStaticNodes.all (fun node => (blank.tree.inodes.get? node.inodeId).isNone) = true := by
      decide +kernel
    exact Option.isNone_iff_eq_none.mp (List.all_eq_true.mp hfree node hnode)
  exact run_wf [.mountMinimalProcfs] new_wf ⟨hsane, trivial⟩

theorem procOnly_root : procOnly.WritableRoot := by
  refine ⟨by decide +kernel, ?_⟩
  have hnode : (procOnly.tree.lookupPath []).any (fun node => node.isDirectory &&
      decide (node.attr.checkAccess (wOk ||| xOk) = .ok ())) = true := by decide +kernel
  cases hlookup : procOnly.tree.lookupPath [] with
  | none =>
      rw [hlookup] at hnode
      nomatch hnode
  | some node =>
      rw [hlookup, Option.any_some, Bool.and_eq_true, decide_eq_true_eq] at hnode
      exact ⟨node, rfl, hnode.1, hnode.2⟩

/-- The counter comes to the id of `/proc`, and hands it out: the new link has that id, one name by its own count and
two in the tree. -/
theorem untilReuse_counts_wrong :
    (procOnly.run .empty untilReuse).tree.inodes.get? procInodeId = some (newLink procInodeId) ∧
      (newLink procInodeId).attr.nlink = 1 ∧ (procOnly.run .empty untilReuse).tree.linkCount procInodeId = 2 := by
  have hnext : procOnly.tree.nextInodeId = 2 := by decide +kernel
  have hcount : procOnly.tree.linkCount procInodeId = 1 := by decide +kernel
  obtain ⟨hnode, hnames⟩ := linkRounds_reuse .empty procOnly_wf procOnly_root (by decide +kernel) procOnly_closed
    (2 ^ 60 - 2) (by rw [hnext]; decide)
    (fun k hk => by
      rw [hnext]
      exact procOnly_ids (Nat.le_add_right 2 k) (Nat.add_lt_of_lt_sub' hk)) (j := procInodeId) (by rw [hnext]; decide)
  rw [hcount] at hnames
  rw [untilReuse]
  exact ⟨hnode, by decide, hnames⟩

end VirtualFileSystem

end Mcr.Vfs
