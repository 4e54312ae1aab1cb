import Mcr.Vfs.WriteCalls

/-!
# The calls that change names

`mkdirat`, `symlinkat`, `linkat` and `unlinkat` change one name each, and `close` may remove a node that
has none. In a well-formed tree they fail only before their first change.
-/

namespace Mcr.Vfs

open Prog

namespace PathTree

variable {tree : PathTree}

theorem IsDir.named {path : GuestPath} (h : tree.IsDir path) : ∃ i, tree.nodes.get? path = some i := by
  obtain ⟨node, hlookup, _⟩ := h
  obtain ⟨i, hi, _⟩ := lookupPath_eq_some.mp hlookup
  exact ⟨i, hi⟩

theorem allocated_wf (hwf : tree.Wf) : tree.allocated.Wf := hwf.of_tables rfl rfl rfl

theorem allocateInodeId_run : allocateInodeId tree = (.ok tree.nextInodeId, tree.allocated) := rfl

theorem insertPathNode_run {path : GuestPath} (node : PathNode) (hnew : tree.nodes.get? path = none) :
    insertPathNode path node tree = (.ok (), tree.addNode path node) := by
  simp [insertPathNode, hnew, failIf, Prog.get, Prog.modify, Prog.ofExcept, bind, pure]

theorem newNode_run {path : GuestPath} (node : InodeId → PathNode) (hnew : tree.nodes.get? path = none) :
    (do
      let inodeId ← allocateInodeId
      insertPathNode path (node inodeId) : Call Unit) tree =
      (.ok (), tree.allocated.addNode path (node tree.nextInodeId)) := by
  rw [run_bind_ok allocateInodeId_run]
  exact insertPathNode_run (node tree.nextInodeId) hnew

theorem addFresh_wf (hwf : tree.Wf) {dir : GuestPath} {name : String} {node : PathNode} (hdir : tree.IsDir dir)
    (hnew : tree.nodes.get? (dir ++ [name]) = none) (hid : node.inodeId = tree.nextInodeId)
    (hfresh : tree.FreshId) : (tree.allocated.addNode (dir ++ [name]) node).Wf := by
  refine (allocated_wf hwf).addNode hdir hnew ?_
  intro old hold
  rw [hid] at hold
  exact absurd (hold.symm.trans hfresh) (by simp)

end PathTree

namespace VirtualFileSystem

variable {vfs : VirtualFileSystem} {host : Host}

theorem parentInode_eq (hwf : vfs.tree.Wf) (dir : GuestPath) (name : String) :
    vfs.parentInode (dir ++ [name]) = vfs.tree.nodes.get? dir := by
  rw [← lookupPath_inodeId hwf dir]
  unfold parentInode
  rw [PathTree.parent_concat]
  cases h : vfs.tree.lookupPath dir <;> simp [h]

theorem dir_ne (dir : GuestPath) (name : String) : dir ≠ dir ++ [name] := by
  intro heq
  have hlen := congrArg List.length heq
  simp at hlen

theorem addNewNode_effect (hwf : vfs.tree.Wf) (op : Op) (hfresh : vfs.tree.FreshId) {target : GuestPath}
    (hnew : vfs.tree.nodes.get? target = none)
    (hparent : ∃ dir name, target = dir ++ [name] ∧ vfs.tree.IsDir dir) {node : InodeId → PathNode}
    (hid : ∀ i, (node i).inodeId = i) : HasEffect host vfs op (addNewNode target node) := by
  obtain ⟨dir, name, rfl, hdir⟩ := hparent
  obtain ⟨parent, hparent⟩ := hdir.named
  unfold HasEffect addNewNode
  rw [wp_bind, onTree, wp_zoom]
  refine wp_of_run (PathTree.newNode_run node hnew) ?_
  have hwf' := PathTree.addFresh_wf hwf hdir hnew (hid vfs.tree.nextInodeId) hfresh
  unfold invalidateParentCache
  have hkept : (vfs.tree.allocated.addNode (dir ++ [name]) (node vfs.tree.nextInodeId)).nodes.get? dir =
      some parent := by
    rw [PathTree.Wf.addNode_nodes, if_neg (dir_ne dir name)]
    exact hparent
  rw [wp_bind, wp_get, (parentInode_eq (by exact hwf') dir name).trans hkept]
  simp only [invalidateInodeCache, onCache]
  rw [wp_modify]
  exact .named hparent hdir hnew (hid _) hfresh rfl (vfs.cache.invalidateInode_drops parent) rfl

theorem mkdirat_effect (hwf : vfs.tree.Wf) (hfresh : vfs.tree.FreshId) (dirfd : Fd) (path : String)
    (mode : UInt32) : HasEffect host vfs (.mkdirat dirfd path mode) (mkdirat dirfd path mode) := by
  unfold HasEffect mkdirat
  rw [wp_bind, wp_get, wp_bind]
  apply wp_check
  · intro _ _
    exact .unchanged rfl
  intro target htarget
  obtain ⟨hnew, hparent⟩ := newName_ok hwf htarget
  exact addNewNode_effect hwf _ hfresh hnew hparent fun _ => rfl

theorem symlinkat_effect (hwf : vfs.tree.Wf) (hfresh : vfs.tree.FreshId) (target : String) (newdirfd : Fd)
    (linkpath : String) :
    HasEffect host vfs (.symlinkat target newdirfd linkpath) (symlinkat target newdirfd linkpath) := by
  unfold HasEffect symlinkat
  rw [wp_bind]
  apply wp_check
  · intro _ _
    exact .unchanged rfl
  intro _ _
  rw [wp_bind, wp_get, wp_bind]
  apply wp_check
  · intro _ _
    exact .unchanged rfl
  intro path hpath
  obtain ⟨hnew, hparent⟩ := newName_ok hwf hpath
  exact addNewNode_effect hwf _ hfresh hnew hparent fun _ => rfl

/-! ### Links -/

theorem linkSource_ok {olddirfd : Fd} {oldpath : String} {flags : UInt32} {i : InodeId}
    (h : vfs.linkSource olddirfd oldpath flags = .ok i) :
    ∃ node, vfs.tree.inodes.get? i = some node ∧ node.isDirectory = false := by
  have hend : ∀ i' : InodeId,
      (do
        let node ← okOr (vfs.tree.lookupInode i') .noEntry
        failIf (node.isDirectory = true) .notPermitted
        pure i' : Except VfsError InodeId) = .ok i →
      ∃ node, vfs.tree.inodes.get? i = some node ∧ node.isDirectory = false := by
    intro i' h
    obtain ⟨node, hnode, h⟩ := except_bind_eq_ok.mp h
    obtain ⟨_, hdir, h⟩ := except_bind_eq_ok.mp h
    cases h
    rw [okOr_eq_ok] at hnode
    rw [failIf_eq_ok] at hdir
    exact ⟨node, hnode, by simpa using hdir⟩
  unfold linkSource at h
  obtain ⟨_, _, h⟩ := except_bind_eq_ok.mp h
  obtain ⟨_, _, h⟩ := except_bind_eq_ok.mp h
  split at h
  · obtain ⟨entry, _, h⟩ := except_bind_eq_ok.mp h
    obtain ⟨_, _, h⟩ := except_bind_eq_ok.mp h
    exact hend _ h
  · obtain ⟨resolved, _, h⟩ := except_bind_eq_ok.mp h
    obtain ⟨i', _, h⟩ := except_bind_eq_ok.mp h
    exact hend _ h

theorem linkat_effect (hwf : vfs.tree.Wf) (olddirfd : Fd) (oldpath : String) (newdirfd : Fd) (newpath : String)
    (flags : UInt32) :
    HasEffect host vfs (.linkat olddirfd oldpath newdirfd newpath flags)
      (linkat olddirfd oldpath newdirfd newpath flags) := by
  unfold HasEffect linkat
  rw [wp_bind, wp_get, wp_bind]
  apply wp_check
  · intro _ _
    exact .unchanged rfl
  intro i hi
  obtain ⟨node, hnode, hfile⟩ := linkSource_ok hi
  rw [wp_bind]
  apply wp_check
  · intro _ _
    exact .unchanged rfl
  intro target htarget
  obtain ⟨hnew, dir, name, rfl, hdir⟩ := newName_ok hwf htarget
  obtain ⟨parent, hparent⟩ := hdir.named
  rw [wp_bind, onTree, wp_zoom, PathTree.wp_withInode hnode]
  refine wp_mono PathNode.incrementLinkCount_spec ?_ ?_
  · rintro _ node' ⟨hsame, hdata, hdeferred⟩
    have hset : (vfs.tree.setNode i node').inodes.get? i = some node' := by simp [PathTree.setNode]
    rw [wp_bind, onTree, wp_zoom]
    refine wp_of_run (PathTree.insertLink_run (by exact hnew) (by exact hset)) ?_
    have hwf' : ((vfs.tree.setNode i node').addLink (dir ++ [name]) i).Wf := by
      refine (hwf.setInode hnode hsame.inodeId hsame.isDirectory).addLink ?_ hnew hset ?_
      · exact PathTree.isDir_setNode hnode hsame hdir
      · rw [hsame.isDirectory]
        exact hfile
    have hkept : ((vfs.tree.setNode i node').addLink (dir ++ [name]) i).nodes.get? dir = some parent := by
      rw [PathTree.Wf.addLink_nodes, if_neg (dir_ne dir name)]
      exact hparent
    have hparentInode : ∀ vfs' : VirtualFileSystem,
        vfs'.tree = (vfs.tree.setNode i node').addLink (dir ++ [name]) i →
          vfs'.parentInode (dir ++ [name]) = some parent := by
      intro vfs' htree
      rw [parentInode_eq (htree ▸ hwf'), htree, hkept]
    rw [wp_bind, wp_get, hparentInode _ rfl]
    simp only [invalidateInodeCaches, onCache, List.filterMap_cons, id, List.filterMap_nil]
    rw [wp_modify]
    refine .linked hparent hdir hnew hnode hfile hsame ?_ rfl
      (vfs.cache.invalidateInodes_drops [parent, i] (by simp)) rfl
    rw [PathNode.content, PathNode.content, hdata, hdeferred]
  · rintro _ _ rfl
    rw [PathTree.setNode_self hnode]
    exact .unchanged rfl

theorem unlinkTarget_ok (hwf : vfs.tree.Wf) {dirfd : Fd} {path : String} {flags : UInt32} {target : GuestPath}
    (h : vfs.unlinkTarget dirfd path flags = .ok target) :
    ∃ dir name i, target = dir ++ [name] ∧ vfs.tree.nodes.get? target = some i ∧
      ∀ c, vfs.tree.nodes.get? (target ++ [c]) = none := by
  unfold unlinkTarget at h
  obtain ⟨_, _, h⟩ := except_bind_eq_ok.mp h
  obtain ⟨resolved, _, h⟩ := except_bind_eq_ok.mp h
  obtain ⟨_, hroot, h⟩ := except_bind_eq_ok.mp h
  obtain ⟨node, hnode, h⟩ := except_bind_eq_ok.mp h
  rw [failIf_eq_ok] at hroot
  rw [okOr_eq_ok] at hnode
  obtain ⟨i, hi, hin⟩ := PathTree.lookupPath_eq_some.mp hnode
  have hleaf : (¬ vfs.tree.IsDir resolved.guestPath ∨ vfs.tree.isEmptyDirectory resolved.guestPath = true) →
      resolved.guestPath = target →
      ∃ dir name i, target = dir ++ [name] ∧ vfs.tree.nodes.get? target = some i ∧
        ∀ c, vfs.tree.nodes.get? (target ++ [c]) = none := by
    rintro hempty rfl
    rcases List.eq_nil_or_concat' resolved.guestPath with hnil | ⟨dir, name, hpath⟩
    · rw [hnil] at hroot
      exact absurd rfl hroot
    · exact ⟨dir, name, i, hpath, hi, fun c => hwf.nothing_below (by simp) hempty⟩
  simp only at h
  split at h
  · obtain ⟨_, _, h⟩ := except_bind_eq_ok.mp h
    obtain ⟨_, hempty, h⟩ := except_bind_eq_ok.mp h
    obtain ⟨_, _, h⟩ := except_bind_eq_ok.mp h
    cases h
    rw [failIf_eq_ok] at hempty
    exact hleaf (Or.inr (by simpa using hempty)) rfl
  · obtain ⟨_, hdir, h⟩ := except_bind_eq_ok.mp h
    obtain ⟨_, _, h⟩ := except_bind_eq_ok.mp h
    cases h
    rw [failIf_eq_ok] at hdir
    refine hleaf (Or.inl ?_) rfl
    rw [isDir_iff hi hin]
    exact hdir

theorem unlinkat_effect (hwf : vfs.tree.Wf) (dirfd : Fd) (path : String) (flags : UInt32) :
    HasEffect host vfs (.unlinkat dirfd path flags) (unlinkat dirfd path flags) := by
  unfold HasEffect unlinkat
  rw [wp_bind, wp_get, wp_bind]
  apply wp_check
  · intro _ _
    exact .unchanged rfl
  intro target htarget
  obtain ⟨dir, name, i, rfl, hi, hleaf⟩ := unlinkTarget_ok hwf htarget
  obtain ⟨parent, hparent⟩ := (hwf.parents dir name i hi).named
  rw [wp_bind, onTree, wp_zoom]
  refine wp_of_run (PathTree.removePathLink_run hi) ?_
  rw [wp_bind, wp_modify, parentInode_eq hwf, hparent]
  simp only [invalidateInodeCaches, onCache, List.filterMap_cons, id, List.filterMap_nil]
  rw [wp_modify]
  obtain ⟨inodes, heq⟩ := dropLink_eq (setTree (vfs.tree.dropPath (dir ++ [name])) vfs) i
  refine .unlinked hparent hi hleaf rfl ?_ ?_
  · show vfs.cache.Drops ((dropLink i (setTree (vfs.tree.dropPath (dir ++ [name])) vfs)).cache.invalidateInodes
      [parent, i]) [parent, i]
    rw [heq]
    exact vfs.cache.invalidateInodes_drops [parent, i] (by simp)
  · show (dropLink i (setTree (vfs.tree.dropPath (dir ++ [name])) vfs)).fds = vfs.fds
    rw [heq]
    rfl

/-! ### Closing -/

theorem reclaim_effect {fd : Fd} {entry : FdEntry} {op : Op} (hop : op = .close fd ∨ op = .closeWithFile fd)
    (hentry : vfs.fds.entries.get? fd = some entry) :
    wp (reclaim entry.inodeId) (fun _ vfs' => Effect host vfs vfs' op) (fun _ vfs' => Effect host vfs vfs' op)
      (setFiles (vfs.files.closed fd entry) vfs) := by
  unfold reclaim
  rw [wp_bind, wp_get, wp_when]
  split
  · rename_i hgone
    rw [wp_bind, onTree, wp_zoom, wp_modify]
    simp only [invalidateInodeCache, onCache]
    rw [wp_modify]
    exact .closed hop hentry rfl (Or.inr ⟨PathTree.linkCount_eq_zero_iff.mp hgone.2, rfl,
      vfs.cache.invalidateInode_drops entry.inodeId⟩)
  · exact .closed hop hentry rfl (Or.inl ⟨rfl, rfl⟩)

theorem close_effect (fd : Fd) : HasEffect host vfs (.close fd) (close fd) := by
  unfold HasEffect close
  rw [wp_bind, onFiles, wp_zoom]
  have hclose := Files.close_eq vfs.files fd
  cases hentry : vfs.fds.entries.get? fd with
  | none =>
      rw [show vfs.files.fds.entries.get? fd = none from hentry] at hclose
      exact wp_of_error hclose (.unchanged rfl)
  | some entry =>
      rw [show vfs.files.fds.entries.get? fd = some entry from hentry] at hclose
      exact wp_of_run hclose (reclaim_effect (Or.inl rfl) hentry)

theorem closeWithFile_effect (fd : Fd) : HasEffect host vfs (.closeWithFile fd) (closeWithFile fd) := by
  unfold HasEffect closeWithFile
  rw [wp_bind, onFiles, wp_zoom]
  have hclose := Files.close_eq vfs.files fd
  cases hentry : vfs.fds.entries.get? fd with
  | none =>
      rw [show vfs.files.fds.entries.get? fd = none from hentry] at hclose
      exact wp_of_error hclose (.unchanged rfl)
  | some entry =>
      rw [show vfs.files.fds.entries.get? fd = some entry from hentry] at hclose
      refine wp_of_run hclose ?_
      rw [wp_bind]
      exact wp_mono (reclaim_effect (Or.inr rfl) hentry) (fun _ _ h => (wp_pure _).mpr h) (fun _ _ h => h)

end VirtualFileSystem

end Mcr.Vfs
