import Mcr.Vfs.Rename

/-!
# What the checks of a call establish

The facts a call may rely on once its checks have passed, in terms of the tables of a well-formed tree.
-/

namespace Mcr.Vfs

open Prog

namespace PathTree

variable {tree : PathTree}

theorem ensureParentDir_ok {path : GuestPath} {u : Unit} (h : tree.ensureParentDir path = .ok u) :
    ∃ dir name, path = dir ++ [name] ∧ tree.IsDir dir := by
  obtain ⟨_, hroot, hrest⟩ := except_bind_eq_ok.mp h
  obtain ⟨parent, hparent, hlookup⟩ := except_bind_eq_ok.mp hrest
  rw [failIf_eq_ok] at hroot
  rw [okOr_eq_ok] at hparent
  rcases List.eq_nil_or_concat' path with rfl | ⟨dir, name, rfl⟩
  · exact absurd rfl hroot
  rw [parent_concat] at hparent
  cases hparent
  refine ⟨parent, name, rfl, ?_⟩
  cases hnode : tree.lookupPath parent with
  | none =>
      rw [hnode] at hlookup
      nomatch hlookup
  | some node =>
      rw [hnode] at hlookup
      exact ⟨node, hnode, by simpa using hlookup⟩

theorem linkCount_eq_zero_iff {i : InodeId} : tree.linkCount i = 0 ↔ ∀ p, tree.nodes.get? p ≠ some i := by
  rw [linkCount, List.countP_eq_zero]
  constructor
  · intro h p hp
    simpa using h i (SortedMap.mem_values.mpr ⟨p, hp⟩)
  · intro h j hj
    obtain ⟨p, hp⟩ := SortedMap.mem_values.mp hj
    simp only [decide_eq_true_eq]
    rintro rfl
    exact h p hp

end PathTree

theorem FdTable.openCount_eq_zero_iff {table : FdTable} {i : InodeId} :
    table.openCount i = 0 ↔ ∀ fd entry, table.entries.get? fd = some entry → entry.inodeId ≠ i := by
  rw [openCount, List.countP_eq_zero]
  constructor
  · intro h fd entry hentry
    simpa using h entry (SortedMap.mem_values.mpr ⟨fd, hentry⟩)
  · intro h entry hentry
    obtain ⟨fd, hfd⟩ := SortedMap.mem_values.mp hentry
    simpa using h fd entry hfd

namespace VirtualFileSystem

variable {vfs : VirtualFileSystem}

theorem resolveAt_inode {dirfd : Fd} {path : String} {options : ResolveOptions} {resolved : ResolvedPath}
    (h : vfs.resolveAt dirfd path options = .ok resolved) :
    resolved.inode = (vfs.tree.lookupPath resolved.guestPath).map PathNode.inodeId := by
  have hresolve : ∀ (rootfs : Rootfs),
      rootfs.resolvePathWithOptions path vfs.tree options = .ok resolved →
        resolved.inode = (vfs.tree.lookupPath resolved.guestPath).map PathNode.inodeId := by
    intro rootfs hrootfs
    obtain ⟨p, _, heq⟩ := except_bind_eq_ok.mp hrootfs
    cases heq
    rfl
  unfold resolveAt at h
  obtain ⟨_, _, h⟩ := except_bind_eq_ok.mp h
  split at h
  · obtain ⟨r, hr, h⟩ := except_bind_eq_ok.mp h
    obtain ⟨_, _, h⟩ := except_bind_eq_ok.mp h
    cases h
    exact hresolve _ hr
  · obtain ⟨entry, _, h⟩ := except_bind_eq_ok.mp h
    obtain ⟨base, _, h⟩ := except_bind_eq_ok.mp h
    obtain ⟨baseNode, _, h⟩ := except_bind_eq_ok.mp h
    obtain ⟨_, _, h⟩ := except_bind_eq_ok.mp h
    obtain ⟨scopedRootfs, _, h⟩ := except_bind_eq_ok.mp h
    obtain ⟨r, hr, h⟩ := except_bind_eq_ok.mp h
    obtain ⟨_, _, h⟩ := except_bind_eq_ok.mp h
    cases h
    exact hresolve _ hr

theorem lookupPath_inodeId (hwf : vfs.tree.Wf) (path : GuestPath) :
    (vfs.tree.lookupPath path).map PathNode.inodeId = vfs.tree.nodes.get? path := by
  cases hi : vfs.tree.nodes.get? path with
  | none => simp [PathTree.lookupPath, hi]
  | some i =>
      obtain ⟨node, hnode⟩ := hwf.named path i hi
      simp [PathTree.lookupPath, hi, hnode, hwf.ids i node hnode]

theorem resolveAt_nodes (hwf : vfs.tree.Wf) {dirfd : Fd} {path : String} {options : ResolveOptions}
    {resolved : ResolvedPath} (h : vfs.resolveAt dirfd path options = .ok resolved) :
    resolved.inode = vfs.tree.nodes.get? resolved.guestPath :=
  (resolveAt_inode h).trans (lookupPath_inodeId hwf _)

theorem newName_ok (hwf : vfs.tree.Wf) {dirfd : Fd} {path : String} {target : GuestPath}
    (h : vfs.newName dirfd path = .ok target) :
    vfs.tree.nodes.get? target = none ∧ ∃ dir name, target = dir ++ [name] ∧ vfs.tree.IsDir dir := by
  obtain ⟨resolved, hresolved, h⟩ := except_bind_eq_ok.mp h
  obtain ⟨_, hmissing, h⟩ := except_bind_eq_ok.mp h
  obtain ⟨_, hparent, h⟩ := except_bind_eq_ok.mp h
  obtain ⟨_, _, h⟩ := except_bind_eq_ok.mp h
  cases h
  rw [failIf_eq_ok, resolveAt_nodes hwf hresolved] at hmissing
  exact ⟨by simpa using hmissing, PathTree.ensureParentDir_ok hparent⟩

/-! ### Dropping a name -/

section DropLink

variable (i : InodeId)

variable (vfs) in
theorem dropLink_eq : ∃ inodes, dropLink i vfs = { vfs with tree := { vfs.tree with inodes := inodes } } := by
  unfold dropLink
  cases vfs.tree.inodes.get? i with
  | none =>
      simp only
      split
      · exact ⟨_, rfl⟩
      · exact ⟨_, rfl⟩
  | some node =>
      simp only
      split
      · exact ⟨_, rfl⟩
      · exact ⟨_, rfl⟩

theorem dropLink_get_ne {j : InodeId} (hj : j ≠ i) :
    (dropLink i vfs).tree.inodes.get? j = vfs.tree.inodes.get? j := by
  unfold dropLink
  cases vfs.tree.inodes.get? i with
  | none =>
      simp only
      split <;> simp [PathTree.removeInode, hj]
  | some node =>
      simp only
      split <;> simp [PathTree.removeInode, hj]

theorem dropLink_get_self :
    (dropLink i vfs).tree.inodes.get? i =
      if vfs.tree.linkCount i = 0 ∧ vfs.fds.openCount i = 0 then none
      else (vfs.tree.inodes.get? i).map PathNode.decrementLinkCount := by
  unfold dropLink
  cases hnode : vfs.tree.inodes.get? i with
  | none =>
      simp only
      split
      · simp [PathTree.removeInode]
      · simp [hnode]
  | some node =>
      have hlinks : PathTree.linkCount
          { vfs.tree with inodes := vfs.tree.inodes.insert i node.decrementLinkCount } i =
            vfs.tree.linkCount i := rfl
      simp only [hlinks]
      split <;> simp [PathTree.removeInode]

theorem dropLink_wf (hwf : vfs.tree.Wf) : (dropLink i vfs).tree.Wf := by
  unfold dropLink
  cases hnode : vfs.tree.inodes.get? i with
  | none =>
      simp only
      split
      · rename_i hcond
        exact hwf.removeInode (PathTree.linkCount_eq_zero_iff.mp hcond.1)
      · exact hwf
  | some node =>
      have hset : PathTree.Wf
          { vfs.tree with inodes := vfs.tree.inodes.insert i node.decrementLinkCount } :=
        hwf.setInode hnode rfl rfl
      simp only
      split
      · rename_i hcond
        exact hset.removeInode (PathTree.linkCount_eq_zero_iff.mp hcond.1)
      · exact hset

end DropLink

end VirtualFileSystem

end Mcr.Vfs
