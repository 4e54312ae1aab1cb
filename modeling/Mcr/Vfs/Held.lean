import Mcr.Vfs.Names

/-!
# Inodes that are still held

An inode may lose its names while descriptors are open on it. It then has to stay until the last of them is
closed. `unlinkat` and `renameat2` count the descriptors before they remove an inode; `close` does not,
and removes an inode without a name even when another descriptor is open on it. A run without such a
`close` keeps every inode that is held, with its bytes.
-/

namespace Mcr.Vfs

open Prog

/-- The calls of a running program, which neither set the tree up nor exchange the table. -/
def Op.isFileCall : Op → Bool
  | .treeMut _ | .mountMinimalDevfs | .mountMinimalProcfs | .replaceFds _ => false
  | _ => true

theorem Op.isFileCall_of_isSetup {op : Op} (h : op.isSetup = true) : op.isFileCall = false := by
  cases op <;> first | rfl | nomatch h

namespace VirtualFileSystem

variable {vfs vfs' : VirtualFileSystem} {host : Host}

/-- A descriptor of a file, directory, link or device stands for the inode. -/
def OpenOn (vfs : VirtualFileSystem) (i : InodeId) : Prop :=
  ∃ fd entry, vfs.fds.entries.get? fd = some entry ∧ isAnonymous entry.file.kind = false ∧ entry.inodeId = i

def HeldBy (vfs : VirtualFileSystem) (i : InodeId) : Prop :=
  (∃ path, vfs.tree.nodes.get? path = some i) ∨ vfs.OpenOn i

def Held (vfs : VirtualFileSystem) : Prop := ∀ i, vfs.OpenOn i → ∃ node, vfs.tree.inodes.get? i = some node

/-- The inode of the descriptor has a name, or no other descriptor is open on it. -/
def CloseSafe (vfs : VirtualFileSystem) : Op → Prop
  | .close fd | .closeWithFile fd => ∀ entry, vfs.fds.entries.get? fd = some entry →
    (∃ path, vfs.tree.nodes.get? path = some entry.inodeId) ∨
      ∀ fd' entry', fd' ≠ fd → vfs.fds.entries.get? fd' = some entry' → isAnonymous entry'.file.kind = false →
        entry'.inodeId ≠ entry.inodeId
  | _ => True

/-- A call of a running program that closes no inode under another descriptor. -/
structure HoldingStep (vfs : VirtualFileSystem) (op : Op) : Prop where
  file : op.isFileCall = true
  sane : vfs.Sane op
  close : vfs.CloseSafe op

theorem OpenOn.holds {i : InodeId} (h : vfs.OpenOn i) : vfs.fds.Holds i := by
  obtain ⟨fd, entry, hentry, _, hi⟩ := h
  exact ⟨fd, entry, hentry, hi⟩

variable (host) in
theorem dropName_survives {path : GuestPath} (j : InodeId) {i : InodeId} {node : PathNode}
    (hi : vfs.tree.inodes.get? i = some node)
    (hheld : (∃ p, (vfs.tree.dropPath path).nodes.get? p = some i) ∨ vfs.fds.Holds i) :
    ∃ node', (dropLink j (setTree (vfs.tree.dropPath path) vfs)).tree.inodes.get? i = some node' ∧
      node'.content host = node.content host := by
  by_cases hij : i = j
  · subst hij
    refine ⟨node.decrementLinkCount, ?_, rfl⟩
    rw [dropLink_get_self, if_neg]
    · show Option.map _ ((vfs.tree.dropPath path).inodes.get? i) = _
      rw [PathTree.Wf.dropPath_inodes, hi]
      rfl
    · rintro ⟨hlinks, hopen⟩
      rcases hheld with ⟨p, hp⟩ | hholds
      · exact PathTree.linkCount_eq_zero_iff.mp hlinks p hp
      · exact FdTable.holds_iff.mp hholds hopen
  · refine ⟨node, ?_, rfl⟩
    rw [dropLink_get_ne j hij]
    show (vfs.tree.dropPath path).inodes.get? i = some node
    rw [PathTree.Wf.dropPath_inodes]
    exact hi

theorem Holds.of_rebindPaths {fds : FdTable} {i : InodeId} {old new : GuestPath}
    (h : (fds.rebindPaths old new).Holds i) : fds.Holds i := by
  obtain ⟨fd, entry, hentry, hi⟩ := h
  simp only [FdTable.rebindPaths, SortedMap.get?_mapValues, Option.map_eq_some_iff] at hentry
  obtain ⟨entry', hentry', rfl⟩ := hentry
  exact ⟨fd, entry', hentry', (FdTable.rebindPath_inodeId entry' old new).symm.trans hi⟩

variable (host) in
theorem Renamed.survives {flags : UInt32} {ends : Option (GuestPath × InodeId × ResolvedPath)}
    (h : Renamed vfs flags ends vfs') (hwf : vfs.tree.Wf) {i : InodeId} {node : PathNode}
    (hi : vfs.tree.inodes.get? i = some node) (hheld : vfs'.HeldBy i) :
    ∃ node', vfs'.tree.inodes.get? i = some node' ∧ node'.content host = node.content host := by
  cases h with
  | same => exact ⟨node, hi, rfl⟩
  | exchange _ _ hapart =>
      refine ⟨node, ?_, rfl⟩
      rw [← hi]
      exact congrArg (·.get? i) (PathTree.swapTree_relocated _ hapart).inodes
  | @move old oldInode new _ hends hinside hvalid =>
      have hrelocated := PathTree.moveTree_relocated old (withoutTarget_free hwf hends hvalid)
      have hinodes : (vfs.moved old new.guestPath new.inode).tree.inodes =
          (vfs.withoutTarget new.guestPath new.inode).tree.inodes := hrelocated.inodes
      rw [hinodes]
      cases htarget : new.inode with
      | none => exact ⟨node, hi, rfl⟩
      | some j =>
          rw [htarget] at hrelocated hheld
          obtain ⟨inodes, heq⟩ := dropLink_eq (setTree (vfs.tree.dropPath new.guestPath) vfs) j
          refine dropName_survives host _ hi ?_
          rcases hheld with ⟨p, hp⟩ | hopen
          · obtain ⟨q, hq, _⟩ := (hrelocated.names p i).mp hp
            refine Or.inl ⟨q, ?_⟩
            rw [withoutTarget, heq] at hq
            exact hq
          · have hholds : (FdTable.rebindPaths (vfs.withoutTarget new.guestPath (some j)).fds old
                new.guestPath).Holds i := hopen.holds
            rw [withoutTarget, heq] at hholds
            exact Or.inr (Holds.of_rebindPaths hholds)

/-- An inode that is held after the step was not removed by it, and keeps its bytes unless the call
writes to it. -/
theorem Effect.survives {op : Op} (h : Effect host vfs vfs' op) (hwf : vfs.tree.Wf) (hstep : vfs.HoldingStep op)
    {i : InodeId} {node : PathNode} (hi : vfs.tree.inodes.get? i = some node) (hheld : vfs'.HeldBy i) :
    ∃ node', vfs'.tree.inodes.get? i = some node' ∧
      (¬ Writes vfs op i → node'.content host = node.content host) := by
  have hset : ∀ {j before after}, vfs.tree.inodes.get? j = some before → vfs'.tree = vfs.tree.setNode j after →
      (Writes vfs op j ∨ after.content host = before.content host) →
      ∃ node', vfs'.tree.inodes.get? i = some node' ∧
        (¬ Writes vfs op i → node'.content host = node.content host) := by
    intro j before after hbefore htree hcontent
    by_cases hij : i = j
    · subst hij
      rw [hi] at hbefore
      cases hbefore
      exact ⟨after, by simp [htree, PathTree.setNode], fun hwrites => hcontent.resolve_left hwrites⟩
    · exact ⟨node, by simp [htree, PathTree.setNode, hij, hi], fun _ => rfl⟩
  have hadd : ∀ {path new}, new.inodeId = vfs.tree.nextInodeId → vfs.tree.FreshId →
      vfs'.tree = vfs.tree.allocated.addNode path new →
      ∃ node', vfs'.tree.inodes.get? i = some node' ∧
        (¬ Writes vfs op i → node'.content host = node.content host) := by
    intro path new hid hfresh htree
    refine ⟨node, ?_, fun _ => rfl⟩
    rw [htree, PathTree.Wf.addNode_inodes, if_neg]
    · exact hi
    · rintro rfl
      rw [hid, hfresh] at hi
      cases hi
  have hkeep : vfs'.tree = vfs.tree → ∃ node', vfs'.tree.inodes.get? i = some node' ∧
      (¬ Writes vfs op i → node'.content host = node.content host) :=
    fun htree => ⟨node, by rw [htree]; exact hi, fun _ => rfl⟩
  cases h with
  | unchanged hcore => exact hkeep (core_eq hcore).1
  | quiet _ htree => exact hkeep htree
  | replaceFds => cases hstep.file
  | rewrite hnode _ hcontent htree => exact hset hnode htree hcontent
  | loaded hnode hpath hdata htree =>
      refine hset hnode htree (Or.inr ?_)
      simp [PathNode.content, hpath, hdata]
  | emptyWrite _ hwrites hnode _ htree => exact hset hnode htree (Or.inl hwrites)
  | opened _ _ htree => exact hkeep htree
  | truncated hplace hflags hj hnode _ _ htree =>
      obtain ⟨resolved, hresolved, rfl⟩ := hplace
      exact hset hnode htree (Or.inl ⟨hflags.1, hflags.2, resolved, hresolved, hj⟩)
  | created _ _ _ _ _ hid hfresh _ htree => exact hadd hid hfresh htree
  | @closed _ fd entry hop hentry hfds hend =>
      rcases hend with ⟨htree, _⟩ | ⟨hunnamed, htree, _⟩
      · exact hkeep htree
      · -- the inode that goes is not the one that is held
        have hne : i ≠ entry.inodeId := by
          rintro rfl
          rcases hheld with ⟨path, hpath⟩ | ⟨fd', entry', hentry', hkind, hid⟩
          · rw [htree] at hpath
            exact hunnamed path hpath
          · rw [hfds, SortedMap.get?_erase] at hentry'
            split at hentry'
            · cases hentry'
            rename_i hfd
            have hsafe := hstep.close
            rcases hop with rfl | rfl
            · rcases hsafe entry hentry with ⟨path, hpath⟩ | hother
              · exact hunnamed path hpath
              · exact hother fd' entry' hfd hentry' hkind hid
            · rcases hsafe entry hentry with ⟨path, hpath⟩ | hother
              · exact hunnamed path hpath
              · exact hother fd' entry' hfd hentry' hkind hid
        exact ⟨node, by simp [htree, PathTree.removeInode, hne, hi], fun _ => rfl⟩
  | named _ _ _ hid hfresh htree => exact hadd hid hfresh htree
  | @linked _ dir name parent j before after _ _ _ hnode _ _ hcontent htree =>
      by_cases hij : i = j
      · subst hij
        rw [hi] at hnode
        cases hnode
        exact ⟨_, by rw [htree, PathTree.Wf.addLink_inodes]; simp, fun _ => hcontent⟩
      · exact ⟨node, by rw [htree, PathTree.Wf.addLink_inodes]; simp [hij, hi], fun _ => rfl⟩
  | @unlinked _ dir name parent j hparent hj hleaf htree _ hfds =>
      obtain ⟨inodes, heq⟩ := dropLink_eq (setTree (vfs.tree.dropPath (dir ++ [name])) vfs) j
      have hheld' : (∃ p, (vfs.tree.dropPath (dir ++ [name])).nodes.get? p = some i) ∨ vfs.fds.Holds i := by
        rcases hheld with ⟨p, hp⟩ | hopen
        · rw [htree, heq] at hp
          exact Or.inl ⟨p, hp⟩
        · exact Or.inr (hfds ▸ hopen.holds)
      obtain ⟨node', hnode', hcontent⟩ := dropName_survives host j hi hheld'
      exact ⟨node', htree ▸ hnode', fun _ => hcontent⟩
  | renamed _ hrenamed =>
      obtain ⟨node', hnode', hcontent⟩ := hrenamed.survives host hwf hi hheld
      exact ⟨node', hnode', fun _ => hcontent⟩
  | built hsetup => cases (Op.isFileCall_of_isSetup hsetup).symm.trans hstep.file
  | mountFailed hop => rcases hop with ⟨rfl, _⟩ | ⟨rfl, _⟩ <;> cases hstep.file

/-! ### Descriptors stay on inodes -/

theorem OpenOn.of_inherits {i : InodeId} (h : vfs'.OpenOn i) (hfds : Inherits vfs.fds vfs'.fds) : vfs.OpenOn i := by
  obtain ⟨fd, entry, hentry, hkind, hid⟩ := h
  rcases hfds fd entry hentry with hanonymous | ⟨fd', hentry'⟩
  · rw [hanonymous] at hkind
    nomatch hkind
  · exact ⟨fd', entry, hentry', hkind, hid⟩

theorem OpenOn.of_opened {i : InodeId} {path : GuestPath} {node : PathNode} (h : vfs'.OpenOn i)
    (hopened : Opened vfs vfs' path node) : vfs.OpenOn i ∨ node.inodeId = i := by
  obtain ⟨fd, entry, hentry, hkind, hid⟩ := h
  obtain ⟨newFd, newEntry, _, hfds, hnode, _⟩ := hopened
  rw [hfds, SortedMap.get?_insert] at hentry
  split at hentry
  · cases hentry
    exact Or.inr (hnode.symm.trans hid)
  · exact Or.inl ⟨fd, entry, hentry, hkind, hid⟩

theorem OpenOn.of_rebindPaths {i : InodeId} {fds : FdTable} {old new : GuestPath}
    (h : ∃ fd entry, (fds.rebindPaths old new).entries.get? fd = some entry ∧ isAnonymous entry.file.kind = false ∧
      entry.inodeId = i) :
    ∃ fd entry, fds.entries.get? fd = some entry ∧ isAnonymous entry.file.kind = false ∧ entry.inodeId = i := by
  obtain ⟨fd, entry, hentry, hkind, hid⟩ := h
  simp only [FdTable.rebindPaths, SortedMap.get?_mapValues, Option.map_eq_some_iff] at hentry
  obtain ⟨before, hbefore, rfl⟩ := hentry
  refine ⟨fd, before, hbefore, ?_, (FdTable.rebindPath_inodeId before old new).symm.trans hid⟩
  rw [FdTable.rebindPath_file] at hkind
  exact hkind

theorem Renamed.openOn {flags : UInt32} {ends : Option (GuestPath × InodeId × ResolvedPath)}
    (h : Renamed vfs flags ends vfs') {i : InodeId} (hopen : vfs'.OpenOn i) : vfs.OpenOn i := by
  cases h with
  | same => exact hopen
  | exchange => exact OpenOn.of_rebindPaths (OpenOn.of_rebindPaths hopen)
  | @move old _ new =>
      have hbefore := OpenOn.of_rebindPaths hopen
      cases htarget : new.inode with
      | none =>
          rw [htarget] at hbefore
          exact hbefore
      | some j =>
          obtain ⟨inodes, heq⟩ := dropLink_eq (setTree (vfs.tree.dropPath new.guestPath) vfs) j
          rw [htarget, withoutTarget, heq] at hbefore
          exact hbefore

theorem Effect.openOn {op : Op} (h : Effect host vfs vfs' op) (hwf : vfs.tree.Wf) (hop : op.isFileCall = true)
    {i : InodeId} (hopen : vfs'.OpenOn i) : vfs.OpenOn i ∨ ∃ node, vfs'.tree.inodes.get? i = some node := by
  have hsame : vfs'.fds = vfs.fds → vfs.OpenOn i := by
    intro hfds
    exact hopen.of_inherits (hfds ▸ .refl _)
  cases h with
  | unchanged hcore => exact Or.inl (hsame (core_eq hcore).2.2)
  | quiet _ _ _ hfds => exact Or.inl (hopen.of_inherits hfds)
  | replaceFds => nomatch hop
  | rewrite _ _ _ _ _ hfds => exact Or.inl (hsame hfds)
  | loaded _ _ _ _ _ hfds => exact Or.inl (hsame hfds)
  | emptyWrite _ _ _ _ _ _ hfds => exact Or.inl (hsame hfds)
  | opened _ hnode htree _ hopened =>
      rcases hopen.of_opened hopened with hbefore | rfl
      · exact Or.inl hbefore
      · exact Or.inr ⟨_, htree ▸ lookupPath_self hwf hnode⟩
  | @truncated _ _ _ _ _ _ _ after _ _ _ hnode _ hsameNode htree hend =>
      rcases hend with ⟨_, _, hfds⟩ | ⟨_, hopened⟩
      · exact Or.inl (hsame hfds)
      · rcases hopen.of_opened hopened with hbefore | rfl
        · exact Or.inl hbefore
        · refine Or.inr ⟨after, ?_⟩
          rw [htree, hsameNode.inodeId, hwf.ids _ _ hnode]
          simp
  | @created _ _ _ _ _ _ _ new _ _ _ _ _ hid _ _ htree hend =>
      rcases hend with ⟨_, _, hfds⟩ | ⟨_, hopened⟩
      · exact Or.inl (hsame hfds)
      · rcases hopen.of_opened hopened with hbefore | rfl
        · exact Or.inl hbefore
        · refine Or.inr ⟨new, ?_⟩
          rw [htree, PathTree.Wf.addNode_inodes, if_pos rfl]
  | closed _ _ hfds => exact Or.inl (hopen.of_inherits (.erase hfds))
  | named _ _ _ _ _ _ _ hfds => exact Or.inl (hsame hfds)
  | linked _ _ _ _ _ _ _ _ _ hfds => exact Or.inl (hsame hfds)
  | unlinked _ _ _ _ _ hfds => exact Or.inl (hsame hfds)
  | renamed _ hrenamed => exact Or.inl (hrenamed.openOn hopen)
  | built _ _ _ hfds => exact Or.inl (hsame hfds)
  | mountFailed _ _ _ _ hfds => exact Or.inl (hsame hfds)

theorem Effect.held {op : Op} (h : Effect host vfs vfs' op) (hwf : vfs.tree.Wf) (hstep : vfs.HoldingStep op)
    (hheld : vfs.Held) : vfs'.Held := by
  intro i hopen
  rcases h.openOn hwf hstep.file hopen with hbefore | hthere
  · obtain ⟨node, hnode⟩ := hheld i hbefore
    obtain ⟨node', hnode', _⟩ := h.survives hwf hstep hnode (Or.inr hopen)
    exact ⟨node', hnode'⟩
  · exact hthere

end VirtualFileSystem

end Mcr.Vfs
