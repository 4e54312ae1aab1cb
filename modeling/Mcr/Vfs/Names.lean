import Mcr.Vfs.Steps

/-!
# The tables of the tree along a run

A run of calls that change names keeps the tree well formed. Every inode has a name or is open: a
directory that is removed while a descriptor is open on it stays without one. A rename is a substitution
of prefixes, and one that fails leaves the tables alone.
-/

namespace Mcr.Vfs

open Prog Subtree

def FdTable.Holds (fds : FdTable) (i : InodeId) : Prop :=
  ∃ fd entry, fds.entries.get? fd = some entry ∧ entry.inodeId = i

namespace FdTable

theorem holds_iff {fds : FdTable} {i : InodeId} : fds.Holds i ↔ fds.openCount i ≠ 0 := by
  rw [Ne, openCount_eq_zero_iff]
  simp [Holds]

theorem rebindPath_file (entry : FdEntry) (old new : GuestPath) : (entry.rebindPath old new).file = entry.file := by
  unfold FdEntry.rebindPath
  split
  · rfl
  · split <;> rfl

theorem rebindPath_inodeId (entry : FdEntry) (old new : GuestPath) :
    (entry.rebindPath old new).inodeId = entry.inodeId :=
  congrArg (·.inode.id) (rebindPath_file entry old new)

theorem Holds.rebindPaths {fds : FdTable} {i : InodeId} (h : fds.Holds i) (old new : GuestPath) :
    (fds.rebindPaths old new).Holds i := by
  obtain ⟨fd, entry, hentry, hi⟩ := h
  refine ⟨fd, entry.rebindPath old new, ?_, (rebindPath_inodeId entry old new).trans hi⟩
  simp [FdTable.rebindPaths, hentry]

theorem Holds.insert {fds fds' : FdTable} {fd : Fd} {entry : FdEntry} {i : InodeId} (h : fds.Holds i)
    (hfree : fds.entries.get? fd = none) (hfds : fds'.entries = fds.entries.insert fd entry) : fds'.Holds i := by
  obtain ⟨fd', entry', hentry', hi⟩ := h
  refine ⟨fd', entry', ?_, hi⟩
  rw [hfds, SortedMap.get?_insert, if_neg]
  · exact hentry'
  · rintro rfl
    rw [hfree] at hentry'
    nomatch hentry'

end FdTable

namespace PathTree

variable {tree tree' : PathTree} {held held' : InodeId → Prop}

def Anchored (tree : PathTree) (held : InodeId → Prop) : Prop :=
  ∀ i node, tree.inodes.get? i = some node → (∃ path, tree.nodes.get? path = some i) ∨ held i

theorem Anchored.mono (h : tree.Anchored held) (hheld : ∀ i, held i → held' i) : tree.Anchored held' := by
  intro i node hnode
  exact (h i node hnode).imp id (hheld i)

theorem Anchored.setNode (h : tree.Anchored held) {i : InodeId} {node node' : PathNode}
    (hnode : tree.inodes.get? i = some node) : (tree.setNode i node').Anchored held := by
  intro j n hj
  simp only [PathTree.setNode, SortedMap.get?_insert] at hj
  split at hj
  · rename_i heq
    rw [heq]
    exact h i node hnode
  · exact h j n hj

theorem Anchored.addNode (h : tree.Anchored held) {path : GuestPath} {node : PathNode}
    (hnew : tree.nodes.get? path = none) : (tree.addNode path node).Anchored held := by
  intro i n hi
  rw [Wf.addNode_inodes] at hi
  split at hi
  · rename_i heq
    exact Or.inl ⟨path, by rw [Wf.addNode_nodes, if_pos rfl, heq]⟩
  · refine (h i n hi).imp ?_ id
    rintro ⟨p, hp⟩
    refine ⟨p, ?_⟩
    rw [Wf.addNode_nodes, if_neg]
    · exact hp
    · rintro rfl
      rw [hnew] at hp
      nomatch hp

theorem Grows.anchored (hgrows : tree.Grows tree') (h : tree.Anchored held) : tree'.Anchored held := by
  cases hgrows with
  | allocate => exact h
  | node hdir hnew hid => exact h.addNode hnew
  | @replace path node hdir hnode hid =>
      obtain ⟨e, he⟩ := hdir.named
      intro i n hi
      rw [Wf.replacePathNode_inodes he] at hi
      split at hi
      · rename_i heq
        exact Or.inl ⟨path, by rw [Wf.replacePathNode_nodes, if_pos rfl, heq]⟩
      · split at hi
        · nomatch hi
        · rename_i hne
          refine (h i n hi).imp ?_ id
          rintro ⟨p, hp⟩
          refine ⟨p, ?_⟩
          rw [Wf.replacePathNode_nodes, if_neg]
          · exact hp
          · rintro rfl
            exact hne (Option.some.inj (hp.symm.trans he))
  | change hnode hsame => exact h.setNode hnode

theorem Grown.anchored (hgrown : tree.Grown tree') (h : tree.Anchored held) : tree'.Anchored held := by
  induction hgrown with
  | refl => exact h
  | tail _ hstep ih => exact hstep.anchored ih

theorem Relocated.anchored {f : GuestPath → GuestPath} (hrelocated : Relocated tree tree' f)
    (h : tree.Anchored held) : tree'.Anchored held := by
  intro i node hi
  rw [hrelocated.inodes] at hi
  refine (h i node hi).imp ?_ id
  rintro ⟨p, hp⟩
  exact ⟨f p, hrelocated.get hp⟩

end PathTree

def Op.isNameCall : Op → Bool
  | .mkdirat _ _ _ | .openat _ _ _ _ | .symlinkat _ _ _ | .linkat _ _ _ _ _ | .unlinkat _ _ _
  | .renameat2 _ _ _ _ _ | .mountMinimalDevfs | .mountMinimalProcfs => true
  | _ => false

theorem Op.isNameCall.not_quiet {op : Op} (h : op.isNameCall = true) : op.isQuiet = false := by
  cases op <;> first | rfl | nomatch h

namespace VirtualFileSystem

variable {vfs vfs' : VirtualFileSystem} {host : Host}

/-- Every inode has a name or is open. -/
def Anchored (vfs : VirtualFileSystem) : Prop := vfs.tree.Anchored vfs.fds.Holds

theorem Anchored.dropName (h : vfs.Anchored) {path : GuestPath} {i : InodeId}
    (hi : vfs.tree.nodes.get? path = some i) :
    (dropLink i (setTree (vfs.tree.dropPath path) vfs)).tree.Anchored vfs.fds.Holds := by
  obtain ⟨inodes, heq⟩ := dropLink_eq (setTree (vfs.tree.dropPath path) vfs) i
  have hnodes : (dropLink i (setTree (vfs.tree.dropPath path) vfs)).tree.nodes = (vfs.tree.dropPath path).nodes := by
    rw [heq]
    rfl
  intro j node hj
  rw [hnodes]
  by_cases hji : j = i
  · subst hji
    rw [dropLink_get_self] at hj
    split at hj
    · nomatch hj
    · rename_i hheld
      by_cases hlinks : (vfs.tree.dropPath path).linkCount j = 0
      · exact Or.inr (FdTable.holds_iff.mpr fun hopen => hheld ⟨hlinks, hopen⟩)
      · rw [PathTree.linkCount_eq_zero_iff] at hlinks
        simpa using Or.inl hlinks
  · rw [dropLink_get_ne i hji] at hj
    have hj : vfs.tree.inodes.get? j = some node := by
      rw [← hj]
      exact congrArg (·.get? j) (PathTree.Wf.dropPath_inodes path).symm
    refine (h j node hj).imp ?_ id
    rintro ⟨p, hp⟩
    refine ⟨p, ?_⟩
    rw [PathTree.Wf.dropPath_nodes, if_neg]
    · exact hp
    · rintro rfl
      exact hji (Option.some.inj (hp.symm.trans hi))

theorem Anchored.renamed {flags : UInt32} {ends : Option (GuestPath × InodeId × ResolvedPath)}
    (h : vfs.Anchored) (hwf : vfs.tree.Wf) (hrenamed : Renamed vfs flags ends vfs') : vfs'.Anchored := by
  cases hrenamed with
  | same => exact h
  | exchange _ hends hapart =>
      refine ((PathTree.swapTree_relocated _ hapart).anchored h).mono fun i hi => ?_
      exact (hi.rebindPaths _ _).rebindPaths _ _
  | @move old oldInode new _ hends hinside hvalid =>
      have hcleared : (vfs.withoutTarget new.guestPath new.inode).tree.Anchored vfs.fds.Holds := by
        cases htarget : new.inode with
        | none => exact h
        | some i => exact h.dropName (hends.target.trans htarget)
      have hfds : (vfs.withoutTarget new.guestPath new.inode).fds = vfs.fds := by
        cases new.inode with
        | none => rfl
        | some i =>
            obtain ⟨inodes, heq⟩ := dropLink_eq (setTree (vfs.tree.dropPath new.guestPath) vfs) i
            rw [withoutTarget, heq]
            rfl
      refine ((PathTree.moveTree_relocated _ (withoutTarget_free hwf hends hvalid)).anchored hcleared).mono
        fun i hi => ?_
      show (FdTable.rebindPaths (vfs.withoutTarget new.guestPath new.inode).fds _ _).Holds i
      rw [hfds]
      exact hi.rebindPaths _ _

theorem Effect.anchored {op : Op} (h : Effect host vfs vfs' op) (hop : op.isNameCall = true) (hwf : vfs.tree.Wf)
    (hanchored : vfs.Anchored) : vfs'.Anchored := by
  have hset : ∀ {i node node'}, vfs.tree.inodes.get? i = some node → vfs'.tree = vfs.tree.setNode i node' →
      vfs'.tree.Anchored vfs.fds.Holds := by
    intro i node node' hnode htree
    rw [htree]
    exact PathTree.Anchored.setNode hanchored hnode
  have hadd : ∀ {path node}, vfs.tree.nodes.get? path = none →
      vfs'.tree = vfs.tree.allocated.addNode path node → vfs'.tree.Anchored vfs.fds.Holds := by
    intro path node hnew htree
    rw [htree]
    exact PathTree.Anchored.addNode (show vfs.tree.allocated.Anchored _ from hanchored) hnew
  have hopen : ∀ {path node}, Opened vfs vfs' path node → ∀ i, vfs.fds.Holds i → vfs'.fds.Holds i := by
    rintro path node ⟨fd, entry, hfree, hfds, _⟩ i hi
    exact hi.insert hfree hfds
  have hsame : vfs'.tree.Anchored vfs.fds.Holds → vfs'.fds = vfs.fds → vfs'.Anchored := by
    intro h hfds
    unfold Anchored
    rw [hfds]
    exact h
  cases h with
  | unchanged hcore =>
      obtain ⟨htree, _, hfds⟩ := core_eq hcore
      exact hsame (htree ▸ hanchored) hfds
  | quiet hquiet =>
      rw [Op.isNameCall.not_quiet hop] at hquiet
      nomatch hquiet
  | replaceFds => nomatch hop
  | rewrite hnode _ _ htree _ hfds => exact hsame (hset hnode htree) hfds
  | @loaded _ i node _ data hnode _ _ htree _ hfds => exact hsame (hset hnode htree) hfds
  | emptyWrite _ _ hnode _ htree _ hfds => exact hsame (hset hnode htree) hfds
  | opened _ _ htree _ hopened => exact PathTree.Anchored.mono (htree ▸ hanchored) (hopen hopened)
  | truncated _ _ _ hnode _ _ htree hend =>
      rcases hend with ⟨_, _, hfds⟩ | ⟨_, hopened⟩
      · exact hsame (hset hnode htree) hfds
      · exact (hset hnode htree).mono (hopen hopened)
  | created _ _ _ _ hnew _ _ _ htree hend =>
      rcases hend with ⟨_, _, hfds⟩ | ⟨_, hopened⟩
      · exact hsame (hadd hnew htree) hfds
      · exact (hadd hnew htree).mono (hopen hopened)
  | closed hclose => rcases hclose with rfl | rfl <;> nomatch hop
  | named _ _ hnew _ _ htree _ hfds => exact hsame (hadd hnew htree) hfds
  | @linked _ dir name parent i node node' _ _ hnew hnode _ _ _ htree _ hfds =>
      refine hsame ?_ hfds
      rw [htree]
      intro j n hj
      rw [PathTree.Wf.addLink_inodes] at hj
      refine (PathTree.Anchored.setNode hanchored hnode j n hj).imp ?_ id
      rintro ⟨p, hp⟩
      refine ⟨p, ?_⟩
      rw [PathTree.Wf.addLink_nodes, if_neg]
      · exact hp
      · rintro rfl
        exact absurd (hnew.symm.trans hp) (by simp)
  | unlinked _ hi _ htree _ hfds =>
      refine hsame ?_ hfds
      rw [htree]
      exact hanchored.dropName hi
  | renamed _ hrenamed => exact hanchored.renamed hwf hrenamed
  | built _ htree _ hfds => exact hsame (htree.anchored hanchored) hfds
  | mountFailed _ _ htree _ hfds => exact hsame (htree.anchored hanchored) hfds

/-! ### Renames as substitutions -/

theorem renameEnds_paths {olddirfd newdirfd : Fd} {oldpath newpath : String} {flags : UInt32}
    {ends : Option (GuestPath × InodeId × ResolvedPath)}
    (h : vfs.renameEnds olddirfd oldpath newdirfd newpath flags = .ok ends) :
    ∃ old new, vfs.resolveAt olddirfd oldpath .nofollowFinal = .ok old ∧
      vfs.resolveAt newdirfd newpath .nofollowFinal = .ok new ∧
      (ends = none ∧ old.guestPath = new.guestPath ∨ ∃ i, ends = some (old.guestPath, i, new)) := by
  obtain ⟨_, _, h⟩ := except_bind_eq_ok.mp h
  obtain ⟨_, _, h⟩ := except_bind_eq_ok.mp h
  obtain ⟨old, hold, h⟩ := except_bind_eq_ok.mp h
  obtain ⟨new, hnew, h⟩ := except_bind_eq_ok.mp h
  obtain ⟨_, _, h⟩ := except_bind_eq_ok.mp h
  obtain ⟨i, _, h⟩ := except_bind_eq_ok.mp h
  refine ⟨old, new, hold, hnew, ?_⟩
  split at h
  · cases h
    exact Or.inl ⟨rfl, ‹_›⟩
  · obtain ⟨_, _, h⟩ := except_bind_eq_ok.mp h
    obtain ⟨_, _, h⟩ := except_bind_eq_ok.mp h
    obtain ⟨_, _, h⟩ := except_bind_eq_ok.mp h
    obtain ⟨_, _, h⟩ := except_bind_eq_ok.mp h
    obtain ⟨_, _, h⟩ := except_bind_eq_ok.mp h
    obtain ⟨_, _, h⟩ := except_bind_eq_ok.mp h
    cases h
    exact Or.inr ⟨i, rfl⟩

/-- The names of `tree'` are those of `tree` under one substitution of prefixes, which keeps them apart.
A name that a plain rename replaces is not among them. -/
inductive Substituted (tree tree' : PathTree) (flags : UInt32) (old new : GuestPath) : Prop
  | same (heq : old = new) (htree : tree' = tree)
  | exchange (hflags : flags &&& renameExchange ≠ 0) (hapart : Apart old new)
      (hnames : tree.Relocated tree' (swap old new))
  | move (hflags : flags &&& renameExchange = 0) (hapart : Apart old new)
      (hnames : ∀ q i, tree'.nodes.get? q = some i ↔
        ∃ p, p ≠ new ∧ tree.nodes.get? p = some i ∧ q = Subtree.move old new p)
      (hinj : ∀ p q i j, p ≠ new → q ≠ new → tree.nodes.get? p = some i → tree.nodes.get? q = some j →
        Subtree.move old new p = Subtree.move old new q → p = q)

theorem Renamed.substituted {olddirfd newdirfd : Fd} {oldpath newpath : String} {flags : UInt32}
    {ends : Option (GuestPath × InodeId × ResolvedPath)} (hwf : vfs.tree.Wf)
    (hends : vfs.renameEnds olddirfd oldpath newdirfd newpath flags = .ok ends)
    (h : Renamed vfs flags ends vfs') :
    ∃ old new, vfs.resolveAt olddirfd oldpath .nofollowFinal = .ok old ∧
      vfs.resolveAt newdirfd newpath .nofollowFinal = .ok new ∧
      Substituted vfs.tree vfs'.tree flags old.guestPath new.guestPath := by
  obtain ⟨old, new, hold, hnew, hpaths⟩ := renameEnds_paths hends
  refine ⟨old, new, hold, hnew, ?_⟩
  cases h with
  | same =>
      rcases hpaths with ⟨_, heq⟩ | ⟨i, hi⟩
      · exact .same heq rfl
      · nomatch hi
  | exchange hflags hfound hapart =>
      rcases hpaths with ⟨hnone, _⟩ | ⟨i, hi⟩
      · nomatch hnone
      · cases hi
        exact .exchange hflags hapart (PathTree.swapTree_relocated _ hapart)
  | move hflags hfound hinside hvalid =>
      rcases hpaths with ⟨hnone, _⟩ | ⟨i, hi⟩
      · nomatch hnone
      · cases hi
        refine .move hflags (hfound.apart hwf hinside hvalid) (moved_names hwf hfound hvalid) ?_
        have hout : ∀ p i, p ≠ new.guestPath → vfs.tree.nodes.get? p = some i → ¬ new.guestPath <+: p := by
          rintro p i hne hp ⟨rest, rfl⟩
          have hrest : rest ≠ [] := by
            rintro rfl
            exact hne (List.append_nil _)
          rw [nothing_below_target hwf hfound hvalid hrest] at hp
          nomatch hp
        intro p q i j hpne hqne hp hq heq
        exact move_inj (hout p i hpne hp) (hout q j hqne hq) heq

/-! ### Runs -/

theorem new_wf : PathTree.new.Wf := by
  have hnodes : ∀ path i, PathTree.new.nodes.get? path = some i → path = [] ∧ i = rootInodeId := by
    intro path i h
    simp only [PathTree.new, SortedMap.get?_insert, SortedMap.get?_empty] at h
    split at h
    · cases h
      exact ⟨‹_›, rfl⟩
    · nomatch h
  constructor
  · intro i node h
    simp only [PathTree.new, SortedMap.get?_insert, SortedMap.get?_empty] at h
    split at h
    · cases h
      exact Eq.symm ‹_›
    · nomatch h
  · intro path i h
    obtain ⟨_, rfl⟩ := hnodes path i h
    exact ⟨.directory rootInodeId, rfl⟩
  · intro path name i h
    obtain ⟨hnil, _⟩ := hnodes _ i h
    simp at hnil
  · intro path name
    have hnone : PathTree.new.nodes.get? (path ++ [name]) = none := by
      by_contra hsome
      obtain ⟨i, hi⟩ := Option.ne_none_iff_exists'.mp hsome
      simpa using (hnodes _ i hi).1
    rw [hnone]
    rfl
  · intro p q i node hp hq _ _
    rw [(hnodes p i hp).1, (hnodes q i hq).1]

theorem run_wf (ops : List Op) (hwf : vfs.tree.Wf) (hrun : Along host Sane vfs ops) : (vfs.run host ops).tree.Wf :=
  run_invariant (I := fun vfs => vfs.tree.Wf) (fun _ _ hwf hsane => (step_effect host hwf hsane).wf hwf) ops vfs hwf hrun

def NameStep (vfs : VirtualFileSystem) (op : Op) : Prop := op.isNameCall = true ∧ vfs.Sane op

def renameDirectory : List Op :=
  [.mkdirat atFdcwd "/a" 0o755, .mkdirat atFdcwd "/a/b" 0o755, .renameat2 atFdcwd "/a" atFdcwd "/c" 0]

end VirtualFileSystem

end Mcr.Vfs
