import Mcr.Vfs.Wf

/-!
# Moving and exchanging names

A rename takes names out and puts them back one by one. In a well-formed tree none of the steps can fail,
and the result is the image of all names under one rewriting of paths: `Subtree.move` for a plain rename,
`Subtree.swap` for an exchange. The descriptors are rewritten separately.
-/

namespace Mcr.Vfs

open Subtree

namespace PathTree

/-- The names of `tree'` are those of `tree`, each carried along by `f`. -/
structure Relocated (tree tree' : PathTree) (f : GuestPath → GuestPath) : Prop where
  inodes : tree'.inodes = tree.inodes
  names : ∀ q i, tree'.nodes.get? q = some i ↔ ∃ p, tree.nodes.get? p = some i ∧ q = f p
  inj : ∀ p q i j, tree.nodes.get? p = some i → tree.nodes.get? q = some j → f p = f q → p = q

namespace Relocated

variable {tree tree' : PathTree} {f : GuestPath → GuestPath}

theorem get (h : Relocated tree tree' f) {p : GuestPath} {i : InodeId} (hp : tree.nodes.get? p = some i) :
    tree'.nodes.get? (f p) = some i :=
  (h.names _ _).mpr ⟨p, hp, rfl⟩

theorem isDir (h : Relocated tree tree' f) {p : GuestPath} (hp : tree.IsDir p) : tree'.IsDir (f p) := by
  obtain ⟨node, hlookup, hnode⟩ := hp
  obtain ⟨i, hi, hin⟩ := lookupPath_eq_some.mp hlookup
  exact ⟨node, lookupPath_eq_some.mpr ⟨i, h.get hi, by rw [h.inodes]; exact hin⟩, hnode⟩

/-- The result is well formed when the directory of a carried name is a directory carried along. -/
theorem wf (h : Relocated tree tree' f) (hwf : tree.Wf) (hindexed : tree'.Indexed)
    (hparents : ∀ p i q c, tree.nodes.get? p = some i → f p = q ++ [c] → ∃ d, tree.IsDir d ∧ q = f d) :
    tree'.Wf := by
  constructor
  · rw [h.inodes]
    exact hwf.ids
  · intro q i hq
    obtain ⟨p, hp, _⟩ := (h.names q i).mp hq
    rw [h.inodes]
    exact hwf.named p i hp
  · intro q c i hq
    obtain ⟨p, hp, hfp⟩ := (h.names _ i).mp hq
    obtain ⟨d, hd, hqd⟩ := hparents p i q c hp hfp.symm
    rw [hqd]
    exact h.isDir hd
  · exact hindexed
  · intro q q' i node hq hq' hi hnode
    obtain ⟨p, hp, hqp⟩ := (h.names q i).mp hq
    obtain ⟨p', hp', hqp'⟩ := (h.names q' i).mp hq'
    rw [h.inodes] at hi
    rw [hqp, hqp', hwf.unique p p' i node hp hp' hi hnode]

end Relocated

/-! ### The names under a path -/

theorem mem_pathsUnderPrefix {tree : PathTree} {pre p : GuestPath} :
    p ∈ tree.pathsUnderPrefix pre ↔ (∃ i, tree.nodes.get? p = some i) ∧ pre <+: p := by
  simp only [pathsUnderPrefix, List.mem_filter, SortedMap.mem_keys, GuestPath.startsWith_iff]

theorem pathsUnderPrefix_nodup (tree : PathTree) (pre : GuestPath) : (tree.pathsUnderPrefix pre).Nodup :=
  List.Nodup.filter _ ((SortedMap.keys_sorted _).imp fun h => ne_of_lt h)

theorem pathsUnderPrefix_leaf {tree : PathTree} (hwf : tree.Wf) {path : GuestPath} {i : InodeId}
    (hi : tree.nodes.get? path = some i) (hdir : ¬ tree.IsDir path) : tree.pathsUnderPrefix path = [path] := by
  have hall : ∀ p ∈ tree.pathsUnderPrefix path, p = path := by
    intro p hp
    obtain ⟨⟨j, hj⟩, rest, rfl⟩ := mem_pathsUnderPrefix.mp hp
    by_contra hne
    have hrest : rest ≠ [] := by
      rintro rfl
      exact hne (List.append_nil path)
    exact hdir (hwf.below hrest hj).1
  have hmem : path ∈ tree.pathsUnderPrefix path := mem_pathsUnderPrefix.mpr ⟨⟨i, hi⟩, List.prefix_rfl⟩
  have hnodup := pathsUnderPrefix_nodup tree path
  rw [List.eq_replicate_of_mem hall] at hnodup hmem ⊢
  have hle := List.nodup_replicate.mp hnodup
  have hpos := List.length_pos_of_mem hmem
  rw [List.length_replicate] at hpos
  rw [show (tree.pathsUnderPrefix path).length = 1 by omega]
  rfl

theorem replacePrefix_append (old new rest : GuestPath) : replacePrefix (old ++ rest) old new = new ++ rest := by
  simp [replacePrefix]

/-- Where the names under `old` go. -/
def carried (tree : PathTree) (old new : GuestPath) : List (GuestPath × InodeId) :=
  (tree.pathsUnderPrefix old).map fun p => (replacePrefix p old new, (tree.nodes.get? p).getD 0)

theorem mem_carried {tree : PathTree} {old new q : GuestPath} {i : InodeId} :
    (q, i) ∈ tree.carried old new ↔ ∃ rest, tree.nodes.get? (old ++ rest) = some i ∧ q = new ++ rest := by
  constructor
  · intro h
    obtain ⟨p, hp, heq⟩ := List.mem_map.mp h
    obtain ⟨⟨j, hj⟩, rest, rfl⟩ := mem_pathsUnderPrefix.mp hp
    rw [replacePrefix_append, hj] at heq
    cases heq
    exact ⟨rest, hj, rfl⟩
  · rintro ⟨rest, hi, rfl⟩
    refine List.mem_map.mpr ⟨old ++ rest, mem_pathsUnderPrefix.mpr ⟨⟨i, hi⟩, rest, rfl⟩, ?_⟩
    rw [replacePrefix_append, hi]
    rfl

theorem mem_carried_keys {tree : PathTree} {old new q : GuestPath} :
    q ∈ (tree.carried old new).map Prod.fst ↔
      ∃ rest i, tree.nodes.get? (old ++ rest) = some i ∧ q = new ++ rest := by
  simp only [List.mem_map, Prod.exists, exists_and_right, exists_eq_right, mem_carried]
  constructor
  · rintro ⟨i, rest, hi, hq⟩
    exact ⟨rest, ⟨i, hi⟩, hq⟩
  · rintro ⟨rest, ⟨i, hi⟩, hq⟩
    exact ⟨i, rest, hi, hq⟩

theorem carried_nodup (tree : PathTree) (old new : GuestPath) :
    ((tree.carried old new).map Prod.fst).Nodup := by
  unfold carried
  rw [List.map_map]
  refine List.Nodup.map_on ?_ (pathsUnderPrefix_nodup tree old)
  intro p hp q hq heq
  obtain ⟨_, r, rfl⟩ := mem_pathsUnderPrefix.mp hp
  obtain ⟨_, r', rfl⟩ := mem_pathsUnderPrefix.mp hq
  simp only [Function.comp, replacePrefix_append] at heq
  rw [List.append_cancel_left heq]

/-! ### The tree after a rename -/

def moveTree (tree : PathTree) (old new : GuestPath) : PathTree :=
  (tree.dropPaths (tree.pathsUnderPrefix old)).addLinks (tree.carried old new)

/-- The subtrees of `old` and `new` change places. -/
def swapTree (tree : PathTree) (old new : GuestPath) : PathTree :=
  ((tree.dropPaths (tree.pathsUnderPrefix old)).dropPaths (tree.pathsUnderPrefix new)).addLinks
    (tree.carried old new ++ tree.carried new old)

section Move

variable {tree : PathTree} {old new : GuestPath}

theorem not_under_of_named (hfree : ∀ rest, tree.nodes.get? (new ++ rest) = none) {p : GuestPath} {i : InodeId}
    (hp : tree.nodes.get? p = some i) : ¬ new <+: p := by
  rintro ⟨rest, rfl⟩
  rw [hfree rest] at hp
  nomatch hp

variable (old) in
theorem moveTree_relocated (hfree : ∀ rest, tree.nodes.get? (new ++ rest) = none) :
    Relocated tree (tree.moveTree old new) (move old new) := by
  refine ⟨by simp [moveTree], ?_, ?_⟩
  · intro q i
    rw [moveTree, addLinks_nodes (carried_nodup tree old new), dropPaths_nodes, mem_carried, mem_carried_keys]
    constructor
    · rintro (⟨rest, hi, rfl⟩ | ⟨hkeys, hq⟩)
      · exact ⟨old ++ rest, hi, move_append.symm⟩
      · split at hq
        · nomatch hq
        · rename_i hunder
          refine ⟨q, hq, (move_elsewhere ?_).symm⟩
          intro hpre
          exact hunder (mem_pathsUnderPrefix.mpr ⟨⟨i, hq⟩, hpre⟩)
    · rintro ⟨p, hp, rfl⟩
      by_cases hpre : old <+: p
      · obtain ⟨rest, rfl⟩ := hpre
        exact Or.inl ⟨rest, hp, move_append⟩
      · rw [move_elsewhere hpre]
        refine Or.inr ⟨?_, ?_⟩
        · rintro ⟨rest, _, _, rfl⟩
          exact not_under_of_named hfree hp ⟨rest, rfl⟩
        · rw [if_neg (fun hmem => hpre (mem_pathsUnderPrefix.mp hmem).2)]
          exact hp
  · intro p q i j hp hq heq
    exact move_inj (not_under_of_named hfree hp) (not_under_of_named hfree hq) heq

theorem moveTree_indexed (h : tree.Indexed) : (tree.moveTree old new).Indexed :=
  (h.dropPaths _).addLinks _

theorem moveTree_wf (hwf : tree.Wf) (hapart : Apart old new)
    (hfree : ∀ rest, tree.nodes.get? (new ++ rest) = none) {dir : GuestPath} {name : String}
    (hnew : new = dir ++ [name]) (hdir : tree.IsDir dir) : (tree.moveTree old new).Wf := by
  refine (moveTree_relocated _ hfree).wf hwf (moveTree_indexed hwf.indexed) ?_
  intro p i q c hp hq
  by_cases hold : p = old
  · -- the moved root goes into the directory of `new`
    subst hold
    rw [move_self, hnew] at hq
    have hout : ¬ p <+: dir := fun hpre => hapart.1 (hnew ▸ hpre.trans (List.prefix_append _ _))
    exact ⟨dir, hdir, by rw [move_elsewhere hout, (List.append_inj' hq rfl).1]⟩
  · rcases List.eq_nil_or_concat' p with rfl | ⟨parent, last, rfl⟩
    · rw [move_elsewhere (fun hpre => hold (List.prefix_nil.mp hpre).symm)] at hq
      simp at hq
    · rw [move_concat hold] at hq
      exact ⟨parent, hwf.parents parent last i hp, (List.append_inj' hq rfl).1.symm⟩

variable (old) in
/-- Nothing can go wrong while a subtree moves to a free place. -/
theorem move_run (hwf : tree.Wf) (hfree : ∀ rest, tree.nodes.get? (new ++ rest) = none) :
    VirtualFileSystem.takeLinks (tree.pathsUnderPrefix old) old new tree =
        (.ok (tree.carried old new), tree.dropPaths (tree.pathsUnderPrefix old)) ∧
      VirtualFileSystem.putLinks (tree.carried old new) (tree.dropPaths (tree.pathsUnderPrefix old)) =
        (.ok (), tree.moveTree old new) := by
  refine ⟨takeLinks_run (pathsUnderPrefix_nodup tree old) old new fun p hp => (mem_pathsUnderPrefix.mp hp).1, ?_⟩
  refine putLinks_run (carried_nodup tree old new) ?_ ?_
  · rintro ⟨q, i⟩ hu
    obtain ⟨rest, _, rfl⟩ := mem_carried.mp hu
    rw [dropPaths_nodes]
    split
    · rfl
    · exact hfree rest
  · rintro ⟨q, i⟩ hu
    obtain ⟨rest, hi, _⟩ := mem_carried.mp hu
    rw [dropPaths_inodes]
    exact hwf.named _ i hi

end Move

section Swap

variable {tree : PathTree} {old new : GuestPath}

theorem swap_keys_nodup (hapart : Apart old new) :
    ((tree.carried old new ++ tree.carried new old).map Prod.fst).Nodup := by
  rw [List.map_append, List.nodup_append]
  refine ⟨carried_nodup tree old new, carried_nodup tree new old, ?_⟩
  intro p hp q hq heq
  obtain ⟨rest, _, _, rfl⟩ := mem_carried_keys.mp hp
  obtain ⟨rest', _, _, rfl⟩ := mem_carried_keys.mp hq
  exact hapart.not_both ⟨rest', rfl⟩ ⟨rest, heq⟩

variable (tree) in
theorem swapTree_relocated (hapart : Apart old new) :
    Relocated tree (tree.swapTree old new) (swap old new) := by
  refine ⟨by simp [swapTree], ?_, ?_⟩
  · intro q i
    rw [swapTree, addLinks_nodes (swap_keys_nodup hapart), dropPaths_nodes, dropPaths_nodes, List.mem_append,
      mem_carried, mem_carried, List.map_append, List.mem_append, mem_carried_keys, mem_carried_keys]
    constructor
    · rintro ((⟨rest, hi, rfl⟩ | ⟨rest, hi, rfl⟩) | ⟨hkeys, hq⟩)
      · exact ⟨old ++ rest, hi, swap_append_left.symm⟩
      · exact ⟨new ++ rest, hi, (swap_append_right hapart).symm⟩
      · split at hq
        · nomatch hq
        · rename_i hnew
          split at hq
          · nomatch hq
          · rename_i hold
            refine ⟨q, hq, (swap_elsewhere ?_ ?_).symm⟩
            · exact fun hpre => hold (mem_pathsUnderPrefix.mpr ⟨⟨i, hq⟩, hpre⟩)
            · exact fun hpre => hnew (mem_pathsUnderPrefix.mpr ⟨⟨i, hq⟩, hpre⟩)
    · rintro ⟨p, hp, rfl⟩
      by_cases hold : old <+: p
      · obtain ⟨rest, rfl⟩ := hold
        exact Or.inl (Or.inl ⟨rest, hp, swap_append_left⟩)
      · by_cases hnew : new <+: p
        · obtain ⟨rest, rfl⟩ := hnew
          exact Or.inl (Or.inr ⟨rest, hp, swap_append_right hapart⟩)
        · rw [swap_elsewhere hold hnew]
          refine Or.inr ⟨?_, ?_⟩
          · rintro (⟨rest, _, _, rfl⟩ | ⟨rest, _, _, rfl⟩)
            · exact hnew ⟨rest, rfl⟩
            · exact hold ⟨rest, rfl⟩
          · rw [if_neg (fun hmem => hnew (mem_pathsUnderPrefix.mp hmem).2),
              if_neg (fun hmem => hold (mem_pathsUnderPrefix.mp hmem).2)]
            exact hp
  · intro p q i j _ _ heq
    rw [← swap_swap hapart (p := p), heq, swap_swap hapart]

theorem swapTree_indexed (h : tree.Indexed) : (tree.swapTree old new).Indexed :=
  ((h.dropPaths _).dropPaths _).addLinks _

theorem swapTree_wf (hwf : tree.Wf) (hapart : Apart old new) {i j : InodeId}
    (hold : tree.nodes.get? old = some i) (hnew : tree.nodes.get? new = some j) :
    (tree.swapTree old new).Wf := by
  refine (swapTree_relocated _ hapart).wf hwf (swapTree_indexed hwf.indexed) ?_
  -- each root takes the place of the other, in a directory that neither subtree reaches
  have hroot : ∀ a b : GuestPath, Apart a b → ∀ k, tree.nodes.get? b = some k → ∀ q c, b = q ++ [c] →
      tree.IsDir q ∧ ¬ a <+: q ∧ ¬ b <+: q := by
    intro a b hab k hb q c hbq
    refine ⟨hwf.parents q c k (hbq ▸ hb), ?_, ?_⟩
    · exact fun hpre => hab.1 (hbq ▸ hpre.trans (List.prefix_append _ _))
    · intro hpre
      have hlen := hpre.length_le
      rw [hbq, List.length_append, List.length_singleton] at hlen
      omega
  intro p k q c hp hq
  by_cases hpold : p = old
  · subst hpold
    rw [swap_self_left] at hq
    obtain ⟨hdir, hout, hout'⟩ := hroot p new hapart j hnew q c hq
    exact ⟨q, hdir, (swap_elsewhere hout hout').symm⟩
  by_cases hpnew : p = new
  · subst hpnew
    rw [swap_self_right hapart] at hq
    obtain ⟨hdir, hout, hout'⟩ := hroot p old hapart.symm i hold q c hq
    exact ⟨q, hdir, (swap_elsewhere hout' hout).symm⟩
  rcases List.eq_nil_or_concat' p with rfl | ⟨parent, last, rfl⟩
  · rw [swap_elsewhere (fun hpre => hpold (List.prefix_nil.mp hpre).symm)
      (fun hpre => hpnew (List.prefix_nil.mp hpre).symm)] at hq
    simp at hq
  · rw [swap_concat hapart hpold hpnew] at hq
    exact ⟨parent, hwf.parents parent last k hp, (List.append_inj' hq rfl).1.symm⟩

/-- Nothing can go wrong while two subtrees change places. -/
theorem swap_run (hwf : tree.Wf) (hapart : Apart old new) :
    VirtualFileSystem.takeLinks (tree.pathsUnderPrefix old) old new tree =
        (.ok (tree.carried old new), tree.dropPaths (tree.pathsUnderPrefix old)) ∧
      VirtualFileSystem.takeLinks (tree.pathsUnderPrefix new) new old
          (tree.dropPaths (tree.pathsUnderPrefix old)) =
        (.ok (tree.carried new old),
          (tree.dropPaths (tree.pathsUnderPrefix old)).dropPaths (tree.pathsUnderPrefix new)) ∧
      VirtualFileSystem.putLinks (tree.carried old new ++ tree.carried new old)
          ((tree.dropPaths (tree.pathsUnderPrefix old)).dropPaths (tree.pathsUnderPrefix new)) =
        (.ok (), tree.swapTree old new) := by
  refine ⟨takeLinks_run (pathsUnderPrefix_nodup tree old) old new fun p hp => (mem_pathsUnderPrefix.mp hp).1,
    ?_, ?_⟩
  · -- taking out the one subtree leaves the other
    have hsame : ∀ p ∈ tree.pathsUnderPrefix new,
        (tree.dropPaths (tree.pathsUnderPrefix old)).nodes.get? p = tree.nodes.get? p := by
      intro p hp
      rw [dropPaths_nodes, if_neg]
      exact fun hmem => hapart.not_both (mem_pathsUnderPrefix.mp hmem).2 (mem_pathsUnderPrefix.mp hp).2
    rw [takeLinks_run (pathsUnderPrefix_nodup tree new)]
    · congr 2
      exact List.map_congr_left fun p hp => by rw [hsame p hp]
    · intro p hp
      rw [hsame p hp]
      exact (mem_pathsUnderPrefix.mp hp).1
  · have hcarried : ∀ u ∈ tree.carried old new ++ tree.carried new old,
        (old <+: u.1 ∨ new <+: u.1) ∧ ∃ p, tree.nodes.get? p = some u.2 := by
      rintro ⟨q, i⟩ hu
      rcases List.mem_append.mp hu with hu | hu
      · obtain ⟨rest, hi, rfl⟩ := mem_carried.mp hu
        exact ⟨Or.inr ⟨rest, rfl⟩, _, hi⟩
      · obtain ⟨rest, hi, rfl⟩ := mem_carried.mp hu
        exact ⟨Or.inl ⟨rest, rfl⟩, _, hi⟩
    refine putLinks_run (swap_keys_nodup hapart) ?_ ?_
    · intro u hu
      rw [dropPaths_nodes, dropPaths_nodes]
      by_contra hsome
      split at hsome
      · exact hsome rfl
      · rename_i hnew
        split at hsome
        · exact hsome rfl
        · rename_i hold
          obtain ⟨i, hi⟩ := Option.ne_none_iff_exists'.mp hsome
          rcases (hcarried u hu).1 with hpre | hpre
          · exact hold (mem_pathsUnderPrefix.mpr ⟨⟨i, hi⟩, hpre⟩)
          · exact hnew (mem_pathsUnderPrefix.mpr ⟨⟨i, hi⟩, hpre⟩)
    · intro u hu
      obtain ⟨p, hp⟩ := (hcarried u hu).2
      rw [dropPaths_inodes, dropPaths_inodes]
      exact hwf.named p u.2 hp

end Swap

end PathTree

end Mcr.Vfs
