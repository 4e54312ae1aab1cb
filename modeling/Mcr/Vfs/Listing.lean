import Mcr.Vfs.Steps

/-!
# Listings of a directory

The listing of a directory is read off its entry in the index: the names below it, the inodes they lead to
and the kinds of these. Two trees that agree on that list the directory alike, wherever it lies in them.
-/

namespace Mcr.Vfs

open Prog

namespace PathTree

variable {tree tree' : PathTree}

/-- The node is in both trees, and is the same but for what may change in place. -/
def Kept (tree tree' : PathTree) (i : InodeId) : Prop :=
  ∀ node, tree.inodes.get? i = some node → ∃ node', tree'.inodes.get? i = some node' ∧ node.Same node'

theorem Kept.of_eq {i : InodeId} (h : tree'.inodes.get? i = tree.inodes.get? i) : Kept tree tree' i :=
  fun node hnode => ⟨node, h.trans hnode, .refl node⟩

def namesBelow (tree : PathTree) (path : GuestPath) : SortedMap String InodeId :=
  (tree.children.get? path).getD .empty

theorem namesBelow_get (h : tree.Indexed) (path : GuestPath) (name : String) :
    (tree.namesBelow path).get? name = tree.nodes.get? (path ++ [name]) := by
  rw [← h path name, namesBelow, childAt]
  cases tree.children.get? path <;> rfl

theorem namesBelow_entries (path : GuestPath) :
    ((tree.children.get? path).map SortedMap.entries).getD [] = (tree.namesBelow path).entries := by
  rw [namesBelow]
  cases tree.children.get? path <;> rfl

theorem childrenOf_congr {entries : List (String × InodeId)}
    (hthere : ∀ e ∈ entries, ∃ node, tree.inodes.get? e.2 = some node)
    (hkept : ∀ e ∈ entries, Kept tree tree' e.2) : tree'.childrenOf entries = tree.childrenOf entries := by
  induction entries with
  | nil => rfl
  | cons e rest ih =>
      obtain ⟨name, i⟩ := e
      obtain ⟨node, hnode⟩ := hthere (name, i) (by simp)
      obtain ⟨node', hnode', hsame⟩ := hkept (name, i) (by simp) node hnode
      have htype : node'.attr.direntType = node.attr.direntType := by
        simp only [LinuxFileAttr.direntType, hsame.kindBits]
      have hrest := ih (fun e he => hthere e (List.mem_cons_of_mem _ he))
        (fun e he => hkept e (List.mem_cons_of_mem _ he))
      have hok : okOr (tree.inodes.get? i) .invalidPath = .ok node := okOr_eq_ok.mpr hnode
      have hok' : okOr (tree'.inodes.get? i) .invalidPath = .ok node' := okOr_eq_ok.mpr hnode'
      rw [childrenOf, childrenOf, hok, hok', hrest, except_ok_bind, except_ok_bind, hsame.inodeId, htype]

end PathTree

namespace VirtualFileSystem

open PathTree

theorem staticDirectoryEntries_congr {tree tree' : PathTree} (hwf : tree.Wf) (hindexed : tree'.Indexed)
    {p q : GuestPath} {i : InodeId} (hp : tree.nodes.get? p = some i) (hq : tree'.nodes.get? q = some i)
    (hnames : ∀ name, tree'.nodes.get? (q ++ [name]) = tree.nodes.get? (p ++ [name])) (hself : Kept tree tree' i)
    (hkept : ∀ name j, tree.nodes.get? (p ++ [name]) = some j → Kept tree tree' j) :
    staticDirectoryEntries tree' q = staticDirectoryEntries tree p := by
  obtain ⟨node, hnode⟩ := hwf.named p i hp
  obtain ⟨node', hnode', hsame⟩ := hself node hnode
  have hlookup : tree.lookupPath p = some node := lookupPath_eq_some.mpr ⟨i, hp, hnode⟩
  have hlookup' : tree'.lookupPath q = some node' := lookupPath_eq_some.mpr ⟨i, hq, hnode'⟩
  have hbelow : tree'.namesBelow q = tree.namesBelow p := by
    apply SortedMap.ext_get?
    intro name
    rw [namesBelow_get hindexed, namesBelow_get hwf.indexed, hnames]
  have hentry : ∀ e ∈ (tree.namesBelow p).entries, tree.nodes.get? (p ++ [e.1]) = some e.2 := by
    intro e he
    rw [← namesBelow_get hwf.indexed]
    exact SortedMap.get?_eq_some_iff.mpr he
  have hchildren : tree'.childrenOf (tree'.namesBelow q).entries = tree.childrenOf (tree.namesBelow p).entries := by
    rw [hbelow]
    exact childrenOf_congr (fun e he => hwf.named _ _ (hentry e he)) (fun e he => hkept e.1 e.2 (hentry e he))
  have hok : okOr (tree.lookupPath p) .noEntry = .ok node := okOr_eq_ok.mpr hlookup
  have hok' : okOr (tree'.lookupPath q) .noEntry = .ok node' := okOr_eq_ok.mpr hlookup'
  unfold staticDirectoryEntries staticChildren directoryEntriesFromChildren
  rw [namesBelow_entries, namesBelow_entries, hchildren, hok, hok', except_ok_bind, except_ok_bind,
    hsame.isDirectory]
  simp only [except_ok_bind, hsame.inodeId]

def SameListings (tree tree' : PathTree) (ids : List InodeId) : Prop :=
  ∀ i, i ∉ ids → ∀ q, tree'.nodes.get? q = some i →
    ∃ p, tree.nodes.get? p = some i ∧ staticDirectoryEntries tree' q = staticDirectoryEntries tree p

namespace SameListings

variable {tree tree' tree'' : PathTree} {ids ids' : List InodeId}

theorem refl (tree : PathTree) (ids : List InodeId) : SameListings tree tree ids := fun _ _ q hq => ⟨q, hq, rfl⟩

theorem trans (h : SameListings tree tree' ids) (h' : SameListings tree' tree'' ids) :
    SameListings tree tree'' ids := by
  intro i hi q hq
  obtain ⟨p, hp, heq⟩ := h' i hi q hq
  obtain ⟨r, hr, heq'⟩ := h i hi p hp
  exact ⟨r, hr, heq.trans heq'⟩

theorem mono (h : SameListings tree tree' ids) (hids : ∀ i ∈ ids, i ∈ ids') : SameListings tree tree' ids' :=
  fun i hi q hq => h i (fun hmem => hi (hids i hmem)) q hq

theorem of_names (hwf : tree.Wf) (hindexed : tree'.Indexed)
    (hkept : ∀ p i, tree.nodes.get? p = some i → Kept tree tree' i)
    (hnames : ∀ q i, i ∉ ids → tree'.nodes.get? q = some i →
      tree.nodes.get? q = some i ∧ ∀ name, tree'.nodes.get? (q ++ [name]) = tree.nodes.get? (q ++ [name])) :
    SameListings tree tree' ids := by
  intro i hi q hq
  obtain ⟨hq', hbelow⟩ := hnames q i hi hq
  exact ⟨q, hq', staticDirectoryEntries_congr hwf hindexed hq' hq hbelow (hkept q i hq')
    (fun name j hj => hkept _ j hj)⟩

theorem of_nodes (hwf : tree.Wf) (hnodes : tree'.nodes = tree.nodes) (hchildren : tree'.children = tree.children)
    (hkept : ∀ p i, tree.nodes.get? p = some i → Kept tree tree' i) (ids : List InodeId) :
    SameListings tree tree' ids := by
  refine of_names hwf ?_ hkept fun q i _ hq => ?_
  · intro path name
    rw [childAt, hchildren, hnodes]
    exact hwf.indexed path name
  · rw [hnodes] at hq ⊢
    exact ⟨hq, fun _ => rfl⟩

theorem setNode (hwf : tree.Wf) {i : InodeId} {node node' : PathNode} (hnode : tree.inodes.get? i = some node)
    (hsame : node.Same node') (ids : List InodeId) : SameListings tree (tree.setNode i node') ids := by
  refine of_nodes hwf (show (tree.setNode i node').nodes = tree.nodes from rfl) rfl (fun p j _ => ?_) ids
  by_cases hij : j = i
  · subst hij
    intro before hbefore
    rw [hnode] at hbefore
    cases hbefore
    exact ⟨node', by simp [PathTree.setNode], hsame⟩
  · exact .of_eq (by simp [PathTree.setNode, hij])

theorem newName (hwf : tree.Wf) (hindexed : tree'.Indexed) {dir : GuestPath} {name : String} {parent new : InodeId}
    (hparent : tree.nodes.get? dir = some parent)
    (hnodes : ∀ q, tree'.nodes.get? q = if q = dir ++ [name] then some new else tree.nodes.get? q)
    (hkept : ∀ p i, tree.nodes.get? p = some i → Kept tree tree' i) : SameListings tree tree' [parent, new] := by
  refine of_names hwf hindexed hkept fun q i hi hq => ?_
  simp only [List.mem_cons, List.not_mem_nil, or_false, not_or] at hi
  rw [hnodes] at hq
  split at hq
  · exact absurd (Option.some.inj hq).symm hi.2
  · refine ⟨hq, fun c => ?_⟩
    rw [hnodes, if_neg]
    intro heq
    obtain ⟨rfl, _⟩ := List.append_inj' heq rfl
    rw [hparent] at hq
    exact hi.1 (Option.some.inj hq).symm

theorem dropPath (hwf : tree.Wf) {dir : GuestPath} {name : String} {parent : InodeId}
    (hparent : tree.nodes.get? dir = some parent) : SameListings tree (tree.dropPath (dir ++ [name])) [parent] := by
  refine of_names hwf (hwf.indexed.dropPath _) (fun p i _ => .of_eq (by rw [Wf.dropPath_inodes])) fun q i hi hq => ?_
  rw [Wf.dropPath_nodes] at hq
  split at hq
  · nomatch hq
  · refine ⟨hq, fun c => ?_⟩
    rw [Wf.dropPath_nodes, if_neg]
    intro heq
    obtain ⟨rfl, _⟩ := List.append_inj' heq rfl
    rw [hparent] at hq
    exact hi (by simp [Option.some.inj hq])

theorem removeInode (hwf : tree.Wf) {i : InodeId} (hunnamed : ∀ p, tree.nodes.get? p ≠ some i) (ids : List InodeId) :
    SameListings tree (tree.removeInode i) ids := by
  refine of_nodes hwf (show (tree.removeInode i).nodes = tree.nodes from rfl) rfl (fun p j hj => .of_eq ?_) ids
  have hne : j ≠ i := fun heq => hunnamed p (heq ▸ hj)
  simp [PathTree.removeInode, hne]

theorem dropLink {vfs : VirtualFileSystem} (hwf : vfs.tree.Wf) (i : InodeId) (ids : List InodeId) :
    SameListings vfs.tree (dropLink i vfs).tree ids := by
  obtain ⟨inodes, heq⟩ := dropLink_eq vfs i
  have hnodes : (VirtualFileSystem.dropLink i vfs).tree.nodes = vfs.tree.nodes := by rw [heq]
  have hchildren : (VirtualFileSystem.dropLink i vfs).tree.children = vfs.tree.children := by rw [heq]
  refine of_nodes hwf hnodes hchildren (fun p j hj => ?_) ids
  by_cases hij : j = i
  · subst hij
    intro node hnode
    refine ⟨node.decrementLinkCount, ?_, ⟨rfl, rfl, rfl⟩⟩
    rw [dropLink_get_self, if_neg, hnode]
    · rfl
    · rintro ⟨hlinks, _⟩
      exact linkCount_eq_zero_iff.mp hlinks p hj
  · exact .of_eq (dropLink_get_ne i hij)

/-- Directories keep their listings on the way, but for the two the moved name leaves and enters. -/
theorem moveTree (hwf : tree.Wf) {oldDir newDir : GuestPath} {oldName newName : String} {oldParent newParent : InodeId}
    (hfree : ∀ rest, tree.nodes.get? (newDir ++ [newName] ++ rest) = none)
    (hold : tree.nodes.get? oldDir = some oldParent) (hnew : tree.nodes.get? newDir = some newParent) :
    SameListings tree (tree.moveTree (oldDir ++ [oldName]) (newDir ++ [newName])) [oldParent, newParent] := by
  have hrelocated := moveTree_relocated (oldDir ++ [oldName]) hfree
  intro i hi q hq
  simp only [List.mem_cons, List.not_mem_nil, or_false, not_or] at hi
  obtain ⟨p, hp, rfl⟩ := (hrelocated.names q i).mp hq
  have hnotOld : ∀ c, p ++ [c] ≠ oldDir ++ [oldName] := by
    intro c heq
    obtain ⟨rfl, _⟩ := List.append_inj' heq rfl
    rw [hold] at hp
    exact hi.1 (Option.some.inj hp).symm
  have hnotNew : ∀ c, ¬ newDir ++ [newName] <+: p ++ [c] := by
    intro c hprefix
    rcases List.prefix_concat_iff.mp hprefix with heq | hprefix
    · obtain ⟨rfl, _⟩ := List.append_inj' heq rfl
      rw [hnew] at hp
      exact hi.2 (Option.some.inj hp).symm
    · exact not_under_of_named hfree hp hprefix
  refine ⟨p, hp, staticDirectoryEntries_congr hwf (moveTree_indexed hwf.indexed) hp hq (fun c => ?_) ?_ ?_⟩
  · apply Option.ext
    intro j
    rw [hrelocated.names]
    constructor
    · rintro ⟨p', hp', heq⟩
      rw [← Subtree.move_concat (hnotOld c)] at heq
      rw [Subtree.move_inj (hnotNew c) (not_under_of_named hfree hp') heq]
      exact hp'
    · intro hc
      exact ⟨p ++ [c], hc, (Subtree.move_concat (hnotOld c)).symm⟩
  · exact .of_eq (by rw [hrelocated.inodes])
  · intro _ _ _
    exact .of_eq (by rw [hrelocated.inodes])

end SameListings

end VirtualFileSystem

end Mcr.Vfs
