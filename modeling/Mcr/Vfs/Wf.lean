import Mcr.Vfs.Op
import Mcr.Lib.Subtree

/-!
# What holds of every path tree

`PathTree.Wf` says how the tables of a tree belong together. The lemmas of this module say for each
primitive change of the tables what it does to lookups, and when it keeps the tree well formed. The index
of children needs no condition: every change writes it along with the names.
-/

namespace Mcr.Vfs

namespace PathTree

/-- The index entry of a name in a directory. -/
def childAt (tree : PathTree) (path : GuestPath) (name : String) : Option InodeId :=
  (tree.children.get? path).bind (·.get? name)

def Indexed (tree : PathTree) : Prop := ∀ path name, tree.childAt path name = tree.nodes.get? (path ++ [name])

def IsDir (tree : PathTree) (path : GuestPath) : Prop := ∃ node, tree.lookupPath path = some node ∧ node.isDirectory = true

structure Wf (tree : PathTree) : Prop where
  ids : ∀ i node, tree.inodes.get? i = some node → node.inodeId = i
  named : ∀ path i, tree.nodes.get? path = some i → ∃ node, tree.inodes.get? i = some node
  parents : ∀ path name i, tree.nodes.get? (path ++ [name]) = some i → tree.IsDir path
  indexed : tree.Indexed
  unique : ∀ p q i node, tree.nodes.get? p = some i → tree.nodes.get? q = some i →
    tree.inodes.get? i = some node → node.isDirectory = true → p = q

/-! ### Lookups after a change -/

@[simp] theorem parent_concat (path : GuestPath) (name : String) :
    GuestPath.parent (path ++ [name]) = some path := by
  simp [GuestPath.parent]

@[simp] theorem fileName_concat (path : GuestPath) (name : String) :
    GuestPath.fileName (path ++ [name]) = some name := by
  simp [GuestPath.fileName]

section Lookups

variable (tree : PathTree) (path : GuestPath) (i : InodeId)

@[simp] theorem indexChild_nodes : (tree.indexChild path i).nodes = tree.nodes := by
  unfold indexChild
  split <;> rfl

@[simp] theorem indexChild_inodes : (tree.indexChild path i).inodes = tree.inodes := by
  unfold indexChild
  split <;> rfl

@[simp] theorem indexChild_nextInodeId : (tree.indexChild path i).nextInodeId = tree.nextInodeId := by
  unfold indexChild
  split <;> rfl

@[simp] theorem unindexChild_nodes : (tree.unindexChild path).nodes = tree.nodes := by
  unfold unindexChild
  split <;> rfl

@[simp] theorem unindexChild_inodes : (tree.unindexChild path).inodes = tree.inodes := by
  unfold unindexChild
  split <;> rfl

@[simp] theorem unindexChild_nextInodeId : (tree.unindexChild path).nextInodeId = tree.nextInodeId := by
  unfold unindexChild
  split <;> rfl

theorem childAt_indexChild (p : GuestPath) (name : String) :
    (tree.indexChild path i).childAt p name = if p ++ [name] = path then some i else tree.childAt p name := by
  rcases List.eq_nil_or_concat' path with rfl | ⟨dir, last, rfl⟩
  · simp [indexChild, GuestPath.parent]
  · simp only [indexChild, parent_concat, fileName_concat, childAt, SortedMap.get?_insert]
    by_cases hp : p = dir
    · subst hp
      cases hnames : tree.children.get? p <;> by_cases hname : name = last <;> simp [hname]
    · simp [hp]

theorem get?_of_entries_isEmpty {names : SortedMap String InodeId} (h : names.entries.isEmpty = true)
    (name : String) : names.get? name = none := by
  rw [SortedMap.get?, List.isEmpty_iff.mp h]
  rfl

theorem childAt_unindexChild (p : GuestPath) (name : String) :
    (tree.unindexChild path).childAt p name = if p ++ [name] = path then none else tree.childAt p name := by
  rcases List.eq_nil_or_concat' path with rfl | ⟨dir, last, rfl⟩
  · simp [unindexChild, GuestPath.parent]
  · simp only [unindexChild, parent_concat, fileName_concat, childAt, withoutName]
    by_cases hp : p = dir
    · subst hp
      cases hnames : tree.children.get? p with
      | none => simp [hnames]
      | some names =>
          by_cases hempty : (names.erase last).entries.isEmpty = true
          · have hnone := get?_of_entries_isEmpty hempty name
            rw [SortedMap.get?_erase] at hnone
            simp only [if_pos hempty, SortedMap.get?_erase]
            by_cases hname : name = last
            · simp [hname]
            · rw [if_neg hname] at hnone
              simp [hname, hnone]
          · simp only [if_neg hempty, SortedMap.get?_insert]
            by_cases hname : name = last <;> simp [hname]
    · split
      · simp [hp]
      · split <;> simp [hp]

end Lookups

theorem Indexed.addLink {tree : PathTree} (h : tree.Indexed) (path : GuestPath) (i : InodeId) :
    (tree.addLink path i).Indexed := by
  intro p name
  rw [PathTree.addLink, childAt_indexChild, indexChild_nodes, SortedMap.get?_insert]
  split
  · rfl
  · exact h p name

theorem Indexed.addNode {tree : PathTree} (h : tree.Indexed) (path : GuestPath) (node : PathNode) :
    (tree.addNode path node).Indexed := by
  intro p name
  rw [PathTree.addNode, childAt_indexChild, indexChild_nodes, SortedMap.get?_insert]
  split
  · rfl
  · exact h p name

theorem Indexed.dropPath {tree : PathTree} (h : tree.Indexed) (path : GuestPath) :
    (tree.dropPath path).Indexed := by
  intro p name
  rw [PathTree.dropPath, childAt_unindexChild, unindexChild_nodes, SortedMap.get?_erase]
  split
  · rfl
  · exact h p name

theorem isEmptyDirectory_iff {tree : PathTree} (h : tree.Indexed) (path : GuestPath) :
    tree.isEmptyDirectory path = true ↔ ∀ name, tree.nodes.get? (path ++ [name]) = none := by
  have hchild : ∀ name, tree.nodes.get? (path ++ [name]) = (tree.children.get? path).bind (·.get? name) :=
    fun name => (h path name).symm
  simp only [hchild, isEmptyDirectory]
  cases tree.children.get? path with
  | none => simp
  | some names =>
      constructor
      · intro hempty name
        exact get?_of_entries_isEmpty hempty name
      · intro hnone
        rw [List.isEmpty_iff, List.eq_nil_iff_forall_not_mem]
        intro entry hentry
        have hget := hnone entry.1
        simp only [Option.bind_some] at hget
        rw [SortedMap.get?_eq_some_iff.mpr hentry] at hget
        nomatch hget

theorem lookupPath_eq_some {tree : PathTree} {path : GuestPath} {node : PathNode} :
    tree.lookupPath path = some node ↔
      ∃ i, tree.nodes.get? path = some i ∧ tree.inodes.get? i = some node := by
  simp [lookupPath, Option.bind_eq_some_iff]

/-! ### Changes that keep a tree well formed -/

namespace Wf

variable {tree : PathTree}

theorem lookupPath_eq_none_iff (h : tree.Wf) {path : GuestPath} :
    tree.lookupPath path = none ↔ tree.nodes.get? path = none := by
  constructor
  · intro hlookup
    by_contra hnode
    obtain ⟨i, hi⟩ := Option.ne_none_iff_exists'.mp hnode
    obtain ⟨node, hinode⟩ := h.named path i hi
    rw [lookupPath, hi, Option.bind_some, hinode] at hlookup
    nomatch hlookup
  · intro hnode
    rw [lookupPath, hnode]
    rfl

theorem below (h : tree.Wf) {path rest : GuestPath} {i : InodeId} (hrest : rest ≠ [])
    (hi : tree.nodes.get? (path ++ rest) = some i) :
    tree.IsDir path ∧ ∃ name j, tree.nodes.get? (path ++ [name]) = some j := by
  induction rest using List.reverseRecOn generalizing i with
  | nil => exact absurd rfl hrest
  | append_singleton rest name ih =>
      rw [← List.append_assoc] at hi
      have hdir := h.parents _ _ _ hi
      by_cases hnil : rest = []
      · subst hnil
        rw [List.append_nil] at hdir hi
        exact ⟨hdir, name, i, hi⟩
      · obtain ⟨node, hlookup, _⟩ := hdir
        obtain ⟨j, hj, _⟩ := lookupPath_eq_some.mp hlookup
        exact ih hnil hj

theorem nothing_below (h : tree.Wf) {path rest : GuestPath} (hrest : rest ≠ [])
    (hempty : ¬ tree.IsDir path ∨ tree.isEmptyDirectory path = true) :
    tree.nodes.get? (path ++ rest) = none := by
  by_contra hsome
  obtain ⟨i, hi⟩ := Option.ne_none_iff_exists'.mp hsome
  obtain ⟨hdir, name, j, hj⟩ := h.below hrest hi
  rcases hempty with hnot | hempty
  · exact hnot hdir
  · rw [(isEmptyDirectory_iff h.indexed path).mp hempty name] at hj
    nomatch hj

theorem of_tables {tree' : PathTree} (h : tree.Wf) (hnodes : tree'.nodes = tree.nodes)
    (hinodes : tree'.inodes = tree.inodes) (hchildren : tree'.children = tree.children) : tree'.Wf := by
  obtain ⟨nodes, inodes, children, next⟩ := tree
  obtain ⟨nodes', inodes', children', next'⟩ := tree'
  simp only at hnodes hinodes hchildren
  subst hnodes hinodes hchildren
  exact ⟨h.ids, h.named, h.parents, h.indexed, h.unique⟩

theorem setInode (h : tree.Wf) {i : InodeId} {node node' : PathNode} (hi : tree.inodes.get? i = some node)
    (hid : node'.inodeId = node.inodeId) (hdir : node'.isDirectory = node.isDirectory) :
    Wf { tree with inodes := tree.inodes.insert i node' } := by
  constructor
  · intro j n hj
    simp only [SortedMap.get?_insert] at hj
    split at hj
    · rename_i heq
      cases hj
      rw [hid, heq]
      exact h.ids i node hi
    · exact h.ids j n hj
  · intro path j hj
    simp only [SortedMap.get?_insert]
    split
    · exact ⟨node', rfl⟩
    · exact h.named path j hj
  · intro path name j hj
    obtain ⟨n, hlookup, hn⟩ := h.parents path name j hj
    obtain ⟨k, hk, hkn⟩ := lookupPath_eq_some.mp hlookup
    by_cases heq : k = i
    · subst heq
      rw [hi] at hkn
      cases hkn
      refine ⟨node', lookupPath_eq_some.mpr ⟨k, hk, ?_⟩, hdir.trans hn⟩
      simp
    · refine ⟨n, lookupPath_eq_some.mpr ⟨k, hk, ?_⟩, hn⟩
      simp [heq, hkn]
  · exact h.indexed
  · intro p q j n hp hq hj hn
    simp only [SortedMap.get?_insert] at hj
    split at hj
    · rename_i heq
      cases hj
      exact h.unique p q j node hp hq (heq ▸ hi) (hdir ▸ hn)
    · exact h.unique p q j n hp hq hj hn

theorem addNode_nodes (path : GuestPath) (node : PathNode) (p : GuestPath) :
    (tree.addNode path node).nodes.get? p = if p = path then some node.inodeId else tree.nodes.get? p := by
  simp [PathTree.addNode]

theorem addNode_inodes (path : GuestPath) (node : PathNode) (i : InodeId) :
    (tree.addNode path node).inodes.get? i = if i = node.inodeId then some node else tree.inodes.get? i := by
  simp [PathTree.addNode]

theorem addNode (h : tree.Wf) {dir : GuestPath} {name : String} {node : PathNode} (hdir : tree.IsDir dir)
    (hnew : tree.nodes.get? (dir ++ [name]) = none)
    (hid : ∀ old, tree.inodes.get? node.inodeId = some old → old.isDirectory = false ∧ node.isDirectory = false) :
    (tree.addNode (dir ++ [name]) node).Wf := by
  -- directories named before are still there
  have hkeep : ∀ p, tree.IsDir p → (tree.addNode (dir ++ [name]) node).IsDir p := by
    rintro p ⟨n, hlookup, hn⟩
    obtain ⟨i, hi, hin⟩ := lookupPath_eq_some.mp hlookup
    refine ⟨n, lookupPath_eq_some.mpr ⟨i, ?_, ?_⟩, hn⟩
    · rw [addNode_nodes, if_neg (by rintro rfl; rw [hnew] at hi; nomatch hi)]
      exact hi
    · rw [addNode_inodes, if_neg (by rintro rfl; rw [(hid n hin).1] at hn; nomatch hn)]
      exact hin
  constructor
  · intro i n hi
    rw [addNode_inodes] at hi
    split at hi
    · cases hi
      exact Eq.symm ‹_›
    · exact h.ids i n hi
  · intro p i hi
    rw [addNode_nodes] at hi
    simp only [addNode_inodes]
    split
    · exact ⟨node, rfl⟩
    · split at hi
      · cases hi
        contradiction
      · exact h.named p i hi
  · intro p c i hi
    rw [addNode_nodes] at hi
    split at hi
    · rename_i heq
      rw [(List.append_inj' heq rfl).1]
      exact hkeep dir hdir
    · exact hkeep p (h.parents p c i hi)
  · exact h.indexed.addNode _ _
  · intro p q i n hp hq hi hn
    rw [addNode_nodes] at hp hq
    rw [addNode_inodes] at hi
    split at hi
    · -- only the new name leads to a new directory
      rename_i heq
      cases hi
      have hfresh : ∀ old, tree.inodes.get? i ≠ some old := by
        intro old hold
        have hfile := (hid old (heq ▸ hold)).2
        rw [hn] at hfile
        nomatch hfile
      have hnone : ∀ p, tree.nodes.get? p ≠ some i := by
        intro p hp
        obtain ⟨old, hold⟩ := h.named p i hp
        exact hfresh old hold
      split at hp
      · split at hq
        · rename_i hp' hq'
          rw [hp', hq']
        · exact absurd hq (hnone q)
      · exact absurd hp (hnone p)
    · rename_i hne
      split at hp
      · cases hp
        exact absurd rfl hne
      · split at hq
        · cases hq
          exact absurd rfl hne
        · exact h.unique p q i n hp hq hi hn

theorem addLink_nodes (path : GuestPath) (i : InodeId) (p : GuestPath) :
    (tree.addLink path i).nodes.get? p = if p = path then some i else tree.nodes.get? p := by
  simp [PathTree.addLink]

@[simp] theorem addLink_inodes (path : GuestPath) (i : InodeId) :
    (tree.addLink path i).inodes = tree.inodes := by
  simp [PathTree.addLink]

theorem addLink (h : tree.Wf) {dir : GuestPath} {name : String} {i : InodeId} {node : PathNode}
    (hdir : tree.IsDir dir) (hnew : tree.nodes.get? (dir ++ [name]) = none)
    (hi : tree.inodes.get? i = some node) (hnode : node.isDirectory = false) :
    (tree.addLink (dir ++ [name]) i).Wf := by
  have hkeep : ∀ p, tree.IsDir p → (tree.addLink (dir ++ [name]) i).IsDir p := by
    rintro p ⟨n, hlookup, hn⟩
    obtain ⟨j, hj, hjn⟩ := lookupPath_eq_some.mp hlookup
    refine ⟨n, lookupPath_eq_some.mpr ⟨j, ?_, ?_⟩, hn⟩
    · rw [addLink_nodes, if_neg (by rintro rfl; rw [hnew] at hj; nomatch hj)]
      exact hj
    · rw [addLink_inodes]
      exact hjn
  constructor
  · simpa using h.ids
  · intro p j hj
    rw [addLink_nodes] at hj
    rw [addLink_inodes]
    split at hj
    · cases hj
      exact ⟨node, hi⟩
    · exact h.named p j hj
  · intro p c j hj
    rw [addLink_nodes] at hj
    split at hj
    · rename_i heq
      rw [(List.append_inj' heq rfl).1]
      exact hkeep dir hdir
    · exact hkeep p (h.parents p c j hj)
  · exact h.indexed.addLink _ _
  · intro p q j n hp hq hj hn
    rw [addLink_nodes] at hp hq
    rw [addLink_inodes] at hj
    have hne : j ≠ i := by
      rintro rfl
      rw [hi] at hj
      cases hj
      rw [hn] at hnode
      nomatch hnode
    split at hp
    · exact absurd (Option.some.inj hp).symm hne
    · split at hq
      · exact absurd (Option.some.inj hq).symm hne
      · exact h.unique p q j n hp hq hj hn

theorem dropPath_nodes (path p : GuestPath) :
    (tree.dropPath path).nodes.get? p = if p = path then none else tree.nodes.get? p := by
  simp [PathTree.dropPath]

@[simp] theorem dropPath_inodes (path : GuestPath) : (tree.dropPath path).inodes = tree.inodes := by
  simp [PathTree.dropPath]

theorem dropPath (h : tree.Wf) {path : GuestPath} (hleaf : ∀ name, tree.nodes.get? (path ++ [name]) = none) :
    (tree.dropPath path).Wf := by
  constructor
  · simpa using h.ids
  · intro p i hi
    rw [dropPath_nodes] at hi
    rw [dropPath_inodes]
    split at hi
    · nomatch hi
    · exact h.named p i hi
  · intro p c i hi
    rw [dropPath_nodes] at hi
    split at hi
    · nomatch hi
    · obtain ⟨n, hlookup, hn⟩ := h.parents p c i hi
      obtain ⟨j, hj, hjn⟩ := lookupPath_eq_some.mp hlookup
      refine ⟨n, lookupPath_eq_some.mpr ⟨j, ?_, ?_⟩, hn⟩
      · rw [dropPath_nodes, if_neg (by rintro rfl; rw [hleaf c] at hi; nomatch hi)]
        exact hj
      · rw [dropPath_inodes]
        exact hjn
  · exact h.indexed.dropPath _
  · intro p q i n hp hq hi hn
    rw [dropPath_nodes] at hp hq
    rw [dropPath_inodes] at hi
    split at hp
    · nomatch hp
    · split at hq
      · nomatch hq
      · exact h.unique p q i n hp hq hi hn

theorem removeInode (h : tree.Wf) {i : InodeId} (hno : ∀ p, tree.nodes.get? p ≠ some i) :
    (tree.removeInode i).Wf := by
  have hget : ∀ j, j ≠ i → (tree.removeInode i).inodes.get? j = tree.inodes.get? j := by
    intro j hj
    simp [PathTree.removeInode, hj]
  constructor
  · intro j n hj
    by_cases hji : j = i
    · subst hji
      simp [PathTree.removeInode] at hj
    · exact h.ids j n (hget j hji ▸ hj)
  · intro p j hj
    rw [hget j (by rintro rfl; exact hno p hj)]
    exact h.named p j hj
  · intro p c j hj
    obtain ⟨n, hlookup, hn⟩ := h.parents p c j hj
    obtain ⟨k, hk, hkn⟩ := lookupPath_eq_some.mp hlookup
    refine ⟨n, lookupPath_eq_some.mpr ⟨k, hk, ?_⟩, hn⟩
    rw [hget k (by rintro rfl; exact hno p hk)]
    exact hkn
  · exact h.indexed
  · intro p q j n hp hq hj hn
    rw [hget j (by rintro rfl; exact hno p hp)] at hj
    exact h.unique p q j n hp hq hj hn

theorem replacePathNode_nodes (path : GuestPath) (node : PathNode) (p : GuestPath) :
    (tree.replacePathNode path node).nodes.get? p = if p = path then some node.inodeId else tree.nodes.get? p := by
  simp [PathTree.replacePathNode]

theorem replacePathNode_inodes {path : GuestPath} {e : InodeId} (he : tree.nodes.get? path = some e)
    (node : PathNode) (i : InodeId) :
    (tree.replacePathNode path node).inodes.get? i =
      if i = node.inodeId then some node else if i = e then none else tree.inodes.get? i := by
  simp [PathTree.replacePathNode, he]

theorem replacePathNode (h : tree.Wf) {path : GuestPath} {node : PathNode} (hdir : tree.IsDir path)
    (hnode : node.isDirectory = true) (hid : tree.inodes.get? node.inodeId = none) :
    (tree.replacePathNode path node).Wf := by
  obtain ⟨old, hlookup, hold⟩ := hdir
  obtain ⟨e, he, hein⟩ := lookupPath_eq_some.mp hlookup
  have hunnamed : ∀ p, tree.nodes.get? p ≠ some node.inodeId := by
    intro p hp
    obtain ⟨n, hn⟩ := h.named p _ hp
    rw [hid] at hn
    nomatch hn
  have honly : ∀ p, p ≠ path → tree.nodes.get? p ≠ some e := by
    intro p hne hp
    exact hne (h.unique p path e old hp he hein hold)
  have hkeep : ∀ p, tree.IsDir p → (tree.replacePathNode path node).IsDir p := by
    rintro p ⟨n, hp, hn⟩
    obtain ⟨i, hi, hin⟩ := lookupPath_eq_some.mp hp
    by_cases heq : p = path
    · refine ⟨node, lookupPath_eq_some.mpr ⟨node.inodeId, ?_, ?_⟩, hnode⟩
      · rw [replacePathNode_nodes, if_pos heq]
      · rw [replacePathNode_inodes he, if_pos rfl]
    · refine ⟨n, lookupPath_eq_some.mpr ⟨i, ?_, ?_⟩, hn⟩
      · rw [replacePathNode_nodes, if_neg heq]
        exact hi
      · rw [replacePathNode_inodes he, if_neg (by rintro rfl; exact hunnamed p hi),
          if_neg (by rintro rfl; exact honly p heq hi)]
        exact hin
  constructor
  · intro i n hi
    rw [replacePathNode_inodes he] at hi
    split at hi
    · cases hi
      exact Eq.symm ‹_›
    · split at hi
      · nomatch hi
      · exact h.ids i n hi
  · intro p i hi
    rw [replacePathNode_nodes] at hi
    rw [replacePathNode_inodes he]
    split at hi
    · cases hi
      exact ⟨node, if_pos rfl⟩
    · rename_i hne
      rw [if_neg (by rintro rfl; exact hunnamed p hi), if_neg (by rintro rfl; exact honly p hne hi)]
      exact h.named p i hi
  · intro p c i hi
    rw [replacePathNode_nodes] at hi
    split at hi
    · rename_i heq
      exact hkeep p (h.parents p c e (heq ▸ he))
    · exact hkeep p (h.parents p c i hi)
  · intro p c
    rw [replacePathNode_nodes]
    show ((tree.replacePathNode path node).children.get? p).bind (·.get? c) = _
    have hchild := childAt_indexChild
      ⟨tree.nodes.insert path node.inodeId, tree.inodes.erase e, tree.children, tree.nextInodeId⟩
      path node.inodeId p c
    unfold PathTree.replacePathNode
    rw [he]
    refine hchild.trans ?_
    split
    · rfl
    · exact h.indexed p c
  · intro p q i n hp hq hi hn
    rw [replacePathNode_nodes] at hp hq
    rw [replacePathNode_inodes he] at hi
    split at hp
    · cases hp
      split at hq
      · rename_i hp' hq'
        rw [hp', hq']
      · exact absurd hq (hunnamed q)
    · rename_i hne
      split at hq
      · cases hq
        exact absurd hp (hunnamed p)
      · rw [if_neg (by rintro rfl; exact hunnamed p hp), if_neg (by rintro rfl; exact honly p hne hp)] at hi
        exact h.unique p q i n hp hq hi hn

end Wf

/-! ### Several names at once -/

theorem removePathLink_run {tree : PathTree} {path : GuestPath} {i : InodeId}
    (hi : tree.nodes.get? path = some i) : removePathLink path tree = (.ok i, tree.dropPath path) := by
  simp [removePathLink, hi, okOr, Prog.get, Prog.modify, Prog.ofExcept, bind, pure]

theorem insertLink_run {tree : PathTree} {path : GuestPath} {i : InodeId} {node : PathNode}
    (hnew : tree.nodes.get? path = none) (hi : tree.inodes.get? i = some node) :
    insertLink path i tree = (.ok (), tree.addLink path i) := by
  simp [insertLink, hnew, hi, failIf, Prog.get, Prog.modify, Prog.ofExcept, bind, pure]

def dropPaths (tree : PathTree) (paths : List GuestPath) : PathTree := paths.foldl PathTree.dropPath tree

def addLinks (tree : PathTree) (updates : List (GuestPath × InodeId)) : PathTree :=
  updates.foldl (fun tree update => tree.addLink update.1 update.2) tree

theorem dropPaths_nodes (paths : List GuestPath) (tree : PathTree) (p : GuestPath) :
    (tree.dropPaths paths).nodes.get? p = if p ∈ paths then none else tree.nodes.get? p := by
  induction paths generalizing tree with
  | nil => simp [dropPaths]
  | cons path rest ih =>
      rw [dropPaths, List.foldl_cons, ← dropPaths, ih, Wf.dropPath_nodes]
      by_cases hrest : p ∈ rest
      · simp [hrest]
      · by_cases hpath : p = path <;> simp [hrest, hpath]

@[simp] theorem dropPaths_inodes (paths : List GuestPath) (tree : PathTree) :
    (tree.dropPaths paths).inodes = tree.inodes := by
  induction paths generalizing tree with
  | nil => rfl
  | cons path rest ih => rw [dropPaths, List.foldl_cons, ← dropPaths, ih, Wf.dropPath_inodes]

theorem Indexed.dropPaths {tree : PathTree} (h : tree.Indexed) (paths : List GuestPath) :
    (tree.dropPaths paths).Indexed := by
  induction paths generalizing tree with
  | nil => exact h
  | cons path rest ih => exact ih (h.dropPath path)

@[simp] theorem addLinks_inodes (updates : List (GuestPath × InodeId)) (tree : PathTree) :
    (tree.addLinks updates).inodes = tree.inodes := by
  induction updates generalizing tree with
  | nil => rfl
  | cons update rest ih => rw [addLinks, List.foldl_cons, ← addLinks, ih, Wf.addLink_inodes]

theorem Indexed.addLinks {tree : PathTree} (h : tree.Indexed) (updates : List (GuestPath × InodeId)) :
    (tree.addLinks updates).Indexed := by
  induction updates generalizing tree with
  | nil => exact h
  | cons update rest ih => exact ih (h.addLink update.1 update.2)

theorem addLinks_nodes {updates : List (GuestPath × InodeId)} (hnodup : (updates.map Prod.fst).Nodup)
    (tree : PathTree) {p : GuestPath} {i : InodeId} :
    (tree.addLinks updates).nodes.get? p = some i ↔
      (p, i) ∈ updates ∨ p ∉ updates.map Prod.fst ∧ tree.nodes.get? p = some i := by
  have hnodes : ∀ (updates : List (GuestPath × InodeId)) (tree : PathTree),
      (tree.addLinks updates).nodes = updates.foldl (fun m e => m.insert e.1 e.2) tree.nodes := by
    intro updates
    induction updates with
    | nil => intro tree; rfl
    | cons update rest ih =>
        intro tree
        rw [addLinks, List.foldl_cons, ← addLinks, ih, List.foldl_cons]
        simp [PathTree.addLink]
  rw [hnodes, SortedMap.get?_foldl_insert hnodup]

theorem takeLinks_run {paths : List GuestPath} (hnodup : paths.Nodup) {tree : PathTree} (old new : GuestPath)
    (hnamed : ∀ p ∈ paths, ∃ i, tree.nodes.get? p = some i) :
    VirtualFileSystem.takeLinks paths old new tree =
      (.ok (paths.map fun p => (replacePrefix p old new, (tree.nodes.get? p).getD 0)), tree.dropPaths paths) := by
  unfold VirtualFileSystem.takeLinks
  induction paths generalizing tree with
  | nil => rfl
  | cons path rest ih =>
      rw [List.nodup_cons] at hnodup
      obtain ⟨i, hi⟩ := hnamed path (by simp)
      have hsame : ∀ p ∈ rest, (tree.dropPath path).nodes.get? p = tree.nodes.get? p := by
        intro p hp
        rw [Wf.dropPath_nodes, if_neg (by rintro rfl; exact hnodup.1 hp)]
      have hnamed' : ∀ p ∈ rest, ∃ i, (tree.dropPath path).nodes.get? p = some i := by
        intro p hp
        rw [hsame p hp]
        exact hnamed p (List.mem_cons_of_mem _ hp)
      have hrest := ih hnodup.2 hnamed'
      have hmap : (rest.map fun p => (replacePrefix p old new, ((tree.dropPath path).nodes.get? p).getD 0)) =
          rest.map fun p => (replacePrefix p old new, (tree.nodes.get? p).getD 0) :=
        List.map_congr_left fun p hp => by rw [hsame p hp]
      rw [Prog.collect, Prog.run_bind_ok (a := (replacePrefix path old new, i)) (t := tree.dropPath path),
        Prog.run_bind_ok hrest]
      · rw [List.map_cons, hi, hmap]
        rfl
      · rw [Prog.run_bind_ok (removePathLink_run hi)]
        rfl

theorem putLinks_run {updates : List (GuestPath × InodeId)} (hnodup : (updates.map Prod.fst).Nodup)
    {tree : PathTree} (hnew : ∀ u ∈ updates, tree.nodes.get? u.1 = none)
    (hnode : ∀ u ∈ updates, ∃ node, tree.inodes.get? u.2 = some node) :
    VirtualFileSystem.putLinks updates tree = (.ok (), tree.addLinks updates) := by
  unfold VirtualFileSystem.putLinks
  induction updates generalizing tree with
  | nil => rfl
  | cons update rest ih =>
      rw [List.map_cons, List.nodup_cons] at hnodup
      obtain ⟨node, hn⟩ := hnode update (by simp)
      rw [Prog.forEach, Prog.run_bind_ok (insertLink_run (hnew update (by simp)) hn),
        ih hnodup.2]
      · rfl
      · intro u hu
        rw [Wf.addLink_nodes, if_neg]
        · exact hnew u (List.mem_cons_of_mem _ hu)
        · intro heq
          exact hnodup.1 (heq ▸ List.mem_map_of_mem hu)
      · intro u hu
        rw [Wf.addLink_inodes]
        exact hnode u (List.mem_cons_of_mem _ hu)

end PathTree

end Mcr.Vfs
