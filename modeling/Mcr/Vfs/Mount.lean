import Mcr.Vfs.NameCalls

/-!
# The calls that build a tree

`tree_mut` hands out the tree to the calls that create nodes one by one, and the mounts create several.
Each leaves a tree that has grown, whether it returns or fails. The mounts use fixed ids: each node finds
its id free, because the ids are distinct and were free before.
-/

namespace Mcr.Vfs

open Prog

namespace PathTree

variable {tree : PathTree}

theorem Grows.wf {tree' : PathTree} (h : tree.Grows tree') (hwf : tree.Wf) : tree'.Wf := by
  cases h with
  | allocate => exact allocated_wf hwf
  | node hdir hnew hid =>
      refine hwf.addNode hdir hnew fun old hold => ?_
      rw [hid] at hold
      nomatch hold
  | replace hdir hnode hid => exact hwf.replacePathNode hdir hnode hid
  | change hnode hsame => exact hwf.setInode hnode hsame.inodeId hsame.isDirectory

theorem Grown.wf {tree' : PathTree} (h : tree.Grown tree') (hwf : tree.Wf) : tree'.Wf := by
  induction h with
  | refl => exact hwf
  | tail _ hstep ih => exact hstep.wf ih

/-! ### Single nodes -/

theorem creationPath_spec (path : String) :
    wp (creationPath path)
      (fun place tree' => tree' = tree ∧ ∃ dir name, place = dir ++ [name] ∧ tree.IsDir dir)
      (fun _ tree' => tree' = tree) tree := by
  unfold creationPath
  rw [wp_bind, wp_get]
  apply wp_check
  · intro _ _
    rfl
  intro place hplace
  obtain ⟨place', _, hplace⟩ := except_bind_eq_ok.mp hplace
  obtain ⟨_, hparent, hplace⟩ := except_bind_eq_ok.mp hplace
  cases hplace
  exact ⟨rfl, ensureParentDir_ok hparent⟩

theorem newNode_spec {dir : GuestPath} {name : String} (hdir : tree.IsDir dir) (hfresh : tree.FreshId)
    {node : InodeId → PathNode} (hid : ∀ i, (node i).inodeId = i) :
    wp (do
        let inodeId ← allocateInodeId
        insertPathNode (dir ++ [name]) (node inodeId)
        pure inodeId)
      (fun _ tree' => tree.Grown tree') (fun _ tree' => tree.Grown tree') tree := by
  rw [wp_bind]
  refine wp_of_run allocateInodeId_run ?_
  have hallocated : tree.Grown tree.allocated := .single .allocate
  unfold insertPathNode
  rw [wp_bind, wp_bind, wp_get, wp_bind]
  apply wp_check
  · intro _ _
    exact hallocated
  intro _ hnew
  rw [failIf_eq_ok] at hnew
  rw [wp_modify, wp_pure]
  refine hallocated.tail (.node hdir (by simpa using hnew) ?_)
  rw [hid]
  exact hfresh

theorem insertNode_spec {dir : GuestPath} {name : String} (hdir : tree.IsDir dir) (hfresh : tree.FreshId)
    (kind : PathNodeKind) (mode : UInt32) :
    wp (insertNode (dir ++ [name]) kind mode) (fun _ tree' => tree.Grown tree')
      (fun _ tree' => tree.Grown tree') tree := by
  unfold insertNode
  rw [wp_bind, wp_get, wp_bind]
  apply wp_check
  · intro _ _
    exact .refl
  intro _ _
  exact newNode_spec hdir hfresh fun _ => rfl

theorem created_spec {α : Type} (path : String) (create : GuestPath → Call α)
    (hcreate : ∀ dir name, tree.IsDir dir → wp (create (dir ++ [name])) (fun _ tree' => tree.Grown tree')
      (fun _ tree' => tree.Grown tree') tree) :
    wp (do let _ ← creationPath path >>= create)
      (fun _ tree' => tree.Grown tree') (fun _ tree' => tree.Grown tree') tree := by
  rw [wp_bind, wp_bind]
  refine wp_mono (creationPath_spec path) ?_ (fun _ _ h => h ▸ .refl)
  rintro _ _ ⟨rfl, dir, name, rfl, hdir⟩
  exact wp_mono (hcreate dir name hdir) (fun _ _ h => (wp_pure _).mpr h) (fun _ _ h => h)

/-! ### Lookups that a new node does not disturb -/

theorem addNode_lookupPath_self (path : GuestPath) (node : PathNode) :
    (tree.addNode path node).lookupPath path = some node := by
  rw [lookupPath, Wf.addNode_nodes, if_pos rfl, Option.bind_some, Wf.addNode_inodes, if_pos rfl]

theorem replacePathNode_lookupPath_self {path : GuestPath} {e : InodeId} (he : tree.nodes.get? path = some e)
    (node : PathNode) : (tree.replacePathNode path node).lookupPath path = some node := by
  rw [lookupPath, Wf.replacePathNode_nodes, if_pos rfl, Option.bind_some, Wf.replacePathNode_inodes he, if_pos rfl]

theorem addNode_lookupPath (hwf : tree.Wf) {path : GuestPath} {node : PathNode}
    (hid : tree.inodes.get? node.inodeId = none) {p : GuestPath} (hp : p ≠ path) :
    (tree.addNode path node).lookupPath p = tree.lookupPath p := by
  unfold lookupPath
  rw [Wf.addNode_nodes, if_neg hp]
  cases hi : tree.nodes.get? p with
  | none => rfl
  | some i =>
      obtain ⟨old, hold⟩ := hwf.named p i hi
      rw [Option.bind_some, Option.bind_some, Wf.addNode_inodes, if_neg]
      rintro rfl
      rw [hid] at hold
      nomatch hold

theorem replacePathNode_lookupPath (hwf : tree.Wf) {path : GuestPath} {node : PathNode} (hdir : tree.IsDir path)
    (hid : tree.inodes.get? node.inodeId = none) {p : GuestPath} (hp : p ≠ path) :
    (tree.replacePathNode path node).lookupPath p = tree.lookupPath p := by
  obtain ⟨old, hlookup, hold⟩ := hdir
  obtain ⟨e, he, hein⟩ := lookupPath_eq_some.mp hlookup
  unfold lookupPath
  rw [Wf.replacePathNode_nodes, if_neg hp]
  cases hi : tree.nodes.get? p with
  | none => rfl
  | some i =>
      obtain ⟨n, hn⟩ := hwf.named p i hi
      rw [Option.bind_some, Option.bind_some, Wf.replacePathNode_inodes he, if_neg, if_neg]
      · rintro rfl
        exact hp (hwf.unique p path i old hi he hein hold)
      · rintro rfl
        rw [hid] at hn
        nomatch hn

theorem ensureParentDir_of_isDir {path dir : GuestPath} (hparent : path.parent = some dir) (hdir : tree.IsDir dir) :
    tree.ensureParentDir path = .ok () := by
  obtain ⟨node, hnode, hdirectory⟩ := hdir
  have hroot : path.isRoot = false := by
    cases path with
    | nil => cases hparent
    | cons _ _ => rfl
  simp [ensureParentDir, hroot, hparent, okOr, hnode, hdirectory, failIf]

theorem IsDir.of_lookupPath {tree' : PathTree} {dir : GuestPath} (h : tree.IsDir dir)
    (hsame : tree'.lookupPath dir = tree.lookupPath dir) : tree'.IsDir dir := by
  obtain ⟨node, hnode, hdirectory⟩ := h
  exact ⟨node, hsame.trans hnode, hdirectory⟩

/-! ### Devfs -/

/-- The nodes still to be mounted find their ids free. -/
def DevReady (tree : PathTree) (nodes : List DevNode) : Prop :=
  (nodes.map DevNode.inodeId).Nodup ∧ ∀ node ∈ nodes, ∀ path, parseAbsolutePath node.path = .ok path →
    tree.nodes.get? path = none → tree.inodes.get? node.inodeId = none

/-- What stands at the place of a node of devfs is that device. -/
def DevFits (tree : PathTree) (dev : DevNode) : Prop :=
  ∀ path old, parseAbsolutePath dev.path = .ok path → tree.lookupPath path = some old → old.kind = .device dev.kind

/-- Nothing stands in the way of devfs. -/
structure DevfsFits (tree : PathTree) : Prop where
  directory : tree.IsDir ["dev"] ∨ tree.lookupPath ["dev"] = none ∧ tree.IsDir []
  nodes : ∀ dev ∈ devNodes, tree.DevFits dev

theorem insertDevNode_spec (hwf : tree.Wf) {node : DevNode} {rest : List DevNode}
    (hready : tree.DevReady (node :: rest)) :
    wp (insertDevNode node.path node.inodeId node.kind)
      (fun _ tree' => tree.Grown tree' ∧ tree'.DevReady rest ∧ tree.DevFits node ∧
        ∀ p, parseAbsolutePath node.path ≠ .ok p → tree'.lookupPath p = tree.lookupPath p)
      (fun _ tree' => tree' = tree ∧ ∀ path dir, parseAbsolutePath node.path = .ok path → path.parent = some dir →
        tree.IsDir dir → ¬tree.DevFits node) tree := by
  obtain ⟨hnodup, hfree⟩ := hready
  rw [List.map_cons, List.nodup_cons] at hnodup
  have hrest : tree.DevReady rest := ⟨hnodup.2, fun d hd => hfree d (List.mem_cons_of_mem _ hd)⟩
  unfold insertDevNode
  rw [wp_bind]
  apply wp_check
  · intro _ herror
    refine ⟨rfl, fun path dir hpath => ?_⟩
    rw [herror] at hpath
    cases hpath
  intro path hpath
  have hfits : tree.DevFits node ↔ ∀ old, tree.lookupPath path = some old → old.kind = .device node.kind := by
    constructor
    · intro h old
      exact h path old hpath
    · intro h path' old hpath'
      rw [hpath] at hpath'
      cases hpath'
      exact h old
  rw [wp_bind, wp_get]
  cases hlookup : tree.lookupPath path with
  | some old =>
      rw [hlookup] at hfits
      apply wp_check
      · intro _ herror
        refine ⟨rfl, fun _ _ _ _ _ h => ?_⟩
        rw [failIf, if_neg (not_not.mpr (hfits.mp h old rfl))] at herror
        cases herror
      · intro _ hok
        rw [failIf_eq_ok, not_not] at hok
        refine ⟨.refl, hrest, hfits.mpr fun old' hold => ?_, fun _ _ => rfl⟩
        cases hold
        exact hok
  | none =>
      simp only
      rw [wp_bind]
      apply wp_check
      · intro _ herror
        refine ⟨rfl, fun path' dir hpath' hparent hdir => ?_⟩
        rw [hpath] at hpath'
        cases hpath'
        rw [ensureParentDir_of_isDir hparent hdir] at herror
        cases herror
      intro _ hparent
      obtain ⟨dir, name, rfl, hdir⟩ := ensureParentDir_ok hparent
      have hnew := hwf.lookupPath_eq_none_iff.mp hlookup
      have hid := hfree node (by simp) _ hpath hnew
      rw [hlookup] at hfits
      refine wp_of_run (insertPathNode_run _ hnew) ⟨.single (.node hdir hnew hid), ⟨hnodup.2, ?_⟩,
        hfits.mpr (fun _ hold => by cases hold), fun p hp => addNode_lookupPath hwf hid fun heq => hp (heq ▸ hpath)⟩
      intro d hd p hp hnone
      rw [Wf.addNode_nodes] at hnone
      split at hnone
      · cases hnone
      rw [Wf.addNode_inodes, if_neg]
      · exact hrest.2 d hd p hp hnone
      · intro heq
        exact hnodup.1 (List.mem_map.mpr ⟨d, hd, heq⟩)

/-- Where the mount of `tree` stands before the nodes `rest`: their places are as they were. -/
structure DevMounting (tree : PathTree) (rest : List DevNode) (tree' : PathTree) : Prop where
  grown : tree.Grown tree'
  ready : tree'.DevReady rest
  directory : tree'.IsDir ["dev"]
  nodes : ∀ dev ∈ rest, dev ∈ devNodes
  places : (rest.map fun dev => (parseAbsolutePath dev.path).toOption).Nodup
  same : ∀ dev ∈ rest, ∀ path, parseAbsolutePath dev.path = .ok path → tree'.lookupPath path = tree.lookupPath path
  fits : (∀ dev ∈ rest, tree.DevFits dev) → ∀ dev ∈ devNodes, tree.DevFits dev

theorem devNodes_parent : ∀ dev ∈ devNodes, ∀ path, parseAbsolutePath dev.path = .ok path →
    path.parent = some ["dev"] := by
  intro dev hdev path hpath
  have hall : ∀ dev ∈ devNodes, (parseAbsolutePath dev.path).toOption.bind GuestPath.parent = some ["dev"] := by
    decide +kernel
  have hparent := hall dev hdev
  rw [hpath] at hparent
  exact hparent

theorem DevMounting.next (hwf : tree.Wf) {node : DevNode} {rest : List DevNode} {tree' : PathTree}
    (h : tree.DevMounting (node :: rest) tree') :
    wp (insertDevNode node.path node.inodeId node.kind) (fun _ tree'' => tree.DevMounting rest tree'')
      (fun _ tree'' => tree.Grown tree'' ∧ ¬∀ dev ∈ devNodes, tree.DevFits dev) tree' := by
  obtain ⟨hgrown, hready, hdirectory, hnodes, hplaces, hsame, hfits⟩ := h
  rw [List.map_cons, List.nodup_cons] at hplaces
  have hnode : node ∈ devNodes := hnodes node (by simp)
  have hparse : ∃ path, parseAbsolutePath node.path = .ok path := by
    have hall : ∀ dev ∈ devNodes, (parseAbsolutePath dev.path).isOk := by decide +kernel
    have hok := hall node hnode
    cases hpath : parseAbsolutePath node.path with
    | ok path => exact ⟨path, rfl⟩
    | error _ =>
        rw [hpath] at hok
        cases hok
  obtain ⟨path, hpath⟩ := hparse
  have hparent := devNodes_parent node hnode path hpath
  have hfit : tree'.DevFits node ↔ tree.DevFits node := by
    constructor
    · intro h path old hpath hold
      exact h path old hpath ((hsame node (by simp) path hpath).trans hold)
    · intro h path old hpath hold
      exact h path old hpath ((hsame node (by simp) path hpath).symm.trans hold)
  refine wp_mono (insertDevNode_spec (hgrown.wf hwf) hready) ?_ ?_
  · rintro _ tree'' ⟨hgrown', hready', hfits', hother⟩
    have hother' : ∀ p, p ≠ path → tree''.lookupPath p = tree'.lookupPath p := by
      intro p hp
      refine hother p fun hpath' => hp ?_
      rw [hpath] at hpath'
      cases hpath'
      rfl
    refine ⟨hgrown.trans hgrown', hready', ?_, fun dev hdev => hnodes dev (List.mem_cons_of_mem _ hdev), hplaces.2,
      fun dev hdev p hp => ?_, fun hrest => hfits ?_⟩
    · refine hdirectory.of_lookupPath (hother' _ ?_)
      rintro rfl
      cases hparent
    · rw [hother' p ?_]
      · exact hsame dev (List.mem_cons_of_mem _ hdev) p hp
      · rintro rfl
        exact hplaces.1 (List.mem_map.mpr ⟨dev, hdev, by rw [hp, hpath]⟩)
    · intro dev hdev
      rcases List.mem_cons.mp hdev with rfl | hdev
      · exact hfit.mp hfits'
      · exact hrest dev hdev
  · rintro _ _ ⟨rfl, hmisfit⟩
    exact ⟨hgrown, fun hall => hmisfit path _ hpath hparent hdirectory (hfit.mpr (hall node hnode))⟩

/-- The mount of devfs goes through exactly where nothing stands in its way. -/
theorem mountMinimalDevfs_fits (hwf : tree.Wf) (hsane : tree.DevfsSane) :
    wp mountMinimalDevfs (fun _ tree' => tree.Grown tree' ∧ tree.DevfsFits)
      (fun _ tree' => tree.Grown tree' ∧ ¬tree.DevfsFits) tree := by
  have hids : (devNodes.map DevNode.inodeId).Nodup := by decide
  have hplaces : (devNodes.map fun dev => (parseAbsolutePath dev.path).toOption).Nodup := by decide +kernel
  have hloop : ∀ start, tree.DevMounting devNodes start →
      (tree.IsDir ["dev"] ∨ tree.lookupPath ["dev"] = none ∧ tree.IsDir []) →
      wp (.forEach devNodes fun node => insertDevNode node.path node.inodeId node.kind)
        (fun _ tree' => tree.Grown tree' ∧ tree.DevfsFits) (fun _ tree' => tree.Grown tree' ∧ ¬tree.DevfsFits)
        start := by
    intro start hstart hdirectory
    refine wp_mono (wp_forEach (I := fun rest tree' => tree.DevMounting rest tree') (fun _ _ _ h => h.next hwf)
      devNodes start hstart) (fun _ _ h => ⟨h.grown, hdirectory, h.fits (by simp)⟩)
      (fun _ _ h => ⟨h.1, fun hfits => h.2 hfits.nodes⟩)
  have hparse : parseAbsolutePath "/dev" = .ok ["dev"] := by decide +kernel
  unfold mountMinimalDevfs createDirIfMissing
  rw [wp_bind, wp_bind, hparse, wp_ofExcept]
  simp only
  rw [wp_bind, wp_get]
  cases hlookup : tree.lookupPath ["dev"] with
  | some node =>
      simp only
      rw [wp_bind]
      apply wp_check
      · intro _ herror
        refine ⟨.refl, fun hfits => ?_⟩
        rcases hfits.directory with ⟨node', hnode', hdir⟩ | ⟨hnone, _⟩
        · rw [hlookup] at hnode'
          cases hnode'
          simp [failIf, hdir] at herror
        · rw [hlookup] at hnone
          cases hnone
      intro _ hok
      rw [wp_pure]
      have hdir : tree.IsDir ["dev"] := ⟨node, hlookup, by simpa using hok⟩
      exact hloop tree ⟨.refl, ⟨hids, hsane.nodes⟩, hdir, fun _ h => h, hplaces, fun _ _ _ _ => rfl, fun h => h⟩
        (Or.inl hdir)
  | none =>
      have hnew := hwf.lookupPath_eq_none_iff.mp hlookup
      obtain ⟨hfresh, hother⟩ := hsane.directory hnew
      simp only
      rw [wp_bind]
      apply wp_check
      · intro _ herror
        refine ⟨.refl, fun hfits => ?_⟩
        rcases hfits.directory with ⟨node, hnode, _⟩ | ⟨_, hroot⟩
        · rw [hlookup] at hnode
          cases hnode
        · rw [ensureParentDir_of_isDir rfl hroot] at herror
          cases herror
      intro _ hparent
      obtain ⟨dir, name, hpath, hdir⟩ := ensureParentDir_ok hparent
      unfold insertNode
      rw [wp_bind, wp_get, wp_bind, hnew]
      refine (wp_ofExcept _).mpr ?_
      show wp (do
        let inodeId ← allocateInodeId
        _) _ _ _
      rw [wp_bind]
      refine wp_of_run allocateInodeId_run ?_
      rw [wp_bind]
      refine wp_of_run (insertPathNode_run _ (by exact hnew)) ?_
      rw [wp_pure]
      have hroot : tree.IsDir [] := by
        cases dir with
        | nil => exact hdir
        | cons _ _ => simp at hpath
      refine hloop _ ⟨?_, ⟨hids, ?_⟩, ?_, fun _ h => h, hplaces, ?_, fun h => h⟩ (Or.inr ⟨hlookup, hroot⟩)
      · rw [hpath] at hnew ⊢
        exact (Relation.ReflTransGen.single .allocate).tail (.node hdir hnew hfresh)
      · intro d hd p hp hnone
        rw [Wf.addNode_nodes] at hnone
        split at hnone
        · cases hnone
        rw [Wf.addNode_inodes, if_neg (by exact (hother d hd).symm)]
        exact hsane.nodes d hd p hp hnone
      · exact ⟨_, addNode_lookupPath_self _ _, rfl⟩
      · intro dev hdev path hpath'
        refine addNode_lookupPath (allocated_wf hwf) (by exact hfresh) ?_
        rintro rfl
        cases devNodes_parent dev hdev _ hpath'

theorem mountMinimalDevfs_spec (hwf : tree.Wf) (hsane : tree.DevfsSane) :
    wp mountMinimalDevfs (fun _ tree' => tree.Grown tree') (fun _ tree' => tree.Grown tree') tree :=
  wp_mono (mountMinimalDevfs_fits hwf hsane) (fun _ _ h => h.1) (fun _ _ h => h.1)

/-! ### Procfs -/

/-- The nodes still to be mounted find their ids free. -/
def ProcReady (tree : PathTree) (nodes : List ProcStaticNode) : Prop :=
  (nodes.map ProcStaticNode.inodeId).Nodup ∧ ∀ node ∈ nodes, ∀ path, parseAbsolutePath node.path = .ok path →
    (∀ old, tree.lookupPath path = some old → old.kind = .directory) → tree.inodes.get? node.inodeId = none

/-- What one node of procfs leaves for the others: it takes no id but its own, and at its own path there is
then no plain directory. -/
theorem ProcReady.next {tree' : PathTree} {node : ProcStaticNode} {rest : List ProcStaticNode} {path : GuestPath}
    (hready : tree.ProcReady (node :: rest))
    (hmounted : (tree'.lookupPath path).map PathNode.kind = some (.proc node.kind))
    (hother : ∀ p, p ≠ path → tree'.lookupPath p = tree.lookupPath p)
    (hids : ∀ i, i ≠ node.inodeId → tree.inodes.get? i = none → tree'.inodes.get? i = none) :
    tree'.ProcReady rest := by
  obtain ⟨hnodup, hfree⟩ := hready
  rw [List.map_cons, List.nodup_cons] at hnodup
  refine ⟨hnodup.2, fun d hd p hp hdirs => ?_⟩
  have hne : p ≠ path := by
    rintro rfl
    obtain ⟨mounted, hlookup, hkind⟩ := Option.map_eq_some_iff.mp hmounted
    rw [hdirs mounted hlookup] at hkind
    cases hkind
  refine hids d.inodeId (fun heq => hnodup.1 (List.mem_map.mpr ⟨d, hd, heq⟩)) ?_
  refine hfree d (List.mem_cons_of_mem _ hd) p hp fun old hold => hdirs old ?_
  rw [hother p hne]
  exact hold

/-- What stands at the place of a node of procfs is that node, or a directory that gives way to one; where nothing
does, a node right below the root finds one. -/
def ProcFits (tree : PathTree) (node : ProcStaticNode) : Prop :=
  ∀ path, parseAbsolutePath node.path = .ok path →
    (∀ old, tree.lookupPath path = some old →
      old.kind = .proc node.kind ∨ old.kind = .directory ∧ (node.kind = .directory ∨ node.kind = .fdDirectory)) ∧
    (tree.lookupPath path = none → path.parent = some [] → tree.IsDir [])

/-- Nothing stands in the way of procfs. -/
def ProcfsFits (tree : PathTree) : Prop := ∀ node ∈ procStaticNodes, tree.ProcFits node

theorem insertProcStaticNode_spec (hwf : tree.Wf) {node : ProcStaticNode} {rest : List ProcStaticNode}
    {path : GuestPath} (hparse : parseAbsolutePath node.path = .ok path) (hpath : path ≠ [])
    (hready : tree.ProcReady (node :: rest)) :
    wp (insertProcStaticNode node.path node.inodeId node.kind node.mode)
      (fun _ tree' => tree.Grown tree' ∧ tree'.ProcReady rest ∧ tree.ProcFits node ∧
        (tree'.lookupPath path).map PathNode.kind = some (.proc node.kind) ∧
        ∀ p, p ≠ path → tree'.lookupPath p = tree.lookupPath p)
      (fun _ tree' => tree' = tree ∧ ((∀ dir, path.parent = some dir → dir = [] ∨ tree.IsDir dir) →
        ¬tree.ProcFits node)) tree := by
  have hrest : tree.ProcReady rest :=
    ⟨(List.nodup_cons.mp (List.map_cons ▸ hready.1)).2, fun d hd => hready.2 d (List.mem_cons_of_mem _ hd)⟩
  have hfits : tree.ProcFits node ↔
      (∀ old, tree.lookupPath path = some old →
        old.kind = .proc node.kind ∨ old.kind = .directory ∧ (node.kind = .directory ∨ node.kind = .fdDirectory)) ∧
      (tree.lookupPath path = none → path.parent = some [] → tree.IsDir []) := by
    constructor
    · intro h
      exact h path hparse
    · intro h path' hparse'
      rw [hparse] at hparse'
      cases hparse'
      exact h
  unfold insertProcStaticNode
  rw [wp_bind, hparse, wp_ofExcept]
  simp only
  rw [wp_bind, wp_get]
  cases hlookup : tree.lookupPath path with
  | some old =>
      have hold : tree.ProcFits node ↔
          old.kind = .proc node.kind ∨ old.kind = .directory ∧ (node.kind = .directory ∨ node.kind = .fdDirectory) := by
        rw [hfits, hlookup]
        simp
      simp only
      split
      · rename_i hkind
        exact (wp_pure _).mpr ⟨.refl, hrest, hold.mpr (Or.inl hkind), by rw [hlookup, Option.map_some, hkind],
          fun _ _ => rfl⟩
      rename_i hother
      split
      · rename_i hreplace
        have hdir : tree.IsDir path := ⟨old, hlookup, by simp [PathNode.isDirectory, hreplace.1, isDirectoryKind]⟩
        have hid : tree.inodes.get? node.inodeId = none :=
          hready.2 node (by simp) path hparse fun old' hold' => by
            rw [hlookup] at hold'
            cases hold'
            exact hreplace.1
        obtain ⟨e, he⟩ := hdir.named
        rw [wp_modify]
        have hmounted := replacePathNode_lookupPath_self he
          ⟨node.inodeId, .proc node.kind, ⟨node.kind.attr node.inodeId node.mode⟩, [], none⟩
        refine ⟨.single (.replace hdir ?_ hid), hready.next ?_ (fun p hp => replacePathNode_lookupPath hwf hdir hid hp) ?_,
          hold.mpr (Or.inr hreplace), ?_, fun p hp => replacePathNode_lookupPath hwf hdir hid hp⟩
        · rcases hreplace.2 with hkind | hkind <;> simp [PathNode.isDirectory, hkind, isDirectoryKind]
        · rw [hmounted]
          rfl
        · intro i hi hnone
          rw [Wf.replacePathNode_inodes he, if_neg (by exact hi), hnone]
          split <;> rfl
        · rw [hmounted]
          rfl
      · rename_i hstays
        exact (wp_throw _).mpr ⟨rfl, fun _ h => (hold.mp h).elim hother hstays⟩
  | none =>
      have hnew := hwf.lookupPath_eq_none_iff.mp hlookup
      have hid : tree.inodes.get? node.inodeId = none :=
        hready.2 node (by simp) path hparse fun old' hold' => by
          rw [hlookup] at hold'
          cases hold'
      have hroot : path.isRoot = false := by simpa [GuestPath.isRoot] using hpath
      simp only
      rw [wp_bind, hroot]
      apply wp_check
      · intro _ herror
        refine ⟨rfl, fun hdirs h => ?_⟩
        obtain ⟨dir, name, rfl⟩ := (List.eq_nil_or_concat' path).resolve_left hpath
        have hdir : tree.IsDir dir := by
          rcases hdirs dir (parent_concat dir name) with rfl | hdir
          · exact (hfits.mp h).2 hlookup (parent_concat [] name)
          · exact hdir
        have hensure := ensureParentDir_of_isDir (parent_concat dir name) hdir
        rw [if_neg (by decide), hensure] at herror
        cases herror
      intro _ hparent
      rw [if_neg (by decide)] at hparent
      obtain ⟨dir, name, rfl, hdir⟩ := ensureParentDir_ok hparent
      refine wp_of_run (insertPathNode_run _ hnew) ⟨.single (.node hdir hnew hid), hready.next ?_
        (fun p hp => addNode_lookupPath hwf hid hp) ?_, hfits.mpr ⟨fun _ hold => ?_, fun _ hparent => ?_⟩, ?_,
        fun p hp => addNode_lookupPath hwf hid hp⟩
      · rw [addNode_lookupPath_self]
        rfl
      · intro i hi hnone
        rw [Wf.addNode_inodes, if_neg (by exact hi)]
        exact hnone
      · rw [hlookup] at hold
        cases hold
      · rw [parent_concat] at hparent
        cases hparent
        exact hdir
      · rw [addNode_lookupPath_self]
        rfl

/-- The nodes of procfs, at any point of the mount: no two have one place, and each lies in the root or in a
directory that is mounted before it. -/
theorem procStaticNodes_places {done rest : List ProcStaticNode} {node : ProcStaticNode}
    (h : procStaticNodes = done ++ node :: rest) :
    ∃ path, parseAbsolutePath node.path = .ok path ∧ path ≠ [] ∧
      (∀ other ∈ done ++ rest, parseAbsolutePath other.path ≠ .ok path) ∧
      ∀ dir, path.parent = some dir → dir = [] ∨ ∃ owner ∈ done, parseAbsolutePath owner.path = .ok dir ∧
        isDirectoryKind (.proc owner.kind) = true := by
  have hall : ∀ k : Fin procStaticNodes.length, ∃ path ∈ (parseAbsolutePath procStaticNodes[k].path).toOption,
      path ≠ [] ∧ (∀ other ∈ procStaticNodes.take k ++ procStaticNodes.drop (k + 1),
        (parseAbsolutePath other.path).toOption ≠ some path) ∧
      ∀ dir ∈ path.parent, dir = [] ∨ ∃ owner ∈ procStaticNodes.take k,
        (parseAbsolutePath owner.path).toOption = some dir ∧ isDirectoryKind (.proc owner.kind) = true := by
    decide +kernel
  have hlength : done.length < procStaticNodes.length := by
    rw [h, List.length_append, List.length_cons]
    omega
  have hnode : procStaticNodes[done.length] = node := by simp [h]
  have htake : procStaticNodes.take done.length = done := by simp [h]
  have hdrop : procStaticNodes.drop (done.length + 1) = rest := by simp [h]
  have hok : ∀ {x : Except VfsError GuestPath} {path : GuestPath}, x.toOption = some path ↔ x = .ok path := by
    intro x path
    cases x <;> simp [Except.toOption]
  have hk := hall ⟨done.length, hlength⟩
  simp only [Fin.getElem_fin, hnode, htake, hdrop, Option.mem_def, hok, ne_eq] at hk
  exact hk

/-- Where the mount of `tree` stands before the nodes `rest`. -/
structure ProcMounting (tree : PathTree) (rest : List ProcStaticNode) (tree' : PathTree) : Prop where
  grown : tree.Grown tree'
  ready : tree'.ProcReady rest
  mounted : ∃ done, procStaticNodes = done ++ rest ∧ ∀ node ∈ done, ∀ path, parseAbsolutePath node.path = .ok path →
    (tree'.lookupPath path).map PathNode.kind = some (.proc node.kind)
  same : ∀ node ∈ rest, ∀ path, parseAbsolutePath node.path = .ok path → tree'.lookupPath path = tree.lookupPath path
  root : tree'.lookupPath [] = tree.lookupPath []
  fits : (∀ node ∈ rest, tree.ProcFits node) → tree.ProcfsFits

theorem ProcMounting.next (hwf : tree.Wf) {node : ProcStaticNode} {rest : List ProcStaticNode} {tree' : PathTree}
    (h : tree.ProcMounting (node :: rest) tree') :
    wp (insertProcStaticNode node.path node.inodeId node.kind node.mode) (fun _ tree'' => tree.ProcMounting rest tree'')
      (fun _ tree'' => tree.Grown tree'' ∧ ¬tree.ProcfsFits) tree' := by
  obtain ⟨hgrown, hready, ⟨done, hdone, hmounted⟩, hsame, hroot, hfits⟩ := h
  obtain ⟨path, hparse, hpath, hplaces, howner⟩ := procStaticNodes_places hdone
  have hfit : tree'.ProcFits node ↔ tree.ProcFits node := by
    have hisDir : tree'.IsDir [] ↔ tree.IsDir [] := ⟨fun h => h.of_lookupPath hroot.symm, fun h => h.of_lookupPath hroot⟩
    refine forall₂_congr fun p hp => ?_
    rw [hsame node (by simp) p hp, hisDir]
  refine wp_mono (insertProcStaticNode_spec (hgrown.wf hwf) hparse hpath hready) ?_ ?_
  · rintro _ tree'' ⟨hgrown', hready', hfits', hkind, hother⟩
    refine ⟨hgrown.trans hgrown', hready', ⟨done ++ [node], by rw [hdone, List.append_assoc]; rfl, ?_⟩,
      fun d hd p hp => ?_, (hother [] hpath.symm).trans hroot, fun hrest => hfits ?_⟩
    · intro d hd p hp
      rcases List.mem_append.mp hd with hd | hd
      · rw [hother p]
        · exact hmounted d hd p hp
        · rintro rfl
          exact hplaces d (List.mem_append_left _ hd) hp
      · obtain rfl := List.mem_singleton.mp hd
        rw [hparse] at hp
        cases hp
        exact hkind
    · rw [hother p]
      · exact hsame d (List.mem_cons_of_mem _ hd) p hp
      · rintro rfl
        exact hplaces d (List.mem_append_right _ hd) hp
    · intro d hd
      rcases List.mem_cons.mp hd with rfl | hd
      · exact hfit.mp hfits'
      · exact hrest d hd
  · rintro _ _ ⟨rfl, hmisfit⟩
    refine ⟨hgrown, fun hall => hmisfit (fun dir hdir => (howner dir hdir).imp_right ?_) (hfit.mpr (hall node ?_))⟩
    · rintro ⟨owner, howned, hdir, hdirectory⟩
      obtain ⟨old, hold, hkind⟩ := Option.map_eq_some_iff.mp (hmounted owner howned dir hdir)
      exact ⟨old, hold, by rw [PathNode.isDirectory, hkind]; exact hdirectory⟩
    · rw [hdone]
      simp

/-- The mount of procfs goes through exactly where nothing stands in its way. -/
theorem mountMinimalProcfs_fits (hwf : tree.Wf) (hsane : tree.ProcfsSane) :
    wp mountMinimalProcfs (fun _ tree' => tree.Grown tree' ∧ tree.ProcfsFits)
      (fun _ tree' => tree.Grown tree' ∧ ¬tree.ProcfsFits) tree := by
  have hids : (procStaticNodes.map ProcStaticNode.inodeId).Nodup := by decide
  have hstart : tree.ProcMounting procStaticNodes tree :=
    ⟨.refl, ⟨hids, hsane⟩, ⟨[], rfl, by simp⟩, fun _ _ _ _ => rfl, rfl, fun h => h⟩
  unfold mountMinimalProcfs
  exact wp_mono (wp_forEach (I := fun rest tree' => tree.ProcMounting rest tree') (fun _ _ _ h => h.next hwf)
    procStaticNodes tree hstart) (fun _ _ h => ⟨h.grown, h.fits (by simp)⟩) (fun _ _ h => h)

theorem mountMinimalProcfs_spec (hwf : tree.Wf) (hsane : tree.ProcfsSane) :
    wp mountMinimalProcfs (fun _ tree' => tree.Grown tree') (fun _ tree' => tree.Grown tree') tree :=
  wp_mono (mountMinimalProcfs_fits hwf hsane) (fun _ _ h => h.1) (fun _ _ h => h.1)

/-! ### The calls on the tree that `tree_mut` hands out -/

theorem setMode_spec (path : GuestPath) (mode : UInt32) :
    wp (withPath path (.modify fun node => { node with metadata := node.metadata.setMode mode }))
      (fun _ tree' => tree.Grown tree') (fun _ tree' => tree.Grown tree') tree := by
  cases hi : tree.nodes.get? path with
  | none =>
      refine wp_of_error (e := .noEntry) (t := tree) ?_ .refl
      unfold withPath
      rw [hi]
  | some i =>
      rw [wp_withPath hi]
      cases hnode : tree.inodes.get? i with
      | none => exact wp_withInode_none hnode .refl
      | some node =>
          rw [wp_withInode hnode, wp_modify]
          exact .single (.change hnode ⟨rfl, rfl, MetadataSidecar.setMode_kindBits node.metadata mode⟩)

theorem treeOp_spec (hwf : tree.Wf) {op : TreeOp} (hsane : op.Sane tree) :
    wp op.exec (fun _ tree' => tree.Grown tree') (fun _ tree' => tree.Grown tree') tree := by
  cases op with
  | createDir path =>
      exact created_spec path (insertNode · .directory 0o755) fun dir name hdir => insertNode_spec hdir hsane _ _
  | createFile path =>
      exact created_spec path (insertNode · .file 0o644) fun dir name hdir => insertNode_spec hdir hsane _ _
  | createFileWithContent path data mode =>
      exact created_spec path
        (fun place => do
          let inodeId ← allocateInodeId
          insertPathNode place ⟨inodeId, .file, ⟨.regular inodeId mode data.length⟩, data, none⟩
          pure inodeId)
        fun dir name hdir => newNode_spec hdir hsane fun _ => rfl
  | createFileWithHostContent path hostPath size mode =>
      exact created_spec path
        (fun place => do
          let inodeId ← allocateInodeId
          insertPathNode place ⟨inodeId, .file, ⟨.regular inodeId mode size⟩, [], some hostPath⟩
          pure inodeId)
        fun dir name hdir => newNode_spec hdir hsane fun _ => rfl
  | createSymlink path target =>
      exact created_spec path (insertNode · (.symlink target) 0o777)
        fun dir name hdir => insertNode_spec hdir hsane _ _
  | mountMinimalDevfs => exact mountMinimalDevfs_spec hwf hsane
  | mountMinimalProcfs => exact mountMinimalProcfs_spec hwf hsane
  | setMode path mode => exact setMode_spec path mode

end PathTree

end Mcr.Vfs
