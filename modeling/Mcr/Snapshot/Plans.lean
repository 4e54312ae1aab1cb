import Mcr.Snapshot.Paths

/-!
# What a plan says

A specification says of a path that a file is there, that something is deleted or that a directory is opaque. It has a
plan if it says one thing of each path, and the plan is all it says.
-/

namespace Mcr.Snapshot

open Prog (except_bind_eq_ok)

/-! ### Loops of insertions -/

theorem insertLayerEntry_ok {planned next : SortedMap SnapshotPath LayerEntryKind} {path : SnapshotPath}
    {kind : LayerEntryKind} : insertLayerEntry planned path kind = .ok next ↔
      planned.get? path = none ∧ planned.insert path kind = next := by
  unfold insertLayerEntry
  cases hget : planned.get? path with
  | none => exact ⟨fun h => ⟨rfl, Except.ok.inj h⟩, fun h => congrArg Except.ok h.2⟩
  | some found => exact ⟨fun h => (nomatch h), fun h => (nomatch h.1)⟩

/-- A loop that inserts entries at paths of their own goes through if the paths were free, and adds just these
entries. -/
theorem foldlM_insert_ok {α : Type} {place : α → Except SnapshotError SnapshotPath} {kind : α → LayerEntryKind}
    {elements : List α} (hnodup : elements.Nodup)
    (hplace : ∀ a ∈ elements, ∀ b ∈ elements, ∀ path, place a = .ok path → place b = .ok path → a = b)
    {planned after : SortedMap SnapshotPath LayerEntryKind} :
    elements.foldlM (fun planned a => place a >>= fun path => insertLayerEntry planned path (kind a)) planned = .ok after ↔
      (∀ a ∈ elements, ∃ path, place a = .ok path ∧ planned.get? path = none) ∧
        ∀ path found, after.get? path = some found ↔
          planned.get? path = some found ∨ ∃ a ∈ elements, place a = .ok path ∧ kind a = found := by
  induction elements generalizing planned with
  | nil =>
      constructor
      · intro h
        obtain rfl := Except.ok.inj h
        exact ⟨nofun, fun path found => ⟨Or.inl, fun h => h.resolve_right nofun⟩⟩
      · rintro ⟨-, hafter⟩
        refine congrArg Except.ok (SortedMap.ext_get? fun path => Option.ext fun found => ?_)
        exact ⟨fun h => (hafter path found).mpr (Or.inl h), fun h => ((hafter path found).mp h).resolve_right nofun⟩
  | cons a rest ih =>
      rw [List.nodup_cons] at hnodup
      have hrest := fun next => @ih hnodup.2
        (fun b hb c hc => hplace b (List.mem_cons_of_mem a hb) c (List.mem_cons_of_mem a hc)) next
      have hother : ∀ {path other b}, b ∈ rest → place a = .ok path → place b = .ok other → other ≠ path := by
        rintro path other b hb ha hb' rfl
        exact hnodup.1 (hplace a List.mem_cons_self b (List.mem_cons_of_mem a hb) _ ha hb' ▸ hb)
      -- the entry of the first element and those of the others
      have hadded : ∀ {path}, place a = .ok path → planned.get? path = none → ∀ other found,
          ((planned.insert path (kind a)).get? other = some found ∨ ∃ b ∈ rest, place b = .ok other ∧ kind b = found) ↔
            (planned.get? other = some found ∨ ∃ b ∈ a :: rest, place b = .ok other ∧ kind b = found) := by
        intro path hpath hfree other found
        rw [SortedMap.get?_insert]
        by_cases hsame : other = path
        · subst hsame
          simp [hfree, hpath]
        · have hne : place a ≠ .ok other := fun h => hsame (Except.ok.inj (hpath.symm.trans h)).symm
          simp [hsame, hne]
      rw [List.foldlM_cons, except_bind_eq_ok]
      constructor
      · rintro ⟨next, hnext, hfold⟩
        obtain ⟨path, hpath, hinsert⟩ := except_bind_eq_ok.mp hnext
        obtain ⟨hfree, rfl⟩ := insertLayerEntry_ok.mp hinsert
        obtain ⟨hfrees, hafter⟩ := (hrest _).mp hfold
        refine ⟨fun b hb => ?_, fun other found => (hafter other found).trans (hadded hpath hfree other found)⟩
        rcases List.mem_cons.mp hb with rfl | hb
        · exact ⟨path, hpath, hfree⟩
        · obtain ⟨other, hplaced, hget⟩ := hfrees b hb
          rw [SortedMap.get?_insert, if_neg (hother hb hpath hplaced)] at hget
          exact ⟨other, hplaced, hget⟩
      · rintro ⟨hfrees, hafter⟩
        obtain ⟨path, hpath, hfree⟩ := hfrees a List.mem_cons_self
        refine ⟨planned.insert path (kind a), except_bind_eq_ok.mpr ⟨path, hpath, insertLayerEntry_ok.mpr ⟨hfree, rfl⟩⟩,
          (hrest _).mpr ⟨fun b hb => ?_, fun other found => (hafter other found).trans (hadded hpath hfree other found).symm⟩⟩
        obtain ⟨other, hplaced, hget⟩ := hfrees b (List.mem_cons_of_mem a hb)
        refine ⟨other, hplaced, ?_⟩
        rw [SortedMap.get?_insert, if_neg (hother hb hpath hplaced)]
        exact hget

/-! ### Specifications -/

inductive SnapshotSpec.Says (spec : SnapshotSpec) : SnapshotPath → LayerEntryKind → Prop
  | filesystem {path : SnapshotPath} {metadata : LinuxMetadata} (h : spec.sidecarRecords.get? path = some metadata) :
      spec.Says path (.filesystem metadata)
  | whiteout {deletedPath path : SnapshotPath} (h : deletedPath ∈ spec.deletedLowerPaths)
      (hpath : whiteoutPathForDeleted deletedPath = .ok path) : spec.Says path (.whiteout deletedPath)
  | opaqueDirectory {directoryPath path : SnapshotPath} (h : directoryPath ∈ spec.opaqueDirectories)
      (hpath : opaqueWhiteoutPathForDirectory directoryPath = .ok path) : spec.Says path (.opaqueDirectory directoryPath)

structure SnapshotSpec.Plans (spec : SnapshotSpec) (planned : SortedMap SnapshotPath LayerEntryKind) : Prop where
  whiteouts : ∀ deletedPath ∈ spec.deletedLowerPaths, ∃ path, whiteoutPathForDeleted deletedPath = .ok path
  opaques : ∀ directoryPath ∈ spec.opaqueDirectories, ∃ path, opaqueWhiteoutPathForDirectory directoryPath = .ok path
  entry : ∀ path kind, planned.get? path = some kind ↔ spec.Says path kind

def layerPlanOf (planned : SortedMap SnapshotPath LayerEntryKind) : SnapshotLayerPlan :=
  ⟨planned.entries.map fun (path, kind) => ⟨path, kind⟩⟩

def sidecarEntries (records : SortedMap SnapshotPath LinuxMetadata) : List SnapshotEntry :=
  records.entries.map fun (path, metadata) => ⟨path, metadata⟩

theorem mem_sidecarEntries {records : SortedMap SnapshotPath LinuxMetadata} {entry : SnapshotEntry} :
    entry ∈ sidecarEntries records ↔ records.get? entry.path = some entry.metadata := by
  rw [sidecarEntries, List.mem_map, SortedMap.get?_eq_some_iff]
  constructor
  · rintro ⟨⟨path, metadata⟩, hmem, rfl⟩
    exact hmem
  · exact fun h => ⟨_, h, rfl⟩

theorem sidecarEntries_nodup (records : SortedMap SnapshotPath LinuxMetadata) : (sidecarEntries records).Nodup :=
  List.pairwise_map.mpr (records.sorted.imp fun hlt heq => hlt.ne (congrArg SnapshotEntry.path heq))

theorem sidecarEntries_place {records : SortedMap SnapshotPath LinuxMetadata} {a b : SnapshotEntry}
    (ha : a ∈ sidecarEntries records) (hb : b ∈ sidecarEntries records) (hpath : a.path = b.path) : a = b := by
  rw [mem_sidecarEntries] at ha hb
  cases a
  cases b
  cases hpath
  cases ha.symm.trans hb
  rfl

/-! ### The plan of a specification -/

def LayerEntryKind.isFilesystem : LayerEntryKind → Bool
  | .filesystem _ => true
  | _ => false

def LayerEntryKind.isOpaqueDirectory : LayerEntryKind → Bool
  | .opaqueDirectory _ => true
  | _ => false

/-- A specification has a plan if and only if it says one thing of each path. -/
theorem deterministicLayerPlan_ok {spec : SnapshotSpec} {plan : SnapshotLayerPlan} :
    spec.deterministicLayerPlan = .ok plan ↔ ∃ planned, spec.Plans planned ∧ layerPlanOf planned = plan := by
  have hsidecar := fun after => @foldlM_insert_ok SnapshotEntry (fun entry => .ok entry.path)
    (fun entry => .filesystem entry.metadata) _ (sidecarEntries_nodup spec.sidecarRecords)
    (fun a ha b hb path hpath hpath' => sidecarEntries_place ha hb (Except.ok.inj (hpath.trans hpath'.symm)))
    .empty after
  have hdeleted := fun planned after => @foldlM_insert_ok _ _ .whiteout _ spec.deletedLowerPaths.toList_nodup
    (fun a _ b _ path => whiteoutPathForDeleted_injective) planned after
  have hmarker := fun planned after => @foldlM_insert_ok _ _ .opaqueDirectory _ spec.opaqueDirectories.toList_nodup
    (fun a _ b _ path => opaqueWhiteoutPathForDirectory_injective) planned after
  have hunfold : spec.deterministicLayerPlan = .ok plan ↔ ∃ files,
      (sidecarEntries spec.sidecarRecords).foldlM (fun planned entry => Except.ok entry.path >>= fun path =>
        insertLayerEntry planned path (.filesystem entry.metadata)) .empty = .ok files ∧ ∃ marked,
      spec.deletedLowerPaths.toList.foldlM (fun planned deletedPath => whiteoutPathForDeleted deletedPath >>= fun path =>
        insertLayerEntry planned path (.whiteout deletedPath)) files = .ok marked ∧ ∃ planned,
      spec.opaqueDirectories.toList.foldlM (fun planned directoryPath =>
        opaqueWhiteoutPathForDirectory directoryPath >>= fun path =>
          insertLayerEntry planned path (.opaqueDirectory directoryPath)) marked = .ok planned ∧
      layerPlanOf planned = plan := by
    unfold SnapshotSpec.deterministicLayerPlan SnapshotLayerPlan.fromParts
    simp only [except_bind_eq_ok]
    refine exists_congr fun files => and_congr Iff.rfl <| exists_congr fun marked => and_congr Iff.rfl <|
      exists_congr fun planned => and_congr Iff.rfl ?_
    exact ⟨fun h => Except.ok.inj h, fun h => congrArg Except.ok h⟩
  rw [hunfold]
  constructor
  · rintro ⟨files, hfiles, marked, hmarked, planned, hplanned, rfl⟩
    obtain ⟨-, hfiles⟩ := (hsidecar files).mp hfiles
    obtain ⟨hwhiteouts, hmarked⟩ := (hdeleted files marked).mp hmarked
    obtain ⟨hopaques, hplanned⟩ := (hmarker marked planned).mp hplanned
    refine ⟨planned, ⟨fun d hd => ?_, fun d hd => ?_, fun path kind => ?_⟩, rfl⟩
    · obtain ⟨path, hpath, -⟩ := hwhiteouts d (SortedSet.mem_toList.mpr hd)
      exact ⟨path, hpath⟩
    · obtain ⟨path, hpath, -⟩ := hopaques d (SortedSet.mem_toList.mpr hd)
      exact ⟨path, hpath⟩
    · rw [hplanned, hmarked, hfiles]
      constructor
      · rintro (((hempty | ⟨entry, hentry, hpath, rfl⟩) | ⟨deletedPath, hmem, hpath, rfl⟩) | ⟨directoryPath, hmem, hpath, rfl⟩)
        · nomatch hempty
        · exact .filesystem (Except.ok.inj hpath ▸ mem_sidecarEntries.mp hentry)
        · exact .whiteout (SortedSet.mem_toList.mp hmem) hpath
        · exact .opaqueDirectory (SortedSet.mem_toList.mp hmem) hpath
      · intro hsaid
        cases hsaid with
        | filesystem h => exact Or.inl (Or.inl (Or.inr ⟨⟨_, _⟩, mem_sidecarEntries.mpr h, rfl, rfl⟩))
        | whiteout h hpath => exact Or.inl (Or.inr ⟨_, SortedSet.mem_toList.mpr h, hpath, rfl⟩)
        | opaqueDirectory h hpath => exact Or.inr ⟨_, SortedSet.mem_toList.mpr h, hpath, rfl⟩
  · rintro ⟨planned, hplans, rfl⟩
    -- the loops end with the files, with what is not an opaque directory, and with all of the plan
    refine ⟨planned.filter fun _ kind => kind.isFilesystem, (hsidecar _).mpr ⟨fun a _ => ⟨a.path, rfl, rfl⟩, ?_⟩,
      planned.filter fun _ kind => !kind.isOpaqueDirectory, (hdeleted _ _).mpr ⟨?_, ?_⟩, planned,
      (hmarker _ _).mpr ⟨?_, ?_⟩, rfl⟩
    · intro path found
      rw [SortedMap.get?_filter_eq_some, hplans.entry]
      constructor
      · rintro ⟨hsaid, hkind⟩
        cases hsaid with
        | filesystem h => exact Or.inr ⟨⟨_, _⟩, mem_sidecarEntries.mpr h, rfl, rfl⟩
        | whiteout | opaqueDirectory => nomatch hkind
      · rintro (hempty | ⟨entry, hentry, hpath, rfl⟩)
        · nomatch hempty
        · exact ⟨.filesystem (Except.ok.inj hpath ▸ mem_sidecarEntries.mp hentry), rfl⟩
    · intro deletedPath hmem
      obtain ⟨path, hpath⟩ := hplans.whiteouts deletedPath (SortedSet.mem_toList.mp hmem)
      have hget := (hplans.entry _ _).mpr (.whiteout (SortedSet.mem_toList.mp hmem) hpath)
      refine ⟨path, hpath, ?_⟩
      rw [SortedMap.get?_filter, hget]
      rfl
    · intro path found
      rw [SortedMap.get?_filter_eq_some, SortedMap.get?_filter_eq_some, hplans.entry]
      constructor
      · rintro ⟨hsaid, hkind⟩
        cases hsaid with
        | filesystem h => exact Or.inl ⟨.filesystem h, rfl⟩
        | whiteout h hpath => exact Or.inr ⟨_, SortedSet.mem_toList.mpr h, hpath, rfl⟩
        | opaqueDirectory => nomatch hkind
      · rintro (⟨hsaid, hkind⟩ | ⟨deletedPath, hmem, hpath, rfl⟩)
        · cases hsaid with
          | filesystem h => exact ⟨.filesystem h, rfl⟩
          | whiteout | opaqueDirectory => nomatch hkind
        · exact ⟨.whiteout (SortedSet.mem_toList.mp hmem) hpath, rfl⟩
    · intro directoryPath hmem
      obtain ⟨path, hpath⟩ := hplans.opaques directoryPath (SortedSet.mem_toList.mp hmem)
      have hget := (hplans.entry _ _).mpr (.opaqueDirectory (SortedSet.mem_toList.mp hmem) hpath)
      refine ⟨path, hpath, ?_⟩
      rw [SortedMap.get?_filter, hget]
      rfl
    · intro path found
      rw [SortedMap.get?_filter_eq_some, hplans.entry]
      constructor
      · intro hsaid
        cases hsaid with
        | filesystem h => exact Or.inl ⟨.filesystem h, rfl⟩
        | whiteout h hpath => exact Or.inl ⟨.whiteout h hpath, rfl⟩
        | opaqueDirectory h hpath => exact Or.inr ⟨_, SortedSet.mem_toList.mpr h, hpath, rfl⟩
      · rintro (⟨hsaid, -⟩ | ⟨directoryPath, hmem, hpath, rfl⟩)
        · exact hsaid
        · exact .opaqueDirectory (SortedSet.mem_toList.mp hmem) hpath

theorem layerPlanOf_sorted (planned : SortedMap SnapshotPath LayerEntryKind) :
    (layerPlanOf planned).entries.Pairwise fun a b => a.path < b.path :=
  List.pairwise_map.mpr planned.sorted

theorem mem_layerPlanOf {planned : SortedMap SnapshotPath LayerEntryKind} {entry : LayerEntry} :
    entry ∈ (layerPlanOf planned).entries ↔ planned.get? entry.path = some entry.kind := by
  rw [layerPlanOf, List.mem_map, SortedMap.get?_eq_some_iff]
  constructor
  · rintro ⟨⟨path, kind⟩, hmem, rfl⟩
    exact hmem
  · exact fun h => ⟨_, h, rfl⟩

end Mcr.Snapshot
