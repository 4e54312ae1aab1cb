import Mcr.Snapshot.Plans
import Mcr.Snapshot.RoundTrip

/-!
# Layers that tell their specification

Deletions and opaque directories are files with names of their own, which other files may have too. A specification that
has no such files is told by its archive, and every other one shares its archive with one of these.
-/

namespace Mcr.Snapshot

open Prog (except_bind_eq_ok)

/-! ### Names of marks -/

def IsWhiteoutPath (path : SnapshotPath) : Prop := ∃ deletedPath, whiteoutPathForDeleted deletedPath = .ok path

def IsOpaquePath (path : SnapshotPath) : Prop := ∃ directoryPath, opaqueWhiteoutPathForDirectory directoryPath = .ok path

/-- A file that looks like a deletion or an opaque directory in an archive. -/
def LooksLikeMark (path : SnapshotPath) (metadata : LinuxMetadata) : Prop :=
  metadata.unpacked = markMetadata ∧ (IsWhiteoutPath path ∨ IsOpaquePath path)

theorem appendTarHeader_mark {path : SnapshotPath} {metadata : LinuxMetadata}
    (h : metadata.unpacked = markMetadata) : appendTarHeader path metadata = appendTarHeader path markMetadata := by
  obtain ⟨kind, mode, uid, gid, mtime⟩ := metadata
  simp only [LinuxMetadata.unpacked, markMetadata, LinuxMetadata.mk.injEq] at h
  obtain ⟨rfl, rfl, rfl, rfl, hmtime⟩ := h
  have hseconds : tarMtimeSeconds path ⟨.regular 0, 0, 0, 0, mtime⟩ = tarMtimeSeconds path markMetadata := by
    have hquotient : mtime / 1000000000 = 0 := by omega
    unfold tarMtimeSeconds
    simp only
    rw [if_neg (by omega), hquotient]
    rfl
  unfold appendTarHeader
  rw [hseconds]
  rfl

theorem appendLayerTarEntry_mark {path : SnapshotPath} {kind : LayerEntryKind}
    {regularContents : SortedMap SnapshotPath (List UInt8)} {chunk : List UInt8}
    (hmark : kind.shown.unpacked = markMetadata)
    (h : appendLayerTarEntry ⟨path, kind⟩ regularContents = .ok chunk) : appendTarHeader path markMetadata = .ok chunk := by
  cases kind with
  | filesystem metadata =>
      replace hmark : metadata.unpacked = markMetadata := hmark
      simp only [appendLayerTarEntry, except_bind_eq_ok] at h
      obtain ⟨content, hcontent, header, hheader, hchunk⟩ := h
      have hlength := regularContentFor_length hcontent
      have hkind : metadata.kind = .regular 0 := congrArg LinuxMetadata.kind hmark
      have hsize : tarSize metadata = 0 := by rw [tarSize, hkind]
      rw [hsize] at hlength
      obtain rfl := List.eq_nil_of_length_eq_zero hlength
      rw [← appendTarHeader_mark hmark, hheader, ← Except.ok.inj hchunk]
      simp [appendTarContent, tarBlockSize]
  | whiteout | opaqueDirectory => exact h

/-! ### Specifications and their archives -/

def SnapshotSpec.Exports (spec : SnapshotSpec) (regularContents : SortedMap SnapshotPath (List UInt8))
    (archive : List UInt8) : Prop :=
  ∃ plan, spec.deterministicLayerPlan = .ok plan ∧ plan.toUncompressedTar regularContents = .ok archive

/-- Two specifications with the same files, deletions and opaque directories, but for fractions of seconds. -/
structure SnapshotSpec.Same (spec other : SnapshotSpec) : Prop where
  files : ∀ path, (spec.sidecarRecords.get? path).map LinuxMetadata.unpacked =
    (other.sidecarRecords.get? path).map LinuxMetadata.unpacked
  deletions : spec.deletedLowerPaths = other.deletedLowerPaths
  opaques : spec.opaqueDirectories = other.opaqueDirectories

/-- A specification with legible strings, without files that look like marks, and without deletions under the name of an
opaque directory. -/
structure SnapshotSpec.Tellable (spec : SnapshotSpec) : Prop where
  legible : ∀ path kind, spec.Says path kind → (⟨path, kind⟩ : LayerEntry).Legible
  files : ∀ path metadata, spec.sidecarRecords.get? path = some metadata → ¬LooksLikeMark path metadata
  deletions : ∀ deletedPath ∈ spec.deletedLowerPaths, ∀ path,
    whiteoutPathForDeleted deletedPath = .ok path → ¬IsOpaquePath path

theorem SnapshotSpec.Tellable.says_same {spec other : SnapshotSpec} (hspec : spec.Tellable) (hother : other.Tellable)
    {path : SnapshotPath} {kind kind' : LayerEntryKind} (h : spec.Says path kind) (h' : other.Says path kind')
    (hshown : kind.shown.unpacked = kind'.shown.unpacked) :
    kind = kind' ∨ ∃ metadata metadata', kind = .filesystem metadata ∧ kind' = .filesystem metadata' ∧
      metadata.unpacked = metadata'.unpacked := by
  cases h with
  | filesystem hfile =>
      cases h' with
      | filesystem => exact Or.inr ⟨_, _, rfl, rfl, hshown⟩
      | whiteout _ hpath => exact absurd ⟨hshown, Or.inl ⟨_, hpath⟩⟩ (hspec.files _ _ hfile)
      | opaqueDirectory _ hpath => exact absurd ⟨hshown, Or.inr ⟨_, hpath⟩⟩ (hspec.files _ _ hfile)
  | whiteout hmem hpath =>
      cases h' with
      | filesystem hfile => exact absurd ⟨hshown.symm, Or.inl ⟨_, hpath⟩⟩ (hother.files _ _ hfile)
      | whiteout _ hpath' => exact Or.inl (congrArg _ (whiteoutPathForDeleted_injective hpath hpath'))
      | opaqueDirectory _ hpath' => exact absurd ⟨_, hpath'⟩ (hspec.deletions _ hmem _ hpath)
  | opaqueDirectory _ hpath =>
      cases h' with
      | filesystem hfile => exact absurd ⟨hshown.symm, Or.inr ⟨_, hpath⟩⟩ (hother.files _ _ hfile)
      | whiteout hmem' hpath' => exact absurd ⟨_, hpath⟩ (hother.deletions _ hmem' _ hpath')
      | opaqueDirectory _ hpath' => exact Or.inl (congrArg _ (opaqueWhiteoutPathForDirectory_injective hpath hpath'))

theorem shown_of_unpacked {planned planned' : SortedMap SnapshotPath LayerEntryKind}
    (h : (layerPlanOf planned).entries.map LayerEntry.unpacked = (layerPlanOf planned').entries.map LayerEntry.unpacked)
    {path : SnapshotPath} {kind : LayerEntryKind} (hget : planned.get? path = some kind) :
    ∃ kind', planned'.get? path = some kind' ∧ kind.shown.unpacked = kind'.shown.unpacked := by
  have hentry : (⟨path, kind⟩ : LayerEntry) ∈ (layerPlanOf planned).entries := mem_layerPlanOf.mpr hget
  have hunpacked := List.mem_map_of_mem (f := LayerEntry.unpacked) hentry
  rw [h] at hunpacked
  obtain ⟨⟨path', kind'⟩, hentry', hsame⟩ := List.mem_map.mp hunpacked
  obtain ⟨rfl, hshown⟩ := SnapshotEntry.mk.inj hsame
  exact ⟨kind', mem_layerPlanOf.mp hentry', hshown.symm⟩

theorem SnapshotSpec.Tellable.found {spec other : SnapshotSpec} (hspec : spec.Tellable) (hother : other.Tellable)
    (hshown : ∀ path kind, spec.Says path kind →
      ∃ kind', other.Says path kind' ∧ kind.shown.unpacked = kind'.shown.unpacked)
    {path : SnapshotPath} {kind : LayerEntryKind} (h : spec.Says path kind) :
    other.Says path kind ∨ ∃ metadata metadata', kind = .filesystem metadata ∧
      other.sidecarRecords.get? path = some metadata' ∧ metadata.unpacked = metadata'.unpacked := by
  obtain ⟨kind', h', hsame⟩ := hshown path kind h
  rcases hspec.says_same hother h h' hsame with rfl | ⟨metadata, metadata', rfl, rfl, hmetadata⟩
  · exact Or.inl h'
  · cases h' with
    | filesystem hfile => exact Or.inr ⟨metadata, metadata', rfl, hfile, hmetadata⟩

/-- Specifications that are told and show alike are the same. -/
theorem SnapshotSpec.Tellable.same {spec other : SnapshotSpec} (hspec : spec.Tellable) (hother : other.Tellable)
    {planned planned' : SortedMap SnapshotPath LayerEntryKind} (hplans : spec.Plans planned)
    (hplans' : other.Plans planned')
    (hshown : ∀ path kind, spec.Says path kind →
      ∃ kind', other.Says path kind' ∧ kind.shown.unpacked = kind'.shown.unpacked)
    (hshown' : ∀ path kind, other.Says path kind →
      ∃ kind', spec.Says path kind' ∧ kind.shown.unpacked = kind'.shown.unpacked) : spec.Same other := by
  have hfile : ∀ {spec other : SnapshotSpec}, spec.Tellable → other.Tellable →
      (∀ path kind, spec.Says path kind → ∃ kind', other.Says path kind' ∧ kind.shown.unpacked = kind'.shown.unpacked) →
      ∀ {path metadata}, spec.sidecarRecords.get? path = some metadata →
        ∃ metadata', other.sidecarRecords.get? path = some metadata' ∧ metadata.unpacked = metadata'.unpacked := by
    intro spec other hspec hother hshown path metadata hget
    rcases hspec.found hother hshown (.filesystem hget) with hfound | ⟨_, metadata', hkind, hget', hmetadata⟩
    · cases hfound with
      | filesystem hget' => exact ⟨metadata, hget', rfl⟩
    · obtain rfl := LayerEntryKind.filesystem.inj hkind
      exact ⟨metadata', hget', hmetadata⟩
  have hdeleted : ∀ {spec other : SnapshotSpec} {planned}, spec.Tellable → other.Tellable → spec.Plans planned →
      (∀ path kind, spec.Says path kind → ∃ kind', other.Says path kind' ∧ kind.shown.unpacked = kind'.shown.unpacked) →
      ∀ {deletedPath}, deletedPath ∈ spec.deletedLowerPaths → deletedPath ∈ other.deletedLowerPaths := by
    intro spec other planned hspec hother hplans hshown deletedPath hmem
    obtain ⟨path, hpath⟩ := hplans.whiteouts deletedPath hmem
    rcases hspec.found hother hshown (.whiteout hmem hpath) with hfound | ⟨_, _, hkind, -⟩
    · cases hfound with
      | whiteout hmem' => exact hmem'
    · nomatch hkind
  have hmarker : ∀ {spec other : SnapshotSpec} {planned}, spec.Tellable → other.Tellable → spec.Plans planned →
      (∀ path kind, spec.Says path kind → ∃ kind', other.Says path kind' ∧ kind.shown.unpacked = kind'.shown.unpacked) →
      ∀ {directoryPath}, directoryPath ∈ spec.opaqueDirectories → directoryPath ∈ other.opaqueDirectories := by
    intro spec other planned hspec hother hplans hshown directoryPath hmem
    obtain ⟨path, hpath⟩ := hplans.opaques directoryPath hmem
    rcases hspec.found hother hshown (.opaqueDirectory hmem hpath) with hfound | ⟨_, _, hkind, -⟩
    · cases hfound with
      | opaqueDirectory hmem' => exact hmem'
    · nomatch hkind
  refine ⟨fun path => ?_, SortedSet.ext_mem fun _ => ?_, SortedSet.ext_mem fun _ => ?_⟩
  · cases hget : spec.sidecarRecords.get? path with
    | some metadata =>
        obtain ⟨metadata', hget', hsame⟩ := hfile hspec hother hshown hget
        rw [hget', Option.map_some, Option.map_some, hsame]
    | none =>
        cases hget' : other.sidecarRecords.get? path with
        | none => rfl
        | some metadata' =>
            obtain ⟨metadata, hsome, -⟩ := hfile hother hspec hshown' hget'
            nomatch hget.symm.trans hsome
  · exact ⟨hdeleted hspec hother hplans hshown, hdeleted hother hspec hplans' hshown'⟩
  · exact ⟨hmarker hspec hother hplans hshown, hmarker hother hspec hplans' hshown'⟩

/-! ### The specification that is told -/

section Normal

open Classical

noncomputable def LayerEntryKind.normal (path : SnapshotPath) (kind : LayerEntryKind) : LayerEntryKind :=
  if kind.shown.unpacked = markMetadata then
    if h : IsOpaquePath path then .opaqueDirectory h.choose
    else if h : IsWhiteoutPath path then .whiteout h.choose
    else kind
  else kind

noncomputable def markedPaths (planned : SortedMap SnapshotPath LayerEntryKind) : List SnapshotPath :=
  (planned.entries.filter fun entry => decide (entry.2.shown.unpacked = markMetadata)).map Prod.fst

/-- The specification with the marks of a plan for the files that look like them. -/
noncomputable def SnapshotSpec.normal (spec : SnapshotSpec) (planned : SortedMap SnapshotPath LayerEntryKind) :
    SnapshotSpec :=
  ⟨spec.sidecarRecords.filter fun path metadata => decide ¬LooksLikeMark path metadata,
    .ofList ((markedPaths planned).filterMap fun path =>
      if h : ¬IsOpaquePath path ∧ IsWhiteoutPath path then some h.2.choose else none),
    .ofList ((markedPaths planned).filterMap fun path => if h : IsOpaquePath path then some h.choose else none)⟩

theorem mem_markedPaths {planned : SortedMap SnapshotPath LayerEntryKind} {path : SnapshotPath} :
    path ∈ markedPaths planned ↔ ∃ kind, planned.get? path = some kind ∧ kind.shown.unpacked = markMetadata := by
  rw [markedPaths, List.mem_map]
  constructor
  · rintro ⟨⟨path, kind⟩, hentry, rfl⟩
    obtain ⟨hmem, hmark⟩ := List.mem_filter.mp hentry
    exact ⟨kind, SortedMap.get?_eq_some_iff.mpr hmem, of_decide_eq_true hmark⟩
  · rintro ⟨kind, hget, hmark⟩
    exact ⟨(path, kind), List.mem_filter.mpr ⟨SortedMap.get?_eq_some_iff.mp hget, decide_eq_true hmark⟩, rfl⟩

theorem mem_normal_deleted {spec : SnapshotSpec} {planned : SortedMap SnapshotPath LayerEntryKind}
    {deletedPath : SnapshotPath} : deletedPath ∈ (spec.normal planned).deletedLowerPaths ↔
      ∃ path, path ∈ markedPaths planned ∧ ¬IsOpaquePath path ∧ whiteoutPathForDeleted deletedPath = .ok path := by
  rw [SnapshotSpec.normal, SortedSet.mem_ofList, List.mem_filterMap]
  refine exists_congr fun path => and_congr_right fun _ => ?_
  constructor
  · intro h
    split at h
    · rename_i hpath
      rw [← Option.some.inj h]
      exact ⟨hpath.1, hpath.2.choose_spec⟩
    · nomatch h
  · rintro ⟨hmarker, hdeleted⟩
    have hpath : ¬IsOpaquePath path ∧ IsWhiteoutPath path := ⟨hmarker, _, hdeleted⟩
    rw [dif_pos hpath, whiteoutPathForDeleted_injective hpath.2.choose_spec hdeleted]

theorem mem_normal_opaques {spec : SnapshotSpec} {planned : SortedMap SnapshotPath LayerEntryKind}
    {directoryPath : SnapshotPath} : directoryPath ∈ (spec.normal planned).opaqueDirectories ↔
      ∃ path, path ∈ markedPaths planned ∧ opaqueWhiteoutPathForDirectory directoryPath = .ok path := by
  rw [SnapshotSpec.normal, SortedSet.mem_ofList, List.mem_filterMap]
  refine exists_congr fun path => and_congr_right fun _ => ?_
  constructor
  · intro h
    split at h
    · rename_i hpath
      rw [← Option.some.inj h]
      exact hpath.choose_spec
    · nomatch h
  · intro hdirectory
    have hpath : IsOpaquePath path := ⟨_, hdirectory⟩
    rw [dif_pos hpath, opaqueWhiteoutPathForDirectory_injective hpath.choose_spec hdirectory]

theorem normal_file {spec : SnapshotSpec} {planned : SortedMap SnapshotPath LayerEntryKind} {path : SnapshotPath}
    {metadata : LinuxMetadata} : (spec.normal planned).sidecarRecords.get? path = some metadata ↔
      spec.sidecarRecords.get? path = some metadata ∧ ¬LooksLikeMark path metadata := by
  rw [SnapshotSpec.normal, SortedMap.get?_filter_eq_some, decide_eq_true_eq]

theorem SnapshotSpec.Says.normal_of_mark {spec : SnapshotSpec} {path : SnapshotPath} {kind : LayerEntryKind}
    (h : spec.Says path kind) (hmark : kind.shown.unpacked = markMetadata) :
    IsOpaquePath path ∨ IsWhiteoutPath path ∨
      ∃ metadata, kind = .filesystem metadata ∧ ¬LooksLikeMark path metadata := by
  by_cases hmarker : IsOpaquePath path
  · exact Or.inl hmarker
  by_cases hwhiteout : IsWhiteoutPath path
  · exact Or.inr (Or.inl hwhiteout)
  cases h with
  | filesystem => exact Or.inr (Or.inr ⟨_, rfl, fun hlooks => hlooks.2.elim hwhiteout hmarker⟩)
  | whiteout _ hpath => exact absurd ⟨_, hpath⟩ hwhiteout
  | opaqueDirectory _ hpath => exact absurd ⟨_, hpath⟩ hmarker

theorem SnapshotSpec.Plans.normal {spec : SnapshotSpec} {planned : SortedMap SnapshotPath LayerEntryKind}
    (h : spec.Plans planned) :
    (spec.normal planned).Plans (planned.mapValues fun path kind => kind.normal path) := by
  refine ⟨fun deletedPath hmem => ?_, fun directoryPath hmem => ?_, fun path kind => ?_⟩
  · obtain ⟨path, -, -, hpath⟩ := mem_normal_deleted.mp hmem
    exact ⟨path, hpath⟩
  · obtain ⟨path, -, hpath⟩ := mem_normal_opaques.mp hmem
    exact ⟨path, hpath⟩
  rw [SortedMap.get?_mapValues, Option.map_eq_some_iff]
  constructor
  · rintro ⟨old, hget, rfl⟩
    have hsaid := (h.entry path old).mp hget
    unfold LayerEntryKind.normal
    split
    · rename_i hmark
      have hmarked : path ∈ markedPaths planned := mem_markedPaths.mpr ⟨old, hget, hmark⟩
      split
      · rename_i hmarker
        exact .opaqueDirectory (mem_normal_opaques.mpr ⟨path, hmarked, hmarker.choose_spec⟩) hmarker.choose_spec
      · rename_i hmarker
        split
        · rename_i hwhiteout
          exact .whiteout (mem_normal_deleted.mpr ⟨path, hmarked, hmarker, hwhiteout.choose_spec⟩)
            hwhiteout.choose_spec
        · rename_i hwhiteout
          rcases hsaid.normal_of_mark hmark with hmarker' | hwhiteout' | ⟨metadata, rfl, hlooks⟩
          · exact absurd hmarker' hmarker
          · exact absurd hwhiteout' hwhiteout
          · cases hsaid with
            | filesystem hfile => exact .filesystem (normal_file.mpr ⟨hfile, hlooks⟩)
    · rename_i hmark
      cases hsaid with
      | filesystem hfile => exact .filesystem (normal_file.mpr ⟨hfile, fun hlooks => hmark hlooks.1⟩)
      | whiteout | opaqueDirectory => exact absurd rfl hmark
  · intro hsaid
    cases hsaid with
    | filesystem hfile =>
        obtain ⟨hget, hlooks⟩ := normal_file.mp hfile
        refine ⟨_, (h.entry path _).mpr (.filesystem hget), ?_⟩
        unfold LayerEntryKind.normal
        split
        · rename_i hmark
          rw [dif_neg fun hmarker => hlooks ⟨hmark, Or.inr hmarker⟩,
            dif_neg fun hwhiteout => hlooks ⟨hmark, Or.inl hwhiteout⟩]
        · rfl
    | whiteout hmem hpath =>
        obtain ⟨other, hmarked, hmarker, hother⟩ := mem_normal_deleted.mp hmem
        obtain rfl := Except.ok.inj (hpath.symm.trans hother)
        obtain ⟨old, hget, hmark⟩ := mem_markedPaths.mp hmarked
        have hwhiteout : IsWhiteoutPath path := ⟨_, hpath⟩
        refine ⟨old, hget, ?_⟩
        rw [LayerEntryKind.normal, if_pos hmark, dif_neg hmarker, dif_pos hwhiteout,
          whiteoutPathForDeleted_injective hwhiteout.choose_spec hpath]
    | opaqueDirectory hmem hpath =>
        obtain ⟨other, hmarked, hother⟩ := mem_normal_opaques.mp hmem
        obtain rfl := Except.ok.inj (hpath.symm.trans hother)
        obtain ⟨old, hget, hmark⟩ := mem_markedPaths.mp hmarked
        have hmarker : IsOpaquePath path := ⟨_, hpath⟩
        refine ⟨old, hget, ?_⟩
        rw [LayerEntryKind.normal, if_pos hmark, dif_pos hmarker,
          opaqueWhiteoutPathForDirectory_injective hmarker.choose_spec hpath]

theorem appendLayerTarEntry_normal {path : SnapshotPath} {kind : LayerEntryKind}
    {regularContents : SortedMap SnapshotPath (List UInt8)} {chunk : List UInt8}
    (h : appendLayerTarEntry ⟨path, kind⟩ regularContents = .ok chunk) :
    appendLayerTarEntry ⟨path, kind.normal path⟩ regularContents = .ok chunk := by
  unfold LayerEntryKind.normal
  split
  · rename_i hmark
    split
    · exact appendLayerTarEntry_mark hmark h
    · split
      · exact appendLayerTarEntry_mark hmark h
      · exact h
  · exact h

theorem SnapshotSpec.normal_exports {spec : SnapshotSpec} {planned : SortedMap SnapshotPath LayerEntryKind}
    {regularContents : SortedMap SnapshotPath (List UInt8)} {archive : List UInt8} (h : spec.Plans planned)
    (hexport : (layerPlanOf planned).toUncompressedTar regularContents = .ok archive) :
    (spec.normal planned).Exports regularContents archive := by
  obtain ⟨chunks, hchunks, harchive⟩ := toUncompressedTar_ok.mp hexport
  refine ⟨_, deterministicLayerPlan_ok.mpr ⟨_, h.normal, rfl⟩, toUncompressedTar_ok.mpr ⟨chunks, ?_, harchive⟩⟩
  have hentries : (layerPlanOf (planned.mapValues fun path kind => kind.normal path)).entries =
      (layerPlanOf planned).entries.map fun entry => ⟨entry.path, entry.kind.normal entry.path⟩ := by
    simp only [layerPlanOf, SortedMap.mapValues, List.map_map]
    rfl
  rw [hentries, List.forall₂_map_left_iff]
  exact hchunks.imp fun entry chunk hchunk => appendLayerTarEntry_normal hchunk

theorem LayerEntry.Legible.normal {path : SnapshotPath} {kind : LayerEntryKind}
    (h : (⟨path, kind⟩ : LayerEntry).Legible) : (⟨path, kind.normal path⟩ : LayerEntry).Legible := by
  obtain ⟨hpath, hkind⟩ := h
  refine ⟨hpath, ?_⟩
  show (kind.normal path).shown.kind.Legible
  unfold LayerEntryKind.normal
  split
  · split
    · trivial
    · split
      · trivial
      · exact hkind
  · exact hkind

theorem SnapshotSpec.normal_tellable {spec : SnapshotSpec} {planned : SortedMap SnapshotPath LayerEntryKind}
    (h : spec.Plans planned) (hlegible : ∀ path kind, spec.Says path kind → (⟨path, kind⟩ : LayerEntry).Legible) :
    (spec.normal planned).Tellable := by
  refine ⟨fun path kind hsaid => ?_, fun path metadata hget => (normal_file.mp hget).2,
    fun deletedPath hmem path hpath => ?_⟩
  · have hget := (h.normal.entry path kind).mpr hsaid
    rw [SortedMap.get?_mapValues, Option.map_eq_some_iff] at hget
    obtain ⟨old, hold, rfl⟩ := hget
    exact (hlegible path old ((h.entry path old).mp hold)).normal
  · obtain ⟨other, -, hmarker, hother⟩ := mem_normal_deleted.mp hmem
    obtain rfl := Except.ok.inj (hpath.symm.trans hother)
    exact hmarker

/-- A specification that is the same as its normal form has no files that look like marks, and no deletions under the
name of an opaque directory. -/
theorem SnapshotSpec.tellable_of_normal {spec : SnapshotSpec} {planned : SortedMap SnapshotPath LayerEntryKind}
    (hlegible : ∀ path kind, spec.Says path kind → (⟨path, kind⟩ : LayerEntry).Legible)
    (h : spec.Same (spec.normal planned)) : spec.Tellable := by
  refine ⟨hlegible, fun path metadata hget hlooks => ?_, fun deletedPath hmem path hpath => ?_⟩
  · have hfiles := h.files path
    rw [hget, Option.map_some] at hfiles
    obtain ⟨metadata', hget', -⟩ := Option.map_eq_some_iff.mp hfiles.symm
    obtain ⟨hold, hother⟩ := normal_file.mp hget'
    obtain rfl := Option.some.inj (hget.symm.trans hold)
    exact hother hlooks
  · rw [h.deletions] at hmem
    obtain ⟨other, -, hmarker, hother⟩ := mem_normal_deleted.mp hmem
    obtain rfl := Except.ok.inj (hpath.symm.trans hother)
    exact hmarker

end Normal

/-! ### Round trips -/

theorem legible_iff {spec : SnapshotSpec} {planned : SortedMap SnapshotPath LayerEntryKind} (h : spec.Plans planned) :
    (∀ entry ∈ (layerPlanOf planned).entries, entry.Legible) ↔
      ∀ path kind, spec.Says path kind → (⟨path, kind⟩ : LayerEntry).Legible := by
  constructor
  · exact fun hall path kind hsaid => hall ⟨path, kind⟩ (mem_layerPlanOf.mpr ((h.entry path kind).mpr hsaid))
  · exact fun hall entry hentry => hall entry.path entry.kind ((h.entry _ _).mp (mem_layerPlanOf.mp hentry))

/-- The import of a layer's archive gives the entries of the plan, and the archive is that of no other layer that is
told, if and only if the layer is told by its archive. -/
theorem layer_round_trips_iff {spec : SnapshotSpec} {plan : SnapshotLayerPlan}
    {regularContents : SortedMap SnapshotPath (List UInt8)} {archive : List UInt8}
    (hplan : spec.deterministicLayerPlan = .ok plan) (hexport : plan.toUncompressedTar regularContents = .ok archive) :
    (fromUncompressedTar archive = .ok (plan.entries.map LayerEntry.unpacked) ∧
      ∀ other otherContents, SnapshotSpec.Tellable other → other.Exports otherContents archive → spec.Same other) ↔
      spec.Tellable := by
  obtain ⟨planned, hplans, rfl⟩ := deterministicLayerPlan_ok.mp hplan
  have hround := (fromUncompressedTar_exported_iff (layerPlanOf_sorted planned) hexport).trans (legible_iff hplans)
  constructor
  · rintro ⟨hread, hsame⟩
    have hlegible := hround.mp hread
    exact SnapshotSpec.tellable_of_normal hlegible (hsame _ _ (SnapshotSpec.normal_tellable hplans hlegible)
      (SnapshotSpec.normal_exports hplans hexport))
  · intro htellable
    have hread := hround.mpr htellable.legible
    refine ⟨hread, fun other otherContents hother hexports => ?_⟩
    obtain ⟨plan', hplan', hexport'⟩ := hexports
    obtain ⟨planned', hplans', rfl⟩ := deterministicLayerPlan_ok.mp hplan'
    have hround' := (fromUncompressedTar_exported_iff (layerPlanOf_sorted planned') hexport').trans (legible_iff hplans')
    have hentries := Except.ok.inj (hread.symm.trans (hround'.mpr hother.legible))
    have hshown : ∀ {spec other : SnapshotSpec} {planned planned'}, spec.Plans planned → other.Plans planned' →
        (layerPlanOf planned).entries.map LayerEntry.unpacked = (layerPlanOf planned').entries.map LayerEntry.unpacked →
        ∀ path kind, spec.Says path kind →
          ∃ kind', other.Says path kind' ∧ kind.shown.unpacked = kind'.shown.unpacked := by
      intro spec other planned planned' hplans hplans' hentries path kind hsaid
      obtain ⟨kind', hget, hsame⟩ := shown_of_unpacked hentries ((hplans.entry path kind).mpr hsaid)
      exact ⟨kind', (hplans'.entry path kind').mp hget, hsame⟩
    exact htellable.same hother hplans hplans' (hshown hplans hplans' hentries) (hshown hplans' hplans hentries.symm)

/-! ### A deletion and a file -/

/-- `/a`, `/.wh.a` and `/a` with a blank behind it. -/
def deletedName : SnapshotPath := ⟨[47, 97], rfl⟩
def whiteoutName : SnapshotPath := ⟨[47, 46, 119, 104, 46, 97], rfl⟩
def blankName : SnapshotPath := ⟨[47, 97, 32], rfl⟩

def deletion : SnapshotSpec := ⟨.empty, SortedSet.empty.insert deletedName, .empty⟩
def oneFile (path : SnapshotPath) : SnapshotSpec := ⟨SortedMap.empty.insert path markMetadata, .empty, .empty⟩

theorem deletion_plan : deletion.deterministicLayerPlan = .ok ⟨[⟨whiteoutName, .whiteout deletedName⟩]⟩ := rfl

theorem oneFile_plan (path : SnapshotPath) :
    (oneFile path).deterministicLayerPlan = .ok ⟨[⟨path, .filesystem markMetadata⟩]⟩ := rfl

theorem single_exported {path : SnapshotPath} {kind : LayerEntryKind} {header : List UInt8}
    (hkind : kind = .filesystem markMetadata ∨ ∃ deletedPath, kind = .whiteout deletedPath)
    (hheader : appendTarHeader path markMetadata = .ok header) :
    (⟨[⟨path, kind⟩]⟩ : SnapshotLayerPlan).toUncompressedTar .empty =
      .ok (header ++ List.replicate (tarBlockSize * 2) 0) := by
  have hentry : appendLayerTarEntry ⟨path, kind⟩ .empty = .ok header := by
    rcases hkind with rfl | ⟨deletedPath, rfl⟩
    · have hcontent : regularContentFor path markMetadata .empty = .ok [] := rfl
      simp only [appendLayerTarEntry, hcontent, hheader, Prog.except_ok_bind]
      simp [appendTarContent, tarBlockSize, pure, Except.pure]
    · exact hheader
  obtain ⟨parts, hparts⟩ := appendTarHeader_ok hheader
  refine toUncompressedTar_ok.mpr ⟨[header], .cons hentry .nil, by rw [List.flatten_singleton], ?_⟩
  rw [List.length_append, List.length_replicate, hparts.length]
  decide

theorem header_written {path : SnapshotPath} (h : (appendTarHeader path markMetadata).toOption.isSome = true) :
    ∃ header, appendTarHeader path markMetadata = .ok header := by
  cases hheader : appendTarHeader path markMetadata with
  | ok header => exact ⟨header, rfl⟩
  | error error =>
      rw [hheader] at h
      nomatch h

/-- A file that was changed, `/a` deleted, and a directory that hides what is below it. -/
def fileName : SnapshotPath := ⟨[47, 102], rfl⟩
def directoryName : SnapshotPath := ⟨[47, 100], rfl⟩
def opaqueName : SnapshotPath :=
  ⟨[47, 100, 47, 46, 119, 104, 46, 46, 119, 104, 46, 46, 111, 112, 113], rfl⟩
def fileMetadata : LinuxMetadata := ⟨.regular 2, 0o644, 1000, 1000, 5000000000⟩

def changedLayer : SnapshotSpec :=
  ⟨SortedMap.empty.insert fileName fileMetadata, SortedSet.empty.insert deletedName,
    SortedSet.empty.insert directoryName⟩

def changedContents : SortedMap SnapshotPath (List UInt8) := SortedMap.empty.insert fileName [104, 105]

theorem changedLayer_plan : changedLayer.deterministicLayerPlan = .ok ⟨[⟨whiteoutName, .whiteout deletedName⟩,
    ⟨opaqueName, .opaqueDirectory directoryName⟩, ⟨fileName, .filesystem fileMetadata⟩]⟩ := rfl

theorem changedLayer_tellable : changedLayer.Tellable := by
  have hfile : ∀ {path metadata}, changedLayer.sidecarRecords.get? path = some metadata →
      path = fileName ∧ metadata = fileMetadata := by
    intro path metadata hget
    change (SortedMap.empty.insert fileName fileMetadata).get? path = some metadata at hget
    rw [SortedMap.get?_insert, SortedMap.get?_empty] at hget
    obtain ⟨hpath, hmetadata⟩ := Option.ite_none_right_eq_some.mp hget
    exact ⟨hpath, (Option.some.inj hmetadata).symm⟩
  have hdeleted : ∀ {deletedPath}, deletedPath ∈ changedLayer.deletedLowerPaths → deletedPath = deletedName := by
    intro deletedPath hmem
    exact (SortedSet.mem_insert.mp hmem).resolve_right (SortedSet.not_mem_empty _)
  have hopaque : ∀ {directoryPath}, directoryPath ∈ changedLayer.opaqueDirectories → directoryPath = directoryName := by
    intro directoryPath hmem
    exact (SortedSet.mem_insert.mp hmem).resolve_right (SortedSet.not_mem_empty _)
  have hpath : ∀ {path}, whiteoutPathForDeleted deletedName = .ok path → path = whiteoutName :=
    fun h => (Except.ok.inj h).symm
  have hmarker : ∀ {path}, opaqueWhiteoutPathForDirectory directoryName = .ok path → path = opaqueName :=
    fun h => (Except.ok.inj h).symm
  refine ⟨fun path kind hsaid => ?_, fun path metadata hget => ?_, fun deletedPath hmem path hwhiteout => ?_⟩
  · cases hsaid with
    | filesystem hget =>
        obtain ⟨rfl, rfl⟩ := hfile hget
        have hplain : Text.Plain [102] := ⟨by decide +kernel, by decide +kernel⟩
        exact ⟨⟨[102], ⟨none, [102]⟩, rfl, rfl, hplain, ⟨nofun, nofun⟩, by decide⟩, trivial⟩
    | whiteout hmem hwhiteout =>
        obtain rfl := hdeleted hmem
        obtain rfl := hpath hwhiteout
        have hplain : Text.Plain [46, 119, 104, 46, 97] := ⟨by decide +kernel, by decide +kernel⟩
        exact ⟨⟨[46, 119, 104, 46, 97], ⟨none, [46, 119, 104, 46, 97]⟩, rfl, rfl, hplain, ⟨nofun, nofun⟩, by decide⟩,
          trivial⟩
    | opaqueDirectory hmem hdirectory =>
        obtain rfl := hopaque hmem
        obtain rfl := hmarker hdirectory
        have hplain : Text.Plain [100, 47, 46, 119, 104, 46, 46, 119, 104, 46, 46, 111, 112, 113] :=
          ⟨by decide +kernel, by decide +kernel⟩
        exact ⟨⟨_, ⟨none, _⟩, rfl, rfl, hplain, ⟨nofun, nofun⟩, by decide⟩, trivial⟩
  · obtain ⟨rfl, rfl⟩ := hfile hget
    rintro ⟨hmark, -⟩
    exact absurd hmark (by decide +kernel)
  · obtain rfl := hdeleted hmem
    obtain rfl := hpath hwhiteout
    rintro ⟨directoryPath, hopaque⟩
    have hsplits := opaqueWhiteoutPathForDirectory_ok hopaque
    have hjoined : joinSnapshotChild [slash] [46, 119, 104, 46, 97] = _ := (hsplits.joined.symm.trans rfl).symm
    obtain ⟨-, hname⟩ := joinSnapshotChild_injective (by decide) hsplits.name (by decide) hsplits.parent hjoined
    nomatch hname

/-- The file comes back with its mode, owner and time, and both marks with it. -/
theorem changedLayer_round_trips : ∃ archive, changedLayer.Exports changedContents archive ∧
    fromUncompressedTar archive = .ok [⟨whiteoutName, markMetadata⟩, ⟨opaqueName, markMetadata⟩,
      ⟨fileName, fileMetadata⟩] := by
  have hwritten : ((⟨[⟨whiteoutName, .whiteout deletedName⟩, ⟨opaqueName, .opaqueDirectory directoryName⟩,
    ⟨fileName, .filesystem fileMetadata⟩]⟩ : SnapshotLayerPlan).toUncompressedTar changedContents).toOption.isSome =
      true := by decide +kernel
  obtain ⟨archive, harchive⟩ := Option.isSome_iff_exists.mp hwritten
  have hexport := Prog.toOption_eq_some.mp harchive
  exact ⟨archive, ⟨_, changedLayer_plan, hexport⟩,
    ((layer_round_trips_iff changedLayer_plan hexport).mpr changedLayer_tellable).1⟩

/-- A deletion and a file of its name have the same archive, and a name does not come back with the blank at its end. -/
theorem deletion_shares_archive :
    (∃ archive, deletion.Exports .empty archive ∧ (oneFile whiteoutName).Exports .empty archive ∧
      ¬deletion.Same (oneFile whiteoutName)) ∧
    ∃ archive, (oneFile blankName).Exports .empty archive ∧
      fromUncompressedTar archive ≠ .ok [⟨blankName, markMetadata⟩] := by
  constructor
  · obtain ⟨header, hheader⟩ : ∃ header, appendTarHeader whiteoutName markMetadata = .ok header :=
      header_written (by decide +kernel)
    refine ⟨_, ⟨_, deletion_plan, single_exported (Or.inr ⟨deletedName, rfl⟩) hheader⟩,
      ⟨_, oneFile_plan whiteoutName, single_exported (Or.inl rfl) hheader⟩, fun hsame => ?_⟩
    nomatch hsame.files whiteoutName
  · obtain ⟨header, hheader⟩ : ∃ header, appendTarHeader blankName markMetadata = .ok header :=
      header_written (by decide +kernel)
    have hexport := @single_exported _ (.filesystem markMetadata) _ (Or.inl rfl) hheader
    refine ⟨_, ⟨_, oneFile_plan blankName, hexport⟩, fun hread => ?_⟩
    have hlegible := (fromUncompressedTar_exported_iff (List.pairwise_singleton _ _) hexport).mp hread
    obtain ⟨⟨text, parts, htext, hsplit, hname, -⟩, -⟩ := hlegible _ List.mem_cons_self
    obtain rfl := Except.ok.inj htext
    obtain rfl := Except.ok.inj hsplit
    exact hname.last rfl

end Mcr.Snapshot
