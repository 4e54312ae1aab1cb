import Mcr.Lib.Sorting
import Mcr.Snapshot.Marks

/-!
# What an import gives

The import gives the members of an archive and no path that leads out of the layer. It keeps all members of a path and
finds the first one, while extracting the archive leaves the last.
-/

namespace Mcr.Snapshot

open Prog (except_bind_eq_ok)

/-! ### Names -/

def SnapshotPath.Confined (path : SnapshotPath) : Prop :=
  ∃ rest, path.text = slash :: rest ∧ ∀ component ∈ rest.splitOn slash, IsName component

def SnapshotFileKind.Confined : SnapshotFileKind → Prop
  | .hardlink target => target.Confined
  | _ => True

theorem relativeTarPath_confined {text : Text} {path : SnapshotPath}
    (h : relativeTarPathToSnapshotPath text = .ok path) : path.Confined := by
  unfold relativeTarPathToSnapshotPath at h
  split at h
  · nomatch h
  rename_i hshape
  rw [not_or, List.isEmpty_iff] at hshape
  split at h
  · rename_i hnew
    obtain rfl := Except.ok.inj h
    have htext := SnapshotPath.new_ok hnew
    exact ⟨text, htext, SnapshotPath.names htext hshape.1⟩
  · nomatch h

theorem tarEntryPath_confined {header : Text} {path : SnapshotPath} (h : tarEntryPath header = .ok path) :
    path.Confined := by
  simp only [tarEntryPath, except_bind_eq_ok] at h
  obtain ⟨name, -, prefixText, -, hpath⟩ := h
  exact relativeTarPath_confined hpath

theorem tarEntryKind_confined {header : Text} {size : UInt64} {kind : SnapshotFileKind}
    (h : tarEntryKind header size = .ok kind) : kind.Confined := by
  have hdevice : ∀ make : UInt32 → UInt32 → SnapshotFileKind, (∀ major minor, (make major minor).Confined) →
      (do
        let major ← tarOctal32 (devmajorSlot.field header) "devmajor"
        let minor ← tarOctal32 (devminorSlot.field header) "devminor"
        pure (make major minor)) = (.ok kind : Except LayerUnpackError SnapshotFileKind) → kind.Confined := by
    intro make hmake hdo
    simp only [except_bind_eq_ok] at hdo
    obtain ⟨major, -, minor, -, hkind⟩ := hdo
    rw [← Except.ok.inj hkind]
    exact hmake major minor
  unfold tarEntryKind at h
  simp only at h
  split at h
  · rw [← Except.ok.inj h]
    trivial
  · rw [← Except.ok.inj h]
    trivial
  · obtain ⟨target, htarget, hkind⟩ := except_bind_eq_ok.mp h
    obtain ⟨text, -, hpath⟩ := except_bind_eq_ok.mp htarget
    rw [← Except.ok.inj hkind]
    exact relativeTarPath_confined hpath
  · obtain ⟨target, -, hkind⟩ := except_bind_eq_ok.mp h
    rw [← Except.ok.inj hkind]
    trivial
  · exact hdevice .characterDevice (fun _ _ => trivial) h
  · exact hdevice .blockDevice (fun _ _ => trivial) h
  · rw [← Except.ok.inj h]
    trivial
  · rw [← Except.ok.inj h]
    trivial
  · nomatch h

/-- An entry whose path and link target stay inside the layer. -/
def SnapshotEntry.Confined (entry : SnapshotEntry) : Prop := entry.path.Confined ∧ entry.metadata.kind.Confined

theorem IsMember.confined {bytes : List UInt8} {entry : SnapshotEntry} (h : IsMember bytes entry) : entry.Confined := by
  obtain ⟨header, data, size, -, -, -, hread, -⟩ := h.parts
  simp only [readTarHeader, except_bind_eq_ok] at hread
  obtain ⟨path, hpath, mode, -, uid, -, gid, -, size', -, seconds, -, kind, hkind, hentry⟩ := hread
  rw [← (Prod.mk.inj (Except.ok.inj hentry)).1]
  exact ⟨tarEntryPath_confined hpath, tarEntryKind_confined hkind⟩

theorem Members.confined {bytes : List UInt8} {members : List SnapshotEntry} (h : Members bytes members) :
    ∀ entry ∈ members, entry.Confined := by
  induction h with
  | done | zeros => exact nofun
  | member h _ ih =>
      intro entry hentry
      rcases List.mem_cons.mp hentry with rfl | hentry
      · exact h.confined
      · exact ih entry hentry

/-! ### Cut archives -/

theorem unpackEntries_run {run : List (List UInt8)} {entries : List SnapshotEntry}
    (h : List.Forall₂ IsMember run entries) (rest : List UInt8) :
    unpackEntries (run.flatten ++ rest) = (unpackEntries rest).map (entries ++ ·) := by
  induction h with
  | nil =>
      rw [List.flatten_nil, List.nil_append]
      cases unpackEntries rest <;> rfl
  | cons hmember _ ih =>
      rw [List.flatten_cons, List.append_assoc, unpackEntries_member hmember, ih]
      cases unpackEntries rest <;> rfl

theorem unpackEntries_cut {bytes part : List UInt8} {entry : SnapshotEntry} (h : IsMember bytes entry)
    (hpart : part <+: bytes) (hne : part ≠ []) (hshort : part.length < bytes.length) :
    ∃ error, unpackEntries part = .error error := by
  obtain ⟨header, data, size, rfl, hheader, hsome, hread, hpadded⟩ := h.parts
  have hnonempty : part.isEmpty = false := by rwa [List.isEmpty_eq_false_iff]
  rw [unpackEntries, hnonempty, if_neg Bool.false_ne_true]
  by_cases hcut : part.length < tarBlockSize
  · exact ⟨.truncatedHeader, dif_pos hcut⟩
  · have htake : part.take tarBlockSize = header := by
      have hlead : header <+: part :=
        List.prefix_of_prefix_length_le (List.prefix_append header data) hpart (hheader ▸ Nat.le_of_not_lt hcut)
      rw [← hheader]
      exact (List.prefix_iff_eq_take.mp hlead).symm
    rw [List.length_append, hheader] at hshort
    refine ⟨.truncatedEntryData, ?_⟩
    rw [dif_neg hcut, htake, hsome, if_neg Bool.false_ne_true, hread]
    simp only [hpadded]
    rw [if_pos hshort]

/-- An offset inside the header or the data of a member. -/
def CutsMember (bytes : List UInt8) (cut : Nat) : Prop :=
  ∃ run entries member entry rest, List.Forall₂ IsMember run entries ∧ IsMember member entry ∧
    bytes = run.flatten ++ (member ++ rest) ∧ run.flatten.length < cut ∧ cut < run.flatten.length + member.length

theorem fromUncompressedTar_cut {bytes : List UInt8} {cut : Nat} (h : CutsMember bytes cut) :
    ∃ error, fromUncompressedTar (bytes.take cut) = .error error := by
  obtain ⟨run, entries, member, entry, rest, hrun, hmember, rfl, hlow, hhigh⟩ := h
  have htake : (run.flatten ++ (member ++ rest)).take cut = run.flatten ++ member.take (cut - run.flatten.length) := by
    rw [List.take_append, List.take_of_length_le hlow.le, List.take_append_of_le_length (by omega)]
  have hlength : (member.take (cut - run.flatten.length)).length = cut - run.flatten.length := by
    rw [List.length_take]
    omega
  obtain ⟨error, herror⟩ := unpackEntries_cut hmember (List.take_prefix (cut - run.flatten.length) member)
    (List.ne_nil_of_length_pos (by omega)) (by omega)
  refine ⟨error, ?_⟩
  rw [fromUncompressedTar, htake, unpackEntries_run hrun, herror]
  rfl

/-! ### The last member of a path -/

/-- The files after the members have been extracted one after the other. -/
def extracted (members : List SnapshotEntry) : SortedMap SnapshotPath LinuxMetadata :=
  members.foldl (fun files entry => files.insert entry.path entry.metadata) .empty

def Settled (members : List SnapshotEntry) : Prop :=
  ∀ path, getEntry members path = getEntry members.reverse path

theorem get?_extracted (members : List SnapshotEntry) (path : SnapshotPath) :
    (extracted members).get? path = (getEntry members.reverse path).map SnapshotEntry.metadata := by
  rw [extracted, ← List.foldr_reverse]
  induction members.reverse with
  | nil => rfl
  | cons entry rest ih =>
      rw [List.foldr_cons, SortedMap.get?_insert, getEntry, List.find?_cons]
      by_cases hpath : entry.path = path
      · rw [if_pos hpath.symm, decide_eq_true hpath]
        rfl
      · rw [if_neg (Ne.symm hpath), decide_eq_false hpath]
        exact ih

theorem getEntry_path {entries : List SnapshotEntry} {path : SnapshotPath} {entry : SnapshotEntry}
    (h : getEntry entries path = some entry) : entry.path = path := by
  unfold getEntry at h
  have hfound := List.find?_some h
  exact of_decide_eq_true hfound

theorem getEntry_eq_iff {entries entries' : List SnapshotEntry} {path : SnapshotPath} :
    (getEntry entries path).map SnapshotEntry.metadata = (getEntry entries' path).map SnapshotEntry.metadata ↔
      getEntry entries path = getEntry entries' path := by
  refine ⟨fun h => ?_, fun h => congrArg _ h⟩
  cases hfound : getEntry entries path with
  | none =>
      rw [hfound] at h
      exact (Option.map_eq_none_iff.mp h.symm).symm
  | some entry =>
      rw [hfound] at h
      obtain ⟨entry', hfound', hmetadata⟩ := Option.map_eq_some_iff.mp h.symm
      have hpath := (getEntry_path hfound).trans (getEntry_path hfound').symm
      rw [hfound']
      cases entry
      cases entry'
      cases hpath
      cases hmetadata
      rfl

/-! ### Imports -/

/-- A layer that has the members of an archive, in the order of their paths, and under each path what is there after
the archive has been extracted. -/
structure Unpacks (bytes : List UInt8) (layer : List SnapshotEntry) : Prop where
  confined : ∀ entry ∈ layer, entry.Confined
  sorted : layer.Pairwise fun a b => a.path ≤ b.path
  members : ∃ members, Members bytes members ∧ layer.Perm members ∧
    ∀ path, (getEntry layer path).map SnapshotEntry.metadata = (extracted members).get? path

theorem fromUncompressedTar_ok {bytes : List UInt8} {layer : List SnapshotEntry} :
    fromUncompressedTar bytes = .ok layer ↔ ∃ members, Members bytes members ∧
      members.mergeSort (fun left right => decide (left.path ≤ right.path)) = layer := by
  rw [fromUncompressedTar, except_bind_eq_ok]
  refine exists_congr fun members => and_congr unpackEntries_iff_members ?_
  exact ⟨fun h => Except.ok.inj h, fun h => congrArg Except.ok h⟩

/-- The import goes through on archives of members, fails on archives that are cut, and gives what extracting the
archive would leave if and only if the first and the last member of each path are the same. -/
theorem import_last_writer_iff (bytes : List UInt8) :
    (((∃ layer, fromUncompressedTar bytes = .ok layer) ↔ ∃ members, Members bytes members) ∧
      (∀ cut, CutsMember bytes cut → ∃ error, fromUncompressedTar (bytes.take cut) = .error error) ∧
      ∀ layer, fromUncompressedTar bytes = .ok layer → Unpacks bytes layer) ↔
      ∀ members, Members bytes members → Settled members := by
  have hfound : ∀ members path, getEntry (members.mergeSort fun left right => decide (left.path ≤ right.path)) path =
      getEntry members path := fun members path => find?_mergeSort_key SnapshotEntry.path members path
  constructor
  · rintro ⟨-, -, hunpacks⟩ members hmembers path
    obtain ⟨members', hmembers', -, hlast⟩ := (hunpacks _ (fromUncompressedTar_ok.mpr ⟨members, hmembers, rfl⟩)).members
    have hsame := (unpackEntries_iff_members.mpr hmembers).symm.trans (unpackEntries_iff_members.mpr hmembers')
    obtain rfl := Except.ok.inj hsame
    have hpath := hlast path
    rw [hfound, get?_extracted] at hpath
    exact getEntry_eq_iff.mp hpath
  · intro hsettled
    refine ⟨?_, fun cut => fromUncompressedTar_cut, fun layer hlayer => ?_⟩
    · constructor
      · rintro ⟨layer, hlayer⟩
        obtain ⟨members, hmembers, -⟩ := fromUncompressedTar_ok.mp hlayer
        exact ⟨members, hmembers⟩
      · rintro ⟨members, hmembers⟩
        exact ⟨_, fromUncompressedTar_ok.mpr ⟨members, hmembers, rfl⟩⟩
    · obtain ⟨members, hmembers, rfl⟩ := fromUncompressedTar_ok.mp hlayer
      have hperm := List.mergeSort_perm members fun left right => decide (left.path ≤ right.path)
      refine ⟨fun entry hentry => hmembers.confined entry (hperm.mem_iff.mp hentry), ?_, members, hmembers, hperm,
        fun path => ?_⟩
      · have hsorted := @List.pairwise_mergeSort SnapshotEntry (fun left right => decide (left.path ≤ right.path))
          (fun a b c hab hbc => decide_eq_true (le_trans (of_decide_eq_true hab) (of_decide_eq_true hbc)))
          (fun a b => by simpa using le_total a.path b.path) members
        exact hsorted.imp fun h => of_decide_eq_true h
      · rw [hfound, hsettled members hmembers path, get?_extracted]

/-- `/a` with the mode `0644`, and once more with the mode `0600`. -/
def rewrittenMetadata (mode : UInt32) : LinuxMetadata := ⟨.regular 0, mode, 0, 0, 0⟩

def rewrittenPlan : SnapshotLayerPlan :=
  ⟨[⟨deletedName, .filesystem (rewrittenMetadata 420)⟩, ⟨deletedName, .filesystem (rewrittenMetadata 384)⟩]⟩

def rewrittenArchive : List UInt8 := ((rewrittenPlan.toUncompressedTar .empty).toOption).getD []

/-- The import finds the first of two members with one path. -/
theorem rewritten_finds_first : ∃ layer, fromUncompressedTar rewrittenArchive = .ok layer ∧
    (getEntry layer deletedName).map SnapshotEntry.metadata = some (rewrittenMetadata 420) ∧
    ¬Unpacks rewrittenArchive layer := by
  have hexport : rewrittenPlan.toUncompressedTar .empty = .ok rewrittenArchive := by
    have hsome : (rewrittenPlan.toUncompressedTar .empty).toOption.isSome = true := by decide +kernel
    unfold rewrittenArchive
    cases hresult : rewrittenPlan.toUncompressedTar .empty with
    | ok archive => rfl
    | error error =>
        rw [hresult] at hsome
        nomatch hsome
  have hlegible : ∀ entry ∈ rewrittenPlan.entries, entry.Legible := by
    have hplain : Text.Plain [97] := ⟨by decide +kernel, by decide +kernel⟩
    have hpath : deletedName.Legible := ⟨[97], ⟨none, [97]⟩, rfl, rfl, hplain, ⟨nofun, nofun⟩, by decide⟩
    intro entry hentry
    rcases List.mem_cons.mp hentry with rfl | hentry
    · exact ⟨hpath, trivial⟩
    · obtain rfl := List.mem_singleton.mp hentry
      exact ⟨hpath, trivial⟩
  have hmembers : Members rewrittenArchive
      [⟨deletedName, rewrittenMetadata 420⟩, ⟨deletedName, rewrittenMetadata 384⟩] := by
    obtain ⟨chunks, hchunks, harchive, hlength⟩ := toUncompressedTar_ok.mp hexport
    have hflat : chunks.flatten.length < 2 ^ 64 := by
      rw [harchive, List.length_append] at hlength
      omega
    rw [← unpackEntries_iff_members, harchive]
    exact unpackEntries_legible (hchunks.imp fun _ _ => appendLayerTarEntry_ok) hflat hlegible
  have hread := fromUncompressedTar_ok.mpr ⟨_, hmembers, rfl⟩
  rw [List.mergeSort_of_pairwise (by simp)] at hread
  refine ⟨_, hread, by simp [getEntry], fun hunpacks => ?_⟩
  obtain ⟨members, hmembers', -, hlast⟩ := hunpacks.members
  obtain rfl := Except.ok.inj ((unpackEntries_iff_members.mpr hmembers).symm.trans (unpackEntries_iff_members.mpr hmembers'))
  have hmode := hlast deletedName
  rw [get?_extracted] at hmode
  simp [getEntry, rewrittenMetadata] at hmode

end Mcr.Snapshot
