import Mcr.Snapshot.Members
import Mcr.Snapshot.TarRead

/-!
# Round trips of archives

The import of an exported plan gives one entry for each entry of the plan, in the same order, if and only if the strings
of the plan are legible.
-/

namespace Mcr.Snapshot

open Prog (except_bind_eq_ok)

/-! ### The chunks of an archive -/

def LayerEntryKind.shown : LayerEntryKind → LinuxMetadata
  | .filesystem metadata => metadata
  | .whiteout _ | .opaqueDirectory _ => markMetadata

/-- What the import is to give for an entry. -/
def LayerEntry.unpacked (entry : LayerEntry) : SnapshotEntry := ⟨entry.path, entry.kind.shown.unpacked⟩

/-- The bytes of an entry: a header, and the content it gives the size of. -/
def IsChunk (entry : LayerEntry) (chunk : List UInt8) : Prop :=
  ∃ parts header content, IsHeader entry.path entry.kind.shown parts header ∧
    content.length = (tarSize entry.kind.shown).toNat ∧ chunk = header ++ appendTarContent content

theorem regularContentFor_length {path : SnapshotPath} {metadata : LinuxMetadata}
    {regularContents : SortedMap SnapshotPath (List UInt8)} {content : List UInt8}
    (h : regularContentFor path metadata regularContents = .ok content) :
    content.length = (tarSize metadata).toNat := by
  unfold regularContentFor at h
  unfold tarSize
  split at h
  · split at h
    · split at h
      · rename_i hzero
        rw [← Except.ok.inj h, hzero]
        rfl
      · nomatch h
    · split at h
      · nomatch h
      · rename_i hlength
        rw [← Except.ok.inj h]
        exact not_not.mp hlength
  · rename_i hkind
    rw [← Except.ok.inj h]
    cases hcase : metadata.kind with
    | regular size => exact absurd hcase (hkind size)
    | _ => rfl

theorem appendLayerTarEntry_ok {entry : LayerEntry} {regularContents : SortedMap SnapshotPath (List UInt8)}
    {chunk : List UInt8} (h : appendLayerTarEntry entry regularContents = .ok chunk) : IsChunk entry chunk := by
  have hmark : ∀ kind : LayerEntryKind, entry.kind = kind → kind.shown = markMetadata →
      appendTarHeader entry.path markMetadata = .ok chunk → IsChunk entry chunk := by
    rintro _ rfl hshown hheader
    obtain ⟨parts, hparts⟩ := appendTarHeader_ok hheader
    refine ⟨parts, chunk, [], hshown ▸ hparts, hshown ▸ rfl, ?_⟩
    rw [appendTarContent]
    simp [tarBlockSize]
  unfold appendLayerTarEntry at h
  cases hkind : entry.kind with
  | filesystem metadata =>
      rw [hkind] at h
      simp only [except_bind_eq_ok] at h
      obtain ⟨content, hcontent, header, hheader, hchunk⟩ := h
      obtain ⟨parts, hparts⟩ := appendTarHeader_ok hheader
      refine ⟨parts, header, content, ?_, ?_, (Except.ok.inj hchunk).symm⟩
      · rw [hkind]
        exact hparts
      · rw [hkind]
        exact regularContentFor_length hcontent
  | whiteout deletedPath =>
      rw [hkind] at h
      exact hmark _ hkind rfl h
  | opaqueDirectory directoryPath =>
      rw [hkind] at h
      exact hmark _ hkind rfl h

theorem foldlM_chunks_ok {regularContents : SortedMap SnapshotPath (List UInt8)} {entries : List LayerEntry}
    {before after : List UInt8} :
    entries.foldlM (fun archive entry => do
        let bytes ← appendLayerTarEntry entry regularContents
        pure (archive ++ bytes)) before = .ok after ↔
      ∃ chunks, List.Forall₂ (fun entry chunk => appendLayerTarEntry entry regularContents = .ok chunk) entries chunks ∧
        after = before ++ chunks.flatten := by
  induction entries generalizing before with
  | nil =>
      constructor
      · intro h
        exact ⟨[], .nil, by rw [← Except.ok.inj h]; simp⟩
      · rintro ⟨chunks, hchunks, rfl⟩
        cases hchunks
        exact congrArg Except.ok (List.append_nil before).symm
  | cons entry rest ih =>
      rw [List.foldlM_cons, except_bind_eq_ok]
      constructor
      · rintro ⟨next, hnext, hrest⟩
        obtain ⟨chunk, hchunk, hjoin⟩ := except_bind_eq_ok.mp hnext
        obtain rfl := Except.ok.inj hjoin
        obtain ⟨chunks, hchunks, hafter⟩ := ih.mp hrest
        exact ⟨chunk :: chunks, .cons hchunk hchunks, by rw [hafter, List.flatten_cons, List.append_assoc]⟩
      · rintro ⟨chunks, hchunks, rfl⟩
        cases hchunks with
        | cons hchunk hrest =>
            refine ⟨_, except_bind_eq_ok.mpr ⟨_, hchunk, rfl⟩, ih.mpr ⟨_, hrest, ?_⟩⟩
            rw [List.flatten_cons, List.append_assoc]

theorem toUncompressedTar_ok {plan : SnapshotLayerPlan} {regularContents : SortedMap SnapshotPath (List UInt8)}
    {archive : List UInt8} : plan.toUncompressedTar regularContents = .ok archive ↔
    ∃ chunks, List.Forall₂ (fun entry chunk => appendLayerTarEntry entry regularContents = .ok chunk)
        plan.entries chunks ∧
      archive = chunks.flatten ++ List.replicate (tarBlockSize * 2) 0 ∧ archive.length < 2 ^ 63 := by
  unfold SnapshotLayerPlan.toUncompressedTar
  rw [except_bind_eq_ok]
  constructor
  · rintro ⟨body, hbody, hend⟩
    obtain ⟨chunks, hchunks, rfl⟩ := foldlM_chunks_ok.mp hbody
    simp only at hend
    split at hend
    · nomatch hend
    · rename_i hlength
      obtain rfl := Except.ok.inj hend
      exact ⟨chunks, hchunks, rfl, Nat.lt_of_not_le hlength⟩
  · rintro ⟨chunks, hchunks, rfl, hlength⟩
    exact ⟨_, foldlM_chunks_ok.mpr ⟨chunks, hchunks, rfl⟩, if_neg (Nat.not_le_of_lt hlength)⟩

/-! ### The import of a chunk -/

theorem length_appendTarContent (content : List UInt8) : (appendTarContent content).length =
    content.length + (tarBlockSize - content.length % tarBlockSize) % tarBlockSize := by
  rw [appendTarContent, List.length_append, List.length_replicate]

theorem unpackEntries_chunk {entry : LayerEntry} {parts : HeaderParts} {header content rest : List UInt8}
    (h : IsHeader entry.path entry.kind.shown parts header)
    (hcontent : content.length = (tarSize entry.kind.shown).toNat)
    (hlength : (appendTarContent content).length < 2 ^ 64) :
    unpackEntries (header ++ appendTarContent content ++ rest) =
      (readTarHeader header >>= fun found => unpackEntries rest >>= fun entries => pure (found.1 :: entries)) := by
  refine unpackEntries_step rest h.length h.not_zero fun found hread => ?_
  obtain ⟨hsize, -, -⟩ := h.readTarHeader_ok hread
  rw [length_appendTarContent, hcontent] at hlength ⊢
  rw [hsize]
  exact if_neg (Nat.not_le_of_lt hlength)

/-! ### The import of an archive -/

/-- The strings of an entry come back. -/
def LayerEntry.Legible (entry : LayerEntry) : Prop := entry.path.Legible ∧ entry.kind.shown.kind.Legible

theorem unpackEntries_end : unpackEntries (List.replicate (tarBlockSize * 2) 0) = .ok [] := by
  have hzeros : (List.replicate tarBlockSize (0 : UInt8)).all (· == 0) = true := by
    rw [List.all_eq_true]
    exact fun byte hbyte => beq_iff_eq.mpr (List.eq_of_mem_replicate hbyte)
  rw [Nat.mul_two, ← List.replicate_append_replicate]
  exact unpackEntries_zeros List.length_replicate hzeros

theorem chunk_fits {content : List UInt8} {header : List UInt8} {chunks : List (List UInt8)}
    (h : ((header ++ appendTarContent content) :: chunks).flatten.length < 2 ^ 64) :
    (appendTarContent content).length < 2 ^ 64 ∧ chunks.flatten.length < 2 ^ 64 := by
  rw [List.flatten_cons, List.length_append, List.length_append] at h
  omega

theorem unpackEntries_legible {entries : List LayerEntry} {chunks : List (List UInt8)}
    (h : List.Forall₂ IsChunk entries chunks) (hlength : chunks.flatten.length < 2 ^ 64)
    (hlegible : ∀ entry ∈ entries, entry.Legible) :
    unpackEntries (chunks.flatten ++ List.replicate (tarBlockSize * 2) 0) = .ok (entries.map LayerEntry.unpacked) := by
  induction h with
  | nil => exact unpackEntries_end
  | @cons entry chunk entries chunks hchunk _ ih =>
      obtain ⟨parts, header, content, hheader, hcontent, rfl⟩ := hchunk
      obtain ⟨hfits, hrest⟩ := chunk_fits hlength
      obtain ⟨hpath, hkind⟩ := hlegible entry List.mem_cons_self
      rw [List.flatten_cons, List.append_assoc, unpackEntries_chunk hheader hcontent hfits,
        hheader.readTarHeader_legible hpath hkind,
        ih hrest fun other hother => hlegible other (List.mem_cons_of_mem entry hother)]
      rfl

/-- The import gets one entry for each, together with no longer strings, and with strings as long only of legible
entries. -/
theorem unpackEntries_lengths {entries : List LayerEntry} {chunks : List (List UInt8)}
    (h : List.Forall₂ IsChunk entries chunks) (hlength : chunks.flatten.length < 2 ^ 64) {found : List SnapshotEntry}
    (hread : unpackEntries (chunks.flatten ++ List.replicate (tarBlockSize * 2) 0) = .ok found) :
    (found.map stringLength).sum ≤ (entries.map fun entry => stringLength entry.unpacked).sum ∧
      ((found.map stringLength).sum = (entries.map fun entry => stringLength entry.unpacked).sum →
        ∀ entry ∈ entries, entry.Legible) := by
  induction h generalizing found with
  | nil =>
      rw [List.flatten_nil, List.nil_append, unpackEntries_end] at hread
      obtain rfl := Except.ok.inj hread
      exact ⟨Nat.le_refl _, fun _ entry hentry => (nomatch hentry)⟩
  | @cons entry chunk entries chunks hchunk _ ih =>
      obtain ⟨parts, header, content, hheader, hcontent, rfl⟩ := hchunk
      obtain ⟨hfits, hrest⟩ := chunk_fits hlength
      rw [List.flatten_cons, List.append_assoc, unpackEntries_chunk hheader hcontent hfits] at hread
      obtain ⟨first, hfirst, hread⟩ := except_bind_eq_ok.mp hread
      obtain ⟨others, hothers, hfound⟩ := except_bind_eq_ok.mp hread
      obtain rfl := Except.ok.inj hfound
      obtain ⟨-, hle, hsame⟩ := hheader.readTarHeader_ok hfirst
      obtain ⟨hles, hsames⟩ := ih hrest hothers
      have hstrings : stringLength ⟨entry.path, entry.kind.shown⟩ = stringLength entry.unpacked := rfl
      rw [hstrings] at hle hsame
      simp only [List.map_cons, List.sum_cons]
      refine ⟨Nat.add_le_add hle hles, fun hequal other hother => ?_⟩
      rcases List.mem_cons.mp hother with rfl | hother
      · exact hsame (by omega)
      · exact hsames (by omega) other hother

/-- The import of an exported plan gives its entries, in its order, if and only if their strings are legible. -/
theorem fromUncompressedTar_exported_iff {plan : SnapshotLayerPlan}
    {regularContents : SortedMap SnapshotPath (List UInt8)} {archive : List UInt8}
    (hsorted : plan.entries.Pairwise fun a b => a.path < b.path)
    (h : plan.toUncompressedTar regularContents = .ok archive) :
    fromUncompressedTar archive = .ok (plan.entries.map LayerEntry.unpacked) ↔
      ∀ entry ∈ plan.entries, entry.Legible := by
  obtain ⟨chunks, hchunks, rfl, hlength⟩ := toUncompressedTar_ok.mp h
  have hchunks := hchunks.imp fun entry chunk hentry => appendLayerTarEntry_ok hentry
  have hlength : chunks.flatten.length < 2 ^ 64 := by
    rw [List.length_append] at hlength
    omega
  have hordered : (plan.entries.map LayerEntry.unpacked).mergeSort (fun left right => decide (left.path ≤ right.path)) =
      plan.entries.map LayerEntry.unpacked := by
    refine List.mergeSort_of_pairwise (List.pairwise_map.mpr (hsorted.imp fun hlt => ?_))
    exact decide_eq_true hlt.le
  unfold fromUncompressedTar
  constructor
  · intro hread
    obtain ⟨found, hfound, hsort⟩ := except_bind_eq_ok.mp hread
    obtain ⟨-, hsame⟩ := unpackEntries_lengths hchunks hlength hfound
    refine hsame ?_
    have hperm := List.mergeSort_perm found fun left right => decide (left.path ≤ right.path)
    rw [Except.ok.inj hsort] at hperm
    rw [← (hperm.map stringLength).sum_eq, List.map_map]
    rfl
  · intro hlegible
    rw [unpackEntries_legible hchunks hlength hlegible]
    exact congrArg Except.ok hordered

end Mcr.Snapshot
