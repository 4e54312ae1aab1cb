import Mcr.Snapshot.Paths

/-!
# The members of an archive

An archive is its members one after the other, up to the first header of zeros. The import gets these members in the
order of their paths, and those of one path in the order of the archive.
-/

namespace Mcr.Snapshot

/-- The bytes of one member: a header that says something and the padded data it gives the size of. -/
structure IsMember (bytes : List UInt8) (entry : SnapshotEntry) : Prop where
  parts : ∃ header data size, bytes = header ++ data ∧ header.length = tarBlockSize ∧ header.all (· == 0) = false ∧
    readTarHeader header = .ok (entry, size) ∧ paddedTarLen size = .ok data.length

inductive Members : List UInt8 → List SnapshotEntry → Prop
  | done : Members [] []
  | zeros {header rest : List UInt8} (hlength : header.length = tarBlockSize) (hzeros : header.all (· == 0) = true) :
      Members (header ++ rest) []
  | member {bytes rest : List UInt8} {entry : SnapshotEntry} {entries : List SnapshotEntry} (h : IsMember bytes entry)
      (hrest : Members rest entries) : Members (bytes ++ rest) (entry :: entries)

theorem unpackEntries_zeros {header rest : List UInt8} (hlength : header.length = tarBlockSize)
    (hzeros : header.all (· == 0) = true) : unpackEntries (header ++ rest) = .ok [] := by
  have htake : (header ++ rest).take tarBlockSize = header := by
    rw [← hlength]
    exact List.take_left
  have hlong : tarBlockSize ≤ (header ++ rest).length := by
    rw [List.length_append, hlength]
    exact Nat.le_add_right _ _
  rw [unpackEntries]
  split
  · rfl
  · rw [dif_neg (Nat.not_lt_of_le hlong), htake, if_pos hzeros]

theorem unpackEntries_step {header data : List UInt8} (rest : List UInt8) (hlength : header.length = tarBlockSize)
    (hsome : header.all (· == 0) = false)
    (hpadded : ∀ found, readTarHeader header = .ok found → paddedTarLen found.2 = .ok data.length) :
    unpackEntries (header ++ data ++ rest) =
      (readTarHeader header >>= fun found => unpackEntries rest >>= fun entries => pure (found.1 :: entries)) := by
  have htake : (header ++ data ++ rest).take tarBlockSize = header := by
    rw [← hlength, List.append_assoc]
    exact List.take_left
  have hdrop : (header ++ data ++ rest).drop (tarBlockSize + data.length) = rest := by
    rw [← hlength, ← List.length_append]
    exact List.drop_left
  have hlong : tarBlockSize + data.length ≤ (header ++ data ++ rest).length := by
    rw [List.length_append, List.length_append, hlength]
    exact Nat.le_add_right _ _
  have hne : (header ++ data ++ rest).isEmpty = false := by
    rw [List.isEmpty_eq_false_iff, ← List.length_pos_iff]
    exact Nat.lt_of_lt_of_le (Nat.lt_of_lt_of_le (by decide) (Nat.le_add_right tarBlockSize _)) hlong
  generalize header ++ data ++ rest = bytes at htake hdrop hlong hne
  rw [unpackEntries, hne, if_neg Bool.false_ne_true, dif_neg (by omega), htake, hsome, if_neg Bool.false_ne_true]
  cases hread : readTarHeader header with
  | error error => rfl
  | ok found =>
      obtain ⟨entry, size⟩ := found
      simp only [hpadded _ hread, hdrop]
      rw [if_neg (Nat.not_lt_of_le hlong)]
      cases unpackEntries rest <;> rfl

theorem unpackEntries_member {bytes rest : List UInt8} {entry : SnapshotEntry} (h : IsMember bytes entry) :
    unpackEntries (bytes ++ rest) = (unpackEntries rest).map (entry :: ·) := by
  obtain ⟨header, data, size, rfl, hheader, hsome, hread, hpadded⟩ := h.parts
  have hfound : ∀ found, readTarHeader header = .ok found → paddedTarLen found.2 = .ok data.length := by
    intro found hok
    rw [← Except.ok.inj (hread.symm.trans hok)]
    exact hpadded
  rw [unpackEntries_step rest hheader hsome hfound, hread]
  cases unpackEntries rest <;> rfl

/-- The import gets the members of the archive, and fails if it is not made up of members. -/
theorem unpackEntries_iff_members {bytes : List UInt8} {entries : List SnapshotEntry} :
    unpackEntries bytes = .ok entries ↔ Members bytes entries := by
  constructor
  · intro h
    induction hsize : bytes.length using Nat.strongRecOn generalizing bytes entries with
    | ind size ih =>
      rw [unpackEntries] at h
      split at h
      · rename_i hempty
        rw [← Except.ok.inj h, List.isEmpty_iff.mp hempty]
        exact .done
      split at h
      · cases h
      rename_i hlong
      have hheader : (bytes.take tarBlockSize).length = tarBlockSize := by
        rw [List.length_take]
        exact Nat.min_eq_left (Nat.le_of_not_lt hlong)
      split at h
      · rename_i hzeros
        have hmembers : Members (bytes.take tarBlockSize ++ bytes.drop tarBlockSize) [] := .zeros hheader hzeros
        rw [List.take_append_drop] at hmembers
        rw [← Except.ok.inj h]
        exact hmembers
      rename_i hsome
      split at h
      · cases h
      rename_i entry memberSize hread
      split at h
      · cases h
      rename_i dataLen hpadded
      split at h
      · cases h
      rename_i hdata
      split at h
      · cases h
      rename_i others hothers
      obtain rfl := Except.ok.inj h
      have hrest := ih _ (by
        rw [List.length_drop]
        unfold tarBlockSize at *
        omega) hothers rfl
      have hmember : IsMember (bytes.take tarBlockSize ++ (bytes.drop tarBlockSize).take dataLen) entry := by
        refine ⟨_, _, memberSize, rfl, hheader, Bool.eq_false_iff.mpr hsome, hread, ?_⟩
        rw [hpadded, List.length_take, List.length_drop, Nat.min_eq_left (by omega)]
      have hmembers := Members.member hmember hrest
      rw [List.append_assoc, ← List.drop_drop, List.take_append_drop, List.take_append_drop] at hmembers
      exact hmembers
  · intro h
    induction h with
    | done => rw [unpackEntries]; rfl
    | zeros hlength hzeros => exact unpackEntries_zeros hlength hzeros
    | member h _ ih => rw [unpackEntries_member h, ih]; rfl

end Mcr.Snapshot
