import Mcr.Snapshot.TarFields

/-!
# What a header keeps

A header is a record of fields, each read back from where it was written. So the import gets the numbers, and the
strings as far as it keeps them.
-/

namespace Mcr.Snapshot

open Prog (except_bind_eq_ok)

/-! ### Writing -/

theorem writeTarFieldString_ok {header header' value : Text} {slot : Slot} {fieldName : String}
    (h : writeTarFieldString header slot value fieldName = .ok header') :
    value.length ≤ slot.width ∧ header' = writeAt header slot.start value := by
  unfold writeTarFieldString at h
  split at h
  · nomatch h
  · exact ⟨Nat.le_of_not_lt ‹_›, (Except.ok.inj h).symm⟩

theorem writeTarLinkName_ok {header header' value : Text} {slot : Slot}
    (h : writeTarLinkName header slot value = .ok header') :
    value.length ≤ slot.width ∧ header' = writeAt header slot.start value := by
  unfold writeTarLinkName at h
  split at h
  · nomatch h
  · exact ⟨Nat.le_of_not_lt ‹_›, (Except.ok.inj h).symm⟩

theorem writeTarFieldOctal_ok {header header' : Text} {slot : Slot} {value : Nat} {fieldName : String}
    (digits : Nat) (hdigits : slot.width - 1 = digits) (h : writeTarFieldOctal header slot value fieldName = .ok header') :
    (octalText digits value).length ≤ slot.width ∧
      header' = writeAt header slot.start (octalText digits value) := by
  subst hdigits
  unfold writeTarFieldOctal at h
  simp only at h
  split at h
  · nomatch h
  · exact ⟨Nat.le_of_lt (Nat.lt_of_not_le ‹_›), (Except.ok.inj h).symm⟩

/-- The texts of the link and of the device numbers, for each kind of file. -/
inductive LinkTexts : SnapshotFileKind → Text → Text → Text → Prop
  | directory : LinkTexts .directory [] [] []
  | regular (size : UInt64) : LinkTexts (.regular size) [] [] []
  | symlink (target : Text) : LinkTexts (.symlink target) target [] []
  | hardlink {target : SnapshotPath} {text : Text} (h : layerTarPath target = .ok text) :
      LinkTexts (.hardlink target) text [] []
  | characterDevice (major minor : UInt32) :
      LinkTexts (.characterDevice major minor) [] (octalText 7 major.toNat) (octalText 7 minor.toNat)
  | blockDevice (major minor : UInt32) :
      LinkTexts (.blockDevice major minor) [] (octalText 7 major.toNat) (octalText 7 minor.toNat)
  | fifo : LinkTexts .fifo [] [] []

namespace LinkTexts

variable {link major minor : Text}

theorem of_symlink {target : Text} (h : LinkTexts (.symlink target) link major minor) : link = target := by
  cases h
  rfl

theorem of_hardlink {target : SnapshotPath} (h : LinkTexts (.hardlink target) link major minor) :
    layerTarPath target = .ok link := by
  cases h
  assumption

theorem of_characterDevice {number number' : UInt32}
    (h : LinkTexts (.characterDevice number number') link major minor) :
    major = octalText 7 number.toNat ∧ minor = octalText 7 number'.toNat := by
  cases h
  exact ⟨rfl, rfl⟩

theorem of_blockDevice {number number' : UInt32} (h : LinkTexts (.blockDevice number number') link major minor) :
    major = octalText 7 number.toNat ∧ minor = octalText 7 number'.toNat := by
  cases h
  exact ⟨rfl, rfl⟩

end LinkTexts

/-- What the fields of a header are written from. -/
structure HeaderParts where
  path : TarPathParts
  seconds : Nat
  link : Text
  major : Text
  minor : Text

def HeaderParts.writes (parts : HeaderParts) (metadata : LinuxMetadata) : List (Slot × Text) :=
  [(nameSlot, parts.path.namePart), (prefixSlot, parts.path.prefixPart.getD []),
    (modeSlot, octalText 7 metadata.mode.toNat), (uidSlot, octalText 7 metadata.uid.toNat),
    (gidSlot, octalText 7 metadata.gid.toNat), (sizeSlot, octalText 11 (tarSize metadata).toNat),
    (mtimeSlot, octalText 11 parts.seconds), (checksumSlot, List.replicate 8 32),
    (typeflagSlot, [tarTypeflag metadata]), (linkNameSlot, parts.link), (devmajorSlot, parts.major),
    (devminorSlot, parts.minor), (magicSlot, [117, 115, 116, 97, 114]), (versionSlot, [48, 48])]

structure IsHeader (path : SnapshotPath) (metadata : LinuxMetadata) (parts : HeaderParts) (header : Text) : Prop where
  text : ∃ text, layerTarPath path = .ok text ∧ splitTarPath text = .ok parts.path
  seconds : tarMtimeSeconds path metadata = .ok parts.seconds
  links : LinkTexts metadata.kind parts.link parts.major parts.minor
  fits : ∀ write ∈ parts.writes metadata, write.2.length ≤ write.1.width
  written : header = writeTarChecksum (writeAll (List.replicate tarBlockSize 0) (parts.writes metadata))

theorem writeTarPrefix_ok {header header' : Text} {prefixPart : Option Text}
    (h : writeTarPrefix header prefixPart = .ok header') :
    (prefixPart.getD []).length ≤ prefixSlot.width ∧
      header' = writeAt header prefixSlot.start (prefixPart.getD []) := by
  cases prefixPart with
  | none => exact ⟨Nat.zero_le _, (Except.ok.inj h).symm.trans (writeAt_nil _ _).symm⟩
  | some prefixPart => exact writeTarFieldString_ok h

/-- The texts that stand in the fields of the link and the device numbers. -/
structure LinkWritten (kind : SnapshotFileKind) (header header' link major minor : Text) : Prop where
  texts : LinkTexts kind link major minor
  fits : link.length ≤ linkNameSlot.width ∧ major.length ≤ devmajorSlot.width ∧ minor.length ≤ devminorSlot.width
  written : header' = writeAt (writeAt (writeAt header linkNameSlot.start link) devmajorSlot.start major)
    devminorSlot.start minor

theorem writeTarLink_ok {header header' : Text} {kind : SnapshotFileKind} (h : writeTarLink header kind = .ok header') :
    ∃ link major minor, LinkWritten kind header header' link major minor := by
  have hname : ∀ {kind : SnapshotFileKind} {text : Text}, LinkTexts kind text [] [] →
      writeTarLinkName header linkNameSlot text = .ok header' →
      ∃ link major minor, LinkWritten kind header header' link major minor := by
    intro kind text htexts hwrite
    obtain ⟨hfits, hwritten⟩ := writeTarLinkName_ok hwrite
    refine ⟨text, [], [], htexts, ⟨hfits, Nat.zero_le _, Nat.zero_le _⟩, ?_⟩
    rw [writeAt_nil, writeAt_nil]
    exact hwritten
  have hdevice : ∀ {kind : SnapshotFileKind} {major minor : UInt32},
      LinkTexts kind [] (octalText 7 major.toNat) (octalText 7 minor.toNat) →
      (writeTarFieldOctal header devmajorSlot major.toNat "devmajor" >>= fun header =>
        writeTarFieldOctal header devminorSlot minor.toNat "devminor") = .ok header' →
      ∃ link major minor, LinkWritten kind header header' link major minor := by
    intro kind major minor htexts hwrites
    obtain ⟨header₁, hmajor, hminor⟩ := except_bind_eq_ok.mp hwrites
    obtain ⟨hfits, rfl⟩ := writeTarFieldOctal_ok 7 rfl hmajor
    obtain ⟨hfits', rfl⟩ := writeTarFieldOctal_ok 7 rfl hminor
    refine ⟨[], _, _, htexts, ⟨Nat.zero_le _, hfits, hfits'⟩, ?_⟩
    rw [writeAt_nil]
  have hnone : ∀ {kind : SnapshotFileKind}, LinkTexts kind [] [] [] → header = header' →
      ∃ link major minor, LinkWritten kind header header' link major minor := by
    rintro kind htexts rfl
    refine ⟨[], [], [], htexts, ⟨Nat.zero_le _, Nat.zero_le _, Nat.zero_le _⟩, ?_⟩
    rw [writeAt_nil, writeAt_nil, writeAt_nil]
  cases kind with
  | symlink target => exact hname (.symlink target) h
  | hardlink target =>
      obtain ⟨text, htext, hwrite⟩ := except_bind_eq_ok.mp h
      exact hname (.hardlink htext) hwrite
  | characterDevice major minor => exact hdevice (.characterDevice major minor) h
  | blockDevice major minor => exact hdevice (.blockDevice major minor) h
  | directory => exact hnone .directory (Except.ok.inj h)
  | regular size => exact hnone (.regular size) (Except.ok.inj h)
  | fifo => exact hnone .fifo (Except.ok.inj h)

theorem appendTarHeader_ok {path : SnapshotPath} {metadata : LinuxMetadata} {header : Text}
    (h : appendTarHeader path metadata = .ok header) : ∃ parts, IsHeader path metadata parts header := by
  unfold appendTarHeader at h
  simp only [except_bind_eq_ok] at h
  obtain ⟨text, htext, pathParts, hparts, h₁, hname, h₂, hlead, h₃, hmode, h₄, huid, h₅, hgid, h₆, hsize, seconds,
    hseconds, h₇, hmtime, h₈, hlinks, h₉, hmagic, h₁₀, hversion, hheader⟩ := h
  obtain ⟨hname, hwrite₁⟩ := writeTarFieldString_ok hname
  obtain ⟨hlead, hwrite₂⟩ := writeTarPrefix_ok hlead
  obtain ⟨hmode, hwrite₃⟩ := writeTarFieldOctal_ok 7 rfl hmode
  obtain ⟨huid, hwrite₄⟩ := writeTarFieldOctal_ok 7 rfl huid
  obtain ⟨hgid, hwrite₅⟩ := writeTarFieldOctal_ok 7 rfl hgid
  obtain ⟨hsize, hwrite₆⟩ := writeTarFieldOctal_ok 11 rfl hsize
  obtain ⟨hmtime, hwrite₇⟩ := writeTarFieldOctal_ok 11 rfl hmtime
  obtain ⟨link, major, minor, hlinks⟩ := writeTarLink_ok hlinks
  obtain ⟨hmagic, hwrite₉⟩ := writeTarFieldString_ok hmagic
  obtain ⟨hversion, hwrite₁₀⟩ := writeTarFieldString_ok hversion
  refine ⟨⟨pathParts, seconds, link, major, minor⟩, ⟨text, htext, hparts⟩, hseconds, hlinks.texts, ?_, ?_⟩
  · simp only [HeaderParts.writes, List.forall_mem_cons]
    exact ⟨hname, hlead, hmode, huid, hgid, hsize, hmtime, Nat.le_refl 8, Nat.le_refl 1, hlinks.fits.1,
      hlinks.fits.2.1, hlinks.fits.2.2, hmagic, hversion, nofun⟩
  · simp only [HeaderParts.writes, writeAll, List.foldl_cons, List.foldl_nil]
    have hwrite₈ := hlinks.written
    rw [hwrite₇, hwrite₆, hwrite₅, hwrite₄, hwrite₃, hwrite₂, hwrite₁] at hwrite₈
    rw [← hwrite₈, ← hwrite₉, ← hwrite₁₀]
    exact (Except.ok.inj hheader).symm

/-! ### Reading -/

theorem checksum_fits {record : Text} (h : record.length = tarBlockSize) :
    (octalText 6 (record.map UInt8.toNat).sum ++ [0, 32]).length ≤ checksumSlot.width := by
  have hsum : ∀ record : Text, (record.map UInt8.toNat).sum ≤ record.length * 255 := by
    intro record
    induction record with
    | nil => exact Nat.le_refl 0
    | cons byte rest ih =>
        have hbyte := byte.toNat_lt
        simp only [List.map_cons, List.sum_cons, List.length_cons]
        omega
  have hdigits : (Nat.toDigits 8 (record.map UInt8.toNat).sum).length ≤ 6 := by
    rw [Nat.length_toDigits_le_iff (by decide) (by decide)]
    have hbound := hsum record
    rw [h] at hbound
    exact lt_of_le_of_lt hbound (by decide)
  have htext : (octalText 6 (record.map UInt8.toNat).sum).length = 6 := by
    rw [octalText, List.length_leftpad, List.length_map]
    omega
  rw [List.length_append, htext]
  decide

namespace IsHeader

variable {path : SnapshotPath} {metadata : LinuxMetadata} {parts : HeaderParts} {header : Text}

theorem laid (h : IsHeader path metadata parts header) :
    Laid (List.replicate tarBlockSize (0 : UInt8)).length (parts.writes metadata) := by
  refine ⟨fun write hwrite => ?_, h.fits, ?_⟩
  · have hslots : ∀ slot ∈ (parts.writes metadata).map Prod.fst, slot.stop ≤ tarBlockSize := by
      change ∀ slot ∈ [nameSlot, prefixSlot, modeSlot, uidSlot, gidSlot, sizeSlot, mtimeSlot, checksumSlot,
        typeflagSlot, linkNameSlot, devmajorSlot, devminorSlot, magicSlot, versionSlot], slot.stop ≤ tarBlockSize
      decide
    rw [List.length_replicate]
    exact hslots write.1 (List.mem_map_of_mem hwrite)
  · change [nameSlot, prefixSlot, modeSlot, uidSlot, gidSlot, sizeSlot, mtimeSlot, checksumSlot,
      typeflagSlot, linkNameSlot, devmajorSlot, devminorSlot, magicSlot, versionSlot].Pairwise Slot.Apart
    decide

theorem record_length (h : IsHeader path metadata parts header) :
    (writeAll (List.replicate tarBlockSize 0) (parts.writes metadata)).length = tarBlockSize :=
  (length_writeAll h.laid).trans List.length_replicate

theorem length (h : IsHeader path metadata parts header) : header.length = tarBlockSize := by
  have hrecord := h.record_length
  have hchecksum := checksum_fits hrecord
  rw [h.written, writeTarChecksum, length_writeAt]
  · exact hrecord
  · rw [hrecord]
    exact le_trans (Nat.add_le_add_left hchecksum _) (by decide)

theorem field (h : IsHeader path metadata parts header) {slot : Slot} {value : Text}
    (hwrite : (slot, value) ∈ parts.writes metadata) (hslot : slot.Apart checksumSlot) :
    slot.field header = value ++ List.replicate (slot.width - value.length) 0 := by
  have hinside : slot.stop ≤ tarBlockSize := by
    have hstop := h.laid.inside _ hwrite
    rwa [List.length_replicate] at hstop
  have hzeros : slot.field (List.replicate tarBlockSize (0 : UInt8)) = List.replicate slot.width 0 := by
    generalize tarBlockSize = size at hinside
    unfold Slot.stop at hinside
    unfold Slot.field
    rw [List.drop_replicate, List.take_replicate, Nat.min_eq_left (by omega)]
  have hrecord := h.record_length
  have hfield : slot.field (writeAll (List.replicate tarBlockSize 0) (parts.writes metadata)) =
      value ++ List.replicate (slot.width - value.length) 0 := by
    rw [field_writeAll h.laid hwrite, hzeros, List.drop_replicate]
  have hwritten := h.written
  generalize writeAll (List.replicate tarBlockSize 0) (parts.writes metadata) = record at hrecord hfield hwritten
  have hchecksum := checksum_fits hrecord
  have hstop : checksumSlot.stop ≤ record.length := by
    rw [hrecord]
    decide
  rw [hwritten, writeTarChecksum, field_writeAt_apart hslot hchecksum hstop]
  exact hfield

theorem byte (h : IsHeader path metadata parts header) {slot : Slot} {value : Text} {byte : UInt8}
    (hwrite : (slot, byte :: value) ∈ parts.writes metadata) (hslot : slot.Apart checksumSlot) :
    header[slot.start]? = some byte := by
  have hfits := h.fits _ hwrite
  have hbyte := getElem?_field slot header 0
  rw [h.field hwrite hslot, if_pos (Nat.lt_of_lt_of_le (Nat.succ_pos _) hfits)] at hbyte
  exact hbyte.symm

theorem typeflag (h : IsHeader path metadata parts header) :
    (header[typeflagSlot.start]?).getD 0 = tarTypeflag metadata := by
  have hwrite : (typeflagSlot, [tarTypeflag metadata]) ∈ parts.writes metadata := by simp [HeaderParts.writes]
  rw [h.byte hwrite (by decide)]
  rfl

theorem not_zero (h : IsHeader path metadata parts header) : header.all (· == 0) = false := by
  have hwrite : (magicSlot, [117, 115, 116, 97, 114]) ∈ parts.writes metadata := by simp [HeaderParts.writes]
  have hbyte := h.byte hwrite (by decide)
  rw [List.all_eq_false]
  exact ⟨117, List.mem_of_getElem? hbyte, by decide⟩

end IsHeader

end Mcr.Snapshot
