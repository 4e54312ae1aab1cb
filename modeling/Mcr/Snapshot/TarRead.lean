import Mcr.Snapshot.Paths
import Mcr.Snapshot.TarHeader

/-!
# Reading a header back

The import of a header gives the entry it was written for, the time without its fraction, if and only if it keeps the
strings of the entry. Otherwise it fails or gets shorter strings.
-/

namespace Mcr.Snapshot

open Prog (except_bind_eq_ok)

/-- A path that the import reads as it was written: ASCII without zeros and backslashes, and no blank at the end of the
name field or the prefix field. -/
def SnapshotPath.Legible (path : SnapshotPath) : Prop :=
  ∃ text parts, layerTarPath path = .ok text ∧ splitTarPath text = .ok parts ∧ parts.namePart.Plain ∧
    (parts.prefixPart.getD []).Plain ∧ 92 ∉ text

def SnapshotFileKind.Legible : SnapshotFileKind → Prop
  | .symlink target => target.Plain
  | .hardlink target => ∃ text, layerTarPath target = .ok text ∧ text.Plain ∧ 92 ∉ text
  | _ => True

/-- How long the string of a link is. -/
def SnapshotFileKind.linkLength : SnapshotFileKind → Nat
  | .symlink target => target.length
  | .hardlink target => target.text.length
  | _ => 0

/-- How many bytes the strings of an entry have. -/
def stringLength (entry : SnapshotEntry) : Nat := entry.path.text.length + entry.metadata.kind.linkLength

/-- The time without its fraction of a second. -/
def LinuxMetadata.unpacked (metadata : LinuxMetadata) : LinuxMetadata :=
  { metadata with mtimeUnixNanos := metadata.mtimeUnixNanos / 1000000000 * 1000000000 }

/-! ### Paths -/

theorem trimTrailingSlashes_inner {text : Text} (h : Inner text) : trimTrailingSlashes text = text := by
  apply rdropWhile_of_last
  intro byte hbyte
  rw [beq_eq_false_iff_ne]
  rintro rfl
  exact h.last hbyte

theorem relativeTarPath_inner {path : SnapshotPath} {text : Text} (hpath : path.text = slash :: text)
    (hinner : Inner text) (h : 92 ∉ text) : relativeTarPathToSnapshotPath text = .ok path := by
  have hshape : ¬(text.isEmpty = true ∨ text.head? = some slash ∨ 92 ∈ text) := by
    rw [not_or, not_or, List.isEmpty_iff]
    exact ⟨hinner.nonempty, hinner.first, h⟩
  unfold relativeTarPathToSnapshotPath
  rw [if_neg hshape, ← hpath, SnapshotPath.new_text]

theorem relativeTarPath_ok {path : SnapshotPath} {text : Text} (h : relativeTarPathToSnapshotPath text = .ok path) :
    path.text = slash :: text ∧ 92 ∉ text := by
  unfold relativeTarPathToSnapshotPath at h
  split at h
  · nomatch h
  rename_i hshape
  rw [not_or, not_or] at hshape
  split at h
  · rename_i hnew
    obtain rfl := Except.ok.inj h
    exact ⟨SnapshotPath.new_ok hnew, hshape.2.2⟩
  · nomatch h

namespace IsHeader

variable {path : SnapshotPath} {metadata : LinuxMetadata} {parts : HeaderParts} {header : Text}

theorem nameField (h : IsHeader path metadata parts header) : nameSlot.field header =
    parts.path.namePart ++ List.replicate (nameSlot.width - parts.path.namePart.length) 0 :=
  h.field (by simp [HeaderParts.writes]) (by decide)

theorem prefixField (h : IsHeader path metadata parts header) : prefixSlot.field header =
    parts.path.prefixPart.getD [] ++ List.replicate (prefixSlot.width - (parts.path.prefixPart.getD []).length) 0 :=
  h.field (by simp [HeaderParts.writes]) (by decide)

theorem linkField (h : IsHeader path metadata parts header) : linkNameSlot.field header =
    parts.link ++ List.replicate (linkNameSlot.width - parts.link.length) 0 :=
  h.field (by simp [HeaderParts.writes]) (by decide)

theorem tarEntryPath_legible (h : IsHeader path metadata parts header) (hlegible : path.Legible) :
    tarEntryPath header = .ok path := by
  obtain ⟨text, pathParts, htext, hsplit, hname, hlead, hbackslash⟩ := hlegible
  obtain ⟨text', htext', hsplit'⟩ := h.text
  obtain rfl := Except.ok.inj (htext.symm.trans htext')
  obtain rfl := Except.ok.inj (hsplit.symm.trans hsplit')
  obtain ⟨hpath, hinner⟩ := layerTarPath_ok htext
  have hjoined : (if (parts.path.prefixPart.getD []).isEmpty then parts.path.namePart
      else parts.path.prefixPart.getD [] ++ slash :: parts.path.namePart) = text := by
    rcases splitTarPath_ok hsplit with ⟨hnone, hname⟩ | ⟨prefixPart, hsome, hne, _, hjoin⟩
    · rw [hnone]
      exact hname
    · rw [hsome, Option.getD_some, if_neg (by rwa [List.isEmpty_iff])]
      exact hjoin.symm
  unfold tarEntryPath
  rw [h.nameField, tarString_plain hname, h.prefixField, tarString_plain hlead]
  show relativeTarPathToSnapshotPath (trimTrailingSlashes (if (parts.path.prefixPart.getD []).isEmpty
    then parts.path.namePart else parts.path.prefixPart.getD [] ++ slash :: parts.path.namePart)) = _
  rw [hjoined, trimTrailingSlashes_inner hinner]
  exact relativeTarPath_inner hpath hinner hbackslash

theorem tarEntryPath_ok (h : IsHeader path metadata parts header) {found : SnapshotPath}
    (hread : tarEntryPath header = .ok found) :
    found.text.length ≤ path.text.length ∧ (found.text.length = path.text.length → path.Legible) := by
  obtain ⟨text, htext, hsplit⟩ := h.text
  obtain ⟨hpath, hinner⟩ := layerTarPath_ok htext
  unfold tarEntryPath at hread
  rw [h.nameField, h.prefixField] at hread
  simp only [except_bind_eq_ok] at hread
  obtain ⟨name, hname, prefixText, hlead, hrelative⟩ := hread
  obtain ⟨hname, hnameSame⟩ := tarString_ok hname
  obtain ⟨hlead, hprefixSame⟩ := tarString_ok hlead
  obtain ⟨hfound, hbackslash⟩ := relativeTarPath_ok hrelative
  have hfoundLength := congrArg List.length hfound
  have hpathLength := congrArg List.length hpath
  rw [List.length_cons] at hfoundLength hpathLength
  -- nothing is trimmed from a text that is as long as the one that was written
  have htrim : ∀ joined : Text, (trimTrailingSlashes joined).length ≤ joined.length ∧
      ((trimTrailingSlashes joined).length = joined.length → trimTrailingSlashes joined = joined) := by
    intro joined
    have hshorter : trimTrailingSlashes joined <+: joined := List.rdropWhile_prefix _ _
    exact ⟨hshorter.length_le, hshorter.eq_of_length⟩
  rcases splitTarPath_ok hsplit with ⟨hnone, hwhole⟩ | ⟨prefixPart, hsome, _, _, hjoin⟩
  · rw [hnone, Option.getD_none] at hlead hprefixSame
    have hnil : prefixText = [] := List.eq_nil_of_length_eq_zero (Nat.le_zero.mp hlead)
    rw [hnil, List.isEmpty_nil, if_pos rfl] at hfoundLength hbackslash
    obtain ⟨htrimmed, htrimSame⟩ := htrim name
    have hwholeLength := congrArg List.length hwhole
    refine ⟨by omega, fun hlength => ?_⟩
    obtain ⟨hsame, hplain⟩ := hnameSame (by omega)
    rw [htrimSame (by omega), hsame, hwhole] at hbackslash
    refine ⟨text, parts.path, htext, hsplit, hplain, ?_, hbackslash⟩
    rw [hnone]
    exact ⟨nofun, nofun⟩
  · rw [hsome, Option.getD_some] at hlead hprefixSame
    have htextLength := congrArg List.length hjoin
    rw [List.length_append, List.length_cons] at htextLength
    by_cases hempty : prefixText = []
    · rw [hempty, List.isEmpty_nil, if_pos rfl] at hfoundLength
      obtain ⟨htrimmed, -⟩ := htrim name
      exact ⟨by omega, fun hlength => by omega⟩
    · rw [if_neg (by rwa [List.isEmpty_iff])] at hfoundLength hbackslash
      obtain ⟨htrimmed, htrimSame⟩ := htrim (prefixText ++ slash :: name)
      rw [List.length_append, List.length_cons] at htrimmed htrimSame
      refine ⟨by omega, fun hlength => ?_⟩
      obtain ⟨hnameKept, hnamePlain⟩ := hnameSame (by omega)
      obtain ⟨hprefixKept, hprefixPlain⟩ := hprefixSame (by omega)
      rw [htrimSame (by omega), hnameKept, hprefixKept, ← hjoin] at hbackslash
      refine ⟨text, parts.path, htext, hsplit, hnamePlain, ?_, hbackslash⟩
      rw [hsome]
      exact hprefixPlain

/-! ### Kinds -/

theorem majorField (h : IsHeader path metadata parts header) : devmajorSlot.field header =
    parts.major ++ List.replicate (devmajorSlot.width - parts.major.length) 0 :=
  h.field (by simp [HeaderParts.writes]) (by decide)

theorem minorField (h : IsHeader path metadata parts header) : devminorSlot.field header =
    parts.minor ++ List.replicate (devminorSlot.width - parts.minor.length) 0 :=
  h.field (by simp [HeaderParts.writes]) (by decide)

theorem device (h : IsHeader path metadata parts header) {major minor : UInt32}
    (hmajor : parts.major = octalText 7 major.toNat) (hminor : parts.minor = octalText 7 minor.toNat)
    (kind : UInt32 → UInt32 → SnapshotFileKind) :
    (do
      let major ← tarOctal32 (devmajorSlot.field header) "devmajor"
      let minor ← tarOctal32 (devminorSlot.field header) "devminor"
      pure (kind major minor)) = (.ok (kind major minor) : Except LayerUnpackError SnapshotFileKind) := by
  rw [h.majorField, h.minorField, hmajor, hminor, tarOctal32_octalText, tarOctal32_octalText]
  rfl

theorem tarEntryKind_legible (h : IsHeader path metadata parts header) (hlegible : metadata.kind.Legible) :
    tarEntryKind header (tarSize metadata) = .ok metadata.kind := by
  have hlinks := h.links
  unfold tarEntryKind
  rw [h.typeflag]
  unfold tarTypeflag tarSize
  cases hkind : metadata.kind with
  | regular size => rfl
  | directory => rfl
  | fifo => rfl
  | symlink target =>
      rw [hkind] at hlinks hlegible
      have hread : tarString (linkNameSlot.field header) "linkname" = .ok target := by
        rw [h.linkField, hlinks.of_symlink]
        exact tarString_plain hlegible _ _
      show (do pure (SnapshotFileKind.symlink (← tarString (linkNameSlot.field header) "linkname"))) = _
      rw [hread]
      rfl
  | hardlink target =>
      rw [hkind] at hlinks hlegible
      have hread : tarLinkSnapshotPath (linkNameSlot.field header) = .ok target := by
        obtain ⟨text, htext, hplain, hbackslash⟩ := hlegible
        obtain rfl := Except.ok.inj (hlinks.of_hardlink.symm.trans htext)
        obtain ⟨htarget, hinner⟩ := layerTarPath_ok htext
        unfold tarLinkSnapshotPath
        rw [h.linkField, tarString_plain hplain]
        show relativeTarPathToSnapshotPath (trimTrailingSlashes parts.link) = _
        rw [trimTrailingSlashes_inner hinner]
        exact relativeTarPath_inner htarget hinner hbackslash
      show (do pure (SnapshotFileKind.hardlink (← tarLinkSnapshotPath (linkNameSlot.field header)))) = _
      rw [hread]
      rfl
  | characterDevice major minor =>
      rw [hkind] at hlinks
      obtain ⟨hmajor, hminor⟩ := hlinks.of_characterDevice
      exact h.device hmajor hminor .characterDevice
  | blockDevice major minor =>
      rw [hkind] at hlinks
      obtain ⟨hmajor, hminor⟩ := hlinks.of_blockDevice
      exact h.device hmajor hminor .blockDevice

theorem tarEntryKind_ok (h : IsHeader path metadata parts header) {size : UInt64} {found : SnapshotFileKind}
    (hread : tarEntryKind header size = .ok found) :
    found.linkLength ≤ metadata.kind.linkLength ∧
      (found.linkLength = metadata.kind.linkLength → metadata.kind.Legible) := by
  have hlinks := h.links
  unfold tarEntryKind at hread
  rw [h.typeflag] at hread
  unfold tarTypeflag at hread
  have hdevice : ∀ kind : UInt32 → UInt32 → SnapshotFileKind, (∀ major minor, (kind major minor).linkLength = 0) →
      (do
        let major ← tarOctal32 (devmajorSlot.field header) "devmajor"
        let minor ← tarOctal32 (devminorSlot.field header) "devminor"
        pure (kind major minor)) = (.ok found : Except LayerUnpackError SnapshotFileKind) → found.linkLength = 0 := by
    intro kind hkind hdo
    simp only [except_bind_eq_ok] at hdo
    obtain ⟨major, _, minor, _, hfound⟩ := hdo
    rw [← Except.ok.inj hfound]
    exact hkind major minor
  cases hkind : metadata.kind with
  | regular | directory | fifo =>
      rw [hkind] at hread
      obtain rfl := Except.ok.inj hread
      exact ⟨Nat.zero_le _, fun _ => trivial⟩
  | characterDevice =>
      rw [hkind] at hread
      exact ⟨le_of_eq (hdevice .characterDevice (fun _ _ => rfl) hread), fun _ => trivial⟩
  | blockDevice =>
      rw [hkind] at hread
      exact ⟨le_of_eq (hdevice .blockDevice (fun _ _ => rfl) hread), fun _ => trivial⟩
  | symlink target =>
      rw [hkind] at hread hlinks
      obtain ⟨text, htext, hfound⟩ := except_bind_eq_ok.mp hread
      obtain rfl := Except.ok.inj hfound
      rw [h.linkField, hlinks.of_symlink] at htext
      obtain ⟨hlength, hsame⟩ := tarString_ok htext
      exact ⟨hlength, fun hequal => (hsame hequal).2⟩
  | hardlink target =>
      rw [hkind] at hread hlinks
      obtain ⟨linked, hlinked, hfound⟩ := except_bind_eq_ok.mp hread
      obtain rfl := Except.ok.inj hfound
      have htarget := hlinks.of_hardlink
      obtain ⟨hpath, -⟩ := layerTarPath_ok htarget
      obtain ⟨text, htext, hrelative⟩ := except_bind_eq_ok.mp hlinked
      rw [h.linkField] at htext
      obtain ⟨hlength, hsame⟩ := tarString_ok htext
      obtain ⟨hfound, hbackslash⟩ := relativeTarPath_ok hrelative
      have hfoundLength := congrArg List.length hfound
      have hpathLength := congrArg List.length hpath
      rw [List.length_cons] at hfoundLength hpathLength
      have hshorter : trimTrailingSlashes text <+: text := List.rdropWhile_prefix _ _
      have htrimmed := hshorter.length_le
      show linked.text.length ≤ target.text.length ∧ (linked.text.length = target.text.length → _)
      refine ⟨by omega, fun hequal => ?_⟩
      obtain ⟨hkept, hplain⟩ := hsame (by omega)
      rw [hshorter.eq_of_length (by omega), hkept] at hbackslash
      exact ⟨parts.link, htarget, hplain, hbackslash⟩

/-! ### Headers -/

theorem octal (h : IsHeader path metadata parts header) {slot : Slot} {value : Nat} {fieldName : String} (width : Nat)
    (hwrite : (slot, octalText width value) ∈ parts.writes metadata) (hslot : slot.Apart checksumSlot)
    (hlimit : value < 2 ^ 64) : tarOctal (slot.field header) fieldName = .ok value := by
  rw [h.field hwrite hslot]
  exact tarOctal_octalText hlimit _

theorem octal32 (h : IsHeader path metadata parts header) {slot : Slot} {value : UInt32} {fieldName : String}
    (width : Nat) (hwrite : (slot, octalText width value.toNat) ∈ parts.writes metadata)
    (hslot : slot.Apart checksumSlot) : tarOctal32 (slot.field header) fieldName = .ok value := by
  rw [h.field hwrite hslot]
  exact tarOctal32_octalText value _

theorem mode (h : IsHeader path metadata parts header) :
    tarOctal32 (modeSlot.field header) "mode" = .ok metadata.mode :=
  h.octal32 7 (by simp [HeaderParts.writes]) (by decide)

theorem uid (h : IsHeader path metadata parts header) :
    tarOctal32 (uidSlot.field header) "uid" = .ok metadata.uid :=
  h.octal32 7 (by simp [HeaderParts.writes]) (by decide)

theorem gid (h : IsHeader path metadata parts header) :
    tarOctal32 (gidSlot.field header) "gid" = .ok metadata.gid :=
  h.octal32 7 (by simp [HeaderParts.writes]) (by decide)

theorem size (h : IsHeader path metadata parts header) :
    tarOctal (sizeSlot.field header) "size" = .ok (tarSize metadata).toNat :=
  h.octal 11 (by simp [HeaderParts.writes]) (by decide) (tarSize metadata).toNat_lt

theorem seconds_eq (h : IsHeader path metadata parts header) :
    parts.seconds < 2 ^ 64 ∧ (parts.seconds : Int) * 1000000000 = metadata.unpacked.mtimeUnixNanos := by
  have hseconds := h.seconds
  unfold tarMtimeSeconds at hseconds
  split at hseconds
  · nomatch hseconds
  rename_i hpositive
  simp only at hseconds
  split at hseconds
  · nomatch hseconds
  rename_i hlimit
  have hvalue := Except.ok.inj hseconds
  refine ⟨by omega, ?_⟩
  show _ = metadata.mtimeUnixNanos / 1000000000 * 1000000000
  rw [← hvalue, Int.toNat_of_nonneg (by omega)]

theorem mtime (h : IsHeader path metadata parts header) :
    tarOctal (mtimeSlot.field header) "mtime" = .ok parts.seconds :=
  h.octal 11 (by simp [HeaderParts.writes]) (by decide) h.seconds_eq.1

theorem readTarHeader_legible (h : IsHeader path metadata parts header) (hpath : path.Legible)
    (hkind : metadata.kind.Legible) :
    readTarHeader header = .ok (⟨path, metadata.unpacked⟩, (tarSize metadata).toNat) := by
  unfold readTarHeader
  rw [h.tarEntryPath_legible hpath, h.mode, h.uid, h.gid, h.size, h.mtime]
  show (do
    let kind ← tarEntryKind header (UInt64.ofNat (tarSize metadata).toNat)
    pure (_, (tarSize metadata).toNat)) = _
  rw [UInt64.ofNat_toNat, h.tarEntryKind_legible hkind]
  show Except.ok _ = _
  rw [h.seconds_eq.2]
  rfl

/-- The import gets the size, no longer strings, and strings as long only where they are legible. -/
theorem readTarHeader_ok (h : IsHeader path metadata parts header) {found : SnapshotEntry × Nat}
    (hread : readTarHeader header = .ok found) :
    found.2 = (tarSize metadata).toNat ∧ stringLength found.1 ≤ stringLength ⟨path, metadata⟩ ∧
      (stringLength found.1 = stringLength ⟨path, metadata⟩ → path.Legible ∧ metadata.kind.Legible) := by
  unfold readTarHeader at hread
  rw [h.mode, h.uid, h.gid, h.size, h.mtime] at hread
  simp only [Prog.except_ok_bind] at hread
  obtain ⟨foundPath, hpath, hread⟩ := except_bind_eq_ok.mp hread
  obtain ⟨foundKind, hkind, hfound⟩ := except_bind_eq_ok.mp hread
  obtain ⟨hpathLength, hpathSame⟩ := h.tarEntryPath_ok hpath
  obtain ⟨hlinkLength, hlinkSame⟩ := h.tarEntryKind_ok hkind
  obtain rfl := Except.ok.inj hfound
  unfold stringLength
  refine ⟨rfl, Nat.add_le_add hpathLength hlinkLength, fun hequal => ?_⟩
  simp only at hequal
  exact ⟨hpathSame (by omega), hlinkSame (by omega)⟩

end IsHeader

end Mcr.Snapshot
