import Mcr.Jit.PatchMetadata

/-!
# The file of patch metadata

A header and four lists of records behind their counts, addresses as offsets. The reader accepts a file just when it is
written so, with nothing missing and nothing behind it, its header is the expected one, its offsets fit above the base
and its traps have a length that an instruction can have.
-/

namespace Mcr.Jit

open Prog NativePatchMetadataReader

/-! ### Fields -/

def patchTape : Tape UInt8 NativePatchMetadataReader where
  rest reader := reader.bytes.drop reader.offset
  advance reader n := ⟨reader.bytes, min (reader.offset + n) reader.bytes.length, Nat.min_le_right _ _⟩
  rest_advance reader n := by
    show reader.bytes.drop (min (reader.offset + n) reader.bytes.length) = _
    rw [List.drop_drop]
    rcases Nat.le_total (reader.offset + n) reader.bytes.length with h | h
    · rw [Nat.min_eq_left h]
    · rw [Nat.min_eq_right h, List.drop_length, List.drop_eq_nil_of_le h]
  advance_zero reader := by
    obtain ⟨bytes, offset, within⟩ := reader
    simp only [Nat.add_zero, Nat.min_eq_left within]
  advance_advance reader n m := by
    have hmin : min (min (reader.offset + n) reader.bytes.length + m) reader.bytes.length =
        min (reader.offset + (n + m)) reader.bytes.length := by omega
    simp only [hmin]

theorem readArray_reads (n : Nat) :
    Reads patchTape (readArray n) (.fixed UInt8 n) (fun _ => True) fun a => a := by
  intro s a s'
  have hwithin := s.within
  have hadvance : ∀ (b : ByteArr n) (hroom : s.offset + n ≤ s.bytes.length),
      patchTape.advance s b.val.length = ⟨s.bytes, s.offset + n, hroom⟩ := by
    intro b hroom
    simp only [patchTape, b.property, Nat.min_eq_left hroom]
  show readSlice n s = _ ↔ ∃ r : ByteArr n, (True ∧ True) ∧ r = a ∧ r.val <+: s.bytes.drop s.offset ∧
    s' = patchTape.advance s r.val.length
  unfold readSlice
  by_cases hroom : s.offset + n ≤ s.bytes.length
  · rw [dif_pos hroom]
    constructor
    · intro h
      obtain ⟨ha, rfl⟩ := Prod.mk.inj h
      obtain rfl := Except.ok.inj ha
      exact ⟨_, ⟨trivial, trivial⟩, rfl, List.take_prefix _ _, (hadvance _ hroom).symm⟩
    · rintro ⟨r, -, rfl, hnext, rfl⟩
      have htake := List.prefix_iff_eq_take.mp hnext
      rw [r.property] at htake
      rw [hadvance r hroom]
      exact Prod.ext (congrArg Except.ok (Subtype.ext htake.symm)) rfl
  · rw [dif_neg hroom]
    refine ⟨fun h => (nomatch h), fun ⟨r, _, _, hnext, _⟩ => ?_⟩
    have hle := hnext.length_le
    rw [r.property, List.length_drop] at hle
    omega

def bytesOf (count value : Nat) : ByteArr count := ⟨toLittleEndian count value, length_toLittleEndian count value⟩

def ofBytes {count : Nat} (limit : Nat) [NeZero limit] (bytes : ByteArr count) : Fin limit :=
  Fin.ofNat limit (ofLittleEndian bytes.val)

theorem ofBytes_bytesOf {count limit : Nat} [NeZero limit] (hlimit : limit = 256 ^ count) (v : Fin limit) :
    ofBytes limit (bytesOf count v.val) = v := by
  have hback : ofLittleEndian (toLittleEndian count v.val) = v.val := ofLittleEndian_toLittleEndian (hlimit ▸ v.isLt)
  exact Fin.ext ((congrArg (· % limit) hback).trans (Nat.mod_eq_of_lt v.isLt))

theorem bytesOf_ofBytes {count limit : Nat} [NeZero limit] (hlimit : limit = 256 ^ count) (a : ByteArr count) :
    bytesOf count (ofBytes limit a).val = a := by
  obtain ⟨bytes, rfl⟩ := a
  apply Subtype.ext
  show toLittleEndian bytes.length (ofLittleEndian bytes % limit) = bytes
  rw [Nat.mod_eq_of_lt (hlimit ▸ ofLittleEndian_lt bytes), toLittleEndian_ofLittleEndian]

theorem bytesOf_injective {count limit : Nat} [NeZero limit] (hlimit : limit = 256 ^ count) :
    Function.Injective fun v : Fin limit => bytesOf count v.val :=
  Function.LeftInverse.injective (g := ofBytes limit) (ofBytes_bytesOf hlimit)

def wireU32 : Wire UInt8 U32 := (Wire.fixed UInt8 4).map (fun v => bytesOf 4 v.val) (bytesOf_injective (by decide))

def wireU64 : Wire UInt8 U64 := (Wire.fixed UInt8 8).map (fun v => bytesOf 8 v.val) (bytesOf_injective (by decide))

theorem readFin_reads {count limit : Nat} [NeZero limit] (hlimit : limit = 256 ^ count) :
    Reads patchTape (readArray count >>= fun bytes => pure (Fin.ofNat limit (ofLittleEndian bytes.val)))
      ((Wire.fixed UInt8 count).map (fun v : Fin limit => bytesOf count v.val) (bytesOf_injective hlimit))
      (fun _ => True) fun v => v := by
  have h := ((readArray_reads count).build (ofBytes limit)).map (bytesOf_injective hlimit)
    fun a => ⟨_, bytesOf_ofBytes hlimit a⟩
  exact h.congr (fun _ _ => Iff.rfl) fun v _ => ofBytes_bytesOf hlimit v

theorem readU32_reads : Reads patchTape readU32 wireU32 (fun _ => True) fun v => v := readFin_reads (by decide)

theorem readU64_reads : Reads patchTape readU64 wireU64 (fun _ => True) fun v => v := readFin_reads (by decide)

/-- The offset does not reach past the last address. -/
def FitsAt (base offset : U64) : Prop := base.val + offset.val < 2 ^ 64

instance (base offset : U64) : Decidable (FitsAt base offset) := inferInstanceAs (Decidable (_ < _))

theorem cacheAbsoluteAddress_ok_iff {offset base a : U64} :
    cacheAbsoluteAddress offset base = .ok a ↔ FitsAt base offset ∧ base + offset = a := by
  unfold cacheAbsoluteAddress FitsAt
  split
  · rename_i h
    rw [Except.ok.injEq]
    exact ⟨fun ha => ⟨h, ha⟩, fun ha => ha.2⟩
  · rename_i h
    exact ⟨fun ha => (nomatch ha), fun ha => absurd ha.1 h⟩

theorem readAddress_reads (base : U64) :
    Reads patchTape (readAddress base) wireU64 (FitsAt base) fun offset => base + offset :=
  (readU64_reads.andThen (FitsAt base) (base + ·) fun offset _ s a s' => by
    rw [ofExcept_ok_iff, cacheAbsoluteAddress_ok_iff]).congr (fun offset _ => iff_of_eq (true_and _)) fun _ _ => rfl

/-! ### Records -/

def rangeWire : Wire UInt8 (U64 × U64) := wireU64.seq wireU64

def fsRelativePatchWire : Wire UInt8 (U64 × ByteArr 9) := wireU64.seq (.fixed UInt8 9)

def fsRelativeTrapWire : Wire UInt8 (U64 × U32 × ByteArr 15) := wireU64.seq (wireU32.seq (.fixed UInt8 15))

def headerWire : Wire UInt8 (ByteArr 8 × U32 × U64 × U64) :=
  (Wire.fixed UInt8 8).seq (wireU32.seq (wireU64.seq wireU64))

theorem readRange_reads (base : U64) : Reads patchTape (readRange base) rangeWire
    (fun range => FitsAt base range.1 ∧ FitsAt base range.2) fun range => (base + range.1, base + range.2) :=
  ((readAddress_reads base).seq fun start _ => (readAddress_reads base).build fun stop => (base + start, stop)).congr
    (fun _ _ => Iff.rfl) fun _ _ => rfl

theorem readSyscallPatch_reads (base : U64) : Reads patchTape (readSyscallPatch base) wireU64 (FitsAt base)
    fun offset => ⟨base + offset⟩ :=
  (readAddress_reads base).build ExecutableSyscallPatch.mk

theorem readFsRelativePatch_reads (base : U64) : Reads patchTape (readFsRelativePatch base) fsRelativePatchWire
    (fun entry => FitsAt base entry.1) fun entry => (base + entry.1, ⟨entry.2⟩) :=
  ((readAddress_reads base).seq fun offset _ =>
    (readArray_reads 9).build fun original => (base + offset, FsRelativePatch.mk original)).congr
      (fun _ _ => iff_of_eq (and_true _)) fun _ _ => rfl

/-- The lengths of instructions. -/
def TrapLen (len : U32) : Prop := 1 ≤ len.val ∧ len.val ≤ 15

theorem trapLen_ok_iff {len : U32} {n : UInt8} : trapLen len = .ok n ↔ TrapLen len ∧ UInt8.ofNat len.val = n := by
  unfold trapLen TrapLen
  split_ifs with hbig hlen
  · exact ⟨fun h => (nomatch h), fun h => by omega⟩
  · exact ⟨fun h => (nomatch h), fun h => by omega⟩
  · rw [Except.ok.injEq]
    exact ⟨fun h => ⟨by omega, h⟩, fun h => h.2⟩

theorem readFsRelativeTrap_reads (base : U64) : Reads patchTape (readFsRelativeTrap base) fsRelativeTrapWire
    (fun entry => FitsAt base entry.1 ∧ TrapLen entry.2.1)
    fun entry => (base + entry.1, ⟨entry.2.2, UInt8.ofNat entry.2.1.val⟩) :=
  ((readAddress_reads base).seq fun offset _ => readU32_reads.seq fun len _ =>
    (readArray_reads 15).andThen (fun _ => TrapLen len)
      (fun original => (base + offset, FsRelativeTrap.mk original (UInt8.ofNat len.val))) fun original _ s c s' => by
      simp only [bind_ok_iff, ofExcept_ok_iff, pure_ok_iff, trapLen_ok_iff]
      constructor
      · rintro ⟨_, _, ⟨⟨hlen, rfl⟩, rfl⟩, hc, rfl⟩
        exact ⟨⟨hlen, hc⟩, rfl⟩
      · rintro ⟨⟨hlen, hc⟩, rfl⟩
        exact ⟨_, _, ⟨⟨hlen, rfl⟩, rfl⟩, hc, rfl⟩).congr (fun entry _ => by simp) fun _ _ => rfl

theorem expectMagic_reads : Reads patchTape (expectMagic nativePatchCacheMagic) (.fixed UInt8 8)
    (fun magic => magic.val = nativePatchCacheMagic) fun _ => () :=
  ((readArray_reads 8).andThen (fun magic => magic.val = nativePatchCacheMagic) (fun _ => ()) fun magic _ s c s' => by
    split
    · rename_i h
      exact ⟨fun hc => (nomatch hc), fun hc => absurd hc.1.1 h⟩
    · rename_i h
      rw [pure_ok_iff, iff_true_intro (of_not_not h), true_and]).congr (fun _ _ => iff_of_eq (true_and _)) fun _ _ => rfl

theorem readHeader_reads (key : NativeImagePatchKey) : Reads patchTape (readHeader key) headerWire
    (fun header => header.1.val = nativePatchCacheMagic ∧ header.2.1 = nativePatchCacheVersion ∧
      (⟨header.2.2.1, header.2.2.2⟩ : NativeImagePatchKey) = key) fun _ => () :=
  (expectMagic_reads.seq fun _ _ => readU32_reads.seq fun version _ =>
    (readU64_reads.seq fun hash _ => readU64_reads.andThen
      (fun executableLen => (⟨hash, executableLen⟩ : NativeImagePatchKey) = key) (fun _ => ()) fun executableLen _ s c s' => by
      split
      · rename_i h
        exact ⟨fun hc => (nomatch hc), fun hc => absurd hc.1.1 h⟩
      · rename_i h
        rw [pure_ok_iff, iff_true_intro (of_not_not h), true_and]).guard Iff.rfl _).congr
    (fun header _ => by simp) fun _ _ => rfl

/-! ### The file -/

/-- What stands in a file, accepted or not. -/
structure PatchFile where
  magic : ByteArr 8
  version : U32
  key : NativeImagePatchKey
  ranges : List (U64 × U64)
  syscalls : List U64
  fsRelativePatches : List (U64 × ByteArr 9)
  fsRelativeTraps : List (U64 × U32 × ByteArr 15)

def countedWire {ρ : Type} (W : Wire UInt8 ρ) : Wire UInt8 (List ρ) := .counted wireU32 Fin.val lenAsU32 W

namespace PatchFile

abbrev Parts := (ByteArr 8 × U32 × U64 × U64) × List (U64 × U64) × List U64 × List (U64 × ByteArr 9) ×
  List (U64 × U32 × ByteArr 15)

def parts (file : PatchFile) : Parts :=
  ((file.magic, file.version, file.key.hash, file.key.executableLen), file.ranges, file.syscalls,
    file.fsRelativePatches, file.fsRelativeTraps)

theorem parts_injective : Function.Injective parts := by
  rintro ⟨magic, version, ⟨hash, len⟩, ranges, syscalls, patches, traps⟩ ⟨_, _, ⟨_, _⟩, _, _, _, _⟩ h
  simp only [parts, Prod.mk.injEq] at h
  obtain ⟨⟨rfl, rfl, rfl, rfl⟩, rfl, rfl, rfl, rfl⟩ := h
  rfl

theorem parts_surjective : Function.Surjective parts := by
  rintro ⟨⟨magic, version, hash, len⟩, ranges, syscalls, patches, traps⟩
  exact ⟨⟨magic, version, ⟨hash, len⟩, ranges, syscalls, patches, traps⟩, rfl⟩

def wire : Wire UInt8 PatchFile :=
  (headerWire.seq ((countedWire rangeWire).seq ((countedWire wireU64).seq ((countedWire fsRelativePatchWire).seq
    (countedWire fsRelativeTrapWire))))).map parts parts_injective

def bytes (file : PatchFile) : List UInt8 := wire.write file

/-- The lists are as long as a count of four bytes can tell. -/
structure Countable (file : PatchFile) : Prop where
  ranges : file.ranges.length < 2 ^ 32
  syscalls : file.syscalls.length < 2 ^ 32
  fsRelativePatches : file.fsRelativePatches.length < 2 ^ 32
  fsRelativeTraps : file.fsRelativeTraps.length < 2 ^ 32

structure HeadedBy (file : PatchFile) (key : NativeImagePatchKey) : Prop where
  magic : file.magic.val = nativePatchCacheMagic
  version : file.version = nativePatchCacheVersion
  key : file.key = key

/-- The offsets fit above the base. -/
@[mk_iff fits_iff]
structure Fits (file : PatchFile) (base : U64) : Prop where
  ranges : ∀ range ∈ file.ranges, FitsAt base range.1 ∧ FitsAt base range.2
  syscalls : ∀ offset ∈ file.syscalls, FitsAt base offset
  fsRelativePatches : ∀ entry ∈ file.fsRelativePatches, FitsAt base entry.1
  fsRelativeTraps : ∀ entry ∈ file.fsRelativeTraps, FitsAt base entry.1

def TrapLens (file : PatchFile) : Prop := ∀ entry ∈ file.fsRelativeTraps, TrapLen entry.2.1

/-- What the file says about an image at `base`. -/
def metadata (file : PatchFile) (base : U64) : NativePatchMetadata where
  scannedRanges := file.ranges.map fun range => (base + range.1, base + range.2)
  syscallPatches := file.syscalls.map fun offset => ⟨base + offset⟩
  fsRelativePatches := collectMap (file.fsRelativePatches.map fun entry => (base + entry.1, ⟨entry.2⟩))
  fsRelativeTraps := collectMap (file.fsRelativeTraps.map fun entry =>
    (base + entry.1, ⟨entry.2.2, UInt8.ofNat entry.2.1.val⟩))

end PatchFile

theorem countedWire_valid_iff {ρ : Type} {W : Wire UInt8 ρ} (hW : ∀ r, W.valid r) {rs : List ρ} :
    (countedWire W).valid rs ↔ rs.length < 2 ^ 32 := by
  have hcount : (lenAsU32 rs.length).val = rs.length ↔ rs.length < 2 ^ 32 := Nat.mod_eq_iff_lt (by decide)
  exact ⟨fun h => hcount.mp h.2.1, fun h => ⟨trivial, hcount.mpr h, fun r _ => hW r⟩⟩

theorem PatchFile.wire_valid_iff {file : PatchFile} : wire.valid file ↔ file.Countable := by
  have hall : wire.valid file ↔ (True ∧ True ∧ True ∧ True) ∧ (countedWire rangeWire).valid file.ranges ∧
      (countedWire wireU64).valid file.syscalls ∧ (countedWire fsRelativePatchWire).valid file.fsRelativePatches ∧
      (countedWire fsRelativeTrapWire).valid file.fsRelativeTraps := Iff.rfl
  rw [hall, countedWire_valid_iff (W := rangeWire) fun _ => ⟨trivial, trivial⟩,
    countedWire_valid_iff (W := wireU64) fun _ => trivial,
    countedWire_valid_iff (W := fsRelativePatchWire) fun _ => ⟨trivial, trivial⟩,
    countedWire_valid_iff (W := fsRelativeTrapWire) fun _ => ⟨trivial, trivial, trivial⟩]
  exact ⟨fun ⟨_, h₁, h₂, h₃, h₄⟩ => ⟨h₁, h₂, h₃, h₄⟩, fun h => ⟨by simp, h.1, h.2, h.3, h.4⟩⟩

/-! ### The reader -/

/-- `for _ in 0..reader.read_u32()?`, all the records first. -/
def readCounted {α : Type} (m : Read α) : Read (List α) := readU32 >>= fun count => many count.val m

theorem readCounted_reads {α ρ : Type} {m : Read α} {W : Wire UInt8 ρ} {allowed : ρ → Prop} {result : ρ → α}
    (h : Reads patchTape m W allowed result) :
    Reads patchTape (readCounted m) (countedWire W) (fun rs => ∀ r ∈ rs, allowed r) (List.map result) :=
  readU32_reads.counted h fun count => Fin.ofNat_val_eq_self count

/-- The file up to its end. -/
def readBody (key : NativeImagePatchKey) (base : U64) : Read NativePatchMetadata := do
  let (_, ranges, syscalls, patches, traps) ← both (readHeader key) (both (readCounted (readRange base))
    (both (readCounted (readSyscallPatch base)) (both (readCounted (readFsRelativePatch base))
      (readCounted (readFsRelativeTrap base)))))
  pure ⟨ranges, syscalls, collectMap patches, collectMap traps⟩

theorem readBody_reads (key : NativeImagePatchKey) (base : U64) :
    Reads patchTape (readBody key base) PatchFile.wire (fun file => file.HeadedBy key ∧ file.Fits base ∧ file.TrapLens)
      fun file => file.metadata base := by
  have h := (((readHeader_reads key).both ((readCounted_reads (readRange_reads base)).both
    ((readCounted_reads (readSyscallPatch_reads base)).both ((readCounted_reads (readFsRelativePatch_reads base)).both
      (readCounted_reads (readFsRelativeTrap_reads base)))))).build fun (_, ranges, syscalls, patches, traps) =>
        NativePatchMetadata.mk ranges syscalls (collectMap patches) (collectMap traps)).map PatchFile.parts_injective
          PatchFile.parts_surjective
  refine h.congr (fun file _ => ?_) fun _ _ => rfl
  constructor
  · rintro ⟨⟨hmagic, hversion, hkey⟩, hranges, hsyscalls, hpatches, htraps⟩
    exact ⟨⟨hmagic, hversion, hkey⟩, ⟨hranges, hsyscalls, hpatches, fun e he => (htraps e he).1⟩,
      fun e he => (htraps e he).2⟩
  · rintro ⟨⟨hmagic, hversion, hkey⟩, ⟨hranges, hsyscalls, hpatches, htraps⟩, hlens⟩
    exact ⟨⟨hmagic, hversion, hkey⟩, hranges, hsyscalls, hpatches, fun e he => ⟨htraps e he, hlens e he⟩⟩

theorem foldl_pushRange (metadata : NativePatchMetadata) (ranges : List (U64 × U64)) :
    ranges.foldl .pushRange metadata = { metadata with scannedRanges := metadata.scannedRanges ++ ranges } := by
  induction ranges generalizing metadata with
  | nil => rw [List.append_nil]; rfl
  | cons range ranges ih => rw [List.foldl_cons, ih, NativePatchMetadata.pushRange, List.append_assoc]; rfl

theorem foldl_pushSyscallPatch (metadata : NativePatchMetadata) (patches : List ExecutableSyscallPatch) :
    patches.foldl .pushSyscallPatch metadata =
      { metadata with syscallPatches := metadata.syscallPatches ++ patches } := by
  induction patches generalizing metadata with
  | nil => rw [List.append_nil]; rfl
  | cons patch patches ih => rw [List.foldl_cons, ih, NativePatchMetadata.pushSyscallPatch, List.append_assoc]; rfl

theorem foldl_insertFsRelativePatch (metadata : NativePatchMetadata) (entries : List (U64 × FsRelativePatch)) :
    entries.foldl .insertFsRelativePatch metadata = { metadata with
      fsRelativePatches := entries.foldl (fun map entry => map.insert entry.1 entry.2) metadata.fsRelativePatches } := by
  induction entries generalizing metadata with
  | nil => rfl
  | cons entry entries ih => rw [List.foldl_cons, ih]; rfl

theorem foldl_insertFsRelativeTrap (metadata : NativePatchMetadata) (entries : List (U64 × FsRelativeTrap)) :
    entries.foldl .insertFsRelativeTrap metadata = { metadata with
      fsRelativeTraps := entries.foldl (fun map entry => map.insert entry.1 entry.2) metadata.fsRelativeTraps } := by
  induction entries generalizing metadata with
  | nil => rfl
  | cons entry entries ih => rw [List.foldl_cons, ih]; rfl

/-- The loops of the source put each record into the metadata as it is read; that is as good as after them all. -/
theorem readMetadata_eq (key : NativeImagePatchKey) (base : U64) :
    readMetadata key base = readBody key base >>= fun metadata => expectEof >>= fun _ => pure metadata := by
  have hpure : ∀ {α β : Type} (a : α) (f : α → Read β), (pure a : Read α) >>= f = f a := fun _ _ => rfl
  simp only [readMetadata, readBody, both, readCounted, times_eq_many, bind_assoc, hpure, foldl_pushRange,
    foldl_pushSyscallPatch, foldl_insertFsRelativePatch, foldl_insertFsRelativeTrap]
  rfl

theorem decode_ok_iff {key : NativeImagePatchKey} {bytes : List UInt8} {base : U64} {metadata : NativePatchMetadata} :
    decodeNativePatchMetadata key bytes base = .ok metadata ↔ ∃ file : PatchFile,
      file.Countable ∧ (file.HeadedBy key ∧ file.Fits base ∧ file.TrapLens) ∧ file.metadata base = metadata ∧
        file.bytes = bytes := by
  have hrun : decodeNativePatchMetadata key bytes base = .ok metadata ↔
      ∃ s, readMetadata key base (.new bytes) = (.ok metadata, s) :=
    ⟨fun h => ⟨_, Prod.ext h rfl⟩, fun ⟨_, h⟩ => congrArg Prod.fst h⟩
  have hend : ∀ (s s' : NativePatchMetadataReader) (m : NativePatchMetadata),
      (expectEof >>= fun _ => (pure m : Read NativePatchMetadata)) s = (.ok metadata, s') ↔
        m = metadata ∧ s.offset = s.bytes.length ∧ s' = s := by
    intro s s' m
    have heof : ∀ r : NativePatchMetadataReader, expectEof s = (.ok (), r) ↔ s.offset = s.bytes.length ∧ r = s := by
      intro r
      show (if s.offset ≠ s.bytes.length then .throw _ else pure () : Read Unit) s = _ ↔ _
      split
      · rename_i h
        exact ⟨fun hr => (nomatch hr), fun hr => absurd hr.1 h⟩
      · rename_i h
        rw [pure_ok_iff, iff_true_intro (of_not_not h), true_and, eq_self, true_and]
    rw [bind_ok_iff]
    constructor
    · rintro ⟨_, r, hr, hm⟩
      obtain ⟨hoffset, rfl⟩ := (heof r).mp hr
      obtain ⟨rfl, rfl⟩ := pure_ok_iff.mp hm
      exact ⟨rfl, hoffset, rfl⟩
    · rintro ⟨rfl, hoffset, rfl⟩
      exact ⟨(), s', (heof s').mpr ⟨hoffset, rfl⟩, pure_ok_iff.mpr ⟨rfl, rfl⟩⟩
  rw [hrun, readMetadata_eq]
  simp only [bind_ok_iff (m := readBody key base), hend]
  constructor
  · rintro ⟨s, m, s₁, hbody, rfl, hoffset, rfl⟩
    obtain ⟨file, ⟨hvalid, hfile⟩, hm, ⟨t, ht⟩, rfl⟩ := (readBody_reads key base _ _ _).mp hbody
    refine ⟨file, PatchFile.wire_valid_iff.mp hvalid, hfile, hm, ?_⟩
    have hlength : (PatchFile.wire.write file).length + t.length = bytes.length := by
      rw [← List.length_append, ht]
      rfl
    have hdone : min (0 + (PatchFile.wire.write file).length) bytes.length = bytes.length := hoffset
    obtain rfl : t = [] := List.length_eq_zero_iff.mp (by omega)
    rw [List.append_nil] at ht
    exact ht
  · rintro ⟨file, hcount, hfile, rfl, rfl⟩
    refine ⟨_, _, _, (readBody_reads key base _ _ _).mpr ⟨file, ⟨PatchFile.wire_valid_iff.mpr hcount, hfile⟩, rfl,
      List.prefix_refl _, rfl⟩, rfl, ?_, rfl⟩
    show min (0 + file.bytes.length) file.bytes.length = file.bytes.length
    rw [Nat.zero_add, Nat.min_self]

end Mcr.Jit
