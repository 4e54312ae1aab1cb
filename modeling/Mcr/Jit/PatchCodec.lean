import Mcr.Jit.PatchCache

/-!
# Writing, reading and moving patch metadata

What is written is read back at any other base as what the move in memory makes of it. Every other file is refused, and
two files say the same only if they have the same records, those of `fs` in some order.
-/

namespace Mcr

theorem foldlM_append_ok {β ρ ε : Type} {step : List β → ρ → Except ε (List β)} (w : ρ → List β) {rs : List ρ}
    (h : ∀ r ∈ rs, ∀ bytes, step bytes r = .ok (bytes ++ w r)) (bytes : List β) :
    rs.foldlM step bytes = .ok (bytes ++ rs.flatMap w) := by
  induction rs generalizing bytes with
  | nil => rw [List.flatMap_nil, List.append_nil]; rfl
  | cons r rs ih =>
      have hfirst := h r List.mem_cons_self bytes
      rw [List.foldlM_cons, hfirst, List.flatMap_cons, ← List.append_assoc]
      exact ih (fun r' hr' => h r' (List.mem_cons_of_mem _ hr')) _

theorem mapM_eq_some_iff {α β : Type} {f : α → Option β} (p : α → Prop) (g : α → β) {as : List α}
    (h : ∀ a ∈ as, ∀ b, f a = some b ↔ p a ∧ g a = b) (bs : List β) :
    as.mapM f = some bs ↔ (∀ a ∈ as, p a) ∧ as.map g = bs := by
  induction as generalizing bs with
  | nil => simp
  | cons a as ih =>
      have hfirst := h a List.mem_cons_self
      have hrest := ih fun a' ha' => h a' (List.mem_cons_of_mem _ ha')
      rw [List.mapM_cons]
      simp only [Option.bind_eq_bind, Option.bind_eq_some_iff, Option.pure_def, Option.some.injEq, hfirst, hrest,
        List.forall_mem_cons, List.map_cons]
      constructor
      · rintro ⟨_, ⟨ha, rfl⟩, _, ⟨has, rfl⟩, rfl⟩
        exact ⟨⟨ha, has⟩, rfl⟩
      · rintro ⟨⟨ha, has⟩, rfl⟩
        exact ⟨_, ⟨ha, rfl⟩, _, ⟨has, rfl⟩, rfl⟩

theorem eq_of_map_eq {α β : Type} {f : α → β} {l l' : List α} (hinj : ∀ a ∈ l, ∀ b ∈ l', f a = f b → a = b)
    (h : l.map f = l'.map f) : l = l' := by
  induction l generalizing l' with
  | nil => exact (List.map_eq_nil_iff.mp h.symm).symm
  | cons a l ih =>
      obtain ⟨b, l', rfl, hab, hrest⟩ := List.map_eq_cons_iff.mp h.symm
      rw [hinj a List.mem_cons_self b List.mem_cons_self hab.symm,
        ih (fun c hc d hd => hinj c (List.mem_cons_of_mem _ hc) d (List.mem_cons_of_mem _ hd)) hrest.symm]

theorem perm_of_map_perm {α β : Type} {f : α → β} {l l' : List α} (hinj : ∀ a ∈ l, ∀ b ∈ l', f a = f b → a = b)
    (h : (l.map f).Perm (l'.map f)) : l.Perm l' := by
  induction l generalizing l' with
  | nil =>
      have hnil := h.symm.eq_nil
      rw [List.map_eq_nil_iff] at hnil
      rw [hnil]
  | cons a l ih =>
      obtain ⟨b, hb, hab⟩ := List.mem_map.mp (h.subset List.mem_cons_self)
      obtain rfl := hinj a List.mem_cons_self b hb hab.symm
      obtain ⟨before, after, rfl⟩ := List.append_of_mem hb
      have hmid : (before ++ a :: after).Perm (a :: (before ++ after)) := List.perm_middle
      refine (List.Perm.cons a (ih (fun c hc d hd => hinj c (List.mem_cons_of_mem _ hc) d
        (hmid.symm.subset (List.mem_cons_of_mem _ hd))) ?_)).trans hmid.symm
      exact List.Perm.cons_inv (h.trans (hmid.map f))

end Mcr

namespace Mcr.Jit

/-- Maps built from lists with distinct keys are the same when the lists have the same entries. -/
theorem collectMap_eq_iff {ν : Type} {l l' : List (U64 × ν)} (h : (l.map Prod.fst).Nodup)
    (h' : (l'.map Prod.fst).Nodup) : collectMap l = collectMap l' ↔ l.Perm l' := by
  have hget : ∀ {l : List (U64 × ν)}, (l.map Prod.fst).Nodup → ∀ k v, (collectMap l).get? k = some v ↔ (k, v) ∈ l := by
    intro l h k v
    rw [collectMap, SortedMap.get?_foldl_insert h]
    simp
  rw [List.perm_ext_iff_of_nodup (List.Nodup.of_map _ h) (List.Nodup.of_map _ h')]
  constructor
  · rintro heq ⟨k, v⟩
    rw [← hget h, ← hget h', heq]
  · intro hmem
    apply SortedMap.ext_get?
    intro k
    apply Option.ext
    intro v
    rw [hget h, hget h', hmem]

/-! ### Writing -/

namespace NativePatchMetadata

structure Above (metadata : NativePatchMetadata) (base : U64) : Prop where
  scannedRanges : ∀ range ∈ metadata.scannedRanges, base ≤ range.1 ∧ base ≤ range.2
  syscallPatches : ∀ patch ∈ metadata.syscallPatches, base ≤ patch.address
  fsRelativePatches : ∀ entry ∈ metadata.fsRelativePatches.entries, base ≤ entry.1
  fsRelativeTraps : ∀ entry ∈ metadata.fsRelativeTraps.entries, base ≤ entry.1

structure Countable (metadata : NativePatchMetadata) : Prop where
  scannedRanges : metadata.scannedRanges.length < 2 ^ 32
  syscallPatches : metadata.syscallPatches.length < 2 ^ 32
  fsRelativePatches : metadata.fsRelativePatches.entries.length < 2 ^ 32
  fsRelativeTraps : metadata.fsRelativeTraps.entries.length < 2 ^ 32

/-- The lengths that `FsRelativeTrap::new` lets through. -/
def TrapLens (metadata : NativePatchMetadata) : Prop :=
  ∀ entry ∈ metadata.fsRelativeTraps.entries, 1 ≤ entry.2.len.toNat ∧ entry.2.len.toNat ≤ 15

def file (metadata : NativePatchMetadata) (key : NativeImagePatchKey) (base : U64) : PatchFile where
  magic := ⟨nativePatchCacheMagic, rfl⟩
  version := nativePatchCacheVersion
  key := key
  ranges := metadata.scannedRanges.map fun range => (range.1 - base, range.2 - base)
  syscalls := metadata.syscallPatches.map fun patch => patch.address - base
  fsRelativePatches := metadata.fsRelativePatches.entries.map fun entry => (entry.1 - base, entry.2.original)
  fsRelativeTraps := metadata.fsRelativeTraps.entries.map fun entry =>
    (entry.1 - base, Fin.ofNat (2 ^ 32) entry.2.len.toNat, entry.2.original)

end NativePatchMetadata

theorem encode_eq {metadata : NativePatchMetadata} {base : U64} (h : metadata.Above base) (key : NativeImagePatchKey) :
    encodeNativePatchMetadata key metadata base = .ok (metadata.file key base).bytes := by
  have hoffset : ∀ {address : U64}, base ≤ address → cacheRelativeOffset address base = .ok (address - base) :=
    fun h => if_pos h
  have hok : ∀ {α β : Type} (a : α) (f : α → Except IoError β), Except.ok a >>= f = f a := fun _ _ => rfl
  unfold encodeNativePatchMetadata
  dsimp only
  rw [foldlM_append_ok (fun range : U64 × U64 => rangeWire.write (range.1 - base, range.2 - base))
    fun range hr bytes => by
      rw [hoffset (h.scannedRanges range hr).1, hoffset (h.scannedRanges range hr).2]
      exact congrArg Except.ok (List.append_assoc _ _ _), hok,
    foldlM_append_ok (fun patch : ExecutableSyscallPatch => wireU64.write (patch.address - base)) fun patch hp bytes => by
      rw [hoffset (h.syscallPatches patch hp)]
      rfl, hok,
    foldlM_append_ok
      (fun entry : U64 × FsRelativePatch => fsRelativePatchWire.write (entry.1 - base, entry.2.original))
      fun entry he bytes => by
        rw [hoffset (h.fsRelativePatches entry he)]
        exact congrArg Except.ok (List.append_assoc _ _ _), hok,
    foldlM_append_ok (fun entry : U64 × FsRelativeTrap =>
        fsRelativeTrapWire.write (entry.1 - base, Fin.ofNat (2 ^ 32) entry.2.len.toNat, entry.2.original))
      fun entry he bytes => by
        rw [hoffset (h.fsRelativeTraps entry he)]
        exact congrArg Except.ok ((List.append_assoc _ _ _).trans (List.append_assoc _ _ _))]
  apply congrArg Except.ok
  have hlists : (metadata.file key base).bytes = headerWire.write (⟨nativePatchCacheMagic, rfl⟩,
      nativePatchCacheVersion, key.hash, key.executableLen) ++
        ((countedWire rangeWire).write (metadata.file key base).ranges ++
          ((countedWire wireU64).write (metadata.file key base).syscalls ++
            ((countedWire fsRelativePatchWire).write (metadata.file key base).fsRelativePatches ++
              (countedWire fsRelativeTrapWire).write (metadata.file key base).fsRelativeTraps))) := rfl
  rw [hlists]
  simp only [headerWire, countedWire, Wire.counted, Wire.seq, NativePatchMetadata.file, List.length_map,
    List.flatMap_map, List.append_assoc, pushCacheU32, pushCacheU64]
  rfl

/-! ### Moving -/

theorem rebaseNativePatchAddress_eq_some_iff {address sourceBase targetBase a : U64} (h : sourceBase ≤ address) :
    rebaseNativePatchAddress address sourceBase targetBase = some a ↔
      FitsAt targetBase (address - sourceBase) ∧ targetBase + (address - sourceBase) = a := by
  unfold rebaseNativePatchAddress FitsAt
  split
  · rename_i hfits
    rw [Option.some.injEq]
    exact ⟨fun ha => ⟨hfits.2, ha⟩, fun ha => ha.2⟩
  · rename_i hfits
    exact ⟨fun ha => (nomatch ha), fun ha => absurd ⟨h, ha.1⟩ hfits⟩

theorem rebaseRange_eq_some_iff {range : U64 × U64} {sourceBase : U64} (hstart : sourceBase ≤ range.1)
    (hstop : sourceBase ≤ range.2) (targetBase : U64) (moved : U64 × U64) :
    (do
      let start ← rebaseNativePatchAddress range.1 sourceBase targetBase
      let stop ← rebaseNativePatchAddress range.2 sourceBase targetBase
      pure (start, stop)) = some moved ↔
      (FitsAt targetBase (range.1 - sourceBase) ∧ FitsAt targetBase (range.2 - sourceBase)) ∧
        (targetBase + (range.1 - sourceBase), targetBase + (range.2 - sourceBase)) = moved := by
  simp only [Option.bind_eq_bind, Option.bind_eq_some_iff, rebaseNativePatchAddress_eq_some_iff hstart,
    rebaseNativePatchAddress_eq_some_iff hstop, Option.pure_def, Option.some.injEq]
  constructor
  · rintro ⟨_, ⟨hfits, rfl⟩, _, ⟨hfits', rfl⟩, rfl⟩
    exact ⟨⟨hfits, hfits'⟩, rfl⟩
  · rintro ⟨⟨hfits, hfits'⟩, rfl⟩
    exact ⟨_, ⟨hfits, rfl⟩, _, ⟨hfits', rfl⟩, rfl⟩

theorem rebaseSyscallPatch_eq_some_iff {patch : ExecutableSyscallPatch} {sourceBase : U64}
    (h : sourceBase ≤ patch.address) (targetBase : U64) (moved : ExecutableSyscallPatch) :
    (do
      let address ← rebaseNativePatchAddress patch.address sourceBase targetBase
      pure (⟨address⟩ : ExecutableSyscallPatch)) = some moved ↔
      FitsAt targetBase (patch.address - sourceBase) ∧ ⟨targetBase + (patch.address - sourceBase)⟩ = moved := by
  simp only [Option.bind_eq_bind, Option.bind_eq_some_iff, rebaseNativePatchAddress_eq_some_iff h, Option.pure_def,
    Option.some.injEq]
  constructor
  · rintro ⟨_, ⟨hfits, rfl⟩, rfl⟩
    exact ⟨hfits, rfl⟩
  · rintro ⟨hfits, rfl⟩
    exact ⟨_, ⟨hfits, rfl⟩, rfl⟩

theorem rebaseEntry_eq_some_iff {ν : Type} {entry : U64 × ν} {sourceBase : U64} (h : sourceBase ≤ entry.1)
    (targetBase : U64) (moved : U64 × ν) :
    (do
      let address ← rebaseNativePatchAddress entry.1 sourceBase targetBase
      pure (address, entry.2)) = some moved ↔
      FitsAt targetBase (entry.1 - sourceBase) ∧ (targetBase + (entry.1 - sourceBase), entry.2) = moved := by
  simp only [Option.bind_eq_bind, Option.bind_eq_some_iff, rebaseNativePatchAddress_eq_some_iff h, Option.pure_def,
    Option.some.injEq]
  constructor
  · rintro ⟨_, ⟨hfits, rfl⟩, rfl⟩
    exact ⟨hfits, rfl⟩
  · rintro ⟨hfits, rfl⟩
    exact ⟨_, ⟨hfits, rfl⟩, rfl⟩

theorem rebase_eq_some_iff {metadata moved : NativePatchMetadata} {base : U64} (h : metadata.Above base)
    (key : NativeImagePatchKey) (targetBase : U64) : rebaseNativePatchMetadata metadata base targetBase = some moved ↔
      (metadata.file key base).Fits targetBase ∧ (metadata.file key base).metadata targetBase = moved := by
  have hranges := mapM_eq_some_iff _ _ fun range hr =>
    rebaseRange_eq_some_iff (h.scannedRanges range hr).1 (h.scannedRanges range hr).2 targetBase
  have hsyscalls := mapM_eq_some_iff _ _ fun patch hp =>
    rebaseSyscallPatch_eq_some_iff (h.syscallPatches patch hp) targetBase
  have hpatches := mapM_eq_some_iff _ _ fun entry he =>
    rebaseEntry_eq_some_iff (h.fsRelativePatches entry he) targetBase
  have htraps := mapM_eq_some_iff _ _ fun entry he => rebaseEntry_eq_some_iff (h.fsRelativeTraps entry he) targetBase
  have hlen : ∀ len : UInt8, UInt8.ofNat (Fin.ofNat (2 ^ 32) len.toNat).val = len := by
    intro len
    have hlt : len.toNat < 2 ^ 32 := Nat.lt_trans len.toNat_lt (by decide)
    rw [Fin.val_ofNat, Nat.mod_eq_of_lt hlt, UInt8.ofNat_toNat]
  have hfile : (metadata.file key base).metadata targetBase =
      ⟨metadata.scannedRanges.map fun range => (targetBase + (range.1 - base), targetBase + (range.2 - base)),
        metadata.syscallPatches.map fun patch => ⟨targetBase + (patch.address - base)⟩,
        collectMap (metadata.fsRelativePatches.entries.map fun entry => (targetBase + (entry.1 - base), entry.2)),
        collectMap (metadata.fsRelativeTraps.entries.map fun entry => (targetBase + (entry.1 - base), entry.2))⟩ := by
    simp only [PatchFile.metadata, NativePatchMetadata.file, List.map_map, Function.comp_def, hlen]
  have hbind : ∀ {α β : Type} {x : Option α} {f : α → Option β} {b : β},
      x >>= f = some b ↔ ∃ a, x = some a ∧ f a = some b := Option.bind_eq_some_iff
  have hpure : ∀ {α : Type} {a b : α}, (pure a : Option α) = some b ↔ a = b := Option.some_inj
  have hfits : (metadata.file key base).Fits targetBase ↔
      (∀ range ∈ metadata.scannedRanges, FitsAt targetBase (range.1 - base) ∧ FitsAt targetBase (range.2 - base)) ∧
      (∀ patch ∈ metadata.syscallPatches, FitsAt targetBase (patch.address - base)) ∧
      (∀ entry ∈ metadata.fsRelativePatches.entries, FitsAt targetBase (entry.1 - base)) ∧
      ∀ entry ∈ metadata.fsRelativeTraps.entries, FitsAt targetBase (entry.1 - base) := by
    simp only [NativePatchMetadata.file, PatchFile.fits_iff, List.forall_mem_map]
  unfold rebaseNativePatchMetadata
  simp only [hbind, hranges, hsyscalls, hpatches, htraps, hpure, hfile, hfits]
  constructor
  · rintro ⟨_, ⟨h₁, rfl⟩, _, ⟨h₂, rfl⟩, _, ⟨h₃, rfl⟩, _, ⟨h₄, rfl⟩, rfl⟩
    exact ⟨⟨h₁, h₂, h₃, h₄⟩, rfl⟩
  · rintro ⟨⟨h₁, h₂, h₃, h₄⟩, rfl⟩
    exact ⟨_, ⟨h₁, rfl⟩, _, ⟨h₂, rfl⟩, _, ⟨h₃, rfl⟩, _, ⟨h₄, rfl⟩, rfl⟩

/-! ### Reading what was written -/

theorem NativePatchMetadata.file_countable {metadata : NativePatchMetadata} (h : metadata.Countable)
    (key : NativeImagePatchKey) (base : U64) : (metadata.file key base).Countable := by
  constructor <;> simp only [file, List.length_map]
  · exact h.scannedRanges
  · exact h.syscallPatches
  · exact h.fsRelativePatches
  · exact h.fsRelativeTraps

theorem NativePatchMetadata.file_trapLens {metadata : NativePatchMetadata} (h : metadata.TrapLens)
    (key : NativeImagePatchKey) (base : U64) : (metadata.file key base).TrapLens := by
  intro entry hentry
  obtain ⟨trap, htrap, rfl⟩ := List.mem_map.mp hentry
  have hlt : trap.2.len.toNat < 2 ^ 32 := Nat.lt_trans trap.2.len.toNat_lt (by decide)
  have hlen := h trap htrap
  simpa only [TrapLen, Fin.val_ofNat, Nat.mod_eq_of_lt hlt] using hlen

/-- Of the byte strings that begin with a file, only the file itself is accepted, if its parts are. -/
theorem decode_ok_iff_of_starts {file : PatchFile} (h : file.Countable) {bytes : List UInt8} (hnext : file.bytes <+: bytes)
    {key : NativeImagePatchKey} {base : U64} {metadata : NativePatchMetadata} :
    decodeNativePatchMetadata key bytes base = .ok metadata ↔
      (bytes = file.bytes ∧ file.HeadedBy key ∧ file.Fits base ∧ file.TrapLens) ∧ file.metadata base = metadata := by
  rw [decode_ok_iff]
  constructor
  · rintro ⟨other, hother, hparts, rfl, rfl⟩
    obtain rfl := PatchFile.wire.eq_of_prefix (PatchFile.wire_valid_iff.mpr h) (PatchFile.wire_valid_iff.mpr hother) hnext
    exact ⟨⟨rfl, hparts⟩, rfl⟩
  · rintro ⟨⟨rfl, hparts⟩, rfl⟩
    exact ⟨file, h, hparts, rfl, rfl⟩

theorem decode_ok_iff_of_file {file : PatchFile} (h : file.Countable) {key : NativeImagePatchKey} {base : U64}
    {metadata : NativePatchMetadata} : decodeNativePatchMetadata key file.bytes base = .ok metadata ↔
      (file.HeadedBy key ∧ file.Fits base ∧ file.TrapLens) ∧ file.metadata base = metadata := by
  rw [decode_ok_iff_of_starts h (List.prefix_refl _), eq_self, true_and]

theorem decode_take_error {file : PatchFile} (h : file.Countable) {n : Nat} (hn : n < file.bytes.length)
    (key : NativeImagePatchKey) (base : U64) :
    ∃ e, decodeNativePatchMetadata key (file.bytes.take n) base = .error e := by
  cases hdecode : decodeNativePatchMetadata key (file.bytes.take n) base with
  | error e => exact ⟨e, rfl⟩
  | ok metadata =>
      obtain ⟨other, hother, -, -, hbytes⟩ := decode_ok_iff.mp hdecode
      have hlead : other.bytes <+: file.bytes := hbytes ▸ List.take_prefix _ _
      obtain rfl := PatchFile.wire.eq_of_prefix (PatchFile.wire_valid_iff.mpr hother) (PatchFile.wire_valid_iff.mpr h) hlead
      have hlength := congrArg List.length hbytes
      rw [List.length_take] at hlength
      omega

def headerBytes (key : NativeImagePatchKey) : List UInt8 :=
  headerWire.write (⟨nativePatchCacheMagic, rfl⟩, nativePatchCacheVersion, key.hash, key.executableLen)

theorem headerBytes_starts {key : NativeImagePatchKey} {bytes : List UInt8} {base : U64} {metadata : NativePatchMetadata}
    (h : decodeNativePatchMetadata key bytes base = .ok metadata) : headerBytes key <+: bytes := by
  obtain ⟨⟨⟨_, hlength⟩, _, _, ranges, syscalls, patches, traps⟩, -, ⟨⟨hmagic, rfl, rfl⟩, -, -⟩, -, rfl⟩ :=
    decode_ok_iff.mp h
  obtain rfl := hmagic
  exact ⟨_, rfl⟩

/-- The files do not name an `fs` instruction twice. -/
structure PatchFile.Distinct (file : PatchFile) : Prop where
  fsRelativePatches : (file.fsRelativePatches.map Prod.fst).Nodup
  fsRelativeTraps : (file.fsRelativeTraps.map Prod.fst).Nodup

/-- The same records, those of `fs` in any order. -/
structure PatchFile.Reordered (file file' : PatchFile) : Prop where
  ranges : file.ranges = file'.ranges
  syscalls : file.syscalls = file'.syscalls
  fsRelativePatches : file.fsRelativePatches.Perm file'.fsRelativePatches
  fsRelativeTraps : file.fsRelativeTraps.Perm file'.fsRelativeTraps

theorem add_offset_inj {base offset offset' : U64} (h : FitsAt base offset) (h' : FitsAt base offset') :
    base + offset = base + offset' ↔ offset = offset' := by
  rw [Fin.ext_iff, Fin.ext_iff, Fin.val_add_eq_of_add_lt h, Fin.val_add_eq_of_add_lt h']
  exact Nat.add_left_cancel_iff

theorem collectMap_moved_eq_iff {ν μ : Type} (value : ν → μ) {l l' : List (U64 × ν)} {base : U64}
    (hfits : ∀ e ∈ l, FitsAt base e.1) (hfits' : ∀ e ∈ l', FitsAt base e.1)
    (hvalue : ∀ e ∈ l, ∀ e' ∈ l', value e.2 = value e'.2 → e.2 = e'.2) (hkeys : (l.map Prod.fst).Nodup)
    (hkeys' : (l'.map Prod.fst).Nodup) :
    collectMap (l.map fun e => (base + e.1, value e.2)) = collectMap (l'.map fun e => (base + e.1, value e.2)) ↔
      l.Perm l' := by
  have hmoved : ∀ {l : List (U64 × ν)}, (∀ e ∈ l, FitsAt base e.1) → (l.map Prod.fst).Nodup →
      ((l.map fun e => (base + e.1, value e.2)).map Prod.fst).Nodup := by
    intro l hfits hkeys
    rw [List.map_map]
    refine List.Nodup.map_on (fun e he e' he' h => ?_) (List.Nodup.of_map _ hkeys)
    exact List.inj_on_of_nodup_map hkeys he he' ((add_offset_inj (hfits e he) (hfits e' he')).mp h)
  rw [collectMap_eq_iff (hmoved hfits hkeys) (hmoved hfits' hkeys')]
  refine ⟨perm_of_map_perm fun e he e' he' h => ?_, fun h => h.map _⟩
  obtain ⟨haddress, hval⟩ := Prod.mk.inj h
  exact Prod.ext ((add_offset_inj (hfits e he) (hfits' e' he')).mp haddress) (hvalue e he e' he' hval)

theorem metadata_eq_iff {file file' : PatchFile} {base : U64} (hfits : file.Fits base) (hfits' : file'.Fits base)
    (hlens : file.TrapLens) (hlens' : file'.TrapLens) (hdistinct : file.Distinct) (hdistinct' : file'.Distinct) :
    file.metadata base = file'.metadata base ↔ file.Reordered file' := by
  have hranges : (file.ranges.map fun range => (base + range.1, base + range.2)) =
      (file'.ranges.map fun range => (base + range.1, base + range.2)) ↔ file.ranges = file'.ranges := by
    refine ⟨eq_of_map_eq fun r hr r' hr' h => ?_, fun h => by rw [h]⟩
    have hr := hfits.ranges r hr
    have hr' := hfits'.ranges r' hr'
    obtain ⟨hstart, hstop⟩ := Prod.mk.inj h
    exact Prod.ext ((add_offset_inj hr.1 hr'.1).mp hstart) ((add_offset_inj hr.2 hr'.2).mp hstop)
  have hsyscalls : (file.syscalls.map fun offset => ExecutableSyscallPatch.mk (base + offset)) =
      (file'.syscalls.map fun offset => ExecutableSyscallPatch.mk (base + offset)) ↔
        file.syscalls = file'.syscalls := by
    refine ⟨eq_of_map_eq fun o ho o' ho' h => ?_, fun h => by rw [h]⟩
    exact (add_offset_inj (hfits.syscalls o ho) (hfits'.syscalls o' ho')).mp (ExecutableSyscallPatch.mk.inj h)
  have hpatches := collectMap_moved_eq_iff FsRelativePatch.mk hfits.fsRelativePatches
    hfits'.fsRelativePatches (fun _ _ _ _ h => FsRelativePatch.mk.inj h) hdistinct.fsRelativePatches
    hdistinct'.fsRelativePatches
  have htraps := collectMap_moved_eq_iff
    (fun trap : U32 × ByteArr 15 => (⟨trap.2, UInt8.ofNat trap.1.val⟩ : FsRelativeTrap))
    hfits.fsRelativeTraps hfits'.fsRelativeTraps (fun e he e' he' h => by
      obtain ⟨horiginal, hlen⟩ := FsRelativeTrap.mk.inj h
      have hlt : e.2.1.val < 256 := Nat.lt_of_le_of_lt (hlens e he).2 (by decide)
      have hlt' : e'.2.1.val < 256 := Nat.lt_of_le_of_lt (hlens' e' he').2 (by decide)
      have hval := congrArg UInt8.toNat hlen
      rw [UInt8.toNat_ofNat_of_lt' hlt, UInt8.toNat_ofNat_of_lt' hlt'] at hval
      exact Prod.ext (Fin.ext hval) horiginal) hdistinct.fsRelativeTraps hdistinct'.fsRelativeTraps
  rw [PatchFile.metadata, PatchFile.metadata, NativePatchMetadata.mk.injEq, hranges, hsyscalls, hpatches, htraps]
  exact ⟨fun ⟨h₁, h₂, h₃, h₄⟩ => ⟨h₁, h₂, h₃, h₄⟩, fun h => ⟨h.1, h.2, h.3, h.4⟩⟩

/-- Reading follows writing at any base; nothing but a whole file with the right header, fitting offsets and possible
trap lengths is accepted; files that are accepted say the same only with the same records. -/
theorem decode_encode (key : NativeImagePatchKey) (base : U64) :
    (∀ metadata : NativePatchMetadata, metadata.Above base → metadata.Countable → metadata.TrapLens →
      ∃ bytes, encodeNativePatchMetadata key metadata base = .ok bytes ∧
        ∀ base', (decodeNativePatchMetadata key bytes base').toOption = rebaseNativePatchMetadata metadata base base') ∧
    (∀ bytes, ¬headerBytes key <+: bytes → ∃ e, decodeNativePatchMetadata key bytes base = .error e) ∧
    (∀ file : PatchFile, file.Countable →
      (∀ bytes, file.bytes <+: bytes → ((∃ metadata, decodeNativePatchMetadata key bytes base = .ok metadata) ↔
        bytes = file.bytes ∧ file.HeadedBy key ∧ file.Fits base ∧ file.TrapLens)) ∧
      ∀ n < file.bytes.length, ∃ e, decodeNativePatchMetadata key (file.bytes.take n) base = .error e) ∧
    ∀ bytes bytes' metadata metadata', decodeNativePatchMetadata key bytes base = .ok metadata →
      decodeNativePatchMetadata key bytes' base = .ok metadata' →
      ∃ file file' : PatchFile, file.Countable ∧ file'.Countable ∧ file.bytes = bytes ∧ file'.bytes = bytes' ∧
        (file.Distinct → file'.Distinct → (metadata = metadata' ↔ file.Reordered file')) := by
  refine ⟨fun metadata habove hcount hlens => ?_, fun bytes hheader => ?_, fun file hcount => ⟨fun bytes hnext => ?_,
    fun n hn => decode_take_error hcount hn key base⟩, fun bytes bytes' metadata metadata' hdecode hdecode' => ?_⟩
  · refine ⟨_, encode_eq habove key, fun base' => Option.ext fun moved => ?_⟩
    have hok : ∀ {x : Except IoError NativePatchMetadata}, x.toOption = some moved ↔ x = .ok moved := by
      intro x
      cases x <;> simp [Except.toOption]
    rw [hok, decode_ok_iff_of_file (metadata.file_countable hcount key base), rebase_eq_some_iff habove key]
    have hheaded : (metadata.file key base).HeadedBy key := ⟨rfl, rfl, rfl⟩
    simp only [hheaded, metadata.file_trapLens hlens key base, true_and, and_true]
  · cases hdecode : decodeNativePatchMetadata key bytes base with
    | error e => exact ⟨e, rfl⟩
    | ok metadata => exact absurd (headerBytes_starts hdecode) hheader
  · simp only [decode_ok_iff_of_starts hcount hnext]
    exact ⟨Exists.rec fun _ h => h.1, fun h => ⟨_, h, rfl⟩⟩
  · obtain ⟨file, hcount, ⟨-, hfits, hlens⟩, rfl, rfl⟩ := decode_ok_iff.mp hdecode
    obtain ⟨file', hcount', ⟨-, hfits', hlens'⟩, rfl, rfl⟩ := decode_ok_iff.mp hdecode'
    exact ⟨file, file', hcount, hcount', rfl, rfl, metadata_eq_iff hfits hfits' hlens hlens'⟩

def zeros (n : Nat) : ByteArr n := ⟨List.replicate n 0, List.length_replicate⟩

/-- One record of each kind. -/
def sampleMetadata : NativePatchMetadata where
  scannedRanges := [(0x1000, 0x2000)]
  syscallPatches := [⟨0x1010⟩]
  fsRelativePatches := SortedMap.empty.insert 0x1020 ⟨zeros 9⟩
  fsRelativeTraps := SortedMap.empty.insert 0x1030 ⟨zeros 15, 7⟩

theorem decode_encode_sample :
    (∃ bytes, encodeNativePatchMetadata ⟨1, 2⟩ sampleMetadata 0x1000 = .ok bytes ∧
      (decodeNativePatchMetadata ⟨1, 2⟩ bytes 0x7000).toOption =
        rebaseNativePatchMetadata sampleMetadata 0x1000 0x7000) ∧
    ∃ e, decodeNativePatchMetadata ⟨1, 2⟩ ((sampleMetadata.file ⟨1, 2⟩ 0x1000).bytes.take 40) 0x1000 = .error e := by
  -- one record in each list, so each bound is about that record
  have habove : sampleMetadata.Above 0x1000 :=
    ⟨List.forall_mem_singleton.mpr (by decide), List.forall_mem_singleton.mpr (by decide),
      List.forall_mem_singleton.mpr (by decide), List.forall_mem_singleton.mpr (by decide)⟩
  have hcount : sampleMetadata.Countable :=
    ⟨by decide +kernel, by decide +kernel, by decide +kernel, by decide +kernel⟩
  have hlens : sampleMetadata.TrapLens := List.forall_mem_singleton.mpr (by decide)
  obtain ⟨hround, -, hfile, -⟩ := decode_encode ⟨1, 2⟩ 0x1000
  obtain ⟨bytes, hbytes, hread⟩ := hround sampleMetadata habove hcount hlens
  exact ⟨⟨bytes, hbytes, hread 0x7000⟩,
    (hfile _ (NativePatchMetadata.file_countable hcount _ _)).2 40 (by decide +kernel)⟩

/-- `FsRelativeTrap` has public fields: nothing keeps its length from being zero. -/
def zeroTrap : NativePatchMetadata := { NativePatchMetadata.empty with
  fsRelativeTraps := SortedMap.empty.insert 0x10 ⟨zeros 15, 0⟩ }

def orderedPatches : PatchFile := ⟨⟨nativePatchCacheMagic, rfl⟩, nativePatchCacheVersion, ⟨1, 2⟩, [], [],
  [(0x10, zeros 9), (0x20, zeros 9)], []⟩

def swappedPatches : PatchFile := { orderedPatches with fsRelativePatches := [(0x20, zeros 9), (0x10, zeros 9)] }

/-- A trap of no length moves and is written, but not read; files with the same patches in another order are both read,
and as the same. -/
theorem zeroTrap_unread_swapped_same :
    (rebaseNativePatchMetadata zeroTrap 0 0).isSome ∧
    ((encodeNativePatchMetadata ⟨1, 2⟩ zeroTrap 0).toOption.map fun bytes =>
      (decodeNativePatchMetadata ⟨1, 2⟩ bytes 0).toOption.isNone) = some true ∧
    orderedPatches.Distinct ∧ swappedPatches.Distinct ∧ orderedPatches.bytes ≠ swappedPatches.bytes ∧
    (decodeNativePatchMetadata ⟨1, 2⟩ orderedPatches.bytes 0).toOption.isSome ∧
    decodeNativePatchMetadata ⟨1, 2⟩ orderedPatches.bytes 0 = decodeNativePatchMetadata ⟨1, 2⟩ swappedPatches.bytes 0 := by
  have hdistinct : orderedPatches.Distinct ∧ swappedPatches.Distinct :=
    ⟨⟨by decide, by decide⟩, ⟨by decide, by decide⟩⟩
  have hfits : orderedPatches.Fits 0 ∧ swappedPatches.Fits 0 := by
    simp [PatchFile.fits_iff, orderedPatches, swappedPatches, FitsAt]
  have hlens : orderedPatches.TrapLens ∧ swappedPatches.TrapLens := ⟨fun _ h => (nomatch h), fun _ h => (nomatch h)⟩
  have hordered : decodeNativePatchMetadata ⟨1, 2⟩ orderedPatches.bytes 0 = .ok (orderedPatches.metadata 0) :=
    (decode_ok_iff_of_file ⟨by decide, by decide, by decide, by decide⟩).mpr
      ⟨⟨⟨rfl, rfl, rfl⟩, hfits.1, hlens.1⟩, rfl⟩
  have hswapped : decodeNativePatchMetadata ⟨1, 2⟩ swappedPatches.bytes 0 = .ok (swappedPatches.metadata 0) :=
    (decode_ok_iff_of_file ⟨by decide, by decide, by decide, by decide⟩).mpr
      ⟨⟨⟨rfl, rfl, rfl⟩, hfits.2, hlens.2⟩, rfl⟩
  have hsame : orderedPatches.metadata 0 = swappedPatches.metadata 0 :=
    (metadata_eq_iff hfits.1 hfits.2 hlens.1 hlens.2 hdistinct.1 hdistinct.2).mpr
      ⟨rfl, rfl, List.Perm.swap _ _ _, List.Perm.refl _⟩
  refine ⟨by decide +kernel, by decide +kernel, hdistinct.1, hdistinct.2, by decide +kernel, ?_, ?_⟩
  · simp only [hordered, Except.toOption, Option.isSome_some]
  · rw [hordered, hswapped, hsame]

end Mcr.Jit
