import Mcr.Elf.StackBuilt

/-!
# Reading the initial stack

A program that starts with the stack pointer finds its arguments, its environment and the auxiliary vector, and at each
pointer what the pointer is for; none of these overlap.
-/

namespace Mcr.Elf

def InitialStack.read (stack : InitialStack) (address length : Nat) : List UInt8 :=
  (stack.bytes.drop (address - stack.stackPointer)).take length

/-- What a stack holds, from its pointer up: the vector, the random bytes, the strings. -/
def stackRegions (config : InitialStackConfig) (stack : InitialStack) : List (Block UInt8) :=
  ⟨stack.stackPointer, stack.read stack.stackPointer (8 * vectorLength config)⟩ ::
    ⟨stack.randomAddress, config.randomBytes.val⟩ ::
      List.zipWith (fun address string => ⟨address, cString string⟩)
        (stack.argvAddresses ++ stack.envpAddresses ++ [stack.platformAddress, stack.executablePathAddress])
        (stackStrings config)

/-- A stack as its program reads it. -/
structure LaidOut (config : InitialStackConfig) (stack : InitialStack) : Prop where
  aligned : 16 ∣ stack.stackPointer
  vector : littleEndianNumbers 8 (vectorLength config) stack.bytes = config.argv.length :: (stack.argvAddresses ++
    0 :: (stack.envpAddresses ++ 0 :: stack.auxvEntries.flatMap fun entry => [entry.key, entry.value]))
  auxv : ∃ entries, stack.auxvEntries = entries ++ [⟨atNull, 0⟩] ∧ (∀ entry ∈ entries, entry.key ≠ atNull) ∧
    (entries.map (·.key)).Nodup ∧ ⟨atExecfn, stack.executablePathAddress⟩ ∈ entries ∧
      ⟨atPlatform, stack.platformAddress⟩ ∈ entries ∧ ⟨atRandom, stack.randomAddress⟩ ∈ entries
  argv : List.Forall₂ (fun address string => stack.read address (string.length + 1) = cString string)
    stack.argvAddresses config.argv
  envp : List.Forall₂ (fun address string => stack.read address (string.length + 1) = cString string)
    stack.envpAddresses config.envp
  executablePath : stack.read stack.executablePathAddress (config.executablePath.length + 1) =
    cString config.executablePath
  platform : stack.read stack.platformAddress (config.platform.length + 1) = cString config.platform
  random : stack.read stack.randomAddress atRandomBytes = config.randomBytes.val
  disjoint : (stackRegions config stack).Pairwise fun region region' => region.stop ≤ region'.address
  inside : ∀ region ∈ stackRegions config stack,
    config.stackTop.val - config.stackSize.val ≤ region.address ∧ region.stop ≤ config.stackTop.val

/-! ### Layouts -/

theorem layout_leads {read : Nat → Nat → List UInt8} {start : Nat} {strings : List (List UInt8)}
    (h : ∀ block ∈ layout start strings, read block.address block.content.length = block.content) :
    List.Forall₂ (fun address string => read address (string.length + 1) = cString string)
      ((layout start strings).map (·.address)) strings := by
  induction strings generalizing start with
  | nil => exact List.Forall₂.nil
  | cons string strings ih =>
      obtain ⟨hstring, hstrings⟩ := List.forall_mem_cons.mp h
      rw [length_cString] at hstring
      exact List.Forall₂.cons hstring (ih hstrings)

theorem zipWith_layout (start : Nat) (strings : List (List UInt8)) :
    List.zipWith (fun address string => (⟨address, cString string⟩ : Block UInt8))
      ((layout start strings).map (·.address)) strings = layout start strings := by
  induction strings generalizing start with
  | nil => rfl
  | cons string strings ih => rw [layout, List.map_cons, List.zipWith_cons_cons, ih]

section Laid

variable {plan : LoadPlan} {config : InitialStackConfig} (hvalid : Valid plan config) (hfits : Fits config)

/-- The address where the strings begin. -/
abbrev stringsStart (config : InitialStackConfig) : Nat :=
  config.stackTop.val - stringsSize (stackStrings config)

theorem laidData_addresses (config : InitialStackConfig) :
    (laidData config).argvAddresses ++ (laidData config).envpAddresses ++
      [(laidData config).platformAddress, (laidData config).executablePathAddress] =
      (layout (stringsStart config) (stackStrings config)).map (·.address) := by
  rw [stackStrings_layout, List.map_append, List.map_append]
  rfl

def laidBlocks (plan : LoadPlan) (config : InitialStackConfig) : List (Block UInt8) :=
  stackBlocks (laidPointer config) ((laidWords plan config).flatMap (toLittleEndian 8)) (laidData config)

include hfits in
theorem contiguous_laidBlocks :
    Contiguous (laidPointer config) (laidBlocks plan config) config.stackTop.val := by
  obtain ⟨hdata, hvector, hbase⟩ := (fits_iff config).mp hfits
  have harea := length_laidArea plan config
  have hdown (n : Nat) : alignDown n initialStackAlignment ≤ n := Nat.div_mul_le_self n 16
  have hcursor := hdown (laidData config).randomAddress
  have hpointer := hdown (alignDown (laidData config).randomAddress initialStackAlignment - 8 * vectorLength config)
  rw [← laidPointer] at hpointer
  have hgap : laidPointer config + 8 * vectorLength config + ((laidData config).randomAddress -
      (laidPointer config + 8 * vectorLength config)) = (laidData config).randomAddress := by omega
  rw [laidBlocks, stackBlocks, harea]
  refine ⟨rfl, congrArg (laidPointer config + ·) harea.symm, ?_⟩
  rw [Block.stop, List.length_replicate, hgap]
  exact contiguous_laidData hdata

include hfits in
theorem laidStack_read {block : Block UInt8} (h : block ∈ laidBlocks plan config) :
    (laidStack plan config).read block.address block.content.length = block.content :=
  (contiguous_laidBlocks hfits).content_at h

theorem placed_laidData (config : InitialStackConfig) : (laidData config).placed.reverse =
    ⟨(laidData config).randomAddress, config.randomBytes.val⟩ :: layout (stringsStart config) (stackStrings config) :=
  List.reverse_reverse _

include hfits in
theorem stackRegions_laidStack : stackRegions config (laidStack plan config) =
    ⟨laidPointer config, (laidWords plan config).flatMap (toLittleEndian 8)⟩ :: (laidData config).placed.reverse := by
  have hvector : (laidStack plan config).read (laidPointer config) (8 * vectorLength config) =
      (laidWords plan config).flatMap (toLittleEndian 8) := by
    rw [← length_laidArea plan config]
    exact laidStack_read hfits List.mem_cons_self
  have hstrings := zipWith_layout (stringsStart config) (stackStrings config)
  rw [← laidData_addresses] at hstrings
  rw [placed_laidData, ← hstrings, ← hvector]
  rfl

theorem mem_laidBlocks {block : Block UInt8} (h : block ∈ (laidData config).placed.reverse) :
    block ∈ laidBlocks plan config :=
  List.mem_cons_of_mem _ (List.mem_cons_of_mem _ h)

theorem mem_placed_of_layout {block : Block UInt8} (h : block ∈ layout (stringsStart config) (stackStrings config)) :
    block ∈ (laidData config).placed.reverse := by
  rw [placed_laidData]
  exact List.mem_cons_of_mem _ h

include hfits in
theorem address_lt {address : Nat}
    (h : address ∈ (layout (stringsStart config) (stackStrings config)).map (·.address)) : address < 256 ^ 8 := by
  obtain ⟨block, hblock, rfl⟩ := List.mem_map.mp h
  have hinside := (contiguous_laidData ((fits_iff config).mp hfits).1).mem (mem_placed_of_layout hblock)
  have htop := config.stackTop.isLt
  unfold Block.stop at hinside
  omega

/-! ### The vector -/

theorem laidAuxv_eq (plan : LoadPlan) (config : InitialStackConfig) : ∃ entries,
    laidAuxv plan config = entries ++ [⟨atNull, 0⟩] ∧ (∀ entry ∈ entries, entry.key ≠ atNull) ∧
      (entries.map (·.key)).Nodup ∧ ⟨atExecfn, (laidData config).executablePathAddress⟩ ∈ entries ∧
      ⟨atPlatform, (laidData config).platformAddress⟩ ∈ entries ∧
      ⟨atRandom, (laidData config).randomAddress⟩ ∈ entries := by
  have hkeys : (laidAuxv plan config).dropLast.map (·.key) =
      [3, 4, 5, 6, 7, 8, 9, 11, 12, 13, 14, 16, 17, 23, 25, 26, 31, 15] := rfl
  refine ⟨(laidAuxv plan config).dropLast, rfl, fun entry hentry hkey => ?_, ?_, List.mem_of_getElem? (i := 16) rfl,
    List.mem_of_getElem? (i := 17) rfl, List.mem_of_getElem? (i := 14) rfl⟩
  · have hmem := List.mem_map_of_mem (f := (·.key)) hentry
    rw [hkeys, hkey] at hmem
    exact absurd hmem (by decide)
  · rw [hkeys]
    decide

include hvalid hfits in
theorem laidAuxv_lt : ∀ entry ∈ laidAuxv plan config, entry.key < 256 ^ 8 ∧ entry.value < 256 ^ 8 := by
  obtain ⟨address, haddress, hphdr⟩ := hvalid.phdr
  have hentry := hvalid.entrypoint
  have hbase := config.interpreterBase.isLt
  have hsize := plan.programHeadersEntrySize.isLt
  have hcount := plan.programHeadersEntryCount.isLt
  have hdata := contiguous_laidData ((fits_iff config).mp hfits).1
  have hrandom := hdata.le
  have htop := config.stackTop.isLt
  have hpair : ∀ address ∈ [(laidData config).platformAddress, (laidData config).executablePathAddress],
      address < 256 ^ 8 := by
    intro address hmem
    apply address_lt hfits
    rw [← laidData_addresses]
    exact List.mem_append_right _ hmem
  obtain ⟨hplatform, hexec⟩ : (laidData config).platformAddress < 256 ^ 8 ∧
      (laidData config).executablePathAddress < 256 ^ 8 :=
    ⟨hpair _ List.mem_cons_self, hpair _ (List.mem_cons_of_mem _ List.mem_cons_self)⟩
  have hvalues : (laidAuxv plan config).map (·.value) = [address.val + config.executableLoadBias.val,
      plan.programHeadersEntrySize.val, plan.programHeadersEntryCount.val, 4096, config.interpreterBase.val, 0,
      plan.entrypoint.val + config.executableLoadBias.val, 0, 0, 0, 0, 0, 100, 0, (laidData config).randomAddress, 0,
      (laidData config).executablePathAddress, (laidData config).platformAddress, 0] := by
    rw [laidAuxv, haddress]
    rfl
  have hkeys : (laidAuxv plan config).map (·.key) =
      [3, 4, 5, 6, 7, 8, 9, 11, 12, 13, 14, 16, 17, 23, 25, 26, 31, 15, 0] := rfl
  intro entry hmem
  have hkey := List.mem_map_of_mem (f := (·.key)) hmem
  have hvalue := List.mem_map_of_mem (f := (·.value)) hmem
  rw [hkeys] at hkey
  rw [hvalues] at hvalue
  have hlow : ∀ key ∈ [3, 4, 5, 6, 7, 8, 9, 11, 12, 13, 14, 16, 17, 23, 25, 26, 31, 15, 0], key < 256 ^ 8 := by decide
  refine ⟨hlow _ hkey, ?_⟩
  simp only [List.mem_cons, List.not_mem_nil, or_false] at hvalue
  omega

include hvalid hfits in
theorem laidWords_lt : ∀ word ∈ laidWords plan config, word < 256 ^ 8 := by
  have hlen := length_argvAddresses_lt ((fits_iff config).mp hfits).1
  have haddress : ∀ address ∈ (laidData config).argvAddresses ++ (laidData config).envpAddresses ++
      [(laidData config).platformAddress, (laidData config).executablePathAddress], address < 256 ^ 8 := by
    rw [laidData_addresses]
    exact fun address => address_lt hfits
  intro word hword
  simp only [laidWords, vectorWords, List.mem_cons, List.mem_append, List.mem_flatMap, List.not_mem_nil,
    or_false] at hword
  rcases hword with rfl | hargv | rfl | henvp | rfl | ⟨entry, hentry, rfl | rfl⟩
  · exact hlen
  · exact haddress word (List.mem_append_left _ (List.mem_append_left _ hargv))
  · decide
  · exact haddress word (List.mem_append_left _ (List.mem_append_right _ henvp))
  · decide
  · exact (laidAuxv_lt hvalid hfits entry hentry).1
  · exact (laidAuxv_lt hvalid hfits entry hentry).2

include hvalid hfits in
theorem laidOut_laidStack : LaidOut config (laidStack plan config) := by
  have hcontiguous : Contiguous (laidPointer config) (laidBlocks plan config) config.stackTop.val :=
    contiguous_laidBlocks hfits
  have hargc : (laidData config).argvAddresses.length = config.argv.length :=
    (List.length_map _).trans (length_layout _ _)
  have hread : ∀ block ∈ layout (stringsStart config) (stackStrings config),
      (laidStack plan config).read block.address block.content.length = block.content := fun block hblock =>
    laidStack_read hfits (mem_laidBlocks (mem_placed_of_layout hblock))
  rw [stackStrings_layout, List.forall_mem_append, List.forall_mem_append] at hread
  obtain ⟨⟨hargv, henvp⟩, hpair⟩ := hread
  obtain ⟨hplatform, hexec, -⟩ := by simpa only [List.forall_mem_cons] using hpair
  have hregions : (stackRegions config (laidStack plan config)).Sublist (laidBlocks plan config) := by
    rw [stackRegions_laidStack hfits]
    exact (List.sublist_cons_self _ _).cons_cons _
  constructor
  case aligned => exact Nat.dvd_mul_left 16 _
  case vector =>
      have hwords := littleEndianNumbers_flatMap (laidWords_lt hvalid hfits)
        ((laidBlocks plan config).tail.flatMap (·.content))
      rw [length_laidWords] at hwords
      rw [← hargc]
      exact hwords
  case auxv => exact laidAuxv_eq plan config
  case argv => exact layout_leads hargv
  case envp => exact layout_leads henvp
  case executablePath =>
      rw [← length_cString]
      exact hexec
  case platform =>
      rw [← length_cString]
      exact hplatform
  case random =>
      have hblock : ⟨(laidData config).randomAddress, config.randomBytes.val⟩ ∈ (laidData config).placed.reverse := by
        rw [placed_laidData]
        exact List.mem_cons_self
      have hrandom : (laidStack plan config).read (laidData config).randomAddress config.randomBytes.val.length =
          config.randomBytes.val := laidStack_read hfits (mem_laidBlocks hblock)
      rwa [config.randomBytes.property] at hrandom
  case disjoint => exact hcontiguous.ordered.sublist hregions
  case inside =>
      intro region hregion
      obtain ⟨hlow, hhigh⟩ := hcontiguous.mem (hregions.subset hregion)
      have hbase := ((fits_iff config).mp hfits).2.2
      exact ⟨by omega, hhigh⟩

end Laid

/-! ### The stack of a configuration -/

/-- A stack that is built is laid out, nothing panics, and an error is returned exactly if the plan or the
configuration is not valid or the stack has no room. -/
theorem buildInitialStack_correct (plan : LoadPlan) (config : InitialStackConfig) :
    (∀ stack, buildInitialStack plan config = .ok stack → LaidOut config stack) ∧
      buildInitialStack plan config ≠ .error .panic ∧
      ((∃ e, buildInitialStack plan config = fail e) ↔ ¬ Valid plan config ∨ ¬ Fits config) := by
  have hbuilt := buildInitialStack_succeedsIff plan config
  refine ⟨fun stack hstack => ?_, hbuilt.not_panic, hbuilt.error_iff.trans not_and_or⟩
  obtain ⟨⟨hvalid, hfits⟩, rfl⟩ := hbuilt.of_ok hstack
  exact laidOut_laidStack hvalid hfits

/-- A stack of one page with no arguments, on a machine with no name. -/
def namelessConfig : InitialStackConfig where
  stackTop := 8192
  stackSize := 4096
  executablePath := []
  argv := []
  envp := []
  randomBytes := ⟨List.replicate 16 0, rfl⟩
  executableLoadBias := 0
  interpreterBase := 0
  platform := []

def plainPlan : LoadPlan where
  entrypoint := 0
  programHeadersVirtualAddress := some 64
  programHeadersEntrySize := 56
  programHeadersEntryCount := 1

/-- The stack has room for it and no string has an interior NUL, but an empty platform is refused. -/
theorem namelessConfig_fits_refused : Fits namelessConfig ∧ (∀ string ∈ stackStrings namelessConfig, 0 ∉ string) ∧
    buildInitialStack plainPlan namelessConfig = fail .emptyPlatform := by
  refine ⟨⟨7776, 8160, ?_⟩, ?_, rfl⟩
  · decide
  · decide

end Mcr.Elf
