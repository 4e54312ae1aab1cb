import Mcr.Elf.StackLayout

/-!
# The initial stack that is built

The stack is built exactly for a valid configuration whose layout fits, and then every word and every pointer leads to
what the configuration says.
-/

namespace Mcr.Elf

def stackStrings (config : InitialStackConfig) : List (List UInt8) :=
  config.argv ++ config.envp ++ [config.platform, config.executablePath]

def dataSize (config : InitialStackConfig) : Nat := stringsSize (stackStrings config) + atRandomBytes

/-- The words of the vector are a count, the pointers with their two ends, and nineteen pairs. -/
def vectorLength (config : InitialStackConfig) : Nat := config.argv.length + config.envp.length + 41

theorem stringsSize_append (strings strings' : List (List UInt8)) :
    stringsSize (strings ++ strings') = stringsSize strings + stringsSize strings' := by
  rw [stringsSize, List.map_append, List.sum_append]
  rfl

theorem length_le_stringsSize (strings : List (List UInt8)) : strings.length ≤ stringsSize strings := by
  induction strings with
  | nil => exact Nat.le_refl 0
  | cons string strings ih =>
      have hsize : stringsSize (string :: strings) = string.length + 1 + stringsSize strings := rfl
      rw [hsize, List.length_cons]
      omega

theorem stringsSize_stackStrings (config : InitialStackConfig) : stringsSize (stackStrings config) =
    stringsSize config.argv + stringsSize config.envp + (config.platform.length + 1) +
      (config.executablePath.length + 1) := by
  rw [stackStrings, stringsSize_append, stringsSize_append, Nat.add_assoc _ (config.platform.length + 1)]
  rfl

/-! ### The data -/

def laidData (config : InitialStackConfig) : PlacedData :=
  let start := config.stackTop.val - stringsSize (stackStrings config)
  let envpStart := start + stringsSize config.argv
  let platformAddress := envpStart + stringsSize config.envp
  { executablePathAddress := platformAddress + (config.platform.length + 1)
    platformAddress
    envpAddresses := (layout envpStart config.envp).map (·.address)
    argvAddresses := (layout start config.argv).map (·.address)
    randomAddress := start - atRandomBytes
    placed := (⟨start - atRandomBytes, config.randomBytes.val⟩ :: layout start (stackStrings config)).reverse }

theorem stackStrings_layout (config : InitialStackConfig) (start : Nat) : layout start (stackStrings config) =
    layout start config.argv ++ layout (start + stringsSize config.argv) config.envp ++
      [⟨start + stringsSize config.argv + stringsSize config.envp, cString config.platform⟩,
        ⟨start + stringsSize config.argv + stringsSize config.envp + (config.platform.length + 1),
          cString config.executablePath⟩] := by
  rw [stackStrings, layout_append, layout_append, stringsSize_append, ← Nat.add_assoc start]
  rfl

theorem placeData_succeedsIff (config : InitialStackConfig) :
    SucceedsIff (placeData config) (dataSize config ≤ config.stackTop.val) (laidData config) := by
  have htop := config.stackTop.isLt
  have hsize := stringsSize_stackStrings config
  have below (n : Nat) : config.stackTop.val - n < 2 ^ 64 := Nat.lt_of_le_of_lt (Nat.sub_le _ _) htop
  refine SucceedsIff.congr (SucceedsIff.bind (placeCString_succeedsIff htop config.executablePath) fun hexec =>
    SucceedsIff.bind (placeCString_succeedsIff (below _) config.platform) fun hplatform =>
    SucceedsIff.bind (placeCStrings_succeedsIff (by dsimp only; omega) config.envp) fun henvp =>
    SucceedsIff.bind (placeCStrings_succeedsIff (by dsimp only; omega) config.argv) fun hargv =>
    SucceedsIff.map (checkedSub_succeedsIff _ atRandomBytes _) fun hrandom => ?_) ?_
  · dsimp only at hexec hplatform henvp hargv hrandom ⊢
    have hexecAt : config.stackTop.val - (config.executablePath.length + 1) =
        config.stackTop.val - stringsSize (stackStrings config) + stringsSize config.argv +
          stringsSize config.envp + (config.platform.length + 1) := by omega
    rw [hexecAt, Nat.add_sub_cancel, Nat.add_sub_cancel, Nat.add_sub_cancel, laidData, stackStrings_layout,
      List.reverse_cons, List.reverse_append, List.reverse_append]
    simp only [List.append_assoc, List.nil_append]
    rfl
  · unfold dataSize
    dsimp only
    omega

theorem contiguous_laidData {config : InitialStackConfig} (h : dataSize config ≤ config.stackTop.val) :
    Contiguous (laidData config).randomAddress (laidData config).placed.reverse config.stackTop.val := by
  unfold dataSize at h
  have hrandom : config.stackTop.val - stringsSize (stackStrings config) - atRandomBytes + atRandomBytes =
      config.stackTop.val - stringsSize (stackStrings config) := by omega
  have hstop : config.stackTop.val - stringsSize (stackStrings config) + stringsSize (stackStrings config) =
      config.stackTop.val := by omega
  have hlength : config.randomBytes.val.length = atRandomBytes := config.randomBytes.property
  have hlayout := contiguous_layout (config.stackTop.val - stringsSize (stackStrings config)) (stackStrings config)
  rw [hstop] at hlayout
  rw [laidData, List.reverse_reverse]
  refine ⟨rfl, ?_⟩
  rwa [Block.stop, hlength, hrandom]

/-! ### The vector -/

def vectorWords (argvAddresses envpAddresses : List Nat) (auxvEntries : List AuxiliaryVectorEntry) : List Nat :=
  argvAddresses.length ::
    (argvAddresses ++ 0 :: (envpAddresses ++ 0 :: auxvEntries.flatMap fun entry => [entry.key, entry.value]))

theorem foldl_pushU64 (bytes : List UInt8) (words : List Nat) :
    words.foldl pushU64 bytes = bytes ++ words.flatMap (toLittleEndian 8) := by
  induction words generalizing bytes with
  | nil => exact (List.append_nil bytes).symm
  | cons word words ih => rw [List.foldl_cons, ih, pushU64, List.append_assoc, List.flatMap_cons]

theorem foldl_pushEntry (bytes : List UInt8) (entries : List AuxiliaryVectorEntry) :
    entries.foldl (fun bytes entry => pushU64 (pushU64 bytes entry.key) entry.value) bytes =
      (entries.flatMap fun entry => [entry.key, entry.value]).foldl pushU64 bytes := by
  induction entries generalizing bytes with
  | nil => rfl
  | cons entry entries ih => exact ih _

theorem buildPointerArea_eq {argvAddresses : List Nat} (h : argvAddresses.length < 2 ^ 64) (envpAddresses : List Nat)
    (auxvEntries : List AuxiliaryVectorEntry) : buildPointerArea argvAddresses envpAddresses auxvEntries =
      .ok ((vectorWords argvAddresses envpAddresses auxvEntries).flatMap (toLittleEndian 8)) := by
  rw [buildPointerArea, if_neg (Nat.not_le.mpr h)]
  dsimp only
  rw [foldl_pushEntry, ← List.nil_append (List.flatMap (toLittleEndian 8) _), ← foldl_pushU64, vectorWords,
    List.foldl_cons, List.foldl_append, List.foldl_cons, List.foldl_append, List.foldl_cons]

/-! ### Writing -/

theorem copyPlaced_eq {stackPointer : Nat} {bytes : List UInt8} {item : PlacedStackBytes}
    (hlow : stackPointer ≤ item.address) (hhigh : item.stop ≤ stackPointer + bytes.length)
    (hlen : bytes.length < 2 ^ 64) :
    copyPlaced stackPointer bytes item = .ok (overwrite bytes (item.address - stackPointer) item.content) := by
  unfold Block.stop at hhigh
  rw [copyPlaced, subOrPanic, if_pos hlow, ok_bind, if_neg (by omega), copyFromSlice, if_pos (by omega)]

theorem foldlM_copyPlaced {stackPointer : Nat} {placed : List PlacedStackBytes} {bytes : List UInt8}
    (h : ∀ item ∈ placed, stackPointer ≤ item.address ∧ item.stop ≤ stackPointer + bytes.length)
    (hlen : bytes.length < 2 ^ 64) : placed.foldlM (copyPlaced stackPointer) bytes =
      .ok (placed.foldl (fun bytes item => overwrite bytes (item.address - stackPointer) item.content) bytes) := by
  induction placed generalizing bytes with
  | nil => rfl
  | cons item placed ih =>
      obtain ⟨⟨hlow, hhigh⟩, hrest⟩ := List.forall_mem_cons.mp h
      have hsame : (overwrite bytes (item.address - stackPointer) item.content).length = bytes.length := by
        unfold Block.stop at hhigh
        exact length_overwrite (by omega)
      rw [List.foldlM_cons, copyPlaced_eq hlow hhigh hlen, ok_bind, ih (by rwa [hsame]) (by rwa [hsame]),
        List.foldl_cons]

/-- The blocks of a stack: the vector, the gap that the alignment leaves, and the data. -/
def stackBlocks (stackPointer : Nat) (pointerArea : List UInt8) (data : PlacedData) : List PlacedStackBytes :=
  ⟨stackPointer, pointerArea⟩ ::
    ⟨stackPointer + pointerArea.length, List.replicate (data.randomAddress - (stackPointer + pointerArea.length)) 0⟩ ::
      data.placed.reverse

theorem writeStack_eq {stackTop stackPointer : Nat} {pointerArea : List UInt8} {data : PlacedData}
    (h : Contiguous data.randomAddress data.placed.reverse stackTop) (htop : stackTop < 2 ^ 64)
    (harea : stackPointer + pointerArea.length ≤ data.randomAddress) :
    writeStack stackTop stackPointer pointerArea data.placed =
      .ok ((stackBlocks stackPointer pointerArea data).flatMap (·.content)) := by
  have hle := h.le
  have hzeros : overwrite (List.replicate (stackTop - stackPointer) (0 : UInt8)) 0 pointerArea =
      pointerArea ++ List.replicate (stackTop - stackPointer - pointerArea.length) 0 := by
    rw [overwrite, List.take_zero, List.nil_append, List.drop_replicate, Nat.zero_add]
  have hlen : (pointerArea ++ List.replicate (stackTop - stackPointer - pointerArea.length) (0 : UInt8)).length =
      stackTop - stackPointer := by
    rw [List.length_append, List.length_replicate]
    omega
  have hplaced : ∀ item ∈ data.placed, stackPointer ≤ item.address ∧ item.stop ≤ stackPointer +
      (pointerArea ++ List.replicate (stackTop - stackPointer - pointerArea.length) (0 : UInt8)).length := by
    intro item hitem
    obtain ⟨hlow, hhigh⟩ := h.mem (List.mem_reverse.mpr hitem)
    rw [hlen]
    omega
  have hwritten : data.placed.foldl (fun bytes item => overwrite bytes (item.address - stackPointer) item.content)
      (pointerArea ++ List.replicate (stackTop - stackPointer - pointerArea.length) 0) =
        pointerArea ++ List.replicate (data.randomAddress - (stackPointer + pointerArea.length)) 0 ++
          data.placed.reverse.flatMap (·.content) := by
    have hwrite := foldl_overwrite h (Nat.le_trans (Nat.le_add_right _ _) harea) hlen []
    rwa [List.append_nil, List.append_nil, List.take_append, List.take_replicate, List.take_of_length_le (by omega),
      Nat.min_eq_left (by omega), Nat.sub_sub data.randomAddress] at hwrite
  rw [writeStack, subOrPanic, if_pos (by omega), ok_bind]
  dsimp only
  rw [copyFromSlice, if_pos (by rw [List.length_replicate]; omega), ok_bind, hzeros,
    foldlM_copyPlaced hplaced (by omega), hwritten, List.append_assoc]
  rfl

/-! ### Checks -/

structure ValidConfig (config : InitialStackConfig) : Prop where
  stackSize : config.stackSize.val ≠ 0
  executablePath : 0 ∉ config.executablePath
  argv : ∀ string ∈ config.argv, 0 ∉ string
  envp : ∀ string ∈ config.envp, 0 ∉ string
  platform : config.platform ≠ []
  platformNul : 0 ∉ config.platform

/-- What the stack needs of a plan and a configuration, apart from the room. -/
structure Valid (plan : LoadPlan) (config : InitialStackConfig) : Prop extends ValidConfig config where
  phdr : ∃ address, plan.programHeadersVirtualAddress = some address ∧
    address.val + config.executableLoadBias.val < 2 ^ 64
  entrypoint : plan.entrypoint.val + config.executableLoadBias.val < 2 ^ 64
  range : config.stackSize.val ≤ config.stackTop.val

theorem validateNoInteriorNul_succeedsIff (field : String) (index : Nat) (bytes : List UInt8) :
    SucceedsIff (validateNoInteriorNul field index bytes) (0 ∉ bytes) () := by
  by_cases h : 0 ∈ bytes
  · exact .inr ⟨fun hnot => hnot h, _, if_pos h⟩
  · exact .inl ⟨h, if_neg h⟩

theorem validateNoInteriorNulFrom_succeedsIff (field : String) (index : Nat) (entries : List (List UInt8)) :
    SucceedsIff (validateNoInteriorNulFrom field index entries) (∀ string ∈ entries, 0 ∉ string) () := by
  induction entries generalizing index with
  | nil => exact .inl ⟨List.forall_mem_nil _, rfl⟩
  | cons entry entries ih =>
      exact (SucceedsIff.bind (validateNoInteriorNul_succeedsIff field index entry) fun _ => ih (index + 1)).congr
        (by rw [List.forall_mem_cons])

theorem validateStackConfig_succeedsIff (config : InitialStackConfig) :
    SucceedsIff (validateStackConfig config) (ValidConfig config) () := by
  unfold validateStackConfig
  by_cases hsize : config.stackSize.val = 0
  · rw [if_pos hsize]
    exact .inr ⟨fun h => h.stackSize hsize, _, rfl⟩
  rw [if_neg hsize]
  have hplatform : SucceedsIff (if config.platform = [] then fail .emptyPlatform
      else validateNoInteriorNul "platform" 0 config.platform) (config.platform ≠ [] ∧ 0 ∉ config.platform) () := by
    by_cases hempty : config.platform = []
    · rw [if_pos hempty]
      exact .inr ⟨fun h => h.1 hempty, _, rfl⟩
    · rw [if_neg hempty]
      exact (validateNoInteriorNul_succeedsIff _ _ _).congr (and_iff_right hempty).symm
  exact SucceedsIff.congr (SucceedsIff.bind (validateNoInteriorNul_succeedsIff _ _ _) fun _ =>
    SucceedsIff.bind (validateNoInteriorNulFrom_succeedsIff _ _ _) fun _ =>
    SucceedsIff.bind (validateNoInteriorNulFrom_succeedsIff _ _ _) fun _ => hplatform)
    ⟨fun ⟨hexec, hargv, henvp, hplatform, hnul⟩ => ⟨hsize, hexec, hargv, henvp, hplatform, hnul⟩,
      fun h => ⟨h.executablePath, h.argv, h.envp, h.platform, h.platformNul⟩⟩

/-! ### Building -/

/-- There is room for the data under the top of the stack and for the vector under the data, each at an aligned
address. -/
def Fits (config : InitialStackConfig) : Prop :=
  ∃ stackPointer boundary : Nat, 16 ∣ stackPointer ∧ 16 ∣ boundary ∧
    config.stackTop.val ≤ stackPointer + config.stackSize.val ∧
    stackPointer + 8 * vectorLength config ≤ boundary ∧ boundary + dataSize config ≤ config.stackTop.val

def laidAuxv (plan : LoadPlan) (config : InitialStackConfig) : List AuxiliaryVectorEntry :=
  auxiliaryVector plan config ((plan.programHeadersVirtualAddress.getD 0).val + config.executableLoadBias.val)
    (plan.entrypoint.val + config.executableLoadBias.val) (laidData config)

def laidWords (plan : LoadPlan) (config : InitialStackConfig) : List Nat :=
  vectorWords (laidData config).argvAddresses (laidData config).envpAddresses (laidAuxv plan config)

def laidPointer (config : InitialStackConfig) : Nat :=
  alignDown (alignDown (laidData config).randomAddress initialStackAlignment - 8 * vectorLength config)
    initialStackAlignment

def laidStack (plan : LoadPlan) (config : InitialStackConfig) : InitialStack where
  stackTop := config.stackTop.val
  stackSize := config.stackSize.val
  stackPointer := laidPointer config
  bytes := (stackBlocks (laidPointer config) ((laidWords plan config).flatMap (toLittleEndian 8))
    (laidData config)).flatMap (·.content)
  argvAddresses := (laidData config).argvAddresses
  envpAddresses := (laidData config).envpAddresses
  executablePathAddress := (laidData config).executablePathAddress
  platformAddress := (laidData config).platformAddress
  randomAddress := (laidData config).randomAddress
  auxvEntries := laidAuxv plan config

theorem length_laidWords (plan : LoadPlan) (config : InitialStackConfig) :
    (laidWords plan config).length = vectorLength config := by
  have hauxv : ((laidAuxv plan config).flatMap fun entry => [entry.key, entry.value]).length = 38 := rfl
  rw [laidWords, vectorWords, List.length_cons, List.length_append, List.length_cons, List.length_append,
    List.length_cons, hauxv, laidData, List.length_map, List.length_map, length_layout, length_layout, vectorLength]
  omega

theorem fits_iff (config : InitialStackConfig) : Fits config ↔ dataSize config ≤ config.stackTop.val ∧
    8 * vectorLength config ≤ alignDown (laidData config).randomAddress initialStackAlignment ∧
    config.stackTop.val ≤ laidPointer config + config.stackSize.val := by
  have hrandom : (laidData config).randomAddress = config.stackTop.val - dataSize config := Nat.sub_sub _ _ _
  rw [laidPointer, hrandom]
  simp only [alignDown, initialStackAlignment]
  refine ⟨fun ⟨stackPointer, boundary, hpointer, hboundary, hbase, hvector, hdata⟩ => by omega, ?_⟩
  rintro ⟨hdata, hvector, hbase⟩
  refine ⟨_, (config.stackTop.val - dataSize config) / 16 * 16, Nat.dvd_mul_left 16 _, Nat.dvd_mul_left 16 _, hbase,
    by omega, by omega⟩

theorem okOr_succeedsIff (value : Option U64) (e : InitialStackError) :
    SucceedsIff (okOr value e) value.isSome (value.getD 0) := by
  cases value with
  | none => exact .inr ⟨nofun, e, rfl⟩
  | some value => exact .inl ⟨rfl, rfl⟩

theorem relocatedAddress_succeedsIff (address loadBias : U64) : SucceedsIff (relocatedAddress address loadBias)
    (address.val + loadBias.val < 2 ^ 64) (address.val + loadBias.val) := .of_if _

theorem length_laidArea (plan : LoadPlan) (config : InitialStackConfig) :
    ((laidWords plan config).flatMap (toLittleEndian 8)).length = 8 * vectorLength config := by
  rw [length_flatMap_toLittleEndian, length_laidWords]

theorem length_argvAddresses_lt {config : InitialStackConfig} (h : dataSize config ≤ config.stackTop.val) :
    (laidData config).argvAddresses.length < 2 ^ 64 := by
  have htop := config.stackTop.isLt
  have hlen := length_le_stringsSize config.argv
  have hsize := stringsSize_stackStrings config
  have hargv : (laidData config).argvAddresses.length = config.argv.length :=
    (List.length_map _).trans (length_layout _ _)
  unfold dataSize at h
  omega

theorem finishStack_succeedsIff {config : InitialStackConfig} (hdata : dataSize config ≤ config.stackTop.val)
    (auxvEntries : List AuxiliaryVectorEntry) {pointerArea : List UInt8}
    (harea : pointerArea.length = 8 * vectorLength config) :
    SucceedsIff (finishStack config (config.stackTop.val - config.stackSize.val) (laidData config) auxvEntries
      pointerArea)
      (8 * vectorLength config ≤ alignDown (laidData config).randomAddress initialStackAlignment ∧
        config.stackTop.val ≤ laidPointer config + config.stackSize.val)
      { stackTop := config.stackTop.val
        stackSize := config.stackSize.val
        stackPointer := laidPointer config
        bytes := (stackBlocks (laidPointer config) pointerArea (laidData config)).flatMap (·.content)
        argvAddresses := (laidData config).argvAddresses
        envpAddresses := (laidData config).envpAddresses
        executablePathAddress := (laidData config).executablePathAddress
        platformAddress := (laidData config).platformAddress
        randomAddress := (laidData config).randomAddress
        auxvEntries } := by
  have htop := config.stackTop.isLt
  have hcontiguous := contiguous_laidData hdata
  have hle := hcontiguous.le
  have hdown (n : Nat) : alignDown n initialStackAlignment ≤ n := Nat.div_mul_le_self n 16
  have hcursor := hdown (laidData config).randomAddress
  have hpointer := hdown (alignDown (laidData config).randomAddress initialStackAlignment - 8 * vectorLength config)
  rw [← laidPointer] at hpointer
  unfold finishStack
  dsimp only
  rw [harea]
  by_cases hlong : 2 ^ 64 ≤ 8 * vectorLength config
  · rw [if_pos hlong]
    exact .inr ⟨by omega, _, rfl⟩
  rw [if_neg hlong]
  refine SucceedsIff.bind (checkedSub_succeedsIff _ _ _) fun hvector => ?_
  rw [← laidPointer]
  by_cases hbase : laidPointer config < config.stackTop.val - config.stackSize.val
  · rw [if_pos hbase, subOrPanic, if_pos (by omega), ok_bind]
    exact .inr ⟨by omega, _, rfl⟩
  · rw [if_neg hbase, writeStack_eq hcontiguous htop (by omega), ok_bind]
    exact .inl ⟨by omega, rfl⟩

theorem buildInitialStack_succeedsIff (plan : LoadPlan) (config : InitialStackConfig) :
    SucceedsIff (buildInitialStack plan config) (Valid plan config ∧ Fits config) (laidStack plan config) := by
  refine SucceedsIff.congr (SucceedsIff.bind (validateStackConfig_succeedsIff config) fun _ =>
    SucceedsIff.bind (okOr_succeedsIff _ _) fun _ => SucceedsIff.bind (relocatedAddress_succeedsIff _ _) fun _ =>
    SucceedsIff.bind (relocatedAddress_succeedsIff _ _) fun _ =>
    SucceedsIff.bind (checkedSub_succeedsIff _ _ _) fun _ =>
    SucceedsIff.bind (placeData_succeedsIff config) fun hdata =>
    SucceedsIff.bind (P := True)
      (.inl ⟨True.intro, buildPointerArea_eq (length_argvAddresses_lt hdata) _ (laidAuxv plan config)⟩) fun _ =>
    finishStack_succeedsIff hdata _ (length_laidArea plan config)) ?_
  rw [fits_iff]
  constructor
  · rintro ⟨hvalid, hsome, hphdr, hentry, hrange, hdata, -, hfits⟩
    obtain ⟨address, haddress⟩ := Option.isSome_iff_exists.mp hsome
    rw [haddress] at hphdr
    exact ⟨⟨hvalid, ⟨address, haddress, hphdr⟩, hentry, hrange⟩, hdata, hfits⟩
  · rintro ⟨⟨hvalid, ⟨address, haddress, hphdr⟩, hentry, hrange⟩, hdata, hfits⟩
    rw [haddress]
    exact ⟨hvalid, rfl, hphdr, hentry, hrange, hdata, True.intro, hfits⟩

end Mcr.Elf
