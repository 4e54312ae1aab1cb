import Mcr.Lib.Blocks
import Mcr.Lib.LittleEndian

/-!
# The initial stack of a program

The strings of the arguments and the environment are placed from the top of the stack downward, and the vector of
words that leads to them is written upward from a stack pointer that is computed below them.
-/

namespace Mcr.Elf

abbrev U64 := Fin (2 ^ 64)

structure LoadPlan where
  entrypoint : U64
  programHeadersVirtualAddress : Option U64
  programHeadersEntrySize : Fin (2 ^ 16)
  programHeadersEntryCount : Fin (2 ^ 16)

structure AuxiliaryVectorEntry where
  key : Nat
  value : Nat
deriving DecidableEq, Repr

structure InitialStackConfig where
  stackTop : U64
  stackSize : U64
  executablePath : List UInt8
  argv : List (List UInt8)
  envp : List (List UInt8)
  randomBytes : { bytes : List UInt8 // bytes.length = 16 }
  executableLoadBias : U64
  interpreterBase : U64
  platform : List UInt8

structure InitialStack where
  stackTop : Nat
  stackSize : Nat
  stackPointer : Nat
  bytes : List UInt8
  argvAddresses : List Nat
  envpAddresses : List Nat
  executablePathAddress : Nat
  platformAddress : Nat
  randomAddress : Nat
  auxvEntries : List AuxiliaryVectorEntry

inductive InitialStackError
  | missingProgramHeaderAddress
  | invalidStackSize (stackSize : Nat)
  | stackRangeUnderflow (stackTop stackSize : Nat)
  | stackLayoutOverflow
  | stackDataExceedsStack (needed stackSize : Nat)
  | relocatedAddressOverflow (address loadBias : Nat)
  | interiorNul (field : String) (index : Nat)
  | emptyPlatform
deriving DecidableEq, Repr

/-- A call returns an error or panics. -/
inductive StackFailure
  | error (e : InitialStackError)
  | panic
deriving DecidableEq, Repr

abbrev Stacking := Except StackFailure

def fail {α : Type} (e : InitialStackError) : Stacking α := .error (.error e)

def okOr {α : Type} (value : Option α) (e : InitialStackError) : Stacking α :=
  match value with
  | some value => .ok value
  | none => fail e

/-- `checked_sub` of a `u64`, with the error for a value below zero. -/
def checkedSub (a b : Nat) (e : InitialStackError) : Stacking Nat := if b ≤ a then .ok (a - b) else fail e

/-! ### Constants -/

def pageSize : Nat := 4096
def atRandomBytes : Nat := 16
def initialStackAlignment : Nat := 16
def defaultClockTicksPerSecond : Nat := 100

def atNull : Nat := 0
def atPhdr : Nat := 3
def atPhent : Nat := 4
def atPhnum : Nat := 5
def atPagesz : Nat := 6
def atBase : Nat := 7
def atFlags : Nat := 8
def atEntry : Nat := 9
def atUid : Nat := 11
def atEuid : Nat := 12
def atGid : Nat := 13
def atEgid : Nat := 14
def atPlatform : Nat := 15
def atHwcap : Nat := 16
def atClktck : Nat := 17
def atSecure : Nat := 23
def atRandom : Nat := 25
def atHwcap2 : Nat := 26
def atExecfn : Nat := 31

/-! ### Checks -/

def validateNoInteriorNul (field : String) (index : Nat) (bytes : List UInt8) : Stacking Unit :=
  if 0 ∈ bytes then fail (.interiorNul field index) else .ok ()

def validateNoInteriorNulFrom (field : String) : Nat → List (List UInt8) → Stacking Unit
  | _, [] => .ok ()
  | index, entry :: entries => do
    validateNoInteriorNul field index entry
    validateNoInteriorNulFrom field (index + 1) entries

def validateNoInteriorNulEntries (field : String) (entries : List (List UInt8)) : Stacking Unit :=
  validateNoInteriorNulFrom field 0 entries

def validateStackConfig (config : InitialStackConfig) : Stacking Unit := do
  if config.stackSize.val = 0 then fail (.invalidStackSize config.stackSize.val)
  else do
    validateNoInteriorNul "executable_path" 0 config.executablePath
    validateNoInteriorNulEntries "argv" config.argv
    validateNoInteriorNulEntries "envp" config.envp
    if config.platform = [] then fail .emptyPlatform
    else validateNoInteriorNul "platform" 0 config.platform

def relocatedAddress (address loadBias : U64) : Stacking Nat :=
  if address.val + loadBias.val < 2 ^ 64 then .ok (address.val + loadBias.val)
  else fail (.relocatedAddressOverflow address.val loadBias.val)

/-! ### Placing strings -/

abbrev PlacedStackBytes := Block UInt8

/-- `&mut cursor` and `&mut placed`. -/
structure Placement where
  cursor : Nat
  placed : List PlacedStackBytes

def cString (bytes : List UInt8) : List UInt8 := bytes ++ [0]

def placeCString (p : Placement) (bytes : List UInt8) : Stacking (Nat × Placement) :=
  if 2 ^ 64 ≤ bytes.length + 1 then fail .stackLayoutOverflow
  else do
    let cursor ← checkedSub p.cursor (bytes.length + 1) .stackLayoutOverflow
    pure (cursor, ⟨cursor, p.placed ++ [⟨cursor, cString bytes⟩]⟩)

def placeCStrings (p : Placement) (strings : List (List UInt8)) : Stacking (List Nat × Placement) := do
  let (addresses, p) ← strings.reverse.foldlM (fun (addresses, p) string => do
    let (address, p) ← placeCString p string
    pure (addresses ++ [address], p)) (([] : List Nat), p)
  pure (addresses.reverse, p)

/-! ### The vector -/

def pushU64 (bytes : List UInt8) (value : Nat) : List UInt8 := bytes ++ toLittleEndian 8 value

def buildPointerArea (argvAddresses envpAddresses : List Nat) (auxvEntries : List AuxiliaryVectorEntry) :
    Stacking (List UInt8) :=
  if 2 ^ 64 ≤ argvAddresses.length then fail .stackLayoutOverflow
  else
    let bytes := pushU64 [] argvAddresses.length
    let bytes := argvAddresses.foldl pushU64 bytes
    let bytes := pushU64 bytes 0
    let bytes := envpAddresses.foldl pushU64 bytes
    let bytes := pushU64 bytes 0
    .ok (auxvEntries.foldl (fun bytes entry => pushU64 (pushU64 bytes entry.key) entry.value) bytes)

def alignDown (value alignment : Nat) : Nat := value / alignment * alignment

/-- A subtraction that panics below zero. -/
def subOrPanic (a b : Nat) : Stacking Nat := if b ≤ a then .ok (a - b) else .error .panic

def copyFromSlice (bytes : List UInt8) (offset stop : Nat) (source : List UInt8) : Stacking (List UInt8) :=
  if offset ≤ stop ∧ stop ≤ bytes.length ∧ source.length = stop - offset then .ok (overwrite bytes offset source)
  else .error .panic

def copyPlaced (stackPointer : Nat) (bytes : List UInt8) (item : PlacedStackBytes) : Stacking (List UInt8) := do
  let offset ← subOrPanic item.address stackPointer
  if 2 ^ 64 ≤ offset + item.content.length then fail .stackLayoutOverflow
  else copyFromSlice bytes offset (offset + item.content.length) item.content

/-- The loop that copies, over a stack of zeros that begins with the vector. -/
def writeStack (stackTop stackPointer : Nat) (pointerArea : List UInt8) (placed : List PlacedStackBytes) :
    Stacking (List UInt8) := do
  let usedLen ← subOrPanic stackTop stackPointer
  let bytes := List.replicate usedLen 0
  let bytes ← copyFromSlice bytes 0 pointerArea.length pointerArea
  placed.foldlM (copyPlaced stackPointer) bytes

/-- What the placements leave for the vector. -/
structure PlacedData where
  executablePathAddress : Nat
  platformAddress : Nat
  envpAddresses : List Nat
  argvAddresses : List Nat
  randomAddress : Nat
  placed : List PlacedStackBytes

def placeData (config : InitialStackConfig) : Stacking PlacedData := do
  let (executablePathAddress, p) ← placeCString ⟨config.stackTop.val, []⟩ config.executablePath
  let (platformAddress, p) ← placeCString p config.platform
  let (envpAddresses, p) ← placeCStrings p config.envp
  let (argvAddresses, p) ← placeCStrings p config.argv
  let randomAddress ← checkedSub p.cursor atRandomBytes .stackLayoutOverflow
  let placed := p.placed ++ [⟨randomAddress, config.randomBytes.val⟩]
  pure { executablePathAddress, platformAddress, envpAddresses, argvAddresses, randomAddress, placed }

def auxiliaryVector (plan : LoadPlan) (config : InitialStackConfig) (phdrAddress entrypoint : Nat)
    (data : PlacedData) : List AuxiliaryVectorEntry :=
  [⟨atPhdr, phdrAddress⟩, ⟨atPhent, plan.programHeadersEntrySize.val⟩, ⟨atPhnum, plan.programHeadersEntryCount.val⟩,
    ⟨atPagesz, pageSize⟩, ⟨atBase, config.interpreterBase.val⟩, ⟨atFlags, 0⟩, ⟨atEntry, entrypoint⟩, ⟨atUid, 0⟩,
    ⟨atEuid, 0⟩, ⟨atGid, 0⟩, ⟨atEgid, 0⟩, ⟨atHwcap, 0⟩, ⟨atClktck, defaultClockTicksPerSecond⟩, ⟨atSecure, 0⟩,
    ⟨atRandom, data.randomAddress⟩, ⟨atHwcap2, 0⟩, ⟨atExecfn, data.executablePathAddress⟩,
    ⟨atPlatform, data.platformAddress⟩, ⟨atNull, 0⟩]

/-- What follows once the vector is known: its place, and the bytes from there to the top. -/
def finishStack (config : InitialStackConfig) (stackBase : Nat) (data : PlacedData)
    (auxvEntries : List AuxiliaryVectorEntry) (pointerArea : List UInt8) : Stacking InitialStack :=
  let stackTop := config.stackTop.val
  let cursor := alignDown data.randomAddress initialStackAlignment
  if 2 ^ 64 ≤ pointerArea.length then fail .stackLayoutOverflow
  else do
    let below ← checkedSub cursor pointerArea.length .stackLayoutOverflow
    let stackPointer := alignDown below initialStackAlignment
    if stackPointer < stackBase then do
      let needed ← subOrPanic stackTop stackPointer
      fail (.stackDataExceedsStack needed config.stackSize.val)
    else do
      let bytes ← writeStack stackTop stackPointer pointerArea data.placed
      pure {
        stackTop
        stackSize := config.stackSize.val
        stackPointer
        bytes
        argvAddresses := data.argvAddresses
        envpAddresses := data.envpAddresses
        executablePathAddress := data.executablePathAddress
        platformAddress := data.platformAddress
        randomAddress := data.randomAddress
        auxvEntries }

def buildInitialStack (plan : LoadPlan) (config : InitialStackConfig) : Stacking InitialStack := do
  validateStackConfig config
  let phdrVirtualAddress ← okOr plan.programHeadersVirtualAddress .missingProgramHeaderAddress
  let phdrAddress ← relocatedAddress phdrVirtualAddress config.executableLoadBias
  let entrypoint ← relocatedAddress plan.entrypoint config.executableLoadBias
  let stackTop := config.stackTop.val
  let stackBase ← checkedSub stackTop config.stackSize.val (.stackRangeUnderflow stackTop config.stackSize.val)
  let data ← placeData config
  let auxvEntries := auxiliaryVector plan config phdrAddress entrypoint data
  let pointerArea ← buildPointerArea data.argvAddresses data.envpAddresses auxvEntries
  finishStack config stackBase data auxvEntries pointerArea

end Mcr.Elf
