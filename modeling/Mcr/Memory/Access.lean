import Mcr.Memory.Mapping

/-!
# Reading, writing and patching guest memory
-/

namespace Mcr.Memory

variable (ctx : Context)

inductive AccessKind
  | read
  | write
deriving DecidableEq, Repr

def AccessKind.check (access : AccessKind) (protection : GuestMemoryProtection) :
    Except GuestMemoryError Unit :=
  match access with
  | .read => if protection.read then .ok () else .error .accessDenied
  | .write => if protection.write then .ok () else .error .accessDenied

/-- `vma_containing(..).cloned().ok_or(NotMapped)`. -/
def vmaAt (address : Nat) : MemM GuestVma := do
  let memory ← getMem
  match memory.vmaContaining address with
  | none => fail .notMapped
  | some vma => pure vma

def guestSliceOffset (vma : GuestVma) (address : Nat) : Nat := vma.allocationOffset + (address - vma.start)

/-! ### Reading -/

/-- The bytes `[offset, offset + len)` of the host memory behind a VMA's allocation. -/
def allocationBytes (allocationId offset len : Nat) : MemM (List UInt8) := do
  let allocation ← expectAllocation allocationId
  let bytes ← sliceBytes allocation.memory offset (offset + len)
  pure bytes.toList

/-- The loop of `copy_guest`; every round copies at least one byte, so `fuel` bytes need `fuel` rounds. -/
def copyGuestLoop (access : AccessKind) (stop : Nat) : Nat → Nat → List UInt8 → MemM (List UInt8)
  | 0, _, copied => pure copied
  | fuel + 1, cursor, copied => do
    if cursor < stop then
      let vma ← vmaAt cursor
      check (access.check vma.protection)
      let chunkLen := min vma.stop stop - cursor
      let chunk ← allocationBytes vma.allocationId (guestSliceOffset vma cursor) chunkLen
      copyGuestLoop access stop fuel (cursor + chunkLen) (copied ++ chunk)
    else pure copied

def copyGuest (address len : Nat) (access : AccessKind) : MemM (List UInt8) := do
  let stop ← check (checkedRawRange address len)
  copyGuestLoop access stop len address []

def read (address len : Nat) : MemM (List UInt8) := copyGuest address len .read

def guestSlice (address len : Nat) (access : AccessKind) : MemM (Option (List UInt8)) := do
  let stop ← check (checkedRawRange address len)
  if len = 0 then pure (some [])
  else
    let vma ← vmaAt address
    check (access.check vma.protection)
    if stop > vma.stop then pure none
    else
      let bytes ← allocationBytes vma.allocationId (guestSliceOffset vma address) len
      pure (some bytes)

def slice (address len : Nat) : MemM (Option (List UInt8)) := guestSlice address len .read

/-- The loop of `read_c_string_bytes`; every round takes at least one byte. -/
def readCStringLoop (maxLen : Nat) : Nat → Nat → List UInt8 → MemM (List UInt8)
  | 0, _, _ => fail .invalidLength
  | fuel + 1, cursor, bytes => do
    if bytes.length < maxLen then
      let vma ← vmaAt cursor
      check (AccessKind.read.check vma.protection)
      let chunkLen := min (vma.stop - cursor) (maxLen - bytes.length)
      if chunkLen = 0 then fail .invalidLength
      else
        match ← guestSlice cursor chunkLen .read with
        | none => abort
        | some chunk =>
          match chunk.findIdx? (· = 0) with
          | some nul => pure (bytes ++ chunk.take nul)
          | none =>
            let cursor ← check (checkedRawRange cursor chunkLen)
            readCStringLoop maxLen fuel cursor (bytes ++ chunk)
    else fail .invalidLength

def readCStringBytes (address maxLen : Nat) : MemM (List UInt8) :=
  readCStringLoop maxLen (maxLen + 1) address []

/-! ### Writing -/

/-- `record_executable_write`: the counter wraps. -/
def recordExecutableWrite : MemM Unit :=
  modifyMem fun m => { m with executableWriteGeneration := (m.executableWriteGeneration + 1) % u64Limit }

/-- The loop of `write_guest` over the bytes still to copy; it reports whether a copied chunk was
executable. Every round copies at least one byte. -/
def writeGuestLoop (stop : Nat) : Nat → Nat → List UInt8 → Bool → MemM Bool
  | 0, _, _, touched => pure touched
  | fuel + 1, cursor, bytes, touched => do
    if cursor < stop then
      let vma ← vmaAt cursor
      check (AccessKind.write.check vma.protection)
      ensureGuestPageRangeUnique ctx cursor (min vma.stop stop)
      let vma ← vmaAt cursor
      let chunkLen := min vma.stop stop - cursor
      let offset := guestSliceOffset vma cursor
      let arc ← allocationMemoryMut ctx vma.allocationId
      copyInto arc offset (offset + chunkLen) (.ofList (bytes.take chunkLen))
      if vma.protection.execute then
        let allocation ← expectAllocation vma.allocationId
        flushInstructionCacheRange allocation.memory offset chunkLen
        writeGuestLoop stop fuel (cursor + chunkLen) (bytes.drop chunkLen) true
      else writeGuestLoop stop fuel (cursor + chunkLen) (bytes.drop chunkLen) touched
    else pure touched

def writeGuest (address : Nat) (bytes : List UInt8) : MemM Unit := do
  let stop ← check (checkedRawRange address bytes.length)
  let touched ← writeGuestLoop ctx stop bytes.length address bytes false
  Prog.when touched recordExecutableWrite

def write (address : Nat) (bytes : List UInt8) : MemM Unit := writeGuest ctx address bytes

/-- The place a mutable slice points to: a host memory and the bytes of it lent out. -/
structure BorrowedSlice where
  arc : ArcId
  offset : Nat
  len : Nat

/-- The allocation half of `slice_mut`: `none` when the range leaves the first VMA. -/
def sliceMutPlace (address len : Nat) : MemM (Option BorrowedSlice) := do
  let stop ← check (checkedRawRange address len)
  if len = 0 then pure (some ⟨0, 0, 0⟩)
  else
    let vma ← vmaAt address
    check (AccessKind.write.check vma.protection)
    if stop > vma.stop then pure none
    else
      let memory ← getMem
      Prog.when (memory.rangeOverlapsExecutable address stop) recordExecutableWrite
      ensureGuestPageRangeUnique ctx address stop
      let vma ← vmaAt address
      let offset := guestSliceOffset vma address
      let arc ← allocationMemoryMut ctx vma.allocationId
      let s ← Prog.get
      if offset + len ≤ (s.heap.object arc).len then pure (some ⟨arc, offset, len⟩) else abort

/-- `slice_mut` followed by what its caller does with the slice: `update` maps the bytes lent out to
the bytes left there. The result is what the slice showed. -/
def sliceMut (address len : Nat) (update : List UInt8 → List UInt8) : MemM (Option (List UInt8)) := do
  match ← sliceMutPlace ctx address len with
  | none => pure none
  | some place =>
    if place.len = 0 then pure (some [])
    else
      let bytes ← sliceBytes place.arc place.offset (place.offset + place.len)
      let updated := (update bytes.toList).take place.len
      copyInto place.arc place.offset (place.offset + updated.length) (.ofList updated)
      pure (some bytes.toList)

def patchCode (address : Nat) (bytes : List UInt8) : MemM (List UInt8) := do
  let stop ← check (checkedRawRange address bytes.length)
  let vma ← vmaAt address
  if stop > vma.stop then fail .invalidLength
  else
    ensureGuestPageRangeUnique ctx address stop
    let vma ← vmaAt address
    let memory ← getMem
    let ranges := memory.allocationProtectionRanges vma.allocationId
    let allocation ← expectAllocation vma.allocationId
    protect allocation.memory
    let offset := guestSliceOffset vma address
    let old ← sliceBytes allocation.memory offset (offset + bytes.length)
    let arc ← allocationMemoryMut ctx vma.allocationId
    copyInto arc offset (offset + bytes.length) (.ofList bytes)
    let allocation ← expectAllocation vma.allocationId
    applyAllocationProtections allocation.memory ranges
    flushInstructionCacheRange allocation.memory offset bytes.length
    pure old.toList

/-- The check every patch passes before anything is planned, and again when it is. -/
def patchTarget (address n : Nat) : MemM GuestVma := do
  let stop ← check (checkedRawRange address n)
  let vma ← vmaAt address
  if stop > vma.stop then fail .invalidLength else pure vma

structure PlannedPatch where
  allocationId : Nat
  allocationOffset : Nat
  bytes : List UInt8

def applyPatches (n allocationId : Nat) (patches : List PlannedPatch) : MemM Unit := do
  let memory ← getMem
  let ranges := memory.allocationProtectionRanges allocationId
  let allocation ← expectAllocation allocationId
  protect allocation.memory
  .forEach patches fun patch => do
    let arc ← allocationMemoryMut ctx allocationId
    copyInto arc patch.allocationOffset (patch.allocationOffset + n) (.ofList patch.bytes)
  let allocation ← expectAllocation allocationId
  applyAllocationProtections allocation.memory ranges
  .forEach patches fun patch => flushInstructionCacheRange allocation.memory patch.allocationOffset n

/-- The first pass of `patch_code_fixed`: every patch is checked and its target made unique. -/
def makePatchTargetsUnique (n : Nat) (addresses : List Nat) : MemM Unit := do
  let memory ← getMem
  if memory.hostAddressMode = .fixedGuest then
    let targets ← Prog.collect addresses fun address => patchTarget address n
    .forEach (idSet (targets.map (·.allocationId))) fun id => ensureAllocationUnique ctx id
  else
    .forEach addresses fun address => do
      let _ ← patchTarget address n
      ensureGuestPageRangeUnique ctx address (address + n)

/-- `patch_code_fixed::<N>`: every patch is `n` bytes long. -/
def patchCodeFixed (n : Nat) (patches : List (Nat × Vector UInt8 n)) : MemM Unit := do
  makePatchTargetsUnique ctx n (patches.map Prod.fst)
  let planned ← Prog.collect patches fun patch => do
    let vma ← patchTarget patch.1 n
    pure (⟨vma.allocationId, guestSliceOffset vma patch.1, patch.2.toList⟩ : PlannedPatch)
  .forEach (idSet (planned.map (·.allocationId))) fun id =>
    applyPatches ctx n id (planned.filter (fun patch => decide (patch.allocationId = id)))

/-! ### Intrinsics -/

def intrinsicMemset (address : Nat) (value : UInt8) (len : Nat) : MemM Unit := do
  let _ ← check (checkedRawRange address len)
  writeGuest ctx address (List.replicate len value)

def intrinsicMemmove (destination source len : Nat) : MemM Unit := do
  let bytes ← copyGuest source len .read
  writeGuest ctx destination bytes

end Mcr.Memory
