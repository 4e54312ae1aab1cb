import Mcr.Memory.State

/-!
# Host memory: allocation, protection, copy-on-write

The functions that reach through an allocation to its host memory, and those that give a guest memory
a host memory of its own before it is changed.
-/

namespace Mcr.Memory

variable (ctx : Context)

/-! ### Table updates that cannot fail -/

namespace GuestMemory

variable (memory : GuestMemory)

def splitVmaAt (address : Nat) : GuestMemory :=
  match memory.vmaContaining address with
  | none => memory
  | some vma =>
    if address = vma.start ∨ address = vma.stop then memory
    else
      let left := { vma with stop := address }
      let right :=
        { vma with start := address, allocationOffset := vma.allocationOffset + (address - left.start) }
      { memory with vmas := ((memory.vmas.erase vma.start).insert left.start left).insert right.start right }

def dropUnreferencedAllocations : GuestMemory :=
  { memory with allocations := memory.allocations.filter fun id _ =>
      memory.vmas.values.any (fun vma => decide (vma.allocationId = id)) }

def removeKeys (keys : List Nat) : GuestMemory :=
  { memory with vmas := keys.foldl (fun vmas key => vmas.erase key) memory.vmas }

def unmapRange (start stop : Nat) : GuestMemory :=
  let memory := (memory.splitVmaAt start).splitVmaAt stop
  (memory.removeKeys (memory.vmas.keysIn start stop)).dropUnreferencedAllocations

/-- One round of the loop of `coalesce_adjacent`. -/
def coalesceStep (merged : SortedMap Nat GuestVma) (vma : GuestVma) : SortedMap Nat GuestVma :=
  match merged.last? with
  | some (key, previous) =>
    if canMerge previous vma then merged.insert key { previous with stop := vma.stop }
    else merged.insert vma.start vma
  | none => merged.insert vma.start vma

def coalesceAdjacent : GuestMemory :=
  { memory with vmas := memory.vmas.values.foldl coalesceStep .empty }

end GuestMemory

/-! ### Host memory -/

/-- `HostMemory::allocate` and `allocate_at`; a granted allocation is zero filled. -/
def allocateHostMemory (site : AllocSite) (len : Nat) : MemM ArcId := do
  let s ← Prog.get
  if len = 0 then fail (.host (.invalidInput .allocateMemory))
  else
    .modify fun s => { s with heap := { s.heap with calls := s.heap.calls + 1 } }
    match ctx.refusal s.heap.calls site with
    | some error => fail (.host error)
    | none =>
      .modify fun s => { s with heap := { s.heap.set s.heap.next (.zeros len) with next := s.heap.next + 1 } }
      pure s.heap.next

/-- `allocate_guest_host_memory_at`: in the fixed mode address zero is refused by the adapter. -/
def allocateGuestHostMemoryAt (site : AllocSite) (start len : Nat) (mode : HostAddressMode) : MemM ArcId :=
  if mode = .fixedGuest ∧ start = 0 then fail (.host (.invalidInput .allocateMemory))
  else allocateHostMemory ctx site len

/-- `HostMemory::protect_range`, whose argument check is the program's own. -/
def protectRange (arc : ArcId) (offset len : Nat) : MemM Unit := do
  let s ← Prog.get
  if len = 0 ∨ offset + len > (s.heap.object arc).len then fail (.host (.invalidInput .protectMemory))
  else pure ()

/-- `HostMemory::protect`. -/
def protect (arc : ArcId) : MemM Unit := do
  let s ← Prog.get
  protectRange arc 0 (s.heap.object arc).len

def flushInstructionCacheRange (arc : ArcId) (offset len : Nat) : MemM Unit := do
  let s ← Prog.get
  if len = 0 ∨ offset + len > (s.heap.object arc).len then
    fail (.host (.invalidInput .flushInstructionCache))
  else pure ()

def applyAllocationProtections (arc : ArcId) (ranges : List AllocationProtectionRange) : MemM Unit :=
  .forEach ranges fun range => protectRange arc range.offset range.len

def sliceBytes (arc : ArcId) (start stop : Nat) : MemM ByteBuf := do
  let s ← Prog.get
  if start ≤ stop ∧ stop ≤ (s.heap.object arc).len then
    pure ((s.heap.object arc).extract start (stop - start))
  else abort

/-- `memory.as_mut_slice()[start..stop].copy_from_slice(bytes)`. -/
def copyInto (arc : ArcId) (start stop : Nat) (bytes : ByteBuf) : MemM Unit := do
  let s ← Prog.get
  if start ≤ stop ∧ stop ≤ (s.heap.object arc).len ∧ bytes.len = stop - start then
    .modify fun s => { s with heap := s.heap.set arc ((s.heap.object arc).blit start bytes) }
  else abort

/-- `memory.as_mut_slice()[start..stop].fill(0)`. -/
def zeroFill (arc : ArcId) (start stop : Nat) : MemM Unit := do
  let s ← Prog.get
  if start ≤ stop ∧ stop ≤ (s.heap.object arc).len then
    .modify fun s => { s with heap := s.heap.set arc ((s.heap.object arc).fill start (stop - start) 0) }
  else abort

/-- The bytes read between `AllocationProtectionGuard::new` and its `restore`. -/
def guardedBytes (arc : ArcId) (ranges : List AllocationProtectionRange) (start stop : Nat) :
    MemM ByteBuf := do
  protect arc
  let bytes ← sliceBytes arc start stop
  applyAllocationProtections arc ranges
  pure bytes

/-! ### A host memory of its own -/

def expectAllocation (allocationId : Nat) : MemM GuestAllocation := do
  let memory ← getMem
  match memory.allocations.get? allocationId with
  | some allocation => pure allocation
  | none => abort

def setAllocation (allocationId : Nat) (allocation : GuestAllocation) : MemM Unit :=
  modifyMem fun m => { m with allocations := m.allocations.insert allocationId allocation }

def insertAllocation (guestStart : Nat) (arc : ArcId) : MemM Nat := do
  let memory ← getMem
  match checkedAdd memory.nextAllocationId 1 with
  | none => fail .outOfMemory
  | some next =>
    modifyMem fun m => { m with nextAllocationId := next }
    setAllocation memory.nextAllocationId ⟨guestStart, arc⟩
    pure memory.nextAllocationId

def ensureAllocationUnique (allocationId : Nat) : MemM Unit := do
  let memory ← getMem
  match memory.allocations.get? allocationId with
  | none => fail .notMapped
  | some allocation =>
    if strongCount ctx memory allocation.memory = 1 then pure ()
    else
      let s ← Prog.get
      let len := (s.heap.object allocation.memory).len
      let ranges := memory.allocationProtectionRanges allocationId
      let bytes ← guardedBytes allocation.memory ranges 0 len
      let arc ← allocateGuestHostMemoryAt ctx .unique allocation.guestStart len memory.hostAddressMode
      copyInto arc 0 len bytes
      applyAllocationProtections arc ranges
      setAllocation allocationId { allocation with memory := arc }

/-- `allocation_memory_mut`: the host memory behind an allocation, held by nobody else. -/
def allocationMemoryMut (allocationId : Nat) : MemM ArcId := do
  ensureAllocationUnique ctx allocationId
  let allocation ← expectAllocation allocationId
  let memory ← getMem
  -- `Arc::get_mut`
  if strongCount ctx memory allocation.memory = 1 then pure allocation.memory else fail .accessDenied

def detachSharedVma (vma : GuestVma) : MemM Unit := do
  let memory ← getMem
  match memory.allocations.get? vma.allocationId with
  | none => fail .notMapped
  | some allocation =>
    if strongCount ctx memory allocation.memory = 1 then pure ()
    else
      let ranges := memory.allocationProtectionRanges vma.allocationId
      let bytes ← guardedBytes allocation.memory ranges vma.allocationOffset (vma.allocationOffset + vma.len)
      let arc ← allocateGuestHostMemoryAt ctx .detach vma.start vma.len memory.hostAddressMode
      copyInto arc 0 vma.len bytes
      protect arc
      let allocationId ← insertAllocation vma.start arc
      let memory ← getMem
      match memory.vmas.get? vma.start with
      | none => fail .notMapped
      | some detached =>
        modifyMem fun m =>
          { m with vmas := m.vmas.insert vma.start { detached with allocationId, allocationOffset := 0 } }

/-- A `BTreeSet` of ids, in order. -/
def idSet (ids : List Nat) : List Nat := (ids.foldl (fun m id => m.insert id ()) (.empty : SortedMap Nat Unit)).keys

def ensureGuestRangeUnique (start stop : Nat) : MemM Unit := do
  if start ≥ stop then pure ()
  else
    let memory ← getMem
    if memory.hostAddressMode = .fixedGuest then
      .forEach (idSet ((memory.vmas.values.filter (·.overlaps start stop)).map (·.allocationId)))
        fun id => ensureAllocationUnique ctx id
    else
      modifyMem fun m => (m.splitVmaAt start).splitVmaAt stop
      let memory ← getMem
      .forEach (memory.vmas.keysIn start stop) fun key => do
        let memory ← getMem
        match memory.vmas.get? key with
        | none => fail .notMapped
        | some vma => detachSharedVma ctx vma
      modifyMem (·.dropUnreferencedAllocations)

def ensureGuestPageRangeUnique (start stop : Nat) : MemM Unit := do
  if start ≥ stop then pure ()
  else
    let pageEnd ← check (alignUpTo stop guestPageSize)
    ensureGuestRangeUnique ctx (alignDownTo start guestPageSize) pageEnd

/-! ### Finding or making room for a mapping -/

def hostAllocationRange (start length : Nat) : Except GuestMemoryError (Nat × Nat) := do
  let granularity := ctx.platform.allocationGranularity
  let stop ← checkedRawRange start length
  let guestStart := alignDownTo start granularity
  let guestEnd ← alignUpTo stop granularity
  pure (guestStart, guestEnd - guestStart)

structure SavedAllocation where
  allocationId : Nat
  guestStart : Nat
  bytes : ByteBuf
  ranges : List AllocationProtectionRange

def restoreSavedAllocations (saved : List SavedAllocation) : MemM Unit :=
  .forEach saved fun allocation => do
    let memory ← getMem
    let arc ← allocateGuestHostMemoryAt ctx .restore allocation.guestStart allocation.bytes.len
      memory.hostAddressMode
    copyInto arc 0 allocation.bytes.len allocation.bytes
    applyAllocationProtections arc allocation.ranges
    setAllocation allocation.allocationId ⟨allocation.guestStart, arc⟩

def saveAllocation (allocationId : Nat) : MemM SavedAllocation := do
  let memory ← getMem
  let ranges := memory.allocationProtectionRanges allocationId
  let allocation ← expectAllocation allocationId
  let s ← Prog.get
  let bytes ← guardedBytes allocation.memory ranges 0 (s.heap.object allocation.memory).len
  pure ⟨allocationId, allocation.guestStart, bytes, ranges⟩

def replaceOverlappingAllocations (requestedStart guestStart guestEnd : Nat) (allocationIds : List Nat) :
    MemM (Nat × Nat) := do
  let saved ← Prog.collect allocationIds saveAllocation
  let memory ← getMem
  let replacementRanges : List AllocationProtectionRange :=
    (memory.vmas.values.filter (fun vma => decide (vma.allocationId ∈ allocationIds))).map
      (fun vma => ⟨vma.start - guestStart, vma.len, vma.protection⟩)
  modifyMem fun m =>
    { m with allocations := m.allocations.filter fun id _ => decide (id ∉ allocationIds) }
  if guestEnd < guestStart then fail .invalidAddress
  else
    let arc ← Prog.tryCatch
      (allocateGuestHostMemoryAt ctx .replacement guestStart (guestEnd - guestStart) memory.hostAddressMode)
      fun error => do
        restoreSavedAllocations ctx saved
        .throw error
    .forEach saved fun allocation =>
      copyInto arc (allocation.guestStart - guestStart)
        (allocation.guestStart - guestStart + allocation.bytes.len) allocation.bytes
    let allocationId ← insertAllocation guestStart arc
    .tryCatch (applyAllocationProtections arc replacementRanges) fun error => do
      modifyMem fun m => { m with allocations := m.allocations.erase allocationId }
      restoreSavedAllocations ctx saved
      .throw error
    modifyMem fun m =>
      { m with vmas := m.vmas.mapValues fun _ vma =>
          if vma.allocationId ∈ allocationIds then
            { vma with allocationId := allocationId, allocationOffset := vma.start - guestStart }
          else vma }
    pure (allocationId, requestedStart - guestStart)

/-- The first allocation, by id, whose guest range has room for the mapping. -/
def GuestMemory.findContaining (memory : GuestMemory) (heap : HostHeap) (start stop : Nat) :
    Option (Nat × GuestAllocation) :=
  memory.allocations.entries.find? (fun e => e.2.containsGuestRange heap start stop)

def widenOver (heap : HostHeap) : List GuestAllocation → Nat × Nat → Nat × Nat
  | [], range => range
  | a :: rest, (guestStart, guestEnd) =>
    widenOver heap rest (min guestStart a.guestStart, max guestEnd (a.guestEnd heap))

def ensureHostAllocation (start length : Nat) : MemM (Nat × Nat) := do
  let stop ← check (checkedRawRange start length)
  let s ← Prog.get
  match s.mem.findContaining s.heap start stop with
  | some (allocationId, allocation) => pure (allocationId, start - allocation.guestStart)
  | none =>
    let (guestStart, allocationLength) ← check (hostAllocationRange ctx start length)
    let guestEnd ← check (checkedRawRange guestStart allocationLength)
    let overlapping := s.mem.allocations.entries.filter
      (fun e => e.2.overlapsGuestRange s.heap guestStart guestEnd)
    let (wideStart, wideEnd) := widenOver s.heap (overlapping.map Prod.snd) (guestStart, guestEnd)
    if overlapping ≠ [] then
      replaceOverlappingAllocations ctx start wideStart wideEnd (overlapping.map Prod.fst)
    else if start < wideStart then fail .invalidAddress
    else if wideEnd < wideStart then fail .invalidAddress
    else
      let arc ← allocateGuestHostMemoryAt ctx .fresh wideStart (wideEnd - wideStart) s.mem.hostAddressMode
      let allocationId ← insertAllocation wideStart arc
      pure (allocationId, start - wideStart)

def zeroAllocationRange (allocationId allocationOffset len : Nat) : MemM Unit := do
  let stop := allocationOffset + len
  let memory ← getMem
  let ranges := memory.allocationProtectionRanges allocationId
  ensureAllocationUnique ctx allocationId
  let allocation ← expectAllocation allocationId
  protect allocation.memory
  let arc ← allocationMemoryMut ctx allocationId
  zeroFill arc allocationOffset stop
  let allocation ← expectAllocation allocationId
  applyAllocationProtections allocation.memory ranges

end Mcr.Memory
