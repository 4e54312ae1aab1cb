import Mcr.Memory.Alloc

/-!
# Mapping, unmapping, protecting, and the program break
-/

namespace Mcr.Memory

variable (ctx : Context)

structure MmapSyscallArgs where
  addr : Nat
  length : Nat
  prot : UInt32
  flags : UInt32
  fd : Int
  offset : Int
deriving DecidableEq, Repr

def linuxMapShared : UInt32 := 0x01
def linuxMapPrivate : UInt32 := 0x02
def linuxMapFixed : UInt32 := 0x10
def linuxMapAnonymous : UInt32 := 0x20
def linuxMap32bit : UInt32 := 0x40
def linuxMapGrowsdown : UInt32 := 0x0100
def linuxMapDenywrite : UInt32 := 0x0800
def linuxMapExecutable : UInt32 := 0x1000
def linuxMapLocked : UInt32 := 0x2000
def linuxMapNoreserve : UInt32 := 0x4000
def linuxMapPopulate : UInt32 := 0x8000
def linuxMapNonblock : UInt32 := 0x10000
def linuxMapStack : UInt32 := 0x20000
def linuxMapHugetlb : UInt32 := 0x40000
def linuxMapSync : UInt32 := 0x80000
def linuxMapFixedNoreplace : UInt32 := 0x100000
def linuxMapTypeMask : UInt32 := linuxMapShared ||| linuxMapPrivate
def linuxMapValidMask : UInt32 :=
  linuxMapShared ||| linuxMapPrivate ||| linuxMapFixed ||| linuxMapAnonymous ||| linuxMap32bit |||
    linuxMapGrowsdown ||| linuxMapDenywrite ||| linuxMapExecutable ||| linuxMapLocked |||
    linuxMapNoreserve ||| linuxMapPopulate ||| linuxMapNonblock ||| linuxMapStack |||
    linuxMapHugetlb ||| linuxMapSync ||| linuxMapFixedNoreplace

namespace MmapSyscallArgs

variable (args : MmapSyscallArgs)

def isAnonymous : Bool := args.flags &&& linuxMapAnonymous ≠ 0
def isFixed : Bool := args.flags &&& linuxMapFixed ≠ 0
def isFixedNoreplace : Bool := args.flags &&& linuxMapFixedNoreplace ≠ 0

end MmapSyscallArgs

def mmapKind (args : MmapSyscallArgs) : Except GuestMemoryError GuestVmaKind :=
  if args.flags &&& ~~~linuxMapValidMask ≠ 0 ||
      args.flags &&& (linuxMapHugetlb ||| linuxMapSync) ≠ 0 then .error .invalidFlags
  else
    let mapType := args.flags &&& linuxMapTypeMask
    if mapType ≠ linuxMapPrivate && mapType ≠ linuxMapShared then .error .invalidFlags
    else if args.isAnonymous then
      if args.offset ≠ 0 then .error .invalidOffset else .ok .anonymous
    else if args.fd < 0 then .error .badFileDescriptor
    else if args.offset < 0 || !isPageAligned args.offset.toNat then .error .invalidOffset
    else .ok (.fileBacked args.fd args.offset (args.flags &&& linuxMapShared ≠ 0))

/-! ### Placement -/

/-- The scan of `find_free_range` over the VMAs in address order. -/
def findFreeFrom (length addressSpaceEnd : Nat) :
    Nat → List GuestVma → Except GuestMemoryError Nat
  | candidate, [] => do
    let _ ← checkedMappingEnd candidate length addressSpaceEnd
    pure candidate
  | candidate, vma :: rest => do
    let stop ← checkedMappingEnd candidate length addressSpaceEnd
    if stop ≤ vma.start then pure candidate
    else if candidate < vma.stop then
      let candidate ← alignUp vma.stop
      findFreeFrom length addressSpaceEnd candidate rest
    else findFreeFrom length addressSpaceEnd candidate rest

namespace GuestMemory

variable (memory : GuestMemory)

def findFreeRange (hint length : Nat) : Except GuestMemoryError Nat := do
  let candidate ← alignUp hint
  let candidate := if candidate < minGuestAddress then minGuestAddress else candidate
  findFreeFrom length memory.addressSpaceEnd candidate memory.vmas.values

def mmapStart (args : MmapSyscallArgs) (length : Nat) : Except GuestMemoryError Nat :=
  if args.isFixed || args.isFixedNoreplace then
    if args.addr < minGuestAddress || !isPageAligned args.addr then .error .invalidAddress
    else do
      let _ ← checkedMappingEnd args.addr length memory.addressSpaceEnd
      if memory.overlaps args.addr (args.addr + length) && args.isFixedNoreplace then
        .error .addressInUse
      else .ok args.addr
  else do
    let hint ← if args.addr = 0 then .ok memory.mmapBase else alignUp (max args.addr minGuestAddress)
    memory.findFreeRange hint length

def nextRetryMmapStart (previousStart length : Nat) : Except GuestMemoryError Nat :=
  match checkedAdd previousStart length with
  | none => .error .outOfMemory
  | some next => do
    let nextHint ← alignUp next
    if nextHint ≥ memory.addressSpaceEnd then .error .outOfMemory
    else memory.findFreeRange nextHint length

end GuestMemory

/-! ### Mapping -/

def insertVma (vma : GuestVma) : MemM Unit :=
  modifyMem fun m => { m with vmas := m.vmas.insert vma.start vma }

def insertMapping (start length : Nat) (protection : GuestMemoryProtection) (kind : GuestVmaKind) :
    MemM Unit := do
  let memory ← getMem
  let stop ← check (checkedMappingEnd start length memory.addressSpaceEnd)
  if memory.overlaps start stop then fail .addressInUse
  else
    let (allocationId, allocationOffset) ← ensureHostAllocation ctx start length
    zeroAllocationRange ctx allocationId allocationOffset length
    let allocation ← expectAllocation allocationId
    protectRange allocation.memory allocationOffset length
    insertVma { start, stop, protection, kind, allocationId, allocationOffset }

def mmapHostConflictRetries : Nat := 64

/-- `should_retry_mmap_host_conflict`, the count of attempts apart. -/
def retriesHostConflict (memory : GuestMemory) (args : MmapSyscallArgs) : Abort → Bool
  | .error (.host _) =>
    memory.hostAddressMode = .fixedGuest && !args.isFixed && !args.isFixedNoreplace
  | _ => false

/-- The loop of `mmap`; `retries` attempts are left after this one. -/
def mmapLoop (args : MmapSyscallArgs) (length : Nat) (protection : GuestMemoryProtection)
    (kind : GuestVmaKind) : Nat → Nat → MemM Nat
  | retries, start => do
    Prog.when args.isFixed (modifyMem (·.unmapRange start (start + length)))
    Prog.tryCatch
      (do
        insertMapping ctx start length protection kind
        pure start)
      fun error => do
        let memory ← getMem
        match retries with
        | 0 => .throw error
        | retries + 1 =>
          if retriesHostConflict memory args error then
            let start ← check (memory.nextRetryMmapStart start length)
            mmapLoop args length protection kind retries start
          else .throw error

def mmap (args : MmapSyscallArgs) : MemM Nat := do
  let protection ← check (GuestMemoryProtection.fromLinux args.prot)
  let length ← check (pageRoundLength args.length)
  let kind ← check (mmapKind args)
  let memory ← getMem
  let start ← check (memory.mmapStart args length)
  mmapLoop ctx args length protection kind mmapHostConflictRetries start

def munmap (addr length : Nat) : MemM Unit := do
  let stop ← check (checkedPageRange addr length)
  modifyMem (·.unmapRange addr stop)

/-! ### Protection -/

/-- The keys a range scan collected, each VMA given the new protection. -/
def GuestMemory.setProtections (memory : GuestMemory) (keys : List Nat)
    (protection : GuestMemoryProtection) : GuestMemory :=
  { memory with vmas := memory.vmas.mapValues fun key vma =>
      if key ∈ keys then { vma with protection } else vma }

def mprotect (addr length : Nat) (prot : UInt32) : MemM Unit := do
  let protection ← check (GuestMemoryProtection.fromLinux prot)
  if length = 0 then pure ()
  else
    let stop ← check (checkedPageRange addr length)
    let memory ← getMem
    if !memory.isRangeMapped addr stop then fail .notMapped
    else
      modifyMem fun m => (m.splitVmaAt addr).splitVmaAt stop
      ensureGuestPageRangeUnique ctx addr stop
      let memory ← getMem
      let keys := memory.vmas.keysIn addr stop
      .forEach keys fun key => do
        match memory.vmas.get? key with
        | none => abort
        | some vma =>
          let allocation ← expectAllocation vma.allocationId
          protectRange allocation.memory vma.allocationOffset vma.len
      modifyMem fun m => (m.setProtections keys protection).coalesceAdjacent

/-! ### The program break -/

namespace GuestMemory

variable (memory : GuestMemory)

def heapKeysFrom (start : Nat) : List Nat :=
  (memory.vmas.entries.filter (fun e => decide (start ≤ e.1) && e.2.isHeap)).map Prod.fst

def removeHeapVmas : GuestMemory :=
  (memory.removeKeys (memory.heapKeysFrom 0)).dropUnreferencedAllocations

def shrinkHeap (mappedEnd : Nat) : GuestMemory :=
  if mappedEnd ≤ memory.brkBase then memory.removeHeapVmas
  else
    let memory := memory.splitVmaAt mappedEnd
    (memory.removeKeys (memory.heapKeysFrom mappedEnd)).dropUnreferencedAllocations

def brkCanGrow (oldMappedEnd newMappedEnd : Nat) : Bool :=
  !memory.vmas.values.any (fun vma =>
    !vma.isHeap && decide (vma.start < newMappedEnd) && decide (oldMappedEnd < vma.stop))

end GuestMemory

def heapProtection : GuestMemoryProtection := ⟨true, true, false⟩

def resizeHeap (mappedEnd : Nat) : MemM Unit := do
  let memory ← getMem
  if mappedEnd = memory.brkBase then modifyMem (·.removeHeapVmas)
  else if mappedEnd < memory.brkBase then fail .invalidAddress
  else
    let oldMappedEnd := memory.heapMappedEnd
    let newSize := mappedEnd - memory.brkBase
    let (allocationId, allocationOffset) ← ensureHostAllocation ctx memory.brkBase newSize
    let zeroStart := max oldMappedEnd memory.brkBase
    Prog.when (zeroStart < mappedEnd)
      (zeroAllocationRange ctx allocationId (allocationOffset + (zeroStart - memory.brkBase))
        (mappedEnd - zeroStart))
    insertVma
      { start := memory.brkBase, stop := mappedEnd, protection := heapProtection, kind := .heap
        allocationId, allocationOffset }
    ensureAllocationUnique ctx allocationId
    let allocation ← expectAllocation allocationId
    protectRange allocation.memory allocationOffset newSize

/-- The two branches of `try_set_brk` that move the end of the mapped heap. -/
def moveHeapEnd (oldMappedEnd newMappedEnd : Nat) : MemM Unit := do
  let memory ← getMem
  if newMappedEnd > oldMappedEnd then
    if !memory.brkCanGrow oldMappedEnd newMappedEnd then fail .outOfMemory
    else resizeHeap ctx newMappedEnd
  else Prog.when (newMappedEnd < oldMappedEnd) (modifyMem (·.shrinkHeap newMappedEnd))

def trySetBrk (requested : Nat) : MemM Unit := do
  let newMappedEnd ← check (alignUp requested)
  let memory ← getMem
  if newMappedEnd > memory.addressSpaceEnd then fail .outOfMemory
  else
    moveHeapEnd ctx memory.heapMappedEnd newMappedEnd
    modifyMem fun m => { m with currentBrk := requested }

/-- The program break after the call, or the error that left it where it was. -/
def setBrk (requested : Nat) : MemM Nat := do
  let memory ← getMem
  if requested = 0 then pure memory.currentBrk
  else if requested < memory.brkBase then fail .invalidAddress
  else
    trySetBrk ctx requested
    let memory ← getMem
    pure memory.currentBrk

end Mcr.Memory
