import Mcr.Lib.SortedMap
import Mcr.Lib.ByteBuf
import Mcr.Memory.Ranges

/-!
# The guest memory and the host memory under it

A `GuestMemory` holds two tables: the VMAs by start address and the host allocations by id. An
allocation is an `Arc` of host memory, which several guest memories may hold at once after a fork, so
the host memories live in a heap of their own and an allocation holds an `ArcId` into it. The
`Context` of a call carries what the call cannot see in its own state: the host's answers, and how
many references the other guest memories hold to each host memory.

Page protections of the host pages are left out: no function of the program reads them back. A
protection call keeps its own argument check and its error.
-/

namespace Mcr.Memory

structure GuestMemoryProtection where
  read : Bool
  write : Bool
  execute : Bool
deriving DecidableEq, Repr

def linuxProtRead : UInt32 := 0x1
def linuxProtWrite : UInt32 := 0x2
def linuxProtExec : UInt32 := 0x4
def linuxProtValidMask : UInt32 := linuxProtRead ||| linuxProtWrite ||| linuxProtExec

def GuestMemoryProtection.fromLinux (prot : UInt32) :
    Except GuestMemoryError GuestMemoryProtection :=
  if prot &&& ~~~linuxProtValidMask ≠ 0 then .error .invalidProtection
  else .ok
    { read := prot &&& linuxProtRead ≠ 0
      write := prot &&& linuxProtWrite ≠ 0
      execute := prot &&& linuxProtExec ≠ 0 }

inductive GuestVmaKind
  | anonymous
  | heap
  | fileBacked (fd : Int) (offset : Int) (shared : Bool)
deriving DecidableEq, Repr

structure GuestVma where
  start : Nat
  stop : Nat
  protection : GuestMemoryProtection
  kind : GuestVmaKind
  allocationId : Nat
  allocationOffset : Nat
deriving DecidableEq, Repr

namespace GuestVma

def len (vma : GuestVma) : Nat := vma.stop - vma.start

def contains (vma : GuestVma) (address : Nat) : Bool :=
  decide (vma.start ≤ address ∧ address < vma.stop)

/-- The test every range scan of the source uses. -/
def overlaps (vma : GuestVma) (start stop : Nat) : Bool :=
  decide (vma.start < stop ∧ start < vma.stop)

def isHeap (vma : GuestVma) : Bool := decide (vma.kind = .heap)

end GuestVma

def canMerge (left right : GuestVma) : Bool :=
  left.stop = right.start && left.protection = right.protection && left.kind = right.kind &&
    left.allocationId = right.allocationId &&
    left.allocationOffset + left.len = right.allocationOffset

/-- The identity of an `Arc<HostMemory>`. -/
abbrev ArcId := Nat

structure GuestAllocation where
  guestStart : Nat
  memory : ArcId
deriving DecidableEq, Repr

inductive HostAddressMode
  | flexible
  | fixedGuest
deriving DecidableEq, Repr

structure GuestMemory where
  vmas : SortedMap Nat GuestVma
  allocations : SortedMap Nat GuestAllocation
  nextAllocationId : Nat
  brkBase : Nat
  currentBrk : Nat
  mmapBase : Nat
  addressSpaceEnd : Nat
  hostAddressMode : HostAddressMode
  executableWriteGeneration : Nat

def GuestMemory.withLayout (initialBrk mmapBase addressSpaceEnd : Nat) :
    Except GuestMemoryError GuestMemory :=
  if !isPageAligned initialBrk || !isPageAligned mmapBase || !isPageAligned addressSpaceEnd ||
      initialBrk < minGuestAddress || mmapBase < minGuestAddress ||
      addressSpaceEnd ≤ minGuestAddress then .error .invalidAddress
  else .ok
    { vmas := .empty
      allocations := .empty
      nextAllocationId := 1
      brkBase := initialBrk
      currentBrk := initialBrk
      mmapBase := mmapBase
      addressSpaceEnd := addressSpaceEnd
      hostAddressMode := .flexible
      executableWriteGeneration := 0 }

/-- The host memories, the next unused identity, and how many allocations the host was asked for. -/
structure HostHeap where
  object : ArcId → ByteBuf
  next : ArcId
  calls : Nat

def HostHeap.empty : HostHeap := ⟨fun _ => .zeros 0, 0, 0⟩

def HostHeap.set (heap : HostHeap) (arc : ArcId) (buf : ByteBuf) : HostHeap :=
  { heap with object := fun a => if a = arc then buf else heap.object a }

/-- What a call that takes `&mut GuestMemory` may change. -/
structure Machine where
  mem : GuestMemory
  heap : HostHeap

/-- The place of the source that asks the host for memory. -/
inductive AllocSite
  | clone
  | unique
  | detach
  | fresh
  | replacement
  | restore
deriving DecidableEq, Repr

/-- The two builds of `host_allocation_range`. -/
inductive HostPlatform
  | windows
  | other
deriving DecidableEq, Repr

def HostPlatform.allocationGranularity : HostPlatform → Nat
  | .windows => 0x10000
  | .other => guestPageSize

structure Context where
  platform : HostPlatform
  /-- The host's answer to its `n`-th allocation request: `none` grants it. -/
  refusal : Nat → AllocSite → Option HostError
  /-- References held by the other guest memories. -/
  others : ArcId → Nat

/-- How a call ends early: with an error for its caller, or in a panic of the process. -/
inductive Abort
  | error (error : GuestMemoryError)
  | panic
deriving DecidableEq, Repr

abbrev MemM (α : Type) := Prog Machine Abort α

def fail {α : Type} (error : GuestMemoryError) : MemM α := .throw (.error error)

/-- `panic!`, and the panics of `expect` and of slice indexing. -/
def abort {α : Type} : MemM α := .throw .panic

def check {α : Type} : Except GuestMemoryError α → MemM α
  | .ok a => pure a
  | .error error => fail error

def getMem : MemM GuestMemory := do
  let s ← Prog.get
  pure s.mem

def modifyMem (f : GuestMemory → GuestMemory) : MemM Unit :=
  .modify fun s => { s with mem := f s.mem }

section Rules

variable {α : Type} {Q : α → Machine → Prop} {E : Abort → Machine → Prop} {s : Machine}

@[simp] theorem wp_fail (error : GuestMemoryError) :
    (fail error : MemM α).wp Q E s ↔ E (.error error) s := Prog.wp_throw _

@[simp] theorem wp_abort : (abort : MemM α).wp Q E s ↔ E .panic s := Prog.wp_throw _

@[simp] theorem wp_check (x : Except GuestMemoryError α) :
    (check x).wp Q E s ↔ match x with | .ok a => Q a s | .error error => E (.error error) s := by
  cases x with
  | ok a => exact Prog.wp_pure a
  | error e => exact wp_fail e

/-- A check taken apart at its two outcomes. -/
theorem wp_check_bind {β : Type} {x : Except GuestMemoryError α} {f : α → MemM β}
    {R : β → Machine → Prop} (hok : ∀ a, x = .ok a → (f a).wp R E s)
    (herror : ∀ error, x = .error error → E (.error error) s) : (check x >>= f).wp R E s := by
  rw [Prog.wp_bind, wp_check]
  cases x with
  | ok a => exact hok a rfl
  | error error => exact herror error rfl

@[simp] theorem wp_getMem {Q : GuestMemory → Machine → Prop} :
    getMem.wp Q E s ↔ Q s.mem s := by
  rw [getMem, Prog.wp_bind, Prog.wp_get, Prog.wp_pure]

@[simp] theorem wp_modifyMem (f : GuestMemory → GuestMemory) {Q : Unit → Machine → Prop} :
    (modifyMem f).wp Q E s ↔ Q () { s with mem := f s.mem } := Prog.wp_modify _

end Rules

/-! ### Queries on the tables -/

namespace GuestMemory

variable (memory : GuestMemory)

def vmaContaining (address : Nat) : Option GuestVma :=
  match memory.vmas.findLE? address with
  | some (_, vma) => if vma.contains address then some vma else none
  | none => none

def overlaps (start stop : Nat) : Bool := memory.vmas.values.any (·.overlaps start stop)

def rangeOverlapsExecutable (start stop : Nat) : Bool :=
  decide (start < stop) &&
    memory.vmas.values.any (fun vma => vma.protection.execute && vma.overlaps start stop)

def isRangeMappedFrom (stop : Nat) : Nat → List GuestVma → Bool
  | _, [] => false
  | cursor, vma :: rest =>
    if vma.start > cursor then false
    else
      let cursor := if vma.stop > cursor then vma.stop else cursor
      if cursor ≥ stop then true else isRangeMappedFrom stop cursor rest

def isRangeMapped (start stop : Nat) : Bool :=
  isRangeMappedFrom stop start (memory.vmas.values.filter (fun vma => decide (vma.stop > start)))

def heapVma : Option GuestVma := memory.vmas.values.find? (·.isHeap)

def heapMappedEnd : Nat :=
  match memory.heapVma with
  | some vma => max vma.stop memory.brkBase
  | none => memory.brkBase

def allocationIsReadonlyShareable (allocationId : Nat) : Bool :=
  memory.hostAddressMode = .flexible &&
    (memory.vmas.values.filter (fun vma => decide (vma.allocationId = allocationId))).all
      (fun vma => !vma.protection.write)

def ownCount (arc : ArcId) : Nat := memory.allocations.values.countP (fun a => decide (a.memory = arc))

end GuestMemory

structure AllocationProtectionRange where
  offset : Nat
  len : Nat
  protection : GuestMemoryProtection

def GuestMemory.allocationProtectionRanges (memory : GuestMemory) (allocationId : Nat) :
    List AllocationProtectionRange :=
  (memory.vmas.values.filter (fun vma => decide (vma.allocationId = allocationId))).map
    (fun vma => ⟨vma.allocationOffset, vma.len, vma.protection⟩)

def strongCount (ctx : Context) (memory : GuestMemory) (arc : ArcId) : Nat :=
  ctx.others arc + memory.ownCount arc

section Allocations

variable (heap : HostHeap) (allocation : GuestAllocation)

def GuestAllocation.guestEnd : Nat :=
  min (allocation.guestStart + (heap.object allocation.memory).len) (u64Limit - 1)

def GuestAllocation.containsGuestRange (start stop : Nat) : Bool :=
  decide (allocation.guestStart ≤ start ∧ stop ≤ allocation.guestEnd heap)

def GuestAllocation.overlapsGuestRange (start stop : Nat) : Bool :=
  decide (allocation.guestStart < stop ∧ start < allocation.guestEnd heap)

end Allocations

end Mcr.Memory
