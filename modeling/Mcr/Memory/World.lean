import Mcr.Memory.Access

/-!
# Several guest memories over one host

A fork copies a guest memory; an allocation none of whose VMAs is writable is not copied but shared.
A `World` is the guest memories alive at one time with the host memories they refer to, and a run is
any interleaving of calls and forks on any of them.
-/

namespace Mcr.Memory

/-! ### Fork -/

/-- One round of the loop of `try_clone_runtime_with_allocator`. -/
def cloneAllocation (ctx : Context) (mode : HostAddressMode) (entry : Nat × GuestAllocation) :
    MemM (Nat × GuestAllocation) := do
  let (allocationId, allocation) := entry
  let memory ← getMem
  if mode = .flexible ∧ memory.allocationIsReadonlyShareable allocationId then pure entry
  else
    let ranges := memory.allocationProtectionRanges allocationId
    let s ← Prog.get
    let len := (s.heap.object allocation.memory).len
    protect allocation.memory
    let arc ← allocateGuestHostMemoryAt ctx .clone allocation.guestStart len mode
    let bytes ← sliceBytes allocation.memory 0 len
    copyInto arc 0 len bytes
    applyAllocationProtections allocation.memory ranges
    applyAllocationProtections arc ranges
    pure (allocationId, ⟨allocation.guestStart, arc⟩)

/-- `try_clone_runtime` for the flexible mode, `try_clone_runtime_at_guest_addresses` for the fixed one. -/
def tryCloneRuntime (ctx : Context) (mode : HostAddressMode) : MemM GuestMemory := do
  let memory ← getMem
  let allocations ← Prog.collect memory.allocations.entries (cloneAllocation ctx mode)
  pure
    { memory with
      allocations := allocations.foldl (fun m e => m.insert e.1 e.2) .empty
      hostAddressMode := mode }

/-! ### Runs -/

structure World where
  memories : List GuestMemory
  heap : HostHeap

/-- What the host decides: the platform and the answer to each allocation request. -/
structure Host where
  platform : HostPlatform
  refusal : Nat → AllocSite → Option HostError

def Host.granting (platform : HostPlatform) : Host := ⟨platform, fun _ _ => none⟩

/-- References to a host memory from every guest memory but one. -/
def World.others (w : World) (pid : Nat) (arc : ArcId) : Nat :=
  ((w.memories.eraseIdx pid).map (·.ownCount arc)).sum

def World.context (w : World) (host : Host) (pid : Nat) : Context :=
  ⟨host.platform, host.refusal, w.others pid⟩

inductive Op
  | mmap (args : MmapSyscallArgs)
  | munmap (addr length : Nat)
  | mprotect (addr length : Nat) (prot : UInt32)
  | setBrk (requested : Nat)
  | write (address : Nat) (bytes : List UInt8)
  | sliceMut (address len : Nat) (update : List UInt8 → List UInt8)
  | patchCode (address : Nat) (bytes : List UInt8)
  | patchCodeFixed (n : Nat) (patches : List (Nat × Vector UInt8 n))
  | memset (address : Nat) (value : UInt8) (len : Nat)
  | memmove (destination source len : Nat)

def Op.exec (ctx : Context) : Op → MemM Unit
  | .mmap args => do let _ ← Memory.mmap ctx args
  | .munmap addr length => Memory.munmap addr length
  | .mprotect addr length prot => Memory.mprotect ctx addr length prot
  | .setBrk requested => do let _ ← Memory.setBrk ctx requested
  | .write address bytes => Memory.write ctx address bytes
  | .sliceMut address len update => do let _ ← Memory.sliceMut ctx address len update
  | .patchCode address bytes => do let _ ← Memory.patchCode ctx address bytes
  | .patchCodeFixed n patches => Memory.patchCodeFixed ctx n patches
  | .memset address value len => intrinsicMemset ctx address value len
  | .memmove destination source len => intrinsicMemmove ctx destination source len

inductive Event
  | call (op : Op)
  | fork (mode : HostAddressMode)

/-- One event in the process `pid`; a call that fails leaves behind what it changed before. -/
def World.step (host : Host) (w : World) (pid : Nat) (event : Event) : World :=
  match w.memories[pid]? with
  | none => w
  | some memory =>
    match event with
    | .call op =>
      let s' := (op.exec (w.context host pid) ⟨memory, w.heap⟩).2
      ⟨w.memories.set pid s'.mem, s'.heap⟩
    | .fork mode =>
      match tryCloneRuntime (w.context host pid) mode ⟨memory, w.heap⟩ with
      | (.ok clone, s') => ⟨w.memories.set pid s'.mem ++ [clone], s'.heap⟩
      | (.error _, s') => ⟨w.memories.set pid s'.mem, s'.heap⟩

def World.run (host : Host) (w : World) (events : List (Nat × Event)) : World :=
  events.foldl (fun w e => w.step host e.1 e.2) w

def World.initial (memory : GuestMemory) : World := ⟨[memory], .empty⟩

/-! ### Fixed inputs for runs -/

def freshMemory : GuestMemory where
  vmas := .empty
  allocations := .empty
  nextAllocationId := 1
  brkBase := 0x1000000
  currentBrk := 0x1000000
  mmapBase := 0x2000000
  addressSpaceEnd := 0x4000000
  hostAddressMode := .flexible
  executableWriteGeneration := 0

theorem withLayout_freshMemory :
    GuestMemory.withLayout 0x1000000 0x2000000 0x4000000 = .ok freshMemory := by
  rfl

def fixedMapping (addr length : Nat) (prot : UInt32) : MmapSyscallArgs where
  addr := addr
  length := length
  prot := prot
  flags := linuxMapPrivate ||| linuxMapAnonymous ||| linuxMapFixed
  fd := -1
  offset := 0

end Mcr.Memory
