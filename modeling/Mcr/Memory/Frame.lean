import Mcr.Memory.World

/-!
# A call changes no host memory that another guest memory refers to

The argument needs no invariant of the tables. A host memory is changed in two places only: right
after it was allocated, when nobody refers to it, and behind `allocation_memory_mut`, which answers
only when the one reference is the caller's own. `Framed` says it of a program, and every function of
the model is framed because its parts are.
-/

namespace Mcr.Memory

open Prog

/-- Every reference points at a host memory that has been made. -/
structure ArcsMade (ctx : Context) (s : Machine) : Prop where
  own : ∀ id allocation, s.mem.allocations.get? id = some allocation → allocation.memory < s.heap.next
  others : ∀ arc, 0 < ctx.others arc → arc < s.heap.next

/-- The host memories that others refer to are as they were. -/
structure Frame (ctx : Context) (s s' : Machine) : Prop where
  shared : ∀ arc, 0 < ctx.others arc → s'.heap.object arc = s.heap.object arc
  next : s.heap.next ≤ s'.heap.next

theorem Frame.refl (ctx : Context) (s : Machine) : Frame ctx s s := ⟨fun _ _ => rfl, le_rfl⟩

theorem Frame.trans {ctx : Context} {s t u : Machine} (h : Frame ctx s t) (h' : Frame ctx t u) :
    Frame ctx s u :=
  ⟨fun arc harc => (h'.shared arc harc).trans (h.shared arc harc), h.next.trans h'.next⟩

/-- From any state with at least `n` host memories made, the program keeps the frame on both exits. -/
def Framed {α : Type} (ctx : Context) (n : Nat) (m : MemM α) : Prop :=
  ∀ s, ArcsMade ctx s → n ≤ s.heap.next →
    wp m (fun _ s' => ArcsMade ctx s' ∧ Frame ctx s s') (fun _ s' => ArcsMade ctx s' ∧ Frame ctx s s') s

/-- As `Framed`, for a program that returns a host memory only its caller refers to. -/
def FramedArc (ctx : Context) (n : Nat) (m : MemM ArcId) : Prop :=
  ∀ s, ArcsMade ctx s → n ≤ s.heap.next →
    wp m (fun arc s' => (ArcsMade ctx s' ∧ Frame ctx s s') ∧ ctx.others arc = 0 ∧ arc < s'.heap.next)
      (fun _ s' => ArcsMade ctx s' ∧ Frame ctx s s') s

section Rules

variable {ctx : Context} {n : Nat} {α β : Type}

theorem Framed.pure (a : α) : Framed ctx n (Pure.pure a : MemM α) :=
  fun s hs _ => (wp_pure a).mpr ⟨hs, Frame.refl ctx s⟩

theorem Framed.throw (e : Abort) : Framed ctx n (.throw e : MemM α) :=
  fun s hs _ => (wp_throw e).mpr ⟨hs, Frame.refl ctx s⟩

theorem Framed.get : Framed ctx n (Prog.get : MemM Machine) :=
  fun s hs _ => wp_get.mpr ⟨hs, Frame.refl ctx s⟩

theorem Framed.bind {m : MemM α} {f : α → MemM β} (hm : Framed ctx n m)
    (hf : ∀ a, Framed ctx n (f a)) : Framed ctx n (m >>= f) := by
  intro s hs hn
  rw [wp_bind]
  refine wp_mono (hm s hs hn) (fun a s' h => ?_) (fun _ _ h => h)
  refine wp_mono (hf a s' h.1 (hn.trans h.2.next)) (fun _ _ h' => ?_) (fun _ _ h' => ?_)
  all_goals exact ⟨h'.1, h.2.trans h'.2⟩

theorem FramedArc.bind {m : MemM ArcId} {f : ArcId → MemM β} (hm : FramedArc ctx n m)
    (hf : ∀ arc, ctx.others arc = 0 → Framed ctx (arc + 1) (f arc)) : Framed ctx n (m >>= f) := by
  intro s hs hn
  rw [wp_bind]
  refine wp_mono (hm s hs hn) (fun arc s' h => ?_) (fun _ _ h => h)
  refine wp_mono (hf arc h.2.1 s' h.1.1 h.2.2) (fun _ _ h' => ?_) (fun _ _ h' => ?_)
  all_goals exact ⟨h'.1, h.1.2.trans h'.2⟩

theorem Framed.ite {c : Prop} [Decidable c] {m m' : MemM α} (hm : Framed ctx n m)
    (hm' : Framed ctx n m') : Framed ctx n (if c then m else m') := by
  split
  · exact hm
  · exact hm'

theorem Framed.when {c : Prop} [Decidable c] {m : MemM Unit} (hm : Framed ctx n m) :
    Framed ctx n (Prog.when c m) :=
  Framed.ite hm (Framed.pure ())

theorem Framed.forEach {f : β → MemM Unit} (hf : ∀ b, Framed ctx n (f b)) :
    ∀ l, Framed ctx n (Prog.forEach l f)
  | [] => Framed.pure ()
  | b :: rest => (hf b).bind fun _ => Framed.forEach hf rest

theorem Framed.collect {f : β → MemM α} (hf : ∀ b, Framed ctx n (f b)) :
    ∀ l, Framed ctx n (Prog.collect l f)
  | [] => Framed.pure []
  | b :: rest => (hf b).bind fun _ => (Framed.collect hf rest).bind fun _ => Framed.pure _

theorem Framed.tryCatch {m : MemM α} {handler : Abort → MemM α} (hm : Framed ctx n m)
    (hh : ∀ e, Framed ctx n (handler e)) : Framed ctx n (Prog.tryCatch m handler) := by
  intro s hs hn
  rw [wp_tryCatch]
  refine wp_mono (hm s hs hn) (fun _ _ h => h) (fun e s' h => ?_)
  refine wp_mono (hh e s' h.1 (hn.trans h.2.next)) (fun _ _ h' => ?_) (fun _ _ h' => ?_)
  all_goals exact ⟨h'.1, h.2.trans h'.2⟩

theorem Framed.fail (e : GuestMemoryError) : Framed ctx n (Memory.fail e : MemM α) := Framed.throw _

theorem Framed.abort : Framed ctx n (Memory.abort : MemM α) := Framed.throw _

theorem Framed.check (x : Except GuestMemoryError α) : Framed ctx n (Memory.check x) := by
  cases x with
  | ok a => exact Framed.pure a
  | error e => exact Framed.fail e

theorem Framed.getMem : Framed ctx n Memory.getMem := Framed.get.bind fun _ => Framed.pure _

theorem Framed.modifyMem {f : GuestMemory → GuestMemory}
    (hf : ∀ m id a, (f m).allocations.get? id = some a → m.allocations.get? id = some a) :
    Framed ctx n (Memory.modifyMem f) := by
  intro s hs _
  rw [wp_modifyMem]
  exact ⟨⟨fun id a h => hs.own id a (hf _ _ _ h), hs.others⟩, fun _ _ => rfl, le_rfl⟩

theorem Framed.modifyMem_same {f : GuestMemory → GuestMemory}
    (hf : ∀ m, (f m).allocations = m.allocations) : Framed ctx n (Memory.modifyMem f) :=
  Framed.modifyMem fun m _ _ h => hf m ▸ h

end Rules

section Functions

variable (ctx : Context) (n : Nat)

/-! ### Host memory -/

theorem allocateHostMemory_framed (site : AllocSite) (len : Nat) :
    FramedArc ctx n (allocateHostMemory ctx site len) := by
  intro s hs _
  rw [allocateHostMemory, wp_bind, wp_get, wp_ite]
  split
  · exact (wp_fail _).mpr ⟨hs, Frame.refl ctx s⟩
  · rw [wp_bind, wp_modify]
    cases ctx.refusal s.heap.calls site with
    | some e => exact (wp_fail _).mpr ⟨⟨hs.own, hs.others⟩, fun _ _ => rfl, le_rfl⟩
    | none =>
        rw [wp_bind, wp_modify, wp_pure]
        -- the new host memory is numbered above every reference there is
        have hfree : ctx.others s.heap.next = 0 := by
          by_contra h
          exact absurd (hs.others _ (Nat.pos_of_ne_zero h)) (lt_irrefl _)
        refine ⟨⟨⟨fun id a h => Nat.lt_succ_of_lt (hs.own id a h),
          fun arc h => Nat.lt_succ_of_lt (hs.others arc h)⟩, fun arc h => ?_, Nat.le_succ _⟩, hfree,
          Nat.lt_succ_self _⟩
        have hne : arc ≠ s.heap.next := (hs.others arc h).ne
        simp [HostHeap.set, hne]

theorem allocateGuestHostMemoryAt_framed (site : AllocSite) (start len : Nat) (mode : HostAddressMode) :
    FramedArc ctx n (allocateGuestHostMemoryAt ctx site start len mode) := by
  rw [allocateGuestHostMemoryAt]
  split
  · exact fun s hs _ => (wp_fail _).mpr ⟨hs, Frame.refl ctx s⟩
  · exact allocateHostMemory_framed ctx n site len

theorem protectRange_framed (arc : ArcId) (offset len : Nat) :
    Framed ctx n (protectRange arc offset len) :=
  Framed.get.bind fun _ => (Framed.fail _).ite (Framed.pure _)

theorem protect_framed (arc : ArcId) : Framed ctx n (protect arc) :=
  Framed.get.bind fun _ => protectRange_framed ctx n _ _ _

theorem flushInstructionCacheRange_framed (arc : ArcId) (offset len : Nat) :
    Framed ctx n (flushInstructionCacheRange arc offset len) :=
  Framed.get.bind fun _ => (Framed.fail _).ite (Framed.pure _)

theorem applyAllocationProtections_framed (arc : ArcId) (ranges : List AllocationProtectionRange) :
    Framed ctx n (applyAllocationProtections arc ranges) :=
  Framed.forEach (fun _ => protectRange_framed ctx n _ _ _) ranges

theorem sliceBytes_framed (arc : ArcId) (start stop : Nat) : Framed ctx n (sliceBytes arc start stop) :=
  Framed.get.bind fun _ => (Framed.pure _).ite Framed.abort

theorem setObject_framed {arc : ArcId} (harc : ctx.others arc = 0) (f : ByteBuf → ByteBuf) :
    Framed ctx n
      (.modify fun s => { s with heap := s.heap.set arc (f (s.heap.object arc)) } : MemM Unit) := by
  intro s hs _
  rw [wp_modify]
  refine ⟨⟨hs.own, hs.others⟩, fun a ha => ?_, le_rfl⟩
  have hne : a ≠ arc := by
    rintro rfl
    omega
  simp [HostHeap.set, hne]

theorem copyInto_framed {arc : ArcId} (harc : ctx.others arc = 0) (start stop : Nat) (bytes : ByteBuf) :
    Framed ctx n (copyInto arc start stop bytes) :=
  Framed.get.bind fun _ =>
    (setObject_framed ctx n harc (fun b => b.blit start bytes)).ite Framed.abort

theorem zeroFill_framed {arc : ArcId} (harc : ctx.others arc = 0) (start stop : Nat) :
    Framed ctx n (zeroFill arc start stop) :=
  Framed.get.bind fun _ =>
    (setObject_framed ctx n harc (fun b => b.fill start (stop - start) 0)).ite Framed.abort

theorem guardedBytes_framed (arc : ArcId) (ranges : List AllocationProtectionRange) (start stop : Nat) :
    Framed ctx n (guardedBytes arc ranges start stop) :=
  (protect_framed ctx n arc).bind fun _ => (sliceBytes_framed ctx n arc start stop).bind fun _ =>
    (applyAllocationProtections_framed ctx n arc ranges).bind fun _ => Framed.pure _

theorem expectAllocation_framed (allocationId : Nat) : Framed ctx n (expectAllocation allocationId) := by
  refine Framed.getMem.bind fun memory => ?_
  cases memory.allocations.get? allocationId with
  | some a => exact Framed.pure a
  | none => exact Framed.abort

theorem setAllocation_framed (allocationId guestStart : Nat) {arc : ArcId} (h : arc < n) :
    Framed ctx n (setAllocation allocationId ⟨guestStart, arc⟩) := by
  intro s hs hn
  rw [setAllocation, wp_modifyMem]
  refine ⟨⟨fun id a hget => ?_, hs.others⟩, fun _ _ => rfl, le_rfl⟩
  rw [SortedMap.get?_insert] at hget
  split at hget
  · obtain rfl := Option.some.inj hget
    exact h.trans_le hn
  · exact hs.own id a hget

theorem insertAllocation_framed (guestStart : Nat) {arc : ArcId} (h : arc < n) :
    Framed ctx n (insertAllocation guestStart arc) := by
  refine Framed.getMem.bind fun memory => ?_
  cases checkedAdd memory.nextAllocationId 1 with
  | none => exact Framed.fail _
  | some next =>
      refine Framed.bind (Framed.modifyMem_same ?_) fun _ =>
        (setAllocation_framed ctx n _ guestStart h).bind fun _ => Framed.pure _
      exact fun _ => rfl

/-! ### Copy on write -/

theorem ensureAllocationUnique_framed (allocationId : Nat) :
    Framed ctx n (ensureAllocationUnique ctx allocationId) := by
  refine Framed.getMem.bind fun memory => ?_
  cases memory.allocations.get? allocationId with
  | none => exact Framed.fail _
  | some allocation =>
      refine (Framed.pure ()).ite ?_
      refine Framed.get.bind fun s => (guardedBytes_framed ctx n _ _ _ _).bind fun bytes => ?_
      refine (allocateGuestHostMemoryAt_framed ctx n _ _ _ _).bind fun arc harc => ?_
      refine (copyInto_framed ctx _ harc _ _ _).bind fun _ => ?_
      refine (applyAllocationProtections_framed ctx _ _ _).bind fun _ => ?_
      exact setAllocation_framed ctx _ _ _ (Nat.lt_succ_self arc)

theorem ownCount_pos {memory : GuestMemory} {id : Nat} {allocation : GuestAllocation}
    (h : memory.allocations.get? id = some allocation) : 0 < memory.ownCount allocation.memory := by
  rw [GuestMemory.ownCount, List.countP_pos_iff]
  exact ⟨allocation, SortedMap.mem_values.mpr ⟨id, h⟩, by simp⟩

/-- The one reference an exclusive borrow needs is the caller's. -/
theorem others_eq_zero_of_strongCount {memory : GuestMemory} {id : Nat} {allocation : GuestAllocation}
    (h : memory.allocations.get? id = some allocation)
    (hcount : strongCount ctx memory allocation.memory = 1) : ctx.others allocation.memory = 0 := by
  have := ownCount_pos h
  unfold strongCount at hcount
  omega

theorem allocationMemoryMut_framed (allocationId : Nat) :
    FramedArc ctx n (allocationMemoryMut ctx allocationId) := by
  intro s hs hn
  rw [allocationMemoryMut, wp_bind]
  refine wp_mono (ensureAllocationUnique_framed ctx n allocationId s hs hn) (fun _ s' h => ?_)
    (fun _ _ h => h)
  simp only [expectAllocation, getMem, wp_bind, wp_get, wp_pure]
  cases hget : s'.mem.allocations.get? allocationId with
  | none => exact wp_abort.mpr h
  | some allocation =>
      rw [wp_pure, wp_ite]
      split
      · rename_i hcount
        exact (wp_pure _).mpr ⟨h, others_eq_zero_of_strongCount ctx hget hcount, h.1.own _ _ hget⟩
      · exact (wp_fail _).mpr h

theorem detachSharedVma_framed (vma : GuestVma) : Framed ctx n (detachSharedVma ctx vma) := by
  refine Framed.getMem.bind fun memory => ?_
  cases memory.allocations.get? vma.allocationId with
  | none => exact Framed.fail _
  | some allocation =>
      refine (Framed.pure ()).ite ?_
      refine (guardedBytes_framed ctx n _ _ _ _).bind fun bytes => ?_
      refine (allocateGuestHostMemoryAt_framed ctx n _ _ _ _).bind fun arc harc => ?_
      refine (copyInto_framed ctx _ harc _ _ _).bind fun _ => ?_
      refine (protect_framed ctx _ _).bind fun _ => ?_
      refine (insertAllocation_framed ctx _ _ (Nat.lt_succ_self arc)).bind fun _ => ?_
      refine Framed.getMem.bind fun memory => ?_
      cases memory.vmas.get? vma.start with
      | none => exact Framed.fail _
      | some detached => exact Framed.modifyMem_same fun _ => rfl

theorem splitVmaAt_allocations (memory : GuestMemory) (address : Nat) :
    (memory.splitVmaAt address).allocations = memory.allocations := by
  unfold GuestMemory.splitVmaAt
  split
  · rfl
  · split <;> rfl

theorem dropUnreferencedAllocations_sub {memory : GuestMemory} {id : Nat} {a : GuestAllocation}
    (h : memory.dropUnreferencedAllocations.allocations.get? id = some a) :
    memory.allocations.get? id = some a :=
  (SortedMap.get?_filter_eq_some.mp h).1

theorem unmapRange_sub {memory : GuestMemory} {start stop id : Nat} {a : GuestAllocation}
    (h : (memory.unmapRange start stop).allocations.get? id = some a) :
    memory.allocations.get? id = some a := by
  have h' := dropUnreferencedAllocations_sub h
  simpa only [GuestMemory.removeKeys, splitVmaAt_allocations] using h'

theorem ensureGuestRangeUnique_framed (start stop : Nat) :
    Framed ctx n (ensureGuestRangeUnique ctx start stop) := by
  refine (Framed.pure ()).ite (Framed.getMem.bind fun memory => ?_)
  refine (Framed.forEach (fun _ => ensureAllocationUnique_framed ctx n _) _).ite ?_
  refine (Framed.modifyMem fun m id a h => ?_).bind fun _ => Framed.getMem.bind fun memory => ?_
  · simpa only [splitVmaAt_allocations] using h
  refine (Framed.forEach (fun key => ?_) _).bind fun _ =>
    Framed.modifyMem fun _ _ _ h => dropUnreferencedAllocations_sub h
  refine Framed.getMem.bind fun memory => ?_
  cases memory.vmas.get? key with
  | none => exact Framed.fail _
  | some vma => exact detachSharedVma_framed ctx n vma

theorem ensureGuestPageRangeUnique_framed (start stop : Nat) :
    Framed ctx n (ensureGuestPageRangeUnique ctx start stop) := by
  unfold ensureGuestPageRangeUnique
  refine Framed.ite (Framed.pure ()) ?_
  refine Framed.bind ?_ ?_
  · exact Framed.check _
  · exact fun pageEnd => ensureGuestRangeUnique_framed ctx n _ pageEnd

/-! ### Making room -/

theorem restoreSavedAllocations_framed (saved : List SavedAllocation) :
    Framed ctx n (restoreSavedAllocations ctx saved) := by
  refine Framed.forEach (fun allocation => Framed.getMem.bind fun memory => ?_) saved
  refine (allocateGuestHostMemoryAt_framed ctx n _ _ _ _).bind fun arc harc => ?_
  refine (copyInto_framed ctx _ harc _ _ _).bind fun _ => ?_
  refine (applyAllocationProtections_framed ctx _ _ _).bind fun _ => ?_
  exact setAllocation_framed ctx _ _ _ (Nat.lt_succ_self arc)

theorem saveAllocation_framed (allocationId : Nat) : Framed ctx n (saveAllocation allocationId) :=
  Framed.getMem.bind fun _ => (expectAllocation_framed ctx n _).bind fun _ =>
    Framed.get.bind fun _ => (guardedBytes_framed ctx n _ _ _ _).bind fun _ => Framed.pure _

theorem FramedArc.tryCatch {m : MemM ArcId} {handler : Abort → MemM ArcId} (hm : FramedArc ctx n m)
    (hh : ∀ e, FramedArc ctx n (handler e)) : FramedArc ctx n (Prog.tryCatch m handler) := by
  intro s hs hn
  rw [wp_tryCatch]
  refine wp_mono (hm s hs hn) (fun _ _ h => h) (fun e s' h => ?_)
  refine wp_mono (hh e s' h.1 (hn.trans h.2.next)) (fun _ _ h' => ?_) (fun _ _ h' => ?_)
  · exact ⟨⟨h'.1.1, h.2.trans h'.1.2⟩, h'.2⟩
  · exact ⟨h'.1, h.2.trans h'.2⟩

theorem replaceOverlappingAllocations_framed (requestedStart guestStart guestEnd : Nat)
    (allocationIds : List Nat) :
    Framed ctx n
      (replaceOverlappingAllocations ctx requestedStart guestStart guestEnd allocationIds) := by
  refine (Framed.collect (fun _ => saveAllocation_framed ctx n _) _).bind fun saved => ?_
  refine Framed.getMem.bind fun memory => ?_
  refine (Framed.modifyMem fun _ _ _ h => (SortedMap.get?_filter_eq_some.mp h).1).bind fun _ => ?_
  refine (Framed.fail _).ite ?_
  have hrestore : ∀ e, FramedArc ctx n
      (restoreSavedAllocations ctx saved >>= fun _ => (.throw e : MemM ArcId)) := by
    intro e s hs hn
    rw [wp_bind]
    exact wp_mono (restoreSavedAllocations_framed ctx n saved s hs hn) (fun _ _ h => (wp_throw e).mpr h)
      (fun _ _ h => h)
  refine ((allocateGuestHostMemoryAt_framed ctx n _ _ _ _).tryCatch ctx n hrestore).bind
    fun arc harc => ?_
  refine (Framed.forEach (fun _ => copyInto_framed ctx _ harc _ _ _) _).bind fun _ => ?_
  refine (insertAllocation_framed ctx _ _ (Nat.lt_succ_self arc)).bind fun id => ?_
  refine (Framed.tryCatch (applyAllocationProtections_framed ctx _ _ _) fun e => ?_).bind fun _ => ?_
  · refine (Framed.modifyMem fun _ _ _ h => ?_).bind fun _ =>
      (restoreSavedAllocations_framed ctx _ saved).bind fun _ => Framed.throw e
    rw [SortedMap.get?_erase] at h
    split at h
    · simp at h
    · exact h
  · refine Framed.bind (Framed.modifyMem_same ?_) fun _ => Framed.pure _
    exact fun _ => rfl

theorem ensureHostAllocation_framed (start length : Nat) :
    Framed ctx n (ensureHostAllocation ctx start length) := by
  refine (Framed.check _).bind fun stop => Framed.get.bind fun s => ?_
  cases s.mem.findContaining s.heap start stop with
  | some found => exact Framed.pure _
  | none =>
      refine (Framed.check _).bind fun range => (Framed.check _).bind fun guestEnd => ?_
      refine (replaceOverlappingAllocations_framed ctx n _ _ _ _).ite ?_
      refine (Framed.fail _).ite ((Framed.fail _).ite ?_)
      refine (allocateGuestHostMemoryAt_framed ctx n _ _ _ _).bind fun arc _ => ?_
      exact (insertAllocation_framed ctx _ _ (Nat.lt_succ_self arc)).bind fun _ => Framed.pure _

theorem zeroAllocationRange_framed (allocationId allocationOffset len : Nat) :
    Framed ctx n (zeroAllocationRange ctx allocationId allocationOffset len) := by
  refine Framed.getMem.bind fun memory => (ensureAllocationUnique_framed ctx n _).bind fun _ => ?_
  refine (expectAllocation_framed ctx n _).bind fun _ => (protect_framed ctx n _).bind fun _ => ?_
  refine (allocationMemoryMut_framed ctx n _).bind fun arc harc => ?_
  refine (zeroFill_framed ctx _ harc _ _).bind fun _ => ?_
  exact (expectAllocation_framed ctx _ _).bind fun _ => applyAllocationProtections_framed ctx _ _ _

/-! ### The calls -/

theorem insertMapping_framed (start length : Nat) (protection : GuestMemoryProtection)
    (kind : GuestVmaKind) : Framed ctx n (insertMapping ctx start length protection kind) := by
  refine Framed.getMem.bind fun memory => (Framed.check _).bind fun stop => ?_
  refine Framed.ite (Framed.fail _) ?_
  refine (ensureHostAllocation_framed ctx n _ _).bind fun place => ?_
  refine (zeroAllocationRange_framed ctx n _ _ _).bind fun _ => ?_
  refine (expectAllocation_framed ctx n _).bind fun _ => (protectRange_framed ctx n _ _ _).bind fun _ => ?_
  exact Framed.modifyMem_same fun _ => rfl

theorem mmapLoop_framed (args : MmapSyscallArgs) (length : Nat) (protection : GuestMemoryProtection)
    (kind : GuestVmaKind) (retries start : Nat) :
    Framed ctx n (mmapLoop ctx args length protection kind retries start) := by
  induction retries generalizing start with
  | zero =>
      rw [mmapLoop]
      refine Framed.bind (Framed.when (Framed.modifyMem fun _ _ _ h => unmapRange_sub h)) fun _ => ?_
      refine Framed.tryCatch ((insertMapping_framed ctx n _ _ _ _).bind fun _ => Framed.pure _) fun e => ?_
      exact Framed.getMem.bind fun _ => Framed.throw e
  | succ retries ih =>
      rw [mmapLoop]
      refine Framed.bind (Framed.when (Framed.modifyMem fun _ _ _ h => unmapRange_sub h)) fun _ => ?_
      refine Framed.tryCatch ((insertMapping_framed ctx n _ _ _ _).bind fun _ => Framed.pure _) fun e => ?_
      refine Framed.getMem.bind fun memory => ?_
      exact Framed.ite ((Framed.check _).bind fun start => ih start) (Framed.throw e)

theorem mmap_framed (args : MmapSyscallArgs) : Framed ctx n (mmap ctx args) := by
  unfold mmap
  refine (Framed.check _).bind fun protection => (Framed.check _).bind fun length => ?_
  refine (Framed.check _).bind fun kind => Framed.getMem.bind fun memory => ?_
  exact (Framed.check _).bind fun start => mmapLoop_framed ctx n _ _ _ _ _ _

theorem munmap_framed (addr length : Nat) : Framed ctx n (munmap addr length) := by
  unfold munmap
  exact (Framed.check _).bind fun _ => Framed.modifyMem fun _ _ _ h => unmapRange_sub h

theorem mprotect_framed (addr length : Nat) (prot : UInt32) :
    Framed ctx n (mprotect ctx addr length prot) := by
  unfold mprotect
  refine (Framed.check _).bind fun protection => Framed.ite (Framed.pure _) ?_
  refine (Framed.check _).bind fun stop => Framed.getMem.bind fun memory => ?_
  refine Framed.ite (Framed.fail _) ?_
  refine Framed.bind (Framed.modifyMem_same ?_) fun _ => ?_
  · intro m
    rw [splitVmaAt_allocations, splitVmaAt_allocations]
  refine (ensureGuestPageRangeUnique_framed ctx n _ _).bind fun _ => Framed.getMem.bind fun memory => ?_
  refine Framed.bind (Framed.forEach (fun key => ?_) _) fun _ => Framed.modifyMem_same ?_
  · cases memory.vmas.get? key with
    | none => exact Framed.abort
    | some vma => exact (expectAllocation_framed ctx n _).bind fun _ => protectRange_framed ctx n _ _ _
  · exact fun _ => rfl

theorem removeHeapVmas_sub {memory : GuestMemory} {id : Nat} {a : GuestAllocation}
    (h : memory.removeHeapVmas.allocations.get? id = some a) :
    memory.allocations.get? id = some a :=
  (SortedMap.get?_filter_eq_some.mp h).1

theorem shrinkHeap_sub {memory : GuestMemory} {mappedEnd id : Nat} {a : GuestAllocation}
    (h : (memory.shrinkHeap mappedEnd).allocations.get? id = some a) :
    memory.allocations.get? id = some a := by
  unfold GuestMemory.shrinkHeap at h
  split at h
  · exact removeHeapVmas_sub h
  · have h' := dropUnreferencedAllocations_sub h
    simpa only [GuestMemory.removeKeys, splitVmaAt_allocations] using h'

theorem resizeHeap_framed (mappedEnd : Nat) : Framed ctx n (resizeHeap ctx mappedEnd) := by
  unfold resizeHeap
  refine Framed.getMem.bind fun memory => ?_
  refine Framed.ite (Framed.modifyMem fun _ _ _ h => removeHeapVmas_sub h) ?_
  refine Framed.ite (Framed.fail _) ?_
  refine (ensureHostAllocation_framed ctx n _ _).bind fun place => ?_
  refine Framed.bind (Framed.when (zeroAllocationRange_framed ctx n _ _ _)) fun _ => ?_
  refine Framed.bind (Framed.modifyMem_same ?_) fun _ => ?_
  · exact fun _ => rfl
  refine (ensureAllocationUnique_framed ctx n _).bind fun _ => ?_
  exact (expectAllocation_framed ctx n _).bind fun _ => protectRange_framed ctx n _ _ _

theorem moveHeapEnd_framed (oldMappedEnd newMappedEnd : Nat) :
    Framed ctx n (moveHeapEnd ctx oldMappedEnd newMappedEnd) := by
  unfold moveHeapEnd
  refine Framed.getMem.bind fun memory => Framed.ite ?_ ?_
  · exact Framed.ite (Framed.fail _) (resizeHeap_framed ctx n _)
  · exact Framed.when (Framed.modifyMem fun _ _ _ h => shrinkHeap_sub h)

theorem trySetBrk_framed (requested : Nat) : Framed ctx n (trySetBrk ctx requested) := by
  unfold trySetBrk
  refine (Framed.check _).bind fun newEnd => Framed.getMem.bind fun memory => ?_
  refine Framed.ite (Framed.fail _) ((moveHeapEnd_framed ctx n _ _).bind fun _ => ?_)
  exact Framed.modifyMem_same fun _ => rfl

theorem setBrk_framed (requested : Nat) : Framed ctx n (setBrk ctx requested) := by
  unfold setBrk
  refine Framed.getMem.bind fun memory => ?_
  refine Framed.ite (Framed.pure _) (Framed.ite (Framed.fail _) ?_)
  exact (trySetBrk_framed ctx n requested).bind fun _ => Framed.getMem.bind fun _ => Framed.pure _

theorem vmaAt_framed (address : Nat) : Framed ctx n (vmaAt address) := by
  unfold vmaAt
  refine Framed.getMem.bind fun memory => ?_
  cases memory.vmaContaining address with
  | none => exact Framed.fail _
  | some vma => exact Framed.pure vma

theorem allocationBytes_framed (allocationId offset len : Nat) :
    Framed ctx n (allocationBytes allocationId offset len) := by
  unfold allocationBytes
  refine (expectAllocation_framed ctx n _).bind fun allocation => ?_
  exact (sliceBytes_framed ctx n _ _ _).bind fun bytes => Framed.pure _

theorem copyGuestLoop_framed (access : AccessKind) (stop fuel cursor : Nat) (copied : List UInt8) :
    Framed ctx n (copyGuestLoop access stop fuel cursor copied) := by
  induction fuel generalizing cursor copied with
  | zero => exact Framed.pure _
  | succ fuel ih =>
      rw [copyGuestLoop]
      refine Framed.ite ?_ (Framed.pure _)
      refine (vmaAt_framed ctx n _).bind fun vma => (Framed.check _).bind fun _ => ?_
      exact (allocationBytes_framed ctx n _ _ _).bind fun _ => ih _ _

theorem copyGuest_framed (address len : Nat) (access : AccessKind) :
    Framed ctx n (copyGuest address len access) := by
  unfold copyGuest
  exact (Framed.check _).bind fun stop => copyGuestLoop_framed ctx n _ _ _ _ _

theorem recordExecutableWrite_framed : Framed ctx n recordExecutableWrite :=
  Framed.modifyMem_same fun _ => rfl

theorem writeGuestLoop_framed (stop fuel cursor : Nat) (bytes : List UInt8) (touched : Bool) :
    Framed ctx n (writeGuestLoop ctx stop fuel cursor bytes touched) := by
  induction fuel generalizing n cursor bytes touched with
  | zero => exact Framed.pure _
  | succ fuel ih =>
      rw [writeGuestLoop]
      refine Framed.ite ?_ (Framed.pure _)
      refine (vmaAt_framed ctx n _).bind fun _ => (Framed.check _).bind fun _ => ?_
      refine (ensureGuestPageRangeUnique_framed ctx n _ _).bind fun _ => (vmaAt_framed ctx n _).bind fun vma => ?_
      refine (allocationMemoryMut_framed ctx n _).bind fun arc harc => ?_
      refine (copyInto_framed ctx _ harc _ _ _).bind fun _ => Framed.ite ?_ (ih _ _ _ _)
      refine (expectAllocation_framed ctx _ _).bind fun _ => ?_
      exact (flushInstructionCacheRange_framed ctx _ _ _ _).bind fun _ => ih _ _ _ _

theorem writeGuest_framed (address : Nat) (bytes : List UInt8) :
    Framed ctx n (writeGuest ctx address bytes) := by
  unfold writeGuest
  refine (Framed.check _).bind fun stop => (writeGuestLoop_framed ctx n _ _ _ _ _).bind fun _ => ?_
  exact Framed.when (recordExecutableWrite_framed ctx n)

/-- The slice lent out lies in a host memory nobody else refers to, or is empty. -/
def FramedSlice (m : MemM (Option BorrowedSlice)) : Prop :=
  ∀ s, ArcsMade ctx s →
    wp m (fun place s' => (ArcsMade ctx s' ∧ Frame ctx s s') ∧
        ∀ p, place = some p → p.len ≠ 0 → ctx.others p.arc = 0)
      (fun _ s' => ArcsMade ctx s' ∧ Frame ctx s s') s

theorem Framed.bind_slice {α : Type} {m : MemM α} {f : α → MemM (Option BorrowedSlice)}
    (hm : Framed ctx 0 m) (hf : ∀ a, FramedSlice ctx (f a)) : FramedSlice ctx (m >>= f) := by
  intro s hs
  rw [wp_bind]
  refine wp_mono (hm s hs (Nat.zero_le _)) (fun a s' h => ?_) (fun _ _ h => h)
  refine wp_mono (hf a s' h.1) (fun _ _ h' => ?_) (fun _ _ h' => ?_)
  · exact ⟨⟨h'.1.1, h.2.trans h'.1.2⟩, h'.2⟩
  · exact ⟨h'.1, h.2.trans h'.2⟩

theorem lentSlice_framed (allocationId offset len : Nat) :
    FramedSlice ctx (do
      let arc ← allocationMemoryMut ctx allocationId
      let s ← Prog.get
      if offset + len ≤ (s.heap.object arc).len then pure (some ⟨arc, offset, len⟩) else abort) := by
  intro s hs
  rw [wp_bind]
  refine wp_mono (allocationMemoryMut_framed ctx 0 allocationId s hs (Nat.zero_le _))
    (fun arc s' h => ?_) (fun _ _ h => h)
  rw [wp_bind, wp_get, wp_ite]
  split
  · refine (wp_pure _).mpr ⟨h.1, fun p hp _ => ?_⟩
    obtain rfl := Option.some.inj hp
    exact h.2.1
  · exact wp_abort.mpr h.1

theorem sliceMutPlace_framed (address len : Nat) : FramedSlice ctx (sliceMutPlace ctx address len) := by
  unfold sliceMutPlace
  refine Framed.bind_slice ctx (Framed.check _) fun stop => ?_
  split
  · intro s hs
    refine (wp_pure _).mpr ⟨⟨hs, Frame.refl ctx s⟩, fun p hp hlen => absurd ?_ hlen⟩
    obtain rfl := Option.some.inj hp
    rfl
  refine Framed.bind_slice ctx (vmaAt_framed ctx 0 _) fun vma => ?_
  refine Framed.bind_slice ctx (Framed.check _) fun _ => ?_
  split
  · exact fun s hs => (wp_pure _).mpr ⟨⟨hs, Frame.refl ctx s⟩, fun p hp => absurd hp (by simp)⟩
  refine Framed.bind_slice ctx Framed.getMem fun memory => ?_
  refine Framed.bind_slice ctx (Framed.when (recordExecutableWrite_framed ctx 0)) fun _ => ?_
  refine Framed.bind_slice ctx (ensureGuestPageRangeUnique_framed ctx 0 _ _) fun _ => ?_
  exact Framed.bind_slice ctx (vmaAt_framed ctx 0 _) fun vma => lentSlice_framed ctx _ _ _

theorem fillBorrowed_framed {place : Option BorrowedSlice} (update : List UInt8 → List UInt8)
    (hplace : ∀ p, place = some p → p.len ≠ 0 → ctx.others p.arc = 0) :
    Framed ctx 0 (match place with
      | none => pure none
      | some place =>
        if place.len = 0 then pure (some [])
        else do
          let bytes ← sliceBytes place.arc place.offset (place.offset + place.len)
          let updated := (update bytes.toList).take place.len
          copyInto place.arc place.offset (place.offset + updated.length) (.ofList updated)
          pure (some bytes.toList)) := by
  cases place with
  | none => exact Framed.pure _
  | some p =>
      by_cases hp : p.len = 0
      · simp only [hp, if_true]
        exact Framed.pure _
      · simp only [hp, if_false]
        refine (sliceBytes_framed ctx 0 _ _ _).bind fun bytes => ?_
        exact (copyInto_framed ctx 0 (hplace p rfl hp) _ _ _).bind fun _ => Framed.pure _

theorem sliceMut_framed (address len : Nat) (update : List UInt8 → List UInt8) :
    Framed ctx n (sliceMut ctx address len update) := by
  intro s hs _
  unfold sliceMut
  rw [wp_bind]
  refine wp_mono (sliceMutPlace_framed ctx address len s hs) (fun place s' h => ?_) (fun _ _ h => h)
  refine wp_mono (fillBorrowed_framed ctx update h.2 s' h.1.1 (Nat.zero_le _)) (fun _ _ h' => ?_) (fun _ _ h' => ?_)
  all_goals exact ⟨h'.1, h.1.2.trans h'.2⟩

theorem patchCode_framed (address : Nat) (bytes : List UInt8) :
    Framed ctx n (patchCode ctx address bytes) := by
  unfold patchCode
  refine (Framed.check _).bind fun stop => (vmaAt_framed ctx n _).bind fun vma => ?_
  refine Framed.ite (Framed.fail _) ?_
  refine (ensureGuestPageRangeUnique_framed ctx n _ _).bind fun _ => (vmaAt_framed ctx n _).bind fun vma => ?_
  refine Framed.getMem.bind fun memory => (expectAllocation_framed ctx n _).bind fun allocation => ?_
  refine (protect_framed ctx n _).bind fun _ => (sliceBytes_framed ctx n _ _ _).bind fun old => ?_
  refine (allocationMemoryMut_framed ctx n _).bind fun arc harc => ?_
  refine (copyInto_framed ctx _ harc _ _ _).bind fun _ => ?_
  refine (expectAllocation_framed ctx _ _).bind fun _ => ?_
  refine (applyAllocationProtections_framed ctx _ _ _).bind fun _ => ?_
  exact (flushInstructionCacheRange_framed ctx _ _ _ _).bind fun _ => Framed.pure _

theorem patchTarget_framed (address len : Nat) : Framed ctx n (patchTarget address len) := by
  unfold patchTarget
  refine (Framed.check _).bind fun stop => (vmaAt_framed ctx n _).bind fun vma => ?_
  exact Framed.ite (Framed.fail _) (Framed.pure _)

theorem applyPatches_framed (len allocationId : Nat) (patches : List PlannedPatch) :
    Framed ctx n (applyPatches ctx len allocationId patches) := by
  unfold applyPatches
  refine Framed.getMem.bind fun memory => (expectAllocation_framed ctx n _).bind fun allocation => ?_
  refine (protect_framed ctx n _).bind fun _ => ?_
  refine Framed.bind (Framed.forEach (fun patch => ?_) _) fun _ => ?_
  · exact (allocationMemoryMut_framed ctx n _).bind fun arc harc => copyInto_framed ctx _ harc _ _ _
  refine (expectAllocation_framed ctx n _).bind fun _ => ?_
  refine (applyAllocationProtections_framed ctx n _ _).bind fun _ => ?_
  exact Framed.forEach (fun _ => flushInstructionCacheRange_framed ctx n _ _ _) _

theorem makePatchTargetsUnique_framed (len : Nat) (addresses : List Nat) :
    Framed ctx n (makePatchTargetsUnique ctx len addresses) := by
  unfold makePatchTargetsUnique
  refine Framed.getMem.bind fun memory => Framed.ite ?_ ?_
  · refine (Framed.collect (fun _ => patchTarget_framed ctx n _ _) _).bind fun targets => ?_
    exact Framed.forEach (fun _ => ensureAllocationUnique_framed ctx n _) _
  · refine Framed.forEach (fun address => ?_) _
    exact (patchTarget_framed ctx n _ _).bind fun _ => ensureGuestPageRangeUnique_framed ctx n _ _

theorem patchCodeFixed_framed (len : Nat) (patches : List (Nat × Vector UInt8 len)) :
    Framed ctx n (patchCodeFixed ctx len patches) := by
  unfold patchCodeFixed
  refine (makePatchTargetsUnique_framed ctx n _ _).bind fun _ => ?_
  refine Framed.bind (Framed.collect (fun patch => ?_) _) fun planned => ?_
  · exact (patchTarget_framed ctx n _ _).bind fun _ => Framed.pure _
  · exact Framed.forEach (fun _ => applyPatches_framed ctx n _ _ _) _

/-- No call changes a host memory that another guest memory refers to. -/
theorem exec_framed (op : Op) : Framed ctx n (op.exec ctx) := by
  cases op with
  | mmap args => exact (mmap_framed ctx n args).bind fun _ => Framed.pure _
  | munmap addr length => exact munmap_framed ctx n addr length
  | mprotect addr length prot => exact mprotect_framed ctx n addr length prot
  | setBrk requested => exact (setBrk_framed ctx n requested).bind fun _ => Framed.pure _
  | write address bytes => exact writeGuest_framed ctx n address bytes
  | sliceMut address len update => exact (sliceMut_framed ctx n address len update).bind fun _ => Framed.pure _
  | patchCode address bytes => exact (patchCode_framed ctx n address bytes).bind fun _ => Framed.pure _
  | patchCodeFixed len patches => exact patchCodeFixed_framed ctx n len patches
  | memset address value len =>
      exact (Framed.check _).bind fun _ => writeGuest_framed ctx n _ _
  | memmove destination source len =>
      exact (copyGuest_framed ctx n _ _ _).bind fun _ => writeGuest_framed ctx n _ _

end Functions

end Mcr.Memory
