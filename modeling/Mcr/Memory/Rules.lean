import Mcr.Memory.View

/-!
# Proof rules for the primitives

One rule for each primitive that touches a table or a host memory. A rule with a side condition is
stated for the exit the condition leads to; the callers establish it from the invariant and never
unfold the primitive.
-/

namespace Mcr.Memory

open Prog

variable {ctx : Context} {s : Machine} {E : Abort → Machine → Prop}

/-- The heap after a granted allocation. -/
structure HostHeap.Allocated (heap heap' : HostHeap) (len : Nat) : Prop where
  object : heap'.object = (heap.set heap.next (.zeros len)).object
  next : heap'.next = heap.next + 1

/-- Why an allocation failed. -/
def AllocationRefused (ctx : Context) (site : AllocSite) (start len : Nat) (mode : HostAddressMode)
    (error : HostError) : Prop :=
  len = 0 ∨ (mode = .fixedGuest ∧ start = 0) ∨ ∃ n, ctx.refusal n site = some error

theorem wp_allocateGuestHostMemoryAt {site : AllocSite} {start len : Nat} {mode : HostAddressMode}
    {Q : ArcId → Machine → Prop}
    (hQ : ∀ heap', s.heap.Allocated heap' len → 0 < len → (mode = .fixedGuest → start ≠ 0) →
      Q s.heap.next ⟨s.mem, heap'⟩)
    (hE : ∀ error heap', AllocationRefused ctx site start len mode error →
      heap'.object = s.heap.object → heap'.next = s.heap.next → E (.error (.host error)) ⟨s.mem, heap'⟩) :
    (allocateGuestHostMemoryAt ctx site start len mode).wp Q E s := by
  unfold allocateGuestHostMemoryAt
  split
  · exact (wp_fail _).mpr (hE _ _ (.inr (.inl (by assumption))) rfl rfl)
  · rename_i hplaced
    rw [allocateHostMemory, wp_bind, wp_get, wp_ite]
    split
    · exact (wp_fail _).mpr (hE _ _ (.inl (by assumption)) rfl rfl)
    · rw [wp_bind, wp_modify]
      cases hrefusal : ctx.refusal s.heap.calls site with
      | some error => exact (wp_fail _).mpr (hE _ _ (.inr (.inr ⟨_, hrefusal⟩)) rfl rfl)
      | none =>
          rw [wp_bind, wp_modify, wp_pure]
          exact hQ _ ⟨rfl, rfl⟩ (Nat.pos_of_ne_zero (by assumption)) fun hm hs => hplaced ⟨hm, hs⟩

theorem wp_protectRange {arc : ArcId} {offset len : Nat} {Q : Unit → Machine → Prop} :
    (protectRange arc offset len).wp Q E s ↔
      if len = 0 ∨ offset + len > (s.heap.object arc).len then
        E (.error (.host (.invalidInput .protectMemory))) s
      else Q () s := by
  rw [protectRange, wp_bind, wp_get, wp_ite]
  simp only [wp_fail, wp_pure]

theorem wp_protectRange_ok {arc : ArcId} {offset len : Nat} {Q : Unit → Machine → Prop}
    (hlen : 0 < len) (hend : offset + len ≤ (s.heap.object arc).len) (hQ : Q () s) :
    (protectRange arc offset len).wp Q E s := by
  rw [wp_protectRange, if_neg (by omega)]
  exact hQ

theorem wp_protect {arc : ArcId} {Q : Unit → Machine → Prop} :
    (protect arc).wp Q E s ↔
      if (s.heap.object arc).len = 0 then E (.error (.host (.invalidInput .protectMemory))) s
      else Q () s := by
  rw [protect, wp_bind, wp_get, wp_protectRange]
  simp

theorem wp_flushInstructionCacheRange {arc : ArcId} {offset len : Nat} {Q : Unit → Machine → Prop} :
    (flushInstructionCacheRange arc offset len).wp Q E s ↔
      if len = 0 ∨ offset + len > (s.heap.object arc).len then
        E (.error (.host (.invalidInput .flushInstructionCache))) s
      else Q () s := by
  rw [flushInstructionCacheRange, wp_bind, wp_get, wp_ite]
  simp only [wp_fail, wp_pure]

/-- Every range of a list is non-empty and within a host memory of length `len`. -/
def RangesWithin (len : Nat) (ranges : List AllocationProtectionRange) : Prop :=
  ∀ range ∈ ranges, 0 < range.len ∧ range.offset + range.len ≤ len

theorem wp_applyAllocationProtections {arc : ArcId} {ranges : List AllocationProtectionRange}
    {Q : Unit → Machine → Prop} (hQ : Q () s)
    (hE : E (.error (.host (.invalidInput .protectMemory))) s ∨
      RangesWithin (s.heap.object arc).len ranges) :
    (applyAllocationProtections arc ranges).wp Q E s := by
  unfold applyAllocationProtections
  refine wp_mono (wp_forEach (I := fun rest s' => s' = s ∧ ∀ range ∈ rest, range ∈ ranges) (E := E)
    (fun range rest s' h => ?_) ranges s ⟨rfl, fun _ h => h⟩) (fun _ s' h => ?_) (fun _ _ h => h)
  · obtain ⟨rfl, hmem⟩ := h
    rw [wp_protectRange]
    split
    · rcases hE with hE | hE
      · exact hE
      · have := hE range (hmem range (by simp))
        omega
    · exact ⟨rfl, fun r hr => hmem r (List.mem_cons_of_mem _ hr)⟩
  · exact h.1 ▸ hQ

theorem wp_sliceBytes {arc : ArcId} {start stop : Nat} {Q : ByteBuf → Machine → Prop} :
    (sliceBytes arc start stop).wp Q E s ↔
      if start ≤ stop ∧ stop ≤ (s.heap.object arc).len then
        Q ((s.heap.object arc).extract start (stop - start)) s
      else E .panic s := by
  rw [sliceBytes, wp_bind, wp_get, wp_ite]
  simp only [wp_abort, wp_pure]

theorem wp_copyInto {arc : ArcId} {start stop : Nat} {bytes : ByteBuf} {Q : Unit → Machine → Prop} :
    (copyInto arc start stop bytes).wp Q E s ↔
      if start ≤ stop ∧ stop ≤ (s.heap.object arc).len ∧ bytes.len = stop - start then
        Q () { s with heap := s.heap.set arc ((s.heap.object arc).blit start bytes) }
      else E .panic s := by
  rw [copyInto, wp_bind, wp_get, wp_ite]
  simp only [wp_abort, wp_modify]

theorem wp_zeroFill {arc : ArcId} {start stop : Nat} {Q : Unit → Machine → Prop} :
    (zeroFill arc start stop).wp Q E s ↔
      if start ≤ stop ∧ stop ≤ (s.heap.object arc).len then
        Q () { s with heap := s.heap.set arc ((s.heap.object arc).fill start (stop - start) 0) }
      else E .panic s := by
  rw [zeroFill, wp_bind, wp_get, wp_ite]
  simp only [wp_abort, wp_modify]

theorem wp_guardedBytes {arc : ArcId} {ranges : List AllocationProtectionRange} {start stop : Nat}
    {Q : ByteBuf → Machine → Prop} (hranges : RangesWithin (s.heap.object arc).len ranges)
    (hle : start ≤ stop) (hpos : 0 < (s.heap.object arc).len) (hstop : stop ≤ (s.heap.object arc).len)
    (hQ : Q ((s.heap.object arc).extract start (stop - start)) s) :
    (guardedBytes arc ranges start stop).wp Q E s := by
  rw [guardedBytes, wp_bind, wp_protect, if_neg (by omega), wp_bind, wp_sliceBytes,
    if_pos ⟨hle, hstop⟩, wp_bind]
  exact wp_applyAllocationProtections ((wp_pure _).mpr hQ) (.inr hranges)

theorem wp_expectAllocation {allocationId : Nat} {Q : GuestAllocation → Machine → Prop} :
    (expectAllocation allocationId).wp Q E s ↔
      match s.mem.allocations.get? allocationId with
      | some allocation => Q allocation s
      | none => E .panic s := by
  rw [expectAllocation, wp_bind, wp_getMem]
  cases s.mem.allocations.get? allocationId with
  | some allocation => exact wp_pure _
  | none => exact wp_abort

theorem wp_expectAllocation_ok {allocationId : Nat} {allocation : GuestAllocation}
    {Q : GuestAllocation → Machine → Prop} (h : s.mem.allocations.get? allocationId = some allocation)
    (hQ : Q allocation s) : (expectAllocation allocationId).wp Q E s := by
  rw [wp_expectAllocation, h]
  exact hQ

@[simp] theorem wp_setAllocation {allocationId : Nat} {allocation : GuestAllocation}
    {Q : Unit → Machine → Prop} :
    (setAllocation allocationId allocation).wp Q E s ↔
      Q () { s with mem := { s.mem with allocations := s.mem.allocations.insert allocationId allocation } } :=
  wp_modifyMem _

theorem wp_insertAllocation {guestStart : Nat} {arc : ArcId} {Q : Nat → Machine → Prop} :
    (insertAllocation guestStart arc).wp Q E s ↔
      if s.mem.nextAllocationId + 1 < u64Limit then
        Q s.mem.nextAllocationId
          { s with mem :=
              { s.mem with
                nextAllocationId := s.mem.nextAllocationId + 1
                allocations := s.mem.allocations.insert s.mem.nextAllocationId ⟨guestStart, arc⟩ } }
      else E (.error .outOfMemory) s := by
  rw [insertAllocation, wp_bind, wp_getMem]
  unfold checkedAdd
  split
  · rename_i h
    split at h
    · simp at h
    · rw [wp_fail, if_neg (by assumption)]
  · rename_i next h
    split at h
    · obtain rfl := Option.some.inj h
      rw [if_pos (by assumption), wp_bind, wp_modifyMem, wp_bind, wp_setAllocation, wp_pure]
    · simp at h

theorem wp_vmaAt {address : Nat} {Q : GuestVma → Machine → Prop} :
    (vmaAt address).wp Q E s ↔
      match s.mem.vmaContaining address with
      | none => E (.error .notMapped) s
      | some vma => Q vma s := by
  rw [vmaAt, wp_bind, wp_getMem]
  cases s.mem.vmaContaining address with
  | none => exact wp_fail _
  | some vma => exact wp_pure _

theorem wp_allocationBytes {allocationId offset len : Nat} {Q : List UInt8 → Machine → Prop} :
    (allocationBytes allocationId offset len).wp Q E s ↔
      match s.buffer allocationId with
      | some buf => if offset + len ≤ buf.len then Q (buf.extract offset len).toList s else E .panic s
      | none => E .panic s := by
  rw [allocationBytes, wp_bind, wp_expectAllocation, Machine.buffer]
  cases s.mem.allocations.get? allocationId with
  | none => exact Iff.rfl
  | some allocation =>
      simp only [Option.map_some, wp_bind, wp_sliceBytes, wp_pure, Nat.le_add_right, true_and,
        Nat.add_sub_cancel_left]

/-! ### A copy in a new host memory -/

/-- The host memories there were are as they were. -/
structure HostHeap.Extends (heap heap' : HostHeap) : Prop where
  next : heap.next ≤ heap'.next
  object : ∀ arc < heap.next, heap'.object arc = heap.object arc

theorem HostHeap.Extends.trans {h h' h'' : HostHeap} (e : h.Extends h') (e' : h'.Extends h'') :
    h.Extends h'' :=
  ⟨e.next.trans e'.next, fun arc harc => (e'.object arc (harc.trans_le e.next)).trans (e.object arc harc)⟩

theorem wp_allocateCopy {site : AllocSite} {start len : Nat} {mode : HostAddressMode} {bytes : ByteBuf}
    {β : Type} {next : ArcId → MemM β} {Q : β → Machine → Prop} (hlen : bytes.len = len)
    (hQ : ∀ heap', s.heap.Extends heap' → heap'.next = s.heap.next + 1 →
      ByteBuf.Same bytes (heap'.object s.heap.next) → (next s.heap.next).wp Q E ⟨s.mem, heap'⟩)
    (hE : ∀ error heap', AllocationRefused ctx site start len mode error → s.heap.Extends heap' →
      E (.error (.host error)) ⟨s.mem, heap'⟩) :
    (allocateGuestHostMemoryAt ctx site start len mode >>= fun arc =>
      copyInto arc 0 len bytes >>= fun _ => next arc).wp Q E s := by
  rw [wp_bind]
  refine wp_allocateGuestHostMemoryAt (fun heap' halloc _ _ => ?_) (fun error heap' hrefused hobj hnext => ?_)
  · have hnew : heap'.object s.heap.next = .zeros len := by
      rw [halloc.object]
      simp [HostHeap.set]
    rw [wp_bind, wp_copyInto, if_pos ⟨Nat.zero_le _, by rw [hnew]; exact le_rfl, hlen⟩]
    refine hQ _ ⟨?_, fun arc harc => ?_⟩ halloc.next ?_
    · show s.heap.next ≤ heap'.next
      rw [halloc.next]
      exact Nat.le_succ _
    · have hne : arc ≠ s.heap.next := harc.ne
      show (heap'.set _ _).object arc = _
      simp [HostHeap.set, hne, halloc.object]
    · have hcopy : (heap'.set s.heap.next ((heap'.object s.heap.next).blit 0 bytes)).object s.heap.next =
          (ByteBuf.zeros len).blit 0 bytes := by
        simp only [HostHeap.set, if_true, hnew]
      show ByteBuf.Same bytes ((heap'.set _ _).object _)
      rw [hcopy]
      refine ⟨hlen, fun i hi => ?_⟩
      rw [ByteBuf.blit_byte, if_pos ⟨Nat.zero_le i, by omega⟩, Nat.sub_zero]
  · exact hE error heap' hrefused ⟨hnext.ge, fun arc _ => by rw [hobj]⟩

end Mcr.Memory
