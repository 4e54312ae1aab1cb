import Mcr.Memory.World

/-!
# What a guest can observe

A guest sees, at each address, whether it is mapped, and then a byte, a protection and a kind. How the
address space is cut into VMAs and host memories is not part of the view.
-/

namespace Mcr.Memory

open Prog

/-- One byte of the guest address space. -/
structure Cell where
  byte : UInt8
  protection : GuestMemoryProtection
  kind : GuestVmaKind
deriving DecidableEq, Repr

namespace Machine

variable (s : Machine)

def buffer (allocationId : Nat) : Option ByteBuf :=
  (s.mem.allocations.get? allocationId).map fun allocation => s.heap.object allocation.memory

/-- The byte a VMA shows at an address, when its allocation is live and reaches that far. -/
def byteAt (vma : GuestVma) (address : Nat) : Option UInt8 := do
  let buf ← s.buffer vma.allocationId
  if guestSliceOffset vma address < buf.len then some (buf.byte (guestSliceOffset vma address)) else none

/-- The flat view of the guest address space. -/
def cell (address : Nat) : Option Cell := do
  let vma ← s.mem.vmaContaining address
  let byte ← s.byteAt vma address
  pure ⟨byte, vma.protection, vma.kind⟩

structure Agree (s t : Machine) : Prop where
  vmas : s.mem.vmas = t.mem.vmas
  buffers : ∀ id, Option.Rel ByteBuf.Same (s.buffer id) (t.buffer id)

variable {s} {t : Machine}

theorem Agree.symm (h : Agree s t) : Agree t s := by
  refine ⟨h.vmas.symm, fun id => ?_⟩
  have hrel := h.buffers id
  generalize s.buffer id = b at hrel ⊢
  generalize t.buffer id = c at hrel ⊢
  cases hrel with
  | none => exact .none
  | some hsame => exact .some hsame.symm

theorem Agree.trans {u : Machine} (h : Agree s t) (h' : Agree t u) : Agree s u := by
  refine ⟨h.vmas.trans h'.vmas, fun id => ?_⟩
  have hrel := h.buffers id
  have hrel' := h'.buffers id
  generalize s.buffer id = b at hrel ⊢
  generalize t.buffer id = c at hrel hrel'
  generalize u.buffer id = d at hrel' ⊢
  cases hrel with
  | none =>
      cases hrel' with
      | none => exact .none
  | some hsame =>
      cases hrel' with
      | some hsame' => exact .some (hsame.trans hsame')

theorem Agree.vmaContaining (h : Agree s t) (address : Nat) :
    s.mem.vmaContaining address = t.mem.vmaContaining address := by
  unfold GuestMemory.vmaContaining
  rw [h.vmas]

theorem Agree.byteAt (h : Agree s t) (vma : GuestVma) (address : Nat) :
    s.byteAt vma address = t.byteAt vma address := by
  unfold Machine.byteAt
  have hrel := h.buffers vma.allocationId
  generalize s.buffer vma.allocationId = b at hrel ⊢
  generalize t.buffer vma.allocationId = c at hrel ⊢
  cases hrel with
  | none => rfl
  | some hsame =>
      simp only [Option.bind_eq_bind, Option.bind_some, ← hsame.len]
      split
      · rw [hsame.byte _ (by assumption)]
      · rfl

theorem Agree.cell (h : Agree s t) (address : Nat) : s.cell address = t.cell address := by
  unfold Machine.cell
  rw [h.vmaContaining address]
  cases t.mem.vmaContaining address with
  | none => rfl
  | some vma => simp only [Option.bind_eq_bind, Option.bind_some, h.byteAt vma address]

/-! ### Reading depends on the view alone -/

theorem vmaAt_run (s : Machine) (address : Nat) :
    vmaAt address s =
      (match s.mem.vmaContaining address with | none => .error (.error .notMapped) | some vma => .ok vma,
        s) := by
  have hget : getMem s = (.ok s.mem, s) := rfl
  unfold vmaAt
  rw [run_bind_ok hget]
  cases s.mem.vmaContaining address <;> rfl

theorem allocationBytes_run (s : Machine) (allocationId offset len : Nat) :
    allocationBytes allocationId offset len s =
      (match s.buffer allocationId with
        | some buf =>
          if offset + len ≤ buf.len then .ok (buf.extract offset len).toList else .error .panic
        | none => .error .panic, s) := by
  have hget : getMem s = (.ok s.mem, s) := rfl
  unfold allocationBytes buffer
  cases ha : s.mem.allocations.get? allocationId with
  | none =>
      have hexpect : expectAllocation allocationId s = (.error .panic, s) := by
        unfold expectAllocation
        rw [run_bind_ok hget, ha]
        rfl
      exact run_bind_error hexpect
  | some a =>
      have hexpect : expectAllocation allocationId s = (.ok a, s) := by
        unfold expectAllocation
        rw [run_bind_ok hget, ha]
        rfl
      have hstate : (Prog.get : MemM Machine) s = (.ok s, s) := rfl
      rw [run_bind_ok hexpect]
      simp only [Option.map_some]
      by_cases hlen : offset + len ≤ (s.heap.object a.memory).len
      · have hslice : sliceBytes a.memory offset (offset + len) s =
            (.ok ((s.heap.object a.memory).extract offset len), s) := by
          unfold sliceBytes
          rw [run_bind_ok hstate, if_pos ⟨Nat.le_add_right _ _, hlen⟩, Nat.add_sub_cancel_left]
          rfl
        rw [run_bind_ok hslice, if_pos hlen]
        rfl
      · have hslice : sliceBytes a.memory offset (offset + len) s = (.error .panic, s) := by
          unfold sliceBytes
          rw [run_bind_ok hstate, if_neg fun h => hlen h.2]
          rfl
        rw [run_bind_error hslice, if_neg hlen]

theorem Agree.vmaAt (h : Agree s t) (address : Nat) : Alike (vmaAt address) s t := by
  refine ⟨_, vmaAt_run s address, ?_⟩
  rw [vmaAt_run, h.vmaContaining address]

theorem Agree.check {α : Type} (x : Except GuestMemoryError α) : Alike (Memory.check x) s t := by
  cases x with
  | ok a => exact Alike.pure a
  | error e => exact Alike.throw _

theorem Agree.allocationBytes (h : Agree s t) (allocationId offset len : Nat) :
    Alike (allocationBytes allocationId offset len) s t := by
  refine ⟨_, allocationBytes_run s allocationId offset len, ?_⟩
  rw [allocationBytes_run]
  have hrel := h.buffers allocationId
  generalize s.buffer allocationId = b at hrel ⊢
  generalize t.buffer allocationId = c at hrel ⊢
  cases hrel with
  | none => rfl
  | some hsame =>
      simp only [← hsame.len]
      split
      · rw [ByteBuf.extract_toList_congr hsame (by assumption)]
      · rfl

theorem Agree.copyGuestLoop (h : Agree s t) (access : AccessKind) (stop fuel cursor : Nat)
    (copied : List UInt8) : Alike (copyGuestLoop access stop fuel cursor copied) s t := by
  induction fuel generalizing cursor copied with
  | zero => exact Alike.pure copied
  | succ fuel ih =>
      rw [Memory.copyGuestLoop]
      split
      · refine (h.vmaAt cursor).bind fun vma => (Agree.check _).bind fun _ => ?_
        exact (h.allocationBytes _ _ _).bind fun chunk => ih _ _
      · exact Alike.pure copied

theorem Agree.read (h : Agree s t) (address len : Nat) : Alike (read address len) s t :=
  (Agree.check _).bind fun _ => h.copyGuestLoop _ _ _ _ _

end Machine

end Mcr.Memory
