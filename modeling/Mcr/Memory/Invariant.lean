import Mcr.Memory.Rules

/-!
# The invariant of the two tables

`Wf` ties each VMA to the allocation it names: the VMA shows the guest range of the allocation that it
covers, so the byte behind a guest address depends on the allocation alone, not on the VMA's offset.
`Disjoint` is kept apart from it, since `Wf` survives even the one call that loses disjointness.
-/

namespace Mcr.Memory

/-- A VMA under its key, over a live allocation that reaches as far as it does. -/
structure VmaWf (s : Machine) (key : Nat) (vma : GuestVma) : Prop where
  key : key = vma.start
  nonempty : vma.start < vma.stop
  startAligned : Aligned vma.start
  stopAligned : Aligned vma.stop
  low : minGuestAddress ≤ vma.start
  high : vma.stop ≤ s.mem.addressSpaceEnd
  bounded : vma.stop < u64Limit
  heap : vma.kind = .heap → s.mem.brkBase ≤ vma.start
  linked : ∃ a, s.mem.allocations.get? vma.allocationId = some a ∧
    a.guestStart + vma.allocationOffset = vma.start ∧
    vma.stop ≤ a.guestStart + (s.heap.object a.memory).len

structure AllocationWf (s : Machine) (id : Nat) (a : GuestAllocation) : Prop where
  id : id < s.mem.nextAllocationId
  made : a.memory < s.heap.next
  nonempty : 0 < (s.heap.object a.memory).len
  bounded : a.guestStart + (s.heap.object a.memory).len < u64Limit
  placed : s.mem.hostAddressMode = .fixedGuest → a.guestStart ≠ 0

structure Wf (ctx : Context) (s : Machine) : Prop where
  vma : ∀ key vma, s.mem.vmas.get? key = some vma → VmaWf s key vma
  allocation : ∀ id a, s.mem.allocations.get? id = some a → AllocationWf s id a
  others : ∀ arc, 0 < ctx.others arc → arc < s.heap.next
  brkAligned : Aligned s.mem.brkBase
  brkLow : minGuestAddress ≤ s.mem.brkBase

/-- No address lies in two VMAs. -/
def GuestMemory.Disjoint (memory : GuestMemory) : Prop :=
  ∀ x key vma key' vma', memory.vmas.get? key = some vma → memory.vmas.get? key' = some vma' →
    vma.start ≤ x → x < vma.stop → vma'.start ≤ x → x < vma'.stop → key = key'

/-- Some VMA shows `x` with this protection and kind, out of this allocation. -/
def GuestMemory.Face (memory : GuestMemory) (x : Nat) (protection : GuestMemoryProtection)
    (kind : GuestVmaKind) (id : Nat) : Prop :=
  ∃ key vma, memory.vmas.get? key = some vma ∧ vma.start ≤ x ∧ x < vma.stop ∧
    vma.protection = protection ∧ vma.kind = kind ∧ vma.allocationId = id

def GuestAllocation.byteAt (a : GuestAllocation) (heap : HostHeap) (x : Nat) : UInt8 :=
  (heap.object a.memory).byte (x - a.guestStart)

/-- The view as a relation: what some VMA shows at `x`. -/
def Machine.Shows (s : Machine) (x : Nat) (c : Cell) : Prop :=
  ∃ id a, s.mem.Face x c.protection c.kind id ∧ s.mem.allocations.get? id = some a ∧
    c.byte = a.byteAt s.heap x

/-! ### Looking up an address -/

section Lookup

variable {ctx : Context} {s : Machine} {x : Nat} {vma : GuestVma}

theorem GuestMemory.vmaContaining_some {memory : GuestMemory} {x : Nat} {vma : GuestVma}
    (h : memory.vmaContaining x = some vma) :
    ∃ key, memory.vmas.get? key = some vma ∧ key ≤ x ∧ vma.start ≤ x ∧ x < vma.stop ∧
      ∀ j w, memory.vmas.get? j = some w → j ≤ x → j ≤ key := by
  unfold GuestMemory.vmaContaining at h
  split at h
  · rename_i key found hfind
    split at h
    · rename_i hcontains
      obtain rfl := Option.some.inj h
      have hrange : found.start ≤ x ∧ x < found.stop := by
        simpa [GuestVma.contains] using hcontains
      obtain ⟨hget, hkey, hlast⟩ := SortedMap.findLE?_eq_some_iff.mp hfind
      exact ⟨key, hget, hkey, hrange.1, hrange.2, hlast⟩
    · simp at h
  · simp at h

theorem GuestMemory.vmaContaining_of {memory : GuestMemory} {x : Nat} {vma : GuestVma} (key : Nat)
    (hget : memory.vmas.get? key = some vma) (hkey : key ≤ x)
    (hlast : ∀ j w, memory.vmas.get? j = some w → j ≤ x → j ≤ key) (hlow : vma.start ≤ x)
    (hhigh : x < vma.stop) : memory.vmaContaining x = some vma := by
  have hfind : memory.vmas.findLE? x = some (key, vma) :=
    SortedMap.findLE?_eq_some_iff.mpr ⟨hget, hkey, hlast⟩
  unfold GuestMemory.vmaContaining
  rw [hfind]
  simp [GuestVma.contains, hlow, hhigh]

theorem Wf.vma_of_containing (hwf : Wf ctx s) (h : s.mem.vmaContaining x = some vma) :
    s.mem.vmas.get? vma.start = some vma ∧ vma.start ≤ x ∧ x < vma.stop ∧ VmaWf s vma.start vma := by
  obtain ⟨key, hget, _, hlow, hhigh, _⟩ := GuestMemory.vmaContaining_some h
  have hv := hwf.vma key vma hget
  obtain rfl := hv.key
  exact ⟨hget, hlow, hhigh, hv⟩

theorem Wf.containing_of_vma (hwf : Wf ctx s) (hd : s.mem.Disjoint) {key : Nat}
    (hget : s.mem.vmas.get? key = some vma) (hlow : vma.start ≤ x) (hhigh : x < vma.stop) :
    s.mem.vmaContaining x = some vma := by
  have hkey := (hwf.vma key vma hget).key
  refine GuestMemory.vmaContaining_of key hget (hkey ▸ hlow) (fun j w hj hjx => ?_) hlow hhigh
  by_contra hlt
  have hj' := (hwf.vma j w hj).key
  have hne := (hwf.vma j w hj).nonempty
  have := hd j key vma j w hget hj (by omega) (by omega) (by omega) (by omega)
  omega

theorem VmaWf.byteAt {key : Nat} (h : VmaWf s key vma) (hlow : vma.start ≤ x) (hhigh : x < vma.stop) :
    ∃ a, s.mem.allocations.get? vma.allocationId = some a ∧ a.guestStart ≤ x ∧
      x < a.guestStart + (s.heap.object a.memory).len ∧
      s.byteAt vma x = some (a.byteAt s.heap x) := by
  obtain ⟨a, hget, hstart, hend⟩ := h.linked
  have hoffset : guestSliceOffset vma x = x - a.guestStart := by
    unfold guestSliceOffset
    omega
  refine ⟨a, hget, by omega, by omega, ?_⟩
  have hin : x - a.guestStart < (s.heap.object a.memory).len := by omega
  simp [Machine.byteAt, Machine.buffer, hget, hoffset, hin, GuestAllocation.byteAt]

theorem Wf.cell_of_containing (hwf : Wf ctx s) (h : s.mem.vmaContaining x = some vma) :
    ∃ a, s.mem.allocations.get? vma.allocationId = some a ∧
      s.cell x = some ⟨a.byteAt s.heap x, vma.protection, vma.kind⟩ := by
  obtain ⟨hget, hlow, hhigh, hv⟩ := hwf.vma_of_containing h
  obtain ⟨a, ha, _, _, hbyte⟩ := hv.byteAt hlow hhigh
  exact ⟨a, ha, by simp [Machine.cell, h, hbyte]⟩

theorem Wf.cell_eq_none_iff (hwf : Wf ctx s) : s.cell x = none ↔ s.mem.vmaContaining x = none := by
  cases h : s.mem.vmaContaining x with
  | none => simp [Machine.cell, h]
  | some vma =>
      obtain ⟨a, _, hcell⟩ := hwf.cell_of_containing h
      simp [hcell]

theorem Wf.cell_eq_some_iff (hwf : Wf ctx s) (hd : s.mem.Disjoint) {c : Cell} :
    s.cell x = some c ↔ s.Shows x c := by
  constructor
  · intro h
    cases hv : s.mem.vmaContaining x with
    | none => simp [Machine.cell, hv] at h
    | some vma =>
        obtain ⟨a, ha, hcell⟩ := hwf.cell_of_containing hv
        obtain ⟨hget, hlow, hhigh, _⟩ := hwf.vma_of_containing hv
        rw [hcell] at h
        obtain rfl := Option.some.inj h
        exact ⟨_, a, ⟨_, vma, hget, hlow, hhigh, rfl, rfl, rfl⟩, ha, rfl⟩
  · rintro ⟨id, a, ⟨key, vma, hget, hlow, hhigh, hprot, hkind, rfl⟩, ha, hbyte⟩
    obtain ⟨a', ha', hcell⟩ := hwf.cell_of_containing (hwf.containing_of_vma hd hget hlow hhigh)
    rw [ha] at ha'
    obtain rfl := Option.some.inj ha'
    rw [hcell, hprot, hkind, ← hbyte]

theorem cell_eq_of_shows {s' : Machine} (hwf : Wf ctx s) (hd : s.mem.Disjoint) {ctx' : Context}
    (hwf' : Wf ctx' s') (hd' : s'.mem.Disjoint) (h : ∀ c, s'.Shows x c ↔ s.Shows x c) :
    s'.cell x = s.cell x := by
  apply Option.ext
  intro c
  rw [hwf'.cell_eq_some_iff hd', hwf.cell_eq_some_iff hd]
  exact h c

theorem GuestMemory.Disjoint.vma_unique {memory : GuestMemory} (hd : memory.Disjoint)
    {key key' : Nat} {vma vma' : GuestVma} (hget : memory.vmas.get? key = some vma)
    (hget' : memory.vmas.get? key' = some vma') {x : Nat} (hlow : vma.start ≤ x) (hhigh : x < vma.stop)
    (hlow' : vma'.start ≤ x) (hhigh' : x < vma'.stop) : vma = vma' := by
  obtain rfl := hd x key vma key' vma' hget hget' hlow hhigh hlow' hhigh'
  exact Option.some.inj (hget.symm.trans hget')

end Lookup

/-! ### The same tables over other host memories -/

/-- Only the identities of the host memories differ. -/
structure Similar (s t : Machine) : Prop where
  mem : t.mem = { s.mem with allocations := t.mem.allocations }
  placed : ∀ id, Option.Rel (fun a b : GuestAllocation => b.guestStart = a.guestStart ∧
    ByteBuf.Same (s.heap.object a.memory) (t.heap.object b.memory))
    (s.mem.allocations.get? id) (t.mem.allocations.get? id)

namespace Similar

variable {ctx : Context} {s t u : Machine}

theorem refl (s : Machine) : Similar s s := by
  refine ⟨rfl, fun id => ?_⟩
  cases s.mem.allocations.get? id with
  | none => exact .none
  | some a => exact .some ⟨rfl, ByteBuf.Same.refl _⟩

theorem trans (h : Similar s t) (h' : Similar t u) : Similar s u := by
  refine ⟨by rw [h'.mem, h.mem], fun id => ?_⟩
  have hrel := h.placed id
  have hrel' := h'.placed id
  generalize s.mem.allocations.get? id = a at hrel ⊢
  generalize t.mem.allocations.get? id = b at hrel hrel'
  generalize u.mem.allocations.get? id = c at hrel' ⊢
  cases hrel with
  | none =>
      cases hrel' with
      | none => exact .none
  | some hab =>
      cases hrel' with
      | some hbc => exact .some ⟨hbc.1.trans hab.1, hab.2.trans hbc.2⟩

theorem vmas (h : Similar s t) : t.mem.vmas = s.mem.vmas := by rw [h.mem]

theorem get (h : Similar s t) {id : Nat} {a : GuestAllocation}
    (ha : s.mem.allocations.get? id = some a) :
    ∃ b, t.mem.allocations.get? id = some b ∧ b.guestStart = a.guestStart ∧
      ByteBuf.Same (s.heap.object a.memory) (t.heap.object b.memory) := by
  have hrel := h.placed id
  rw [ha] at hrel
  generalize t.mem.allocations.get? id = b at hrel ⊢
  cases hrel with
  | some hab => exact ⟨_, rfl, hab⟩

theorem get' (h : Similar s t) {id : Nat} {b : GuestAllocation}
    (hb : t.mem.allocations.get? id = some b) :
    ∃ a, s.mem.allocations.get? id = some a ∧ b.guestStart = a.guestStart ∧
      ByteBuf.Same (s.heap.object a.memory) (t.heap.object b.memory) := by
  have hrel := h.placed id
  rw [hb] at hrel
  generalize s.mem.allocations.get? id = a at hrel ⊢
  cases hrel with
  | some hab => exact ⟨_, rfl, hab⟩

theorem agree (h : Similar s t) : Machine.Agree s t := by
  refine ⟨h.vmas.symm, fun id => ?_⟩
  unfold Machine.buffer
  have hrel := h.placed id
  generalize s.mem.allocations.get? id = a at hrel ⊢
  generalize t.mem.allocations.get? id = b at hrel ⊢
  cases hrel with
  | none => exact .none
  | some hab => exact .some hab.2

theorem vmaWf (h : Similar s t) {key : Nat} {vma : GuestVma} (hv : VmaWf s key vma) :
    VmaWf t key vma := by
  obtain ⟨a, ha, hstart, hend⟩ := hv.linked
  obtain ⟨b, hb, hguest, hsame⟩ := h.get ha
  refine ⟨hv.key, hv.nonempty, hv.startAligned, hv.stopAligned, hv.low, ?_, hv.bounded, ?_, b, hb, ?_, ?_⟩
  · rw [h.mem]
    exact hv.high
  · rw [h.mem]
    exact hv.heap
  · rw [hguest]
    exact hstart
  · rw [hguest, ← hsame.len]
    exact hend

theorem wf (h : Similar s t) (hwf : Wf ctx s) (hnext : s.heap.next ≤ t.heap.next)
    (hmade : ∀ id b, t.mem.allocations.get? id = some b → b.memory < t.heap.next) : Wf ctx t := by
  refine ⟨fun key vma hget => ?_, fun id b hb => ?_, fun arc harc => ?_, ?_, ?_⟩
  · rw [h.vmas] at hget
    exact h.vmaWf (hwf.vma key vma hget)
  · obtain ⟨a, ha, hguest, hsame⟩ := h.get' hb
    have hwa := hwf.allocation id a ha
    refine ⟨?_, hmade id b hb, ?_, ?_, ?_⟩
    · rw [h.mem]
      exact hwa.id
    · rw [← hsame.len]
      exact hwa.nonempty
    · rw [hguest, ← hsame.len]
      exact hwa.bounded
    · rw [h.mem, hguest]
      exact hwa.placed
  · exact (hwf.others arc harc).trans_le hnext
  · rw [h.mem]
    exact hwf.brkAligned
  · rw [h.mem]
    exact hwf.brkLow

theorem face (h : Similar s t) {x : Nat} {protection : GuestMemoryProtection} {kind : GuestVmaKind}
    {id : Nat} : t.mem.Face x protection kind id ↔ s.mem.Face x protection kind id := by
  unfold GuestMemory.Face
  rw [h.vmas]

theorem disjoint (h : Similar s t) (hd : s.mem.Disjoint) : t.mem.Disjoint := by
  unfold GuestMemory.Disjoint
  rw [h.vmas]
  exact hd

theorem cell (h : Similar s t) (x : Nat) : t.cell x = s.cell x := (h.agree.cell x).symm

end Similar

end Mcr.Memory
