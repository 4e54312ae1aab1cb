import Mcr.Memory.Merge

/-!
# Writing through one allocation

A store goes to a host memory with a single reference, so it changes the bytes of one allocation and
of no other.
-/

namespace Mcr.Memory

open Prog

/-- Only the bytes of the allocation `id` differ: they are now `f`. -/
structure Rewritten (s t : Machine) (id : Nat) (f : Nat → UInt8) : Prop where
  mem : t.mem = { s.mem with allocations := t.mem.allocations }
  placed : ∀ id', Option.Rel (fun a b : GuestAllocation => b.guestStart = a.guestStart ∧
    (t.heap.object b.memory).len = (s.heap.object a.memory).len ∧
    ∀ x, a.Covers s.heap x → b.byteAt t.heap x = if id' = id then f x else a.byteAt s.heap x)
    (s.mem.allocations.get? id') (t.mem.allocations.get? id')

namespace Rewritten

variable {ctx : Context} {s t : Machine} {id : Nat} {f : Nat → UInt8}

theorem vmas (h : Rewritten s t id f) : t.mem.vmas = s.mem.vmas := by rw [h.mem]

theorem layout (h : Rewritten s t id f) : SameLayout s.mem t.mem := by
  rw [h.mem]
  exact ⟨rfl, rfl, rfl, rfl, rfl, le_rfl⟩

theorem get (h : Rewritten s t id f) {id' : Nat} {a : GuestAllocation}
    (ha : s.mem.allocations.get? id' = some a) :
    ∃ b, t.mem.allocations.get? id' = some b ∧ b.guestStart = a.guestStart ∧
      (t.heap.object b.memory).len = (s.heap.object a.memory).len ∧
      ∀ x, a.Covers s.heap x → b.byteAt t.heap x = if id' = id then f x else a.byteAt s.heap x := by
  have hrel := h.placed id'
  rw [ha] at hrel
  generalize t.mem.allocations.get? id' = b at hrel ⊢
  cases hrel with
  | some hab => exact ⟨_, rfl, hab⟩

theorem shown (h : Rewritten s t id f) (hwf : Wf ctx s) {x key : Nat} {v : GuestVma} {a : GuestAllocation}
    (hv : s.mem.vmas.get? key = some v) (hlow : v.start ≤ x) (hhigh : x < v.stop)
    (ha : s.mem.allocations.get? v.allocationId = some a) :
    ∃ b, t.mem.allocations.get? v.allocationId = some b ∧
      b.byteAt t.heap x = if v.allocationId = id then f x else a.byteAt s.heap x := by
  obtain ⟨a', ha', hstart, hend, _⟩ := (hwf.vma key v hv).byteAt hlow hhigh
  obtain rfl := Option.some.inj (ha.symm.trans ha')
  obtain ⟨b, hb, _, _, hbyte⟩ := h.get ha
  exact ⟨b, hb, hbyte x ⟨hstart, hend⟩⟩

theorem shows (h : Rewritten s t id f) (hwf : Wf ctx s) {x : Nat} {c : Cell} :
    t.Shows x c ↔ ∃ key v a, s.mem.vmas.get? key = some v ∧ v.start ≤ x ∧ x < v.stop ∧
      s.mem.allocations.get? v.allocationId = some a ∧
      c = ⟨if v.allocationId = id then f x else a.byteAt s.heap x, v.protection, v.kind⟩ := by
  rw [Machine.shows_iff]
  constructor
  · rintro ⟨key, v, b, hv, hlow, hhigh, hb, rfl⟩
    rw [h.vmas] at hv
    obtain ⟨a, ha, _⟩ := (hwf.vma key v hv).linked
    obtain ⟨b', hb', hbyte⟩ := h.shown hwf hv hlow hhigh ha
    obtain rfl := Option.some.inj (hb.symm.trans hb')
    exact ⟨key, v, a, hv, hlow, hhigh, ha, by rw [hbyte]⟩
  · rintro ⟨key, v, a, hv, hlow, hhigh, ha, rfl⟩
    obtain ⟨b, hb, hbyte⟩ := h.shown hwf hv hlow hhigh ha
    exact ⟨key, v, b, by rw [h.vmas]; exact hv, hlow, hhigh, hb, by rw [hbyte]⟩

theorem disjoint (h : Rewritten s t id f) (hd : s.mem.Disjoint) : t.mem.Disjoint :=
  (SameSpans.of_eq h.vmas).disjoint hd

end Rewritten

theorem Similar.store {ctx : Context} {s t : Machine} {id : Nat} {a a' : GuestAllocation}
    {f : Nat → UInt8} (h : Similar s t) (buf : ByteBuf) (hwf' : Wf ctx t)
    (ha : s.mem.allocations.get? id = some a) (ha' : t.mem.allocations.get? id = some a')
    (hcount : strongCount ctx t.mem a'.memory = 1) (hlen : buf.len = (t.heap.object a'.memory).len)
    (hbyte : ∀ x, a.Covers s.heap x → buf.byte (x - a.guestStart) = f x) :
    Rewritten s { t with heap := t.heap.set a'.memory buf } id f ∧
      Wf ctx { t with heap := t.heap.set a'.memory buf } := by
  have hrewritten : Rewritten s { t with heap := t.heap.set a'.memory buf } id f := by
    refine ⟨h.mem, fun id' => ?_⟩
    show Option.Rel _ _ (t.mem.allocations.get? id')
    cases hs : s.mem.allocations.get? id' with
    | none =>
        have hrel := h.placed id'
        rw [hs] at hrel
        generalize t.mem.allocations.get? id' = b at hrel ⊢
        cases hrel with
        | none => exact .none
    | some b =>
        obtain ⟨b', hb', hguest, hsame⟩ := h.get hs
        rw [hb']
        by_cases hid : id' = id
        · subst hid
          obtain rfl := Option.some.inj (ha.symm.trans hs)
          obtain rfl := Option.some.inj (ha'.symm.trans hb')
          refine .some ⟨hguest, ?_, fun x hx => ?_⟩
          · show ((t.heap.set a'.memory buf).object a'.memory).len = _
            simp only [HostHeap.set, if_true, hlen, hsame.len]
          · rw [if_pos rfl, ← hbyte x hx]
            show ((t.heap.set a'.memory buf).object a'.memory).byte (x - a'.guestStart) = _
            simp only [HostHeap.set, if_true, hguest]
        · -- the allocation under another id has another host memory
          have hne : b'.memory ≠ a'.memory := fun heq => hid (strongCount_unique ha' hcount hb' heq)
          have hobj : (t.heap.set a'.memory buf).object b'.memory = t.heap.object b'.memory := by
            simp [HostHeap.set, hne]
          refine .some ⟨hguest, ?_, fun x hx => ?_⟩
          · show ((t.heap.set a'.memory buf).object b'.memory).len = _
            rw [hobj, hsame.len]
          · rw [if_neg hid]
            show ((t.heap.set a'.memory buf).object b'.memory).byte (x - b'.guestStart) = _
            rw [hobj, hguest]
            exact (hsame.byte _ (by unfold GuestAllocation.Covers at hx; omega)).symm
  refine ⟨hrewritten, ?_⟩
  -- the store keeps every length
  have hlens : ∀ arc, ((t.heap.set a'.memory buf).object arc).len = (t.heap.object arc).len := by
    intro arc
    unfold HostHeap.set
    by_cases harc : arc = a'.memory
    · simp [harc, hlen]
    · simp [harc]
  refine ⟨fun key v hv => ?_, fun id' b hb => ?_, hwf'.others, hwf'.brkAligned, hwf'.brkLow⟩
  · have hwv := hwf'.vma key v hv
    obtain ⟨b, hb, hstart, hend⟩ := hwv.linked
    refine ⟨hwv.key, hwv.nonempty, hwv.startAligned, hwv.stopAligned, hwv.low, hwv.high, hwv.bounded,
      hwv.heap, b, hb, hstart, ?_⟩
    show v.stop ≤ b.guestStart + ((t.heap.set a'.memory buf).object b.memory).len
    rw [hlens]
    exact hend
  · have hwb := hwf'.allocation id' b hb
    refine ⟨hwb.id, hwb.made, ?_, ?_, hwb.placed⟩
    · show 0 < ((t.heap.set a'.memory buf).object b.memory).len
      rw [hlens]
      exact hwb.nonempty
    · show b.guestStart + ((t.heap.set a'.memory buf).object b.memory).len < u64Limit
      rw [hlens]
      exact hwb.bounded

/-! ### `zero_allocation_range` -/

section Zero

variable {ctx : Context} {s : Machine} {id : Nat} {a : GuestAllocation}

/-- The bytes of an allocation with a range of guest addresses zeroed. -/
def zeroed (heap : HostHeap) (a : GuestAllocation) (start stop : Nat) (x : Nat) : UInt8 :=
  if start ≤ x ∧ x < stop then 0 else a.byteAt heap x

theorem zeroAllocationRange_spec (hwf : Wf ctx s) (ha : s.mem.allocations.get? id = some a)
    {offset len : Nat} (hlen : offset + len ≤ (s.heap.object a.memory).len) :
    (zeroAllocationRange ctx id offset len).wp
      (fun _ s' => Rewritten s s' id (zeroed s.heap a (a.guestStart + offset) (a.guestStart + offset + len)) ∧
        Wf ctx s' ∧ Exclusive ctx s' id)
      (fun e s' => (Similar s s' ∧ Wf ctx s') ∧ RefusedAt ctx .unique e ∧ ¬ Exclusive ctx s id) s := by
  rw [zeroAllocationRange, wp_bind, wp_getMem, wp_bind]
  refine wp_mono (ensureAllocationUnique_spec hwf ha) (fun _ t h => ?_) (fun _ _ h => h)
  obtain ⟨⟨hsim, hwft⟩, hexcl⟩ := h
  obtain ⟨a', ha', hcount⟩ := hexcl
  obtain ⟨b, hb, hguest, hsame⟩ := hsim.get ha
  obtain rfl := Option.some.inj (ha'.symm.trans hb)
  have hnonempty := (hwft.allocation _ _ ha').nonempty
  have hlen' : (t.heap.object a'.memory).len = (s.heap.object a.memory).len := hsame.len.symm
  rw [wp_bind]
  refine wp_expectAllocation_ok ha' ?_
  rw [wp_bind, wp_protect, if_neg (by omega), wp_bind]
  refine allocationMemoryMut_exclusive ha' hcount ?_
  rw [wp_bind, wp_zeroFill, if_pos ⟨Nat.le_add_right _ _, by omega⟩, wp_bind, Nat.add_sub_cancel_left]
  obtain ⟨hrewritten, hwf'⟩ := hsim.store ((t.heap.object a'.memory).fill offset len 0) hwft ha ha' hcount
    (f := zeroed s.heap a (a.guestStart + offset) (a.guestStart + offset + len)) rfl (fun x hx => by
      unfold GuestAllocation.Covers at hx
      rw [ByteBuf.fill_byte, zeroed]
      by_cases hin : a.guestStart + offset ≤ x ∧ x < a.guestStart + offset + len
      · rw [if_pos hin, if_pos (by omega)]
      · rw [if_neg hin, if_neg (by omega)]
        exact (hsame.byte _ (by omega)).symm)
  refine wp_expectAllocation_ok (s := { t with heap := _ }) ha' ?_
  refine wp_applyAllocationProtections ⟨hrewritten, hwf', a', ha', hcount⟩ (.inr ?_)
  show RangesWithin ((t.heap.set a'.memory _).object a'.memory).len _
  simp only [HostHeap.set, if_true, ByteBuf.fill_len, hlen']
  exact hwf.rangesWithin ha

/-- Outside the zeroed range a VMA shows the byte of its host memory, old or new. -/
theorem Housed.shown_zeroed {t u : Machine} {start stop lo hi : Nat} {ids : List Nat} {home : Nat → UInt8}
    (h : Housed ctx s t start stop ids home id a) (hzero : Rewritten t u id (zeroed t.heap a lo hi))
    {x key : Nat} {v : GuestVma} {b : GuestAllocation} (hv : s.mem.vmas.get? key = some v)
    (hlow : v.start ≤ x) (hhigh : x < v.stop) (hb : s.mem.allocations.get? v.allocationId = some b)
    (hout : v.stop ≤ lo ∨ hi ≤ v.start) :
    ∃ b', u.mem.vmas.get? key = some (rehome ids id a v) ∧
      u.mem.allocations.get? (rehome ids id a v).allocationId = some b' ∧
      b'.byteAt u.heap x = if v.allocationId ∈ ids then home x else b.byteAt s.heap x := by
  have hvt : t.mem.vmas.get? key = some (rehome ids id a v) := by
    rw [h.vmas key, hv]
    rfl
  have hspan := rehome_span ids id a v
  obtain ⟨b₁, hb₁, hbyte₁⟩ := h.shown hv hlow hhigh hb
  obtain ⟨b₂, hb₂, hbyte₂⟩ := hzero.shown (x := x) h.wf hvt (by rw [hspan.start]; exact hlow)
    (by rw [hspan.stop]; exact hhigh) hb₁
  refine ⟨b₂, by rw [hzero.vmas]; exact hvt, hb₂, ?_⟩
  rw [hbyte₂, ← hbyte₁]
  split
  · rename_i hid
    rw [hid, h.get] at hb₁
    obtain rfl := Option.some.inj hb₁
    rw [zeroed, if_neg (by omega)]
  · rfl

end Zero

end Mcr.Memory
