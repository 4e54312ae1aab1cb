import Mcr.Memory.Tables

/-!
# A host memory of its own

What copy-on-write guarantees: an allocation whose host memory has one reference, the same view before
and after, and errors only when the host refuses the copy or the ids run out.
-/

namespace Mcr.Memory

open Prog

def Exclusive (ctx : Context) (s : Machine) (id : Nat) : Prop :=
  ∃ a, s.mem.allocations.get? id = some a ∧ strongCount ctx s.mem a.memory = 1

/-- The host refused a request made at `site`. -/
def RefusedAt (ctx : Context) (site : AllocSite) (e : Abort) : Prop :=
  ∃ n error, ctx.refusal n site = some error ∧ e = .error (.host error)

section References

variable {ctx : Context} {s : Machine} {id : Nat} {a : GuestAllocation}

theorem strongCount_unique (ha : s.mem.allocations.get? id = some a)
    (hcount : strongCount ctx s.mem a.memory = 1) {id' : Nat} {a' : GuestAllocation}
    (ha' : s.mem.allocations.get? id' = some a') (hsame : a'.memory = a.memory) : id' = id := by
  have hpos : 0 < s.mem.ownCount a.memory :=
    List.countP_pos_iff.mpr ⟨a, SortedMap.mem_values.mpr ⟨id, ha⟩, by simp⟩
  have hone : s.mem.ownCount a.memory = 1 := by
    unfold strongCount at hcount
    omega
  exact SortedMap.unique_of_countP_values_eq_one hone ha (by simp) ha' (by simpa using hsame)

/-- A host memory that nobody else refers to, put under one id only. -/
theorem strongCount_fresh {memory : GuestMemory} {arc : ArcId} (hothers : ctx.others arc = 0)
    (ha : memory.allocations.get? id = some a) (harc : a.memory = arc)
    (hown : ∀ id' a', memory.allocations.get? id' = some a' → a'.memory = arc → id' = id) :
    strongCount ctx memory arc = 1 := by
  have hone : memory.ownCount arc = 1 :=
    SortedMap.countP_values_eq_one ha (by simpa using harc) fun id' a' ha' h' =>
      hown id' a' ha' (by simpa using h')
  unfold strongCount
  omega

theorem Wf.others_next (hwf : Wf ctx s) : ctx.others s.heap.next = 0 := by
  by_contra h
  exact absurd (hwf.others _ (Nat.pos_of_ne_zero h)) (lt_irrefl _)

theorem Wf.rangesWithin (hwf : Wf ctx s) (ha : s.mem.allocations.get? id = some a) :
    RangesWithin (s.heap.object a.memory).len (s.mem.allocationProtectionRanges id) := by
  intro range hrange
  obtain ⟨vma, hmem, rfl⟩ := List.mem_map.mp hrange
  obtain ⟨hvalue, hid⟩ := List.mem_filter.mp hmem
  obtain ⟨key, hget⟩ := SortedMap.mem_values.mp hvalue
  have hv := hwf.vma key vma hget
  obtain ⟨a', ha', hstart, hend⟩ := hv.linked
  rw [of_decide_eq_true hid, ha] at ha'
  obtain rfl := Option.some.inj ha'
  have hne := hv.nonempty
  show 0 < vma.len ∧ vma.allocationOffset + vma.len ≤ _
  unfold GuestVma.len
  omega

end References

/-! ### `ensure_allocation_unique` -/

section Unique

variable {ctx : Context} {s : Machine} {id : Nat} {a : GuestAllocation}

theorem similar_setAllocation (hwf : Wf ctx s) (ha : s.mem.allocations.get? id = some a)
    {heap' : HostHeap} {arc : ArcId} (hext : s.heap.Extends heap')
    (hsame : ByteBuf.Same (s.heap.object a.memory) (heap'.object arc)) :
    Similar s ⟨{ s.mem with allocations := s.mem.allocations.insert id { a with memory := arc } }, heap'⟩ := by
  refine ⟨rfl, fun id' => ?_⟩
  show Option.Rel _ _ ((s.mem.allocations.insert id _).get? id')
  rw [SortedMap.get?_insert]
  split
  · rename_i hid
    rw [hid, ha]
    exact .some ⟨rfl, hsame⟩
  · cases hget : s.mem.allocations.get? id' with
    | none => exact .none
    | some a' =>
        refine .some ⟨rfl, ?_⟩
        show ByteBuf.Same _ (heap'.object a'.memory)
        rw [hext.object _ (hwf.allocation id' a' hget).made]
        exact ByteBuf.Same.refl _

theorem similar_extends (hwf : Wf ctx s) {heap' : HostHeap} (hext : s.heap.Extends heap') :
    Similar s ⟨s.mem, heap'⟩ ∧ Wf ctx ⟨s.mem, heap'⟩ := by
  have hsim : Similar s ⟨s.mem, heap'⟩ := by
    refine ⟨rfl, fun id' => ?_⟩
    show Option.Rel _ _ (s.mem.allocations.get? id')
    cases hget : s.mem.allocations.get? id' with
    | none => exact .none
    | some a' =>
        refine .some ⟨rfl, ?_⟩
        show ByteBuf.Same _ (heap'.object a'.memory)
        rw [hext.object _ (hwf.allocation id' a' hget).made]
        exact ByteBuf.Same.refl _
  exact ⟨hsim, hsim.wf hwf hext.next fun id' a' ha' => (hwf.allocation id' a' ha').made.trans_le hext.next⟩

theorem ensureAllocationUnique_exclusive (h : Exclusive ctx s id) {Q : Unit → Machine → Prop}
    {E : Abort → Machine → Prop} (hQ : Q () s) : (ensureAllocationUnique ctx id).wp Q E s := by
  obtain ⟨a, ha, hcount⟩ := h
  rw [ensureAllocationUnique, wp_bind, wp_getMem, ha]
  simp only [hcount, if_true]
  exact (wp_pure _).mpr hQ

theorem ensureAllocationUnique_spec (hwf : Wf ctx s) (ha : s.mem.allocations.get? id = some a) :
    (ensureAllocationUnique ctx id).wp
      (fun _ s' => (Similar s s' ∧ Wf ctx s') ∧ Exclusive ctx s' id)
      (fun e s' => (Similar s s' ∧ Wf ctx s') ∧ RefusedAt ctx .unique e ∧ ¬ Exclusive ctx s id) s := by
  have hwa := hwf.allocation id a ha
  by_cases hcount : strongCount ctx s.mem a.memory = 1
  · exact ensureAllocationUnique_exclusive ⟨a, ha, hcount⟩ ⟨⟨Similar.refl s, hwf⟩, a, ha, hcount⟩
  · rw [ensureAllocationUnique, wp_bind, wp_getMem, ha]
    simp only [hcount, if_false]
    rw [wp_bind, wp_get, wp_bind]
    refine wp_guardedBytes (hwf.rangesWithin ha) (Nat.zero_le _) hwa.nonempty le_rfl ?_
    refine wp_allocateCopy rfl (fun heap' hext hnext hsame => ?_) (fun error heap' hrefused hext => ?_)
    · have hcopy : ByteBuf.Same (s.heap.object a.memory) (heap'.object s.heap.next) := by
        refine ⟨hsame.len, fun i hi => ?_⟩
        rw [← hsame.byte i hi, ByteBuf.extract_byte, Nat.zero_add]
      have hsim := similar_setAllocation hwf ha hext hcopy
      rw [wp_bind]
      refine wp_applyAllocationProtections ?_ (.inr ?_)
      · rw [wp_setAllocation]
        have hmade : ∀ id' b, (s.mem.allocations.insert id { a with memory := s.heap.next }).get? id' = some b →
            b.memory < heap'.next := by
          intro id' b hb
          rw [SortedMap.get?_insert] at hb
          split at hb
          · obtain rfl := Option.some.inj hb
            rw [hnext]
            exact Nat.lt_succ_self _
          · exact (hwf.allocation id' b hb).made.trans_le hext.next
        refine ⟨⟨hsim, hsim.wf hwf hext.next hmade⟩, { a with memory := s.heap.next }, ?_, ?_⟩
        · show (s.mem.allocations.insert id _).get? id = _
          rw [SortedMap.get?_insert, if_pos rfl]
        · refine strongCount_fresh (a := { a with memory := s.heap.next }) hwf.others_next
            (by show (s.mem.allocations.insert id _).get? id = _; rw [SortedMap.get?_insert, if_pos rfl]) rfl
            fun id' a' ha' hmem => ?_
          change (s.mem.allocations.insert id _).get? id' = _ at ha'
          rw [SortedMap.get?_insert] at ha'
          split at ha'
          · assumption
          · exact absurd hmem (hwf.allocation id' a' ha').made.ne
      · show RangesWithin (heap'.object s.heap.next).len _
        rw [← hcopy.len]
        exact hwf.rangesWithin ha
    · have hshared : ¬ Exclusive ctx s id := by
        rintro ⟨a', ha', hcount'⟩
        obtain rfl := Option.some.inj (ha.symm.trans ha')
        exact hcount hcount'
      refine ⟨similar_extends hwf hext, ?_, hshared⟩
      rcases hrefused with hlen | ⟨hmode, hstart⟩ | ⟨n, hn⟩
      · have := hwa.nonempty
        omega
      · exact absurd hstart (hwa.placed hmode)
      · exact ⟨n, error, hn, rfl⟩

theorem allocationMemoryMut_exclusive (ha : s.mem.allocations.get? id = some a)
    (hcount : strongCount ctx s.mem a.memory = 1) {Q : ArcId → Machine → Prop}
    {E : Abort → Machine → Prop} (hQ : Q a.memory s) : (allocationMemoryMut ctx id).wp Q E s := by
  rw [allocationMemoryMut, wp_bind]
  refine ensureAllocationUnique_exclusive ⟨a, ha, hcount⟩ ?_
  rw [wp_bind]
  refine wp_expectAllocation_ok ha ?_
  rw [wp_bind, wp_getMem, wp_ite, if_pos hcount, wp_pure]
  exact hQ

theorem allocationMemoryMut_spec (hwf : Wf ctx s) (ha : s.mem.allocations.get? id = some a) :
    (allocationMemoryMut ctx id).wp
      (fun arc s' => (Similar s s' ∧ Wf ctx s') ∧ ∃ a', s'.mem.allocations.get? id = some a' ∧
        a'.memory = arc ∧ strongCount ctx s'.mem arc = 1)
      (fun e s' => (Similar s s' ∧ Wf ctx s') ∧ RefusedAt ctx .unique e) s := by
  rw [allocationMemoryMut, wp_bind]
  refine wp_mono (ensureAllocationUnique_spec hwf ha) (fun _ s' h => ?_) (fun _ _ h => ⟨h.1, h.2.1⟩)
  obtain ⟨a', ha', hcount⟩ := h.2
  rw [wp_bind]
  refine wp_expectAllocation_ok ha' ?_
  rw [wp_bind, wp_getMem, wp_ite, if_pos hcount, wp_pure]
  exact ⟨h.1, a', ha', rfl, hcount⟩

end Unique

/-! ### `detach_shared_vma` -/

section Detach

variable {ctx : Context} {s : Machine} {vma : GuestVma}

structure SameSpan (v w : GuestVma) : Prop where
  start : w.start = v.start
  stop : w.stop = v.stop
  protection : w.protection = v.protection
  kind : w.kind = v.kind

theorem SameSpan.refl (v : GuestVma) : SameSpan v v := ⟨rfl, rfl, rfl, rfl⟩

def SameSpans (m m' : GuestMemory) : Prop :=
  ∀ key, Option.Rel SameSpan (m.vmas.get? key) (m'.vmas.get? key)

theorem SameSpans.of_eq {m m' : GuestMemory} (h : m'.vmas = m.vmas) : SameSpans m m' := by
  intro key
  rw [h]
  cases m.vmas.get? key with
  | none => exact .none
  | some v => exact .some (SameSpan.refl v)

theorem SameSpans.get {m m' : GuestMemory} (h : SameSpans m m') {key : Nat} {w : GuestVma}
    (hw : m'.vmas.get? key = some w) : ∃ v, m.vmas.get? key = some v ∧ SameSpan v w := by
  have hrel := h key
  rw [hw] at hrel
  generalize m.vmas.get? key = v at hrel ⊢
  cases hrel with
  | some hspan => exact ⟨_, rfl, hspan⟩

theorem SameSpans.isSome {m m' : GuestMemory} (h : SameSpans m m') {key : Nat} {v : GuestVma}
    (hv : m.vmas.get? key = some v) : ∃ w, m'.vmas.get? key = some w ∧ SameSpan v w := by
  have hrel := h key
  rw [hv] at hrel
  generalize m'.vmas.get? key = w at hrel ⊢
  cases hrel with
  | some hspan => exact ⟨_, rfl, hspan⟩

theorem SameSpans.cut {m m' : GuestMemory} (h : SameSpans m m') {p : Nat} (hcut : m.Cut p) : m'.Cut p := by
  intro key w hw
  obtain ⟨v, hv, hspan⟩ := h.get hw
  rw [hspan.start, hspan.stop]
  exact hcut key v hv

theorem SameSpans.disjoint {m m' : GuestMemory} (h : SameSpans m m') (hd : m.Disjoint) : m'.Disjoint := by
  intro x k w k' w' hw hw' hlow hhigh hlow' hhigh'
  obtain ⟨v, hv, hspan⟩ := h.get hw
  obtain ⟨v', hv', hspan'⟩ := h.get hw'
  rw [hspan.start] at hlow
  rw [hspan.stop] at hhigh
  rw [hspan'.start] at hlow'
  rw [hspan'.stop] at hhigh'
  exact hd x k v k' v' hv hv' hlow hhigh hlow' hhigh'

/-- The VMA around an address stays around it, cut short at most at one of the `cuts`. -/
def Reach (m m' : GuestMemory) (cuts : Nat → Prop) : Prop :=
  ∀ x v, m.vmaContaining x = some v → ∃ w, m'.vmaContaining x = some w ∧
    w.protection = v.protection ∧ w.kind = v.kind ∧ (w.stop = v.stop ∨ cuts w.stop)

theorem Reach.of_eq {m m' : GuestMemory} (h : m'.vmas = m.vmas) (cuts : Nat → Prop) : Reach m m' cuts := by
  intro x v hv
  refine ⟨v, ?_, rfl, rfl, .inl rfl⟩
  unfold GuestMemory.vmaContaining at hv ⊢
  rw [h]
  exact hv

theorem Reach.trans {m m' m'' : GuestMemory} {cuts : Nat → Prop} (h : Reach m m' cuts)
    (h' : Reach m' m'' cuts) : Reach m m'' cuts := by
  intro x v hv
  obtain ⟨w, hw, hprot, hkind, hstop⟩ := h x v hv
  obtain ⟨u, hu, hprot', hkind', hstop'⟩ := h' x w hw
  refine ⟨u, hu, hprot'.trans hprot, hkind'.trans hkind, ?_⟩
  rcases hstop' with hsame | hcut
  · rcases hstop with hsame' | hcut'
    · exact .inl (hsame.trans hsame')
    · exact .inr (hsame ▸ hcut')
  · exact .inr hcut

theorem SameSpans.reach {m m' : GuestMemory} (h : SameSpans m m') (cuts : Nat → Prop) :
    Reach m m' cuts := by
  intro x v hv
  obtain ⟨key, hget, hkey, hlow, hhigh, hlast⟩ := GuestMemory.vmaContaining_some hv
  obtain ⟨w, hw, hspan⟩ := h.isSome hget
  refine ⟨w, GuestMemory.vmaContaining_of key hw hkey (fun j u hj hjx => ?_) (hspan.start ▸ hlow)
    (hspan.stop ▸ hhigh), hspan.protection, hspan.kind, .inl hspan.stop⟩
  obtain ⟨u', hu', _⟩ := h.get hj
  exact hlast j u' hu' hjx

/-- The tables once a VMA has moved to a host memory of its own. -/
def detached (s : Machine) (vma : GuestVma) (heap' : HostHeap) : Machine :=
  ⟨{ s.mem with
      nextAllocationId := s.mem.nextAllocationId + 1
      allocations := s.mem.allocations.insert s.mem.nextAllocationId ⟨vma.start, s.heap.next⟩
      vmas := s.mem.vmas.insert vma.start
        { vma with allocationId := s.mem.nextAllocationId, allocationOffset := 0 } }, heap'⟩

variable {heap' : HostHeap} {a : GuestAllocation}

theorem detached_spans (hget : s.mem.vmas.get? vma.start = some vma) :
    SameSpans s.mem (detached s vma heap').mem := by
  intro key
  show Option.Rel _ _ ((s.mem.vmas.insert vma.start _).get? key)
  rw [SortedMap.get?_insert]
  split
  · rename_i hkey
    rw [hkey, hget]
    exact .some ⟨rfl, rfl, rfl, rfl⟩
  · cases s.mem.vmas.get? key with
    | none => exact .none
    | some v => exact .some (SameSpan.refl v)

theorem detached_allocation (hwf : Wf ctx s) (vma : GuestVma) (hext : s.heap.Extends heap') {id : Nat} {b : GuestAllocation}
    (hb : s.mem.allocations.get? id = some b) :
    (detached s vma heap').mem.allocations.get? id = some b ∧
      heap'.object b.memory = s.heap.object b.memory := by
  have hwb := hwf.allocation id b hb
  refine ⟨?_, hext.object _ hwb.made⟩
  show (s.mem.allocations.insert _ _).get? id = some b
  rw [SortedMap.get?_insert, if_neg hwb.id.ne]
  exact hb

theorem detached_wf (hwf : Wf ctx s) (hget : s.mem.vmas.get? vma.start = some vma)
    (hext : s.heap.Extends heap') (hnext : heap'.next = s.heap.next + 1)
    (hlen : (heap'.object s.heap.next).len = vma.len) : Wf ctx (detached s vma heap') := by
  have hv := hwf.vma _ _ hget
  have hne := hv.nonempty
  have hlen' : vma.start + vma.len = vma.stop := by
    unfold GuestVma.len
    omega
  refine ⟨fun key w hw => ?_, fun id b hb => ?_, fun arc harc => ?_, hwf.brkAligned, hwf.brkLow⟩
  · change (s.mem.vmas.insert vma.start _).get? key = some w at hw
    rw [SortedMap.get?_insert] at hw
    split at hw
    · rename_i hkey
      obtain rfl := Option.some.inj hw
      refine ⟨hkey, hv.nonempty, hv.startAligned, hv.stopAligned, hv.low, hv.high, hv.bounded, hv.heap,
        ⟨vma.start, s.heap.next⟩, ?_, rfl, ?_⟩
      · show (s.mem.allocations.insert _ _).get? _ = _
        rw [SortedMap.get?_insert, if_pos rfl]
      · show vma.stop ≤ vma.start + (heap'.object s.heap.next).len
        omega
    · have hw' := hwf.vma key w hw
      obtain ⟨b, hb, hstart, hend⟩ := hw'.linked
      obtain ⟨hb', hobj⟩ := detached_allocation hwf vma hext hb
      refine ⟨hw'.key, hw'.nonempty, hw'.startAligned, hw'.stopAligned, hw'.low, hw'.high, hw'.bounded,
        hw'.heap, b, hb', hstart, ?_⟩
      show w.stop ≤ b.guestStart + (heap'.object b.memory).len
      rw [hobj]
      exact hend
  · change (s.mem.allocations.insert _ _).get? id = some b at hb
    rw [SortedMap.get?_insert] at hb
    split at hb
    · rename_i hid
      obtain rfl := Option.some.inj hb
      have hlow := hv.low
      refine ⟨?_, ?_, ?_, ?_, ?_⟩
      · show id < s.mem.nextAllocationId + 1
        rw [hid]
        exact Nat.lt_succ_self _
      · show s.heap.next < heap'.next
        rw [hnext]
        exact Nat.lt_succ_self _
      · show 0 < (heap'.object s.heap.next).len
        unfold GuestVma.len at hlen
        omega
      · show vma.start + (heap'.object s.heap.next).len < u64Limit
        have := hv.bounded
        omega
      · intro _
        show vma.start ≠ 0
        unfold minGuestAddress guestPageSize at hlow
        omega
    · have hwb := hwf.allocation id b hb
      have hobj := hext.object _ hwb.made
      refine ⟨Nat.lt_succ_of_lt hwb.id, hwb.made.trans_le hext.next, ?_, ?_, hwb.placed⟩
      · show 0 < (heap'.object b.memory).len
        rw [hobj]
        exact hwb.nonempty
      · show b.guestStart + (heap'.object b.memory).len < u64Limit
        rw [hobj]
        exact hwb.bounded
  · exact (hwf.others arc harc).trans_le hext.next

theorem detached_neutral (hwf : Wf ctx s) (hget : s.mem.vmas.get? vma.start = some vma)
    (ha : s.mem.allocations.get? vma.allocationId = some a) (hext : s.heap.Extends heap')
    (hsame : ByteBuf.Same ((s.heap.object a.memory).extract vma.allocationOffset vma.len)
      (heap'.object s.heap.next)) : Neutral s (detached s vma heap') := by
  have hv := hwf.vma _ _ hget
  obtain ⟨a', ha', hlink, hend⟩ := hv.linked
  obtain rfl := Option.some.inj (ha.symm.trans ha')
  have hne := hv.nonempty
  have hlen' : vma.start + vma.len = vma.stop := by
    unfold GuestVma.len
    omega
  have hbyte : ∀ x, vma.start ≤ x → x < vma.stop →
      (GuestAllocation.mk vma.start s.heap.next).byteAt heap' x = a.byteAt s.heap x := by
    intro x hlow hhigh
    have hb := hsame.byte (x - vma.start) (by show x - vma.start < vma.len; omega)
    unfold GuestAllocation.byteAt
    show (heap'.object s.heap.next).byte (x - vma.start) = _
    rw [← hb, ByteBuf.extract_byte]
    congr 1
    omega
  have hnew : (detached s vma heap').mem.allocations.get? s.mem.nextAllocationId =
      some ⟨vma.start, s.heap.next⟩ := by
    show (s.mem.allocations.insert _ _).get? _ = _
    rw [SortedMap.get?_insert, if_pos rfl]
  refine ⟨fun x c => ?_, (detached_spans hget).disjoint, ⟨rfl, rfl, rfl, rfl, rfl, Nat.le_succ _⟩, rfl⟩
  rw [Machine.shows_iff, Machine.shows_iff]
  constructor
  · rintro ⟨key, w, b, hw, hlow, hhigh, hb, rfl⟩
    change (s.mem.vmas.insert vma.start _).get? key = some w at hw
    rw [SortedMap.get?_insert] at hw
    split at hw
    · obtain rfl := Option.some.inj hw
      change (detached s vma heap').mem.allocations.get? s.mem.nextAllocationId = some b at hb
      rw [hnew] at hb
      obtain rfl := Option.some.inj hb
      refine ⟨vma.start, vma, a, hget, hlow, hhigh, ha, ?_⟩
      rw [← hbyte x hlow hhigh]
      rfl
    · obtain ⟨b₀, hb₀, _⟩ := (hwf.vma key w hw).linked
      obtain ⟨hb₀', hobj⟩ := detached_allocation hwf vma hext hb₀
      obtain rfl := Option.some.inj (hb₀'.symm.trans hb)
      refine ⟨key, w, b₀, hw, hlow, hhigh, hb₀, ?_⟩
      unfold GuestAllocation.byteAt
      rw [← hobj]
      rfl
  · rintro ⟨key, w, b, hw, hlow, hhigh, hb, rfl⟩
    by_cases hkey : key = vma.start
    · subst hkey
      obtain rfl := Option.some.inj (hget.symm.trans hw)
      obtain rfl := Option.some.inj (ha.symm.trans hb)
      refine ⟨vma.start, { vma with allocationId := s.mem.nextAllocationId, allocationOffset := 0 },
        ⟨vma.start, s.heap.next⟩, ?_, hlow, hhigh, hnew, ?_⟩
      · show (s.mem.vmas.insert vma.start _).get? _ = _
        rw [SortedMap.get?_insert, if_pos rfl]
      · rw [← hbyte x hlow hhigh]
        rfl
    · obtain ⟨hb', hobj⟩ := detached_allocation hwf vma hext hb
      refine ⟨key, w, b, ?_, hlow, hhigh, hb', ?_⟩
      · show (s.mem.vmas.insert vma.start _).get? _ = _
        rw [SortedMap.get?_insert, if_neg hkey]
        exact hw
      · unfold GuestAllocation.byteAt
        show _ = Cell.mk ((heap'.object b.memory).byte _) _ _
        rw [hobj]

theorem detachSharedVma_spec (hwf : Wf ctx s) (hget : s.mem.vmas.get? vma.start = some vma) :
    (detachSharedVma ctx vma).wp
      (fun _ s' => (Neutral s s' ∧ Wf ctx s') ∧ SameSpans s.mem s'.mem ∧
        s'.mem.nextAllocationId ≤ s.mem.nextAllocationId + 1)
      (fun e s' => (Neutral s s' ∧ Wf ctx s') ∧ SameSpans s.mem s'.mem ∧
        (RefusedAt ctx .detach e ∨
          e = .error .outOfMemory ∧ u64Limit ≤ s.mem.nextAllocationId + 1)) s := by
  have hv := hwf.vma _ _ hget
  obtain ⟨a, ha, hlink, hend⟩ := hv.linked
  have hwa := hwf.allocation _ a ha
  have hne := hv.nonempty
  have hlen' : vma.start + vma.len = vma.stop := by
    unfold GuestVma.len
    omega
  rw [detachSharedVma, wp_bind, wp_getMem, ha]
  simp only [wp_ite]
  split
  · exact (wp_pure _).mpr ⟨⟨Neutral.refl s, hwf⟩, SameSpans.of_eq rfl, Nat.le_succ _⟩
  · rw [wp_bind]
    refine wp_guardedBytes (hwf.rangesWithin ha) (Nat.le_add_right _ _) hwa.nonempty (by omega) ?_
    refine wp_allocateCopy (by rw [ByteBuf.extract_len]; omega) (fun heap' hext hnext hsame => ?_)
      (fun error heap' hrefused hext => ?_)
    · rw [Nat.add_sub_cancel_left] at hsame
      have hlen : (heap'.object s.heap.next).len = vma.len := hsame.len.symm
      rw [wp_bind, wp_protect, if_neg (by show ¬ (heap'.object s.heap.next).len = 0; omega), wp_bind,
        wp_insertAllocation]
      split
      · rw [wp_bind, wp_getMem]
        simp only [hget]
        rw [wp_modifyMem]
        exact ⟨⟨detached_neutral hwf hget ha hext hsame, detached_wf hwf hget hext hnext hlen⟩,
          detached_spans hget, le_rfl⟩
      · rename_i hids
        obtain ⟨hsim, hwf'⟩ := similar_extends hwf hext
        exact ⟨⟨hsim.neutral hwf, hwf'⟩, SameSpans.of_eq rfl, .inr ⟨rfl, not_lt.mp hids⟩⟩
    · obtain ⟨hsim, hwf'⟩ := similar_extends hwf hext
      refine ⟨⟨hsim.neutral hwf, hwf'⟩, SameSpans.of_eq rfl, .inl ?_⟩
      rcases hrefused with hzero | ⟨_, hstart⟩ | ⟨n, hn⟩
      · omega
      · have hlow := hv.low
        unfold minGuestAddress guestPageSize at hlow
        omega
      · exact ⟨n, error, hn, rfl⟩

end Detach

/-! ### `ensure_guest_range_unique` -/

section Range

variable {ctx : Context} {s t u : Machine}

/-- A guest cannot tell the difference, and every cut is still there. -/
structure Cowed (ctx : Context) (s s' : Machine) : Prop where
  neutral : Neutral s s'
  wf : Wf ctx s'
  cut : ∀ p, s.mem.Cut p → s'.mem.Cut p

theorem Cowed.refl (hwf : Wf ctx s) : Cowed ctx s s := ⟨Neutral.refl s, hwf, fun _ h => h⟩

theorem Cowed.trans (h : Cowed ctx s t) (h' : Cowed ctx t u) : Cowed ctx s u :=
  ⟨h.neutral.trans h'.neutral, h'.wf, fun p hp => h'.cut p (h.cut p hp)⟩

theorem Similar.cowed (h : Similar s t) (hwf : Wf ctx s) (hwf' : Wf ctx t) : Cowed ctx s t :=
  ⟨h.neutral hwf, hwf', fun _ hp => (SameSpans.of_eq h.vmas).cut hp⟩

/-- Why a range could not be made unique: the host refused, or `count` more ids were not left. -/
def RangeError (ctx : Context) (s : Machine) (count : Nat) (e : Abort) : Prop :=
  RefusedAt ctx .unique e ∨ RefusedAt ctx .detach e ∨
    e = .error .outOfMemory ∧ u64Limit ≤ s.mem.nextAllocationId + count

theorem mem_idSet {ids : List Nat} {id : Nat} : id ∈ idSet ids ↔ id ∈ ids := by
  have hfold : ∀ (l : List Nat) (m : SortedMap Nat Unit),
      (∃ v, (l.foldl (fun m id => m.insert id ()) m).get? id = some v) ↔
        id ∈ l ∨ ∃ v, m.get? id = some v := by
    intro l
    induction l with
    | nil => simp
    | cons x rest ih =>
        intro m
        rw [List.foldl_cons, ih, SortedMap.get?_insert, List.mem_cons]
        by_cases hx : id = x
        · simp [hx]
        · simp [hx]
  unfold idSet
  rw [SortedMap.mem_keys, hfold]
  simp

theorem uniqueLoop_spec (hwf : Wf ctx s) (ids : List Nat)
    (hids : ∀ id ∈ ids, ∃ a, s.mem.allocations.get? id = some a) :
    (Prog.forEach ids fun id => ensureAllocationUnique ctx id).wp
      (fun _ s' => Similar s s' ∧ Wf ctx s')
      (fun e s' => (Similar s s' ∧ Wf ctx s') ∧ RefusedAt ctx .unique e) s := by
  refine wp_mono (wp_forEach (I := fun rest s' => (Similar s s' ∧ Wf ctx s') ∧ ∀ id ∈ rest, id ∈ ids)
    (E := fun e s' => (Similar s s' ∧ Wf ctx s') ∧ RefusedAt ctx .unique e)
    (fun id rest s' h => ?_) ids s ⟨⟨Similar.refl s, hwf⟩, fun _ h => h⟩) (fun _ _ h => h.1) (fun _ _ h => h)
  obtain ⟨⟨hsim, hwf'⟩, hmem⟩ := h
  obtain ⟨a, ha⟩ := hids id (hmem id (by simp))
  obtain ⟨b, hb, _⟩ := hsim.get ha
  refine wp_mono (ensureAllocationUnique_spec hwf' hb) (fun _ s'' h' => ?_) (fun e s'' h' => ?_)
  · exact ⟨⟨hsim.trans h'.1.1, h'.1.2⟩, fun id' hid' => hmem id' (List.mem_cons_of_mem _ hid')⟩
  · exact ⟨⟨hsim.trans h'.1.1, h'.1.2⟩, h'.2.1⟩

theorem SameSpans.trans {m m' m'' : GuestMemory} (h : SameSpans m m') (h' : SameSpans m' m'') :
    SameSpans m m'' := by
  intro key
  have hrel := h key
  have hrel' := h' key
  generalize m.vmas.get? key = a at hrel ⊢
  generalize m'.vmas.get? key = b at hrel hrel'
  generalize m''.vmas.get? key = c at hrel' ⊢
  cases hrel with
  | none =>
      cases hrel' with
      | none => exact .none
  | some hab =>
      cases hrel' with
      | some hbc =>
          exact .some ⟨hbc.start.trans hab.start, hbc.stop.trans hab.stop,
            hbc.protection.trans hab.protection, hbc.kind.trans hab.kind⟩

theorem detachLoop_spec (hwf : Wf ctx s) (keys : List Nat)
    (hkeys : ∀ key ∈ keys, ∃ v, s.mem.vmas.get? key = some v) :
    (Prog.forEach keys fun key => do
        let memory ← getMem
        match memory.vmas.get? key with
        | none => fail .notMapped
        | some vma => detachSharedVma ctx vma).wp
      (fun _ s' => Cowed ctx s s' ∧ SameSpans s.mem s'.mem ∧
        s'.mem.nextAllocationId ≤ s.mem.nextAllocationId + keys.length)
      (fun e s' => Cowed ctx s s' ∧ RangeError ctx s keys.length e) s := by
  refine wp_mono (wp_forEach
    (I := fun rest s' => (Neutral s s' ∧ Wf ctx s') ∧ SameSpans s.mem s'.mem ∧
      (∀ key ∈ rest, key ∈ keys) ∧
      s'.mem.nextAllocationId + rest.length ≤ s.mem.nextAllocationId + keys.length)
    (E := fun e s' => Cowed ctx s s' ∧ RangeError ctx s keys.length e)
    (fun key rest s' h => ?_) keys s
      ⟨⟨Neutral.refl s, hwf⟩, SameSpans.of_eq rfl, fun _ h => h, le_rfl⟩)
    (fun _ s' h => ⟨⟨h.1.1, h.1.2, fun p hp => h.2.1.cut hp⟩, h.2.1, by simpa using h.2.2.2⟩)
    (fun _ _ h => h)
  obtain ⟨⟨hneutral, hwf'⟩, hspans, hmem, hcount⟩ := h
  obtain ⟨v, hv⟩ := hkeys key (hmem key (by simp))
  obtain ⟨w, hw, _⟩ := hspans.isSome hv
  rw [List.length_cons] at hcount
  rw [wp_bind, wp_getMem, hw]
  refine wp_mono (detachSharedVma_spec hwf' ((hwf'.vma key w hw).key ▸ hw)) (fun _ s'' h' => ?_)
    (fun e s'' h' => ?_)
  · obtain ⟨⟨hneutral', hwf''⟩, hspans', hids⟩ := h'
    exact ⟨⟨hneutral.trans hneutral', hwf''⟩, hspans.trans hspans',
      fun key' hkey' => hmem key' (List.mem_cons_of_mem _ hkey'), by omega⟩
  · obtain ⟨⟨hneutral', hwf''⟩, hspans', hcause⟩ := h'
    refine ⟨⟨hneutral.trans hneutral', hwf'', fun p hp => (hspans.trans hspans').cut hp⟩, ?_⟩
    rcases hcause with hrefused | ⟨he, hlimit⟩
    · exact .inr (.inl hrefused)
    · exact .inr (.inr ⟨he, by omega⟩)

theorem cutRange_reach (hwf : Wf ctx s) {start : Nat} (hstart : Aligned start) (stop : Nat) :
    Reach s.mem ((s.mem.splitVmaAt start).splitVmaAt stop) (fun p => p = start ∨ p = stop) := by
  intro x v hv
  obtain ⟨w, hw, hprot, hkind, hstop⟩ := splitVmaAt_containing hwf start hv
  obtain ⟨u, hu, hprot', hkind', hstop'⟩ :=
    splitVmaAt_containing (s := { s with mem := _ }) (splitVmaAt_wf hwf hstart) stop hw
  exact ⟨u, hu, hprot'.trans hprot, hkind'.trans hkind, by omega⟩

/-- How many VMAs a range covers once its ends are cut. -/
def GuestMemory.pieces (memory : GuestMemory) (start stop : Nat) : Nat :=
  (((memory.splitVmaAt start).splitVmaAt stop).vmas.keysIn start stop).length

/-- Making a range the process's own changes no byte of any process. -/
theorem ensureGuestRangeUnique_spec (hwf : Wf ctx s) {start stop : Nat} (hstart : Aligned start)
    (hstop : Aligned stop) :
    (ensureGuestRangeUnique ctx start stop).wp
      (fun _ s' => Cowed ctx s s' ∧ Reach s.mem s'.mem (fun p => p = start ∨ p = stop) ∧
        s'.mem.nextAllocationId ≤ s.mem.nextAllocationId + s.mem.pieces start stop)
      (fun e s' => Cowed ctx s s' ∧ RangeError ctx s (s.mem.pieces start stop) e) s := by
  rw [ensureGuestRangeUnique, wp_ite]
  split
  · exact (wp_pure _).mpr ⟨Cowed.refl hwf, Reach.of_eq rfl _, Nat.le_add_right _ _⟩
  rw [wp_bind, wp_getMem, wp_ite]
  split
  · refine wp_mono (uniqueLoop_spec hwf _ fun id hid => ?_) (fun _ s' h => ?_) (fun e s' h => ?_)
    · obtain ⟨vma, hmem, rfl⟩ := List.mem_map.mp (mem_idSet.mp hid)
      obtain ⟨key, hget⟩ := SortedMap.mem_values.mp (List.mem_filter.mp hmem).1
      obtain ⟨a, ha, _⟩ := (hwf.vma key vma hget).linked
      exact ⟨a, ha⟩
    · refine ⟨h.1.cowed hwf h.2, Reach.of_eq h.1.vmas _, ?_⟩
      rw [h.1.mem]
      exact Nat.le_add_right _ _
    · exact ⟨h.1.1.cowed hwf h.1.2, .inl h.2⟩
  · have hcut : Cowed ctx s { s with mem := (s.mem.splitVmaAt start).splitVmaAt stop } := by
      refine ⟨cutRange_neutral hwf hstart stop, cutRange_wf hwf hstart hstop, fun p hp => ?_⟩
      exact splitVmaAt_cut_of_cut (s := { s with mem := s.mem.splitVmaAt start })
        (splitVmaAt_wf hwf hstart) (splitVmaAt_cut_of_cut hwf hp)
    have hids : ((s.mem.splitVmaAt start).splitVmaAt stop).nextAllocationId = s.mem.nextAllocationId := by
      obtain ⟨_, h⟩ := splitVmaAt_eq s.mem start
      obtain ⟨_, h'⟩ := splitVmaAt_eq (s.mem.splitVmaAt start) stop
      rw [h', h]
    rw [wp_bind, wp_modifyMem, wp_bind, wp_getMem, wp_bind]
    refine wp_mono (detachLoop_spec hcut.wf _ fun key hkey => (SortedMap.mem_keysIn.mp hkey).1)
      (fun _ s' h => ?_) (fun e s' h => ?_)
    · rw [wp_modifyMem]
      refine ⟨(hcut.trans h.1).trans ⟨dropUnreferenced_neutral, dropUnreferenced_wf h.1.wf, fun _ hp => hp⟩,
        ?_, ?_⟩
      · exact (cutRange_reach hwf hstart stop).trans ((h.2.1.reach _).trans (Reach.of_eq (by rfl) _))
      · have hcount := h.2.2
        rw [hids] at hcount
        exact hcount
    · refine ⟨hcut.trans h.1, ?_⟩
      have hcause := h.2
      unfold RangeError at hcause ⊢
      rw [hids] at hcause
      exact hcause

theorem pageRange_ok (start : Nat) {stop pageEnd : Nat} (h : alignUpTo stop guestPageSize = .ok pageEnd) :
    Aligned (alignDownTo start guestPageSize) ∧ Aligned pageEnd ∧ stop ≤ pageEnd := by
  have := alignUpTo_ok (by decide) h
  exact ⟨dvd_alignDownTo _ _, this.2.2.1, this.1⟩

theorem pieces_le_one (hwf : Wf ctx s) (hd : s.mem.Disjoint) {start stop : Nat} {v : GuestVma}
    (hstart : Aligned start) (hstop : Aligned stop)
    (hv : s.mem.vmaContaining start = some v) (hend : stop ≤ v.stop) : s.mem.pieces start stop ≤ 1 := by
  obtain ⟨w, hw, _, _, hwstop⟩ := cutRange_reach hwf hstart stop start v hv
  have hwf' := cutRange_wf hwf hstart hstop
  have hd' := (cutRange_neutral hwf hstart stop).disjoint hd
  obtain ⟨hget, hlow, hhigh, _⟩ := hwf'.vma_of_containing hw
  have hcut := (cutRange_cut hwf hd hstart stop).1 _ w hget
  -- a key of the range is an address of that piece, so it is the piece's own key
  have hkeys : ∀ key ∈ ((s.mem.splitVmaAt start).splitVmaAt stop).vmas.keysIn start stop, key = start := by
    intro key hkey
    obtain ⟨⟨u, hu⟩, hklow, hkhigh⟩ := SortedMap.mem_keysIn.mp hkey
    have hwu := hwf'.vma key u hu
    have h1 := hwu.key
    have h2 := hwu.nonempty
    have := hd' key key u w.start w hu hget (by omega) (by omega) (by omega) (by omega)
    omega
  have hnodup : (((s.mem.splitVmaAt start).splitVmaAt stop).vmas.keysIn start stop).Nodup :=
    SortedMap.keysIn_nodup _ _ _
  unfold GuestMemory.pieces
  by_contra hlong
  obtain ⟨x, y, rest, hlist⟩ : ∃ x y rest,
      ((s.mem.splitVmaAt start).splitVmaAt stop).vmas.keysIn start stop = x :: y :: rest := by
    match hk : ((s.mem.splitVmaAt start).splitVmaAt stop).vmas.keysIn start stop with
    | [] => simp [hk] at hlong
    | [_] => simp [hk] at hlong
    | x :: y :: rest => exact ⟨x, y, rest, rfl⟩
  rw [hlist] at hkeys hnodup
  have hx := hkeys x (by simp)
  have hy := hkeys y (by simp)
  simp [hx, hy] at hnodup

theorem ensureGuestPageRangeUnique_aligned (hwf : Wf ctx s) {start stop : Nat} (hstart : Aligned start)
    (hstop : Aligned stop) (hlt : start < stop) (hbound : stop < u64Limit) :
    (ensureGuestPageRangeUnique ctx start stop).wp (fun _ s' => Cowed ctx s s')
      (fun e s' => Cowed ctx s s' ∧ RangeError ctx s (s.mem.pieces start stop) e) s := by
  have hdown : alignDownTo start guestPageSize = start := Nat.div_mul_cancel hstart
  have hup : alignUpTo stop guestPageSize = .ok stop := by
    obtain ⟨k, rfl⟩ := hstop
    refine alignUpTo_eq_ok.mpr ⟨?_, ?_⟩
    · unfold alignDownTo guestPageSize
      omega
    · unfold guestPageSize u64Limit at *
      omega
  rw [ensureGuestPageRangeUnique, wp_ite, if_neg (by omega), hup, hdown]
  exact wp_mono (ensureGuestRangeUnique_spec hwf hstart hstop) (fun _ _ h => h.1) (fun _ _ h => h)

theorem RangeError.ne_panic {count : Nat} {e : Abort} (h : RangeError ctx s count e) : e ≠ .panic := by
  rcases h with ⟨_, _, _, rfl⟩ | ⟨_, _, _, rfl⟩ | ⟨rfl, _⟩ <;> simp

theorem ensureGuestPageRangeUnique_within (hwf : Wf ctx s) {start stop : Nat} {v : GuestVma}
    (hv : s.mem.vmaContaining start = some v) (hend : stop ≤ v.stop) :
    (ensureGuestPageRangeUnique ctx start stop).wp
      (fun _ s' => Cowed ctx s s' ∧
        (∃ w, s'.mem.vmaContaining start = some w ∧ w.protection = v.protection ∧ w.kind = v.kind ∧
          stop ≤ w.stop) ∧
        (s.mem.Disjoint → s'.mem.nextAllocationId ≤ s.mem.nextAllocationId + 1))
      (fun e s' => Cowed ctx s s' ∧ e ≠ .panic ∧ (s.mem.Disjoint → RangeError ctx s 1 e)) s := by
  obtain ⟨hget, hlow, hhigh, hwv⟩ := hwf.vma_of_containing hv
  rw [ensureGuestPageRangeUnique, wp_ite]
  split
  · exact (wp_pure _).mpr ⟨Cowed.refl hwf, ⟨v, hv, rfl, rfl, hend⟩, fun _ => Nat.le_succ _⟩
  rename_i hlt
  -- the end of a VMA is aligned, so rounding up to it cannot overflow
  have haligned := hwv.stopAligned
  have hbounded := hwv.bounded
  obtain ⟨pageEnd, hup⟩ : ∃ pageEnd, alignUpTo stop guestPageSize = .ok pageEnd := by
    refine ⟨_, alignUpTo_eq_ok.mpr ⟨rfl, ?_⟩⟩
    unfold Aligned guestPageSize at *
    unfold u64Limit at *
    omega
  obtain ⟨hdown, hpage, hle⟩ := pageRange_ok start hup
  have hpageEnd : pageEnd ≤ v.stop := alignUpTo_le (by decide) hup haligned hend
  have hpageStart : v.start ≤ alignDownTo start guestPageSize := le_alignDownTo hwv.startAligned hlow
  have hpageLow := alignDownTo_le start guestPageSize
  rw [hup]
  have hpieces : s.mem.Disjoint → s.mem.pieces (alignDownTo start guestPageSize) pageEnd ≤ 1 := by
    intro hd
    exact pieces_le_one hwf hd hdown hpage
      (hwf.containing_of_vma hd hget hpageStart (by omega)) hpageEnd
  refine wp_mono (ensureGuestRangeUnique_spec hwf hdown hpage) (fun _ s' h => ?_) (fun e s' h => ?_)
  · obtain ⟨hcowed, hreach, hids⟩ := h
    obtain ⟨w, hw, hprot, hkind, hstop⟩ := hreach start v hv
    obtain ⟨_, _, hwhigh, _⟩ := hcowed.wf.vma_of_containing hw
    refine ⟨hcowed, ⟨w, hw, hprot, hkind, by omega⟩, fun hd => ?_⟩
    have := hpieces hd
    omega
  · refine ⟨h.1, h.2.ne_panic, fun hd => ?_⟩
    have := hpieces hd
    rcases h.2 with hrefused | hrefused | ⟨he, hlimit⟩
    · exact .inl hrefused
    · exact .inr (.inl hrefused)
    · exact .inr (.inr ⟨he, by omega⟩)

end Range

end Mcr.Memory
