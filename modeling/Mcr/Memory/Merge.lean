import Mcr.Memory.Unique

/-!
# Finding or making host memory for a mapping

`ensure_host_allocation` reuses an allocation with room, makes a new one, or replaces all the
allocations its range touches by one. A replacement copies the old allocations in the order of their
ids, so where two of them cover an address it holds the byte of the later one: `overlay` is that byte,
and whether the live VMA of the address showed the same one is up to the caller's state.
-/

namespace Mcr.Memory

open Prog

def GuestAllocation.Covers (a : GuestAllocation) (heap : HostHeap) (x : Nat) : Prop :=
  a.guestStart ≤ x ∧ x < a.guestStart + (heap.object a.memory).len

instance (a : GuestAllocation) (heap : HostHeap) (x : Nat) : Decidable (a.Covers heap x) :=
  inferInstanceAs (Decidable (_ ∧ _))

/-- The byte left at `x` by copying the allocations one after the other. -/
def overlay (heap : HostHeap) (allocations : List GuestAllocation) (x : Nat) : UInt8 :=
  allocations.foldl (fun b a => if a.Covers heap x then a.byteAt heap x else b) 0

/-- What `replace_overlapping_allocations` saves of an entry. -/
def savedOf (s : Machine) (e : Nat × GuestAllocation) : SavedAllocation :=
  ⟨e.1, e.2.guestStart, (s.heap.object e.2.memory).extract 0 (s.heap.object e.2.memory).len,
    s.mem.allocationProtectionRanges e.1⟩

/-! ### Saving and restoring -/

section Save

variable {ctx : Context} {s : Machine}

theorem saveAllocation_spec (hwf : Wf ctx s) {e : Nat × GuestAllocation}
    (he : s.mem.allocations.get? e.1 = some e.2) {Q : SavedAllocation → Machine → Prop}
    {E : Abort → Machine → Prop} (hQ : Q (savedOf s e) s) : (saveAllocation e.1).wp Q E s := by
  have hwa := hwf.allocation _ _ he
  rw [saveAllocation, wp_bind, wp_getMem, wp_bind]
  refine wp_expectAllocation_ok he ?_
  rw [wp_bind, wp_get, wp_bind]
  exact wp_guardedBytes (hwf.rangesWithin he) (Nat.zero_le _) hwa.nonempty le_rfl ((wp_pure _).mpr hQ)

theorem saveAllocations_spec (hwf : Wf ctx s) (entries : List (Nat × GuestAllocation))
    (hentries : ∀ e ∈ entries, s.mem.allocations.get? e.1 = some e.2)
    {Q : List SavedAllocation → Machine → Prop} {E : Abort → Machine → Prop}
    (hQ : Q (entries.map (savedOf s)) s) :
    (Prog.collect (entries.map Prod.fst) saveAllocation).wp Q E s := by
  induction entries generalizing Q with
  | nil => exact (wp_pure _).mpr hQ
  | cons e rest ih =>
      rw [List.map_cons, Prog.collect, wp_bind]
      refine saveAllocation_spec hwf (hentries e (by simp)) ?_
      rw [wp_bind]
      refine ih (fun e' he' => hentries e' (List.mem_cons_of_mem _ he')) ?_
      exact (wp_pure _).mpr hQ

/-- How far the restoring loop has come: the entries in `rest` are still missing. -/
structure Restoring (s t : Machine) (rest : List (Nat × GuestAllocation)) : Prop where
  mem : t.mem = { s.mem with allocations := t.mem.allocations }
  heap : s.heap.Extends t.heap
  made : ∀ id b, t.mem.allocations.get? id = some b → b.memory < t.heap.next
  placed : ∀ id, Option.Rel (fun a b : GuestAllocation => b.guestStart = a.guestStart ∧
    ByteBuf.Same (s.heap.object a.memory) (t.heap.object b.memory))
    (if id ∈ rest.map Prod.fst then none else s.mem.allocations.get? id) (t.mem.allocations.get? id)

theorem Restoring.done {t : Machine} (h : Restoring s t []) (hwf : Wf ctx s) : Similar s t ∧ Wf ctx t := by
  have hsim : Similar s t := ⟨h.mem, by simpa using h.placed⟩
  exact ⟨hsim, hsim.wf hwf h.heap.next h.made⟩

theorem Restoring.step {t : Machine} {e : Nat × GuestAllocation} {rest : List (Nat × GuestAllocation)}
    (h : Restoring s t (e :: rest)) (hnew : e.1 ∉ rest.map Prod.fst)
    (he : s.mem.allocations.get? e.1 = some e.2) {heap' : HostHeap} (hext : t.heap.Extends heap')
    (hnext : heap'.next = t.heap.next + 1)
    (hsame : ByteBuf.Same (s.heap.object e.2.memory) (heap'.object t.heap.next)) :
    Restoring s ⟨{ t.mem with allocations := t.mem.allocations.insert e.1 ⟨e.2.guestStart, t.heap.next⟩ },
      heap'⟩ rest := by
  refine ⟨?_, h.heap.trans hext, fun id b hb => ?_, fun id => ?_⟩
  · show _ = _
    rw [h.mem]
  · change (t.mem.allocations.insert e.1 _).get? id = some b at hb
    rw [SortedMap.get?_insert] at hb
    split at hb
    · obtain rfl := Option.some.inj hb
      show t.heap.next < heap'.next
      rw [hnext]
      exact Nat.lt_succ_self _
    · exact (h.made id b hb).trans_le hext.next
  · show Option.Rel _ _ ((t.mem.allocations.insert e.1 _).get? id)
    rw [SortedMap.get?_insert]
    by_cases hid : id = e.1
    · rw [if_pos hid, hid, if_neg hnew, he]
      exact .some ⟨rfl, hsame⟩
    · have hmem : id ∈ (e :: rest).map Prod.fst ↔ id ∈ rest.map Prod.fst := by
        rw [List.map_cons, List.mem_cons]
        simp [hid]
      have hrel := h.placed id
      simp only [hmem] at hrel
      rw [if_neg hid]
      generalize (if id ∈ rest.map Prod.fst then none else s.mem.allocations.get? id) = a at hrel ⊢
      cases hget : t.mem.allocations.get? id with
      | none =>
          rw [hget] at hrel
          cases hrel with
          | none => exact .none
      | some b =>
          rw [hget] at hrel
          cases hrel with
          | some hab =>
              refine .some ⟨hab.1, ?_⟩
              show ByteBuf.Same _ (heap'.object b.memory)
              rw [hext.object _ (h.made id b hget)]
              exact hab.2

theorem restoreSavedAllocations_spec (hwf : Wf ctx s) (hrestore : ∀ n, ctx.refusal n .restore = none)
    (rest : List (Nat × GuestAllocation)) (hnodup : (rest.map Prod.fst).Nodup)
    (hentries : ∀ e ∈ rest, s.mem.allocations.get? e.1 = some e.2) {t : Machine}
    (h : Restoring s t rest) {E : Abort → Machine → Prop} :
    (restoreSavedAllocations ctx (rest.map (savedOf s))).wp
      (fun _ s' => Similar s s' ∧ Wf ctx s') E t := by
  unfold restoreSavedAllocations
  induction rest generalizing t with
  | nil => exact (wp_pure _).mpr (h.done hwf)
  | cons e rest ih =>
      have he := hentries e (by simp)
      have hwa := hwf.allocation _ _ he
      rw [List.map_cons, List.nodup_cons] at hnodup
      rw [List.map_cons, Prog.forEach, wp_bind, wp_bind, wp_getMem]
      refine wp_allocateCopy rfl (fun heap' hext hnext hsame => ?_) (fun error heap' hrefused hext => ?_)
      · have hcopy : ByteBuf.Same (s.heap.object e.2.memory) (heap'.object t.heap.next) := by
          refine ⟨hsame.len, fun i hi => ?_⟩
          rw [← hsame.byte i hi]
          show _ = (s.heap.object e.2.memory).byte (0 + i)
          rw [Nat.zero_add]
        rw [wp_bind]
        refine wp_applyAllocationProtections ?_ (.inr ?_)
        · rw [wp_setAllocation]
          exact ih hnodup.2 (fun e' he' => hentries e' (List.mem_cons_of_mem _ he'))
            (h.step hnodup.1 he hext hnext hcopy)
        · show RangesWithin (heap'.object t.heap.next).len _
          rw [← hcopy.len]
          exact hwf.rangesWithin he
      · exfalso
        rcases hrefused with hlen | ⟨hmode, hstart⟩ | ⟨n, hn⟩
        · have := hwa.nonempty
          change (s.heap.object e.2.memory).len = 0 at hlen
          omega
        · rw [h.mem] at hmode
          exact hwa.placed hmode hstart
        · rw [hrestore n] at hn
          exact absurd hn (by simp)

end Save

/-! ### One allocation for several -/

section Replace

variable {ctx : Context} {s : Machine}

/-- The copying loop leaves, at each address, the byte of the last entry that covers it. -/
theorem copySaved_spec (arc : ArcId) {wideStart len : Nat} (entries : List (Nat × GuestAllocation))
    (hrange : ∀ e ∈ entries, wideStart ≤ e.2.guestStart ∧
      e.2.guestStart + (s.heap.object e.2.memory).len ≤ wideStart + len)
    {t : Machine} (hlen : (t.heap.object arc).len = len) {E : Abort → Machine → Prop} :
    (Prog.forEach (entries.map (savedOf s)) fun allocation =>
      copyInto arc (allocation.guestStart - wideStart)
        (allocation.guestStart - wideStart + allocation.bytes.len) allocation.bytes).wp
      (fun _ t' => t'.mem = t.mem ∧ t'.heap.next = t.heap.next ∧
        (∀ arc' ≠ arc, t'.heap.object arc' = t.heap.object arc') ∧ (t'.heap.object arc).len = len ∧
        ∀ i, (t'.heap.object arc).byte i = (entries.map Prod.snd).foldl
          (fun b a => if a.Covers s.heap (wideStart + i) then a.byteAt s.heap (wideStart + i) else b)
          ((t.heap.object arc).byte i)) E t := by
  induction entries generalizing t with
  | nil => exact (wp_pure _).mpr ⟨rfl, rfl, fun _ _ => rfl, hlen, fun _ => rfl⟩
  | cons e rest ih =>
      obtain ⟨hlow, hhigh⟩ := hrange e (by simp)
      have hbytes : (savedOf s e).bytes.len = (s.heap.object e.2.memory).len := rfl
      have hstart : (savedOf s e).guestStart = e.2.guestStart := rfl
      rw [List.map_cons, Prog.forEach, wp_bind, wp_copyInto, if_pos ⟨Nat.le_add_right _ _, by omega, by omega⟩]
      refine wp_mono (ih (fun e' he' => hrange e' (List.mem_cons_of_mem _ he')) ?_) (fun _ t' h => ?_)
        (fun _ _ h => h)
      · show ((t.heap.set arc _).object arc).len = len
        simp [HostHeap.set, hlen]
      · obtain ⟨hmem, hnext, hothers, hlen', hbyte⟩ := h
        refine ⟨hmem, hnext, fun arc' hne => ?_, hlen', fun i => ?_⟩
        · rw [hothers arc' hne]
          show (t.heap.set arc _).object arc' = _
          simp [HostHeap.set, hne]
        · rw [hbyte i, List.map_cons, List.foldl_cons]
          congr 1
          show ((t.heap.set arc _).object arc).byte i = _
          simp only [HostHeap.set, if_true, ByteBuf.blit_byte, hbytes, hstart]
          by_cases hcovers : e.2.Covers s.heap (wideStart + i)
          · have hc := hcovers
            unfold GuestAllocation.Covers at hc
            rw [if_pos (by omega), if_pos hcovers]
            show (s.heap.object e.2.memory).byte (0 + (i - (e.2.guestStart - wideStart))) = _
            unfold GuestAllocation.byteAt
            congr 1
            omega
          · have hc := hcovers
            unfold GuestAllocation.Covers at hc
            rw [if_neg (by omega), if_neg hcovers]

def rehome (ids : List Nat) (id : Nat) (a : GuestAllocation) (vma : GuestVma) : GuestVma :=
  if vma.allocationId ∈ ids then
    { vma with allocationId := id, allocationOffset := vma.start - a.guestStart }
  else vma

theorem rehome_span (ids : List Nat) (id : Nat) (a : GuestAllocation) (vma : GuestVma) :
    SameSpan vma (rehome ids id a vma) := by
  unfold rehome
  split <;> exact ⟨rfl, rfl, rfl, rfl⟩

/-- Host memory for `[start, stop)` has been found or made in `s'`: the allocation `id`, whose bytes
are `home`, in place of the allocations `ids`. -/
structure Housed (ctx : Context) (s s' : Machine) (start stop : Nat) (ids : List Nat) (home : Nat → UInt8)
    (id : Nat) (a : GuestAllocation) : Prop where
  wf : Wf ctx s'
  layout : SameLayout s.mem s'.mem
  generation : s'.mem.executableWriteGeneration = s.mem.executableWriteGeneration
  get : s'.mem.allocations.get? id = some a
  low : a.guestStart ≤ start
  high : stop ≤ a.guestStart + (s'.heap.object a.memory).len
  bytes : ∀ x, a.Covers s'.heap x → a.byteAt s'.heap x = home x
  vmas : ∀ key, s'.mem.vmas.get? key = (s.mem.vmas.get? key).map (rehome ids id a)
  kept : ∀ id' b, id' ∉ ids → s.mem.allocations.get? id' = some b →
    s'.mem.allocations.get? id' = some b ∧ s'.heap.object b.memory = s.heap.object b.memory
  settled : s' = s ∨ Exclusive ctx s' id

theorem Housed.spans {s' : Machine} {start stop id : Nat} {ids : List Nat} {home : Nat → UInt8}
    {a : GuestAllocation} (h : Housed ctx s s' start stop ids home id a) : SameSpans s.mem s'.mem := by
  intro key
  rw [h.vmas key]
  cases s.mem.vmas.get? key with
  | none => exact .none
  | some v => exact .some (rehome_span ids id a v)

theorem Housed.shown {s' : Machine} {start stop id : Nat} {ids : List Nat} {home : Nat → UInt8}
    {a : GuestAllocation} (h : Housed ctx s s' start stop ids home id a) {x key : Nat} {v : GuestVma}
    {b : GuestAllocation} (hv : s.mem.vmas.get? key = some v) (hlow : v.start ≤ x) (hhigh : x < v.stop)
    (hb : s.mem.allocations.get? v.allocationId = some b) :
    ∃ b', s'.mem.allocations.get? (rehome ids id a v).allocationId = some b' ∧
      b'.byteAt s'.heap x = if v.allocationId ∈ ids then home x else b.byteAt s.heap x := by
  have hv' : s'.mem.vmas.get? key = some (rehome ids id a v) := by rw [h.vmas key, hv]; rfl
  by_cases hin : v.allocationId ∈ ids
  · have hid : (rehome ids id a v).allocationId = id := by simp [rehome, hin]
    have hspan := rehome_span ids id a v
    obtain ⟨b', hb', hstart, hend, _⟩ := (h.wf.vma key _ hv').byteAt (x := x)
      (by rw [hspan.start]; exact hlow) (by rw [hspan.stop]; exact hhigh)
    rw [hid, h.get] at hb'
    obtain rfl := Option.some.inj hb'
    refine ⟨a, by rw [hid]; exact h.get, ?_⟩
    rw [if_pos hin]
    exact h.bytes x ⟨hstart, hend⟩
  · obtain ⟨hb', hobj⟩ := h.kept v.allocationId b hin hb
    have hid : (rehome ids id a v).allocationId = v.allocationId := by simp [rehome, hin]
    refine ⟨b, by rw [hid]; exact hb', ?_⟩
    rw [if_neg hin]
    unfold GuestAllocation.byteAt
    rw [hobj]

theorem Housed.shows {s' : Machine} {start stop id : Nat} {ids : List Nat} {home : Nat → UInt8}
    {a : GuestAllocation} (h : Housed ctx s s' start stop ids home id a) (hwf : Wf ctx s) {x : Nat} {c : Cell} :
    s'.Shows x c ↔ ∃ key v b, s.mem.vmas.get? key = some v ∧ v.start ≤ x ∧ x < v.stop ∧
      s.mem.allocations.get? v.allocationId = some b ∧
      c = ⟨if v.allocationId ∈ ids then home x else b.byteAt s.heap x, v.protection, v.kind⟩ := by
  rw [Machine.shows_iff]
  constructor
  · rintro ⟨key, w, b', hw, hlow, hhigh, hb', rfl⟩
    rw [h.vmas key] at hw
    obtain ⟨v, hv, rfl⟩ := Option.map_eq_some_iff.mp hw
    have hspan := rehome_span ids id a v
    rw [hspan.start] at hlow
    rw [hspan.stop] at hhigh
    obtain ⟨b, hb, _⟩ := (hwf.vma key v hv).linked
    obtain ⟨b'', hb'', hbyte⟩ := h.shown hv hlow hhigh hb
    obtain rfl := Option.some.inj (hb'.symm.trans hb'')
    exact ⟨key, v, b, hv, hlow, hhigh, hb, by rw [hbyte, hspan.protection, hspan.kind]⟩
  · rintro ⟨key, v, b, hv, hlow, hhigh, hb, rfl⟩
    obtain ⟨b', hb', hbyte⟩ := h.shown hv hlow hhigh hb
    have hspan := rehome_span ids id a v
    refine ⟨key, rehome ids id a v, b', by rw [h.vmas key, hv]; rfl, ?_, ?_, hb', ?_⟩
    · rw [hspan.start]
      exact hlow
    · rw [hspan.stop]
      exact hhigh
    · rw [hbyte, hspan.protection, hspan.kind]

theorem housed_new (hwf : Wf ctx s) {heap' : HostHeap} {ids : List Nat} {wideStart len start stop : Nat}
    {vmas : SortedMap Nat GuestVma} {allocations : SortedMap Nat GuestAllocation} {home : Nat → UInt8}
    (hext : s.heap.Extends heap') (hnext : heap'.next = s.heap.next + 1)
    (hlen : (heap'.object s.heap.next).len = len) (hpos : 0 < len) (hbound : wideStart + len < u64Limit)
    (hplaced : s.mem.hostAddressMode = .fixedGuest → wideStart ≠ 0)
    (hlow : wideStart ≤ start) (hhigh : stop ≤ wideStart + len)
    (hbytes : ∀ i < len, (heap'.object s.heap.next).byte i = home (wideStart + i))
    (hcover : ∀ id b, id ∈ ids → s.mem.allocations.get? id = some b →
      wideStart ≤ b.guestStart ∧ b.guestStart + (s.heap.object b.memory).len ≤ wideStart + len)
    (hvmas : ∀ key, vmas.get? key =
      (s.mem.vmas.get? key).map (rehome ids s.mem.nextAllocationId ⟨wideStart, s.heap.next⟩))
    (hallocations : ∀ id, allocations.get? id =
      if id = s.mem.nextAllocationId then some ⟨wideStart, s.heap.next⟩
      else if id ∈ ids then none else s.mem.allocations.get? id) :
    Housed ctx s
      ⟨{ s.mem with vmas, allocations, nextAllocationId := s.mem.nextAllocationId + 1 }, heap'⟩
      start stop ids home s.mem.nextAllocationId ⟨wideStart, s.heap.next⟩ := by
  have hget : allocations.get? s.mem.nextAllocationId = some ⟨wideStart, s.heap.next⟩ := by
    rw [hallocations, if_pos rfl]
  have hkept : ∀ id b, id ∉ ids → s.mem.allocations.get? id = some b →
      allocations.get? id = some b ∧ heap'.object b.memory = s.heap.object b.memory := by
    intro id b hid hb
    have hwb := hwf.allocation id b hb
    refine ⟨?_, hext.object _ hwb.made⟩
    rw [hallocations, if_neg hwb.id.ne, if_neg hid]
    exact hb
  have hold : ∀ id b, allocations.get? id = some b → id ≠ s.mem.nextAllocationId →
      s.mem.allocations.get? id = some b := by
    intro id b hb hne
    rw [hallocations, if_neg hne] at hb
    split at hb
    · simp at hb
    · exact hb
  refine ⟨⟨fun key w hw => ?_, fun id b hb => ?_, fun arc harc => (hwf.others arc harc).trans_le hext.next,
    hwf.brkAligned, hwf.brkLow⟩, ⟨rfl, rfl, rfl, rfl, rfl, Nat.le_succ _⟩, rfl, hget, hlow, ?_,
    fun x hx => ?_, hvmas, hkept, .inr ⟨_, hget, ?_⟩⟩
  · change vmas.get? key = some w at hw
    rw [hvmas] at hw
    obtain ⟨v, hv, rfl⟩ := Option.map_eq_some_iff.mp hw
    have hwv := hwf.vma key v hv
    obtain ⟨b, hb, hstart, hend⟩ := hwv.linked
    unfold rehome
    split
    · rename_i hin
      have hc := hcover _ b hin hb
      refine ⟨hwv.key, hwv.nonempty, hwv.startAligned, hwv.stopAligned, hwv.low, hwv.high, hwv.bounded,
        hwv.heap, ⟨wideStart, s.heap.next⟩, hget, ?_, ?_⟩
      · show wideStart + (v.start - wideStart) = v.start
        omega
      · show v.stop ≤ wideStart + (heap'.object s.heap.next).len
        omega
    · rename_i hin
      obtain ⟨hb', hobj⟩ := hkept _ b hin hb
      refine ⟨hwv.key, hwv.nonempty, hwv.startAligned, hwv.stopAligned, hwv.low, hwv.high, hwv.bounded,
        hwv.heap, b, hb', hstart, ?_⟩
      show v.stop ≤ b.guestStart + (heap'.object b.memory).len
      rw [hobj]
      exact hend
  · change allocations.get? id = some b at hb
    by_cases hid : id = s.mem.nextAllocationId
    · rw [hid, hget] at hb
      obtain rfl := Option.some.inj hb
      refine ⟨?_, ?_, ?_, ?_, hplaced⟩
      · show id < s.mem.nextAllocationId + 1
        rw [hid]
        exact Nat.lt_succ_self _
      · show s.heap.next < heap'.next
        rw [hnext]
        exact Nat.lt_succ_self _
      · show 0 < (heap'.object s.heap.next).len
        omega
      · show wideStart + (heap'.object s.heap.next).len < u64Limit
        omega
    · have hwb := hwf.allocation id b (hold id b hb hid)
      have hobj := hext.object _ hwb.made
      refine ⟨Nat.lt_succ_of_lt hwb.id, hwb.made.trans_le hext.next, ?_, ?_, hwb.placed⟩
      · show 0 < (heap'.object b.memory).len
        rw [hobj]
        exact hwb.nonempty
      · show b.guestStart + (heap'.object b.memory).len < u64Limit
        rw [hobj]
        exact hwb.bounded
  · show stop ≤ wideStart + (heap'.object s.heap.next).len
    omega
  · obtain ⟨hx1, hx2⟩ : wideStart ≤ x ∧ x < wideStart + (heap'.object s.heap.next).len := hx
    show (heap'.object s.heap.next).byte (x - wideStart) = home x
    rw [hbytes _ (by omega), Nat.add_sub_cancel' hx1]
  · refine strongCount_fresh hwf.others_next hget rfl fun id b hb hmem => ?_
    by_contra hne
    have hwb := hwf.allocation id b (hold id b hb hne)
    exact absurd hmem hwb.made.ne

/-- The host refused the request, or in the fixed mode was asked for address zero. -/
def AllocationError (ctx : Context) (site : AllocSite) (s : Machine) (start : Nat) (e : Abort) : Prop :=
  RefusedAt ctx site e ∨
    (s.mem.hostAddressMode = .fixedGuest ∧ start = 0) ∧ ∃ error, e = .error (.host error)

theorem allocationError_of_refused {site : AllocSite} {start len : Nat} {error : HostError}
    (h : AllocationRefused ctx site start len s.mem.hostAddressMode error) (hlen : 0 < len) :
    AllocationError ctx site s start (.error (.host error)) := by
  rcases h with hzero | hplaced | ⟨n, hn⟩
  · omega
  · exact .inr ⟨hplaced, error, rfl⟩
  · exact .inl ⟨n, error, hn, rfl⟩

theorem AllocationError.isHost {site : AllocSite} {start : Nat} {e : Abort}
    (h : AllocationError ctx site s start e) : ∃ error, e = .error (.host error) := by
  rcases h with ⟨_, error, _, he⟩ | ⟨_, he⟩
  · exact ⟨error, he⟩
  · exact he

theorem replaceOverlappingAllocations_spec (hwf : Wf ctx s)
    (hrestore : ∀ n, ctx.refusal n .restore = none)
    (hids : s.mem.nextAllocationId + 1 < u64Limit) {start wideStart len : Nat} (stop : Nat)
    (entries : List (Nat × GuestAllocation)) (hnodup : (entries.map Prod.fst).Nodup)
    (hentries : ∀ e ∈ entries, s.mem.allocations.get? e.1 = some e.2)
    (hrange : ∀ e ∈ entries, wideStart ≤ e.2.guestStart ∧
      e.2.guestStart + (s.heap.object e.2.memory).len ≤ wideStart + len)
    (hbound : wideStart + len < u64Limit) (hlow : wideStart ≤ start) (hhigh : stop ≤ wideStart + len)
    (hlt : start < stop) :
    (replaceOverlappingAllocations ctx start wideStart (wideStart + len) (entries.map Prod.fst)).wp
      (fun r s' => ∃ a, Housed ctx s s' start stop (entries.map Prod.fst)
        (overlay s.heap (entries.map Prod.snd)) r.1 a ∧ a.guestStart = wideStart ∧
        a.guestStart + r.2 = start)
      (fun e s' => (Similar s s' ∧ Wf ctx s') ∧ AllocationError ctx .replacement s wideStart e) s := by
  rw [replaceOverlappingAllocations, wp_bind]
  refine saveAllocations_spec hwf entries hentries ?_
  rw [wp_bind, wp_getMem, wp_bind, wp_modifyMem, wp_ite, if_neg (by omega), Nat.add_sub_cancel_left, wp_bind,
    wp_tryCatch]
  have hget : ∀ id, (s.mem.allocations.filter fun id _ => decide (id ∉ entries.map Prod.fst)).get? id =
      if id ∈ entries.map Prod.fst then none else s.mem.allocations.get? id := by
    intro id
    rw [SortedMap.get?_filter]
    by_cases hin : id ∈ entries.map Prod.fst
    · rw [if_pos hin]
      cases s.mem.allocations.get? id <;> simp [Option.filter, hin]
    · rw [if_neg hin]
      cases s.mem.allocations.get? id <;> simp [Option.filter, hin]
  refine wp_allocateGuestHostMemoryAt (fun heap' halloc hpos hplaced => ?_)
    (fun error heap' hrefused hobj hnext => ?_)
  · -- the replacement was granted: fill it, enter it, point the VMAs at it
    have hnew : heap'.object s.heap.next = .zeros len := by
      rw [halloc.object]
      simp [HostHeap.set]
    rw [wp_bind]
    refine wp_mono (copySaved_spec s.heap.next entries
      hrange (by show (heap'.object s.heap.next).len = len; rw [hnew]; rfl)) (fun _ t ht => ?_) (fun _ _ h => h)
    obtain ⟨hmem, htnext, hothers, htlen, htbyte⟩ := ht
    obtain ⟨tmem, theap⟩ := t
    simp only at hmem htnext hothers htlen htbyte
    subst hmem
    have hext : s.heap.Extends theap := by
      refine ⟨?_, fun arc harc => ?_⟩
      · rw [htnext, halloc.next]
        exact Nat.le_succ _
      · have hne : arc ≠ s.heap.next := harc.ne
        rw [hothers arc hne, halloc.object]
        simp [HostHeap.set, hne]
    rw [wp_bind, wp_insertAllocation, if_pos hids, wp_bind, wp_tryCatch]
    refine wp_applyAllocationProtections ?_ (.inr fun range hin => ?_)
    · rw [wp_bind, wp_modifyMem, wp_pure]
      refine ⟨⟨wideStart, s.heap.next⟩, ?_, rfl, by show wideStart + (start - wideStart) = start; omega⟩
      refine housed_new hwf hext (by rw [htnext, halloc.next]) htlen hpos hbound hplaced hlow hhigh
        (fun i _ => ?_) (fun id b hid hb => ?_) (fun key => ?_) (fun id => ?_)
      · rw [htbyte i]
        show _ = overlay s.heap (entries.map Prod.snd) (wideStart + i)
        unfold overlay
        rw [hnew]
        rfl
      · obtain ⟨e, he, rfl⟩ := List.mem_map.mp hid
        obtain rfl := Option.some.inj (hb.symm.trans (hentries e he))
        exact hrange e he
      · rw [SortedMap.get?_mapValues]
        rfl
      · rw [SortedMap.get?_insert, hget]
    · obtain ⟨vma, hvma, rfl⟩ := List.mem_map.mp hin
      obtain ⟨hvalue, hid⟩ := List.mem_filter.mp hvma
      obtain ⟨key, hv⟩ := SortedMap.mem_values.mp hvalue
      have hwv := hwf.vma key vma hv
      obtain ⟨b, hb, hstart, hend⟩ := hwv.linked
      obtain ⟨e, he, heq⟩ := List.mem_map.mp (of_decide_eq_true hid)
      rw [← heq] at hb
      obtain rfl := Option.some.inj (hb.symm.trans (hentries e he))
      have hr := hrange e he
      have hne := hwv.nonempty
      show 0 < vma.len ∧ vma.start - wideStart + vma.len ≤ (theap.object s.heap.next).len
      unfold GuestVma.len
      omega
  · rw [wp_bind]
    have hrestoring : Restoring s ⟨{ s.mem with
        allocations := s.mem.allocations.filter (fun id _ => decide (id ∉ entries.map Prod.fst)) },
        heap'⟩ entries := by
      refine ⟨rfl, ⟨hnext.ge, fun arc _ => by rw [hobj]⟩, fun id b hb => ?_, fun id => ?_⟩
      · have hb' := (SortedMap.get?_filter_eq_some.mp hb).1
        show b.memory < heap'.next
        rw [hnext]
        exact (hwf.allocation id b hb').made
      · show Option.Rel _ _ ((s.mem.allocations.filter _).get? id)
        rw [hget]
        split
        · exact .none
        · cases s.mem.allocations.get? id with
          | none => exact .none
          | some a =>
              refine .some ⟨rfl, ?_⟩
              show ByteBuf.Same _ (heap'.object a.memory)
              rw [hobj]
              exact ByteBuf.Same.refl _
    refine wp_mono (restoreSavedAllocations_spec hwf hrestore entries hnodup hentries hrestoring)
      (fun _ s' h => ?_) (fun _ _ h => h)
    exact (wp_throw _).mpr ⟨h, allocationError_of_refused hrefused (by omega)⟩

end Replace

/-! ### `ensure_host_allocation` -/

section Ensure

variable {ctx : Context} {s : Machine}

/-- The allocations a mapping replaces: none when one has room for it. -/
def mergedEntries (ctx : Context) (s : Machine) (start length : Nat) : List (Nat × GuestAllocation) :=
  match s.mem.findContaining s.heap start (start + length) with
  | some _ => []
  | none =>
    match hostAllocationRange ctx start length with
    | .error _ => []
    | .ok (guestStart, len) =>
      s.mem.allocations.entries.filter (fun e => e.2.overlapsGuestRange s.heap guestStart (guestStart + len))

def mergedIds (ctx : Context) (s : Machine) (start length : Nat) : List Nat :=
  (mergedEntries ctx s start length).map Prod.fst

/-- The byte the mapping's host memory holds for a guest address before it is zeroed. -/
def homeByte (ctx : Context) (s : Machine) (start length : Nat) (x : Nat) : UInt8 :=
  match s.mem.findContaining s.heap start (start + length) with
  | some (_, a) => a.byteAt s.heap x
  | none => overlay s.heap ((mergedEntries ctx s start length).map Prod.snd) x

theorem AllocationWf.guestEnd {id : Nat} {a : GuestAllocation} (h : AllocationWf s id a) :
    a.guestEnd s.heap = a.guestStart + (s.heap.object a.memory).len := by
  have := h.bounded
  unfold GuestAllocation.guestEnd
  omega

theorem widenOver_spec (heap : HostHeap) (allocations : List GuestAllocation) (range : Nat × Nat) :
    (widenOver heap allocations range).1 ≤ range.1 ∧ range.2 ≤ (widenOver heap allocations range).2 ∧
      (∀ a ∈ allocations, (widenOver heap allocations range).1 ≤ a.guestStart ∧
        a.guestEnd heap ≤ (widenOver heap allocations range).2) ∧
      (range.2 < u64Limit → (widenOver heap allocations range).2 < u64Limit) ∧
      ((widenOver heap allocations range).1 = range.1 ∨
        ∃ a ∈ allocations, (widenOver heap allocations range).1 = a.guestStart) := by
  induction allocations generalizing range with
  | nil => exact ⟨le_rfl, le_rfl, by simp, id, .inl rfl⟩
  | cons a rest ih =>
      obtain ⟨guestStart, guestEnd⟩ := range
      rw [widenOver]
      obtain ⟨h1, h2, h3, h4, h5⟩ := ih (min guestStart a.guestStart, max guestEnd (a.guestEnd heap))
      simp only at h1 h2 h4 h5 ⊢
      have hend : a.guestEnd heap < u64Limit := by
        unfold GuestAllocation.guestEnd u64Limit
        omega
      refine ⟨by omega, by omega, fun b hb => ?_, fun hlt => h4 (by omega), ?_⟩
      · clear h5
        rcases List.mem_cons.mp hb with rfl | hb
        · omega
        · exact h3 b hb
      · rcases h5 with h5 | ⟨b, hb, h5⟩
        · rcases Nat.le_total guestStart a.guestStart with hle | hle
          · exact .inl (by omega)
          · exact .inr ⟨a, by simp, by omega⟩
        · exact .inr ⟨b, List.mem_cons_of_mem _ hb, h5⟩

theorem findContaining_some (hwf : Wf ctx s) {start stop id : Nat} {a : GuestAllocation}
    (h : s.mem.findContaining s.heap start stop = some (id, a)) :
    s.mem.allocations.get? id = some a ∧ a.guestStart ≤ start ∧
      stop ≤ a.guestStart + (s.heap.object a.memory).len := by
  have hmem := List.mem_of_find?_eq_some h
  have hget := SortedMap.get?_eq_some_iff.mpr hmem
  have hcontains := List.find?_some h
  simp only [GuestAllocation.containsGuestRange, decide_eq_true_eq] at hcontains
  rw [(hwf.allocation id a hget).guestEnd] at hcontains
  exact ⟨hget, hcontains⟩

theorem housed_containing (hwf : Wf ctx s) {start stop id : Nat} {a : GuestAllocation}
    (h : s.mem.findContaining s.heap start stop = some (id, a)) :
    Housed ctx s s start stop [] (a.byteAt s.heap) id a := by
  obtain ⟨hget, hlow, hhigh⟩ := findContaining_some hwf h
  refine ⟨hwf, SameLayout.refl _, rfl, hget, hlow, hhigh, fun _ _ => rfl, fun key => ?_,
    fun _ b _ hb => ⟨hb, rfl⟩, .inl rfl⟩
  cases s.mem.vmas.get? key with
  | none => rfl
  | some v => simp [rehome]

theorem hostAllocationRange_ok {start length guestStart len : Nat}
    (h : hostAllocationRange ctx start length = .ok (guestStart, len)) :
    guestStart ≤ start ∧ start + length ≤ guestStart + len ∧ guestStart + len < u64Limit ∧
      guestStart = alignDownTo start ctx.platform.allocationGranularity := by
  unfold hostAllocationRange at h
  cases hr : checkedRawRange start length with
  | error e => simp [hr, bind, Except.bind] at h
  | ok stop =>
      obtain ⟨rfl, _⟩ := checkedRawRange_eq_ok.mp hr
      cases hu : alignUpTo (start + length) ctx.platform.allocationGranularity with
      | error e => simp [hr, hu, bind, Except.bind] at h
      | ok guestEnd =>
          simp only [hr, hu, bind, Except.bind, pure, Except.pure, Except.ok.injEq, Prod.mk.injEq] at h
          obtain ⟨rfl, rfl⟩ := h
          have hpos : 0 < ctx.platform.allocationGranularity := by
            cases ctx.platform <;> decide
          have hup := alignUpTo_ok hpos hu
          have hdown := alignDownTo_le start ctx.platform.allocationGranularity
          exact ⟨hdown, by omega, by omega, rfl⟩

theorem hostAllocationRange_error {start length : Nat} {e : GuestMemoryError}
    (h : hostAllocationRange ctx start length = .error e) : e = .invalidLength := by
  unfold hostAllocationRange at h
  cases hr : checkedRawRange start length with
  | error e' =>
      simp only [hr, bind, Except.bind, Except.error.injEq] at h
      exact h ▸ checkedRawRange_error hr
  | ok stop =>
      cases hu : alignUpTo stop ctx.platform.allocationGranularity with
      | error e' =>
          simp only [hr, hu, bind, Except.bind, Except.error.injEq] at h
          exact h ▸ alignUpTo_error hu
      | ok guestEnd => simp [hr, hu, bind, Except.bind, pure, Except.pure] at h

theorem freshAllocation_spec (hwf : Wf ctx s) (hids : s.mem.nextAllocationId + 1 < u64Limit)
    {start wideStart len : Nat} (stop : Nat) (hlow : wideStart ≤ start) (hhigh : stop ≤ wideStart + len)
    (hlt : start < stop) (hbound : wideStart + len < u64Limit) :
    (allocateGuestHostMemoryAt ctx .fresh wideStart len s.mem.hostAddressMode >>= fun arc =>
      insertAllocation wideStart arc >>= fun id => pure (id, start - wideStart)).wp
      (fun r s' => ∃ a, Housed ctx s s' start stop [] (fun _ => 0) r.1 a ∧ a.guestStart = wideStart ∧
        a.guestStart + r.2 = start)
      (fun e s' => (Similar s s' ∧ Wf ctx s') ∧ AllocationError ctx .fresh s wideStart e) s := by
  rw [wp_bind]
  refine wp_allocateGuestHostMemoryAt (fun heap' halloc hlen hplaced => ?_)
    (fun error heap' hrefused hobj hnext => ?_)
  · have hnew : heap'.object s.heap.next = .zeros len := by
      rw [halloc.object]
      simp [HostHeap.set]
    have hext : s.heap.Extends heap' := by
      refine ⟨?_, fun arc harc => ?_⟩
      · rw [halloc.next]
        exact Nat.le_succ _
      · have hne : arc ≠ s.heap.next := harc.ne
        rw [halloc.object]
        simp [HostHeap.set, hne]
    rw [wp_bind, wp_insertAllocation, if_pos hids, wp_pure]
    refine ⟨⟨wideStart, s.heap.next⟩, ?_, rfl, by show wideStart + (start - wideStart) = start; omega⟩
    refine housed_new hwf hext halloc.next (by rw [hnew]; rfl) hlen hbound hplaced hlow hhigh
      (fun i _ => by rw [hnew]; rfl) (by simp) (fun key => ?_) (fun id => ?_)
    · cases s.mem.vmas.get? key with
      | none => rfl
      | some v => simp [rehome]
    · rw [SortedMap.get?_insert]
      simp
  · have hext : s.heap.Extends heap' := ⟨hnext.ge, fun arc _ => by rw [hobj]⟩
    exact ⟨similar_extends hwf hext, allocationError_of_refused hrefused (by omega)⟩

/-- In the fixed mode the host memory for the mapping would have to start at address zero. -/
def NeedsAddressZero (ctx : Context) (s : Machine) (start length : Nat) : Prop :=
  s.mem.hostAddressMode = .fixedGuest ∧ s.mem.findContaining s.heap start (start + length) = none ∧
    alignDownTo start ctx.platform.allocationGranularity = 0

/-- The host refused one of its requests. -/
def Refused (ctx : Context) (e : Abort) : Prop := ∃ site, RefusedAt ctx site e

/-- Host memory for a mapping, found or made; or nothing lost. -/
theorem ensureHostAllocation_spec (hwf : Wf ctx s) (hrestore : ∀ n, ctx.refusal n .restore = none)
    (hids : s.mem.nextAllocationId + 1 < u64Limit) {start length : Nat} (hpos : 0 < length) :
    (ensureHostAllocation ctx start length).wp
      (fun r s' => (∃ a, Housed ctx s s' start (start + length) (mergedIds ctx s start length)
        (homeByte ctx s start length) r.1 a ∧ a.guestStart + r.2 = start) ∧
        ¬ NeedsAddressZero ctx s start length)
      (fun e s' => (Similar s s' ∧ Wf ctx s') ∧ e ≠ .panic ∧
        ((∃ error, e = .error (.host error)) → Refused ctx e ∨ NeedsAddressZero ctx s start length)) s := by
  -- a failed check has changed nothing and is not the host's
  have hcheck : ∀ {α : Type} (x : Except GuestMemoryError α) (error : GuestMemoryError), x = .error error →
      error = .invalidLength → (Similar s s ∧ Wf ctx s) ∧ Abort.error error ≠ Abort.panic ∧
        ((∃ error', Abort.error error = .error (.host error')) →
          Refused ctx (.error error) ∨ NeedsAddressZero ctx s start length) := by
    rintro _ _ error - rfl
    exact ⟨⟨Similar.refl s, hwf⟩, by simp, by simp⟩
  unfold ensureHostAllocation
  refine wp_check_bind (fun stop hraw => ?_) (fun e he => hcheck _ e he (checkedRawRange_error he))
  obtain ⟨rfl, hstop⟩ := checkedRawRange_eq_ok.mp hraw
  rw [wp_bind, wp_get]
  cases hfind : s.mem.findContaining s.heap start (start + length) with
  | some found =>
      obtain ⟨id, a⟩ := found
      have hhoused := housed_containing hwf hfind
      have hhome : homeByte ctx s start length = a.byteAt s.heap := by
        funext x
        simp only [homeByte, hfind]
      have hids : mergedIds ctx s start length = [] := by simp [mergedIds, mergedEntries, hfind]
      refine (wp_pure _).mpr ⟨⟨a, ?_, Nat.add_sub_cancel' hhoused.low⟩, fun hzero => ?_⟩
      · rw [hhome, hids]
        exact hhoused
      · exact absurd (hfind.symm.trans hzero.2.1) (by simp)
  | none =>
      refine wp_check_bind (fun r hrange => ?_) (fun e he => hcheck _ e he (hostAllocationRange_error he))
      obtain ⟨guestStart, len⟩ := r
      obtain ⟨hlow, hhigh, hbound, hdown⟩ := hostAllocationRange_ok hrange
      refine wp_check_bind (fun guestEnd hcheck => ?_) (fun e he => hcheck _ e he (checkedRawRange_error he))
      obtain ⟨rfl, _⟩ := checkedRawRange_eq_ok.mp hcheck
      have hmerged : mergedEntries ctx s start length = s.mem.allocations.entries.filter
          (fun e => e.2.overlapsGuestRange s.heap guestStart (guestStart + len)) := by
        simp only [mergedEntries, hfind, hrange]
      have hhome : homeByte ctx s start length =
          overlay s.heap ((mergedEntries ctx s start length).map Prod.snd) := by
        funext x
        simp only [homeByte, hfind]
      have hget : ∀ e ∈ mergedEntries ctx s start length, s.mem.allocations.get? e.1 = some e.2 := by
        intro e he
        rw [hmerged] at he
        exact SortedMap.get?_eq_some_iff.mpr (List.mem_filter.mp he).1
      have hnodup : ((mergedEntries ctx s start length).map Prod.fst).Nodup := by
        rw [hmerged]
        exact (s.mem.allocations.keys_sorted.imp fun hlt => hlt.ne).sublist (List.filter_sublist.map _)
      rw [hhome, mergedIds, ← hmerged]
      dsimp only
      generalize mergedEntries ctx s start length = entries at hget hnodup ⊢
      have hwide := widenOver_spec s.heap (entries.map Prod.snd) (guestStart, guestStart + len)
      generalize widenOver s.heap (entries.map Prod.snd) (guestStart, guestStart + len) = wide at hwide ⊢
      obtain ⟨wideStart, wideEnd⟩ := wide
      obtain ⟨hw1, hw2, hw3, hw4, hw5⟩ := hwide
      simp only at hw1 hw2 hw3 hw4 hw5 ⊢
      obtain ⟨wideLen, rfl⟩ : ∃ wideLen, wideEnd = wideStart + wideLen := ⟨wideEnd - wideStart, by omega⟩
      -- in the fixed mode no allocation starts at zero, so only the rounding can reach it
      have hzero : s.mem.hostAddressMode = .fixedGuest → wideStart = 0 →
          NeedsAddressZero ctx s start length := by
        intro hmode hw
        refine ⟨hmode, hfind, ?_⟩
        rw [← hdown]
        rcases hw5 with hw5 | ⟨b, hb, hw5⟩
        · omega
        · obtain ⟨e, he, rfl⟩ := List.mem_map.mp hb
          exact absurd (hw5.symm.trans hw) ((hwf.allocation _ _ (hget e he)).placed hmode)
      have hnonzero : ∀ {s' : Machine} {id : Nat} {ids : List Nat} {home : Nat → UInt8} {a : GuestAllocation},
          Housed ctx s s' start (start + length) ids home id a → a.guestStart = wideStart →
          ¬ NeedsAddressZero ctx s start length := by
        rintro s' id ids home a hhoused rfl ⟨hmode, _, hz⟩
        refine (hhoused.wf.allocation _ _ hhoused.get).placed ?_ ?_
        · rw [hhoused.layout.mode]
          exact hmode
        · omega
      have herror : ∀ {site : AllocSite} {e : Abort}, AllocationError ctx site s wideStart e → e ≠ .panic ∧
          ((∃ error, e = .error (.host error)) → Refused ctx e ∨ NeedsAddressZero ctx s start length) := by
        intro site e he
        refine ⟨?_, fun _ => ?_⟩
        · obtain ⟨error, rfl⟩ := he.isHost
          simp
        · rcases he with hrefused | ⟨⟨hmode, hw⟩, _⟩
          · exact .inl ⟨site, hrefused⟩
          · exact .inr (hzero hmode hw)
      rw [wp_ite]
      split
      · refine wp_mono (replaceOverlappingAllocations_spec hwf hrestore hids (start + length) entries
          hnodup hget (fun e he => ?_) (by omega) (by omega) (by omega) (by omega))
          (fun r s' h => ?_) (fun e s' h => ⟨h.1, herror h.2⟩)
        · have hw := hw3 e.2 (List.mem_map.mpr ⟨e, he, rfl⟩)
          rw [(hwf.allocation _ _ (hget e he)).guestEnd] at hw
          exact hw
        · obtain ⟨a, hhoused, hguest, hoffset⟩ := h
          exact ⟨⟨a, hhoused, hoffset⟩, hnonzero hhoused hguest⟩
      · rename_i hnone
        rw [not_not] at hnone
        subst hnone
        rw [wp_ite, if_neg (by omega), wp_ite, if_neg (by omega), Nat.add_sub_cancel_left]
        refine wp_mono (freshAllocation_spec hwf hids (start + length) (by omega) (by omega) (by omega)
          (by omega)) (fun r s' h => ?_) (fun e s' h => ⟨h.1, herror h.2⟩)
        obtain ⟨a, hhoused, hguest, hoffset⟩ := h
        exact ⟨⟨a, hhoused, hoffset⟩, hnonzero hhoused hguest⟩

end Ensure

end Mcr.Memory
