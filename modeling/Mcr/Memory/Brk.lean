import Mcr.Memory.Map
import Mcr.Memory.Protect

/-!
# What moving the program break leaves behind

Shrinking removes heap VMAs above the new end. Growing enters one VMA over the whole heap, in place of
the one that starts at the base; any other heap VMA below the new end stays where it is.
-/

namespace Mcr.Memory

open Prog

/-! ### The heap VMAs -/

section HeapVma

variable {ctx : Context} {s : Machine}

theorem heapVma_some {memory : GuestMemory} {h : GuestVma} (hheap : memory.heapVma = some h) :
    ∃ key, memory.vmas.get? key = some h ∧ h.kind = .heap := by
  obtain ⟨hkind, hmem⟩ := And.intro (List.find?_some hheap) (List.mem_of_find?_eq_some hheap)
  obtain ⟨key, hget⟩ := SortedMap.mem_values.mp hmem
  exact ⟨key, hget, by simpa [GuestVma.isHeap] using hkind⟩

theorem heapVma_none {memory : GuestMemory} (hheap : memory.heapVma = none) {key : Nat} {v : GuestVma}
    (hv : memory.vmas.get? key = some v) : v.kind ≠ .heap := by
  have := List.find?_eq_none.mp hheap v (SortedMap.mem_values.mpr ⟨key, hv⟩)
  simpa [GuestVma.isHeap] using this

theorem brkBase_le_heapMappedEnd (memory : GuestMemory) : memory.brkBase ≤ memory.heapMappedEnd := by
  unfold GuestMemory.heapMappedEnd
  split
  · exact le_max_right _ _
  · exact le_rfl

theorem Wf.heapMappedEnd_eq (hwf : Wf ctx s) {h : GuestVma} (hheap : s.mem.heapVma = some h) :
    s.mem.heapMappedEnd = h.stop := by
  obtain ⟨key, hget, hkind⟩ := heapVma_some hheap
  have hwv := hwf.vma key h hget
  have hbase := hwv.heap hkind
  have hne := hwv.nonempty
  unfold GuestMemory.heapMappedEnd
  rw [hheap]
  exact max_eq_left (by omega)

theorem not_brkCanGrow {memory : GuestMemory} {oldEnd newEnd : Nat}
    (h : memory.brkCanGrow oldEnd newEnd = true) {key : Nat} {v : GuestVma}
    (hv : memory.vmas.get? key = some v) (hkind : v.kind ≠ .heap) : newEnd ≤ v.start ∨ v.stop ≤ oldEnd := by
  unfold GuestMemory.brkCanGrow at h
  rw [Bool.not_eq_true', List.any_eq_false] at h
  have := h v (SortedMap.mem_values.mpr ⟨key, hv⟩)
  simp only [GuestVma.isHeap, hkind, decide_false, Bool.not_false, Bool.true_and, Bool.and_eq_true,
    decide_eq_true_eq] at this
  omega

theorem mem_heapKeysFrom {memory : GuestMemory} {start key : Nat} :
    key ∈ memory.heapKeysFrom start ↔
      ∃ v, memory.vmas.get? key = some v ∧ start ≤ key ∧ v.kind = .heap := by
  unfold GuestMemory.heapKeysFrom
  simp only [List.mem_map, List.mem_filter, Prod.exists, Bool.and_eq_true, decide_eq_true_eq,
    GuestVma.isHeap]
  constructor
  · rintro ⟨k, v, ⟨hmem, hstart, hkind⟩, rfl⟩
    exact ⟨v, SortedMap.get?_eq_some_iff.mpr hmem, hstart, hkind⟩
  · rintro ⟨v, hget, hstart, hkind⟩
    exact ⟨key, v, ⟨SortedMap.get?_eq_some_iff.mp hget, hstart, hkind⟩, rfl⟩

end HeapVma

/-! ### `shrink_heap` -/

section Shrink

variable {ctx : Context} {s : Machine}

theorem shrinkHeap_kept (hwf : Wf ctx s) {mappedEnd : Nat} (haligned : Aligned mappedEnd) :
    Kept ctx s { s with mem := s.mem.shrinkHeap mappedEnd } := by
  unfold GuestMemory.shrinkHeap
  split
  · exact ⟨dropUnreferenced_wf (removeKeys_wf hwf _), fun hd => removeKeys_disjoint hd _,
      ⟨rfl, rfl, rfl, rfl, rfl, le_rfl⟩⟩
  · have hwf' := splitVmaAt_wf hwf haligned
    refine ⟨dropUnreferenced_wf (removeKeys_wf (s := { s with mem := _ }) hwf' _),
      fun hd => removeKeys_disjoint (splitVmaAt_disjoint hwf _ hd) _, ?_⟩
    obtain ⟨vmas, h⟩ := splitVmaAt_eq s.mem mappedEnd
    rw [h]
    exact ⟨rfl, rfl, rfl, rfl, rfl, le_rfl⟩

theorem shrinkHeap_shows (hwf : Wf ctx s) (hd : s.mem.Disjoint) {mappedEnd : Nat}
    (haligned : Aligned mappedEnd) {x : Nat} {c : Cell} :
    Machine.Shows { s with mem := s.mem.shrinkHeap mappedEnd } x c ↔
      s.Shows x c ∧ ¬ (c.kind = .heap ∧ mappedEnd ≤ x) := by
  unfold GuestMemory.shrinkHeap
  split
  · rename_i hbase
    refine removeKeys_shows.trans ?_
    rw [Machine.shows_iff]
    constructor
    · rintro ⟨key, v, a, hv, hkey, hlow, hhigh, ha, rfl⟩
      refine ⟨⟨key, v, a, hv, hlow, hhigh, ha, rfl⟩, fun hheap => hkey ?_⟩
      exact mem_heapKeysFrom.mpr ⟨v, hv, Nat.zero_le _, hheap.1⟩
    · rintro ⟨⟨key, v, a, hv, hlow, hhigh, ha, rfl⟩, hout⟩
      refine ⟨key, v, a, hv, fun hkey => hout ?_, hlow, hhigh, ha, rfl⟩
      obtain ⟨w, hw, _, hheap⟩ := mem_heapKeysFrom.mp hkey
      obtain rfl := Option.some.inj (hv.symm.trans hw)
      have := (hwf.vma key v hv).heap hheap
      exact ⟨hheap, by omega⟩
  · have hwf' := splitVmaAt_wf hwf haligned
    have hcut := splitVmaAt_cut hwf mappedEnd hd
    rw [← (splitVmaAt_neutral hwf mappedEnd).shows x c]
    refine (removeKeys_shows (s := { s with mem := s.mem.splitVmaAt mappedEnd })).trans ?_
    rw [Machine.shows_iff (s := { s with mem := s.mem.splitVmaAt mappedEnd })]
    constructor
    · rintro ⟨key, v, a, hv, hkey, hlow, hhigh, ha, rfl⟩
      refine ⟨⟨key, v, a, hv, hlow, hhigh, ha, rfl⟩, fun hheap => hkey ?_⟩
      have hstart := (hwf'.vma key v hv).key
      have hedge := hcut key v hv
      exact mem_heapKeysFrom.mpr ⟨v, hv, by omega, hheap.1⟩
    · rintro ⟨⟨key, v, a, hv, hlow, hhigh, ha, rfl⟩, hout⟩
      refine ⟨key, v, a, hv, fun hkey => hout ?_, hlow, hhigh, ha, rfl⟩
      obtain ⟨w, hw, hstart, hheap⟩ := mem_heapKeysFrom.mp hkey
      obtain rfl := Option.some.inj (hv.symm.trans hw)
      have := (hwf'.vma key v hv).key
      exact ⟨hheap, by omega⟩

end Shrink

/-! ### `resize_heap` -/

section Resize

variable {ctx : Context} {s : Machine}

/-- What the grown heap and the other VMAs show, when the VMAs of the allocations `ids` have moved to a host
memory that holds `home`. -/
def GrownView (s : Machine) (newEnd : Nat) (ids : List Nat) (home : Nat → UInt8) (x : Nat) (c : Cell) : Prop :=
  (s.mem.brkBase ≤ x ∧ x < newEnd) ∧
    c = ⟨if s.mem.heapMappedEnd ≤ x then 0 else home x, heapProtection, .heap⟩ ∨
  ∃ key v b, s.mem.vmas.get? key = some v ∧ key ≠ s.mem.brkBase ∧ v.start ≤ x ∧ x < v.stop ∧
    s.mem.allocations.get? v.allocationId = some b ∧
    c = ⟨if v.allocationId ∈ ids then home x else b.byteAt s.heap x, v.protection, v.kind⟩

/-- The heap has been grown to `newEnd`: one VMA from the base to there, over the host memory of a
mapping of that range; every other VMA has kept its place. -/
structure Grew (ctx : Context) (s s' : Machine) (newEnd : Nat) : Prop where
  wf : Wf ctx s'
  layout : SameLayout s.mem s'.mem
  generation : s'.mem.executableWriteGeneration = s.mem.executableWriteGeneration
  spans : ∀ key, key ≠ s.mem.brkBase → Option.Rel SameSpan (s.mem.vmas.get? key) (s'.mem.vmas.get? key)
  heap : ∃ w, s'.mem.vmas.get? s.mem.brkBase = some w ∧ w.start = s.mem.brkBase ∧ w.stop = newEnd ∧
    w.kind = .heap
  shows : (∀ key v, s.mem.vmas.get? key = some v → key ≠ s.mem.brkBase →
      v.stop ≤ s.mem.heapMappedEnd ∨ newEnd ≤ v.start) →
    ∀ x c, s'.Shows x c ↔ GrownView s newEnd (mergedIds ctx s s.mem.brkBase (newEnd - s.mem.brkBase))
      (homeByte ctx s s.mem.brkBase (newEnd - s.mem.brkBase)) x c

theorem replaceVma_shows (vma : GuestVma) {a : GuestAllocation}
    (ha : s.mem.allocations.get? vma.allocationId = some a) {x : Nat} {c : Cell} :
    Machine.Shows { s with mem := { s.mem with vmas := s.mem.vmas.insert vma.start vma } } x c ↔
      (vma.start ≤ x ∧ x < vma.stop) ∧ c = ⟨a.byteAt s.heap x, vma.protection, vma.kind⟩ ∨
      ∃ key v b, s.mem.vmas.get? key = some v ∧ key ≠ vma.start ∧ v.start ≤ x ∧ x < v.stop ∧
        s.mem.allocations.get? v.allocationId = some b ∧ c = ⟨b.byteAt s.heap x, v.protection, v.kind⟩ := by
  rw [Machine.shows_iff]
  constructor
  · rintro ⟨key, v, b, hv, hlow, hhigh, hb, rfl⟩
    change (s.mem.vmas.insert vma.start vma).get? key = some v at hv
    rw [SortedMap.get?_insert] at hv
    split at hv
    · obtain rfl := Option.some.inj hv
      obtain rfl := Option.some.inj (ha.symm.trans hb)
      exact .inl ⟨⟨hlow, hhigh⟩, rfl⟩
    · exact .inr ⟨key, v, b, hv, by assumption, hlow, hhigh, hb, rfl⟩
  · rintro (⟨⟨hlow, hhigh⟩, rfl⟩ | ⟨key, v, b, hv, hne, hlow, hhigh, hb, rfl⟩)
    · refine ⟨vma.start, vma, a, ?_, hlow, hhigh, ha, rfl⟩
      show (s.mem.vmas.insert vma.start vma).get? vma.start = _
      rw [SortedMap.get?_insert, if_pos rfl]
    · refine ⟨key, v, b, ?_, hlow, hhigh, hb, rfl⟩
      show (s.mem.vmas.insert vma.start vma).get? key = _
      rw [SortedMap.get?_insert, if_neg hne]
      exact hv

theorem resizeHeap_spec (hwf : Wf ctx s) (hrestore : ∀ n, ctx.refusal n .restore = none)
    (hids : s.mem.nextAllocationId + 1 < u64Limit) {newEnd : Nat} (haligned : Aligned newEnd)
    (hbound : newEnd < u64Limit) (hspace : newEnd ≤ s.mem.addressSpaceEnd)
    (hgrow : s.mem.heapMappedEnd < newEnd) :
    (resizeHeap ctx newEnd).wp (fun _ s' => Grew ctx s s' newEnd)
      (fun e s' => (Similar s s' ∧ Wf ctx s') ∧ e ≠ .panic) s := by
  have hbase := brkBase_le_heapMappedEnd s.mem
  have hrange : s.mem.brkBase + (newEnd - s.mem.brkBase) = newEnd := by omega
  rw [resizeHeap, wp_bind, wp_getMem, wp_ite, if_neg (by omega), wp_ite, if_neg (by omega), wp_bind]
  refine wp_mono (ensureHostAllocation_spec hwf hrestore hids (by omega)) (fun r t h => ?_)
    (fun _ _ h => ⟨h.1, h.2.1⟩)
  obtain ⟨id, offset⟩ := r
  obtain ⟨⟨a, hhoused, hoffset⟩, _⟩ := h
  rw [hrange] at hhoused
  have hhigh := hhoused.high
  simp only at hoffset ⊢
  rw [max_eq_left hbase, wp_bind, wp_when, if_pos hgrow]
  refine wp_mono (zeroAllocationRange_spec hhoused.wf hhoused.get (by omega)) (fun _ u hu => ?_)
    (fun e u hu => ?_)
  swap
  · -- only an allocation that was there before can be shared
    rcases hhoused.settled with rfl | hexcl
    · obtain ⟨hkept, hrefused, _⟩ := hu
      refine ⟨hkept, ?_⟩
      obtain ⟨_, _, _, rfl⟩ := hrefused
      simp
    · exact absurd hexcl hu.2.2
  obtain ⟨hrewritten, hwfu, hexcl⟩ := hu
  obtain ⟨b, hb, hguest, hlen, hbyte⟩ := hrewritten.get hhoused.get
  have hspans : SameSpans s.mem u.mem := hhoused.spans.trans (SameSpans.of_eq hrewritten.vmas)
  have hlayout : SameLayout s.mem u.mem := hhoused.layout.trans hrewritten.layout
  have hvma : VmaWf u s.mem.brkBase ⟨s.mem.brkBase, newEnd, heapProtection, .heap, id, offset⟩ := by
    refine ⟨rfl, by show s.mem.brkBase < newEnd; omega, hwf.brkAligned, haligned, hwf.brkLow, ?_, hbound,
      fun _ => ?_, b, hb, by show b.guestStart + offset = s.mem.brkBase; omega, by show newEnd ≤ _; omega⟩
    · rw [hlayout.addressSpaceEnd]
      exact hspace
    · rw [hlayout.brkBase]
  rw [wp_bind, insertVma, wp_modifyMem, wp_bind]
  refine ensureAllocationUnique_exclusive (by exact hexcl) ?_
  rw [wp_bind]
  refine wp_expectAllocation_ok (s := { u with mem := _ }) hb (wp_protectRange_ok (by omega) ?_ ?_)
  · show offset + (newEnd - s.mem.brkBase) ≤ (u.heap.object b.memory).len
    omega
  refine ⟨insertVma_wf hwfu hvma, ?_, ?_, fun key hkey => ?_, ?_, fun hfree x c => ?_⟩
  · exact ⟨hlayout.brkBase, hlayout.currentBrk, hlayout.mmapBase, hlayout.addressSpaceEnd, hlayout.mode,
      hlayout.ids⟩
  · show u.mem.executableWriteGeneration = _
    rw [hrewritten.mem]
    exact hhoused.generation
  · show Option.Rel _ _ ((u.mem.vmas.insert _ _).get? key)
    rw [SortedMap.get?_insert, if_neg hkey]
    exact hspans key
  · refine ⟨⟨s.mem.brkBase, newEnd, heapProtection, .heap, id, offset⟩, ?_, rfl, rfl, rfl⟩
    show (u.mem.vmas.insert _ _).get? _ = _
    rw [SortedMap.get?_insert, if_pos rfl]
  · rw [replaceVma_shows ⟨s.mem.brkBase, newEnd, heapProtection, .heap, id, offset⟩ hb, GrownView]
    refine or_congr ?_ ?_
    · refine and_congr_right fun hx => ?_
      change s.mem.brkBase ≤ x ∧ x < newEnd at hx
      have hcovers : a.Covers t.heap x := ⟨by omega, by omega⟩
      rw [hbyte x hcovers, if_pos rfl, zeroed, hhoused.bytes x hcovers]
      by_cases hold : s.mem.heapMappedEnd ≤ x
      · rw [if_pos (by omega), if_pos hold]
      · rw [if_neg (by omega), if_neg hold]
    · -- the other VMAs do not reach into the zeroed range
      generalize mergedIds ctx s s.mem.brkBase (newEnd - s.mem.brkBase) = ids at hhoused ⊢
      generalize homeByte ctx s s.mem.brkBase (newEnd - s.mem.brkBase) = home at hhoused ⊢
      constructor
      · rintro ⟨key, w, b', hw, hkey, hlow, hhigh, hb', rfl⟩
        have hwt := hw
        rw [hrewritten.vmas, hhoused.vmas key] at hwt
        obtain ⟨v, hv, rfl⟩ := Option.map_eq_some_iff.mp hwt
        have hspan := rehome_span ids id a v
        rw [hspan.start] at hlow
        rw [hspan.stop] at hhigh
        obtain ⟨a', ha', _⟩ := (hwf.vma key v hv).linked
        have hout := hfree key v hv hkey
        obtain ⟨b₂, _, hb₂, hbyte₂⟩ := hhoused.shown_zeroed hrewritten hv hlow hhigh ha' (by omega)
        obtain rfl := Option.some.inj (hb'.symm.trans hb₂)
        exact ⟨key, v, a', hv, hkey, hlow, hhigh, ha', by rw [hbyte₂, hspan.protection, hspan.kind]⟩
      · rintro ⟨key, v, a', hv, hkey, hlow, hhigh, ha', rfl⟩
        have hout := hfree key v hv hkey
        obtain ⟨b₂, hw, hb₂, hbyte₂⟩ := hhoused.shown_zeroed hrewritten hv hlow hhigh ha' (by omega)
        have hspan := rehome_span ids id a v
        exact ⟨key, _, b₂, hw, hkey, by rw [hspan.start]; exact hlow, by rw [hspan.stop]; exact hhigh, hb₂,
          by rw [hbyte₂, hspan.protection, hspan.kind]⟩

end Resize

/-! ### `set_brk` -/

section SetBrk

variable {ctx : Context} {s : Machine}

def withBrk (s : Machine) (requested : Nat) : Machine :=
  { s with mem := { s.mem with currentBrk := requested } }

theorem withBrk_wf (hwf : Wf ctx s) (requested : Nat) : Wf ctx (withBrk s requested) := by
  refine ⟨fun key v hv => ?_, fun id a ha => ?_, hwf.others, hwf.brkAligned, hwf.brkLow⟩
  · have h := hwf.vma key v hv
    exact ⟨h.key, h.nonempty, h.startAligned, h.stopAligned, h.low, h.high, h.bounded, h.heap, h.linked⟩
  · have h := hwf.allocation id a ha
    exact ⟨h.id, h.made, h.nonempty, h.bounded, h.placed⟩

/-- How a call that moves the break to `newEnd` gets there. -/
inductive BrkMoved (ctx : Context) (s : Machine) (newEnd : Nat) (t : Machine) : Prop
  | grow (hgrow : s.mem.heapMappedEnd < newEnd)
      (hfree : s.mem.brkCanGrow s.mem.heapMappedEnd newEnd = true) (h : Grew ctx s t newEnd)
  | shrink (hshrink : newEnd < s.mem.heapMappedEnd) (h : t = { s with mem := s.mem.shrinkHeap newEnd })
  | stay (hstay : newEnd = s.mem.heapMappedEnd) (h : t = s)

/-- What a successful call does. -/
inductive SetBrkDone (ctx : Context) (s : Machine) (requested : Nat) (s' : Machine) : Prop
  | query (hzero : requested = 0) (h : s' = s)
  | move (newEnd : Nat) (t : Machine) (hrequested : requested ≠ 0) (hbase : s.mem.brkBase ≤ requested)
      (hup : alignUp requested = .ok newEnd) (hspace : newEnd ≤ s.mem.addressSpaceEnd)
      (hmoved : BrkMoved ctx s newEnd t) (h : s' = withBrk t requested)

/-- What `brk` leaves where it answers; where it fails no byte changes. -/
theorem setBrk_spec (hwf : Wf ctx s) (hrestore : ∀ n, ctx.refusal n .restore = none)
    (hids : s.mem.nextAllocationId + 1 < u64Limit) (requested : Nat) :
    (setBrk ctx requested).wp (fun _ s' => SetBrkDone ctx s requested s')
      (fun e s' => (Similar s s' ∧ Wf ctx s') ∧ e ≠ .panic) s := by
  have hnothing : ∀ error : GuestMemoryError, (Similar s s ∧ Wf ctx s) ∧ Abort.error error ≠ .panic :=
    fun error => ⟨⟨Similar.refl s, hwf⟩, by simp⟩
  rw [setBrk, wp_bind, wp_getMem, wp_ite]
  split
  · rename_i hzero
    exact (wp_pure _).mpr (.query hzero rfl)
  rename_i hrequested
  rw [wp_ite]
  split
  · exact (wp_fail _).mpr (hnothing _)
  rename_i hbase
  rw [wp_bind, trySetBrk]
  refine wp_check_bind (fun newEnd hup => ?_) (fun e _ => hnothing e)
  obtain ⟨_, _, haligned, hbound⟩ := alignUp_ok hup
  rw [wp_bind, wp_getMem, wp_ite]
  split
  · exact (wp_fail _).mpr (hnothing _)
  rename_i hspace
  have hmove : (moveHeapEnd ctx s.mem.heapMappedEnd newEnd).wp (fun _ t => BrkMoved ctx s newEnd t)
      (fun e s' => (Similar s s' ∧ Wf ctx s') ∧ e ≠ .panic) s := by
    rw [moveHeapEnd, wp_bind, wp_getMem, wp_ite]
    split
    · rename_i hgrow
      rw [wp_ite]
      split
      · exact (wp_fail _).mpr (hnothing _)
      · rename_i hfree
        exact wp_mono (resizeHeap_spec hwf hrestore hids haligned hbound (not_lt.mp hspace) hgrow)
          (fun _ t h => .grow hgrow (by simpa using hfree) h) (fun _ _ h => h)
    · rename_i hgrow
      rw [wp_when]
      split
      · rename_i hshrink
        rw [wp_modifyMem]
        exact .shrink hshrink rfl
      · exact .stay (by omega) rfl
  rw [wp_bind]
  refine wp_mono hmove (fun _ t ht => ?_) (fun _ _ h => h)
  rw [wp_modifyMem, wp_bind, wp_getMem, wp_pure]
  exact .move newEnd t hrequested (not_lt.mp hbase) hup (not_lt.mp hspace) ht rfl

/-- Every successful call keeps the tables tied together, whatever it does to disjointness. -/
theorem SetBrkDone.wf {s' : Machine} {requested : Nat} (h : SetBrkDone ctx s requested s') (hwf : Wf ctx s) :
    Wf ctx s' := by
  cases h with
  | query hzero h => exact h ▸ hwf
  | move newEnd t hrequested hbase hup hspace hmoved h =>
      subst h
      refine withBrk_wf ?_ requested
      cases hmoved with
      | grow _ _ hgrew => exact hgrew.wf
      | shrink _ h => exact h ▸ (shrinkHeap_kept hwf (alignUp_ok hup).2.2.1).wf
      | stay _ h => exact h ▸ hwf

end SetBrk

/-! ### When a resize is correct -/

section Correct

variable {ctx : Context} {s : Machine}

/-- The end of the last page of `[0, n)`. -/
def pageCeil (n : Nat) : Nat := alignDownTo (n + (guestPageSize - 1)) guestPageSize

theorem pageCeil_mono {m n : Nat} (h : m ≤ n) : pageCeil m ≤ pageCeil n :=
  Nat.mul_le_mul_right _ (Nat.div_le_div_right (Nat.add_le_add_right h _))

theorem alignUp_eq_pageCeil {n stop : Nat} (h : alignUp n = .ok stop) : stop = pageCeil n :=
  (alignUpTo_eq_ok.mp h).1

/-- VMAs under their starts, of whole pages, none empty, no two overlapping. -/
def GuestMemory.TableOk (memory : GuestMemory) : Prop :=
  (∀ key v, memory.vmas.get? key = some v →
    key = v.start ∧ v.start < v.stop ∧ Aligned v.start ∧ Aligned v.stop) ∧ memory.Disjoint

theorem Wf.tableOk (hwf : Wf ctx s) (hd : s.mem.Disjoint) : s.mem.TableOk :=
  ⟨fun key v hv => ⟨(hwf.vma key v hv).key, (hwf.vma key v hv).nonempty, (hwf.vma key v hv).startAligned,
    (hwf.vma key v hv).stopAligned⟩, hd⟩

/-- A correct resize: the heap below both breaks keeps its bytes, new heap pages are zero, nothing else
changes, and the table is still in order. -/
structure BrkCorrect (s s' : Machine) : Prop where
  preserved : ∀ x c, s.cell x = some c → s.mem.brkBase ≤ x →
    x < pageCeil (min s.mem.currentBrk s'.mem.currentBrk) → ∃ c', s'.cell x = some c' ∧ c'.byte = c.byte
  fresh : ∀ x c', s'.cell x = some c' → c'.kind = .heap →
    (∀ c, s.cell x = some c → c.kind ≠ .heap) → c'.byte = 0
  framed : ∀ x c, s.cell x = some c → c.kind ≠ .heap → s'.cell x = some c
  table : s'.mem.TableOk

/-- Growing the heap to `newEnd` meets no other heap VMA, and the host memory it moves to holds the
bytes of the VMAs that move with it. -/
structure GrowClean (ctx : Context) (s : Machine) (requested newEnd : Nat) : Prop where
  alone : ∀ key v, s.mem.vmas.get? key = some v → v.kind = .heap →
    v.start = s.mem.brkBase ∨ newEnd ≤ v.start
  housed : ∀ key v a x, s.mem.vmas.get? key = some v → s.mem.allocations.get? v.allocationId = some a →
    v.start ≤ x → x < v.stop →
    (v.kind = .heap ∧ v.start = s.mem.brkBase ∧ x < pageCeil (min s.mem.currentBrk requested) ∨
      v.kind ≠ .heap ∧ v.allocationId ∈ mergedIds ctx s s.mem.brkBase (newEnd - s.mem.brkBase)) →
    homeByte ctx s s.mem.brkBase (newEnd - s.mem.brkBase) x = a.byteAt s.heap x

/-- The condition on a call: it does not grow the heap, or it does so cleanly. -/
def BrkClean (ctx : Context) (s : Machine) (requested : Nat) : Prop :=
  ∀ newEnd, requested ≠ 0 → s.mem.brkBase ≤ requested → alignUp requested = .ok newEnd →
    newEnd ≤ s.mem.addressSpaceEnd → s.mem.heapMappedEnd < newEnd →
    s.mem.brkCanGrow s.mem.heapMappedEnd newEnd = true → GrowClean ctx s requested newEnd

theorem brkCorrect_of_shows {s' : Machine} {newEnd : Nat} (hwf : Wf ctx s) (hd : s.mem.Disjoint)
    (hwf' : Wf ctx s') (hd' : s'.mem.Disjoint)
    (hend : pageCeil (min s.mem.currentBrk s'.mem.currentBrk) ≤ newEnd)
    (hshows : ∀ x c, s'.Shows x c ↔ s.Shows x c ∧ ¬ (c.kind = .heap ∧ newEnd ≤ x)) : BrkCorrect s s' := by
  have hcell : ∀ x c, s'.cell x = some c ↔ s.cell x = some c ∧ ¬ (c.kind = .heap ∧ newEnd ≤ x) := by
    intro x c
    rw [hwf'.cell_eq_some_iff hd', hwf.cell_eq_some_iff hd, hshows]
  refine ⟨fun x c hc _ hx => ⟨c, (hcell x c).mpr ⟨hc, fun h => ?_⟩, rfl⟩, fun x c' hc' hheap hnew => ?_,
    fun x c hc hkind => (hcell x c).mpr ⟨hc, fun h => hkind h.1⟩, hwf'.tableOk hd'⟩
  · omega
  · exact absurd hheap (hnew c' ((hcell x c').mp hc').1)

theorem heap_at_base (hwf : Wf ctx s) {newEnd : Nat} (hgrow : s.mem.heapMappedEnd < newEnd)
    (halone : ∀ key v, s.mem.vmas.get? key = some v → v.kind = .heap →
      v.start = s.mem.brkBase ∨ newEnd ≤ v.start) :
    (s.mem.heapMappedEnd = s.mem.brkBase ∧ ∀ key v, s.mem.vmas.get? key = some v → v.kind ≠ .heap) ∨
    ∃ h, s.mem.vmas.get? s.mem.brkBase = some h ∧ h.kind = .heap ∧ h.start = s.mem.brkBase ∧
      h.stop = s.mem.heapMappedEnd := by
  cases hheap : s.mem.heapVma with
  | none =>
      left
      refine ⟨?_, fun key v hv => heapVma_none hheap hv⟩
      unfold GuestMemory.heapMappedEnd
      rw [hheap]
  | some h =>
      right
      obtain ⟨key, hget, hkind⟩ := heapVma_some hheap
      have hend := hwf.heapMappedEnd_eq hheap
      have hwv := hwf.vma key h hget
      have hne := hwv.nonempty
      have hstart : h.start = s.mem.brkBase := by
        have := halone key h hget hkind
        omega
      exact ⟨h, by rw [← hstart, ← hwv.key]; exact hget, hkind, hstart, hend.symm⟩

theorem apart_of_alone (hwf : Wf ctx s) (hd : s.mem.Disjoint) {newEnd : Nat}
    (hgrow : s.mem.heapMappedEnd < newEnd) (hfree : s.mem.brkCanGrow s.mem.heapMappedEnd newEnd = true)
    (halone : ∀ key v, s.mem.vmas.get? key = some v → v.kind = .heap →
      v.start = s.mem.brkBase ∨ newEnd ≤ v.start) {key : Nat} {v : GuestVma}
    (hv : s.mem.vmas.get? key = some v) (hkey : key ≠ s.mem.brkBase) :
    v.stop ≤ s.mem.brkBase ∨ newEnd ≤ v.start := by
  have hwv := hwf.vma key v hv
  have hstart := hwv.key
  have hne := hwv.nonempty
  by_cases hkind : v.kind = .heap
  · have := halone key v hv hkind
    omega
  · rcases not_brkCanGrow hfree hv hkind with habove | hbelow
    · exact .inr habove
    · rcases heap_at_base hwf hgrow halone with ⟨hend, _⟩ | ⟨h, hget, _, hhstart, hhstop⟩
      · omega
      · by_contra hover
        exact hkey (hd (max v.start s.mem.brkBase) key v _ h hv hget (le_max_left _ _) (by omega) (by omega)
          (by omega))

variable {t : Machine} {newEnd : Nat}

theorem Grew.disjoint_iff (h : Grew ctx s t newEnd) (hwf : Wf ctx s) (hd : s.mem.Disjoint)
    (hgrow : s.mem.heapMappedEnd < newEnd) (hfree : s.mem.brkCanGrow s.mem.heapMappedEnd newEnd = true) :
    t.mem.Disjoint ↔ ∀ key v, s.mem.vmas.get? key = some v → v.kind = .heap →
      v.start = s.mem.brkBase ∨ newEnd ≤ v.start := by
  obtain ⟨w, hw, hwstart, hwstop, _⟩ := h.heap
  constructor
  · intro hdt key v hv hkind
    have hwv := hwf.vma key v hv
    have hkey := hwv.key
    have hne := hwv.nonempty
    have hbase := hwv.heap hkind
    by_contra hover
    -- the old VMA is still there, under the new one
    have hrel := h.spans key (by omega)
    rw [hv] at hrel
    generalize hget : t.mem.vmas.get? key = v' at hrel
    cases hrel with
    | @some _ v' hspan =>
        have h1 := hspan.start
        have h2 := hspan.stop
        have := hdt v.start key v' _ w hget hw (by omega) (by omega) (by omega) (by omega)
        omega
  · intro halone
    -- where a VMA other than the heap's lies
    have hplace : ∀ key v', t.mem.vmas.get? key = some v' → key ≠ s.mem.brkBase →
        ∃ v, s.mem.vmas.get? key = some v ∧ v'.start = v.start ∧ v'.stop = v.stop ∧
          (v.stop ≤ s.mem.brkBase ∨ newEnd ≤ v.start) := by
      intro key v' hv' hkey
      have hrel := h.spans key hkey
      rw [hv'] at hrel
      generalize hget : s.mem.vmas.get? key = v at hrel
      cases hrel with
      | @some v _ hspan =>
          exact ⟨v, rfl, hspan.start, hspan.stop, apart_of_alone hwf hd hgrow hfree halone hget hkey⟩
    intro x k v k' v' hv hv' hlow hhigh hlow' hhigh'
    by_cases hk : k = s.mem.brkBase
    · by_cases hk' : k' = s.mem.brkBase
      · rw [hk, hk']
      · obtain ⟨u, _, h1, h2, hout⟩ := hplace k' v' hv' hk'
        rw [hk, hw] at hv
        obtain rfl := Option.some.inj hv
        omega
    · obtain ⟨u, hu, h1, h2, hout⟩ := hplace k v hv hk
      by_cases hk' : k' = s.mem.brkBase
      · rw [hk', hw] at hv'
        obtain rfl := Option.some.inj hv'
        omega
      · obtain ⟨u', hu', h1', h2', _⟩ := hplace k' v' hv' hk'
        exact hd x k u k' u' hu hu' (by omega) (by omega) (by omega) (by omega)

theorem Grew.cell_iff (h : Grew ctx s t newEnd) (hwf : Wf ctx s) (hd : s.mem.Disjoint)
    (hgrow : s.mem.heapMappedEnd < newEnd) (hfree : s.mem.brkCanGrow s.mem.heapMappedEnd newEnd = true)
    (halone : ∀ key v, s.mem.vmas.get? key = some v → v.kind = .heap →
      v.start = s.mem.brkBase ∨ newEnd ≤ v.start) (x : Nat) (c : Cell) :
    t.cell x = some c ↔ GrownView s newEnd (mergedIds ctx s s.mem.brkBase (newEnd - s.mem.brkBase))
      (homeByte ctx s s.mem.brkBase (newEnd - s.mem.brkBase)) x c := by
  have hdt := (h.disjoint_iff hwf hd hgrow hfree).mpr halone
  refine (h.wf.cell_eq_some_iff hdt).trans (h.shows (fun key v hv hkey => ?_) x c)
  have hbase := brkBase_le_heapMappedEnd s.mem
  have := apart_of_alone hwf hd hgrow hfree halone hv hkey
  omega

theorem heap_stop_of_base (hwf : Wf ctx s) (hgrow : s.mem.heapMappedEnd < newEnd)
    (halone : ∀ key v, s.mem.vmas.get? key = some v → v.kind = .heap →
      v.start = s.mem.brkBase ∨ newEnd ≤ v.start) {key : Nat} {v : GuestVma}
    (hv : s.mem.vmas.get? key = some v) (hkind : v.kind = .heap) (hstart : v.start = s.mem.brkBase) :
    v.stop = s.mem.heapMappedEnd := by
  have hkey := (hwf.vma key v hv).key
  rcases heap_at_base hwf hgrow halone with ⟨_, hno⟩ | ⟨g, hg, _, _, hgstop⟩
  · exact absurd hkind (hno key v hv)
  · rw [← hstart, ← hkey, hv] at hg
    obtain rfl := Option.some.inj hg
    exact hgstop

theorem Grew.clean_of_correct (h : Grew ctx s t newEnd) (hwf : Wf ctx s) (hd : s.mem.Disjoint) {requested : Nat}
    (hgrow : s.mem.heapMappedEnd < newEnd) (hfree : s.mem.brkCanGrow s.mem.heapMappedEnd newEnd = true)
    (hcorrect : BrkCorrect s (withBrk t requested)) : GrowClean ctx s requested newEnd := by
  have halone := (h.disjoint_iff hwf hd hgrow hfree).mp hcorrect.table.2
  have hcell := h.cell_iff hwf hd hgrow hfree halone
  refine ⟨halone, fun key v a x hv ha hlow hhigh hcase => ?_⟩
  generalize mergedIds ctx s s.mem.brkBase (newEnd - s.mem.brkBase) = ids at hcell hcase
  generalize homeByte ctx s s.mem.brkBase (newEnd - s.mem.brkBase) = home at hcell ⊢
  have hbefore : s.cell x = some ⟨a.byteAt s.heap x, v.protection, v.kind⟩ := by
    obtain ⟨a', ha', hc⟩ := hwf.cell_of_containing (hwf.containing_of_vma hd hv hlow hhigh)
    obtain rfl := Option.some.inj (ha.symm.trans ha')
    exact hc
  rcases hcase with ⟨hkind, hstart, hx⟩ | ⟨hkind, hin⟩
  · have hstop := heap_stop_of_base hwf hgrow halone hv hkind hstart
    obtain ⟨c', hc', hbyte⟩ := hcorrect.preserved x _ hbefore (by omega) hx
    rcases (hcell x c').mp hc' with ⟨_, rfl⟩ | ⟨k', v', b', hv', hk', hlow', hhigh', _⟩
    · have hold : ¬ s.mem.heapMappedEnd ≤ x := by omega
      simpa [hold] using hbyte
    · have := apart_of_alone hwf hd hgrow hfree halone hv' hk'
      omega
  · have hafter := hcorrect.framed x _ hbefore hkind
    rcases (hcell x _).mp hafter with ⟨_, hc⟩ | ⟨k', v', b', hv', hk', hlow', hhigh', hb', hc⟩
    · exact absurd (congrArg Cell.kind hc) hkind
    · obtain rfl := hd.vma_unique hv' hv hlow' hhigh' hlow hhigh
      simp only [Cell.mk.injEq, if_pos hin] at hc
      exact hc.1.symm

theorem Grew.correct_of_clean (h : Grew ctx s t newEnd) (hwf : Wf ctx s) (hd : s.mem.Disjoint) {requested : Nat}
    (hup : alignUp requested = .ok newEnd) (hgrow : s.mem.heapMappedEnd < newEnd)
    (hfree : s.mem.brkCanGrow s.mem.heapMappedEnd newEnd = true)
    (hclean : GrowClean ctx s requested newEnd) : BrkCorrect s (withBrk t requested) := by
  have hceil : pageCeil (min s.mem.currentBrk requested) ≤ newEnd := by
    rw [alignUp_eq_pageCeil hup]
    exact pageCeil_mono (min_le_right _ _)
  have hcell := h.cell_iff hwf hd hgrow hfree hclean.alone
  have hhoused := hclean.housed
  generalize mergedIds ctx s s.mem.brkBase (newEnd - s.mem.brkBase) = ids at hcell hhoused
  generalize homeByte ctx s s.mem.brkBase (newEnd - s.mem.brkBase) = home at hcell hhoused
  -- an address that was mapped, by the VMA that showed it
  have hbefore : ∀ x c, s.cell x = some c → ∃ key v a, s.mem.vmas.get? key = some v ∧ v.start ≤ x ∧
      x < v.stop ∧ s.mem.allocations.get? v.allocationId = some a ∧
      c = ⟨a.byteAt s.heap x, v.protection, v.kind⟩ := fun x c hc =>
    Machine.shows_iff.mp ((hwf.cell_eq_some_iff hd).mp hc)
  have hframed : ∀ x c, s.cell x = some c → c.kind ≠ .heap → t.cell x = some c := by
    intro x c hc hkind
    obtain ⟨key, v, a, hv, hlow, hhigh, ha, rfl⟩ := hbefore x c hc
    refine (hcell x _).mpr (.inr ⟨key, v, a, hv, ?_, hlow, hhigh, ha, ?_⟩)
    · -- a VMA at the base that is not the heap's would block the growth
      rintro rfl
      have hkey := (hwf.vma _ v hv).key
      have hne := (hwf.vma _ v hv).nonempty
      rcases heap_at_base hwf hgrow hclean.alone with ⟨hend, _⟩ | ⟨g, hg, hgkind, _, _⟩
      · have := not_brkCanGrow hfree hv hkind
        omega
      · rw [hv] at hg
        obtain rfl := Option.some.inj hg
        exact hkind hgkind
    · split
      · rename_i hin
        rw [hhoused key v a x hv ha hlow hhigh (.inr ⟨hkind, hin⟩)]
      · rfl
  refine ⟨fun x c hc hlow hx => ?_, fun x c' hc' hheap hnew => ?_, hframed,
    h.wf.tableOk ((h.disjoint_iff hwf hd hgrow hfree).mpr hclean.alone)⟩
  · by_cases hkind : c.kind = .heap
    · obtain ⟨key, v, a, hv, hvlow, hvhigh, ha, rfl⟩ := hbefore x c hc
      change x < pageCeil (min s.mem.currentBrk requested) at hx
      have hstart : v.start = s.mem.brkBase := by
        have := hclean.alone key v hv hkind
        omega
      have hstop := heap_stop_of_base hwf hgrow hclean.alone hv hkind hstart
      refine ⟨_, (hcell x _).mpr (.inl ⟨⟨hlow, by omega⟩, rfl⟩), ?_⟩
      have hold : ¬ s.mem.heapMappedEnd ≤ x := by omega
      simp only [if_neg hold]
      exact hhoused key v a x hv ha hvlow hvhigh (.inl ⟨hkind, hstart, hx⟩)
    · exact ⟨c, hframed x c hc hkind, rfl⟩
  · rcases (hcell x c').mp hc' with ⟨hx, rfl⟩ | ⟨key, v, b, hv, hkey, hvlow, hvhigh, hb, rfl⟩
    · by_cases hold : s.mem.heapMappedEnd ≤ x
      · simp only [if_pos hold]
      · -- an old heap page is not new
        rcases heap_at_base hwf hgrow hclean.alone with ⟨hend, _⟩ | ⟨g, hg, hgkind, hgstart, hgstop⟩
        · omega
        · obtain ⟨a, _, hc⟩ := hwf.cell_of_containing
            (hwf.containing_of_vma (x := x) hd hg (by omega) (by omega))
          exact absurd hgkind (hnew _ hc)
    · obtain ⟨a, _, hc⟩ := hwf.cell_of_containing (hwf.containing_of_vma hd hv hvlow hvhigh)
      have hkind : v.kind = .heap := hheap
      exact absurd hkind (hnew _ hc)

/-- A successful call is a correct resize exactly when the condition holds. -/
theorem SetBrkDone.correct_iff {s' : Machine} {requested : Nat} (h : SetBrkDone ctx s requested s')
    (hwf : Wf ctx s) (hd : s.mem.Disjoint) : BrkCorrect s s' ↔ BrkClean ctx s requested := by
  cases h with
  | query hzero h =>
      subst h
      refine iff_of_true ?_ fun _ hne => absurd hzero hne
      exact ⟨fun x c hc _ _ => ⟨c, hc, rfl⟩, fun x c hc hheap hnew => absurd hheap (hnew c hc),
        fun x c hc _ => hc, hwf.tableOk hd⟩
  | move newEnd t hrequested hbase hup hspace hmoved h =>
      subst h
      have hceil : pageCeil (min s.mem.currentBrk requested) ≤ newEnd := by
        rw [alignUp_eq_pageCeil hup]
        exact pageCeil_mono (min_le_right _ _)
      cases hmoved with
      | grow hgrow hfree hgrew =>
          constructor
          · intro hcorrect newEnd' _ _ hup' _ _ _
            obtain rfl := Except.ok.inj (hup.symm.trans hup')
            exact hgrew.clean_of_correct hwf hd hgrow hfree hcorrect
          · intro hclean
            exact hgrew.correct_of_clean hwf hd hup hgrow hfree
              (hclean newEnd hrequested hbase hup hspace hgrow hfree)
      | shrink hshrink h =>
          subst h
          have haligned := (alignUp_ok hup).2.2.1
          have hkept := shrinkHeap_kept hwf haligned
          refine iff_of_true ?_ fun newEnd' _ _ hup' _ hgrow _ => ?_
          · exact brkCorrect_of_shows hwf hd (withBrk_wf hkept.wf requested) (hkept.disjoint hd) hceil
              fun x c => shrinkHeap_shows hwf hd haligned
          · obtain rfl := Except.ok.inj (hup.symm.trans hup')
            omega
      | stay hstay h =>
          subst h
          refine iff_of_true ?_ fun newEnd' _ _ hup' _ hgrow _ => ?_
          · exact ⟨fun x c hc _ _ => ⟨c, hc, rfl⟩, fun x c hc hheap hnew => absurd hheap (hnew c hc),
              fun x c hc _ => hc, hwf.tableOk hd⟩
          · obtain rfl := Except.ok.inj (hup.symm.trans hup')
            omega

end Correct

end Mcr.Memory
