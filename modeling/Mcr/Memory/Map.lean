import Mcr.Memory.Store

/-!
# What `mmap` leaves behind

The new range shows zeros; every other address shows what it showed, except that an address of a
replaced allocation shows the byte that the replacement holds for it.
-/

namespace Mcr.Memory

open Prog

/-- The range `[start, stop)` has been mapped; the live VMAs of the allocations `ids` now show `home`. -/
structure Mapped (ctx : Context) (s s' : Machine) (start stop : Nat) (protection : GuestMemoryProtection)
    (kind : GuestVmaKind) (ids : List Nat) (home : Nat → UInt8) : Prop where
  wf : Wf ctx s'
  layout : SameLayout s.mem s'.mem
  generation : s'.mem.executableWriteGeneration = s.mem.executableWriteGeneration
  free : ∀ key v, s.mem.vmas.get? key = some v → v.stop ≤ start ∨ stop ≤ v.start
  disjoint : s.mem.Disjoint → s'.mem.Disjoint
  shows : ∀ x c, s'.Shows x c ↔ (start ≤ x ∧ x < stop) ∧ c = ⟨0, protection, kind⟩ ∨
    ∃ key v b, s.mem.vmas.get? key = some v ∧ v.start ≤ x ∧ x < v.stop ∧
      s.mem.allocations.get? v.allocationId = some b ∧
      c = ⟨if v.allocationId ∈ ids then home x else b.byteAt s.heap x, v.protection, v.kind⟩

section Insert

variable {ctx : Context} {s : Machine}

theorem not_overlaps {memory : GuestMemory} {start stop : Nat} (h : memory.overlaps start stop = false)
    {key : Nat} {v : GuestVma} (hv : memory.vmas.get? key = some v) : v.stop ≤ start ∨ stop ≤ v.start := by
  unfold GuestMemory.overlaps at h
  rw [List.any_eq_false] at h
  have := h v (SortedMap.mem_values.mpr ⟨key, hv⟩)
  simp only [GuestVma.overlaps, decide_eq_true_eq] at this
  omega

theorem insertVma_wf (hwf : Wf ctx s) {vma : GuestVma} (hvma : VmaWf s vma.start vma) :
    Wf ctx { s with mem := { s.mem with vmas := s.mem.vmas.insert vma.start vma } } := by
  refine hwf.withVmas fun key w hw => ?_
  rw [SortedMap.get?_insert] at hw
  split at hw
  · rename_i hkey
    obtain rfl := Option.some.inj hw
    rw [hkey]
    exact hvma
  · exact hwf.vma key w hw

theorem insertVma_disjoint {memory : GuestMemory} (vma : GuestVma)
    (hout : ∀ key v, memory.vmas.get? key = some v → key ≠ vma.start →
      v.stop ≤ vma.start ∨ vma.stop ≤ v.start)
    (hd : memory.Disjoint) :
    GuestMemory.Disjoint { memory with vmas := memory.vmas.insert vma.start vma } := by
  intro x k v k' v' hv hv' hlow hhigh hlow' hhigh'
  change (memory.vmas.insert vma.start vma).get? k = some v at hv
  change (memory.vmas.insert vma.start vma).get? k' = some v' at hv'
  rw [SortedMap.get?_insert] at hv hv'
  split at hv <;> split at hv'
  · rename_i hk hk'
    rw [hk, hk']
  · obtain rfl := Option.some.inj hv
    have := hout k' v' hv' (by assumption)
    omega
  · obtain rfl := Option.some.inj hv'
    have := hout k v hv (by assumption)
    omega
  · exact hd x k v k' v' hv hv' hlow hhigh hlow' hhigh'

theorem insertVma_shows (vma : GuestVma) {a : GuestAllocation}
    (hfree : s.mem.vmas.get? vma.start = none) (ha : s.mem.allocations.get? vma.allocationId = some a)
    {x : Nat} {c : Cell} :
    Machine.Shows { s with mem := { s.mem with vmas := s.mem.vmas.insert vma.start vma } } x c ↔
      (vma.start ≤ x ∧ x < vma.stop) ∧ c = ⟨a.byteAt s.heap x, vma.protection, vma.kind⟩ ∨ s.Shows x c := by
  simp only [Machine.shows_iff]
  constructor
  · rintro ⟨key, v, b, hv, hlow, hhigh, hb, rfl⟩
    rw [SortedMap.get?_insert] at hv
    split at hv
    · obtain rfl := Option.some.inj hv
      obtain rfl := Option.some.inj (ha.symm.trans hb)
      exact .inl ⟨⟨hlow, hhigh⟩, rfl⟩
    · exact .inr ⟨key, v, b, hv, hlow, hhigh, hb, rfl⟩
  · rintro (⟨⟨hlow, hhigh⟩, rfl⟩ | ⟨key, v, b, hv, hlow, hhigh, hb, rfl⟩)
    · exact ⟨vma.start, vma, a, by rw [SortedMap.get?_insert, if_pos rfl], hlow, hhigh, ha, rfl⟩
    · have hne : key ≠ vma.start := by
        rintro rfl
        rw [hfree] at hv
        exact absurd hv (by simp)
      exact ⟨key, v, b, by rw [SortedMap.get?_insert, if_neg hne]; exact hv, hlow, hhigh, hb, rfl⟩

/-- A new mapping shows zeros, a merged neighbour what the replacement holds for it; a refused one changes no byte. -/
theorem insertMapping_spec (hwf : Wf ctx s) (hrestore : ∀ n, ctx.refusal n .restore = none)
    (hids : s.mem.nextAllocationId + 1 < u64Limit) {start length : Nat} (hpos : 0 < length)
    (haligned : Aligned length) {protection : GuestMemoryProtection} {kind : GuestVmaKind}
    (hkind : kind = .heap → s.mem.brkBase ≤ start) :
    (insertMapping ctx start length protection kind).wp
      (fun _ s' => Mapped ctx s s' start (start + length) protection kind (mergedIds ctx s start length)
        (homeByte ctx s start length) ∧ ¬ NeedsAddressZero ctx s start length)
      (fun e s' => (Similar s s' ∧ Wf ctx s') ∧ e ≠ .panic ∧
        ((∃ error, e = .error (.host error)) → Refused ctx e ∨ NeedsAddressZero ctx s start length)) s := by
  rw [insertMapping, wp_bind, wp_getMem]
  refine wp_check_bind (fun stop hend => ?_) (fun e he => ?_)
  swap
  · refine ⟨⟨Similar.refl s, hwf⟩, by simp, ?_⟩
    rintro ⟨error, herror⟩
    rw [Abort.error.injEq] at herror
    exact absurd (herror ▸ he) checkedMappingEnd_ne_host
  obtain ⟨hlow, hstart, rfl, hbound, hhigh⟩ := checkedMappingEnd_ok hend
  rw [wp_ite]
  split
  · exact (wp_fail _).mpr ⟨⟨Similar.refl s, hwf⟩, by simp, by simp⟩
  rename_i hover
  have hfree : ∀ key v, s.mem.vmas.get? key = some v → v.stop ≤ start ∨ start + length ≤ v.start :=
    fun key v hv => not_overlaps (by simpa using hover) hv
  rw [wp_bind]
  refine wp_mono (ensureHostAllocation_spec hwf hrestore hids hpos) (fun r t h => ?_) (fun _ _ h => h)
  obtain ⟨id, offset⟩ := r
  obtain ⟨⟨a, hhoused, hoffset⟩, hzero⟩ := h
  have hhigh' := hhoused.high
  rw [wp_bind]
  refine wp_mono (zeroAllocationRange_spec hhoused.wf hhoused.get (by omega)) (fun _ u hu => ?_)
    (fun e u hu => ?_)
  swap
  · -- only an allocation that was there before can be shared
    rcases hhoused.settled with rfl | hexcl
    · obtain ⟨hkept, hrefused, _⟩ := hu
      refine ⟨hkept, ?_, fun _ => .inl ⟨_, hrefused⟩⟩
      obtain ⟨_, _, _, rfl⟩ := hrefused
      simp
    · exact absurd hexcl hu.2.2
  obtain ⟨hrewritten, hwfu, _⟩ := hu
  obtain ⟨b, hb, hguest, hlen, hbyte⟩ := hrewritten.get hhoused.get
  -- the VMAs of `t` have the spans of those of `s`
  have hspans : SameSpans s.mem u.mem := hhoused.spans.trans (SameSpans.of_eq hrewritten.vmas)
  have hlayout : SameLayout s.mem u.mem := hhoused.layout.trans hrewritten.layout
  have hfree' : ∀ key v, u.mem.vmas.get? key = some v → v.stop ≤ start ∨ start + length ≤ v.start := by
    intro key v hv
    obtain ⟨w, hw, hspan⟩ := hspans.get hv
    rw [hspan.start, hspan.stop]
    exact hfree key w hw
  have hnone : u.mem.vmas.get? start = none := by
    rw [Option.eq_none_iff_forall_ne_some]
    intro v hv
    have hwv := hwfu.vma start v hv
    have h1 := hwv.key
    have h2 := hwv.nonempty
    have h3 := hfree' start v hv
    omega
  rw [wp_bind]
  refine wp_expectAllocation_ok hb ?_
  rw [wp_bind]
  refine wp_protectRange_ok hpos (by omega) ?_
  rw [insertVma, wp_modifyMem]
  have hvma : VmaWf u start ⟨start, start + length, protection, kind, id, offset⟩ := by
    refine ⟨rfl, by show start < start + length; omega, hstart, Nat.dvd_add hstart haligned, hlow, ?_, hbound,
      fun hk => ?_, b, hb, by show b.guestStart + offset = start; omega, by show start + length ≤ _; omega⟩
    · rw [hlayout.addressSpaceEnd]
      exact hhigh
    · rw [hlayout.brkBase]
      exact hkind hk
  refine ⟨⟨insertVma_wf hwfu hvma, ?_, ?_, hfree, fun hd => ?_, fun x c => ?_⟩, hzero⟩
  · exact ⟨hlayout.brkBase, hlayout.currentBrk, hlayout.mmapBase, hlayout.addressSpaceEnd, hlayout.mode,
      hlayout.ids⟩
  · show u.mem.executableWriteGeneration = _
    rw [hrewritten.mem]
    exact hhoused.generation
  · exact insertVma_disjoint ⟨start, start + length, protection, kind, id, offset⟩
      (fun key v hv _ => hfree' key v hv) (hspans.disjoint hd)
  · rw [insertVma_shows ⟨start, start + length, protection, kind, id, offset⟩ hnone hb]
    refine or_congr ?_ ?_
    · refine and_congr_right fun hx => ?_
      change start ≤ x ∧ x < start + length at hx
      have hzeroed : b.byteAt u.heap x = 0 := by
        rw [hbyte x ⟨by omega, by omega⟩, if_pos rfl, zeroed, if_pos (by omega)]
      rw [hzeroed]
    · -- outside the range the allocation's bytes were not touched
      rw [← hhoused.shows hwf, hrewritten.shows hhoused.wf, Machine.shows_iff]
      constructor
      · rintro ⟨key, v, a', hv, hxlow, hxhigh, ha', rfl⟩
        refine ⟨key, v, a', hv, hxlow, hxhigh, ha', ?_⟩
        have hout := hfree' key v (by rw [hrewritten.vmas]; exact hv)
        split
        · rename_i hid
          rw [hid, hhoused.get] at ha'
          obtain rfl := Option.some.inj ha'
          rw [zeroed, if_neg (by omega)]
        · rfl
      · rintro ⟨key, v, a', hv, hxlow, hxhigh, ha', rfl⟩
        refine ⟨key, v, a', hv, hxlow, hxhigh, ha', ?_⟩
        have hout := hfree' key v (by rw [hrewritten.vmas]; exact hv)
        split
        · rename_i hid
          rw [hid, hhoused.get] at ha'
          obtain rfl := Option.some.inj ha'
          rw [zeroed, if_neg (by omega)]
        · rfl

end Insert

/-! ### The same plan over other host memories -/

section Plan

variable {ctx : Context} {s t : Machine}

theorem Similar.entries (h : Similar s t) :
    List.Forall₂ (fun e e' : Nat × GuestAllocation => e.1 = e'.1 ∧ e'.2.guestStart = e.2.guestStart ∧
      ByteBuf.Same (s.heap.object e.2.memory) (t.heap.object e'.2.memory))
      s.mem.allocations.entries t.mem.allocations.entries :=
  SortedMap.forall₂_entries h.placed

theorem guestEnd_congr {a b : GuestAllocation} (hguest : b.guestStart = a.guestStart)
    (hsame : ByteBuf.Same (s.heap.object a.memory) (t.heap.object b.memory)) :
    b.guestEnd t.heap = a.guestEnd s.heap := by
  unfold GuestAllocation.guestEnd
  rw [hguest, hsame.len]

private theorem forall₂_filter {α : Type} {r : α → α → Prop} {p q : α → Bool} {l l' : List α}
    (h : List.Forall₂ r l l') (hpq : ∀ a b, r a b → p a = q b) :
    List.Forall₂ r (l.filter p) (l'.filter q) := by
  induction h with
  | nil => exact .nil
  | cons hab _ ih =>
      rw [List.filter_cons, List.filter_cons, hpq _ _ hab]
      split
      · exact .cons hab ih
      · exact ih

theorem Similar.findContaining_eq_none (h : Similar s t) (start stop : Nat) :
    t.mem.findContaining t.heap start stop = none ↔ s.mem.findContaining s.heap start stop = none := by
  unfold GuestMemory.findContaining
  have hentries := h.entries
  generalize s.mem.allocations.entries = l at hentries ⊢
  generalize t.mem.allocations.entries = l' at hentries ⊢
  induction hentries with
  | nil => simp
  | cons hab _ ih =>
      obtain ⟨_, hguest, hsame⟩ := hab
      rw [List.find?_cons, List.find?_cons]
      simp only [GuestAllocation.containsGuestRange, hguest, guestEnd_congr hguest hsame]
      split
      · simp
      · exact ih

theorem Similar.needsAddressZero (h : Similar s t) {start length : Nat} :
    NeedsAddressZero ctx t start length ↔ NeedsAddressZero ctx s start length := by
  unfold NeedsAddressZero
  rw [h.findContaining_eq_none, h.mem]

theorem Similar.mergedEntries (h : Similar s t) (ctx : Context) (start length : Nat) :
    List.Forall₂ (fun e e' : Nat × GuestAllocation => e.1 = e'.1 ∧ e'.2.guestStart = e.2.guestStart ∧
      ByteBuf.Same (s.heap.object e.2.memory) (t.heap.object e'.2.memory))
      (mergedEntries ctx s start length) (mergedEntries ctx t start length) := by
  unfold Memory.mergedEntries
  have hiff := h.findContaining_eq_none start (start + length)
  cases hs : s.mem.findContaining s.heap start (start + length) with
  | some found =>
      cases ht : t.mem.findContaining t.heap start (start + length) with
      | some found' => exact .nil
      | none => exact absurd (hiff.mp ht) (by simp [hs])
  | none =>
      rw [hiff.mpr hs]
      cases hostAllocationRange ctx start length with
      | error e => exact .nil
      | ok r =>
          refine forall₂_filter h.entries fun a b hab => ?_
          simp only [GuestAllocation.overlapsGuestRange, hab.2.1, guestEnd_congr hab.2.1 hab.2.2]

theorem Similar.mergedIds (h : Similar s t) (start length : Nat) :
    mergedIds ctx t start length = mergedIds ctx s start length := by
  unfold Memory.mergedIds
  have hrel := h.mergedEntries ctx start length
  generalize Memory.mergedEntries ctx s start length = l at hrel ⊢
  generalize Memory.mergedEntries ctx t start length = l' at hrel ⊢
  induction hrel with
  | nil => rfl
  | cons hab _ ih => rw [List.map_cons, List.map_cons, ih, hab.1]

theorem overlay_congr {l l' : List (Nat × GuestAllocation)}
    (h : List.Forall₂ (fun e e' : Nat × GuestAllocation => e.1 = e'.1 ∧ e'.2.guestStart = e.2.guestStart ∧
      ByteBuf.Same (s.heap.object e.2.memory) (t.heap.object e'.2.memory)) l l') (x : Nat) :
    overlay t.heap (l'.map Prod.snd) x = overlay s.heap (l.map Prod.snd) x := by
  unfold overlay
  generalize (0 : UInt8) = b
  induction h generalizing b with
  | nil => rfl
  | @cons e e' _ _ hab _ ih =>
      obtain ⟨_, hguest, hsame⟩ := hab
      have hbyte : (if e'.2.Covers t.heap x then e'.2.byteAt t.heap x else b) =
          if e.2.Covers s.heap x then e.2.byteAt s.heap x else b := by
        have hcovers : e'.2.Covers t.heap x ↔ e.2.Covers s.heap x := by
          unfold GuestAllocation.Covers
          rw [hguest, hsame.len]
        by_cases hc : e.2.Covers s.heap x
        · rw [if_pos hc, if_pos (hcovers.mpr hc)]
          unfold GuestAllocation.Covers at hc
          unfold GuestAllocation.byteAt
          rw [hguest]
          exact (hsame.byte _ (by omega)).symm
        · rw [if_neg hc, if_neg fun h' => hc (hcovers.mp h')]
      rw [List.map_cons, List.map_cons, List.foldl_cons, List.foldl_cons, hbyte]
      exact ih _

theorem Similar.homeByte (h : Similar s t) {start length id : Nat}
    (hid : id ∈ Memory.mergedIds ctx s start length) (x : Nat) :
    homeByte ctx t start length x = homeByte ctx s start length x := by
  have hnone : s.mem.findContaining s.heap start (start + length) = none := by
    cases hs : s.mem.findContaining s.heap start (start + length) with
    | none => rfl
    | some found => simp [Memory.mergedIds, Memory.mergedEntries, hs] at hid
  simp only [Memory.homeByte, hnone, (h.findContaining_eq_none _ _).mpr hnone]
  exact overlay_congr (h.mergedEntries ctx start length) x

theorem Mapped.of_similar {s' : Machine} (h : Similar s t) (hwf : Wf ctx s) {start length : Nat}
    {protection : GuestMemoryProtection} {kind : GuestVmaKind}
    (hm : Mapped ctx t s' start (start + length) protection kind (mergedIds ctx t start length)
      (homeByte ctx t start length)) :
    Mapped ctx s s' start (start + length) protection kind (mergedIds ctx s start length)
      (homeByte ctx s start length) := by
  have hneutral := h.neutral hwf
  refine ⟨hm.wf, hneutral.layout.trans hm.layout, hm.generation.trans hneutral.generation, ?_,
    fun hd => hm.disjoint (hneutral.disjoint hd), fun x c => ?_⟩
  · rw [← h.vmas]
    exact hm.free
  · rw [hm.shows x c]
    refine or_congr Iff.rfl ?_
    rw [h.vmas, h.mergedIds]
    -- the byte of a live address is the same in both states
    have hbyte : ∀ key v a b, s.mem.vmas.get? key = some v → v.start ≤ x → x < v.stop →
        s.mem.allocations.get? v.allocationId = some a → t.mem.allocations.get? v.allocationId = some b →
        (if v.allocationId ∈ Memory.mergedIds ctx s start length then Memory.homeByte ctx t start length x
          else b.byteAt t.heap x) =
        if v.allocationId ∈ Memory.mergedIds ctx s start length then Memory.homeByte ctx s start length x
          else a.byteAt s.heap x := by
      intro key v a b hv hlow hhigh ha hb
      split
      · rename_i hid
        exact h.homeByte hid x
      · obtain ⟨a', ha', hstart, hend, _⟩ := (hwf.vma key v hv).byteAt hlow hhigh
        obtain rfl := Option.some.inj (ha.symm.trans ha')
        obtain ⟨b', hb', hguest, hsame⟩ := h.get ha
        obtain rfl := Option.some.inj (hb.symm.trans hb')
        unfold GuestAllocation.byteAt
        rw [hguest]
        exact (hsame.byte _ (by omega)).symm
    constructor
    · rintro ⟨key, v, b, hv, hlow, hhigh, hb, rfl⟩
      obtain ⟨a, ha, _⟩ := h.get' hb
      exact ⟨key, v, a, hv, hlow, hhigh, ha, by rw [hbyte key v a b hv hlow hhigh ha hb]⟩
    · rintro ⟨key, v, a, hv, hlow, hhigh, ha, rfl⟩
      obtain ⟨b, hb, _⟩ := h.get ha
      exact ⟨key, v, b, hv, hlow, hhigh, hb, by rw [hbyte key v a b hv hlow hhigh ha hb]⟩

end Plan

/-! ### `mmap` -/

section Mmap

variable {ctx : Context} {s : Machine}

instance (ctx : Context) (s : Machine) (start length : Nat) : Decidable (NeedsAddressZero ctx s start length) :=
  inferInstanceAs (Decidable (_ ∧ _ ∧ _))

/-- The address the retries settle on when the host grants every request it can grant. -/
def settledStart (ctx : Context) (s : Machine) (length : Nat) : Nat → Nat → Option Nat
  | retries, start =>
    if NeedsAddressZero ctx s start length then
      match retries with
      | 0 => none
      | retries + 1 =>
        match s.mem.nextRetryMmapStart start length with
        | .ok start => settledStart ctx s length retries start
        | .error _ => none
    else some start

/-- The state a mapping is inserted into: `MAP_FIXED` has unmapped its range. -/
def cleared (args : MmapSyscallArgs) (s : Machine) (start length : Nat) : Machine :=
  if args.isFixed then { s with mem := s.mem.unmapRange start (start + length) } else s

/-- The range a call maps when it succeeds. -/
def mmapPlace (ctx : Context) (s : Machine) (args : MmapSyscallArgs) : Option (Nat × Nat) :=
  match pageRoundLength args.length with
  | .error _ => none
  | .ok length =>
    match s.mem.mmapStart args length with
    | .error _ => none
    | .ok start =>
      if args.isFixed then some (start, length)
      else (settledStart ctx s length mmapHostConflictRetries start).map fun start => (start, length)

theorem mmapStart_fixed {memory : GuestMemory} {args : MmapSyscallArgs} {length start : Nat}
    (hfixed : args.isFixed = true) (h : memory.mmapStart args length = .ok start) :
    start = args.addr ∧ Aligned start := by
  unfold GuestMemory.mmapStart at h
  simp only [hfixed, Bool.true_or, if_true] at h
  split at h
  · simp at h
  · rename_i hcheck
    simp only [Bool.or_eq_true, decide_eq_true_eq, Bool.not_eq_true', not_or, Bool.not_eq_false] at hcheck
    cases hend : checkedMappingEnd args.addr length memory.addressSpaceEnd with
    | error e => simp [hend, bind, Except.bind] at h
    | ok stop =>
        simp only [hend, bind, Except.bind] at h
        split at h
        · simp at h
        · rw [Except.ok.injEq] at h
          exact ⟨h.symm, h ▸ isPageAligned_iff.mp hcheck.2⟩

theorem mmapKind_ne_heap {args : MmapSyscallArgs} {kind : GuestVmaKind} (h : mmapKind args = .ok kind) :
    kind ≠ .heap := by
  unfold mmapKind at h
  rintro rfl
  simp only at h
  split at h
  · simp at h
  · split at h
    · simp at h
    · split at h
      · split at h <;> simp at h
      · split at h
        · simp at h
        · split at h <;> simp at h

variable {args : MmapSyscallArgs} {length : Nat} {protection : GuestMemoryProtection} {kind : GuestVmaKind}

/-- What a failed call leaves: the state it started from, or for `MAP_FIXED` the one with the range
unmapped, over other host memories. -/
def MmapFailed (ctx : Context) (args : MmapSyscallArgs) (s s' : Machine) (start length : Nat) : Prop :=
  Similar (cleared args s start length) s' ∧ Wf ctx s'

theorem mmapLoop_fixed_spec (hwf : Wf ctx s) (hrestore : ∀ n, ctx.refusal n .restore = none)
    (hids : s.mem.nextAllocationId + 1 < u64Limit) (hfixed : args.isFixed = true) (hpos : 0 < length)
    (hlength : Aligned length) (hkind : kind ≠ .heap) {start : Nat} (hstart : Aligned start) (retries : Nat) :
    (mmapLoop ctx args length protection kind retries start).wp
      (fun r s' => r = start ∧ Mapped ctx (cleared args s start length) s' start (start + length) protection
        kind (mergedIds ctx (cleared args s start length) start length)
        (homeByte ctx (cleared args s start length) start length))
      (fun e s' => MmapFailed ctx args s s' start length ∧ e ≠ .panic) s := by
  have hcleared : cleared args s start length =
      { s with mem := s.mem.unmapRange start (start + length) } := by simp [cleared, hfixed]
  have hwf' := unmapRange_wf hwf hstart (Nat.dvd_add hstart hlength)
  have hids' : (s.mem.unmapRange start (start + length)).nextAllocationId + 1 < u64Limit := by
    obtain ⟨vmas, allocations, h⟩ := unmapRange_eq s.mem start (start + length)
    rw [h]
    exact hids
  have hspec : (insertMapping ctx start length protection kind).wp _ _
      { s with mem := s.mem.unmapRange start (start + length) } :=
    insertMapping_spec hwf' hrestore hids' hpos hlength fun hk => absurd hk hkind
  unfold MmapFailed
  rw [hcleared]
  cases retries with
  | zero =>
      rw [mmapLoop, wp_bind, wp_when, if_pos hfixed, wp_modifyMem, wp_tryCatch, wp_bind]
      refine wp_mono hspec (fun _ s' h => (wp_pure _).mpr ⟨rfl, h.1⟩) (fun e s' h => ?_)
      rw [wp_bind, wp_getMem]
      exact (wp_throw e).mpr ⟨h.1, h.2.1⟩
  | succ retries =>
      rw [mmapLoop, wp_bind, wp_when, if_pos hfixed, wp_modifyMem, wp_tryCatch, wp_bind]
      refine wp_mono hspec (fun _ s' h => (wp_pure _).mpr ⟨rfl, h.1⟩) (fun e s' h => ?_)
      have hretry : retriesHostConflict s'.mem args e = false := by
        unfold retriesHostConflict
        split <;> simp [hfixed]
      rw [wp_bind, wp_getMem, wp_ite, hretry]
      simp only [Bool.false_eq_true, if_false]
      exact (wp_throw e).mpr ⟨h.1, h.2.1⟩

theorem Similar.nextRetryMmapStart {t : Machine} (h : Similar s t) (start length : Nat) :
    t.mem.nextRetryMmapStart start length = s.mem.nextRetryMmapStart start length := by
  rw [h.mem]
  rfl

theorem Similar.settledStart {t : Machine} (h : Similar s t) (length retries start : Nat) :
    settledStart ctx t length retries start = settledStart ctx s length retries start := by
  induction retries generalizing start with
  | zero =>
      rw [Memory.settledStart, Memory.settledStart]
      simp only [h.needsAddressZero]
  | succ retries ih =>
      rw [Memory.settledStart, Memory.settledStart]
      simp only [h.needsAddressZero, h.nextRetryMmapStart, ih]

theorem mmapLoop_spec (hwf : Wf ctx s) (hrestore : ∀ n, ctx.refusal n .restore = none)
    (hids : s.mem.nextAllocationId + 1 < u64Limit) (hfixed : args.isFixed = false) (hpos : 0 < length)
    (hlength : Aligned length) (hkind : kind ≠ .heap) (start retries : Nat) :
    (mmapLoop ctx args length protection kind retries start).wp
      (fun r s' => Mapped ctx s s' r (r + length) protection kind (mergedIds ctx s r length)
        (homeByte ctx s r length) ∧
        ((∀ e, ¬ Refused ctx e) → settledStart ctx s length retries start = some r))
      (fun e s' => (Similar s s' ∧ Wf ctx s') ∧ e ≠ .panic) s := by
  induction retries generalizing s start with
  | zero =>
      rw [mmapLoop, wp_bind, wp_when, hfixed]
      simp only [Bool.false_eq_true, if_false]
      rw [wp_tryCatch, wp_bind]
      refine wp_mono (insertMapping_spec hwf hrestore hids hpos hlength fun hk => absurd hk hkind)
        (fun _ s' h => (wp_pure _).mpr ⟨h.1, fun _ => ?_⟩) (fun e s' h => ?_)
      · rw [settledStart, if_neg h.2]
      · rw [wp_bind, wp_getMem]
        exact (wp_throw e).mpr ⟨h.1, h.2.1⟩
  | succ retries ih =>
      rw [mmapLoop, wp_bind, wp_when, hfixed]
      simp only [Bool.false_eq_true, if_false]
      rw [wp_tryCatch, wp_bind]
      refine wp_mono (insertMapping_spec hwf hrestore hids hpos hlength fun hk => absurd hk hkind)
        (fun _ s' h => (wp_pure _).mpr ⟨h.1, fun _ => ?_⟩) (fun e t h => ?_)
      · rw [settledStart, if_neg h.2]
      obtain ⟨⟨hsim, hwft⟩, hpanic, hcause⟩ := h
      rw [wp_bind, wp_getMem, wp_ite]
      split
      · rename_i hretry
        refine wp_check_bind (fun start' hstart' => ?_) (fun e' he' => ⟨⟨hsim, hwft⟩, by simp⟩)
        have hidst : t.mem.nextAllocationId + 1 < u64Limit := by
          rw [hsim.mem]
          exact hids
        refine wp_mono (ih hwft hidst start') (fun r s' h' => ?_) (fun e' s' h' => ?_)
        · refine ⟨h'.1.of_similar hsim hwf, fun hgrant => ?_⟩
          -- a granting host fails an attempt only over address zero
          have hhost : ∃ error, e = .error (.host error) := by
            unfold retriesHostConflict at hretry
            split at hretry
            · exact ⟨_, rfl⟩
            · simp at hretry
          have hzero := (hcause hhost).resolve_left (hgrant e)
          have hsettled := h'.2 hgrant
          rw [hsim.settledStart] at hsettled
          rw [hsim.nextRetryMmapStart] at hstart'
          rw [settledStart, if_pos hzero]
          simp only [hstart']
          exact hsettled
        · exact ⟨⟨hsim.trans h'.1.1, h'.1.2⟩, h'.2⟩
      · exact (wp_throw e).mpr ⟨⟨hsim, hwft⟩, hpanic⟩

/-- What `mmap` maps and where; only a failed `MAP_FIXED` may have unmapped its range. -/
theorem mmap_spec (hwf : Wf ctx s) (hrestore : ∀ n, ctx.refusal n .restore = none)
    (hids : s.mem.nextAllocationId + 1 < u64Limit) (args : MmapSyscallArgs) :
    (mmap ctx args).wp
      (fun start s' => ∃ length protection kind, pageRoundLength args.length = .ok length ∧
        GuestMemoryProtection.fromLinux args.prot = .ok protection ∧ mmapKind args = .ok kind ∧
        (args.isFixed = true → Aligned start) ∧
        Mapped ctx (cleared args s start length) s' start (start + length) protection kind
          (mergedIds ctx (cleared args s start length) start length)
          (homeByte ctx (cleared args s start length) start length) ∧
        ((∀ e, ¬ Refused ctx e) → mmapPlace ctx s args = some (start, length)))
      (fun e s' => e ≠ .panic ∧ ((Similar s s' ∧ Wf ctx s') ∨
        ∃ length, pageRoundLength args.length = .ok length ∧ args.isFixed = true ∧ Aligned args.addr ∧
          MmapFailed ctx args s s' args.addr length)) s := by
  have hnothing : ∀ error : GuestMemoryError, Abort.error error ≠ .panic ∧ ((Similar s s ∧ Wf ctx s) ∨
      ∃ length, pageRoundLength args.length = .ok length ∧ args.isFixed = true ∧ Aligned args.addr ∧
        MmapFailed ctx args s s args.addr length) :=
    fun _ => ⟨by simp, .inl ⟨Similar.refl s, hwf⟩⟩
  unfold mmap
  refine wp_check_bind (fun protection hprot => ?_) (fun e _ => hnothing e)
  refine wp_check_bind (fun length hlen => ?_) (fun e _ => hnothing e)
  refine wp_check_bind (fun kind hkind => ?_) (fun e _ => hnothing e)
  rw [wp_bind, wp_getMem]
  refine wp_check_bind (fun start hstart => ?_) (fun e _ => hnothing e)
  obtain ⟨hpos, _, hlength, _⟩ := pageRoundLength_ok hlen
  have hheap := mmapKind_ne_heap hkind
  cases hfixed : args.isFixed with
  | true =>
      obtain ⟨rfl, haligned⟩ := mmapStart_fixed hfixed hstart
      refine wp_mono (mmapLoop_fixed_spec hwf hrestore hids hfixed hpos hlength hheap haligned _)
        (fun r s' h => ?_) (fun e s' h => ⟨h.2, .inr ⟨length, hlen, rfl, haligned, h.1⟩⟩)
      obtain ⟨rfl, hmapped⟩ := h
      refine ⟨length, protection, kind, hlen, hprot, hkind, fun _ => haligned, hmapped, fun _ => ?_⟩
      simp only [mmapPlace, hlen, hstart, hfixed, if_true]
  | false =>
      have hclear : ∀ start, cleared args s start length = s := fun start => by simp [cleared, hfixed]
      refine wp_mono (mmapLoop_spec hwf hrestore hids hfixed hpos hlength hheap start _)
        (fun r s' h => ?_) (fun e s' h => ⟨h.2, .inl h.1⟩)
      refine ⟨length, protection, kind, hlen, hprot, hkind, by simp, ?_, fun hgrant => ?_⟩
      · rw [hclear]
        exact h.1
      · simp only [mmapPlace, hlen, hstart, hfixed, Bool.false_eq_true, if_false, h.2 hgrant, Option.map_some]

end Mmap

end Mcr.Memory
