import Mcr.Memory.Store
import Mcr.Memory.Protect
import Mcr.Memory.Read

/-!
# What a write leaves behind

A write goes chunk by chunk, each chunk inside one VMA, and may stop in the middle. Both exits are
described the same way: the bytes of a prefix of the range are stored and nothing else changed.
-/

namespace Mcr.Memory

open Prog

/-- The bytes `[lo, hi)` are now `f`; nothing else changed. -/
structure Stored (ctx : Context) (s s' : Machine) (lo hi : Nat) (f : Nat → UInt8) : Prop where
  kept : Kept ctx s s'
  generation : s'.mem.executableWriteGeneration = s.mem.executableWriteGeneration
  shows : s.mem.Disjoint → ∀ x c, s'.Shows x c ↔
    ∃ c₀, s.Shows x c₀ ∧ c = if lo ≤ x ∧ x < hi then { c₀ with byte := f x } else c₀

section Stored

variable {ctx : Context} {s t u : Machine} {lo mid hi : Nat} {f g : Nat → UInt8}

theorem Cowed.stored (h : Cowed ctx s t) (lo : Nat) (f : Nat → UInt8) : Stored ctx s t lo lo f := by
  refine ⟨h.kept, h.neutral.generation, fun _ x c => ?_⟩
  rw [h.neutral.shows]
  have hout : ¬ (lo ≤ x ∧ x < lo) := by omega
  simp [hout]

theorem Stored.congr (h : Stored ctx s t lo hi f) (hfg : ∀ x, lo ≤ x → x < hi → f x = g x) :
    Stored ctx s t lo hi g := by
  refine ⟨h.kept, h.generation, fun hd x c => ?_⟩
  rw [h.shows hd]
  refine exists_congr fun c₀ => and_congr_right fun _ => ?_
  by_cases hx : lo ≤ x ∧ x < hi
  · rw [if_pos hx, if_pos hx, hfg x hx.1 hx.2]
  · rw [if_neg hx, if_neg hx]

theorem Stored.trans (h : Stored ctx s t lo mid f) (h' : Stored ctx t u mid hi f) (hlow : lo ≤ mid)
    (hhigh : mid ≤ hi) : Stored ctx s u lo hi f := by
  refine ⟨h.kept.trans h'.kept, h'.generation.trans h.generation, fun hd x c => ?_⟩
  have hboth : ∀ c : Cell,
      (if mid ≤ x ∧ x < hi then
        { (if lo ≤ x ∧ x < mid then { c with byte := f x } else c : Cell) with byte := f x }
        else if lo ≤ x ∧ x < mid then { c with byte := f x } else c) =
      if lo ≤ x ∧ x < hi then { c with byte := f x } else c := by
    intro c
    by_cases h1 : lo ≤ x ∧ x < mid
    · have h2 : ¬ (mid ≤ x ∧ x < hi) := by omega
      have h3 : lo ≤ x ∧ x < hi := by omega
      rw [if_neg h2, if_pos h1, if_pos h3]
    · by_cases h2 : mid ≤ x ∧ x < hi
      · have h3 : lo ≤ x ∧ x < hi := by omega
        rw [if_pos h2, if_neg h1, if_pos h3]
      · have h3 : ¬ (lo ≤ x ∧ x < hi) := by omega
        rw [if_neg h2, if_neg h1, if_neg h3]
  rw [h'.shows (h.kept.disjoint hd)]
  constructor
  · rintro ⟨c₁, hc₁, rfl⟩
    obtain ⟨c₀, hc₀, rfl⟩ := (h.shows hd x c₁).mp hc₁
    exact ⟨c₀, hc₀, hboth c₀⟩
  · rintro ⟨c₀, hc₀, rfl⟩
    exact ⟨_, (h.shows hd x _).mpr ⟨c₀, hc₀, rfl⟩, (hboth c₀).symm⟩

theorem Stored.cell (h : Stored ctx s t lo hi f) (hwf : Wf ctx s) (hd : s.mem.Disjoint) (x : Nat) :
    t.cell x = (s.cell x).map fun c => if lo ≤ x ∧ x < hi then { c with byte := f x } else c := by
  apply Option.ext
  intro c
  rw [h.kept.wf.cell_eq_some_iff (h.kept.disjoint hd), h.shows hd, Option.map_eq_some_iff]
  refine exists_congr fun c₀ => ?_
  rw [hwf.cell_eq_some_iff hd, eq_comm]

theorem Stored.allows (h : Stored ctx s t lo hi f) (hwf : Wf ctx s) (hd : s.mem.Disjoint)
    (p : GuestMemoryProtection → Bool) (x : Nat) : t.Allows p x ↔ s.Allows p x := by
  have hprot : ∀ c : Cell,
      (if lo ≤ x ∧ x < hi then { c with byte := f x } else c).protection = c.protection := by
    intro c
    split <;> rfl
  unfold Machine.Allows
  rw [h.cell hwf hd]
  cases s.cell x with
  | none => simp
  | some c => simp [hprot]

theorem stored_of_blit (hwf : Wf ctx s) (hsim : Similar s t) (hwft : Wf ctx t) {v : GuestVma}
    (hget : s.mem.vmas.get? v.start = some v) (bytes : List UInt8) (hlow : v.start ≤ lo)
    (hhigh : lo + bytes.length ≤ v.stop) {a' : GuestAllocation}
    (ha' : t.mem.allocations.get? v.allocationId = some a')
    (hcount : strongCount ctx t.mem a'.memory = 1) :
    Stored ctx s
      { t with
        heap := t.heap.set a'.memory
          ((t.heap.object a'.memory).blit (guestSliceOffset v lo) (.ofList bytes)) }
      lo (lo + bytes.length) (fun x => bytes.getD (x - lo) 0) := by
  have hwv := hwf.vma _ _ hget
  obtain ⟨a, ha, hlink, hend⟩ := hwv.linked
  obtain ⟨b, hb, hguest, hsame⟩ := hsim.get ha
  obtain rfl := Option.some.inj (ha'.symm.trans hb)
  -- what the allocation holds at each address afterwards
  let f : Nat → UInt8 := fun x =>
    if lo ≤ x ∧ x < lo + bytes.length then bytes.getD (x - lo) 0 else a.byteAt s.heap x
  obtain ⟨hrewritten, hwf'⟩ := hsim.store
    ((t.heap.object a'.memory).blit (guestSliceOffset v lo) (.ofList bytes)) (f := f) hwft ha ha' hcount
    rfl (fun x hx => by
      unfold GuestAllocation.Covers at hx
      rw [ByteBuf.blit_byte, ByteBuf.ofList_len]
      have hoffset : guestSliceOffset v lo + a.guestStart = lo := by
        unfold guestSliceOffset
        omega
      show _ = if lo ≤ x ∧ x < lo + bytes.length then bytes.getD (x - lo) 0 else a.byteAt s.heap x
      by_cases hin : lo ≤ x ∧ x < lo + bytes.length
      · rw [if_pos hin, if_pos (by omega)]
        show bytes.getD (x - a.guestStart - guestSliceOffset v lo) 0 = _
        congr 1
        omega
      · rw [if_neg hin, if_neg (by omega)]
        exact (hsame.byte _ (by omega)).symm)
  refine ⟨⟨hwf', hrewritten.disjoint, hrewritten.layout⟩, by rw [hrewritten.mem], fun hd x c => ?_⟩
  rw [hrewritten.shows hwf]
  simp only [Machine.shows_iff]
  constructor
  · rintro ⟨key, w, b, hw, hwlow, hwhigh, hb', rfl⟩
    refine ⟨_, ⟨key, w, b, hw, hwlow, hwhigh, hb', rfl⟩, ?_⟩
    by_cases hx : lo ≤ x ∧ x < lo + bytes.length
    · obtain rfl := hd.vma_unique hw hget hwlow hwhigh (by omega) (by omega)
      simp [hx, f]
    · rw [if_neg hx]
      split
      · rename_i hid
        rw [hid, ha] at hb'
        obtain rfl := Option.some.inj hb'
        simp only [f, if_neg hx]
      · rfl
  · rintro ⟨_, ⟨key, w, b, hw, hwlow, hwhigh, hb', rfl⟩, rfl⟩
    refine ⟨key, w, b, hw, hwlow, hwhigh, hb', ?_⟩
    by_cases hx : lo ≤ x ∧ x < lo + bytes.length
    · obtain rfl := hd.vma_unique hw hget hwlow hwhigh (by omega) (by omega)
      simp [hx, f]
    · rw [if_neg hx]
      split
      · rename_i hid
        rw [hid, ha] at hb'
        obtain rfl := Option.some.inj hb'
        simp only [f, if_neg hx]
      · rfl

end Stored

/-! ### `write_guest` -/

section Write

variable {ctx : Context} {s : Machine}

/-- Why a write stopped at `k`, having started at `cursor`: a page that may not be written, or a copy
that could not be made. -/
def WriteStopped (ctx : Context) (s : Machine) (cursor k stop : Nat) (e : Abort) : Prop :=
  k < stop ∧ (s.cell k = none ∧ e = .error .notMapped ∨
    ∃ c, s.cell k = some c ∧ c.protection.write = false ∧ e = .error .accessDenied) ∨
  RangeError ctx s (k - cursor + 1) e

/-- The executable bytes of a range count as touched once it is written. -/
def Machine.TouchesCode (s : Machine) (lo hi : Nat) : Prop :=
  ∃ x, lo ≤ x ∧ x < hi ∧ s.Allows (·.execute) x

theorem getD_take {bytes : List UInt8} {n i : Nat} (hi : i < n) :
    (bytes.take n).getD i 0 = bytes.getD i 0 := by
  simp [List.getD_eq_getElem?_getD, hi]

theorem getD_drop {bytes : List UInt8} {n i : Nat} :
    (bytes.drop n).getD i 0 = bytes.getD (n + i) 0 := by
  simp [List.getD_eq_getElem?_getD, List.getElem?_drop]

/-- One round of the loop: the chunk up to the end of the VMA or of the range. -/
theorem writeChunk_spec (hwf : Wf ctx s) {v : GuestVma} {cursor n : Nat} {bytes : List UInt8}
    (hv : s.mem.vmaContaining cursor = some v) (hn : 0 < n) (hend : cursor + n ≤ v.stop)
    (hbytes : n ≤ bytes.length) :
    (allocationMemoryMut ctx v.allocationId >>= fun arc =>
      copyInto arc (guestSliceOffset v cursor) (guestSliceOffset v cursor + n) (.ofList (bytes.take n))).wp
      (fun _ s' => Stored ctx s s' cursor (cursor + n) (fun x => bytes.getD (x - cursor) 0) ∧
        s'.mem.nextAllocationId = s.mem.nextAllocationId ∧
        ∃ a', s'.mem.allocations.get? v.allocationId = some a' ∧
          guestSliceOffset v cursor + n ≤ (s'.heap.object a'.memory).len)
      (fun e s' => Cowed ctx s s' ∧ RefusedAt ctx .unique e) s := by
  obtain ⟨hget, hlow, hhigh, hwv⟩ := hwf.vma_of_containing hv
  obtain ⟨a, ha, hlink, hstop⟩ := hwv.linked
  rw [wp_bind]
  refine wp_mono (allocationMemoryMut_spec hwf ha) (fun arc t h => ?_)
    (fun e t h => ⟨h.1.1.cowed hwf h.1.2, h.2⟩)
  obtain ⟨⟨hsim, hwft⟩, a', ha', rfl, hcount⟩ := h
  obtain ⟨b, hb, hguest, hsame⟩ := hsim.get ha
  obtain rfl := Option.some.inj (ha'.symm.trans hb)
  have hlen : (bytes.take n).length = n := by
    rw [List.length_take]
    omega
  have hroom : guestSliceOffset v cursor + n ≤ (t.heap.object a'.memory).len := by
    rw [← hsame.len]
    unfold guestSliceOffset
    omega
  rw [wp_copyInto, if_pos ⟨Nat.le_add_right _ _, hroom, by rw [ByteBuf.ofList_len, hlen]; omega⟩]
  have hstored := stored_of_blit hwf hsim hwft hget (bytes.take n) hlow (by omega) ha' hcount
  rw [hlen] at hstored
  refine ⟨hstored.congr fun x hxlow hxhigh => getD_take (by omega), ?_, a', ha', ?_⟩
  · show t.mem.nextAllocationId = _
    rw [hsim.mem]
  · show _ ≤ ((t.heap.set a'.memory _).object a'.memory).len
    simpa [HostHeap.set] using hroom

theorem RefusedAt.rangeError {e : Abort} (h : RefusedAt ctx .unique e) (s : Machine) (count : Nat) :
    RangeError ctx s count e := .inl h

theorem RangeError.later {t : Machine} {count count' : Nat} {e : Abort} (h : RangeError ctx t count e)
    (hids : t.mem.nextAllocationId + count ≤ s.mem.nextAllocationId + count') :
    RangeError ctx s count' e := by
  rcases h with hrefused | hrefused | ⟨he, hlimit⟩
  · exact .inl hrefused
  · exact .inr (.inl hrefused)
  · exact .inr (.inr ⟨he, hlimit.trans hids⟩)

/-- What a run of the loop leaves at its early exit: the bytes up to some `k` are stored. -/
def WriteFailed (ctx : Context) (s s' : Machine) (cursor stop : Nat) (f : Nat → UInt8) (e : Abort) : Prop :=
  e ≠ .panic ∧ ∃ k, cursor ≤ k ∧ k ≤ stop ∧ Stored ctx s s' cursor k f ∧
    (s.mem.Disjoint → (∀ x, cursor ≤ x → x < k → s.Allows (·.write) x) ∧ WriteStopped ctx s cursor k stop e)

/-- What the loop leaves when it returns. -/
def WriteDone (ctx : Context) (s s' : Machine) (cursor stop : Nat) (f : Nat → UInt8)
    (touched touched' : Bool) : Prop :=
  Stored ctx s s' cursor stop f ∧
    (s.mem.Disjoint → (∀ x, cursor ≤ x → x < stop → s.Allows (·.write) x) ∧
      (touched' = true ↔ touched = true ∨ s.TouchesCode cursor stop))

theorem WriteDone.cons {t s' : Machine} {cursor mid stop : Nat} {f : Nat → UInt8} {w : GuestVma}
    {touched touched' : Bool} (hwf : Wf ctx s) (hchunk : Stored ctx s t cursor mid f) (hlt : cursor < mid)
    (hle : mid ≤ stop)
    (hprot : s.mem.Disjoint → ∀ x, cursor ≤ x → x < mid → ∀ p, s.Allows p x ↔ p w.protection = true)
    (hwrite : w.protection.write = true)
    (h : WriteDone ctx t s' mid stop f (touched || w.protection.execute) touched') :
    WriteDone ctx s s' cursor stop f touched touched' := by
  refine ⟨hchunk.trans h.1 hlt.le hle, fun hd => ?_⟩
  obtain ⟨hallows, htouched⟩ := h.2 (hchunk.kept.disjoint hd)
  have hsame := fun p x => hchunk.allows hwf hd p x
  refine ⟨fun x hlow hhigh => ?_, ?_⟩
  · by_cases hx : x < mid
    · exact (hprot hd x hlow hx _).mpr hwrite
    · exact (hsame _ x).mp (hallows x (by omega) hhigh)
  · rw [htouched, Bool.or_eq_true, or_assoc]
    refine or_congr_right ⟨?_, ?_⟩
    · rintro (hexec | ⟨x, hlow, hhigh, hx⟩)
      · exact ⟨cursor, le_rfl, by omega, (hprot hd cursor le_rfl hlt _).mpr hexec⟩
      · exact ⟨x, by omega, hhigh, (hsame _ x).mp hx⟩
    · rintro ⟨x, hlow, hhigh, hx⟩
      by_cases hmid : x < mid
      · exact .inl ((hprot hd x hlow hmid _).mp hx)
      · exact .inr ⟨x, by omega, hhigh, (hsame _ x).mpr hx⟩

theorem WriteFailed.cons {t s' : Machine} {cursor mid stop : Nat} {f : Nat → UInt8} {w : GuestVma}
    {e : Abort} (hwf : Wf ctx s) (hchunk : Stored ctx s t cursor mid f) (hlt : cursor < mid)
    (hprot : s.mem.Disjoint → ∀ x, cursor ≤ x → x < mid → ∀ p, s.Allows p x ↔ p w.protection = true)
    (hwrite : w.protection.write = true)
    (hids : s.mem.Disjoint → t.mem.nextAllocationId ≤ s.mem.nextAllocationId + 1)
    (h : WriteFailed ctx t s' mid stop f e) : WriteFailed ctx s s' cursor stop f e := by
  obtain ⟨hpanic, k, hk, hstop, hstored, hrest⟩ := h
  refine ⟨hpanic, k, by omega, hstop, hchunk.trans hstored hlt.le hk, fun hd => ?_⟩
  obtain ⟨hallows, hcause⟩ := hrest (hchunk.kept.disjoint hd)
  refine ⟨fun x hlow hhigh => ?_, ?_⟩
  · by_cases hx : x < mid
    · exact (hprot hd x hlow hx _).mpr hwrite
    · exact (hchunk.allows hwf hd _ x).mp (hallows x (by omega) hhigh)
  · have hcell : t.cell k = s.cell k := by
      rw [hchunk.cell hwf hd]
      have hout : ¬ (cursor ≤ k ∧ k < mid) := by omega
      simp only [hout, if_false, Option.map_id']
    rcases hcause with hcell' | hrange
    · left
      rwa [hcell] at hcell'
    · have := hids hd
      exact .inr (hrange.later (by omega))

theorem writeGuestLoop_spec (hwf : Wf ctx s) {stop : Nat} {f : Nat → UInt8} (fuel cursor : Nat)
    (bytes : List UInt8) (touched : Bool) (hlen : cursor + bytes.length = stop) (hfuel : bytes.length ≤ fuel)
    (hf : ∀ i < bytes.length, bytes.getD i 0 = f (cursor + i)) :
    (writeGuestLoop ctx stop fuel cursor bytes touched).wp
      (fun touched' s' => WriteDone ctx s s' cursor stop f touched touched')
      (fun e s' => WriteFailed ctx s s' cursor stop f e) s := by
  induction fuel generalizing s cursor bytes touched with
  | zero =>
      obtain rfl : cursor = stop := by omega
      rw [writeGuestLoop, wp_pure]
      refine ⟨(Cowed.refl hwf).stored _ _, fun _ => ⟨fun x hlow hhigh => by omega, ?_⟩⟩
      refine ⟨.inl, ?_⟩
      rintro (h | ⟨x, hlow, hhigh, _⟩)
      · exact h
      · omega
  | succ fuel ih =>
      rw [writeGuestLoop, wp_ite]
      split
      swap
      · obtain rfl : cursor = stop := by omega
        rw [wp_pure]
        refine ⟨(Cowed.refl hwf).stored _ _, fun _ => ⟨fun x hlow hhigh => by omega, .inl, ?_⟩⟩
        rintro (h | ⟨x, hlow, hhigh, _⟩)
        · exact h
        · omega
      rename_i hlt
      -- an error before the first byte of the chunk is stored
      have hfailed : ∀ e t, e ≠ .panic → Cowed ctx s t →
          (s.mem.Disjoint → WriteStopped ctx s cursor cursor stop e) →
          WriteFailed ctx s t cursor stop f e := by
        intro e t hpanic hcowed hcause
        exact ⟨hpanic, cursor, le_rfl, hlt.le, hcowed.stored _ _,
          fun hd => ⟨fun x hlow hhigh => by omega, hcause hd⟩⟩
      rw [wp_bind, wp_vmaAt]
      cases hv : s.mem.vmaContaining cursor with
      | none =>
          exact hfailed _ _ (by simp) (Cowed.refl hwf)
            fun _ => .inl ⟨hlt, .inl ⟨hwf.cell_eq_none_iff.mpr hv, rfl⟩⟩
      | some v =>
          obtain ⟨hget, hvlow, hvhigh, hwv⟩ := hwf.vma_of_containing hv
          obtain ⟨a, _, hcell⟩ := hwf.cell_of_containing hv
          refine wp_check_bind (fun _ hcheck => ?_) (fun e he => ?_)
          swap
          · obtain ⟨hdenied, rfl⟩ := AccessKind.check_error he
            exact hfailed _ _ (by simp) (Cowed.refl hwf) fun _ => .inl ⟨hlt, .inr ⟨_, hcell, hdenied, rfl⟩⟩
          have hwrite : v.protection.write = true := AccessKind.check_ok hcheck
          rw [wp_bind]
          refine wp_mono (ensureGuestPageRangeUnique_within hwf hv (min_le_left _ _)) (fun _ t ht => ?_)
            (fun e t ht => hfailed e t ht.2.1 ht.1 fun hd => .inr ((ht.2.2 hd).later (by omega)))
          obtain ⟨hcowed, ⟨w, hw, hprot, _, hwstop⟩, hids⟩ := ht
          obtain ⟨hwget, hwlow, hwhigh, hww⟩ := hcowed.wf.vma_of_containing hw
          rw [wp_bind, wp_vmaAt, hw]
          simp only
          -- the chunk ends at or before the end of the VMA found first
          have hchunkEnd : cursor + (min w.stop stop - cursor) = min w.stop stop := by omega
          have hprot' : s.mem.Disjoint → ∀ x, cursor ≤ x → x < min w.stop stop →
              ∀ p, s.Allows p x ↔ p w.protection = true := by
            intro hd x hlow hhigh p
            rw [← hcowed.wf.allows_of_vma (x := x) (hcowed.neutral.disjoint hd) hwget (by omega) (by omega) p]
            unfold Machine.Allows
            rw [hcowed.neutral.cell hwf hd hcowed.wf]
          have hchunk := writeChunk_spec (n := min w.stop stop - cursor) hcowed.wf hw (by omega) (by omega)
            (show min w.stop stop - cursor ≤ bytes.length by omega)
          rw [wp_bind] at hchunk ⊢
          refine wp_mono hchunk (fun arc t' ht' => ?_)
            (fun e t' ht' => hfailed e t' ?_ (hcowed.trans ht'.1) fun _ => .inr (ht'.2.rangeError s _))
          swap
          · obtain ⟨_, _, _, rfl⟩ := ht'.2
            simp
          rw [wp_bind]
          refine wp_mono ht' (fun _ u hu => ?_)
            (fun e t' ht' => hfailed e t' ?_ (hcowed.trans ht'.1) fun _ => .inr (ht'.2.rangeError s _))
          swap
          · obtain ⟨_, _, _, rfl⟩ := ht'.2
            simp
          obtain ⟨hstored, hnext, a', ha', hroom⟩ := hu
          rw [hchunkEnd] at hstored
          have hdone : Stored ctx s u cursor (min w.stop stop) f :=
            ((hcowed.stored cursor f).trans (hstored.congr fun x hlow hhigh => by
              rw [hf _ (by omega)]
              congr 1
              omega) le_rfl (by omega))
          have hids' : s.mem.Disjoint → u.mem.nextAllocationId ≤ s.mem.nextAllocationId + 1 := by
            intro hd
            have := hids hd
            omega
          have hrest : ∀ touched', (touched || w.protection.execute) = touched' →
              (writeGuestLoop ctx stop fuel (cursor + (min w.stop stop - cursor))
                (bytes.drop (min w.stop stop - cursor)) touched').wp
                (fun r s' => WriteDone ctx s s' cursor stop f touched r)
                (fun e s' => WriteFailed ctx s s' cursor stop f e) u := by
            rintro _ rfl
            rw [hchunkEnd]
            have hdrop : (bytes.drop (min w.stop stop - cursor)).length =
                bytes.length - (min w.stop stop - cursor) := List.length_drop
            refine wp_mono (ih hdone.kept.wf _ _ _ (by omega) (by omega) fun i hi => ?_)
              (fun r s' h => h.cons hwf hdone (by omega) (by omega) hprot' (hprot ▸ hwrite))
              (fun e s' h => h.cons hwf hdone (by omega) hprot' (hprot ▸ hwrite) hids')
            rw [getD_drop, hf _ (by omega)]
            congr 1
            omega
          rw [wp_ite]
          split
          · rename_i hexec
            rw [wp_bind]
            refine wp_expectAllocation_ok ha' ?_
            rw [wp_bind, wp_flushInstructionCacheRange, if_neg (by omega)]
            exact hrest true (by simp [hexec])
          · rename_i hexec
            exact hrest touched (by simp [hexec])

def recorded (s : Machine) : Machine :=
  { s with mem := { s.mem with
      executableWriteGeneration := (s.mem.executableWriteGeneration + 1) % u64Limit } }

theorem recorded_generation_ne (s : Machine) :
    (recorded s).mem.executableWriteGeneration ≠ s.mem.executableWriteGeneration := by
  show (s.mem.executableWriteGeneration + 1) % u64Limit ≠ _
  unfold u64Limit
  omega

theorem recorded_wf (hwf : Wf ctx s) : Wf ctx (recorded s) := by
  refine ⟨fun key v hv => ?_, fun id a ha => ?_, hwf.others, hwf.brkAligned, hwf.brkLow⟩
  · have h := hwf.vma key v hv
    exact ⟨h.key, h.nonempty, h.startAligned, h.stopAligned, h.low, h.high, h.bounded, h.heap, h.linked⟩
  · have h := hwf.allocation id a ha
    exact ⟨h.id, h.made, h.nonempty, h.bounded, h.placed⟩

theorem recorded_kept (hwf : Wf ctx s) : Kept ctx s (recorded s) :=
  ⟨recorded_wf hwf, id, ⟨rfl, rfl, rfl, rfl, rfl, le_rfl⟩⟩

/-- The state after a write whose loop ended in `t`. -/
def afterWrite (t : Machine) (touched : Bool) : Machine := if touched then recorded t else t

def layBytes (address : Nat) (bytes : List UInt8) (x : Nat) : UInt8 := bytes.getD (x - address) 0

/-- A write lays its bytes over the range; a failed one has written a prefix of it. -/
theorem writeGuest_spec (hwf : Wf ctx s) (address : Nat) (bytes : List UInt8) :
    (writeGuest ctx address bytes).wp
      (fun _ s' => address + bytes.length < u64Limit ∧ ∃ t touched, s' = afterWrite t touched ∧
        WriteDone ctx s t address (address + bytes.length) (layBytes address bytes) false touched)
      (fun e s' => s' = s ∧ (∃ error, checkedRawRange address bytes.length = .error error ∧ e = .error error) ∨
        address + bytes.length < u64Limit ∧
          WriteFailed ctx s s' address (address + bytes.length) (layBytes address bytes) e) s := by
  unfold writeGuest
  refine wp_check_bind (fun stop hstop => ?_) (fun e he => .inl ⟨rfl, e, he, rfl⟩)
  obtain ⟨rfl, hbound⟩ := checkedRawRange_eq_ok.mp hstop
  rw [wp_bind]
  refine wp_mono (writeGuestLoop_spec (f := layBytes address bytes) hwf bytes.length address bytes false rfl
    le_rfl fun i _ => ?_) (fun touched t h => ?_) (fun e t h => .inr ⟨hbound, h⟩)
  · unfold layBytes
    rw [Nat.add_sub_cancel_left]
  · rw [wp_when]
    cases touched with
    | true =>
        simp only [if_true]
        rw [recordExecutableWrite, wp_modifyMem]
        exact ⟨hbound, t, true, rfl, h⟩
    | false => exact ⟨hbound, t, false, rfl, h⟩

theorem afterWrite_kept {t : Machine} (h : Kept ctx s t) (touched : Bool) : Kept ctx s (afterWrite t touched) := by
  cases touched with
  | true => exact h.trans (recorded_kept h.wf)
  | false => exact h

theorem writeGuest_kept (hwf : Wf ctx s) (address : Nat) (bytes : List UInt8) :
    (writeGuest ctx address bytes).wp (fun _ s' => Kept ctx s s') (fun e s' => Kept ctx s s' ∧ e ≠ .panic) s := by
  refine wp_mono (writeGuest_spec hwf address bytes) (fun _ s' h => ?_) (fun e s' h => ?_)
  · obtain ⟨_, t, touched, rfl, hdone, _⟩ := h
    exact afterWrite_kept hdone.kept touched
  · rcases h with ⟨rfl, error, _, rfl⟩ | ⟨_, hpanic, k, _, _, hstored, _⟩
    · exact ⟨(Cowed.refl hwf).kept, by simp⟩
    · exact ⟨hstored.kept, hpanic⟩

end Write

/-! ### `slice_mut` -/

section SliceMut

variable {ctx : Context} {s : Machine}

theorem rangeOverlapsExecutable_iff (hwf : Wf ctx s) (hd : s.mem.Disjoint) {start stop : Nat} :
    s.mem.rangeOverlapsExecutable start stop = true ↔ s.TouchesCode start stop := by
  unfold GuestMemory.rangeOverlapsExecutable Machine.TouchesCode
  rw [Bool.and_eq_true, decide_eq_true_eq, List.any_eq_true]
  constructor
  · rintro ⟨hlt, v, hmem, hv⟩
    obtain ⟨key, hget⟩ := SortedMap.mem_values.mp hmem
    have hwv := hwf.vma key v hget
    have hne := hwv.nonempty
    obtain rfl := hwv.key
    rw [Bool.and_eq_true, GuestVma.overlaps, decide_eq_true_eq] at hv
    refine ⟨max v.start start, le_max_right _ _, by omega, ?_⟩
    exact (hwf.allows_of_vma hd hget (le_max_left _ _) (by omega) _).mpr hv.1
  · rintro ⟨x, hlow, hhigh, c, hcell, hexec⟩
    refine ⟨by omega, ?_⟩
    obtain ⟨key, v, a, hget, hvlow, hvhigh, _, rfl⟩ :=
      Machine.shows_iff.mp ((hwf.cell_eq_some_iff hd).mp hcell)
    refine ⟨v, SortedMap.mem_values.mpr ⟨key, hget⟩, ?_⟩
    rw [Bool.and_eq_true, GuestVma.overlaps, decide_eq_true_eq]
    exact ⟨hexec, by omega, by omega⟩

/-- The generation moves before the slice is made. -/
def sliceMutBase (s : Machine) (start stop : Nat) : Machine :=
  if s.mem.rangeOverlapsExecutable start stop then recorded s else s

theorem sliceMutBase_vmas (s : Machine) (start stop : Nat) :
    (sliceMutBase s start stop).mem.vmas = s.mem.vmas := by
  unfold sliceMutBase
  split <;> rfl

theorem sliceMutBase_wf (hwf : Wf ctx s) (start stop : Nat) : Wf ctx (sliceMutBase s start stop) := by
  unfold sliceMutBase
  split
  · exact recorded_wf hwf
  · exact hwf

theorem sliceMutBase_kept (hwf : Wf ctx s) (start stop : Nat) : Kept ctx s (sliceMutBase s start stop) := by
  unfold sliceMutBase
  split
  · exact recorded_kept hwf
  · exact (Cowed.refl hwf).kept

theorem sliceMutBase_cell (s : Machine) (start stop : Nat) : (sliceMutBase s start stop).cell = s.cell := by
  unfold sliceMutBase
  split <;> rfl

/-- What was lent out: bytes of the VMA around the address, in a host memory of its own. -/
structure Lent (ctx : Context) (base s' : Machine) (address len : Nat) (place : BorrowedSlice) : Prop where
  size : place.len = len
  source : ∃ t w a', Cowed ctx base t ∧ Similar t s' ∧ Wf ctx s' ∧
    t.mem.vmaContaining address = some w ∧ address + len ≤ w.stop ∧ w.protection.write = true ∧
    s'.mem.allocations.get? w.allocationId = some a' ∧ a'.memory = place.arc ∧
    strongCount ctx s'.mem a'.memory = 1 ∧ place.offset = guestSliceOffset w address ∧
    place.offset + len ≤ (s'.heap.object a'.memory).len

/-- Why no slice was lent out. -/
def SliceMutFailed (ctx : Context) (s s' : Machine) (address len : Nat) (e : Abort) : Prop :=
  e ≠ .panic ∧
    (s' = s ∧ (∃ error, e = .error error ∧ (checkedRawRange address len = .error error ∨
        address + len < u64Limit ∧ Flat.bytes s.cell (·.write) address len = .error error)) ∨
      Cowed ctx (sliceMutBase s address (address + len)) s' ∧ (s.mem.Disjoint → RangeError ctx s 1 e))

theorem sliceMutPlace_spec (hwf : Wf ctx s) (address len : Nat) :
    (sliceMutPlace ctx address len).wp
      (fun r s' => match r with
        | none => s' = s
        | some place => len = 0 ∧ place.len = 0 ∧ s' = s ∨
            0 < len ∧ Lent ctx (sliceMutBase s address (address + len)) s' address len place)
      (fun e s' => SliceMutFailed ctx s s' address len e) s := by
  unfold sliceMutPlace
  refine wp_check_bind (fun stop hstop => ?_) (fun e he => ⟨by simp, .inl ⟨rfl, e, rfl, .inl he⟩⟩)
  obtain ⟨rfl, hbound⟩ := checkedRawRange_eq_ok.mp hstop
  rw [wp_ite]
  split
  · rename_i hzero
    exact (wp_pure _).mpr (.inl ⟨hzero, rfl, rfl⟩)
  rename_i hpos
  rw [wp_bind, wp_vmaAt]
  cases hv : s.mem.vmaContaining address with
  | none =>
      exact ⟨by simp, .inl ⟨rfl, _, rfl, .inr ⟨hbound, Flat.bytes_error (flatByte_none hwf hv _) (by omega)⟩⟩⟩
  | some v =>
      refine wp_check_bind (fun _ hcheck => ?_) (fun e he => ?_)
      swap
      · obtain ⟨hdenied, rfl⟩ := AccessKind.check_error he
        exact ⟨by simp, .inl ⟨rfl, _, rfl, .inr ⟨hbound,
          Flat.bytes_error (flatByte_denied hwf hv hdenied) (by omega)⟩⟩⟩
      have hwrite : v.protection.write = true := AccessKind.check_ok hcheck
      rw [wp_ite]
      split
      · exact (wp_pure _).mpr rfl
      rename_i hend
      have hbase : (sliceMutBase s address (address + len)).mem.vmaContaining address = some v := by
        unfold GuestMemory.vmaContaining at hv ⊢
        rw [sliceMutBase_vmas]
        exact hv
      have hlent : (ensureGuestPageRangeUnique ctx address (address + len) >>= fun _ => do
          let vma ← vmaAt address
          let offset := guestSliceOffset vma address
          let arc ← allocationMemoryMut ctx vma.allocationId
          let s ← Prog.get
          if offset + len ≤ (s.heap.object arc).len then pure (some (⟨arc, offset, len⟩ : BorrowedSlice))
          else abort).wp
          (fun r s' => match r with
            | none => s' = s
            | some place => len = 0 ∧ place.len = 0 ∧ s' = s ∨
                0 < len ∧ Lent ctx (sliceMutBase s address (address + len)) s' address len place)
          (fun e s' => SliceMutFailed ctx s s' address len e) (sliceMutBase s address (address + len)) := by
        rw [wp_bind]
        refine wp_mono (ensureGuestPageRangeUnique_within (sliceMutBase_wf hwf _ _) hbase (not_lt.mp hend))
          (fun _ t ht => ?_) (fun e t ht => ⟨ht.2.1, .inr ⟨ht.1, fun hd => ?_⟩⟩)
        · obtain ⟨hcowed, ⟨w, hw, hprot, _, hwstop⟩, _⟩ := ht
          obtain ⟨hwget, hwlow, hwhigh, hww⟩ := hcowed.wf.vma_of_containing hw
          obtain ⟨a, ha, hlink, hstop⟩ := hww.linked
          rw [wp_bind, wp_vmaAt, hw]
          simp only
          rw [wp_bind]
          refine wp_mono (allocationMemoryMut_spec hcowed.wf ha) (fun arc u hu => ?_) (fun e u hu => ?_)
          · obtain ⟨⟨hsim, hwfu⟩, a', ha', rfl, hcount⟩ := hu
            obtain ⟨b, hb, hguest, hsame⟩ := hsim.get ha
            obtain rfl := Option.some.inj (ha'.symm.trans hb)
            have hroom : guestSliceOffset w address + len ≤ (u.heap.object a'.memory).len := by
              rw [← hsame.len]
              unfold guestSliceOffset
              omega
            rw [wp_bind, wp_get, wp_ite, if_pos hroom]
            refine (wp_pure _).mpr (.inr ⟨by omega, rfl, t, w, a', hcowed, hsim, hwfu, hw, hwstop, ?_, ha', rfl,
              hcount, rfl, hroom⟩)
            rw [hprot]
            exact hwrite
          · refine ⟨?_, .inr ⟨hcowed.trans (hu.1.1.cowed hcowed.wf hu.1.2), fun _ => .inl hu.2⟩⟩
            obtain ⟨_, _, _, rfl⟩ := hu.2
            simp
        · have hd' := (sliceMutBase_kept hwf address (address + len)).disjoint hd
          refine (ht.2.2 hd').later ?_
          unfold sliceMutBase
          split <;> exact le_rfl
      rw [wp_bind, wp_getMem, wp_bind, wp_when]
      unfold sliceMutBase at hlent ⊢
      split
      · rename_i hexec
        rw [if_pos hexec] at hlent
        rw [recordExecutableWrite, wp_modifyMem]
        exact hlent
      · rename_i hexec
        rw [if_neg hexec] at hlent
        exact hlent

/-- The slice shows the bytes of the flat memory, and what its caller leaves there is stored. -/
def SliceMutDone (ctx : Context) (s s' : Machine) (address len : Nat) (update : List UInt8 → List UInt8) :
    Option (List UInt8) → Prop
  | none => s' = s
  | some l => l.length = len ∧
      (s.mem.Disjoint → Flat.bytes s.cell (·.write) address len = .ok l) ∧
      (len = 0 ∧ s' = s ∨ 0 < len ∧
        Stored ctx (sliceMutBase s address (address + len)) s' address
          (address + ((update l).take len).length) (layBytes address (update l)))

/-- A borrowed slice is that of the range, and only the range changes. -/
theorem sliceMut_spec (hwf : Wf ctx s) (address len : Nat) (update : List UInt8 → List UInt8) :
    (sliceMut ctx address len update).wp (fun r s' => SliceMutDone ctx s s' address len update r)
      (fun e s' => SliceMutFailed ctx s s' address len e) s := by
  rw [sliceMut, wp_bind]
  refine wp_mono (sliceMutPlace_spec hwf address len) (fun r u h => ?_) (fun _ _ h => h)
  cases r with
  | none => exact (wp_pure _).mpr h
  | some place =>
      simp only
      rw [wp_ite]
      rcases h with ⟨hzero, hplace, rfl⟩ | ⟨hpos, hsize, t, w, a', hcowed, hsim, hwfu, hw, hend, hwrite, ha', harc,
        hcount, hoffset, hroom⟩
      · rw [if_pos hplace]
        subst hzero
        exact (wp_pure _).mpr ⟨rfl, fun _ => rfl, .inl ⟨rfl, rfl⟩⟩
      obtain ⟨hwget, hwlow, _, hww⟩ := hcowed.wf.vma_of_containing hw
      obtain ⟨a, ha, hlink, hstop⟩ := hww.linked
      rw [if_neg (by omega), ← harc, hoffset, hsize]
      rw [hoffset] at hroom
      -- the bytes lent out are those of the VMA in `t`
      have hbytes : (allocationBytes w.allocationId (guestSliceOffset w address) len).wp
          (fun l s' => s' = u ∧ l.length = len ∧
            (s.mem.Disjoint → Flat.bytes s.cell (·.write) address len = .ok l)) (fun _ _ => False) u := by
        have hwu : u.mem.vmaContaining address = some w := by
          rw [← hsim.agree.vmaContaining]
          exact hw
        refine chunk_spec hwfu hwu hend hwrite fun l hlen hl => ⟨rfl, hlen, fun hd => ?_⟩
        have hbase := (sliceMutBase_kept hwf address (address + len)).disjoint hd
        have hcell : u.cell = s.cell := by
          funext x
          rw [hsim.cell, hcowed.neutral.cell (sliceMutBase_wf hwf _ _) hbase hcowed.wf, sliceMutBase_cell]
        rw [← hcell]
        exact hl (hsim.disjoint (hcowed.neutral.disjoint hbase))
      rw [wp_allocationBytes, Machine.buffer, ha', Option.map_some] at hbytes
      simp only [if_pos hroom] at hbytes
      obtain ⟨_, hlen, hflat⟩ := hbytes
      rw [wp_bind, wp_sliceBytes, if_pos ⟨Nat.le_add_right _ _, hroom⟩, Nat.add_sub_cancel_left, wp_bind,
        wp_copyInto]
      generalize ((u.heap.object a'.memory).extract (guestSliceOffset w address) len).toList = l at hlen hflat ⊢
      have htake : ((update l).take len).length ≤ len := List.length_take_le _ _
      rw [if_pos ⟨Nat.le_add_right _ _, by omega, by rw [ByteBuf.ofList_len]; omega⟩]
      refine (wp_pure _).mpr ⟨hlen, hflat, .inr ⟨hpos, ?_⟩⟩
      have hstored := stored_of_blit hcowed.wf hsim hwfu hwget ((update l).take len) hwlow (by omega) ha' hcount
      have hcowed' := hcowed.stored address (layBytes address (update l))
      refine hcowed'.trans (hstored.congr fun x hlow hhigh => ?_) le_rfl (Nat.le_add_right _ _)
      exact getD_take (by omega)

theorem sliceMut_kept (hwf : Wf ctx s) (address len : Nat) (update : List UInt8 → List UInt8) :
    (sliceMut ctx address len update).wp (fun _ s' => Kept ctx s s')
      (fun e s' => Kept ctx s s' ∧ e ≠ .panic) s := by
  have hrefl := (Cowed.refl hwf).kept
  refine wp_mono (sliceMut_spec hwf address len update) (fun r s' h => ?_) (fun e s' h => ⟨?_, h.1⟩)
  · cases r with
    | none => exact h ▸ hrefl
    | some l =>
        obtain ⟨_, _, ⟨_, rfl⟩ | ⟨_, hstored⟩⟩ := h
        · exact hrefl
        · exact (sliceMutBase_kept hwf _ _).trans hstored.kept
  · obtain ⟨_, ⟨rfl, _⟩ | ⟨hcowed, _⟩⟩ := h
    · exact hrefl
    · exact (sliceMutBase_kept hwf _ _).trans hcowed.kept

end SliceMut

/-! ### Intrinsics -/

section Intrinsics

variable {ctx : Context} {s : Machine}

theorem memset_kept (hwf : Wf ctx s) (address : Nat) (value : UInt8) (len : Nat) :
    (intrinsicMemset ctx address value len).wp (fun _ s' => Kept ctx s s')
      (fun e s' => Kept ctx s s' ∧ e ≠ .panic) s := by
  unfold intrinsicMemset
  exact wp_check_bind (fun _ _ => writeGuest_kept hwf address _)
    (fun e _ => ⟨(Cowed.refl hwf).kept, by simp⟩)

theorem memmove_kept (hwf : Wf ctx s) (destination source len : Nat) :
    (intrinsicMemmove ctx destination source len).wp (fun _ s' => Kept ctx s s')
      (fun e s' => Kept ctx s s' ∧ e ≠ .panic) s := by
  rw [intrinsicMemmove, wp_bind]
  refine wp_mono (copyGuest_spec hwf source len .read) (fun l s' h => ?_) (fun e s' h => ?_)
  · obtain ⟨rfl, _⟩ := h
    exact writeGuest_kept hwf destination l
  · obtain ⟨rfl, error, rfl, _⟩ := h
    exact ⟨(Cowed.refl hwf).kept, by simp⟩

end Intrinsics

end Mcr.Memory
