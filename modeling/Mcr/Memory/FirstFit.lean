import Mcr.Memory.Brk

/-!
# Where a mapping is placed

A mapping without a fixed address goes to the lowest place from its hint on that is free, and a host that refuses the
place moves it to a higher one. The scan skips only addresses at which a VMA is in the way.
-/

namespace Mcr.Memory

open Prog

/-! ### Free places -/

/-- VMAs in the order of their addresses, none empty, below an address space of machine words. -/
structure GuestMemory.Ordered (memory : GuestMemory) : Prop where
  nonempty : ∀ vma ∈ memory.vmas.values, vma.start < vma.stop
  apart : memory.vmas.values.Pairwise fun a b => a.stop ≤ b.start
  words : memory.addressSpaceEnd < u64Limit

/-- No VMA is in the way of the range. -/
def GuestMemory.Free (memory : GuestMemory) (start stop : Nat) : Prop :=
  ∀ vma ∈ memory.vmas.values, stop ≤ vma.start ∨ vma.stop ≤ start

def GuestMemory.places (memory : GuestMemory) (hint length : Nat) : Set Nat :=
  { start | Aligned start ∧ pageCeil hint ≤ start ∧ minGuestAddress ≤ start ∧
    start + length ≤ memory.addressSpaceEnd ∧ memory.Free start (start + length) }

theorem overlaps_eq_false_iff {memory : GuestMemory} {start stop : Nat} :
    memory.overlaps start stop = false ↔ memory.Free start stop := by
  unfold GuestMemory.overlaps GuestMemory.Free GuestVma.overlaps
  rw [List.any_eq_false]
  refine forall₂_congr fun vma _ => ?_
  rw [decide_eq_true_eq]
  omega

theorem pageCeil_aligned (n : Nat) : Aligned (pageCeil n) := dvd_alignDownTo _ _

theorem le_pageCeil (n : Nat) : n ≤ pageCeil n := by
  have hlt := lt_alignDownTo_add (n + (guestPageSize - 1)) guestPageSize (by decide)
  unfold pageCeil
  unfold guestPageSize at *
  omega

theorem pageCeil_le {n bound : Nat} (hbound : Aligned bound) (h : n ≤ bound) : pageCeil n ≤ bound := by
  obtain ⟨k, rfl⟩ := hbound
  have hle := alignDownTo_le (n + (guestPageSize - 1)) guestPageSize
  obtain ⟨j, hj⟩ := dvd_alignDownTo (n + (guestPageSize - 1)) guestPageSize
  unfold pageCeil
  rw [hj] at hle ⊢
  unfold guestPageSize at *
  omega

theorem pageCeil_of_aligned {n : Nat} (h : Aligned n) : pageCeil n = n :=
  le_antisymm (pageCeil_le h (le_refl n)) (le_pageCeil n)

theorem alignUp_error {n : Nat} {error : GuestMemoryError} (h : alignUp n = .error error) :
    u64Limit ≤ n + (guestPageSize - 1) := by
  by_contra hlt
  have hup : alignUpTo n guestPageSize = .ok (pageCeil n) := alignUpTo_eq_ok.mpr ⟨rfl, Nat.lt_of_not_le hlt⟩
  rw [alignUp, hup] at h
  nomatch h

theorem lt_of_aligned {n start : Nat} (h : Aligned start) (hstart : n ≤ start) (hlimit : start < u64Limit) :
    n + (guestPageSize - 1) < u64Limit := by
  obtain ⟨k, rfl⟩ := h
  unfold u64Limit guestPageSize at *
  omega

theorem checkedMappingEnd_of_fits {start length bound : Nat} (hlow : minGuestAddress ≤ start) (haligned : Aligned start)
    (hlimit : start + length < u64Limit) (hbound : start + length ≤ bound) :
    checkedMappingEnd start length bound = .ok (start + length) := by
  have hgood : ¬(decide (start < minGuestAddress) || !isPageAligned start) = true := by
    rw [isPageAligned_iff.mpr haligned]
    simpa using hlow
  unfold checkedMappingEnd
  rw [if_neg hgood, checkedRawRange_eq_ok.mpr ⟨rfl, hlimit⟩]
  exact if_neg (Nat.not_lt_of_le hbound)

/-! ### The scan -/

/-- What a scan from a candidate on is to find among the VMAs that are left. -/
def FirstPlace (length bound candidate : Nat) (vmas : List GuestVma) (start : Nat) : Prop :=
  Aligned start ∧ candidate ≤ start ∧ start + length ≤ bound ∧
    ∀ vma ∈ vmas, start + length ≤ vma.start ∨ vma.stop ≤ start

/-- The scan gives the lowest place from its candidate on, and fails if there is none. -/
theorem findFreeFrom_spec {length bound : Nat} (hbound : bound < u64Limit) {vmas : List GuestVma}
    (hnonempty : ∀ vma ∈ vmas, vma.start < vma.stop) (hapart : vmas.Pairwise fun a b => a.stop ≤ b.start)
    {candidate : Nat} (haligned : Aligned candidate) (hlow : minGuestAddress ≤ candidate) :
    (∀ start, findFreeFrom length bound candidate vmas = .ok start →
        FirstPlace length bound candidate vmas start ∧
          ∀ other, FirstPlace length bound candidate vmas other → start ≤ other) ∧
      ∀ error, findFreeFrom length bound candidate vmas = .error error →
        ∀ other, ¬FirstPlace length bound candidate vmas other := by
  -- a candidate whose end is out of bounds has no place behind it
  have hend : ∀ {candidate error} {vmas : List GuestVma}, Aligned candidate → minGuestAddress ≤ candidate →
      checkedMappingEnd candidate length bound = .error error →
      ∀ other, ¬FirstPlace length bound candidate vmas other := by
    rintro candidate error vmas haligned hlow herror other ⟨-, hother, hfits, -⟩
    have hok := checkedMappingEnd_of_fits hlow haligned (show candidate + length < u64Limit by omega)
      (show candidate + length ≤ bound by omega)
    nomatch herror.symm.trans hok
  induction vmas generalizing candidate with
  | nil =>
      rw [findFreeFrom]
      cases hcheck : checkedMappingEnd candidate length bound with
      | error error => exact ⟨fun start h => (nomatch h), fun _ _ => hend haligned hlow hcheck⟩
      | ok stop =>
          obtain ⟨-, -, rfl, -, hfits⟩ := checkedMappingEnd_ok hcheck
          refine ⟨fun start h => ?_, fun error h => (nomatch h)⟩
          obtain rfl : candidate = start := Except.ok.inj h
          exact ⟨⟨haligned, le_refl _, hfits, nofun⟩, fun other hother => hother.2.1⟩
  | cons vma rest ih =>
      obtain ⟨hbehind, hrest⟩ := List.pairwise_cons.mp hapart
      have hvma := hnonempty vma List.mem_cons_self
      have hnext := @ih (fun other hother => hnonempty other (List.mem_cons_of_mem vma hother)) hrest
      rw [findFreeFrom]
      cases hcheck : checkedMappingEnd candidate length bound with
      | error error => exact ⟨fun start h => (nomatch h), fun _ _ => hend haligned hlow hcheck⟩
      | ok stop =>
          obtain ⟨-, -, rfl, -, hfits⟩ := checkedMappingEnd_ok hcheck
          simp only [Prog.except_ok_bind]
          by_cases hbefore : candidate + length ≤ vma.start
          · rw [if_pos hbefore]
            refine ⟨fun start h => ?_, fun error h => (nomatch h)⟩
            obtain rfl : candidate = start := Except.ok.inj h
            refine ⟨⟨haligned, le_refl _, hfits, fun other hother => ?_⟩, fun other hother => hother.2.1⟩
            rcases List.mem_cons.mp hother with rfl | hother
            · exact Or.inl hbefore
            · have hstart := hbehind other hother
              exact Or.inl (by omega)
          · rw [if_neg hbefore]
            -- every place is behind the VMA that is in the way
            have hskip : ∀ {other}, FirstPlace length bound candidate (vma :: rest) other → vma.stop ≤ other := by
              rintro other ⟨-, hother, -, hfree⟩
              rcases hfree vma List.mem_cons_self with hleft | hright
              · omega
              · exact hright
            by_cases hinside : candidate < vma.stop
            · rw [if_pos hinside]
              cases hup : alignUp vma.stop with
              | error error =>
                  refine ⟨fun start h => (nomatch h), fun _ _ other hother => ?_⟩
                  have hlimit := alignUp_error hup
                  have hsmall := lt_of_aligned hother.1 (hskip hother) (by have := hother.2.2.1; omega)
                  omega
              | ok next =>
                  obtain rfl := alignUp_eq_pageCeil hup
                  have hceil := le_pageCeil vma.stop
                  have hsame : ∀ other, FirstPlace length bound (pageCeil vma.stop) rest other ↔
                      FirstPlace length bound candidate (vma :: rest) other := by
                    intro other
                    constructor
                    · rintro ⟨hother, hle, hfit, hfree⟩
                      refine ⟨hother, by omega, hfit, fun found hfound => ?_⟩
                      rcases List.mem_cons.mp hfound with rfl | hfound
                      · exact Or.inr (by omega)
                      · exact hfree found hfound
                    · intro hother
                      exact ⟨hother.1, pageCeil_le hother.1 (hskip hother), hother.2.2.1,
                        fun found hfound => hother.2.2.2 found (List.mem_cons_of_mem vma hfound)⟩
                  have hspec := hnext (pageCeil_aligned vma.stop) (by omega)
                  simp only [hsame] at hspec
                  exact hspec
            · rw [if_neg hinside]
              have hsame : ∀ other, FirstPlace length bound candidate rest other ↔
                  FirstPlace length bound candidate (vma :: rest) other := by
                intro other
                constructor
                · rintro ⟨hother, hle, hfit, hfree⟩
                  refine ⟨hother, hle, hfit, fun found hfound => ?_⟩
                  rcases List.mem_cons.mp hfound with rfl | hfound
                  · exact Or.inr (by omega)
                  · exact hfree found hfound
                · intro hother
                  exact ⟨hother.1, hother.2.1, hother.2.2.1,
                    fun found hfound => hother.2.2.2 found (List.mem_cons_of_mem vma hfound)⟩
              have hspec := hnext haligned hlow
              simp only [hsame] at hspec
              exact hspec

theorem GuestMemory.mem_places {memory : GuestMemory} {hint length start : Nat} : start ∈ memory.places hint length ↔
    FirstPlace length memory.addressSpaceEnd (max (pageCeil hint) minGuestAddress) memory.vmas.values start := by
  unfold GuestMemory.places FirstPlace GuestMemory.Free
  rw [Set.mem_ofPred_eq, max_le_iff]
  tauto

theorem findFreeRange_spec {memory : GuestMemory} (h : memory.Ordered) (hint length : Nat) :
    (∀ start, memory.findFreeRange hint length = .ok start → IsLeast (memory.places hint length) start) ∧
      ∀ error, memory.findFreeRange hint length = .error error → memory.places hint length = ∅ := by
  unfold GuestMemory.findFreeRange
  cases hup : alignUp hint with
  | error error =>
      refine ⟨fun start h => (nomatch h), fun _ _ => Set.eq_empty_iff_forall_notMem.mpr fun start hstart => ?_⟩
      obtain ⟨haligned, hceil, -, hfits, -⟩ := hstart
      have hhint := le_pageCeil hint
      have hwords := h.words
      have hlimit := alignUp_error hup
      have hsmall := lt_of_aligned haligned (hhint.trans hceil) (by omega)
      omega
  | ok candidate =>
      obtain rfl := alignUp_eq_pageCeil hup
      simp only [Prog.except_ok_bind]
      have hmax : (if pageCeil hint < minGuestAddress then minGuestAddress else pageCeil hint) =
          max (pageCeil hint) minGuestAddress := by
        split <;> omega
      have haligned : Aligned (max (pageCeil hint) minGuestAddress) := by
        rcases max_choice (pageCeil hint) minGuestAddress with heq | heq
        · rw [heq]
          exact pageCeil_aligned hint
        · rw [heq]
          exact ⟨1, rfl⟩
      rw [hmax]
      obtain ⟨hok, herror⟩ := @findFreeFrom_spec length _ h.words _ h.nonempty h.apart _ haligned
        (le_max_right _ _)
      refine ⟨fun start hstart => ?_, fun error hnone => Set.eq_empty_iff_forall_notMem.mpr fun start hstart => ?_⟩
      · obtain ⟨hplace, hleast⟩ := hok start hstart
        exact ⟨GuestMemory.mem_places.mpr hplace, fun other hother => hleast other (GuestMemory.mem_places.mp hother)⟩
      · exact herror error hnone start (GuestMemory.mem_places.mp hstart)

theorem findFreeRange_ok_iff {memory : GuestMemory} (h : memory.Ordered) {hint length start : Nat} :
    memory.findFreeRange hint length = .ok start ↔ IsLeast (memory.places hint length) start := by
  obtain ⟨hok, herror⟩ := findFreeRange_spec h hint length
  refine ⟨hok start, fun hleast => ?_⟩
  cases hfound : memory.findFreeRange hint length with
  | ok found => rw [(hok found hfound).unique hleast]
  | error error => exact absurd hleast.1 (herror error hfound ▸ Set.notMem_empty start)

theorem findFreeRange_error_iff {memory : GuestMemory} (h : memory.Ordered) {hint length : Nat} :
    (∃ error, memory.findFreeRange hint length = .error error) ↔ memory.places hint length = ∅ := by
  obtain ⟨hok, herror⟩ := findFreeRange_spec h hint length
  constructor
  · exact fun ⟨error, hnone⟩ => herror error hnone
  · intro hempty
    cases hfound : memory.findFreeRange hint length with
    | ok found => exact absurd (hok found hfound).1 (hempty ▸ Set.notMem_empty found)
    | error error => exact ⟨error, rfl⟩

theorem nextRetryMmapStart_ok {memory : GuestMemory} (h : memory.Ordered) {previous length next : Nat}
    (hpositive : 0 < length) (hnext : memory.nextRetryMmapStart previous length = .ok next) :
    previous < next ∧ IsLeast (memory.places (previous + length) length) next := by
  unfold GuestMemory.nextRetryMmapStart checkedAdd at hnext
  split at hnext
  · nomatch hnext
  rename_i sum hsum
  split at hsum
  · obtain rfl := Option.some.inj hsum
    obtain ⟨hint, hup, hnext⟩ := Prog.except_bind_eq_ok.mp hnext
    split at hnext
    · nomatch hnext
    have hleast := (findFreeRange_ok_iff h).mp hnext
    obtain rfl := alignUp_eq_pageCeil hup
    have hplaces : memory.places (pageCeil (previous + length)) length = memory.places (previous + length) length := by
      unfold GuestMemory.places
      rw [pageCeil_of_aligned (pageCeil_aligned _)]
    rw [hplaces] at hleast
    have hceil := le_pageCeil (previous + length)
    have hlow := hleast.1.2.1
    exact ⟨by omega, hleast⟩
  · nomatch hsum

/-! ### What keeps the places -/

/-- The VMAs have the same addresses, under the same keys, in the same address space. -/
structure SamePlaces (memory memory' : GuestMemory) : Prop where
  spans : memory'.vmas.values.map (fun vma => (vma.start, vma.stop)) =
    memory.vmas.values.map fun vma => (vma.start, vma.stop)
  space : memory'.addressSpaceEnd = memory.addressSpaceEnd

theorem SamePlaces.refl (memory : GuestMemory) : SamePlaces memory memory := ⟨rfl, rfl⟩

theorem SamePlaces.trans {memory memory' memory'' : GuestMemory} (h : SamePlaces memory memory')
    (h' : SamePlaces memory' memory'') : SamePlaces memory memory'' :=
  ⟨h'.spans.trans h.spans, h'.space.trans h.space⟩

theorem SamePlaces.free {memory memory' : GuestMemory} (h : SamePlaces memory memory') (start stop : Nat) :
    memory'.Free start stop ↔ memory.Free start stop := by
  have hspans : ∀ memory : GuestMemory, memory.Free start stop ↔
      ∀ span ∈ memory.vmas.values.map fun vma => (vma.start, vma.stop), stop ≤ span.1 ∨ span.2 ≤ start := by
    intro memory
    rw [List.forall_mem_map]
    rfl
  rw [hspans, hspans, h.spans]

theorem SamePlaces.places {memory memory' : GuestMemory} (h : SamePlaces memory memory') (hint length : Nat) :
    memory'.places hint length = memory.places hint length := by
  unfold GuestMemory.places
  rw [h.space]
  simp only [h.free]

theorem SamePlaces.ordered {memory memory' : GuestMemory} (h : SamePlaces memory memory') (hordered : memory.Ordered) :
    memory'.Ordered := by
  have hnonempty : ∀ memory : GuestMemory, (∀ vma ∈ memory.vmas.values, vma.start < vma.stop) ↔
      ∀ span ∈ memory.vmas.values.map fun vma => (vma.start, vma.stop), span.1 < span.2 := by
    intro memory
    rw [List.forall_mem_map]
  have hapart : ∀ memory : GuestMemory, memory.vmas.values.Pairwise (fun a b => a.stop ≤ b.start) ↔
      (memory.vmas.values.map fun vma => (vma.start, vma.stop)).Pairwise fun a b => a.2 ≤ b.1 := by
    intro memory
    rw [List.pairwise_map]
  refine ⟨?_, ?_, ?_⟩
  · rw [hnonempty, h.spans, ← hnonempty]
    exact hordered.nonempty
  · rw [hapart, h.spans, ← hapart]
    exact hordered.apart
  · rw [h.space]
    exact hordered.words

def KeepsPlaces {α : Type} (m : MemM α) : Prop :=
  ∀ s, wp m (fun _ s' => SamePlaces s.mem s'.mem) (fun _ s' => SamePlaces s.mem s'.mem) s

namespace KeepsPlaces

variable {α β : Type}

theorem pure (a : α) : KeepsPlaces (Pure.pure a : MemM α) := fun s => (wp_pure a).mpr (.refl s.mem)

theorem throw (e : Abort) : KeepsPlaces (.throw e : MemM α) := fun s => (wp_throw e).mpr (.refl s.mem)

theorem fail (e : GuestMemoryError) : KeepsPlaces (Memory.fail e : MemM α) := throw _

theorem abort : KeepsPlaces (Memory.abort : MemM α) := throw _

theorem get : KeepsPlaces (Prog.get : MemM Machine) := fun s => wp_get.mpr (.refl s.mem)

theorem bind {m : MemM α} {f : α → MemM β} (hm : KeepsPlaces m) (hf : ∀ a, KeepsPlaces (f a)) :
    KeepsPlaces (m >>= f) := by
  intro s
  rw [wp_bind]
  refine wp_mono (hm s) (fun a s' h => ?_) (fun _ _ h => h)
  exact wp_mono (hf a s') (fun _ _ h' => h.trans h') (fun _ _ h' => h.trans h')

theorem ite {c : Prop} [Decidable c] {m m' : MemM α} (hm : KeepsPlaces m) (hm' : KeepsPlaces m') :
    KeepsPlaces (if c then m else m') := by
  split
  · exact hm
  · exact hm'

theorem forEach {f : β → MemM Unit} (hf : ∀ b, KeepsPlaces (f b)) : ∀ l, KeepsPlaces (Prog.forEach l f)
  | [] => pure ()
  | b :: rest => (hf b).bind fun _ => forEach hf rest

theorem collect {f : β → MemM α} (hf : ∀ b, KeepsPlaces (f b)) : ∀ l, KeepsPlaces (Prog.collect l f)
  | [] => pure []
  | b :: rest => (hf b).bind fun _ => (collect hf rest).bind fun _ => pure _

theorem tryCatch {m : MemM α} {handler : Abort → MemM α} (hm : KeepsPlaces m) (hh : ∀ e, KeepsPlaces (handler e)) :
    KeepsPlaces (Prog.tryCatch m handler) := by
  intro s
  rw [wp_tryCatch]
  refine wp_mono (hm s) (fun _ _ h => h) (fun e s' h => ?_)
  exact wp_mono (hh e s') (fun _ _ h' => h.trans h') (fun _ _ h' => h.trans h')

theorem check (x : Except GuestMemoryError α) : KeepsPlaces (Memory.check x) := by
  cases x with
  | ok a => exact pure a
  | error e => exact fail e

theorem getMem : KeepsPlaces Memory.getMem := get.bind fun _ => pure _

theorem modifyMem {f : GuestMemory → GuestMemory} (hf : ∀ memory, SamePlaces memory (f memory)) :
    KeepsPlaces (Memory.modifyMem f) := fun s => (wp_modifyMem f).mpr (hf s.mem)

theorem modifyHeap (f : Machine → HostHeap) :
    KeepsPlaces (.modify fun s => { s with heap := f s } : MemM Unit) :=
  fun s => (wp_modify _).mpr (.refl s.mem)

/-- A part that keeps the places, in a program that is to keep those of an earlier state where it fails. -/
theorem wp_from {m : MemM α} {f : α → MemM β} (hm : KeepsPlaces m) {memory : GuestMemory} {s : Machine}
    (h : SamePlaces memory s.mem) {Q : β → Machine → Prop}
    (hf : ∀ a s', SamePlaces memory s'.mem → wp (f a) Q (fun _ s'' => SamePlaces memory s''.mem) s') :
    wp (m >>= f) Q (fun _ s' => SamePlaces memory s'.mem) s := by
  rw [wp_bind]
  exact wp_mono (hm s) (fun a s' h' => hf a s' (h.trans h')) (fun _ _ h' => h.trans h')

end KeepsPlaces

variable (ctx : Context)

theorem allocateGuestHostMemoryAt_keepsPlaces (site : AllocSite) (start len : Nat) (mode : HostAddressMode) :
    KeepsPlaces (allocateGuestHostMemoryAt ctx site start len mode) := by
  refine KeepsPlaces.ite (.fail _) (KeepsPlaces.get.bind fun s => KeepsPlaces.ite (.fail _) ?_)
  refine (KeepsPlaces.modifyHeap _).bind fun _ => ?_
  cases ctx.refusal s.heap.calls site with
  | some error => exact .fail _
  | none => exact (KeepsPlaces.modifyHeap _).bind fun _ => .pure _

theorem protectRange_keepsPlaces (arc : ArcId) (offset len : Nat) : KeepsPlaces (protectRange arc offset len) :=
  KeepsPlaces.get.bind fun _ => .ite (.fail _) (.pure _)

theorem protect_keepsPlaces (arc : ArcId) : KeepsPlaces (protect arc) :=
  KeepsPlaces.get.bind fun _ => protectRange_keepsPlaces _ _ _

theorem applyAllocationProtections_keepsPlaces (arc : ArcId) (ranges : List AllocationProtectionRange) :
    KeepsPlaces (applyAllocationProtections arc ranges) :=
  .forEach (fun _ => protectRange_keepsPlaces _ _ _) ranges

theorem copyInto_keepsPlaces (arc : ArcId) (start stop : Nat) (bytes : ByteBuf) :
    KeepsPlaces (copyInto arc start stop bytes) :=
  KeepsPlaces.get.bind fun _ => .ite (.modifyHeap _) .abort

theorem zeroFill_keepsPlaces (arc : ArcId) (start stop : Nat) : KeepsPlaces (zeroFill arc start stop) :=
  KeepsPlaces.get.bind fun _ => .ite (.modifyHeap _) .abort

theorem guardedBytes_keepsPlaces (arc : ArcId) (ranges : List AllocationProtectionRange) (start stop : Nat) :
    KeepsPlaces (guardedBytes arc ranges start stop) :=
  (protect_keepsPlaces arc).bind fun _ =>
    (KeepsPlaces.get.bind fun _ => KeepsPlaces.ite (.pure _) .abort).bind fun _ =>
      (applyAllocationProtections_keepsPlaces arc ranges).bind fun _ => .pure _

theorem expectAllocation_keepsPlaces (allocationId : Nat) : KeepsPlaces (expectAllocation allocationId) := by
  refine KeepsPlaces.getMem.bind fun memory => ?_
  cases memory.allocations.get? allocationId with
  | some a => exact .pure a
  | none => exact .abort

theorem setAllocation_keepsPlaces (allocationId : Nat) (allocation : GuestAllocation) :
    KeepsPlaces (setAllocation allocationId allocation) := .modifyMem fun _ => ⟨rfl, rfl⟩

theorem insertAllocation_keepsPlaces (guestStart : Nat) (arc : ArcId) : KeepsPlaces (insertAllocation guestStart arc) := by
  refine KeepsPlaces.getMem.bind fun memory => ?_
  cases checkedAdd memory.nextAllocationId 1 with
  | none => exact .fail _
  | some next =>
      refine KeepsPlaces.bind (.modifyMem ?_) fun _ => (setAllocation_keepsPlaces _ _).bind fun _ => .pure _
      exact fun _ => ⟨rfl, rfl⟩

theorem ensureAllocationUnique_keepsPlaces (allocationId : Nat) :
    KeepsPlaces (ensureAllocationUnique ctx allocationId) := by
  refine KeepsPlaces.getMem.bind fun memory => ?_
  cases memory.allocations.get? allocationId with
  | none => exact .fail _
  | some allocation =>
      refine KeepsPlaces.ite (.pure ()) ?_
      refine KeepsPlaces.get.bind fun s => (guardedBytes_keepsPlaces _ _ _ _).bind fun bytes => ?_
      refine (allocateGuestHostMemoryAt_keepsPlaces ctx _ _ _ _).bind fun arc => ?_
      refine (copyInto_keepsPlaces _ _ _ _).bind fun _ => ?_
      exact (applyAllocationProtections_keepsPlaces _ _).bind fun _ => setAllocation_keepsPlaces _ _

theorem restoreSavedAllocations_keepsPlaces (saved : List SavedAllocation) :
    KeepsPlaces (restoreSavedAllocations ctx saved) := by
  refine KeepsPlaces.forEach (fun allocation => KeepsPlaces.getMem.bind fun memory => ?_) saved
  refine (allocateGuestHostMemoryAt_keepsPlaces ctx _ _ _ _).bind fun arc => ?_
  refine (copyInto_keepsPlaces _ _ _ _).bind fun _ => ?_
  exact (applyAllocationProtections_keepsPlaces _ _).bind fun _ => setAllocation_keepsPlaces _ _

theorem saveAllocation_keepsPlaces (allocationId : Nat) : KeepsPlaces (saveAllocation allocationId) :=
  KeepsPlaces.getMem.bind fun _ => (expectAllocation_keepsPlaces _).bind fun _ =>
    KeepsPlaces.get.bind fun _ => (guardedBytes_keepsPlaces _ _ _ _).bind fun _ => .pure _

theorem samePlaces_mapValues {memory : GuestMemory} {f : Nat → GuestVma → GuestVma}
    (hstart : ∀ key vma, (f key vma).start = vma.start) (hstop : ∀ key vma, (f key vma).stop = vma.stop) :
    SamePlaces memory { memory with vmas := memory.vmas.mapValues f } := by
  refine ⟨?_, rfl⟩
  simp only [SortedMap.values, SortedMap.mapValues, List.map_map]
  refine List.map_congr_left fun entry _ => ?_
  simp only [Function.comp_apply, hstart, hstop]

theorem replaceOverlappingAllocations_keepsPlaces (requestedStart guestStart guestEnd : Nat)
    (allocationIds : List Nat) :
    KeepsPlaces (replaceOverlappingAllocations ctx requestedStart guestStart guestEnd allocationIds) := by
  refine (KeepsPlaces.collect (fun _ => saveAllocation_keepsPlaces _) _).bind fun saved => ?_
  refine KeepsPlaces.getMem.bind fun memory => ?_
  refine KeepsPlaces.bind (.modifyMem fun _ => ⟨rfl, rfl⟩) fun _ => ?_
  refine KeepsPlaces.ite (.fail _) ?_
  have hrestore : ∀ {α : Type} (e : Abort),
      KeepsPlaces (restoreSavedAllocations ctx saved >>= fun _ => (.throw e : MemM α)) :=
    fun e => (restoreSavedAllocations_keepsPlaces ctx saved).bind fun _ => .throw e
  refine ((allocateGuestHostMemoryAt_keepsPlaces ctx _ _ _ _).tryCatch fun e => hrestore e).bind fun arc => ?_
  refine (KeepsPlaces.forEach (fun _ => copyInto_keepsPlaces _ _ _ _) _).bind fun _ => ?_
  refine (insertAllocation_keepsPlaces _ _).bind fun id => ?_
  refine ((applyAllocationProtections_keepsPlaces _ _).tryCatch fun e => ?_).bind fun _ => ?_
  · exact KeepsPlaces.bind (.modifyMem fun _ => ⟨rfl, rfl⟩) fun _ => hrestore e
  · refine KeepsPlaces.bind (.modifyMem fun memory => samePlaces_mapValues ?_ ?_) fun _ => .pure _
    all_goals
      intro key vma
      split <;> rfl

theorem ensureHostAllocation_keepsPlaces (start length : Nat) : KeepsPlaces (ensureHostAllocation ctx start length) := by
  refine (KeepsPlaces.check _).bind fun stop => KeepsPlaces.get.bind fun s => ?_
  cases s.mem.findContaining s.heap start stop with
  | some found => exact .pure _
  | none =>
      refine (KeepsPlaces.check _).bind fun range => (KeepsPlaces.check _).bind fun guestEnd => ?_
      refine KeepsPlaces.ite (replaceOverlappingAllocations_keepsPlaces ctx _ _ _ _) ?_
      refine KeepsPlaces.ite (.fail _) (KeepsPlaces.ite (.fail _) ?_)
      refine (allocateGuestHostMemoryAt_keepsPlaces ctx _ _ _ _).bind fun arc => ?_
      exact (insertAllocation_keepsPlaces _ _).bind fun _ => .pure _

theorem zeroAllocationRange_keepsPlaces (allocationId allocationOffset len : Nat) :
    KeepsPlaces (zeroAllocationRange ctx allocationId allocationOffset len) := by
  refine KeepsPlaces.getMem.bind fun memory => (ensureAllocationUnique_keepsPlaces ctx _).bind fun _ => ?_
  refine (expectAllocation_keepsPlaces _).bind fun _ => (protect_keepsPlaces _).bind fun _ => ?_
  have harc : KeepsPlaces (allocationMemoryMut ctx allocationId) :=
    (ensureAllocationUnique_keepsPlaces ctx _).bind fun _ => (expectAllocation_keepsPlaces _).bind fun _ =>
      KeepsPlaces.getMem.bind fun _ => .ite (.pure _) (.fail _)
  refine harc.bind fun arc => (zeroFill_keepsPlaces _ _ _).bind fun _ => ?_
  exact (expectAllocation_keepsPlaces _).bind fun _ => applyAllocationProtections_keepsPlaces _ _

theorem insertMapping_placed (start length : Nat) (protection : GuestMemoryProtection) (kind : GuestVmaKind)
    (s : Machine) : wp (insertMapping ctx start length protection kind)
      (fun _ _ => s.mem.Free start (start + length)) (fun _ s' => SamePlaces s.mem s'.mem) s := by
  rw [insertMapping, wp_bind, wp_getMem]
  refine wp_check_bind (fun stop hstop => ?_) (fun _ _ => .refl s.mem)
  obtain ⟨-, -, rfl, -, -⟩ := checkedMappingEnd_ok hstop
  rw [wp_ite]
  split
  · exact (wp_fail _).mpr (.refl s.mem)
  · rename_i hover
    have hfree := overlaps_eq_false_iff.mp (Bool.eq_false_iff.mpr hover)
    refine (ensureHostAllocation_keepsPlaces ctx _ _).wp_from (.refl s.mem) fun place s' h => ?_
    refine (zeroAllocationRange_keepsPlaces ctx _ _ _).wp_from h fun _ s' h => ?_
    refine (expectAllocation_keepsPlaces _).wp_from h fun allocation s' h => ?_
    refine (protectRange_keepsPlaces _ _ _).wp_from h fun _ s' h => ?_
    exact (wp_modifyMem _).mpr hfree

/-- One move of a mapping that the host has refused: to the lowest place behind the one it was refused at. -/
def Retry (memory : GuestMemory) (length previous next : Nat) : Prop :=
  previous < next ∧ IsLeast (memory.places (previous + length) length) next

theorem mmapLoop_placed {args : MmapSyscallArgs} {length : Nat} (protection : GuestMemoryProtection)
    (kind : GuestVmaKind) (hfixed : args.isFixed = false) (hpositive : 0 < length) {memory : GuestMemory}
    (hordered : memory.Ordered) (retries start : Nat) {s : Machine} (h : SamePlaces memory s.mem) :
    wp (mmapLoop ctx args length protection kind retries start)
      (fun final _ => memory.Free final (final + length) ∧ Relation.ReflTransGen (Retry memory length) start final)
      (fun _ s' => SamePlaces memory s'.mem) s := by
  have hattempt : ∀ start s, SamePlaces memory s.mem →
      wp (insertMapping ctx start length protection kind >>= fun _ => pure start)
        (fun final _ => final = start ∧ memory.Free start (start + length))
        (fun _ s' => SamePlaces memory s'.mem) s := by
    intro start s h
    rw [wp_bind]
    exact wp_mono (insertMapping_placed ctx start length protection kind s)
      (fun _ s' hfree => (wp_pure start).mpr ⟨rfl, (h.free _ _).mp hfree⟩) (fun _ s' h' => h.trans h')
  induction retries generalizing start s with
  | zero =>
      rw [mmapLoop, wp_bind, wp_when, hfixed]
      simp only [Bool.false_eq_true, if_false]
      rw [wp_tryCatch]
      refine wp_mono (hattempt start s h) (fun final s' hfinal => ?_) (fun e s' h' => ?_)
      · obtain ⟨rfl, hfree⟩ := hfinal
        exact ⟨hfree, .refl⟩
      · rw [wp_bind, wp_getMem]
        exact (wp_throw e).mpr h'
  | succ retries ih =>
      rw [mmapLoop, wp_bind, wp_when, hfixed]
      simp only [Bool.false_eq_true, if_false]
      rw [wp_tryCatch]
      refine wp_mono (hattempt start s h) (fun final s' hfinal => ?_) (fun e s' h' => ?_)
      · obtain ⟨rfl, hfree⟩ := hfinal
        exact ⟨hfree, .refl⟩
      · rw [wp_bind, wp_getMem, wp_ite]
        split
        · refine wp_check_bind (fun next hnext => ?_) (fun _ _ => h')
          obtain ⟨hhigher, hleast⟩ := nextRetryMmapStart_ok (h'.ordered hordered) hpositive hnext
          rw [h'.places] at hleast
          exact wp_mono (ih next h') (fun final s'' hfinal => ⟨hfinal.1, .head ⟨hhigher, hleast⟩ hfinal.2⟩)
            (fun _ _ h'' => h'')
        · exact (wp_throw e).mpr h'

/-- The hint of a call: the base of the mappings where the call names no address. -/
def mmapHint (memory : GuestMemory) (args : MmapSyscallArgs) : Nat :=
  if args.addr = 0 then memory.mmapBase else args.addr

theorem mmapStart_placed {memory : GuestMemory} (h : memory.Ordered) {args : MmapSyscallArgs} {length start : Nat}
    (hfixed : args.isFixed = false) (hnoreplace : args.isFixedNoreplace = false)
    (hstart : memory.mmapStart args length = .ok start) : IsLeast (memory.places (mmapHint memory args) length) start := by
  unfold GuestMemory.mmapStart at hstart
  rw [hfixed, hnoreplace] at hstart
  simp only [Bool.or_self, Bool.false_eq_true, if_false] at hstart
  unfold mmapHint
  split at hstart
  · rename_i hzero
    rw [Prog.except_ok_bind] at hstart
    rw [if_pos hzero]
    exact (findFreeRange_ok_iff h).mp hstart
  · rename_i hzero
    obtain ⟨hint, hup, hfound⟩ := Prog.except_bind_eq_ok.mp hstart
    have hleast := (findFreeRange_ok_iff h).mp hfound
    obtain rfl := alignUp_eq_pageCeil hup
    rw [if_neg hzero]
    have hplaces : memory.places (pageCeil (max args.addr minGuestAddress)) length = memory.places args.addr length := by
      ext other
      unfold GuestMemory.places
      rw [Set.mem_ofPred_eq, Set.mem_ofPred_eq, pageCeil_of_aligned (pageCeil_aligned _)]
      refine and_congr_right fun haligned => ?_
      have haddr : pageCeil args.addr ≤ pageCeil (max args.addr minGuestAddress) := pageCeil_mono (le_max_left _ _)
      constructor
      · rintro ⟨hceil, hrest⟩
        exact ⟨haddr.trans hceil, hrest⟩
      · rintro ⟨hceil, hmin, hrest⟩
        exact ⟨pageCeil_le haligned (max_le ((le_pageCeil _).trans hceil) hmin), hmin, hrest⟩
    rw [hplaces] at hleast
    exact hleast

/-- Placement without a fixed address is first-fit: the search gives the lowest place from its hint on and fails if there
is none; a call maps a free place, to which it came from the lowest place of its hint by retries that each move up to the
next place. -/
theorem placement_first_fit {s : Machine} (h : s.mem.Ordered) :
    (∀ hint length, (∀ start, s.mem.findFreeRange hint length = .ok start ↔ IsLeast (s.mem.places hint length) start) ∧
      ((∃ error, s.mem.findFreeRange hint length = .error error) ↔ s.mem.places hint length = ∅)) ∧
    ∀ args : MmapSyscallArgs, args.isFixed = false → args.isFixedNoreplace = false →
      ∀ final s', mmap ctx args s = (.ok final, s') → ∃ length first, pageRoundLength args.length = .ok length ∧
        IsLeast (s.mem.places (mmapHint s.mem args) length) first ∧
        Relation.ReflTransGen (Retry s.mem length) first final ∧ s.mem.Free final (final + length) := by
  refine ⟨fun hint length => ⟨fun start => findFreeRange_ok_iff h, findFreeRange_error_iff h⟩,
    fun args hfixed hnoreplace final s' hrun => ?_⟩
  have hspec : wp (mmap ctx args) (fun final _ => ∃ length first, pageRoundLength args.length = .ok length ∧
      IsLeast (s.mem.places (mmapHint s.mem args) length) first ∧
      Relation.ReflTransGen (Retry s.mem length) first final ∧ s.mem.Free final (final + length))
      (fun _ _ => True) s := by
    unfold mmap
    refine wp_check_bind (fun protection _ => ?_) (fun _ _ => trivial)
    refine wp_check_bind (fun length hlength => ?_) (fun _ _ => trivial)
    refine wp_check_bind (fun kind _ => ?_) (fun _ _ => trivial)
    rw [wp_bind, wp_getMem]
    refine wp_check_bind (fun start hstart => ?_) (fun _ _ => trivial)
    obtain ⟨hpositive, -⟩ := pageRoundLength_ok hlength
    have hplaced := mmapLoop_placed ctx protection kind hfixed hpositive h mmapHostConflictRetries start (.refl s.mem)
    exact wp_mono hplaced
      (fun final _ hfinal => ⟨length, start, hlength, mmapStart_placed h hfixed hnoreplace hstart, hfinal.2, hfinal.1⟩)
      (fun _ _ _ => trivial)
  exact wp_ok hspec hrun

def lowPage : GuestMemory :=
  ⟨SortedMap.empty.insert 0x1000 ⟨0x1000, 0x2000, ⟨true, true, false⟩, .anonymous, 1, 0⟩, .empty, 2, 0x100000, 0x100000,
    0x1000, 0x200000, .flexible, 0⟩

/-- A mapping without an address lands in the lowest place. -/
theorem lowPage_first_fit : IsLeast (lowPage.places 0 0x3000) 0x2000 ∧
    ∃ first, IsLeast (lowPage.places 0x1000 0x3000) first ∧ Relation.ReflTransGen (Retry lowPage 0x3000) first 0x2000 := by
  let ctx : Context := ⟨.windows, fun _ _ => none, fun _ => 0⟩
  let args : MmapSyscallArgs := ⟨0, 0x3000, 3, linuxMapPrivate ||| linuxMapAnonymous, -1, 0⟩
  have hordered : (⟨lowPage, .empty⟩ : Machine).mem.Ordered :=
    ⟨by decide, List.pairwise_singleton _ _, by decide⟩
  have hfit := placement_first_fit ctx hordered
  have hmmap : (mmap ctx args ⟨lowPage, .empty⟩).1 = .ok 0x2000 := by decide +kernel
  obtain ⟨length, first, hlength, hfirst, hretries, -⟩ :=
    hfit.2 args (by decide) (by decide) 0x2000 _ (Prod.ext hmmap rfl)
  have hround : pageRoundLength 0x3000 = .ok 0x3000 := by decide +kernel
  obtain rfl := Except.ok.inj (hround.symm.trans hlength)
  exact ⟨((hfit.1 0 0x3000).1 0x2000).mp rfl, first, hfirst, hretries⟩

end Mcr.Memory
