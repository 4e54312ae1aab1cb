import Mcr.Memory.Write

/-!
# Patching code

A patch ignores the write permission but not the copy-on-write: every page it changes is made unique
first. The second pass of `patch_code_fixed` works on places it found in the first, which stay valid
because a store never moves a VMA.
-/

namespace Mcr.Memory

open Prog

section Patch

variable {ctx : Context} {s : Machine}

theorem patchCode_kept (hwf : Wf ctx s) (address : Nat) (bytes : List UInt8) :
    (patchCode ctx address bytes).wp (fun _ s' => Kept ctx s s')
      (fun e s' => Kept ctx s s' ∧ e ≠ .panic) s := by
  have hrefl := (Cowed.refl hwf).kept
  unfold patchCode
  refine wp_check_bind (fun stop hstop => ?_) (fun e _ => ⟨hrefl, by simp⟩)
  obtain ⟨rfl, _⟩ := checkedRawRange_eq_ok.mp hstop
  rw [wp_bind, wp_vmaAt]
  cases hv : s.mem.vmaContaining address with
  | none => exact ⟨hrefl, by simp⟩
  | some v =>
      simp only
      rw [wp_ite]
      split
      · exact (wp_fail _).mpr ⟨hrefl, by simp⟩
      rename_i hend
      rw [wp_bind]
      refine wp_mono (ensureGuestPageRangeUnique_within hwf hv (not_lt.mp hend)) (fun _ t ht => ?_)
        (fun e t ht => ⟨ht.1.kept, ht.2.1⟩)
      obtain ⟨hcowed, ⟨w, hw, _, _, hwstop⟩, _⟩ := ht
      obtain ⟨hwget, hwlow, hwhigh, hww⟩ := hcowed.wf.vma_of_containing hw
      obtain ⟨a, ha, hlink, hstop⟩ := hww.linked
      have hwa := hcowed.wf.allocation _ _ ha
      have hnonempty := hwa.nonempty
      have hroom : guestSliceOffset w address + bytes.length ≤ (t.heap.object a.memory).len := by
        unfold guestSliceOffset
        omega
      rw [wp_bind, wp_vmaAt, hw]
      simp only
      rw [wp_bind, wp_getMem, wp_bind]
      refine wp_expectAllocation_ok ha ?_
      rw [wp_bind, wp_protect, if_neg (by omega), wp_bind, wp_sliceBytes,
        if_pos ⟨Nat.le_add_right _ _, hroom⟩, wp_bind]
      refine wp_mono (allocationMemoryMut_spec hcowed.wf ha) (fun arc u hu => ?_) (fun e u hu => ?_)
      swap
      · refine ⟨(hcowed.trans (hu.1.1.cowed hcowed.wf hu.1.2)).kept, ?_⟩
        obtain ⟨_, _, _, rfl⟩ := hu.2
        simp
      obtain ⟨⟨hsim, hwfu⟩, a', ha', rfl, hcount⟩ := hu
      obtain ⟨b, hb, hguest, hsame⟩ := hsim.get ha
      obtain rfl := Option.some.inj (ha'.symm.trans hb)
      rw [hsame.len] at hroom
      have hstored := (stored_of_blit hcowed.wf hsim hwfu hwget bytes hwlow hwstop ha' hcount).kept
      have hkept := hcowed.kept.trans hstored
      rw [wp_bind, wp_copyInto,
        if_pos ⟨Nat.le_add_right _ _, hroom, by rw [ByteBuf.ofList_len]; omega⟩, wp_bind]
      refine wp_expectAllocation_ok (s := { u with heap := _ }) ha' ?_
      rw [wp_bind]
      refine wp_applyAllocationProtections ?_ (.inr ?_)
      · rw [wp_bind, wp_flushInstructionCacheRange]
        split
        · exact ⟨hkept, by simp⟩
        · exact (wp_pure _).mpr hkept
      · -- the VMAs are those the ranges were computed from
        have hranges : t.mem.allocationProtectionRanges w.allocationId =
            u.mem.allocationProtectionRanges w.allocationId := by
          unfold GuestMemory.allocationProtectionRanges
          rw [hsim.vmas]
        rw [hranges]
        exact hstored.wf.rangesWithin (s := { u with heap := _ }) ha'

/-! ### `patch_code_fixed` -/

theorem wp_patchTarget {address n : Nat} {Q : GuestVma → Machine → Prop} {E : Abort → Machine → Prop}
    (hQ : ∀ v, s.mem.vmaContaining address = some v → address + n ≤ v.stop → Q v s)
    (hE : ∀ error, E (.error error) s) : (patchTarget address n).wp Q E s := by
  unfold patchTarget
  refine wp_check_bind (fun stop hstop => ?_) (fun e _ => hE e)
  obtain ⟨rfl, _⟩ := checkedRawRange_eq_ok.mp hstop
  rw [wp_bind, wp_vmaAt]
  cases hv : s.mem.vmaContaining address with
  | none => exact hE _
  | some v =>
      simp only
      rw [wp_ite]
      split
      · exact (wp_fail _).mpr (hE _)
      · rename_i hend
        exact (wp_pure _).mpr (hQ v hv (not_lt.mp hend))

theorem makePatchTargetsUnique_spec (hwf : Wf ctx s) (n : Nat) (addresses : List Nat) :
    (makePatchTargetsUnique ctx n addresses).wp (fun _ s' => Cowed ctx s s')
      (fun e s' => Cowed ctx s s' ∧ e ≠ .panic) s := by
  rw [makePatchTargetsUnique, wp_bind, wp_getMem, wp_ite]
  split
  · rw [wp_bind]
    refine wp_mono (wp_collect
      (I := fun _ (targets : List GuestVma) s' => s' = s ∧
        ∀ v ∈ targets, ∃ a, s.mem.allocations.get? v.allocationId = some a)
      (E := fun e s' => s' = s ∧ e ≠ .panic) (fun address rest targets s' h => ?_) addresses [] s
      ⟨rfl, by simp⟩) (fun targets s' h => ?_) (fun e s' h => ⟨h.1.symm ▸ Cowed.refl hwf, h.2⟩)
    · obtain ⟨rfl, hlive⟩ := h
      refine wp_patchTarget (fun v hv _ => ⟨rfl, fun w hw => ?_⟩) (fun error => ⟨rfl, by simp⟩)
      rcases List.mem_append.mp hw with hw | hw
      · exact hlive w hw
      · obtain rfl := List.mem_singleton.mp hw
        obtain ⟨a, ha, _⟩ := (hwf.vma_of_containing hv).2.2.2.linked
        exact ⟨a, ha⟩
    · obtain ⟨rfl, hlive⟩ := h
      rw [List.nil_append] at hlive
      refine wp_mono (uniqueLoop_spec hwf _ fun id hid => ?_) (fun _ t ht => ht.1.cowed hwf ht.2)
        (fun e t ht => ⟨ht.1.1.cowed hwf ht.1.2, ?_⟩)
      · obtain ⟨v, hv, rfl⟩ := List.mem_map.mp (mem_idSet.mp hid)
        exact hlive v hv
      · obtain ⟨_, _, _, rfl⟩ := ht.2
        simp
  · refine wp_forEach (I := fun _ s' => Cowed ctx s s')
      (E := fun (e : Abort) s' => Cowed ctx s s' ∧ e ≠ .panic)
      (fun address rest s' h => ?_) addresses s (Cowed.refl hwf)
    rw [wp_bind]
    refine wp_patchTarget (fun v hv hend => ?_) (fun error => ⟨h, by simp⟩)
    exact wp_mono (ensureGuestPageRangeUnique_within h.wf hv hend) (fun _ t ht => h.trans ht.1)
      (fun e t ht => ⟨h.trans ht.1, ht.2.1⟩)

def PlannedPatch.Within (patch : PlannedPatch) (memory : GuestMemory) (n : Nat) : Prop :=
  patch.bytes.length = n ∧ ∃ v address, memory.vmas.get? v.start = some v ∧ v.start ≤ address ∧
    address + n ≤ v.stop ∧ v.allocationId = patch.allocationId ∧
    patch.allocationOffset = guestSliceOffset v address

structure Patched (ctx : Context) (s s' : Machine) : Prop where
  kept : Kept ctx s s'
  vmas : s'.mem.vmas = s.mem.vmas

theorem Patched.refl (hwf : Wf ctx s) : Patched ctx s s := ⟨(Cowed.refl hwf).kept, rfl⟩

theorem Patched.within {t : Machine} {n : Nat} {patch : PlannedPatch} (h : Patched ctx s t)
    (hpatch : patch.Within s.mem n) : patch.Within t.mem n := by
  unfold PlannedPatch.Within
  rw [h.vmas]
  exact hpatch

theorem PlannedPatch.Within.live {n : Nat} {patch : PlannedPatch} (h : patch.Within s.mem n) (hwf : Wf ctx s) :
    ∃ a, s.mem.allocations.get? patch.allocationId = some a ∧
      patch.allocationOffset + n ≤ (s.heap.object a.memory).len := by
  obtain ⟨_, v, address, hget, hlow, hend, hid, hoffset⟩ := h
  obtain ⟨a, ha, hlink, hstop⟩ := (hwf.vma _ _ hget).linked
  refine ⟨a, hid ▸ ha, ?_⟩
  rw [hoffset]
  unfold guestSliceOffset
  omega

/-- No patch of `n` bytes covers the address. -/
def Unpatched (n : Nat) (addresses : List Nat) (x : Nat) : Prop :=
  ∀ address ∈ addresses, ¬ (address ≤ x ∧ x < address + n)

def SameUnpatched (n : Nat) (addresses : List Nat) (s s' : Machine) : Prop :=
  s.mem.Disjoint → ∀ x, Unpatched n addresses x → ∀ c, s'.Shows x c ↔ s.Shows x c

theorem SameUnpatched.refl (n : Nat) (addresses : List Nat) (s : Machine) : SameUnpatched n addresses s s :=
  fun _ _ _ _ => Iff.rfl

theorem Cowed.sameUnpatched {t : Machine} (h : Cowed ctx s t) (n : Nat) (addresses : List Nat) :
    SameUnpatched n addresses s t := by
  intro _ x _ c
  exact h.neutral.shows x c

theorem SameUnpatched.trans {t u : Machine} {n : Nat} {addresses : List Nat}
    (h : SameUnpatched n addresses s t) (hkept : Kept ctx s t) (h' : SameUnpatched n addresses t u) :
    SameUnpatched n addresses s u := by
  intro hd x hx c
  exact (h' (hkept.disjoint hd) x hx c).trans (h hd x hx c)

def PlannedPatch.At (patch : PlannedPatch) (memory : GuestMemory) (n : Nat) (addresses : List Nat) : Prop :=
  patch.bytes.length = n ∧ ∃ v, ∃ address ∈ addresses, memory.vmas.get? v.start = some v ∧ v.start ≤ address ∧
    address + n ≤ v.stop ∧ v.allocationId = patch.allocationId ∧
    patch.allocationOffset = guestSliceOffset v address

theorem PlannedPatch.At.within {memory : GuestMemory} {n : Nat} {addresses : List Nat} {patch : PlannedPatch}
    (h : patch.At memory n addresses) : patch.Within memory n := by
  obtain ⟨hlen, v, address, _, h⟩ := h
  exact ⟨hlen, v, address, h⟩

theorem storePatch_spec {t : Machine} {n : Nat} {addresses : List Nat} {patch : PlannedPatch}
    (h : Patched ctx s t) (hsame : SameUnpatched n addresses s t) (hpatch : patch.At s.mem n addresses) :
    (allocationMemoryMut ctx patch.allocationId >>= fun arc =>
      copyInto arc patch.allocationOffset (patch.allocationOffset + n) (.ofList patch.bytes)).wp
      (fun _ s' => Patched ctx s s' ∧ SameUnpatched n addresses s s')
      (fun e s' => Patched ctx s s' ∧ e ≠ .panic) t := by
  have hwft := h.kept.wf
  obtain ⟨a, ha, hroom⟩ := (h.within hpatch.within).live hwft
  obtain ⟨hlen, v, address, haddress, hget, hlow, hend, hid, hoffset⟩ := hpatch
  rw [← h.vmas] at hget
  rw [wp_bind]
  refine wp_mono (allocationMemoryMut_spec hwft ha) (fun arc u hu => ?_) (fun e u hu => ?_)
  · obtain ⟨⟨hsim, hwfu⟩, a', ha', rfl, hcount⟩ := hu
    obtain ⟨b, hb, _, hbuf⟩ := hsim.get ha
    obtain rfl := Option.some.inj (ha'.symm.trans hb)
    rw [hbuf.len] at hroom
    rw [wp_copyInto, if_pos ⟨Nat.le_add_right _ _, hroom, by rw [ByteBuf.ofList_len]; omega⟩, hoffset]
    have hstored := stored_of_blit hwft hsim hwfu hget patch.bytes hlow (by omega) (hid ▸ ha') hcount
    constructor
    · exact ⟨h.kept.trans hstored.kept, hsim.vmas.trans h.vmas⟩
    · apply hsame.trans h.kept
      intro hd x hx c
      have hout : ¬ (address ≤ x ∧ x < address + patch.bytes.length) := hlen ▸ hx address haddress
      rw [hstored.shows hd]
      simp [hout]
  · refine ⟨⟨h.kept.trans (hu.1.1.cowed hwft hu.1.2).kept, hu.1.1.vmas.trans h.vmas⟩, ?_⟩
    obtain ⟨_, _, _, rfl⟩ := hu.2
    simp

theorem applyPatches_spec {t : Machine} {n id : Nat} {addresses : List Nat} {patches : List PlannedPatch}
    (h : Patched ctx s t) (hsame : SameUnpatched n addresses s t) (hne : ∃ patch ∈ patches, patch.allocationId = id)
    (hpatches : ∀ patch ∈ patches, patch.At s.mem n addresses ∧ patch.allocationId = id) :
    (applyPatches ctx n id patches).wp (fun _ s' => Patched ctx s s' ∧ SameUnpatched n addresses s s')
      (fun e s' => Patched ctx s s' ∧ e ≠ .panic) t := by
  -- the allocation is live in every state the patches pass through
  have hlive : ∀ u, Patched ctx s u → ∃ a, u.mem.allocations.get? id = some a := by
    intro u hu
    obtain ⟨patch, hmem, rfl⟩ := hne
    obtain ⟨a, ha, _⟩ := (hu.within (hpatches patch hmem).1.within).live hu.kept.wf
    exact ⟨a, ha⟩
  obtain ⟨a, ha⟩ := hlive t h
  have hnonempty := (h.kept.wf.allocation _ _ ha).nonempty
  rw [applyPatches, wp_bind, wp_getMem, wp_bind]
  refine wp_expectAllocation_ok ha ?_
  rw [wp_bind, wp_protect, if_neg (by omega), wp_bind]
  refine wp_mono (wp_forEach
    (I := fun rest s' => (Patched ctx s s' ∧ SameUnpatched n addresses s s') ∧ ∀ patch ∈ rest, patch ∈ patches)
    (E := fun e s' => Patched ctx s s' ∧ e ≠ .panic) (fun patch rest u hu => ?_) patches t
    ⟨⟨h, hsame⟩, fun _ hp => hp⟩) (fun _ u hu => ?_) (fun _ _ hu => hu)
  · obtain ⟨⟨hpatched, hsame⟩, hmem⟩ := hu
    obtain ⟨hat, rfl⟩ := hpatches patch (hmem patch (by simp))
    exact wp_mono (storePatch_spec hpatched hsame hat)
      (fun _ u' hu' => ⟨hu', fun p hp => hmem p (List.mem_cons_of_mem _ hp)⟩) (fun _ _ hu' => hu')
  · obtain ⟨⟨hpatched, hsame⟩, _⟩ := hu
    obtain ⟨a', ha'⟩ := hlive u hpatched
    rw [wp_bind]
    refine wp_expectAllocation_ok ha' ?_
    have hranges : t.mem.allocationProtectionRanges id = u.mem.allocationProtectionRanges id := by
      unfold GuestMemory.allocationProtectionRanges
      rw [hpatched.vmas, h.vmas]
    rw [hranges, wp_bind]
    refine wp_applyAllocationProtections ?_ (.inr (hpatched.kept.wf.rangesWithin ha'))
    refine wp_mono (wp_forEach (I := fun _ s' => s' = u)
      (E := fun e s' => Patched ctx s s' ∧ e ≠ .panic) (fun patch rest u' hu' => ?_) patches u rfl)
      (fun _ u' hu' => hu' ▸ ⟨hpatched, hsame⟩) (fun _ _ hu' => hu')
    subst hu'
    rw [wp_flushInstructionCacheRange]
    split
    · exact ⟨hpatched, by simp⟩
    · rfl

/-- The second pass finds each patch a place in the table. -/
theorem planPatches_spec (hwf : Wf ctx s) (n : Nat) (patches : List (Nat × Vector UInt8 n)) :
    (Prog.collect patches fun patch => do
        let vma ← patchTarget patch.1 n
        pure (⟨vma.allocationId, guestSliceOffset vma patch.1, patch.2.toList⟩ : PlannedPatch)).wp
      (fun planned s' => s' = s ∧ ∀ patch ∈ planned, patch.At s.mem n (patches.map Prod.fst))
      (fun e s' => s' = s ∧ e ≠ .panic) s := by
  refine wp_mono (wp_collect
    (I := fun rest (planned : List PlannedPatch) s' => s' = s ∧ (∀ patch ∈ rest, patch ∈ patches) ∧
      ∀ patch ∈ planned, patch.At s.mem n (patches.map Prod.fst))
    (E := fun e s' => s' = s ∧ e ≠ .panic) (fun patch rest planned s' h => ?_) patches [] s
    ⟨rfl, fun _ hp => hp, by simp⟩) (fun planned s' h => ⟨h.1, by simpa using h.2.2⟩) (fun _ _ h => h)
  obtain ⟨rfl, hrest, hat⟩ := h
  rw [wp_bind]
  refine wp_patchTarget (fun v hv hend => ?_) (fun error => ⟨rfl, by simp⟩)
  obtain ⟨hget, hlow, _, _⟩ := hwf.vma_of_containing hv
  refine (wp_pure _).mpr ⟨rfl, fun p hp => hrest p (List.mem_cons_of_mem _ hp), fun p hp => ?_⟩
  rcases List.mem_append.mp hp with hp | hp
  · exact hat p hp
  · obtain rfl := List.mem_singleton.mp hp
    exact ⟨by simp, v, patch.1, List.mem_map_of_mem (hrest patch (by simp)), hget, hlow, hend, rfl, rfl⟩

/-- The same addresses show something. -/
def SameOccupied (s s' : Machine) : Prop := s.mem.Disjoint → ∀ x, (∃ c, s'.Shows x c) ↔ ∃ c, s.Shows x c

theorem SameOccupied.trans {t u : Machine} (h : SameOccupied s t) (hkept : Kept ctx s t) (h' : SameOccupied t u) :
    SameOccupied s u :=
  fun hd x => (h' (hkept.disjoint hd) x).trans (h hd x)

theorem Cowed.sameOccupied {t : Machine} (h : Cowed ctx s t) : SameOccupied s t :=
  fun _ x => exists_congr fun c => h.neutral.shows x c

theorem Protected.sameOccupied {t : Machine} {start stop : Nat} {protection : GuestMemoryProtection}
    (h : Protected ctx s t start stop protection) : SameOccupied s t := by
  intro hd x
  simp only [h.shows hd]
  constructor
  · rintro ⟨_, c, hc, _⟩
    exact ⟨c, hc⟩
  · rintro ⟨c, hc⟩
    exact ⟨_, c, hc, rfl⟩

theorem Stored.sameOccupied {t : Machine} {lo hi : Nat} {f : Nat → UInt8} (h : Stored ctx s t lo hi f) :
    SameOccupied s t := by
  intro hd x
  simp only [h.shows hd]
  constructor
  · rintro ⟨_, c, hc, _⟩
    exact ⟨c, hc⟩
  · rintro ⟨c, hc⟩
    exact ⟨_, c, hc, rfl⟩

theorem occupied_iff (hwf : Wf ctx s) (x : Nat) :
    (∃ c, s.Shows x c) ↔ ∃ key v, s.mem.vmas.get? key = some v ∧ v.start ≤ x ∧ x < v.stop := by
  simp only [Machine.shows_iff]
  constructor
  · rintro ⟨_, key, v, _, hv, hlow, hhigh, _, _⟩
    exact ⟨key, v, hv, hlow, hhigh⟩
  · rintro ⟨key, v, hv, hlow, hhigh⟩
    obtain ⟨a, ha, _⟩ := (hwf.vma key v hv).linked
    exact ⟨_, key, v, a, hv, hlow, hhigh, ha, rfl⟩

theorem Patched.sameOccupied {t : Machine} (h : Patched ctx s t) (hwf : Wf ctx s) : SameOccupied s t := by
  intro _ x
  rw [occupied_iff h.kept.wf, occupied_iff hwf, h.vmas]

theorem patchCodeFixed_spec (hwf : Wf ctx s) (n : Nat) (patches : List (Nat × Vector UInt8 n)) :
    (patchCodeFixed ctx n patches).wp
      (fun _ s' => (Kept ctx s s' ∧ SameOccupied s s') ∧ SameUnpatched n (patches.map Prod.fst) s s')
      (fun e s' => (Kept ctx s s' ∧ SameOccupied s s') ∧ e ≠ .panic) s := by
  rw [patchCodeFixed, wp_bind]
  refine wp_mono (makePatchTargetsUnique_spec hwf n _) (fun _ t ht => ?_)
    (fun e t ht => ⟨⟨ht.1.kept, ht.1.sameOccupied⟩, ht.2⟩)
  rw [wp_bind]
  refine wp_mono (planPatches_spec ht.wf n patches) (fun planned t' ht' => ?_)
    (fun e t' ht' => ⟨ht'.1.symm ▸ ⟨ht.kept, ht.sameOccupied⟩, ht'.2⟩)
  obtain ⟨rfl, hat⟩ := ht'
  have hafter : ∀ u, Patched ctx t' u → Kept ctx s u ∧ SameOccupied s u := fun u hu =>
    ⟨ht.kept.trans hu.kept, ht.sameOccupied.trans ht.kept (hu.sameOccupied ht.wf)⟩
  refine wp_mono (wp_forEach
    (I := fun rest s' => (Patched ctx t' s' ∧ SameUnpatched n (patches.map Prod.fst) t' s') ∧
      ∀ id ∈ rest, id ∈ planned.map (·.allocationId))
    (E := fun e s' => Patched ctx t' s' ∧ e ≠ .panic) (fun id rest u hu => ?_) _ t'
    ⟨⟨Patched.refl ht.wf, .refl _ _ _⟩, fun id hid => mem_idSet.mp hid⟩)
    (fun _ u hu => ⟨hafter u hu.1.1, (ht.sameUnpatched n _).trans ht.kept hu.1.2⟩)
    (fun e u hu => ⟨hafter u hu.1, hu.2⟩)
  obtain ⟨⟨hpatched, hsame⟩, hmem⟩ := hu
  obtain ⟨patch, hp, hid⟩ := List.mem_map.mp (hmem id (by simp))
  refine wp_mono (applyPatches_spec hpatched hsame ⟨patch, List.mem_filter.mpr ⟨hp, by simpa using hid⟩, hid⟩
    fun p hpp => ?_) (fun _ u' hu' => ⟨hu', fun i hi => hmem i (List.mem_cons_of_mem _ hi)⟩)
    (fun _ _ hu' => hu')
  obtain ⟨hin, hpid⟩ := List.mem_filter.mp hpp
  exact ⟨hat p hin, of_decide_eq_true hpid⟩

theorem patchCodeFixed_kept (hwf : Wf ctx s) (n : Nat) (patches : List (Nat × Vector UInt8 n)) :
    (patchCodeFixed ctx n patches).wp (fun _ s' => Kept ctx s s')
      (fun e s' => Kept ctx s s' ∧ e ≠ .panic) s :=
  wp_mono (patchCodeFixed_spec hwf n patches) (fun _ _ h => h.1.1) (fun _ _ h => ⟨h.1.1, h.2⟩)

end Patch

end Mcr.Memory
