import Mcr.Memory.Unique

/-!
# What `munmap` and `mprotect` leave behind

Both cut the table at the ends of their range first, so that the VMAs of the range are exactly the ones
between the cuts.
-/

namespace Mcr.Memory

open Prog

/-! ### `is_range_mapped` -/

section Mapped

theorem isRangeMappedFrom_iff (stop : Nat) (l : List GuestVma) (cursor : Nat) (hlt : cursor < stop)
    (hsorted : l.Pairwise fun v w => v.stop ≤ w.start)
    (hspans : ∀ v ∈ l, v.start < v.stop ∧ cursor < v.stop) :
    GuestMemory.isRangeMappedFrom stop cursor l = true ↔
      ∀ x, cursor ≤ x → x < stop → ∃ v ∈ l, v.start ≤ x ∧ x < v.stop := by
  induction l generalizing cursor with
  | nil =>
      simp only [GuestMemory.isRangeMappedFrom, Bool.false_eq_true, false_iff]
      intro h
      obtain ⟨v, hv, _⟩ := h cursor le_rfl hlt
      simp at hv
  | cons v rest ih =>
      rw [List.pairwise_cons] at hsorted
      have hv := hspans v (by simp)
      rw [GuestMemory.isRangeMappedFrom]
      by_cases hgap : v.start > cursor
      · -- the VMAs come in order, so nothing covers the cursor
        simp only [hgap, if_true, Bool.false_eq_true, false_iff]
        intro h
        obtain ⟨w, hw, hlow, hhigh⟩ := h cursor le_rfl hlt
        rcases List.mem_cons.mp hw with rfl | hw
        · omega
        · have := hsorted.1 w hw
          omega
      · simp only [hgap, if_false, hv.2, if_true]
        by_cases hdone : v.stop ≥ stop
        · simp only [hdone, if_true, true_iff]
          intro x hlow hhigh
          exact ⟨v, by simp, by omega, by omega⟩
        · simp only [hdone, if_false]
          rw [ih v.stop (by omega) hsorted.2 fun w hw => ?_]
          · constructor
            · intro h x hlow hhigh
              by_cases hx : x < v.stop
              · exact ⟨v, by simp, by omega, hx⟩
              · obtain ⟨w, hw, hrest⟩ := h x (by omega) hhigh
                exact ⟨w, by simp [hw], hrest⟩
            · intro h x hlow hhigh
              obtain ⟨w, hw, hrest⟩ := h x (by omega) hhigh
              rcases List.mem_cons.mp hw with rfl | hw
              · omega
              · exact ⟨w, hw, hrest⟩
          · have h1 := hsorted.1 w hw
            have h2 := (hspans w (by simp [hw])).1
            omega

theorem Wf.values_separated {ctx : Context} {s : Machine} (hwf : Wf ctx s) (hd : s.mem.Disjoint) :
    s.mem.vmas.values.Pairwise fun v w => v.stop ≤ w.start := by
  unfold SortedMap.values
  rw [List.pairwise_map]
  refine s.mem.vmas.sorted.imp_of_mem fun {e e'} he he' hlt => ?_
  have hget := SortedMap.get?_eq_some_iff.mpr he
  have hget' := SortedMap.get?_eq_some_iff.mpr he'
  have hv := hwf.vma _ _ hget
  have hv' := hwf.vma _ _ hget'
  have hkey := hv.key
  have hkey' := hv'.key
  have hne' := hv'.nonempty
  by_contra hover
  have := hd e'.2.start e.1 e.2 e'.1 e'.2 hget hget' (by omega) (by omega) le_rfl hne'
  omega

theorem isRangeMapped_iff {ctx : Context} {s : Machine} (hwf : Wf ctx s) (hd : s.mem.Disjoint)
    {start stop : Nat} (hlt : start < stop) :
    s.mem.isRangeMapped start stop = true ↔ ∀ x, start ≤ x → x < stop → s.cell x ≠ none := by
  unfold GuestMemory.isRangeMapped
  rw [isRangeMappedFrom_iff stop _ start hlt ((hwf.values_separated hd).filter _) fun v hv => ?_]
  · refine forall_congr' fun x => imp_congr_right fun hlow => imp_congr_right fun _ => ?_
    rw [ne_eq, hwf.cell_eq_none_iff, ← ne_eq, Option.ne_none_iff_exists']
    constructor
    · rintro ⟨v, hv, hvlow, hvhigh⟩
      obtain ⟨key, hget⟩ := SortedMap.mem_values.mp (List.mem_filter.mp hv).1
      exact ⟨v, hwf.containing_of_vma hd hget hvlow hvhigh⟩
    · rintro ⟨v, hv⟩
      obtain ⟨hget, hvlow, hvhigh, _⟩ := hwf.vma_of_containing hv
      refine ⟨v, List.mem_filter.mpr ⟨SortedMap.mem_values.mpr ⟨_, hget⟩, ?_⟩, hvlow, hvhigh⟩
      simp only [gt_iff_lt, decide_eq_true_eq]
      omega
  · obtain ⟨hmem, hstop⟩ := List.mem_filter.mp hv
    obtain ⟨key, hget⟩ := SortedMap.mem_values.mp hmem
    exact ⟨(hwf.vma key v hget).nonempty, by simpa using hstop⟩

end Mapped

/-! ### `munmap` -/

section Munmap

variable {s : Machine}

/-- `munmap` fails only on its arguments, and then nothing has changed. -/
theorem munmap_spec (addr length : Nat) :
    (munmap addr length).wp
      (fun _ s' => ∃ stop, checkedPageRange addr length = .ok stop ∧
        s' = { s with mem := s.mem.unmapRange addr stop })
      (fun e s' => s' = s ∧ ∃ error, checkedPageRange addr length = .error error ∧ e = .error error) s := by
  unfold munmap
  refine wp_check_bind (fun stop hstop => ?_) (fun error herror => ⟨rfl, error, herror, rfl⟩)
  rw [wp_modifyMem]
  exact ⟨stop, hstop, rfl⟩

end Munmap

/-! ### `mprotect` -/

section Mprotect

variable {ctx : Context} {s : Machine}

theorem protectLoop_ok (hwf : Wf ctx s) (keys : List Nat)
    (hkeys : ∀ key ∈ keys, ∃ v, s.mem.vmas.get? key = some v) {E : Abort → Machine → Prop} :
    (Prog.forEach keys fun key => do
        match s.mem.vmas.get? key with
        | none => abort
        | some vma =>
          let allocation ← expectAllocation vma.allocationId
          protectRange allocation.memory vma.allocationOffset vma.len).wp
      (fun _ s' => s' = s) E s := by
  refine wp_mono (wp_forEach (I := fun rest s' => s' = s ∧ ∀ key ∈ rest, key ∈ keys) (E := E)
    (fun key rest s' h => ?_) keys s ⟨rfl, fun _ h => h⟩) (fun _ _ h => h.1) (fun _ _ h => h)
  obtain ⟨rfl, hmem⟩ := h
  obtain ⟨v, hv⟩ := hkeys key (hmem key (by simp))
  have hwv := hwf.vma key v hv
  obtain ⟨a, ha, hlink, hend⟩ := hwv.linked
  have hne := hwv.nonempty
  rw [hv]
  simp only
  rw [wp_bind]
  refine wp_expectAllocation_ok ha (wp_protectRange_ok ?_ ?_ ⟨rfl, fun k hk => hmem k (by simp [hk])⟩)
  · unfold GuestVma.len
    omega
  · unfold GuestVma.len
    omega

/-- The table of invariants that every call of the program keeps. -/
structure Kept (ctx : Context) (s s' : Machine) : Prop where
  wf : Wf ctx s'
  disjoint : s.mem.Disjoint → s'.mem.Disjoint
  layout : SameLayout s.mem s'.mem

theorem Cowed.kept {s' : Machine} (h : Cowed ctx s s') : Kept ctx s s' :=
  ⟨h.wf, h.neutral.disjoint, h.neutral.layout⟩

theorem Kept.trans {t u : Machine} (h : Kept ctx s t) (h' : Kept ctx t u) : Kept ctx s u :=
  ⟨h'.wf, fun hd => h'.disjoint (h.disjoint hd), h.layout.trans h'.layout⟩

/-- The pages of a range got a new protection, and nothing else about them changed. -/
structure Protected (ctx : Context) (s s' : Machine) (start stop : Nat)
    (protection : GuestMemoryProtection) : Prop where
  kept : Kept ctx s s'
  generation : s'.mem.executableWriteGeneration = s.mem.executableWriteGeneration
  shows : s.mem.Disjoint → ∀ x c, s'.Shows x c ↔
    ∃ c₀, s.Shows x c₀ ∧ c = if start ≤ x ∧ x < stop then { c₀ with protection } else c₀

/-- Why `mprotect` failed, and that it then changed nothing a guest can see. -/
inductive MprotectError (ctx : Context) (s : Machine) (addr length : Nat) (prot : UInt32) (e : Abort) : Prop
  | protection (error : GuestMemoryError)
      (h : GuestMemoryProtection.fromLinux prot = .error error) (he : e = .error error)
  | range (error : GuestMemoryError) (hlength : length ≠ 0)
      (h : checkedPageRange addr length = .error error) (he : e = .error error)
  | notMapped (stop : Nat) (hlength : length ≠ 0) (h : checkedPageRange addr length = .ok stop)
      (hmapped : s.mem.isRangeMapped addr stop = false) (he : e = .error .notMapped)
  | copy (stop : Nat) (hlength : length ≠ 0) (h : checkedPageRange addr length = .ok stop)
      (hmapped : s.mem.isRangeMapped addr stop = true) (hcause : RangeError ctx s (stop - addr) e)

theorem pieces_le (memory : GuestMemory) (start stop : Nat) : memory.pieces start stop ≤ stop - start := by
  unfold GuestMemory.pieces
  generalize (memory.splitVmaAt start).splitVmaAt stop = m
  have hsub : m.vmas.keysIn start stop ⊆ List.range' start (stop - start) := by
    intro key hkey
    obtain ⟨_, hlow, hhigh⟩ := SortedMap.mem_keysIn.mp hkey
    rw [List.mem_range'_1]
    omega
  have hlen := (List.subperm_of_subset (SortedMap.keysIn_nodup m.vmas start stop) hsub).length_le
  rwa [List.length_range'] at hlen

/-- `mprotect` changes no byte, and names the reason when it fails. -/
theorem mprotect_spec (hwf : Wf ctx s) (addr length : Nat) (prot : UInt32) :
    (mprotect ctx addr length prot).wp
      (fun _ s' => ∃ protection, GuestMemoryProtection.fromLinux prot = .ok protection ∧
        (length = 0 ∧ s' = s ∨
          length ≠ 0 ∧ ∃ stop, checkedPageRange addr length = .ok stop ∧
            s.mem.isRangeMapped addr stop = true ∧ Protected ctx s s' addr stop protection))
      (fun e s' => Cowed ctx s s' ∧ MprotectError ctx s addr length prot e) s := by
  unfold mprotect
  refine wp_check_bind (fun protection hprot => ?_)
    (fun e he => ⟨Cowed.refl hwf, .protection e he rfl⟩)
  rw [wp_ite]
  split
  · rename_i hzero
    exact (wp_pure _).mpr ⟨protection, hprot, .inl ⟨hzero, rfl⟩⟩
  rename_i hzero
  refine wp_check_bind (fun stop hstop => ?_) (fun e he => ⟨Cowed.refl hwf, .range e hzero he rfl⟩)
  rw [wp_bind, wp_getMem, wp_ite]
  split
  · rename_i hmapped
    exact (wp_fail _).mpr ⟨Cowed.refl hwf, .notMapped stop hzero hstop (by simpa using hmapped) rfl⟩
  rename_i hmapped
  have hmapped' : s.mem.isRangeMapped addr stop = true := by simpa using hmapped
  obtain ⟨haddr, hstopAligned, hlt, hbound, _, _⟩ := checkedPageRange_ok hstop
  -- cutting the ends is neutral, and so is the copy
  have hcut : Cowed ctx s { s with mem := (s.mem.splitVmaAt addr).splitVmaAt stop } := by
    refine ⟨cutRange_neutral hwf haddr stop, cutRange_wf hwf haddr hstopAligned, fun p hp => ?_⟩
    exact splitVmaAt_cut_of_cut (s := { s with mem := s.mem.splitVmaAt addr })
      (splitVmaAt_wf hwf haddr) (splitVmaAt_cut_of_cut hwf hp)
  have hids : ((s.mem.splitVmaAt addr).splitVmaAt stop).nextAllocationId = s.mem.nextAllocationId := by
    obtain ⟨_, h⟩ := splitVmaAt_eq s.mem addr
    obtain ⟨_, h'⟩ := splitVmaAt_eq (s.mem.splitVmaAt addr) stop
    rw [h', h]
  rw [wp_bind, wp_modifyMem, wp_bind]
  refine wp_mono (ensureGuestPageRangeUnique_aligned hcut.wf haddr hstopAligned hlt hbound)
    (fun _ t ht => ?_) (fun e t ht => ?_)
  swap
  · refine ⟨hcut.trans ht.1, .copy stop hzero hstop hmapped' ?_⟩
    rcases ht.2 with hrefused | hrefused | ⟨he, hlimit⟩
    · exact .inl hrefused
    · exact .inr (.inl hrefused)
    · have hpieces := pieces_le ((s.mem.splitVmaAt addr).splitVmaAt stop) addr stop
      change u64Limit ≤ ((s.mem.splitVmaAt addr).splitVmaAt stop).nextAllocationId + _ at hlimit
      rw [hids] at hlimit
      exact .inr (.inr ⟨he, hlimit.trans (Nat.add_le_add_left hpieces _)⟩)
  have hcowed := hcut.trans ht
  rw [wp_bind, wp_getMem, wp_bind]
  refine wp_mono (protectLoop_ok ht.wf _ fun key hkey => (SortedMap.mem_keysIn.mp hkey).1)
    (fun _ t' ht' => ?_) (fun _ _ h => h)
  subst ht'
  rw [wp_modifyMem]
  refine ⟨protection, hprot, .inr ⟨hzero, stop, hstop, hmapped', ⟨?_, ?_, ?_⟩, ?_, fun hd x c => ?_⟩⟩
  · exact coalesceAdjacent_wf (s := { t' with mem := _ }) (setProtections_wf ht.wf _)
  · intro hd
    exact (coalesceAdjacent_neutral (s := { t' with mem := _ }) (setProtections_wf ht.wf _)).disjoint
      (setProtections_disjoint (hcowed.neutral.disjoint hd) _)
  · have := hcowed.neutral.layout
    exact ⟨this.brkBase, this.currentBrk, this.mmapBase, this.addressSpaceEnd, this.mode, this.ids⟩
  · exact hcowed.neutral.generation
  · obtain ⟨hcutl, hcutr⟩ := cutRange_cut hwf hd haddr stop
    rw [(coalesceAdjacent_neutral (s := { t' with mem := _ }) (setProtections_wf ht.wf _)).shows,
      setProtections_shows ht.wf (ht.cut _ hcutl) (ht.cut _ hcutr)]
    simp only [hcowed.neutral.shows]

end Mprotect

end Mcr.Memory
