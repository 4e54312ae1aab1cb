import Mathlib

/-!
# Sorting by a key

A stable sort keeps the elements of one key in their order, so the first of them stays the first.
-/

namespace Mcr

variable {α κ : Type} [LinearOrder κ]

theorem filter_mergeSort_key (key : α → κ) (l : List α) (k : κ) :
    (l.mergeSort fun a b => decide (key a ≤ key b)).filter (fun a => decide (key a = k)) =
      l.filter fun a => decide (key a = k) := by
  have hsame : (l.filter fun a => decide (key a = k)).Pairwise fun a b => decide (key a ≤ key b) = true := by
    refine List.pairwise_of_forall_mem_list fun a ha b hb => ?_
    have ha := of_decide_eq_true (List.mem_filter.mp ha).2
    have hb := of_decide_eq_true (List.mem_filter.mp hb).2
    exact decide_eq_true (le_of_eq (ha.trans hb.symm))
  have hkept := @List.sublist_mergeSort α (fun a b => decide (key a ≤ key b)) _
    (fun a b c hab hbc => decide_eq_true (le_trans (of_decide_eq_true hab) (of_decide_eq_true hbc)))
    (fun a b => by simpa using le_total (key a) (key b)) _ hsame List.filter_sublist
  have hfiltered := hkept.filter fun a => decide (key a = k)
  rw [List.filter_filter] at hfiltered
  simp only [Bool.and_self] at hfiltered
  have hperm := (List.mergeSort_perm l fun a b => decide (key a ≤ key b)).filter fun a => decide (key a = k)
  exact (hfiltered.eq_of_length hperm.length_eq.symm).symm

theorem find?_mergeSort_key (key : α → κ) (l : List α) (k : κ) :
    (l.mergeSort fun a b => decide (key a ≤ key b)).find? (fun a => decide (key a = k)) =
      l.find? fun a => decide (key a = k) := by
  rw [← List.head?_filter, ← List.head?_filter, filter_mergeSort_key]

end Mcr
