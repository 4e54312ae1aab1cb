import Mcr.Lib.SortedMap

/-!
# Finite sets in increasing order

A set is a map to the one-element type, so it inherits its order of iteration. The lemmas describe every
operation by membership, and `ext_mem` recovers the set from it.
-/

namespace Mcr

/-- A finite set whose elements are listed in strictly increasing order. -/
structure SortedSet (κ : Type) [LinearOrder κ] where
  marks : SortedMap κ Unit

namespace SortedSet

variable {κ ν : Type} [LinearOrder κ]

def empty : SortedSet κ := ⟨.empty⟩

def insert (s : SortedSet κ) (k : κ) : SortedSet κ := ⟨s.marks.insert k ()⟩

def erase (s : SortedSet κ) (k : κ) : SortedSet κ := ⟨s.marks.erase k⟩

def toList (s : SortedSet κ) : List κ := s.marks.keys

def contains (s : SortedSet κ) (k : κ) : Bool := (s.marks.get? k).isSome

def isEmpty (s : SortedSet κ) : Bool := s.toList.isEmpty

def ofList (l : List κ) : SortedSet κ := l.foldr (fun k s => s.insert k) empty

def keysWhere (m : SortedMap κ ν) (p : κ → ν → Bool) : SortedSet κ := 
  ⟨(m.filter p).mapValues fun _ _ => ()⟩

instance : Membership κ (SortedSet κ) := ⟨fun s k => s.contains k = true⟩

instance (k : κ) (s : SortedSet κ) : Decidable (k ∈ s) := inferInstanceAs (Decidable (s.contains k = true))

theorem mem_iff_get? {s : SortedSet κ} {k : κ} : k ∈ s ↔ s.marks.get? k = some () := by
  change (s.marks.get? k).isSome = true ↔ _
  cases s.marks.get? k <;> simp

@[simp] theorem not_mem_empty (k : κ) : k ∉ (empty : SortedSet κ) := by
  rw [mem_iff_get?, empty, SortedMap.get?_empty]
  exact nofun

@[simp] theorem mem_insert {s : SortedSet κ} {k j : κ} : j ∈ s.insert k ↔ j = k ∨ j ∈ s := by
  rw [mem_iff_get?, mem_iff_get?, insert, SortedMap.get?_insert]
  by_cases h : j = k <;> simp [h]

@[simp] theorem mem_erase {s : SortedSet κ} {k j : κ} : j ∈ s.erase k ↔ j ≠ k ∧ j ∈ s := by
  rw [mem_iff_get?, mem_iff_get?, erase, SortedMap.get?_erase]
  by_cases h : j = k <;> simp [h]

@[simp] theorem mem_ofList {l : List κ} {k : κ} : k ∈ ofList l ↔ k ∈ l := by
  induction l with
  | nil => simp [ofList]
  | cons j rest ih =>
      rw [ofList, List.foldr_cons, mem_insert, List.mem_cons]
      exact or_congr_right ih

@[simp] theorem mem_toList {s : SortedSet κ} {k : κ} : k ∈ s.toList ↔ k ∈ s := by
  rw [toList, SortedMap.mem_keys, mem_iff_get?]
  exact ⟨fun ⟨_, h⟩ => h, fun h => ⟨(), h⟩⟩

@[simp] theorem mem_keysWhere {m : SortedMap κ ν} {p : κ → ν → Bool} {k : κ} :
    k ∈ keysWhere m p ↔ ∃ v, m.get? k = some v ∧ p k v = true := by
  rw [mem_iff_get?, keysWhere, SortedMap.get?_mapValues, Option.map_eq_some_iff]
  simp [SortedMap.get?_filter_eq_some]

theorem toList_sorted (s : SortedSet κ) : s.toList.Pairwise (· < ·) := s.marks.keys_sorted

theorem toList_nodup (s : SortedSet κ) : s.toList.Nodup := s.toList_sorted.imp fun h => h.ne

theorem isEmpty_iff {s : SortedSet κ} : s.isEmpty = true ↔ ∀ k, k ∉ s := by
  simp only [isEmpty, List.isEmpty_iff, List.eq_nil_iff_forall_not_mem, mem_toList]

theorem ext_mem {s t : SortedSet κ} (h : ∀ k, k ∈ s ↔ k ∈ t) : s = t := by
  obtain ⟨s⟩ := s
  obtain ⟨t⟩ := t
  refine congrArg mk (SortedMap.ext_get? fun k => ?_)
  have hk := h k
  rw [mem_iff_get?, mem_iff_get?] at hk
  cases hs : s.get? k with
  | some _ => exact (hk.mp hs).symm
  | none =>
      cases ht : t.get? k with
      | some _ => rw [hk.mpr ht] at hs; exact nomatch hs
      | none => rfl

end SortedSet

end Mcr
