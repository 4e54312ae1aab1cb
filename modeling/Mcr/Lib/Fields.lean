import Mathlib

/-!
# Records of fixed fields

A record is a list of a fixed length whose fields are ranges of it. Writing a value at the start of a field leaves the
rest of the field, and what is written into fields that do not meet can be read back from each of them.
-/

namespace Mcr

variable {α : Type}

/-- A field: where it starts and how long it is. -/
structure Slot where
  start : Nat
  width : Nat
deriving DecidableEq

def Slot.stop (slot : Slot) : Nat := slot.start + slot.width

/-- The fields have no place in common. -/
def Slot.Apart (slot slot' : Slot) : Prop := slot.stop ≤ slot'.start ∨ slot'.stop ≤ slot.start

instance (slot slot' : Slot) : Decidable (slot.Apart slot') :=
  inferInstanceAs (Decidable (slot.stop ≤ slot'.start ∨ slot'.stop ≤ slot.start))

def writeAt (record : List α) (start : Nat) (value : List α) : List α :=
  record.take start ++ value ++ record.drop (start + value.length)

def Slot.field (slot : Slot) (record : List α) : List α := (record.drop slot.start).take slot.width

def writeAll (record : List α) (writes : List (Slot × List α)) : List α :=
  writes.foldl (fun record write => writeAt record write.1.start write.2) record

variable {record value : List α} {slot slot' : Slot} {start : Nat}

@[simp] theorem writeAt_nil (record : List α) (start : Nat) : writeAt record start [] = record := by
  simp [writeAt]

theorem length_writeAt (h : start + value.length ≤ record.length) :
    (writeAt record start value).length = record.length := by
  simp only [writeAt, List.length_append, List.length_take, List.length_drop]
  omega

theorem getElem?_writeAt (h : start + value.length ≤ record.length) (i : Nat) :
    (writeAt record start value)[i]? =
      if start ≤ i ∧ i < start + value.length then value[i - start]? else record[i]? := by
  have hstart : (record.take start).length = start := by
    rw [List.length_take]
    omega
  unfold writeAt
  rw [List.append_assoc, List.getElem?_append, hstart]
  by_cases hbefore : i < start
  · rw [if_pos hbefore, if_neg (by omega), List.getElem?_take_of_lt hbefore]
  rw [if_neg hbefore, List.getElem?_append]
  by_cases hinside : i - start < value.length
  · rw [if_pos hinside, if_pos (by omega)]
  · rw [if_neg hinside, if_neg (by omega), List.getElem?_drop]
    congr 1
    omega

theorem getElem?_field (slot : Slot) (record : List α) (i : Nat) :
    (slot.field record)[i]? = if i < slot.width then record[slot.start + i]? else none := by
  unfold Slot.field
  split
  · rw [List.getElem?_take_of_lt ‹_›, List.getElem?_drop]
  · rw [List.getElem?_eq_none]
    rw [List.length_take]
    omega

theorem field_writeAt_apart (h : slot.Apart slot') (hvalue : value.length ≤ slot'.width)
    (hrecord : slot'.stop ≤ record.length) : slot.field (writeAt record slot'.start value) = slot.field record := by
  unfold Slot.Apart Slot.stop at h
  unfold Slot.stop at hrecord
  apply List.ext_getElem?
  intro i
  rw [getElem?_field, getElem?_field, getElem?_writeAt (by omega)]
  by_cases hi : i < slot.width
  · rw [if_pos hi, if_pos hi, if_neg (by omega)]
  · rw [if_neg hi, if_neg hi]

theorem field_writeAt (hvalue : value.length ≤ slot.width) (hrecord : slot.stop ≤ record.length) :
    slot.field (writeAt record slot.start value) = value ++ (slot.field record).drop value.length := by
  unfold Slot.stop at hrecord
  apply List.ext_getElem?
  intro i
  rw [getElem?_field, getElem?_writeAt (by omega), List.getElem?_append, List.getElem?_drop, getElem?_field]
  by_cases hi : i < value.length
  · have hinside : slot.start ≤ slot.start + i ∧ slot.start + i < slot.start + value.length := by omega
    rw [if_pos (by omega), if_pos hinside, if_pos hi, Nat.add_sub_cancel_left]
  · have hindex : value.length + (i - value.length) = i := by omega
    have houtside : ¬(slot.start ≤ slot.start + i ∧ slot.start + i < slot.start + value.length) := by omega
    rw [if_neg hi, if_neg houtside, hindex]

structure Laid (length : Nat) (writes : List (Slot × List α)) : Prop where
  inside : ∀ write ∈ writes, write.1.stop ≤ length
  fits : ∀ write ∈ writes, write.2.length ≤ write.1.width
  apart : (writes.map Prod.fst).Pairwise Slot.Apart

theorem Laid.tail {length : Nat} {write : Slot × List α} {writes : List (Slot × List α)}
    (h : Laid length (write :: writes)) : Laid length writes where
  inside write' hwrite' := h.inside write' (List.mem_cons_of_mem _ hwrite')
  fits write' hwrite' := h.fits write' (List.mem_cons_of_mem _ hwrite')
  apart := (List.pairwise_cons.mp h.apart).2

theorem length_writeAll {writes : List (Slot × List α)} : ∀ {record : List α}, Laid record.length writes →
    (writeAll record writes).length = record.length := by
  induction writes with
  | nil => exact fun _ => rfl
  | cons write rest ih =>
      intro record h
      have hfits := h.fits write List.mem_cons_self
      have hinside := h.inside write List.mem_cons_self
      unfold Slot.stop at hinside
      have hlength : (writeAt record write.1.start write.2).length = record.length := length_writeAt (by omega)
      exact (ih (by rw [hlength]; exact h.tail)).trans hlength

theorem field_writeAll_apart {writes : List (Slot × List α)} : ∀ {record : List α}, Laid record.length writes →
    (∀ write ∈ writes, slot.Apart write.1) → slot.field (writeAll record writes) = slot.field record := by
  induction writes with
  | nil => exact fun _ _ => rfl
  | cons write rest ih =>
      intro record h hapart
      have hfits := h.fits write List.mem_cons_self
      have hinside := h.inside write List.mem_cons_self
      have hlength : (writeAt record write.1.start write.2).length = record.length := by
        unfold Slot.stop at hinside
        exact length_writeAt (by omega)
      have hlaid : Laid (writeAt record write.1.start write.2).length rest := by
        rw [hlength]
        exact h.tail
      have hrest : slot.field (writeAll (writeAt record write.1.start write.2) rest) =
          slot.field (writeAt record write.1.start write.2) :=
        ih hlaid fun write' hwrite' => hapart write' (List.mem_cons_of_mem _ hwrite')
      exact hrest.trans (field_writeAt_apart (hapart write List.mem_cons_self) hfits hinside)

theorem field_writeAll {writes : List (Slot × List α)} : ∀ {record : List α}, Laid record.length writes →
    (slot, value) ∈ writes →
      slot.field (writeAll record writes) = value ++ (slot.field record).drop value.length := by
  induction writes with
  | nil => exact fun _ hmem => nomatch hmem
  | cons write rest ih =>
      intro record h hmem
      have hfits := h.fits write List.mem_cons_self
      have hinside := h.inside write List.mem_cons_self
      have hlength : (writeAt record write.1.start write.2).length = record.length := by
        unfold Slot.stop at hinside
        exact length_writeAt (by omega)
      have hlaid : Laid (writeAt record write.1.start write.2).length rest := by
        rw [hlength]
        exact h.tail
      have hapart := (List.pairwise_cons.mp h.apart).1
      rcases List.mem_cons.mp hmem with rfl | hmem
      · have hrest : slot.field (writeAll (writeAt record slot.start value) rest) =
            slot.field (writeAt record slot.start value) :=
          field_writeAll_apart hlaid fun write' hwrite' => hapart write'.1 (List.mem_map_of_mem hwrite')
        exact hrest.trans (field_writeAt hfits hinside)
      · have hslot := hapart slot (List.mem_map_of_mem hmem)
        have hkept : slot.field (writeAt record write.1.start write.2) = slot.field record :=
          field_writeAt_apart hslot.symm hfits hinside
        rw [← hkept]
        exact ih hlaid hmem

end Mcr
