import Mathlib

/-!
# Numbers as text

Reading a number of a limited width back from its digits, in any radix up to 16.
-/

namespace Mcr

def toDigit (radix : Nat) (c : Char) : Option Nat :=
  let value :=
    if '0' ≤ c ∧ c ≤ '9' then some (c.toNat - '0'.toNat)
    else if 'a' ≤ c ∧ c ≤ 'z' then some (c.toNat - 'a'.toNat + 10)
    else if 'A' ≤ c ∧ c ≤ 'Z' then some (c.toNat - 'A'.toNat + 10)
    else none
  value.filter (· < radix)

/-- One more digit, unless the value then reaches the limit. -/
def pushDigit (limit radix value : Nat) (c : Char) : Option Nat :=
  (toDigit radix c).bind fun digit => if value * radix + digit < limit then some (value * radix + digit) else none

/-- `from_str_radix` of an unsigned type with values below the limit. -/
def fromStrRadix (limit radix : Nat) (text : List Char) : Option Nat :=
  match text with
  | [] => none
  | '+' :: c :: rest => (c :: rest).foldlM (pushDigit limit radix) 0
  | text => text.foldlM (pushDigit limit radix) 0

theorem toDigit_digitChar {radix digit : Nat} (h : digit < radix) (hradix : radix ≤ 16) :
    toDigit radix digit.digitChar = some digit := by
  have hsmall : digit < 16 := Nat.lt_of_lt_of_le h hradix
  have hvalue : toDigit 16 digit.digitChar = some digit := by
    interval_cases digit <;> decide
  unfold toDigit at hvalue ⊢
  rw [Option.filter_eq_some_iff] at hvalue ⊢
  exact ⟨hvalue.1, decide_eq_true h⟩

theorem foldlM_toDigits {limit radix : Nat} (hradix : 1 < radix) (hsmall : radix ≤ 16) (n : Nat) (h : n < limit) :
    (Nat.toDigits radix n).foldlM (pushDigit limit radix) 0 = some n := by
  induction n using Nat.strongRecOn with
  | _ n ih =>
      by_cases hlast : n < radix
      · rw [Nat.toDigits_of_lt_base hlast, List.foldlM_cons, pushDigit, toDigit_digitChar hlast hsmall, Option.bind_some,
          Nat.zero_mul, Nat.zero_add, if_pos h]
        rfl
      · have hdigit : n % radix < radix := Nat.mod_lt n (by omega)
        have hvalue : n / radix * radix + n % radix = n := Nat.div_add_mod' n radix
        rw [Nat.toDigits_of_base_le hradix (by omega), List.foldlM_append,
          ih (n / radix) (Nat.div_lt_self (by omega) hradix) (Nat.lt_of_le_of_lt (Nat.div_le_self n radix) h)]
        show List.foldlM (pushDigit limit radix) (n / radix) [(n % radix).digitChar] = some n
        rw [List.foldlM_cons, pushDigit, toDigit_digitChar hdigit hsmall, Option.bind_some, hvalue, if_pos h]
        rfl

theorem fromStrRadix_toDigits {limit radix : Nat} (hradix : 1 < radix) (hsmall : radix ≤ 16) {n : Nat} (h : n < limit) :
    fromStrRadix limit radix (Nat.toDigits radix n) = some n := by
  have hdigits := foldlM_toDigits hradix hsmall n h
  have hplus : toDigit radix '+' = none := by
    unfold toDigit
    rfl
  have hsome : Nat.toDigits radix n ≠ [] := Nat.toDigits_ne_nil
  generalize Nat.toDigits radix n = text at hdigits hsome
  unfold fromStrRadix
  split
  · exact absurd rfl hsome
  · rw [List.foldlM_cons, pushDigit, hplus] at hdigits
    cases hdigits
  · exact hdigits

end Mcr
