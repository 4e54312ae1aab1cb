import Mcr.Lib.Prog
import Mcr.Snapshot.Tar

/-!
# What the fields of a header keep

Numbers are read back from their octal digits. Of a string the import keeps the part before the first zero without
the blanks at its end, so it reads a string back when there is neither, and all of it is ASCII.
-/

namespace Mcr.Snapshot

/-! ### Padding and blanks -/

theorem takeWhile_pad (text : Text) (n : Nat) :
    (text ++ List.replicate n 0).takeWhile (· != 0) = text.takeWhile (· != 0) := by
  induction text with
  | nil => cases n <;> rfl
  | cons byte rest ih =>
      rw [List.cons_append, List.takeWhile_cons, List.takeWhile_cons, ih]

theorem rdropWhile_of_last {p : UInt8 → Bool} {text : Text} (h : ∀ byte ∈ text.getLast?, p byte = false) :
    text.rdropWhile p = text := by
  rw [List.rdropWhile_eq_self_iff]
  intro hne
  rw [h _ (List.getLast?_eq_getLast_of_ne_nil hne)]
  decide

/-! ### Octal numbers -/

def octalDigit (c : Char) : UInt8 := UInt8.ofNat c.toNat

theorem octalDigit_digitChar {digit : Nat} (h : digit < 8) : octalDigit digit.digitChar = UInt8.ofNat (48 + digit) := by
  match digit, h with
  | 0, _ | 1, _ | 2, _ | 3, _ | 4, _ | 5, _ | 6, _ | 7, _ => rfl

theorem pushOctal_digit {fieldName : String} {parsed digit : Nat} (hdigit : digit < 8)
    (hlimit : parsed * 8 + digit < 2 ^ 64) :
    pushOctal fieldName parsed (UInt8.ofNat (48 + digit)) = .ok (parsed * 8 + digit) := by
  have hbyte : (UInt8.ofNat (48 + digit)).toNat = 48 + digit := by
    rw [UInt8.toNat_ofNat']
    omega
  have hrange : ¬(UInt8.ofNat (48 + digit) < 48 ∨ 55 < UInt8.ofNat (48 + digit)) := by
    rw [UInt8.lt_iff_toNat_lt, UInt8.lt_iff_toNat_lt, hbyte]
    change ¬(48 + digit < 48 ∨ 55 < 48 + digit)
    omega
  unfold pushOctal
  rw [if_neg hrange]
  simp only [hbyte, Nat.add_sub_cancel_left]
  rw [if_neg (Nat.not_le.mpr hlimit)]

theorem foldlM_octal {fieldName : String} (value : Nat) (h : value < 2 ^ 64) :
    ((Nat.toDigits 8 value).map octalDigit).foldlM (pushOctal fieldName) 0 = .ok value := by
  induction value using Nat.strongRecOn with
  | _ value ih =>
      by_cases hlast : value < 8
      · rw [Nat.toDigits_of_lt_base hlast, List.map_singleton, octalDigit_digitChar hlast, List.foldlM_cons,
          pushOctal_digit hlast (by omega), Nat.zero_mul, Nat.zero_add]
        rfl
      · have hdigit : value % 8 < 8 := Nat.mod_lt value (by omega)
        have hvalue : value / 8 * 8 + value % 8 = value := Nat.div_add_mod' value 8
        rw [Nat.toDigits_of_base_le (by omega) (by omega), List.map_append, List.foldlM_append,
          ih (value / 8) (by omega) (by omega)]
        show List.foldlM (pushOctal fieldName) (value / 8) [octalDigit (value % 8).digitChar] = .ok value
        rw [octalDigit_digitChar hdigit, List.foldlM_cons, pushOctal_digit hdigit (by omega), hvalue]
        rfl

theorem foldlM_octalText {fieldName : String} {width value : Nat} (h : value < 2 ^ 64) :
    (octalText width value).foldlM (pushOctal fieldName) 0 = .ok value := by
  have hzeros : ∀ n : Nat, (List.replicate n (48 : UInt8)).foldlM (pushOctal fieldName) 0 = .ok 0 := by
    intro n
    induction n with
    | zero => rfl
    | succ n ih => exact ih
  unfold octalText List.leftpad
  rw [List.foldlM_append, hzeros]
  exact foldlM_octal value h

theorem octalText_digits {width value : Nat} : ∀ byte ∈ octalText width value, 48 ≤ byte.toNat ∧ byte.toNat ≤ 55 := by
  have hdigits : ∀ value, ∀ byte ∈ (Nat.toDigits 8 value).map octalDigit, 48 ≤ byte.toNat ∧ byte.toNat ≤ 55 := by
    intro value
    induction value using Nat.strongRecOn with
    | _ value ih =>
        have hdigit : ∀ digit < 8, 48 ≤ (octalDigit digit.digitChar).toNat ∧ (octalDigit digit.digitChar).toNat ≤ 55 := by
          decide
        intro byte hbyte
        by_cases hlast : value < 8
        · rw [Nat.toDigits_of_lt_base hlast, List.map_singleton, List.mem_singleton] at hbyte
          exact hbyte ▸ hdigit value hlast
        · rw [Nat.toDigits_of_base_le (by omega) (by omega), List.map_append, List.mem_append] at hbyte
          rcases hbyte with hfront | hdigit'
          · exact ih (value / 8) (by omega) byte hfront
          · rw [List.map_singleton, List.mem_singleton] at hdigit'
            exact hdigit' ▸ hdigit (value % 8) (Nat.mod_lt value (by omega))
  intro byte hbyte
  unfold octalText List.leftpad at hbyte
  rcases List.mem_append.mp hbyte with hpad | hbyte
  · rw [(List.mem_replicate.mp hpad).2]
    decide
  · exact hdigits value byte hbyte

theorem tarOctal_octalText {fieldName : String} {width value : Nat} (h : value < 2 ^ 64) (n : Nat) :
    tarOctal (octalText width value ++ List.replicate n 0) fieldName = .ok value := by
  have hdigits : ∀ byte ∈ octalText width value, 48 ≤ byte.toNat ∧ byte.toNat ≤ 55 := octalText_digits
  have hvalue : (octalText width value).foldlM (pushOctal fieldName) 0 = .ok value := foldlM_octalText h
  generalize octalText width value = text at hdigits hvalue
  have hcut : (text ++ List.replicate n 0).takeWhile (· != 0) = text := by
    rw [takeWhile_pad, List.takeWhile_eq_self_iff]
    intro byte hbyte
    rw [bne_iff_ne]
    rintro rfl
    exact absurd (hdigits 0 hbyte).1 (by decide)
  have hblank : ∀ byte ∈ text, (byte == 32) = false := by
    intro byte hbyte
    rw [beq_eq_false_iff_ne]
    rintro rfl
    exact absurd (hdigits 32 hbyte).1 (by decide)
  have hstart : text.dropWhile (· == 32) = text := by
    cases text with
    | nil => rfl
    | cons byte rest => rw [List.dropWhile_cons, hblank byte List.mem_cons_self, if_neg Bool.false_ne_true]
  have hend : text.rdropWhile (· == 32) = text :=
    rdropWhile_of_last fun byte hbyte => hblank byte (List.mem_of_getLast? hbyte)
  rw [tarOctal, hcut, hstart, hend]
  exact hvalue

theorem tarOctal32_octalText {fieldName : String} {width : Nat} (value : UInt32) (n : Nat) :
    tarOctal32 (octalText width value.toNat ++ List.replicate n 0) fieldName = .ok value := by
  have hlimit : value.toNat < 2 ^ 32 := value.toNat_lt
  rw [tarOctal32, tarOctal_octalText (by omega)]
  show (if 2 ^ 32 ≤ value.toNat then _ else _) = _
  rw [if_neg (by omega)]
  exact congrArg Except.ok UInt32.ofNat_toNat

/-! ### Strings -/

/-- What the import keeps of a string. -/
def kept (text : Text) : Text := (text.takeWhile (· != 0)).rdropWhile (· == 32)

/-- ASCII, without a zero, and without a blank at the end. -/
structure Text.Plain (text : Text) : Prop where
  ascii : ∀ byte ∈ text, byte ≠ 0 ∧ byte < 128
  last : text.getLast? ≠ some 32

theorem kept_leads (text : Text) : kept text <+: text :=
  (List.rdropWhile_prefix _ _).trans (List.takeWhile_prefix _)

theorem kept_of_plain {text : Text} (h : text.Plain) : kept text = text := by
  have hcut : text.takeWhile (· != 0) = text := by
    rw [List.takeWhile_eq_self_iff]
    intro byte hbyte
    simpa using (h.ascii byte hbyte).1
  unfold kept
  rw [hcut]
  apply rdropWhile_of_last
  intro byte hbyte
  rw [beq_eq_false_iff_ne]
  rintro rfl
  exact h.last hbyte

theorem tarString_pad (text : Text) (n : Nat) (fieldName : String) :
    tarString (text ++ List.replicate n 0) fieldName =
      if (kept text).all (· < 128) then .ok (kept text) else .error (.invalidStringField fieldName) := by
  unfold tarString kept
  rw [takeWhile_pad]

theorem tarString_plain {text : Text} (h : text.Plain) (n : Nat) (fieldName : String) :
    tarString (text ++ List.replicate n 0) fieldName = .ok text := by
  rw [tarString_pad, kept_of_plain h, if_pos]
  rw [List.all_eq_true]
  intro byte hbyte
  exact decide_eq_true (h.ascii byte hbyte).2

/-- The import reads at most what was written, and nothing less only of a plain string. -/
theorem tarString_ok {text found : Text} {n : Nat} {fieldName : String}
    (h : tarString (text ++ List.replicate n 0) fieldName = .ok found) :
    found.length ≤ text.length ∧ (found.length = text.length → found = text ∧ text.Plain) := by
  rw [tarString_pad] at h
  split at h
  · rename_i hascii
    obtain rfl := Except.ok.inj h
    refine ⟨(kept_leads text).length_le, fun hlength => ?_⟩
    have hkept : kept text = text := (kept_leads text).eq_of_length hlength
    refine ⟨hkept, fun byte hbyte => ⟨?_, ?_⟩, ?_⟩
    · rintro rfl
      rw [← hkept] at hbyte
      have hcut := List.mem_takeWhile_imp ((List.rdropWhile_prefix _ _).subset hbyte)
      simp at hcut
    · rw [← hkept] at hbyte
      exact of_decide_eq_true (List.all_eq_true.mp hascii byte hbyte)
    · intro hlast
      rw [← hkept] at hlast
      have hne : kept text ≠ [] := by
        intro hnil
        rw [hnil] at hlast
        nomatch hlast
      have hend : (kept text).getLast hne = 32 :=
        Option.some.inj ((List.getLast?_eq_getLast_of_ne_nil hne).symm.trans hlast)
      exact List.rdropWhile_last_not _ _ hne (beq_iff_eq.mpr hend)
  · nomatch h

end Mcr.Snapshot
