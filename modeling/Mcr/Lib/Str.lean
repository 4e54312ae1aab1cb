import Mathlib

/-!
# Text as a list of characters

The operations of `str` on a text given as its characters: where a character stands first and last and what is on its
two sides, and the whitespace at both ends. Positions count characters where the source counts bytes; they are used for
cutting only.
-/

namespace Mcr

abbrev Str : Type := List Char

namespace Str

section Cutting

variable {α : Type} [DecidableEq α] {sep : α} {text before after : List α}

def splitOnce (sep : α) : List α → Option (List α × List α)
  | [] => none
  | c :: rest => if c = sep then some ([], rest) else (splitOnce sep rest).map fun cut => (c :: cut.1, cut.2)

def rfind (sep : α) : List α → Option Nat
  | [] => none
  | c :: rest =>
    match rfind sep rest with
    | some index => some (index + 1)
    | none => if c = sep then some 0 else none

theorem splitOnce_eq_none_iff : splitOnce sep text = none ↔ sep ∉ text := by
  induction text with
  | nil => simp [splitOnce]
  | cons c rest ih =>
      rw [splitOnce]
      split
      · rename_i h
        simp [h]
      · rename_i h
        rw [Option.map_eq_none_iff, ih, List.mem_cons, not_or]
        exact ⟨fun hrest => ⟨fun heq => h heq.symm, hrest⟩, fun hall => hall.2⟩

theorem splitOnce_append_cons (h : sep ∉ before) (after : List α) :
    splitOnce sep (before ++ sep :: after) = some (before, after) := by
  induction before with
  | nil => simp [splitOnce]
  | cons c rest ih =>
      rw [List.mem_cons, not_or] at h
      rw [List.cons_append, splitOnce, if_neg fun heq => h.1 heq.symm, ih h.2]
      rfl

theorem splitOnce_eq_some_iff :
    splitOnce sep text = some (before, after) ↔ text = before ++ sep :: after ∧ sep ∉ before := by
  constructor
  · intro h
    induction text generalizing before with
    | nil => cases h
    | cons c rest ih =>
        rw [splitOnce] at h
        split at h
        · rename_i heq
          cases h
          exact ⟨by rw [heq]; rfl, List.not_mem_nil⟩
        · rename_i hne
          obtain ⟨⟨before', after'⟩, hcut, heq⟩ := Option.map_eq_some_iff.mp h
          obtain ⟨rfl, rfl⟩ := Prod.mk.inj heq
          obtain ⟨hrest, hnot⟩ := ih hcut
          refine ⟨by rw [hrest]; rfl, ?_⟩
          rw [List.mem_cons, not_or]
          exact ⟨fun heq => hne heq.symm, hnot⟩
  · rintro ⟨rfl, h⟩
    exact splitOnce_append_cons h after

theorem append_cons_inj {before' after' : List α} (h : sep ∉ before) (h' : sep ∉ before')
    (heq : before ++ sep :: after = before' ++ sep :: after') : before = before' ∧ after = after' := by
  have hcut := splitOnce_append_cons h after
  rw [heq, splitOnce_append_cons h' after'] at hcut
  obtain ⟨hbefore, hafter⟩ := Prod.mk.inj (Option.some.inj hcut)
  exact ⟨hbefore.symm, hafter.symm⟩

theorem rfind_eq_none_iff : rfind sep text = none ↔ sep ∉ text := by
  induction text with
  | nil => simp [rfind]
  | cons c rest ih =>
      rw [rfind, List.mem_cons, not_or]
      cases hrest : rfind sep rest with
      | some index =>
          have hmem : ¬sep ∉ rest := fun hnot => by
            rw [ih.mpr hnot] at hrest
            cases hrest
          exact iff_of_false (by simp) fun hall => hmem hall.2
      | none =>
          have hnot := ih.mp hrest
          by_cases heq : c = sep
          · simp [heq]
          · simp only [if_neg heq]
            exact iff_of_true trivial ⟨fun h => heq h.symm, hnot⟩

theorem rfind_append_cons (before : List α) (h : sep ∉ after) :
    rfind sep (before ++ sep :: after) = some before.length := by
  induction before with
  | nil => simp [rfind, rfind_eq_none_iff.mpr h]
  | cons c rest ih => rw [List.cons_append, rfind, ih]; rfl

theorem exists_last_cut (h : sep ∈ text) : ∃ before after, text = before ++ sep :: after ∧ sep ∉ after := by
  induction text with
  | nil => cases h
  | cons c rest ih =>
      by_cases hrest : sep ∈ rest
      · obtain ⟨before, after, rfl, hafter⟩ := ih hrest
        exact ⟨c :: before, after, rfl, hafter⟩
      · obtain rfl | hmem := List.mem_cons.mp h
        · exact ⟨[], rest, rfl, hrest⟩
        · exact absurd hmem hrest

end Cutting

section Splitting

variable {α : Type} {sep : α} {before after : List α}

theorem append_eq_cut {left right : List α} (h : left ++ right = before ++ sep :: after) :
    (∃ mid, left = before ++ sep :: mid ∧ after = mid ++ right) ∨
      ∃ mid, before = left ++ mid ∧ right = mid ++ sep :: after := by
  rcases List.append_eq_append_iff.mp h with ⟨mid, hbefore, hright⟩ | ⟨mid, hleft, hafter⟩
  · exact Or.inr ⟨mid, hbefore, hright⟩
  · cases mid with
    | nil => exact Or.inr ⟨[], by simpa using hleft.symm, by simpa using hafter.symm⟩
    | cons c mid =>
        obtain ⟨rfl, hrest⟩ := List.cons.inj hafter
        exact Or.inl ⟨mid, hleft, hrest⟩

theorem drop_cut (before after : List α) (sep : α) : (before ++ sep :: after).drop (before.length + 1) = after := by
  rw [List.append_cons]
  exact List.drop_left' (by simp)

end Splitting

/-! ### Whitespace -/

/-- The characters with the property `White_Space`. -/
def whitespace : List Char :=
  ['\t', '\n', '\x0b', '\x0c', '\r', ' ', '\u0085', '\u00a0', '\u1680', '\u2000', '\u2001', '\u2002', '\u2003',
    '\u2004', '\u2005', '\u2006', '\u2007', '\u2008', '\u2009', '\u200a', '\u2028', '\u2029', '\u202f', '\u205f',
    '\u3000']

def isWhitespace (c : Char) : Bool := c ∈ whitespace

def isAsciiWhitespace (c : Char) : Bool := c ∈ ['\t', '\n', '\x0c', '\r', ' ']

theorem not_mem_of_any_eq_false {p : Char → Bool} {chars : List Char} (hp : chars.any p = false) {c : Char}
    (h : p c = true) : c ∉ chars :=
  fun hmem => List.any_eq_false.mp hp c hmem h

def trimStart (text : Str) : Str := text.dropWhile isWhitespace

def trimEnd (text : Str) : Str := text.rdropWhile isWhitespace

def trim (text : Str) : Str := trimEnd (trimStart text)

/-- No whitespace at either end. -/
structure Trimmed (text : Str) : Prop where
  head : ∀ c ∈ text.head?, isWhitespace c = false
  last : ∀ c ∈ text.getLast?, isWhitespace c = false

theorem trimmed_trim (text : Str) : Trimmed (trim text) where
  head c hc := by
    obtain ⟨rest, hrest⟩ := List.rdropWhile_prefix isWhitespace (trimStart text)
    have hhead : (trimStart text).head? = some c := by
      rw [← hrest]
      exact List.mem_head?_append_of_mem_head? hc
    have hdrop := List.head?_dropWhile_not isWhitespace text
    rw [show text.dropWhile isWhitespace = trimStart text from rfl, hhead] at hdrop
    exact hdrop
  last c hc := by
    have hne : trim text ≠ [] := fun hnil => by rw [hnil] at hc; cases hc
    have hlast := List.rdropWhile_last_not isWhitespace (trimStart text) hne
    rw [List.getLast?_eq_some_getLast hne] at hc
    cases hc
    exact Bool.eq_false_iff.mpr hlast

theorem trim_eq_self {text : Str} (h : Trimmed text) : trim text = text := by
  have hstart : trimStart text = text := by
    rw [trimStart, List.dropWhile_eq_self_iff]
    intro hpos
    rw [h.head text[0] (by rw [List.head?_eq_getElem?]; exact List.getElem?_eq_getElem hpos)]
    exact Bool.false_ne_true
  rw [trim, hstart, trimEnd, List.rdropWhile_eq_self_iff]
  intro hne
  rw [h.last (text.getLast hne) (List.getLast?_eq_some_getLast hne)]
  exact Bool.false_ne_true

end Str

end Mcr
