import Mcr.Elf.InitialStack

/-!
# The layout of the initial stack

The strings stand side by side under the top of the stack, in the order of the vector; the random bytes stand below
them, the vector below these, at an aligned address. Nothing else decides whether the stack is built: it is when the
configuration is a valid one and the layout is no larger than the stack.
-/

namespace Mcr.Elf

theorem ok_bind {α β : Type} (a : α) (f : α → Stacking β) : (Except.ok a : Stacking α) >>= f = f a := rfl

/-- A call returns `a` under a condition, and an error without it. -/
def SucceedsIff {α : Type} (x : Stacking α) (P : Prop) (a : α) : Prop := (P ∧ x = .ok a) ∨ (¬ P ∧ ∃ e, x = fail e)

section SucceedsIff

variable {α β : Type} {x : Stacking α} {P Q : Prop} {a a' : α} {b : β}

theorem SucceedsIff.of_if [Decidable P] (e : InitialStackError) : SucceedsIff (if P then .ok a else fail e) P a := by
  by_cases h : P
  · exact .inl ⟨h, if_pos h⟩
  · exact .inr ⟨h, e, if_neg h⟩

theorem SucceedsIff.bind {f : α → Stacking β} (hx : SucceedsIff x P a) (hf : P → SucceedsIff (f a) Q b) :
    SucceedsIff (x >>= f) (P ∧ Q) b := by
  obtain ⟨hP, rfl⟩ | ⟨hP, e, rfl⟩ := hx
  · obtain ⟨hQ, h⟩ | ⟨hQ, e, h⟩ := hf hP
    · exact .inl ⟨⟨hP, hQ⟩, h⟩
    · exact .inr ⟨fun hPQ => hQ hPQ.2, e, h⟩
  · exact .inr ⟨fun hPQ => hP hPQ.1, e, rfl⟩

theorem SucceedsIff.map {f : α → Stacking β} (hx : SucceedsIff x P a) (hf : P → f a = .ok b) :
    SucceedsIff (x >>= f) P b := by
  obtain ⟨hP, rfl⟩ | ⟨hP, e, rfl⟩ := hx
  · exact .inl ⟨hP, hf hP⟩
  · exact .inr ⟨hP, e, rfl⟩

theorem SucceedsIff.congr (hx : SucceedsIff x P a) (h : P ↔ Q) : SucceedsIff x Q a := by
  rwa [SucceedsIff, ← h]

theorem SucceedsIff.of_ok (hx : SucceedsIff x P a) (h : x = .ok a') : P ∧ a' = a := by
  obtain ⟨hP, rfl⟩ | ⟨-, e, rfl⟩ := hx
  · exact ⟨hP, (Except.ok.inj h).symm⟩
  · exact nomatch h

theorem SucceedsIff.not_panic (hx : SucceedsIff x P a) : x ≠ .error .panic := by
  obtain ⟨-, rfl⟩ | ⟨-, e, rfl⟩ := hx
  · exact nofun
  · exact nofun

theorem SucceedsIff.error_iff (hx : SucceedsIff x P a) : (∃ e, x = fail e) ↔ ¬ P := by
  obtain ⟨hP, rfl⟩ | ⟨hP, e, rfl⟩ := hx
  · exact iff_of_false (fun ⟨e, he⟩ => nomatch he) (not_not_intro hP)
  · exact iff_of_true ⟨e, rfl⟩ hP

end SucceedsIff

/-! ### Strings -/

def stringsSize (strings : List (List UInt8)) : Nat := (strings.map fun string => string.length + 1).sum

/-- The strings, one after another from an address on. -/
def layout : Nat → List (List UInt8) → List PlacedStackBytes
  | _, [] => []
  | start, string :: strings => ⟨start, cString string⟩ :: layout (start + (string.length + 1)) strings

theorem length_cString (bytes : List UInt8) : (cString bytes).length = bytes.length + 1 := List.length_append

theorem contiguous_layout (start : Nat) (strings : List (List UInt8)) :
    Contiguous start (layout start strings) (start + stringsSize strings) := by
  induction strings generalizing start with
  | nil => rfl
  | cons string strings ih =>
      have hsize : start + (string.length + 1) + stringsSize strings = start + stringsSize (string :: strings) :=
        Nat.add_assoc _ _ _
      have hstop : (⟨start, cString string⟩ : PlacedStackBytes).stop = start + (string.length + 1) :=
        congrArg (start + ·) (length_cString string)
      refine ⟨rfl, ?_⟩
      rw [hstop, ← hsize]
      exact ih (start + (string.length + 1))

theorem layout_append (start : Nat) (strings strings' : List (List UInt8)) :
    layout start (strings ++ strings') = layout start strings ++ layout (start + stringsSize strings) strings' := by
  induction strings generalizing start with
  | nil => rfl
  | cons string strings ih =>
      have hsize : start + (string.length + 1) + stringsSize strings = start + stringsSize (string :: strings) :=
        Nat.add_assoc _ _ _
      rw [List.cons_append, layout, ih, hsize]
      rfl

theorem length_layout (start : Nat) (strings : List (List UInt8)) : (layout start strings).length = strings.length := by
  induction strings generalizing start with
  | nil => rfl
  | cons string strings ih => rw [layout, List.length_cons, ih, List.length_cons]

theorem checkedSub_succeedsIff (a b : Nat) (e : InitialStackError) : SucceedsIff (checkedSub a b e) (b ≤ a) (a - b) :=
  .of_if e

theorem placeCString_succeedsIff {p : Placement} (h : p.cursor < 2 ^ 64) (bytes : List UInt8) :
    SucceedsIff (placeCString p bytes) (bytes.length + 1 ≤ p.cursor) (p.cursor - (bytes.length + 1),
      ⟨p.cursor - (bytes.length + 1), p.placed ++ [⟨p.cursor - (bytes.length + 1), cString bytes⟩]⟩) := by
  unfold placeCString
  by_cases hlong : 2 ^ 64 ≤ bytes.length + 1
  · rw [if_pos hlong]
    exact .inr ⟨by omega, _, rfl⟩
  · rw [if_neg hlong]
    exact (checkedSub_succeedsIff _ _ _).map fun _ => rfl

theorem placeCStrings_cons (p : Placement) (string : List UInt8) (strings : List (List UInt8)) :
    placeCStrings p (string :: strings) = placeCStrings p strings >>= fun (addresses, p) =>
      placeCString p string >>= fun (address, p) => pure (address :: addresses, p) := by
  unfold placeCStrings
  rw [List.reverse_cons, List.foldlM_append]
  simp only [List.foldlM_cons, List.foldlM_nil, bind_assoc, pure_bind, List.reverse_append, List.reverse_singleton,
    List.singleton_append]

theorem placeCStrings_succeedsIff {p : Placement} (h : p.cursor < 2 ^ 64) (strings : List (List UInt8)) :
    SucceedsIff (placeCStrings p strings) (stringsSize strings ≤ p.cursor)
      ((layout (p.cursor - stringsSize strings) strings).map (·.address), ⟨p.cursor - stringsSize strings,
        p.placed ++ (layout (p.cursor - stringsSize strings) strings).reverse⟩) := by
  induction strings with
  | nil =>
      obtain ⟨cursor, placed⟩ := p
      refine .inl ⟨Nat.zero_le _, ?_⟩
      exact congrArg (fun l => Except.ok (([] : List Nat), (⟨cursor, l⟩ : Placement))) (List.append_nil placed).symm
  | cons string strings ih =>
      have hsize : stringsSize (string :: strings) = string.length + 1 + stringsSize strings := rfl
      rw [placeCStrings_cons, hsize]
      refine (SucceedsIff.bind (Q := string.length + 1 ≤ p.cursor - stringsSize strings) ih fun hrest => ?_).congr
        (by omega)
      refine (placeCString_succeedsIff (Nat.lt_of_le_of_lt (Nat.sub_le _ _) h) string).map fun hroom => ?_
      have hroom : string.length + 1 ≤ p.cursor - stringsSize strings := hroom
      have hcursor : p.cursor - stringsSize strings - (string.length + 1) =
          p.cursor - (string.length + 1 + stringsSize strings) := by omega
      have hnext : p.cursor - (string.length + 1 + stringsSize strings) + (string.length + 1) =
          p.cursor - stringsSize strings := by omega
      dsimp only
      rw [hcursor, layout, hnext, List.map_cons, List.reverse_cons, ← List.append_assoc]
      rfl

end Mcr.Elf
