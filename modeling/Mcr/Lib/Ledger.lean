import Mathlib

/-!
# Ledgers

A ledger says of every token at which place it is. Tokens enter it, go from one place to another one at a time,
or are relocated all at once; none of these but the first changes the tokens. What is at a place is counted
with `countP`, and the counts after a move follow from those before it.
-/

namespace Mcr

/-- Tokens, each at one place. -/
abbrev Ledger (τ ρ : Type) := Multiset (τ × ρ)

namespace Ledger

variable {τ ρ : Type} [DecidableEq τ] [DecidableEq ρ] {l : Ledger τ ρ} {t : τ} {p q : ρ}

def tokens (l : Ledger τ ρ) : Multiset τ := l.map Prod.fst

/-- The ledger once a token has gone from one place to another. -/
def move (l : Ledger τ ρ) (t : τ) (p q : ρ) : Ledger τ ρ := (t, q) ::ₘ l.erase (t, p)

/-- The ledger once every token is at a new place. -/
def relocate (l : Ledger τ ρ) (f : τ → ρ → ρ) : Ledger τ ρ := l.map fun e => (e.1, f e.1 e.2)

theorem tokens_move (h : (t, p) ∈ l) : (l.move t p q).tokens = l.tokens := by
  have hsplit := congrArg (Multiset.map Prod.fst) (Multiset.cons_erase h)
  rw [Multiset.map_cons] at hsplit
  rw [move, tokens, Multiset.map_cons]
  exact hsplit

omit [DecidableEq τ] [DecidableEq ρ] in
theorem tokens_relocate (l : Ledger τ ρ) (f : τ → ρ → ρ) : (l.relocate f).tokens = l.tokens := by
  rw [tokens, relocate, Multiset.map_map]
  rfl

theorem countP_move (P : τ × ρ → Prop) [DecidablePred P] (h : (t, p) ∈ l) :
    (l.move t p q).countP P + (if P (t, p) then 1 else 0) = l.countP P + if P (t, q) then 1 else 0 := by
  have hsplit := congrArg (Multiset.countP P) (Multiset.cons_erase h)
  rw [Multiset.countP_cons] at hsplit
  rw [move, Multiset.countP_cons, ← hsplit]
  exact Nat.add_right_comm _ _ _

omit [DecidableEq τ] [DecidableEq ρ] in
theorem countP_relocate (P : τ × ρ → Prop) [DecidablePred P] (l : Ledger τ ρ) (f : τ → ρ → ρ) :
    (l.relocate f).countP P = l.countP fun e => P (e.1, f e.1 e.2) := by
  rw [relocate, Multiset.countP_map, Multiset.countP_eq_card_filter]

omit [DecidableEq τ] [DecidableEq ρ] in
theorem exists_of_countP_eq_one {P : τ × ρ → Prop} [DecidablePred P] (h : l.countP P = 1) : ∃ e ∈ l, P e :=
  Multiset.countP_pos.mp (h ▸ Nat.one_pos)

end Ledger

end Mcr
