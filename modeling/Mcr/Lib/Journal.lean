import Mathlib

/-!
# Journals

A journal lists the actions of a run in their order. An action is guarded when each time it is taken the
journal up to there already shows what it waits for.
-/

namespace Mcr.Journal

variable {α : Type} {journal : List α} {action : α → Prop} {ready : List α → Prop} {a : α}

/-- Each action of the kind stands behind a part of the journal that makes it ready. -/
def Guarded (action : α → Prop) (ready : List α → Prop) (journal : List α) : Prop :=
  ∀ before a after, journal = before ++ a :: after → action a → ready before

theorem Guarded.of_none (h : ∀ a ∈ journal, ¬action a) : Guarded action ready journal := by
  intro before a after heq hact
  have hmem : a ∈ journal := by
    rw [heq]
    exact List.mem_append_right before List.mem_cons_self
  exact absurd hact (h a hmem)

theorem Guarded.snoc (h : Guarded action ready journal) (ha : action a → ready journal) :
    Guarded action ready (journal ++ [a]) := by
  intro before b after heq hact
  rcases List.eq_nil_or_concat after with rfl | ⟨after', c, rfl⟩
  · obtain ⟨rfl, rfl⟩ := List.append_inj' heq rfl |>.imp_right fun h => (List.cons.inj h).1
    exact ha hact
  · rw [List.concat_eq_append, ← List.cons_append, ← List.append_assoc] at heq
    exact h before b after' (List.append_inj' heq rfl).1 hact

end Mcr.Journal
