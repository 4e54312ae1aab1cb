import Mathlib

/-!
# Moving and exchanging subtrees

Lists are the nodes of a tree, a list lying below each of its prefixes. `move` carries the subtree of one
node to another place and `swap` exchanges two subtrees; both act on a list by rewriting its prefix.
-/

namespace Mcr.Subtree

variable {α : Type} {old new p q r : List α} {c : α}

/-- Neither node lies in the subtree of the other. -/
def Apart (a b : List α) : Prop := ¬ a <+: b ∧ ¬ b <+: a

theorem Apart.symm {a b : List α} (h : Apart a b) : Apart b a := ⟨h.2, h.1⟩

theorem Apart.not_both {a b : List α} (h : Apart a b) (ha : a <+: p) : ¬ b <+: p := by
  intro hb
  rcases List.prefix_or_prefix_of_prefix ha hb with hab | hba
  · exact h.1 hab
  · exact h.2 hba

variable [DecidableEq α]

def move (old new p : List α) : List α := if old <+: p then new ++ p.drop old.length else p

def swap (old new p : List α) : List α :=
  if old <+: p then new ++ p.drop old.length
  else if new <+: p then old ++ p.drop new.length
  else p

@[simp] theorem move_append : move old new (old ++ r) = new ++ r := by simp [move]

@[simp] theorem move_self : move old new old = new := by simp [move]

theorem move_elsewhere (h : ¬ old <+: p) : move old new p = p := if_neg h

theorem move_concat (h : p ++ [c] ≠ old) : move old new (p ++ [c]) = move old new p ++ [c] := by
  by_cases hp : old <+: p
  · obtain ⟨r, rfl⟩ := hp
    rw [List.append_assoc, move_append, move_append, List.append_assoc]
  · rw [move_elsewhere hp, move_elsewhere]
    intro hconcat
    rcases List.prefix_concat_iff.mp hconcat with heq | hpre
    · exact h heq.symm
    · exact hp hpre

theorem move_inj (hp : ¬ new <+: p) (hq : ¬ new <+: q) (h : move old new p = move old new q) : p = q := by
  by_cases hop : old <+: p
  · obtain ⟨r, rfl⟩ := hop
    by_cases hoq : old <+: q
    · obtain ⟨r', rfl⟩ := hoq
      rw [move_append, move_append] at h
      rw [List.append_cancel_left h]
    · rw [move_append, move_elsewhere hoq] at h
      exact absurd ⟨r, h⟩ hq
  · by_cases hoq : old <+: q
    · obtain ⟨r', rfl⟩ := hoq
      rw [move_append, move_elsewhere hop] at h
      exact absurd ⟨r', h.symm⟩ hp
    · rwa [move_elsewhere hop, move_elsewhere hoq] at h

theorem not_prefix_move (h : Apart old new) : ¬ old <+: move old new p := by
  by_cases hp : old <+: p
  · obtain ⟨r, rfl⟩ := hp
    rw [move_append]
    exact h.symm.not_both ⟨r, rfl⟩
  · rwa [move_elsewhere hp]

/-- Moving back: what was under `old` returns, what was under `new` arrives at `old`. -/
theorem move_move : move new old (move old new p) = if old <+: p then p else move new old p := by
  split
  · rename_i hprefix
    obtain ⟨rest, rfl⟩ := hprefix
    rw [move_append, move_append]
  · rename_i hprefix
    rw [move_elsewhere hprefix]

@[simp] theorem swap_append_left : swap old new (old ++ r) = new ++ r := by simp [swap]

theorem swap_append_right (h : Apart old new) : swap old new (new ++ r) = old ++ r := by
  have hnot : ¬ old <+: new ++ r := h.symm.not_both ⟨r, rfl⟩
  simp [swap, hnot]

theorem swap_elsewhere (hold : ¬ old <+: p) (hnew : ¬ new <+: p) : swap old new p = p := by
  rw [swap, if_neg hold, if_neg hnew]

theorem swap_self_left : swap old new old = new := by simp [swap]

theorem swap_self_right (h : Apart old new) : swap old new new = old := by
  simpa using swap_append_right (r := []) h

theorem swap_swap (h : Apart old new) : swap old new (swap old new p) = p := by
  by_cases hold : old <+: p
  · obtain ⟨r, rfl⟩ := hold
    rw [swap_append_left, swap_append_right h]
  · by_cases hnew : new <+: p
    · obtain ⟨r, rfl⟩ := hnew
      rw [swap_append_right h, swap_append_left]
    · rw [swap_elsewhere hold hnew, swap_elsewhere hold hnew]

theorem swap_concat (h : Apart old new) (hold : p ++ [c] ≠ old) (hnew : p ++ [c] ≠ new) :
    swap old new (p ++ [c]) = swap old new p ++ [c] := by
  by_cases hp : old <+: p
  · obtain ⟨r, rfl⟩ := hp
    rw [List.append_assoc, swap_append_left, swap_append_left, List.append_assoc]
  · by_cases hq : new <+: p
    · obtain ⟨r, rfl⟩ := hq
      rw [List.append_assoc, swap_append_right h, swap_append_right h, List.append_assoc]
    · rw [swap_elsewhere hp hq, swap_elsewhere]
      · intro hconcat
        rcases List.prefix_concat_iff.mp hconcat with heq | hpre
        · exact hold heq.symm
        · exact hp hpre
      · intro hconcat
        rcases List.prefix_concat_iff.mp hconcat with heq | hpre
        · exact hnew heq.symm
        · exact hq hpre

end Mcr.Subtree
