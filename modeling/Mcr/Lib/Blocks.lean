import Mathlib

/-!
# Blocks side by side

Blocks of entries that follow one another without a gap: what is written block by block, in any order that builds them
from one end, is their contents in a row, and each block is found at its address.
-/

namespace Mcr

structure Block (β : Type) where
  address : Nat
  content : List β
deriving DecidableEq, Repr

def Block.stop {β : Type} (block : Block β) : Nat := block.address + block.content.length

variable {β : Type}

/-- The blocks fill the space from `start` to `stop`, in their order. -/
def Contiguous : Nat → List (Block β) → Nat → Prop
  | start, [], stop => start = stop
  | start, block :: blocks, stop => block.address = start ∧ Contiguous block.stop blocks stop

theorem contiguous_append {start stop : Nat} {blocks blocks' : List (Block β)} :
    Contiguous start (blocks ++ blocks') stop ↔ ∃ mid, Contiguous start blocks mid ∧ Contiguous mid blocks' stop := by
  induction blocks generalizing start with
  | nil => simp [Contiguous]
  | cons block blocks ih =>
      simp only [List.cons_append, Contiguous, ih]
      exact ⟨fun ⟨h, mid, h₁, h₂⟩ => ⟨mid, ⟨h, h₁⟩, h₂⟩, fun ⟨mid, ⟨h, h₁⟩, h₂⟩ => ⟨h, mid, h₁, h₂⟩⟩

theorem Contiguous.le {start stop : Nat} {blocks : List (Block β)} (h : Contiguous start blocks stop) :
    start ≤ stop := by
  induction blocks generalizing start with
  | nil => exact Nat.le_of_eq h
  | cons block blocks ih =>
      obtain ⟨rfl, h⟩ := h
      exact Nat.le_trans (Nat.le_add_right _ _) (ih h)

theorem Contiguous.mem {start stop : Nat} {blocks : List (Block β)} (h : Contiguous start blocks stop)
    {block : Block β} (hmem : block ∈ blocks) : start ≤ block.address ∧ block.stop ≤ stop := by
  induction blocks generalizing start with
  | nil => exact absurd hmem List.not_mem_nil
  | cons first blocks ih =>
      obtain ⟨rfl, h⟩ := h
      rcases List.mem_cons.mp hmem with rfl | hmem
      · exact ⟨Nat.le_refl _, h.le⟩
      · obtain ⟨hstart, hstop⟩ := ih h hmem
        exact ⟨Nat.le_trans (Nat.le_add_right _ _) hstart, hstop⟩

theorem Contiguous.ordered {start stop : Nat} {blocks : List (Block β)} (h : Contiguous start blocks stop) :
    blocks.Pairwise fun block block' => block.stop ≤ block'.address := by
  induction blocks generalizing start with
  | nil => exact List.Pairwise.nil
  | cons block blocks ih => exact List.pairwise_cons.mpr ⟨fun block' hmem => (h.2.mem hmem).1, ih h.2⟩

theorem Contiguous.content_at {start stop : Nat} {blocks : List (Block β)} (h : Contiguous start blocks stop)
    {block : Block β} (hmem : block ∈ blocks) :
    ((blocks.flatMap (·.content)).drop (block.address - start)).take block.content.length = block.content := by
  induction blocks generalizing start with
  | nil => exact absurd hmem List.not_mem_nil
  | cons first blocks ih =>
      obtain ⟨rfl, h⟩ := h
      rw [List.flatMap_cons]
      rcases List.mem_cons.mp hmem with rfl | hmem
      · rw [Nat.sub_self, List.drop_zero, List.take_left]
      · have hstart := (h.mem hmem).1
        have hoffset : block.address - first.address = first.content.length + (block.address - first.stop) := by
          unfold Block.stop at hstart ⊢
          omega
        rw [hoffset, ← List.drop_drop, List.drop_left, ih h hmem]

/-- A part of a list is replaced. -/
def overwrite (l : List β) (offset : Nat) (new : List β) : List β :=
  l.take offset ++ new ++ l.drop (offset + new.length)

theorem length_overwrite {l new : List β} {offset : Nat} (h : offset + new.length ≤ l.length) :
    (overwrite l offset new).length = l.length := by
  rw [overwrite, List.length_append, List.length_append, List.length_take, List.length_drop]
  omega

/-- Blocks that are placed from the top down are written over a list, the first placed first. -/
theorem foldl_overwrite {base start stop : Nat} {placed : List (Block β)} (h : Contiguous start placed.reverse stop)
    (hbase : base ≤ start) {low : List β} (hlow : low.length = stop - base) (high : List β) :
    placed.foldl (fun l block => overwrite l (block.address - base) block.content) (low ++ high) =
      low.take (start - base) ++ placed.reverse.flatMap (·.content) ++ high := by
  induction placed generalizing stop low high with
  | nil =>
      have heq : start = stop := h
      rw [heq, ← hlow, List.take_length, List.reverse_nil, List.flatMap_nil, List.append_nil]
      rfl
  | cons block placed ih =>
      rw [List.reverse_cons, contiguous_append] at h
      obtain ⟨mid, hrest, rfl, hstop⟩ := h
      have hstop : block.stop = stop := hstop
      have hle := hrest.le
      have hwrite : overwrite (low ++ high) (block.address - base) block.content =
          low.take (block.address - base) ++ (block.content ++ high) := by
        have hend : block.address - base + block.content.length = low.length := by
          rw [hlow, ← hstop, Block.stop]
          omega
        rw [overwrite, hend, List.drop_left, List.take_append_of_le_length (by omega), List.append_assoc]
      have hlow' : (low.take (block.address - base)).length = block.address - base := by
        rw [List.length_take, hlow, ← hstop, Block.stop]
        omega
      rw [List.foldl_cons, hwrite, ih hrest hlow', List.take_take, Nat.min_eq_left (by omega), List.reverse_cons,
        List.flatMap_append, List.flatMap_singleton, List.append_assoc, List.append_assoc, List.append_assoc]

end Mcr
