import Mathlib

/-!
# Byte buffers

A buffer is a length and the byte at each index; indices from the length on carry no meaning and the
operations never look at them. Copies and fills are described by the byte they leave at an index.
-/

namespace Mcr

structure ByteBuf where
  len : Nat
  byte : Nat → UInt8

namespace ByteBuf

def zeros (n : Nat) : ByteBuf := ⟨n, fun _ => 0⟩

def ofList (l : List UInt8) : ByteBuf := ⟨l.length, fun i => l.getD i 0⟩

def toList (b : ByteBuf) : List UInt8 := (List.range b.len).map b.byte

/-- The bytes `[start, start + n)` as a buffer of their own. -/
def extract (b : ByteBuf) (start n : Nat) : ByteBuf := ⟨n, fun i => b.byte (start + i)⟩

def blit (b : ByteBuf) (start : Nat) (src : ByteBuf) : ByteBuf :=
  ⟨b.len, fun i => if start ≤ i ∧ i < start + src.len then src.byte (i - start) else b.byte i⟩

def fill (b : ByteBuf) (start n : Nat) (v : UInt8) : ByteBuf :=
  ⟨b.len, fun i => if start ≤ i ∧ i < start + n then v else b.byte i⟩

@[simp] theorem zeros_len (n : Nat) : (zeros n).len = n := rfl
@[simp] theorem zeros_byte (n i : Nat) : (zeros n).byte i = 0 := rfl
@[simp] theorem ofList_len (l : List UInt8) : (ofList l).len = l.length := rfl
@[simp] theorem extract_len (b : ByteBuf) (o n : Nat) : (b.extract o n).len = n := rfl
@[simp] theorem extract_byte (b : ByteBuf) (o n i : Nat) : (b.extract o n).byte i = b.byte (o + i) := rfl
@[simp] theorem blit_len (b : ByteBuf) (o : Nat) (src : ByteBuf) : (b.blit o src).len = b.len := rfl
@[simp] theorem fill_len (b : ByteBuf) (o n : Nat) (v : UInt8) : (b.fill o n v).len = b.len := rfl

theorem blit_byte (b : ByteBuf) (o : Nat) (src : ByteBuf) (i : Nat) :
    (b.blit o src).byte i = if o ≤ i ∧ i < o + src.len then src.byte (i - o) else b.byte i := rfl

theorem fill_byte (b : ByteBuf) (o n : Nat) (v : UInt8) (i : Nat) :
    (b.fill o n v).byte i = if o ≤ i ∧ i < o + n then v else b.byte i := rfl

@[simp] theorem toList_length (b : ByteBuf) : b.toList.length = b.len := by simp [toList]

/-- Two buffers of one length with the same bytes. -/
structure Same (b c : ByteBuf) : Prop where
  len : b.len = c.len
  byte : ∀ i < b.len, b.byte i = c.byte i

theorem Same.refl (b : ByteBuf) : Same b b := ⟨rfl, fun _ _ => rfl⟩

theorem Same.symm {b c : ByteBuf} (h : Same b c) : Same c b :=
  ⟨h.len.symm, fun i hi => (h.byte i (h.len ▸ hi)).symm⟩

theorem Same.trans {b c d : ByteBuf} (h : Same b c) (h' : Same c d) : Same b d :=
  ⟨h.len.trans h'.len, fun i hi => (h.byte i hi).trans (h'.byte i (h.len ▸ hi))⟩

theorem extract_toList_congr {b c : ByteBuf} (h : Same b c) {start n : Nat} (hn : start + n ≤ b.len) :
    (b.extract start n).toList = (c.extract start n).toList := by
  refine List.map_congr_left fun i hi => h.byte (start + i) ?_
  have := List.mem_range.mp hi
  simp only [extract_len] at this
  omega

/-- A whole buffer copied into a new one of its length. -/
theorem same_blit_zeros (b : ByteBuf) : Same b ((zeros b.len).blit 0 (b.extract 0 b.len)) := by
  refine ⟨rfl, fun i hi => ?_⟩
  rw [blit_byte, if_pos ⟨Nat.zero_le i, by simpa using hi⟩]
  simp

end ByteBuf

end Mcr
