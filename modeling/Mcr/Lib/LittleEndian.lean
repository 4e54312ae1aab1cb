import Mathlib

/-!
# Little-endian numbers

A number below `256 ^ count` is its `count` bytes, the least significant first, and every list of bytes is such a
number.
-/

namespace Mcr

def toLittleEndian : Nat → Nat → List UInt8
  | 0, _ => []
  | count + 1, value => UInt8.ofNat value :: toLittleEndian count (value / 256)

def ofLittleEndian : List UInt8 → Nat
  | [] => 0
  | byte :: rest => byte.toNat + 256 * ofLittleEndian rest

@[simp] theorem length_toLittleEndian (count value : Nat) : (toLittleEndian count value).length = count := by
  induction count generalizing value with
  | zero => rfl
  | succ count ih => rw [toLittleEndian, List.length_cons, ih]

theorem ofLittleEndian_lt (bytes : List UInt8) : ofLittleEndian bytes < 256 ^ bytes.length := by
  induction bytes with
  | nil => exact Nat.one_pos
  | cons byte rest ih =>
      have hbyte : byte.toNat < 256 := byte.toNat_lt
      rw [ofLittleEndian, List.length_cons, pow_succ]
      omega

theorem ofLittleEndian_toLittleEndian {count value : Nat} (h : value < 256 ^ count) :
    ofLittleEndian (toLittleEndian count value) = value := by
  induction count generalizing value with
  | zero =>
      rw [pow_zero, Nat.lt_one_iff] at h
      rw [h]
      rfl
  | succ count ih =>
      have hrest : value / 256 < 256 ^ count := by
        rw [pow_succ] at h
        exact Nat.div_lt_of_lt_mul (by rwa [Nat.mul_comm])
      rw [toLittleEndian, ofLittleEndian, ih hrest, UInt8.toNat_ofNat']
      exact Nat.mod_add_div value 256

theorem toLittleEndian_ofLittleEndian (bytes : List UInt8) :
    toLittleEndian bytes.length (ofLittleEndian bytes) = bytes := by
  induction bytes with
  | nil => rfl
  | cons byte rest ih =>
      have hbyte : byte.toNat < 256 := byte.toNat_lt
      have hlow : UInt8.ofNat (byte.toNat + 256 * ofLittleEndian rest) = byte := by
        apply UInt8.toNat_inj.mp
        rw [UInt8.toNat_ofNat']
        omega
      have hhigh : (byte.toNat + 256 * ofLittleEndian rest) / 256 = ofLittleEndian rest := by
        omega
      rw [ofLittleEndian, List.length_cons, toLittleEndian, hlow, hhigh, ih]

def littleEndianNumbers (size : Nat) : Nat → List UInt8 → List Nat
  | 0, _ => []
  | count + 1, bytes => ofLittleEndian (bytes.take size) :: littleEndianNumbers size count (bytes.drop size)

theorem littleEndianNumbers_flatMap {size : Nat} {values : List Nat} (h : ∀ value ∈ values, value < 256 ^ size)
    (rest : List UInt8) :
    littleEndianNumbers size values.length (values.flatMap (toLittleEndian size) ++ rest) = values := by
  induction values with
  | nil => rfl
  | cons value values ih =>
      obtain ⟨hvalue, hvalues⟩ := List.forall_mem_cons.mp h
      rw [List.flatMap_cons, List.append_assoc, List.length_cons, littleEndianNumbers,
        List.take_left' (length_toLittleEndian size value), List.drop_left' (length_toLittleEndian size value),
        ih hvalues, ofLittleEndian_toLittleEndian hvalue]

theorem length_flatMap_toLittleEndian (size : Nat) (values : List Nat) :
    (values.flatMap (toLittleEndian size)).length = size * values.length := by
  induction values with
  | nil => rfl
  | cons value values ih =>
      rw [List.flatMap_cons, List.length_append, ih, length_toLittleEndian, List.length_cons, Nat.mul_succ,
        Nat.add_comm]

/-! ### Literals

The literals of a width share one proof that there is a number of it. -/

instance neZero_two_pow_32 : NeZero (2 ^ 32) := ⟨by decide⟩

instance neZero_two_pow_64 : NeZero (2 ^ 64) := ⟨by decide⟩

end Mcr
