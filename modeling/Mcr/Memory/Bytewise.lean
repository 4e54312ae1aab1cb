import Mcr.Memory.Flat

/-!
# The C string functions, byte by byte

Each function reads and writes the flat memory one byte at a time and stops with the error of the first byte it
may not touch. A scan completes when the byte that ends it lies behind readable bytes; a copy in either direction
leaves the bytes its source showed at the start, as long as no byte is overwritten before it is read.
-/

namespace Mcr.Memory

namespace Flat

variable (flat : Flat)

/-- Every byte of `[x, x + n)` has a protection of the kind. -/
def Permits (p : GuestMemoryProtection → Bool) (x n : Nat) : Prop :=
  ∀ y, x ≤ y → y < x + n → ∃ c, flat y = some c ∧ p c.protection = true

def setByte (x : Nat) (b : UInt8) : Except GuestMemoryError Flat :=
  match flat x with
  | none => .error .notMapped
  | some c => if c.protection.write then .ok (flat.store x [b]) else .error .accessDenied

/-! ### The functions -/

def memchr (c : UInt8) : Nat → Nat → Except GuestMemoryError (Option Nat)
  | _, 0 => .ok none
  | p, n + 1 => do
    let b ← flat.byte (·.read) p
    if b = c then pure (some p) else memchr c (p + 1) n

def memcmp : Nat → Nat → Nat → Except GuestMemoryError Int
  | _, _, 0 => .ok 0
  | l, r, n + 1 => do
    let a ← flat.byte (·.read) l
    let b ← flat.byte (·.read) r
    if a ≠ b then pure ((a.toNat : Int) - b.toNat) else memcmp (l + 1) (r + 1) n

/-- The length of the string at an address; no string is as long as the address space. -/
def strlen (p : Nat) : Except GuestMemoryError Nat := (flat.cString p u64Limit).map List.length

def copyForward : Flat → Nat → Nat → Nat → Except GuestMemoryError Flat
  | flat, _, _, 0 => .ok flat
  | flat, dst, src, n + 1 => do
    let b ← flat.byte (·.read) src
    let flat ← flat.setByte dst b
    copyForward flat (dst + 1) (src + 1) n

def copyBackward : Flat → Nat → Nat → Nat → Except GuestMemoryError Flat
  | flat, _, _, 0 => .ok flat
  | flat, dst, src, n + 1 => do
    let b ← flat.byte (·.read) (src + n)
    let flat ← flat.setByte (dst + n) b
    copyBackward flat dst src n

def memcpy (dst src n : Nat) : Except GuestMemoryError Flat := copyForward flat dst src n

def memmove (dst src n : Nat) : Except GuestMemoryError Flat :=
  if dst ≤ src then copyForward flat dst src n else copyBackward flat dst src n

def memset : Flat → Nat → UInt8 → Nat → Except GuestMemoryError Flat
  | flat, _, _, 0 => .ok flat
  | flat, p, c, n + 1 => do
    let flat ← flat.setByte p c
    memset flat (p + 1) c n

variable {flat} {p : GuestMemoryProtection → Bool}

/-! ### Permissions and bytes -/

theorem bytes_ok_of_permits {x n : Nat} (h : flat.Permits p x n) : ∃ l, flat.bytes p x n = .ok l :=
  bytes_isOk_iff.mpr h

theorem permits_of_bytes {x n : Nat} {l : List UInt8} (h : flat.bytes p x n = .ok l) : flat.Permits p x n :=
  bytes_isOk_iff.mp ⟨l, h⟩

theorem Permits.mono {x n m : Nat} (h : flat.Permits p x n) (hm : m ≤ n) : flat.Permits p x m :=
  fun y hlow hhigh => h y hlow (by omega)

theorem permits_zero (x : Nat) : flat.Permits p x 0 := fun y hlow hhigh => absurd hlow (by omega)

theorem permits_succ {x n : Nat} :
    flat.Permits p x (n + 1) ↔ (∃ b, flat.byte p x = .ok b) ∧ flat.Permits p (x + 1) n := by
  constructor
  · intro h
    obtain ⟨c, hc, hp⟩ := h x le_rfl (by omega)
    exact ⟨⟨c.byte, byte_ok_iff.mpr ⟨c, hc, hp, rfl⟩⟩, fun y hlow hhigh => h y (by omega) (by omega)⟩
  · intro h y hlow hhigh
    obtain ⟨⟨b, hb⟩, hrest⟩ := h
    by_cases hy : y = x
    · obtain ⟨c, hc, hp, _⟩ := byte_ok_iff.mp hb
      exact ⟨c, hy ▸ hc, hp⟩
    · exact hrest y (by omega) (by omega)

theorem store_apply (address : Nat) (bytes : List UInt8) (x : Nat) :
    flat.store address bytes x =
      (flat x).map fun c =>
        if address ≤ x ∧ x < address + bytes.length then { c with byte := layBytes address bytes x } else c := rfl

theorem permits_store {address x n : Nat} {bytes : List UInt8} :
    (flat.store address bytes).Permits p x n ↔ flat.Permits p x n := by
  unfold Permits
  refine forall_congr' fun y => imp_congr_right fun _ => imp_congr_right fun _ => ?_
  rw [store_apply]
  cases flat y with
  | none => simp
  | some c =>
      simp only [Option.map_some, Option.some.injEq, exists_eq_left']
      split <;> rfl

theorem byte_store {address x : Nat} {bytes : List UInt8} (h : ¬(address ≤ x ∧ x < address + bytes.length)) :
    (flat.store address bytes).byte p x = flat.byte p x := by
  unfold byte
  rw [store_apply]
  cases flat x with
  | none => rfl
  | some c => rw [Option.map_some, if_neg h]

theorem bytes_store {address : Nat} {bytes : List UInt8} :
    ∀ {n x : Nat}, (∀ y, x ≤ y → y < x + n → ¬(address ≤ y ∧ y < address + bytes.length)) →
      (flat.store address bytes).bytes p x n = flat.bytes p x n := by
  intro n
  induction n with
  | zero => exact fun _ => rfl
  | succ n ih =>
      intro x h
      rw [Flat.bytes, Flat.bytes, byte_store (h x le_rfl (by omega)), ih fun y hlow hhigh => h y (by omega) (by omega)]

theorem store_nil (x : Nat) : flat.store x [] = flat := by
  funext y
  rw [store_apply]
  have hout : ¬(x ≤ y ∧ y < x + ([] : List UInt8).length) := by
    simp only [List.length_nil]
    omega
  cases flat y with
  | none => rfl
  | some c => rw [Option.map_some, if_neg hout]

theorem store_store (x : Nat) (l l' : List UInt8) :
    (flat.store x l).store (x + l.length) l' = flat.store x (l ++ l') := by
  funext y
  rw [store_apply, store_apply, store_apply]
  cases flat y with
  | none => rfl
  | some c =>
      simp only [Option.map_some, List.length_append]
      unfold layBytes
      by_cases hfirst : x ≤ y ∧ y < x + l.length
      · have hsecond : ¬(x + l.length ≤ y ∧ y < x + l.length + l'.length) := by omega
        have hboth : x ≤ y ∧ y < x + (l.length + l'.length) := by omega
        rw [if_pos hfirst, if_neg hsecond, if_pos hboth, List.getD_append _ _ _ _ (by omega)]
      · by_cases hsecond : x + l.length ≤ y ∧ y < x + l.length + l'.length
        · have hboth : x ≤ y ∧ y < x + (l.length + l'.length) := by omega
          rw [if_neg hfirst, if_pos hsecond, if_pos hboth, List.getD_append_right _ _ _ _ (by omega),
            show y - x - l.length = y - (x + l.length) by omega]
        · have hboth : ¬(x ≤ y ∧ y < x + (l.length + l'.length)) := by omega
          rw [if_neg hfirst, if_neg hsecond, if_neg hboth]

theorem store_cons (x : Nat) (b : UInt8) (l : List UInt8) :
    (flat.store x [b]).store (x + 1) l = flat.store x (b :: l) := by
  have h : (flat.store x [b]).store (x + [b].length) l = flat.store x ([b] ++ l) := store_store x [b] l
  rwa [List.length_singleton, List.singleton_append] at h

theorem store_store_before (x : Nat) (l l' : List UInt8) :
    (flat.store (x + l.length) l').store x l = flat.store x (l ++ l') := by
  rw [← store_store]
  funext y
  rw [store_apply, store_apply, store_apply, store_apply]
  cases flat y with
  | none => rfl
  | some c =>
      simp only [Option.map_some]
      by_cases hfirst : x ≤ y ∧ y < x + l.length
      · have hsecond : ¬(x + l.length ≤ y ∧ y < x + l.length + l'.length) := by omega
        rw [if_neg hsecond, if_pos hfirst, if_neg hsecond]
      · rw [if_neg hfirst, if_neg hfirst]

theorem setByte_ok {x : Nat} {b : UInt8} {flat' : Flat} :
    flat.setByte x b = .ok flat' ↔ flat.Permits (·.write) x 1 ∧ flat' = flat.store x [b] := by
  unfold setByte
  have hone : flat.Permits (·.write) x 1 ↔ ∃ c, flat x = some c ∧ c.protection.write = true := by
    constructor
    · intro h
      exact h x le_rfl (by omega)
    · intro h y hlow hhigh
      obtain rfl : y = x := by omega
      exact h
  rw [hone]
  cases flat x with
  | none => exact iff_of_false nofun fun h => by simp at h
  | some c =>
      by_cases hwrite : c.protection.write = true
      · simp only [if_pos hwrite]
        exact ⟨fun h => ⟨⟨c, rfl, hwrite⟩, (Except.ok.inj h).symm⟩, fun h => h.2 ▸ rfl⟩
      · simp only [if_neg hwrite]
        refine iff_of_false nofun ?_
        rintro ⟨⟨c', hc', hwrite'⟩, _⟩
        exact hwrite (Option.some.inj hc' ▸ hwrite')

/-! ### Scans -/

theorem memchr_of_bytes {c : UInt8} : ∀ {n x : Nat} {l : List UInt8}, flat.bytes (·.read) x n = .ok l →
    flat.memchr c x n = .ok ((l.findIdx? (· = c)).map (x + ·)) := by
  intro n
  induction n with
  | zero =>
      intro x l h
      cases h
      rfl
  | succ n ih =>
      intro x l h
      obtain ⟨b, rest, hb, hrest, rfl⟩ := bytes_succ_ok.mp h
      rw [memchr, hb, Prog.except_ok_bind, List.findIdx?_cons]
      by_cases hmatch : b = c
      · simp [hmatch, pure, Except.pure]
      · rw [if_neg hmatch, ih hrest]
        simp only [hmatch, decide_false, Bool.false_eq_true, if_false, Option.map_map]
        congr 2
        funext i
        simp only [Function.comp]
        omega

/-- The scan completes at a match behind readable bytes, or when all are readable. -/
theorem memchr_completes_iff {c : UInt8} : ∀ {n x : Nat}, (∃ r, flat.memchr c x n = .ok r) ↔
    flat.Permits (·.read) x n ∨ ∃ i, i < n ∧ flat.Permits (·.read) x (i + 1) ∧ flat.byte (·.read) (x + i) = .ok c := by
  intro n
  induction n with
  | zero =>
      intro x
      exact iff_of_true ⟨none, rfl⟩ (Or.inl (permits_zero x))
  | succ n ih =>
      intro x
      rw [memchr]
      cases hb : flat.byte (·.read) x with
      | error e =>
          have hdenied : ∀ m, ¬flat.Permits (·.read) x (m + 1) := by
            intro m h
            obtain ⟨⟨b, hb'⟩, _⟩ := permits_succ.mp h
            rw [hb] at hb'
            cases hb'
          refine iff_of_false ?_ ?_
          · rintro ⟨r, hr⟩
            cases hr
          · rintro (h | ⟨i, _, h, _⟩)
            · exact hdenied n h
            · exact hdenied i h
      | ok b =>
          rw [Prog.except_ok_bind]
          by_cases hmatch : b = c
          · rw [if_pos hmatch]
            refine iff_of_true ⟨some x, rfl⟩ (Or.inr ⟨0, Nat.succ_pos n, ?_, ?_⟩)
            · exact permits_succ.mpr ⟨⟨b, hb⟩, permits_zero _⟩
            · rw [Nat.add_zero, hb, hmatch]
          · rw [if_neg hmatch, ih]
            constructor
            · rintro (h | ⟨i, hi, h, hc⟩)
              · exact Or.inl (permits_succ.mpr ⟨⟨b, hb⟩, h⟩)
              · refine Or.inr ⟨i + 1, by omega, permits_succ.mpr ⟨⟨b, hb⟩, h⟩, ?_⟩
                rw [show x + (i + 1) = x + 1 + i by omega]
                exact hc
            · rintro (h | ⟨i, hi, h, hc⟩)
              · exact Or.inl (permits_succ.mp h).2
              · cases i with
                | zero =>
                    rw [Nat.add_zero, hb] at hc
                    exact absurd (Except.ok.inj hc) hmatch
                | succ i =>
                    refine Or.inr ⟨i, by omega, (permits_succ.mp h).2, ?_⟩
                    rw [show x + 1 + i = x + (i + 1) by omega]
                    exact hc

def firstDifference (l r : List UInt8) : Int :=
  ((l.zip r).findSome? fun (a, b) => if a ≠ b then some ((a.toNat : Int) - b.toNat) else none).getD 0

theorem memcmp_of_bytes : ∀ {n x y : Nat} {l r : List UInt8}, flat.bytes (·.read) x n = .ok l →
    flat.bytes (·.read) y n = .ok r → flat.memcmp x y n = .ok (firstDifference l r) := by
  intro n
  induction n with
  | zero =>
      intro x y l r h h'
      cases h
      cases h'
      rfl
  | succ n ih =>
      intro x y l r h h'
      obtain ⟨a, l, ha, hl, rfl⟩ := bytes_succ_ok.mp h
      obtain ⟨b, r, hb, hr, rfl⟩ := bytes_succ_ok.mp h'
      rw [memcmp, ha, hb, Prog.except_ok_bind, Prog.except_ok_bind]
      unfold firstDifference
      rw [List.zip_cons_cons, List.findSome?_cons]
      by_cases hdiffer : a ≠ b
      · simp only [if_pos hdiffer]
        rfl
      · simp only [if_neg hdiffer]
        exact ih hl hr

theorem memcmp_completes_iff : ∀ {n x y : Nat}, (∃ r, flat.memcmp x y n = .ok r) ↔
    flat.Permits (·.read) x n ∧ flat.Permits (·.read) y n ∨
      ∃ i, i < n ∧ flat.Permits (·.read) x (i + 1) ∧ flat.Permits (·.read) y (i + 1) ∧
        flat.byte (·.read) (x + i) ≠ flat.byte (·.read) (y + i) := by
  intro n
  induction n with
  | zero =>
      intro x y
      exact iff_of_true ⟨0, rfl⟩ (Or.inl ⟨permits_zero x, permits_zero y⟩)
  | succ n ih =>
      intro x y
      have hstart : ∀ {z : Nat} {e : GuestMemoryError}, flat.byte (·.read) z = .error e →
          ∀ m, ¬flat.Permits (·.read) z (m + 1) := by
        intro z e hz m h
        obtain ⟨⟨b, hb⟩, _⟩ := permits_succ.mp h
        rw [hz] at hb
        cases hb
      rw [memcmp]
      cases ha : flat.byte (·.read) x with
      | error e =>
          refine iff_of_false ?_ ?_
          · rintro ⟨r, hr⟩
            cases hr
          · rintro (⟨h, _⟩ | ⟨i, _, h, _⟩)
            · exact hstart ha n h
            · exact hstart ha i h
      | ok a =>
          rw [Prog.except_ok_bind]
          cases hb : flat.byte (·.read) y with
          | error e =>
              refine iff_of_false ?_ ?_
              · rintro ⟨r, hr⟩
                cases hr
              · rintro (⟨_, h⟩ | ⟨i, _, _, h, _⟩)
                · exact hstart hb n h
                · exact hstart hb i h
          | ok b =>
              rw [Prog.except_ok_bind]
              by_cases hdiffer : a ≠ b
              · rw [if_pos hdiffer]
                refine iff_of_true ⟨_, rfl⟩ (Or.inr ⟨0, Nat.succ_pos n, ?_, ?_, ?_⟩)
                · exact permits_succ.mpr ⟨⟨a, ha⟩, permits_zero _⟩
                · exact permits_succ.mpr ⟨⟨b, hb⟩, permits_zero _⟩
                · rw [Nat.add_zero, Nat.add_zero, ha, hb]
                  exact fun h => hdiffer (Except.ok.inj h)
              · rw [if_neg hdiffer, ih]
                constructor
                · rintro (⟨hx, hy⟩ | ⟨i, hi, hx, hy, hne⟩)
                  · exact Or.inl ⟨permits_succ.mpr ⟨⟨a, ha⟩, hx⟩, permits_succ.mpr ⟨⟨b, hb⟩, hy⟩⟩
                  · refine Or.inr ⟨i + 1, by omega, permits_succ.mpr ⟨⟨a, ha⟩, hx⟩, permits_succ.mpr ⟨⟨b, hb⟩, hy⟩, ?_⟩
                    rw [show x + (i + 1) = x + 1 + i by omega, show y + (i + 1) = y + 1 + i by omega]
                    exact hne
                · rintro (⟨hx, hy⟩ | ⟨i, hi, hx, hy, hne⟩)
                  · exact Or.inl ⟨(permits_succ.mp hx).2, (permits_succ.mp hy).2⟩
                  · cases i with
                    | zero =>
                        rw [Nat.add_zero, Nat.add_zero, ha, hb, not_not.mp hdiffer] at hne
                        exact absurd rfl hne
                    | succ i =>
                        refine Or.inr ⟨i, by omega, (permits_succ.mp hx).2, (permits_succ.mp hy).2, ?_⟩
                        rw [show x + 1 + i = x + (i + 1) by omega, show y + 1 + i = y + (i + 1) by omega]
                        exact hne

/-! ### Copies -/

theorem copyForward_ok : ∀ {n dst src : Nat} {flat flat' : Flat},
    (∀ i j, i < j → j < n → dst + i ≠ src + j) →
    (copyForward flat dst src n = .ok flat' ↔
      ∃ l, flat.bytes (·.read) src n = .ok l ∧ flat.Permits (·.write) dst n ∧ flat' = flat.store dst l) := by
  intro n
  induction n with
  | zero =>
      intro dst src flat flat' _
      constructor
      · intro h
        cases h
        exact ⟨[], rfl, permits_zero dst, (store_nil dst).symm⟩
      · rintro ⟨l, hl, _, rfl⟩
        cases hl
        rw [store_nil]
        rfl
  | succ n ih =>
      intro dst src flat flat' hclear
      have hrest : ∀ b : UInt8, (∀ y, src + 1 ≤ y → y < src + 1 + n → ¬(dst ≤ y ∧ y < dst + [b].length)) := by
        intro b y hlow hhigh hy
        rw [List.length_singleton] at hy
        exact hclear 0 (y - src) (by omega) (by omega) (by omega)
      have hclear' : ∀ i j, i < j → j < n → dst + 1 + i ≠ src + 1 + j := by
        intro i j hij hj heq
        exact hclear (i + 1) (j + 1) (by omega) (by omega) (by omega)
      have hwrite : flat.Permits (·.write) dst (n + 1) ↔
          flat.Permits (·.write) dst 1 ∧ flat.Permits (·.write) (dst + 1) n := by
        rw [permits_succ, permits_succ]
        exact ⟨fun h => ⟨⟨h.1, permits_zero _⟩, h.2⟩, fun h => ⟨h.1.1, h.2⟩⟩
      rw [copyForward, Prog.except_bind_eq_ok]
      constructor
      · rintro ⟨b, hb, hrun⟩
        obtain ⟨next, hset, hrun⟩ := Prog.except_bind_eq_ok.mp hrun
        obtain ⟨hfirst, rfl⟩ := setByte_ok.mp hset
        obtain ⟨l, hl, hlater, rfl⟩ := (ih hclear').mp hrun
        rw [bytes_store (hrest b)] at hl
        refine ⟨b :: l, bytes_succ_ok.mpr ⟨b, l, hb, hl, rfl⟩, hwrite.mpr ⟨hfirst, permits_store.mp hlater⟩, ?_⟩
        exact store_cons dst b l
      · rintro ⟨l, hl, hpermits, rfl⟩
        obtain ⟨b, rest, hb, hbytes, rfl⟩ := bytes_succ_ok.mp hl
        obtain ⟨hfirst, hlater⟩ := hwrite.mp hpermits
        refine ⟨b, hb, Prog.except_bind_eq_ok.mpr ⟨flat.store dst [b], setByte_ok.mpr ⟨hfirst, rfl⟩, ?_⟩⟩
        refine (ih hclear').mpr ⟨rest, ?_, permits_store.mpr hlater, ?_⟩
        · rw [bytes_store (hrest b)]
          exact hbytes
        · exact (store_cons dst b rest).symm

theorem bytes_snoc_ok {x n : Nat} {l : List UInt8} :
    flat.bytes p x (n + 1) = .ok l ↔
      ∃ front b, flat.bytes p x n = .ok front ∧ flat.byte p (x + n) = .ok b ∧ l = front ++ [b] := by
  constructor
  · intro h
    obtain ⟨front, hfront⟩ := bytes_ok_of_permits ((permits_of_bytes h).mono (Nat.le_succ n))
    rw [bytes_append hfront 1] at h
    cases hlast : flat.bytes p (x + n) 1 with
    | error e =>
        rw [hlast] at h
        cases h
    | ok last =>
        rw [hlast] at h
        obtain ⟨b, rest, hb, hrest, rfl⟩ := bytes_succ_ok.mp hlast
        cases hrest
        cases h
        exact ⟨front, b, hfront, hb, rfl⟩
  · rintro ⟨front, b, hfront, hb, rfl⟩
    rw [bytes_append hfront 1, bytes_succ_ok.mpr ⟨b, [], hb, rfl, rfl⟩]
    rfl

theorem copyBackward_ok : ∀ {n dst src : Nat} {flat flat' : Flat}, src ≤ dst →
    (copyBackward flat dst src n = .ok flat' ↔
      ∃ l, flat.bytes (·.read) src n = .ok l ∧ flat.Permits (·.write) dst n ∧ flat' = flat.store dst l) := by
  intro n
  induction n with
  | zero =>
      intro dst src flat flat' _
      constructor
      · intro h
        cases h
        exact ⟨[], rfl, permits_zero dst, (store_nil dst).symm⟩
      · rintro ⟨l, hl, _, rfl⟩
        cases hl
        rw [store_nil]
        rfl
  | succ n ih =>
      intro dst src flat flat' hle
      have hfront : ∀ b : UInt8, (∀ y, src ≤ y → y < src + n → ¬(dst + n ≤ y ∧ y < dst + n + [b].length)) := by
        intro b y hlow hhigh hy
        omega
      have hwrite : flat.Permits (·.write) dst (n + 1) ↔
          flat.Permits (·.write) (dst + n) 1 ∧ flat.Permits (·.write) dst n := by
        constructor
        · intro h
          exact ⟨fun y hlow hhigh => h y (by omega) (by omega), h.mono (Nat.le_succ n)⟩
        · intro h y hlow hhigh
          by_cases hy : y < dst + n
          · exact h.2 y hlow hy
          · exact h.1 y (by omega) (by omega)
      rw [copyBackward, Prog.except_bind_eq_ok]
      constructor
      · rintro ⟨b, hb, hrun⟩
        obtain ⟨next, hset, hrun⟩ := Prog.except_bind_eq_ok.mp hrun
        obtain ⟨hlast, rfl⟩ := setByte_ok.mp hset
        obtain ⟨l, hl, hearlier, rfl⟩ := (ih hle).mp hrun
        rw [bytes_store (hfront b)] at hl
        refine ⟨l ++ [b], bytes_snoc_ok.mpr ⟨l, b, hl, hb, rfl⟩, hwrite.mpr ⟨hlast, permits_store.mp hearlier⟩, ?_⟩
        rw [← store_store_before, bytes_length hl]
      · rintro ⟨l, hl, hpermits, rfl⟩
        obtain ⟨front, b, hbytes, hb, rfl⟩ := bytes_snoc_ok.mp hl
        obtain ⟨hlast, hearlier⟩ := hwrite.mp hpermits
        refine ⟨b, hb, Prog.except_bind_eq_ok.mpr ⟨flat.store (dst + n) [b], setByte_ok.mpr ⟨hlast, rfl⟩, ?_⟩⟩
        refine (ih hle).mpr ⟨front, ?_, permits_store.mpr hearlier, ?_⟩
        · rw [bytes_store (hfront b)]
          exact hbytes
        · rw [← store_store_before, bytes_length hbytes]

theorem memmove_ok {dst src n : Nat} {flat' : Flat} : flat.memmove dst src n = .ok flat' ↔
    ∃ l, flat.bytes (·.read) src n = .ok l ∧ flat.Permits (·.write) dst n ∧ flat' = flat.store dst l := by
  unfold memmove
  by_cases hle : dst ≤ src
  · rw [if_pos hle]
    exact copyForward_ok fun i j hij _ => by omega
  · rw [if_neg hle]
    exact copyBackward_ok (by omega)

theorem memcpy_ok {dst src n : Nat} {flat' : Flat} (hapart : ¬(dst < src + n ∧ src < dst + n)) :
    flat.memcpy dst src n = .ok flat' ↔
      ∃ l, flat.bytes (·.read) src n = .ok l ∧ flat.Permits (·.write) dst n ∧ flat' = flat.store dst l :=
  copyForward_ok fun i j hij hj => by omega

/-- A forward copy completes when its source is readable and its destination writable, even where they meet. -/
theorem memcpy_completes_iff : ∀ {n dst src : Nat} {flat : Flat}, (∃ flat', copyForward flat dst src n = .ok flat') ↔
    flat.Permits (·.read) src n ∧ flat.Permits (·.write) dst n := by
  intro n
  induction n with
  | zero =>
      intro dst src flat
      exact iff_of_true ⟨flat, rfl⟩ ⟨permits_zero src, permits_zero dst⟩
  | succ n ih =>
      intro dst src flat
      rw [permits_succ, permits_succ, copyForward]
      constructor
      · rintro ⟨flat', h⟩
        obtain ⟨b, hb, hrun⟩ := Prog.except_bind_eq_ok.mp h
        obtain ⟨next, hset, hrun⟩ := Prog.except_bind_eq_ok.mp hrun
        obtain ⟨hfirst, rfl⟩ := setByte_ok.mp hset
        obtain ⟨hread, hwrite⟩ := ih.mp ⟨flat', hrun⟩
        exact ⟨⟨⟨b, hb⟩, permits_store.mp hread⟩, (permits_succ.mp hfirst).1, permits_store.mp hwrite⟩
      · rintro ⟨⟨⟨b, hb⟩, hread⟩, hfirst, hwrite⟩
        have hset : flat.setByte dst b = .ok (flat.store dst [b]) :=
          setByte_ok.mpr ⟨permits_succ.mpr ⟨hfirst, permits_zero _⟩, rfl⟩
        obtain ⟨flat', hrun⟩ := ih.mpr ⟨permits_store.mpr hread, permits_store.mpr hwrite⟩
        exact ⟨flat', Prog.except_bind_eq_ok.mpr ⟨b, hb, Prog.except_bind_eq_ok.mpr ⟨_, hset, hrun⟩⟩⟩

theorem memset_ok : ∀ {n x : Nat} {c : UInt8} {flat flat' : Flat}, memset flat x c n = .ok flat' ↔
    flat.Permits (·.write) x n ∧ flat' = flat.store x (List.replicate n c) := by
  intro n
  induction n with
  | zero =>
      intro x c flat flat'
      constructor
      · intro h
        cases h
        exact ⟨permits_zero x, (store_nil x).symm⟩
      · rintro ⟨_, rfl⟩
        rw [List.replicate_zero, store_nil]
        rfl
  | succ n ih =>
      intro x c flat flat'
      have hstore : (flat.store x [c]).store (x + 1) (List.replicate n c) = flat.store x (List.replicate (n + 1) c) :=
        store_cons x c (List.replicate n c)
      rw [memset, Prog.except_bind_eq_ok, permits_succ]
      constructor
      · rintro ⟨next, hset, hrun⟩
        obtain ⟨hfirst, rfl⟩ := setByte_ok.mp hset
        obtain ⟨hlater, rfl⟩ := ih.mp hrun
        exact ⟨⟨(permits_succ.mp hfirst).1, permits_store.mp hlater⟩, hstore⟩
      · rintro ⟨⟨hfirst, hlater⟩, rfl⟩
        refine ⟨flat.store x [c], setByte_ok.mpr ⟨permits_succ.mpr ⟨hfirst, permits_zero _⟩, rfl⟩, ?_⟩
        exact ih.mpr ⟨permits_store.mpr hlater, hstore.symm⟩

end Flat

end Mcr.Memory
