import Mcr.Memory.Bytewise
import Mcr.Memory.Generation

/-!
# The libc intrinsics

`dispatch_libc_intrinsic` stands in for a patched libc function. It reads the whole ranges its arguments name
before it looks at them, refuses a `memcpy` whose ranges meet, bounds a string, and writes chunk by chunk. The
byte-by-byte function touches no more than it must, so the two agree exactly where the rest of a range can be
read as well and a write cannot stop in the middle.
-/

namespace Mcr.Memory

open Prog World

inductive GuestLibcIntrinsic
  | memcpy
  | memmove
  | memset
  | memchr
  | memcmp
  | strlen (maxLen : Nat)
deriving DecidableEq, Repr

/-- An error of a dispatch, or the end of the memory call under it. -/
inductive GuestLibcIntrinsicError
  | memory (abort : Abort)
  | unsupportedOverlap
  | unterminatedString
deriving DecidableEq, Repr

def defaultLibcStrlenMax : Nat := 1024 * 1024

def rawRangesOverlap (lhs rhs len : Nat) : Except GuestMemoryError Bool :=
  if len = 0 then .ok false
  else do
    let lhsEnd ← checkedRawRange lhs len
    let rhsEnd ← checkedRawRange rhs len
    pure (decide (lhs < rhsEnd ∧ rhs < lhsEnd))

variable (ctx : Context)

def intrinsicMemcmp (lhs rhs len : Nat) : MemM Int := do
  let lhsBytes ← copyGuest lhs len .read
  let rhsBytes ← copyGuest rhs len .read
  pure (((lhsBytes.zip rhsBytes).findSome? fun (left, right) =>
    if left ≠ right then some ((left.toNat : Int) - right.toNat) else none).getD 0)

def intrinsicMemchr (address : Nat) (needle : UInt8) (len : Nat) : MemM (Option Nat) := do
  let bytes ← copyGuest address len .read
  pure ((bytes.findIdx? (· = needle)).map (address + ·))

def intrinsicStrlen (address maxLen : Nat) : MemM (Option Nat) := do
  let bytes ← copyGuest address maxLen .read
  pure (bytes.findIdx? (· = 0))

abbrev IntrinsicM (α : Type) : Type := Prog Machine GuestLibcIntrinsicError α

def ofSigned (result : Int) : UInt64 := UInt64.ofInt result

/-- `dispatch_libc_intrinsic`, with the register arguments. -/
def dispatchLibcIntrinsic (intrinsic : GuestLibcIntrinsic) (rdi rsi rdx : UInt64) : IntrinsicM UInt64 :=
  let len := rdx.toNat
  match intrinsic with
  | .memcpy => do
    if ← .mapError .memory (check (rawRangesOverlap rdi.toNat rsi.toNat len)) then .throw .unsupportedOverlap
    else do
      .mapError .memory (intrinsicMemmove ctx rdi.toNat rsi.toNat len)
      pure rdi
  | .memmove => do
    .mapError .memory (intrinsicMemmove ctx rdi.toNat rsi.toNat len)
    pure rdi
  | .memset => do
    .mapError .memory (intrinsicMemset ctx rdi.toNat rsi.toUInt8 len)
    pure rdi
  | .memchr => do
    let found ← .mapError .memory (intrinsicMemchr rdi.toNat rsi.toUInt8 len)
    pure (UInt64.ofNat (found.getD 0))
  | .memcmp => do
    let result ← .mapError .memory (intrinsicMemcmp rdi.toNat rsi.toNat len)
    pure (ofSigned result)
  | .strlen maxLen => do
    match ← .mapError .memory (intrinsicStrlen rdi.toNat maxLen) with
    | some len => pure (UInt64.ofNat len)
    | none => .throw .unterminatedString

/-! ### Agreement with the functions of C -/

/-- The byte-by-byte function with these register arguments: what it returns and the memory it leaves. -/
def Flat.libc (flat : Flat) (intrinsic : GuestLibcIntrinsic) (rdi rsi rdx : UInt64) :
    Except GuestMemoryError (UInt64 × Flat) :=
  let len := rdx.toNat
  match intrinsic with
  | .memcpy => (flat.memcpy rdi.toNat rsi.toNat len).map fun flat => (rdi, flat)
  | .memmove => (flat.memmove rdi.toNat rsi.toNat len).map fun flat => (rdi, flat)
  | .memset => (flat.memset rdi.toNat rsi.toUInt8 len).map fun flat => (rdi, flat)
  | .memchr => (flat.memchr rsi.toUInt8 rdi.toNat len).map fun found => (UInt64.ofNat (found.getD 0), flat)
  | .memcmp => (flat.memcmp rdi.toNat rsi.toNat len).map fun result => (ofSigned result, flat)
  | .strlen _ => (flat.strlen rdi.toNat).map fun len => (UInt64.ofNat len, flat)

/-- Where the byte-by-byte function completes the dispatch does the same, and where the dispatch fails it has
changed no byte. -/
structure AgreesWithLibc (s : Machine) (intrinsic : GuestLibcIntrinsic) (rdi rsi rdx : UInt64) : Prop where
  same : ∀ value flat, Flat.libc s.cell intrinsic rdi rsi rdx = .ok (value, flat) →
    (dispatchLibcIntrinsic ctx intrinsic rdi rsi rdx s).1 = .ok value ∧
      (dispatchLibcIntrinsic ctx intrinsic rdi rsi rdx s).2.cell = flat
  intact : ∀ e, (dispatchLibcIntrinsic ctx intrinsic rdi rsi rdx s).1 = .error e →
    (dispatchLibcIntrinsic ctx intrinsic rdi rsi rdx s).2.cell = s.cell

/-- A write that changes everything or nothing: its range leaves the address space, or may be written and copies
are granted, or what lies before the first byte that may not be written is what would be written there. -/
def WholeWrite (s : Machine) (address : Nat) (bytes : List UInt8) : Prop :=
  u64Limit ≤ address + bytes.length ∨
  Flat.Permits s.cell (·.write) address bytes.length ∧ CanCopy ctx s (bytes.length + 1) ∨
  ¬Flat.Permits s.cell (·.write) address bytes.length ∧
    ∀ x c, address ≤ x → x < address + bytes.length → Flat.Permits s.cell (·.write) address (x + 1 - address) →
      s.cell x = some c → c.byte = layBytes address bytes x

/-- The condition on the arguments and the memory. -/
def BulkAccessible (s : Machine) (intrinsic : GuestLibcIntrinsic) (rdi rsi rdx : UInt64) : Prop :=
  let flat : Flat := s.cell
  let dst := rdi.toNat
  let src := rsi.toNat
  let len := rdx.toNat
  match intrinsic with
  | .memcpy => ∀ bytes, flat.bytes (·.read) src len = .ok bytes →
    if dst < src + len ∧ src < dst + len then ¬flat.Permits (·.write) dst len else WholeWrite ctx s dst bytes
  | .memmove => ∀ bytes, flat.bytes (·.read) src len = .ok bytes → WholeWrite ctx s dst bytes
  | .memset => WholeWrite ctx s dst (List.replicate len rsi.toUInt8)
  | .memchr => (∃ i, i < len ∧ flat.Permits (·.read) dst (i + 1) ∧ flat.byte (·.read) (dst + i) = .ok rsi.toUInt8) →
    flat.Permits (·.read) dst len
  | .memcmp => (∃ i, i < len ∧ flat.Permits (·.read) dst (i + 1) ∧ flat.Permits (·.read) src (i + 1) ∧
      flat.byte (·.read) (dst + i) ≠ flat.byte (·.read) (src + i)) →
    flat.Permits (·.read) dst len ∧ flat.Permits (·.read) src len
  | .strlen maxLen => ∀ string, (0 : UInt8) ∉ string →
    flat.bytes (·.read) dst (string.length + 1) = .ok (string ++ [0]) →
      string.length < maxLen ∧ flat.Permits (·.read) dst maxLen

section Dispatch

variable {ctx : Context} {s : Machine}

/-! ### Bulk reads -/

/-- A bulk read of a range that starts in the address space succeeds when every byte may be read. -/
theorem read_eq_ok (hwf : Wf ctx s) {address len : Nat} (haddress : address < u64Limit) {l : List UInt8} :
    Flat.read s.cell address len = .ok l ↔ Flat.bytes s.cell (·.read) address len = .ok l := by
  unfold Flat.read
  rw [except_bind_eq_ok]
  constructor
  · rintro ⟨_, _, h⟩
    exact h
  · intro h
    refine ⟨address + len, checkedRawRange_eq_ok.mpr ⟨rfl, ?_⟩, h⟩
    by_cases hlen : len = 0
    · omega
    · obtain ⟨c, hc, _⟩ := Flat.permits_of_bytes h (address + len - 1) (by omega) (by omega)
      have := hwf.cell_bounded hc
      omega

theorem copyGuest_readable (hwf : Wf ctx s) (hd : s.mem.Disjoint) {address len : Nat} (haddress : address < u64Limit)
    {l : List UInt8} (h : Flat.bytes s.cell (·.read) address len = .ok l) :
    copyGuest address len .read s = (.ok l, s) := by
  have hread := read_refines hwf hd address len
  rw [(read_eq_ok hwf haddress).mpr h] at hread
  exact hread

theorem copyGuest_unreadable (hwf : Wf ctx s) (hd : s.mem.Disjoint) {address len : Nat} (haddress : address < u64Limit)
    (h : ¬Flat.Permits s.cell (·.read) address len) : ∃ e, copyGuest address len .read s = (.error e, s) := by
  have hread := read_refines hwf hd address len
  cases hflat : Flat.read s.cell address len with
  | ok l => exact absurd (Flat.permits_of_bytes ((read_eq_ok hwf haddress).mp hflat)) h
  | error e =>
      rw [hflat] at hread
      exact ⟨_, hread⟩

/-! ### Writes -/

theorem layBytes_store {flat : Flat} {address k : Nat} {bytes : List UInt8} {flat' : Flat}
    (hleft : ∀ x, flat' x = (flat x).map fun c =>
      if address ≤ x ∧ x < k then { c with byte := layBytes address bytes x } else c) :
    flat' = flat ↔ ∀ x c, address ≤ x → x < k → flat x = some c → c.byte = layBytes address bytes x := by
  constructor
  · intro hsame x c hlow hhigh hc
    have hx := hleft x
    rw [hsame, hc, Option.map_some, if_pos ⟨hlow, hhigh⟩] at hx
    exact congrArg Cell.byte (Option.some.inj hx)
  · intro hsame
    funext x
    rw [hleft x]
    cases hc : flat x with
    | none => rfl
    | some c =>
        rw [Option.map_some]
        by_cases hx : address ≤ x ∧ x < k
        · rw [if_pos hx, ← hsame x c hx.1 hx.2 hc]
        · rw [if_neg hx]

/-- A write under the condition stores its bytes where it may, and otherwise fails without a change. -/
theorem writeGuest_whole (hwf : Wf ctx s) (hd : s.mem.Disjoint) {address : Nat} {bytes : List UInt8}
    (hwhole : WholeWrite ctx s address bytes) :
    (writeGuest ctx address bytes).wp
      (fun _ s' => s'.cell = Flat.store s.cell address bytes)
      (fun _ s' => s'.cell = s.cell ∧ (u64Limit ≤ address + bytes.length ∨
        ¬Flat.Permits s.cell (·.write) address bytes.length)) s := by
  refine wp_mono (wp_and (writeGuest_spec hwf address bytes) (write_refines hwf hd address bytes)) ?_ ?_
  · intro _ s' h
    exact h.2.2
  · intro e s' h
    rcases h.1 with ⟨rfl, error, hrange, _⟩ | ⟨hbound, _, k, hlow, hhigh, hstored, hrest⟩
    · refine ⟨rfl, Or.inl ?_⟩
      by_contra hbound
      rw [checkedRawRange_eq_ok.mpr ⟨rfl, not_le.mp hbound⟩] at hrange
      cases hrange
    · obtain ⟨hwritable, hstopped⟩ := hrest hd
      rcases hwhole with hover | ⟨hall, hcopy⟩ | ⟨hdenied, hsame⟩
      · omega
      · obtain ⟨hk, hrefused⟩ := hstopped.denied hcopy (by omega)
        exact absurd (hall k hlow hk) hrefused
      · refine ⟨(layBytes_store (hstored.cell hwf hd)).mpr ?_, Or.inr hdenied⟩
        intro x c hx hxk hc
        exact hsame x c hx (by omega) (fun y hy hyx => hwritable y hy (by omega)) hc

/-- With copies granted, a write that fails without a change met the condition. -/
theorem wholeWrite_of_intact (hwf : Wf ctx s) (hd : s.mem.Disjoint) {address : Nat} {bytes : List UInt8}
    (hcopy : CanCopy ctx s (bytes.length + 1))
    (hintact : ∀ e, (writeGuest ctx address bytes s).1 = .error e → (writeGuest ctx address bytes s).2.cell = s.cell) :
    WholeWrite ctx s address bytes := by
  have hspec := writeGuest_spec hwf address bytes
  rcases hrun : writeGuest ctx address bytes s with ⟨r, s'⟩
  rw [hrun] at hintact
  cases r with
  | ok u =>
      obtain ⟨_, t, touched, _, _, hrest⟩ := wp_ok hspec hrun
      exact Or.inr (Or.inl ⟨(hrest hd).1, hcopy⟩)
  | error e =>
      rcases wp_error hspec hrun with ⟨_, error, hrange, _⟩ | ⟨hbound, _, k, hlow, hhigh, hstored, hrest⟩
      · left
        by_contra hbound
        rw [checkedRawRange_eq_ok.mpr ⟨rfl, not_le.mp hbound⟩] at hrange
        cases hrange
      · obtain ⟨_, hstopped⟩ := hrest hd
        obtain ⟨hk, hrefused⟩ := hstopped.denied hcopy (by omega)
        refine Or.inr (Or.inr ⟨fun hall => hrefused (hall k hlow hk), ?_⟩)
        intro x c hx hxstop hwritable hc
        refine (layBytes_store (hstored.cell hwf hd)).mp (hintact e rfl) x c hx ?_ hc
        -- the write stopped at an address that may not be written, so behind `x`
        by_contra hxk
        exact hrefused (hwritable k hlow (by omega))

/-! ### The dispatches -/

variable {intrinsic : GuestLibcIntrinsic} {rdi rsi rdx : UInt64}

/-- The condition is enough, and where copies are granted it is needed. -/
def AgreesWhen (ctx : Context) (s : Machine) (intrinsic : GuestLibcIntrinsic) (rdi rsi rdx : UInt64) : Prop :=
  (BulkAccessible ctx s intrinsic rdi rsi rdx → AgreesWithLibc ctx s intrinsic rdi rsi rdx) ∧
    (CanCopy ctx s (rdx.toNat + 1) → AgreesWithLibc ctx s intrinsic rdi rsi rdx →
      BulkAccessible ctx s intrinsic rdi rsi rdx)

/-- A dispatch that fails at once agrees when the function of C does not complete. -/
theorem agrees_of_error {e : GuestLibcIntrinsicError}
    (hrun : dispatchLibcIntrinsic ctx intrinsic rdi rsi rdx s = (.error e, s)) :
    AgreesWithLibc ctx s intrinsic rdi rsi rdx ↔ ¬∃ r, Flat.libc s.cell intrinsic rdi rsi rdx = .ok r := by
  constructor
  · rintro h ⟨⟨value, flat⟩, hlibc⟩
    have hsame := (h.same value flat hlibc).1
    rw [hrun] at hsame
    cases hsame
  · intro h
    constructor
    · exact fun value flat hlibc => absurd ⟨_, hlibc⟩ h
    · intro e' _
      rw [hrun]

theorem agrees_of_ok (value : UInt64) (hrun : dispatchLibcIntrinsic ctx intrinsic rdi rsi rdx s = (.ok value, s))
    (hlibc : Flat.libc s.cell intrinsic rdi rsi rdx = .ok (value, s.cell)) :
    AgreesWithLibc ctx s intrinsic rdi rsi rdx := by
  constructor
  · intro value' flat hlibc'
    rw [hlibc] at hlibc'
    cases hlibc'
    rw [hrun]
    exact ⟨rfl, rfl⟩
  · intro e herror
    rw [hrun] at herror
    cases herror

theorem agrees_of_write (intrinsic : GuestLibcIntrinsic) (rdi rsi rdx : UInt64) (bytes : List UInt8)
    (hwf : Wf ctx s) (hd : s.mem.Disjoint)
    (hrun : dispatchLibcIntrinsic ctx intrinsic rdi rsi rdx s =
      (Prog.mapError .memory (writeGuest ctx rdi.toNat bytes) >>= fun _ => pure rdi : IntrinsicM UInt64) s)
    (hlibc : ∀ value flat, Flat.libc s.cell intrinsic rdi rsi rdx = .ok (value, flat) →
      value = rdi ∧ Flat.Permits s.cell (·.write) rdi.toNat bytes.length ∧ flat = Flat.store s.cell rdi.toNat bytes) :
    (WholeWrite ctx s rdi.toNat bytes → AgreesWithLibc ctx s intrinsic rdi rsi rdx) ∧
      (CanCopy ctx s (bytes.length + 1) → AgreesWithLibc ctx s intrinsic rdi rsi rdx →
        WholeWrite ctx s rdi.toNat bytes) := by
  rcases hwrite : writeGuest ctx rdi.toNat bytes s with ⟨r, s'⟩
  cases r with
  | ok u =>
      have hdispatch : dispatchLibcIntrinsic ctx intrinsic rdi rsi rdx s = (.ok rdi, s') := by
        rw [hrun]
        simp only [bind, Prog.mapError, hwrite]
        rfl
      constructor
      · intro hwhole
        have hleft := wp_ok (writeGuest_whole hwf hd hwhole) hwrite
        constructor
        · intro value flat h
          obtain ⟨rfl, _, rfl⟩ := hlibc value flat h
          rw [hdispatch]
          exact ⟨rfl, hleft⟩
        · intro e herror
          rw [hdispatch] at herror
          cases herror
      · intro hcopy _
        apply wholeWrite_of_intact hwf hd hcopy
        intro e herror
        rw [hwrite] at herror
        cases herror
  | error e =>
      have hdispatch : dispatchLibcIntrinsic ctx intrinsic rdi rsi rdx s = (.error (.memory e), s') := by
        rw [hrun]
        simp only [bind, Prog.mapError, hwrite]
      constructor
      · intro hwhole
        obtain ⟨hleft, hstopped⟩ := wp_error (writeGuest_whole hwf hd hwhole) hwrite
        constructor
        · intro value flat h
          obtain ⟨_, hpermits, _⟩ := hlibc value flat h
          rcases hstopped with hover | hdenied
          · by_cases hlen : bytes.length = 0
            · have := rdi.toNat_lt
              unfold u64Limit at hover
              omega
            · obtain ⟨c, hc, _⟩ := hpermits (rdi.toNat + bytes.length - 1) (by omega) (by omega)
              have := hwf.cell_bounded hc
              omega
          · exact absurd hpermits hdenied
        · intro e' _
          rw [hdispatch]
          exact hleft
      · intro hcopy hagrees
        apply wholeWrite_of_intact hwf hd hcopy
        intro e' _
        have hleft := hagrees.intact (.memory e) (by rw [hdispatch])
        rw [hdispatch] at hleft
        rw [hwrite]
        exact hleft

theorem toNat_lt_u64Limit (a : UInt64) : a.toNat < u64Limit := a.toNat_lt

theorem libc_ok {α : Type} {x : Except GuestMemoryError α} {f : α → UInt64 × Flat} {r : UInt64 × Flat} :
    x.map f = .ok r ↔ ∃ a, x = .ok a ∧ f a = r := by
  cases x with
  | ok a => simp [Except.map]
  | error e => simp [Except.map]

theorem memmove_agrees (hwf : Wf ctx s) (hd : s.mem.Disjoint) : AgreesWhen ctx s .memmove rdi rsi rdx := by
  have hlibc : ∀ value flat, Flat.libc s.cell .memmove rdi rsi rdx = .ok (value, flat) →
      value = rdi ∧ Flat.memmove s.cell rdi.toNat rsi.toNat rdx.toNat = .ok flat := by
    intro value flat h
    obtain ⟨flat', hmoved, heq⟩ := libc_ok.mp h
    cases heq
    exact ⟨rfl, hmoved⟩
  rcases memmove_eq hwf hd rdi.toNat rsi.toNat rdx.toNat with ⟨l, hread, hlength, hrun⟩ | ⟨hread, e, hrun⟩
  · have hbytes := (read_eq_ok hwf (toNat_lt_u64Limit rsi)).mp hread
    have hwrite := agrees_of_write .memmove rdi rsi rdx l hwf hd
      (by simp only [dispatchLibcIntrinsic, bind, Prog.mapError, hrun]) (by
        intro value flat h
        obtain ⟨rfl, hmoved⟩ := hlibc value flat h
        obtain ⟨l', hl', hpermits, rfl⟩ := Flat.memmove_ok.mp hmoved
        obtain rfl := Except.ok.inj (hbytes.symm.trans hl')
        rw [hlength]
        exact ⟨rfl, hpermits, rfl⟩)
    rw [hlength] at hwrite
    constructor
    · intro h
      exact hwrite.1 (h l hbytes)
    · intro hcopy h bytes hbytes'
      obtain rfl := Except.ok.inj (hbytes.symm.trans hbytes')
      exact hwrite.2 hcopy h
  · have hbytes : ∀ l, Flat.bytes s.cell (·.read) rsi.toNat rdx.toNat ≠ .ok l := fun l hl =>
      hread l ((read_eq_ok hwf (toNat_lt_u64Limit rsi)).mpr hl)
    have hdispatch : dispatchLibcIntrinsic ctx .memmove rdi rsi rdx s = (.error (.memory e), s) := by
      simp only [dispatchLibcIntrinsic, bind, Prog.mapError, hrun]
    constructor
    · intro _
      rw [agrees_of_error hdispatch]
      rintro ⟨⟨value, flat⟩, h⟩
      obtain ⟨l, hl, _⟩ := Flat.memmove_ok.mp (hlibc value flat h).2
      exact hbytes l hl
    · exact fun _ _ l hl => absurd hl (hbytes l)

theorem rawRangesOverlap_cases (lhs rhs len : Nat) :
    rawRangesOverlap lhs rhs len = .ok (decide (lhs < rhs + len ∧ rhs < lhs + len)) ∨
      (∃ e, rawRangesOverlap lhs rhs len = .error e) ∧ len ≠ 0 ∧ (u64Limit ≤ lhs + len ∨ u64Limit ≤ rhs + len) := by
  unfold rawRangesOverlap
  by_cases hlen : len = 0
  · rw [if_pos hlen]
    left
    congr 1
    exact (decide_eq_false (by omega)).symm
  rw [if_neg hlen]
  by_cases hlhs : lhs + len < u64Limit
  · rw [checkedRawRange_eq_ok.mpr ⟨rfl, hlhs⟩]
    by_cases hrhs : rhs + len < u64Limit
    · rw [checkedRawRange_eq_ok.mpr ⟨rfl, hrhs⟩]
      exact Or.inl rfl
    · right
      refine ⟨?_, hlen, Or.inr (not_lt.mp hrhs)⟩
      cases hrange : checkedRawRange rhs len with
      | ok stop => exact absurd (checkedRawRange_eq_ok.mp hrange).2 hrhs
      | error e => exact ⟨e, rfl⟩
  · right
    refine ⟨?_, hlen, Or.inl (not_lt.mp hlhs)⟩
    cases hrange : checkedRawRange lhs len with
    | ok stop => exact absurd (checkedRawRange_eq_ok.mp hrange).2 hlhs
    | error e => exact ⟨e, rfl⟩

theorem not_permits_over (hwf : Wf ctx s) {p : GuestMemoryProtection → Bool} {address len : Nat} (hlen : len ≠ 0)
    (hover : u64Limit ≤ address + len) : ¬Flat.Permits s.cell p address len := by
  intro h
  obtain ⟨c, hc, _⟩ := h (address + len - 1) (by omega) (by omega)
  have := hwf.cell_bounded hc
  omega

theorem memcpy_agrees (hwf : Wf ctx s) (hd : s.mem.Disjoint) : AgreesWhen ctx s .memcpy rdi rsi rdx := by
  have hcompletes : (∃ r, Flat.libc s.cell .memcpy rdi rsi rdx = .ok r) ↔
      Flat.Permits s.cell (·.read) rsi.toNat rdx.toNat ∧ Flat.Permits s.cell (·.write) rdi.toNat rdx.toNat := by
    rw [← Flat.memcpy_completes_iff]
    constructor
    · rintro ⟨r, h⟩
      obtain ⟨flat, hcopied, _⟩ := libc_ok.mp h
      exact ⟨flat, hcopied⟩
    · rintro ⟨flat, h⟩
      exact ⟨(rdi, flat), libc_ok.mpr ⟨flat, h, rfl⟩⟩
  have hreadable : ∀ bytes, Flat.bytes s.cell (·.read) rsi.toNat rdx.toNat = .ok bytes →
      Flat.Permits s.cell (·.read) rsi.toNat rdx.toNat := fun _ h => Flat.permits_of_bytes h
  rcases rawRangesOverlap_cases rdi.toNat rsi.toNat rdx.toNat with hoverlap | ⟨⟨e, herror⟩, hlen, hover⟩
  · by_cases hmeet : rdi.toNat < rsi.toNat + rdx.toNat ∧ rsi.toNat < rdi.toNat + rdx.toNat
    · rw [decide_eq_true hmeet] at hoverlap
      have hdispatch : dispatchLibcIntrinsic ctx .memcpy rdi rsi rdx s = (.error .unsupportedOverlap, s) := by
        simp only [dispatchLibcIntrinsic, bind, Prog.mapError, hoverlap, check]
        rfl
      unfold AgreesWhen
      rw [agrees_of_error hdispatch, hcompletes]
      constructor
      · rintro h ⟨hread, hwrite⟩
        obtain ⟨bytes, hbytes⟩ := Flat.bytes_ok_of_permits hread
        have hdenied := h bytes hbytes
        rw [if_pos hmeet] at hdenied
        exact hdenied hwrite
      · intro _ h bytes hbytes
        rw [if_pos hmeet]
        exact fun hwrite => h ⟨hreadable bytes hbytes, hwrite⟩
    · rw [decide_eq_false hmeet] at hoverlap
      -- what is left is the move, and apart from each other the ranges make no difference
      have hsame : dispatchLibcIntrinsic ctx .memcpy rdi rsi rdx s = dispatchLibcIntrinsic ctx .memmove rdi rsi rdx s := by
        simp only [dispatchLibcIntrinsic, bind, Prog.mapError, hoverlap, check]
        rfl
      have hlibc : ∀ value flat, Flat.libc s.cell .memcpy rdi rsi rdx = .ok (value, flat) ↔
          Flat.libc s.cell .memmove rdi rsi rdx = .ok (value, flat) := by
        intro value flat
        unfold Flat.libc
        rw [libc_ok, libc_ok]
        refine exists_congr fun flat' => and_congr_left fun _ => ?_
        rw [Flat.memcpy_ok hmeet, Flat.memmove_ok]
      have hagrees : AgreesWithLibc ctx s .memcpy rdi rsi rdx ↔ AgreesWithLibc ctx s .memmove rdi rsi rdx := by
        constructor
        · intro h
          exact ⟨fun value flat hmoved => hsame ▸ h.same value flat ((hlibc value flat).mpr hmoved),
            fun e he => hsame ▸ h.intact e (hsame ▸ he)⟩
        · intro h
          exact ⟨fun value flat hcopied => hsame ▸ h.same value flat ((hlibc value flat).mp hcopied),
            fun e he => hsame ▸ h.intact e (hsame ▸ he)⟩
      have hcondition : BulkAccessible ctx s .memcpy rdi rsi rdx ↔ BulkAccessible ctx s .memmove rdi rsi rdx := by
        refine forall_congr' fun bytes => imp_congr_right fun _ => ?_
        rw [if_neg hmeet]
      unfold AgreesWhen
      rw [hagrees, hcondition]
      exact memmove_agrees hwf hd
  · have hdispatch : dispatchLibcIntrinsic ctx .memcpy rdi rsi rdx s = (.error (.memory (.error e)), s) := by
      simp only [dispatchLibcIntrinsic, bind, Prog.mapError, herror, check]
      rfl
    unfold AgreesWhen
    rw [agrees_of_error hdispatch, hcompletes]
    constructor
    · rintro _ ⟨hread, hwrite⟩
      rcases hover with hover | hover
      · exact not_permits_over hwf hlen hover hwrite
      · exact not_permits_over hwf hlen hover hread
    · intro _ _ bytes hbytes
      rcases hover with hover | hover
      · split
        · exact not_permits_over hwf hlen hover
        · left
          rw [Flat.bytes_length hbytes]
          exact hover
      · exact absurd (hreadable bytes hbytes) (not_permits_over hwf hlen hover)

theorem memset_agrees (hwf : Wf ctx s) (hd : s.mem.Disjoint) : AgreesWhen ctx s .memset rdi rsi rdx := by
  have hlength : (List.replicate rdx.toNat rsi.toUInt8).length = rdx.toNat := List.length_replicate
  have hlibc : ∀ value flat, Flat.libc s.cell .memset rdi rsi rdx = .ok (value, flat) →
      value = rdi ∧ Flat.Permits s.cell (·.write) rdi.toNat rdx.toNat ∧
        flat = Flat.store s.cell rdi.toNat (List.replicate rdx.toNat rsi.toUInt8) := by
    intro value flat h
    obtain ⟨flat', hset, heq⟩ := libc_ok.mp h
    cases heq
    exact ⟨rfl, Flat.memset_ok.mp hset⟩
  rcases memset_eq ctx s rdi.toNat rsi.toUInt8 rdx.toNat with ⟨_, hrun⟩ | ⟨hover, e, hrun⟩
  · have hwrite := agrees_of_write .memset rdi rsi rdx (List.replicate rdx.toNat rsi.toUInt8) hwf hd
      (by simp only [dispatchLibcIntrinsic, bind, Prog.mapError, hrun])
      (by rwa [hlength])
    rw [hlength] at hwrite
    exact hwrite
  · have hdispatch : dispatchLibcIntrinsic ctx .memset rdi rsi rdx s = (.error (.memory e), s) := by
      simp only [dispatchLibcIntrinsic, bind, Prog.mapError, hrun]
    constructor
    · intro _
      rw [agrees_of_error hdispatch]
      rintro ⟨⟨value, flat⟩, h⟩
      have hlen : rdx.toNat ≠ 0 := by
        have := toNat_lt_u64Limit rdi
        omega
      exact not_permits_over hwf hlen hover (hlibc value flat h).2.1
    · intro _ _
      left
      rwa [hlength]

theorem memchr_agrees (hwf : Wf ctx s) (hd : s.mem.Disjoint) : AgreesWhen ctx s .memchr rdi rsi rdx := by
  by_cases hread : Flat.Permits s.cell (·.read) rdi.toNat rdx.toNat
  · obtain ⟨l, hl⟩ := Flat.bytes_ok_of_permits hread
    refine ⟨fun _ => ?_, fun _ _ _ => hread⟩
    refine agrees_of_ok (UInt64.ofNat (((l.findIdx? (· = rsi.toUInt8)).map (rdi.toNat + ·)).getD 0)) ?_ ?_
    · simp only [dispatchLibcIntrinsic, intrinsicMemchr, bind, Prog.mapError,
        copyGuest_readable hwf hd (toNat_lt_u64Limit rdi) hl]
      rfl
    · exact libc_ok.mpr ⟨_, Flat.memchr_of_bytes hl, rfl⟩
  · obtain ⟨e, hrun⟩ := copyGuest_unreadable hwf hd (toNat_lt_u64Limit rdi) hread
    have hdispatch : dispatchLibcIntrinsic ctx .memchr rdi rsi rdx s = (.error (.memory e), s) := by
      simp only [dispatchLibcIntrinsic, intrinsicMemchr, bind, Prog.mapError, hrun]
    have hcompletes : (∃ r, Flat.libc s.cell .memchr rdi rsi rdx = .ok r) ↔
        ∃ r, Flat.memchr s.cell rsi.toUInt8 rdi.toNat rdx.toNat = .ok r := by
      constructor
      · rintro ⟨r, h⟩
        obtain ⟨found, hfound, _⟩ := libc_ok.mp h
        exact ⟨found, hfound⟩
      · rintro ⟨found, h⟩
        exact ⟨_, libc_ok.mpr ⟨found, h, rfl⟩⟩
    unfold AgreesWhen
    rw [agrees_of_error hdispatch, hcompletes, Flat.memchr_completes_iff]
    exact ⟨fun h hcompleted => hread (hcompleted.elim id h), fun _ h hmatch => absurd (Or.inr hmatch) h⟩

theorem memcmp_agrees (hwf : Wf ctx s) (hd : s.mem.Disjoint) : AgreesWhen ctx s .memcmp rdi rsi rdx := by
  by_cases hread : Flat.Permits s.cell (·.read) rdi.toNat rdx.toNat ∧ Flat.Permits s.cell (·.read) rsi.toNat rdx.toNat
  · obtain ⟨l, hl⟩ := Flat.bytes_ok_of_permits hread.1
    obtain ⟨r, hr⟩ := Flat.bytes_ok_of_permits hread.2
    refine ⟨fun _ => ?_, fun _ _ _ => hread⟩
    refine agrees_of_ok (ofSigned (Flat.firstDifference l r)) ?_ ?_
    · simp only [dispatchLibcIntrinsic, intrinsicMemcmp, bind, Prog.mapError,
        copyGuest_readable hwf hd (toNat_lt_u64Limit rdi) hl, copyGuest_readable hwf hd (toNat_lt_u64Limit rsi) hr]
      rfl
    · exact libc_ok.mpr ⟨_, Flat.memcmp_of_bytes hl hr, rfl⟩
  · have hfails : ∃ e, dispatchLibcIntrinsic ctx .memcmp rdi rsi rdx s = (.error (.memory e), s) := by
      by_cases hfirst : Flat.Permits s.cell (·.read) rdi.toNat rdx.toNat
      · obtain ⟨l, hl⟩ := Flat.bytes_ok_of_permits hfirst
        obtain ⟨e, hrun⟩ := copyGuest_unreadable hwf hd (toNat_lt_u64Limit rsi) fun hsecond => hread ⟨hfirst, hsecond⟩
        refine ⟨e, ?_⟩
        simp only [dispatchLibcIntrinsic, intrinsicMemcmp, bind, Prog.mapError,
          copyGuest_readable hwf hd (toNat_lt_u64Limit rdi) hl, hrun]
      · obtain ⟨e, hrun⟩ := copyGuest_unreadable hwf hd (toNat_lt_u64Limit rdi) hfirst
        refine ⟨e, ?_⟩
        simp only [dispatchLibcIntrinsic, intrinsicMemcmp, bind, Prog.mapError, hrun]
    obtain ⟨e, hdispatch⟩ := hfails
    have hcompletes : (∃ r, Flat.libc s.cell .memcmp rdi rsi rdx = .ok r) ↔
        ∃ r, Flat.memcmp s.cell rdi.toNat rsi.toNat rdx.toNat = .ok r := by
      constructor
      · rintro ⟨r, h⟩
        obtain ⟨result, hresult, _⟩ := libc_ok.mp h
        exact ⟨result, hresult⟩
      · rintro ⟨result, h⟩
        exact ⟨_, libc_ok.mpr ⟨result, h, rfl⟩⟩
    unfold AgreesWhen
    rw [agrees_of_error hdispatch, hcompletes, Flat.memcmp_completes_iff]
    exact ⟨fun h hcompleted => hread (hcompleted.elim id h), fun _ h hdiffer => absurd (Or.inr hdiffer) h⟩

theorem findIdx?_nul {string rest : List UInt8} (h : (0 : UInt8) ∉ string) :
    (string ++ 0 :: rest).findIdx? (· = 0) = some string.length := by
  induction string with
  | nil => rfl
  | cons b string ih =>
      have hb : b ≠ 0 := fun hzero => h (hzero ▸ List.mem_cons_self)
      rw [List.cons_append, List.findIdx?_cons]
      simp only [hb, decide_false, Bool.false_eq_true, if_false]
      rw [ih fun hmem => h (List.mem_cons_of_mem b hmem)]
      rfl

theorem bytes_take {flat : Flat} {p : GuestMemoryProtection → Bool} {x n m : Nat} {l : List UInt8}
    (h : flat.bytes p x n = .ok l) (hm : m ≤ n) : flat.bytes p x m = .ok (l.take m) := by
  obtain ⟨hlength, hget⟩ := Flat.bytes_ok_iff.mp h
  refine Flat.bytes_ok_iff.mpr ⟨by rw [List.length_take]; omega, ?_⟩
  intro i hi
  rw [hget i (by omega), getD_take hi]

theorem string_of_nul {flat : Flat} {x n : Nat} {l : List UInt8} (h : flat.bytes (·.read) x n = .ok l)
    (hnul : (0 : UInt8) ∈ l) : ∃ string : List UInt8, (0 : UInt8) ∉ string ∧ string.length < n ∧
      l.findIdx? (· = 0) = some string.length ∧ flat.bytes (·.read) x (string.length + 1) = .ok (string ++ [0]) := by
  obtain ⟨string, rest, rfl, hfirst⟩ := List.eq_append_cons_of_mem hnul
  have hlength := Flat.bytes_length h
  rw [List.length_append, List.length_cons] at hlength
  refine ⟨string, hfirst, by omega, findIdx?_nul hfirst, ?_⟩
  rw [bytes_take h (by omega), List.take_append, List.take_of_length_le (by omega)]
  simp

theorem string_le {flat : Flat} {x : Nat} {string string' : List UInt8} (hfirst' : (0 : UInt8) ∉ string')
    (h : flat.bytes (·.read) x (string.length + 1) = .ok (string ++ [0]))
    (h' : flat.bytes (·.read) x (string'.length + 1) = .ok (string' ++ [0])) : string'.length ≤ string.length := by
  by_contra hlong
  have hprefix := bytes_take h' (show string.length + 1 ≤ string'.length + 1 by omega)
  rw [h, List.take_append_of_le_length (by omega)] at hprefix
  have hmem : (0 : UInt8) ∈ string'.take (string.length + 1) := by
    rw [← Except.ok.inj hprefix]
    simp
  exact hfirst' (List.mem_of_mem_take hmem)

theorem strlen_ok {flat : Flat} {x n : Nat} : flat.strlen x = .ok n ↔
    ∃ string : List UInt8, string.length = n ∧ n < u64Limit ∧ (0 : UInt8) ∉ string ∧
      flat.bytes (·.read) x (n + 1) = .ok (string ++ [0]) := by
  unfold Flat.strlen
  constructor
  · intro h
    cases hstring : flat.cString x u64Limit with
    | error e =>
        rw [hstring] at h
        cases h
    | ok string =>
        rw [hstring] at h
        cases h
        obtain ⟨hlength, hnul, hbytes⟩ := Flat.cString_ok_iff.mp hstring
        exact ⟨string, rfl, hlength, hnul, hbytes⟩
  · rintro ⟨string, rfl, hlength, hnul, hbytes⟩
    rw [Flat.cString_ok_iff.mpr ⟨hlength, hnul, hbytes⟩]
    rfl

theorem libc_strlen (hwf : Wf ctx s) {maxLen : Nat} {r : UInt64 × Flat} :
    Flat.libc s.cell (.strlen maxLen) rdi rsi rdx = .ok r ↔
      ∃ string : List UInt8, (0 : UInt8) ∉ string ∧
        Flat.bytes s.cell (·.read) rdi.toNat (string.length + 1) = .ok (string ++ [0]) ∧
        (UInt64.ofNat string.length, s.cell) = r := by
  rw [show Flat.libc s.cell (.strlen maxLen) rdi rsi rdx =
    (Flat.strlen s.cell rdi.toNat).map fun len => (UInt64.ofNat len, s.cell) from rfl, libc_ok]
  constructor
  · rintro ⟨n, hn, heq⟩
    obtain ⟨string, rfl, _, hfirst, hbytes⟩ := strlen_ok.mp hn
    exact ⟨string, hfirst, hbytes, heq⟩
  · rintro ⟨string, hfirst, hbytes, heq⟩
    refine ⟨string.length, strlen_ok.mpr ⟨string, rfl, ?_, hfirst, hbytes⟩, heq⟩
    obtain ⟨c, hc, _⟩ := Flat.permits_of_bytes hbytes (rdi.toNat + string.length) (by omega) (by omega)
    have := hwf.cell_bounded hc
    omega

theorem strlen_agrees_of_error (hwf : Wf ctx s) {maxLen : Nat} {e : GuestLibcIntrinsicError}
    (hdispatch : dispatchLibcIntrinsic ctx (.strlen maxLen) rdi rsi rdx s = (.error e, s))
    (hmiss : ∀ string : List UInt8, Flat.bytes s.cell (·.read) rdi.toNat (string.length + 1) = .ok (string ++ [0]) →
      ¬(string.length < maxLen ∧ Flat.Permits s.cell (·.read) rdi.toNat maxLen)) :
    AgreesWhen ctx s (.strlen maxLen) rdi rsi rdx := by
  unfold AgreesWhen
  rw [agrees_of_error hdispatch]
  constructor
  · rintro h ⟨r, hr⟩
    obtain ⟨string, hfirst, hbytes, _⟩ := (libc_strlen hwf).mp hr
    exact hmiss string hbytes (h string hfirst hbytes)
  · intro _ h string hfirst hbytes
    exact absurd ⟨_, (libc_strlen hwf).mpr ⟨string, hfirst, hbytes, rfl⟩⟩ h

theorem strlen_agrees (hwf : Wf ctx s) (hd : s.mem.Disjoint) (maxLen : Nat) :
    AgreesWhen ctx s (.strlen maxLen) rdi rsi rdx := by
  by_cases hread : Flat.Permits s.cell (·.read) rdi.toNat maxLen
  · obtain ⟨l, hl⟩ := Flat.bytes_ok_of_permits hread
    have hcopy := copyGuest_readable hwf hd (toNat_lt_u64Limit rdi) hl
    by_cases hnul : (0 : UInt8) ∈ l
    · obtain ⟨string, hfirst, hshort, hindex, hstring⟩ := string_of_nul hl hnul
      constructor
      · intro _
        refine agrees_of_ok (UInt64.ofNat string.length) ?_ ?_
        · simp only [dispatchLibcIntrinsic, intrinsicStrlen, bind, Prog.mapError, hcopy, pure, hindex]
        · exact (libc_strlen hwf).mpr ⟨string, hfirst, hstring, rfl⟩
      · intro _ _ string' hfirst' hstring'
        have hle := string_le hfirst' hstring hstring'
        exact ⟨by omega, hread⟩
    · have hnone : l.findIdx? (· = 0) = none := by
        rw [List.findIdx?_eq_none_iff]
        intro b hb
        exact decide_eq_false fun hzero => hnul (hzero ▸ hb)
      apply strlen_agrees_of_error hwf (e := .unterminatedString)
      · simp only [dispatchLibcIntrinsic, intrinsicStrlen, bind, Prog.mapError, hcopy, pure, hnone]
        rfl
      · rintro string hbytes ⟨hshort, _⟩
        -- the NUL of a short string would be among the bytes
        have hprefix := bytes_take hl (show string.length + 1 ≤ maxLen by omega)
        rw [hbytes] at hprefix
        have hmem : (0 : UInt8) ∈ l.take (string.length + 1) := by
          rw [← Except.ok.inj hprefix]
          simp
        exact hnul (List.mem_of_mem_take hmem)
  · obtain ⟨e, hrun⟩ := copyGuest_unreadable hwf hd (toNat_lt_u64Limit rdi) hread
    apply strlen_agrees_of_error hwf (e := .memory e)
    · simp only [dispatchLibcIntrinsic, intrinsicStrlen, bind, Prog.mapError, hrun]
    · exact fun _ _ h => hread h.2

end Dispatch

end Mcr.Memory
