import Mcr.Lib.Prog

/-!
# Guest addresses, page rounding and checked ranges

Guest addresses and lengths are `u64` values, written as natural numbers below `2 ^ 64`; every
addition the source checks is checked here against that bound. The target is a 64-bit one, where
`usize::try_from` never fails, so the `RegionTooLarge` conversions have no counterpart.
-/

namespace Mcr.Memory

inductive HostOperation
  | allocateMemory
  | protectMemory
  | flushInstructionCache
deriving DecidableEq, Repr

inductive HostErrorKind
  | accessDenied | notFound | alreadyExists | invalidInput | interrupted | timedOut | wouldBlock
  | brokenPipe | outOfMemory | unsupported | poisoned | unavailable | other
deriving DecidableEq, Repr

structure HostError where
  operation : HostOperation
  kind : HostErrorKind
deriving DecidableEq, Repr

def HostError.invalidInput (operation : HostOperation) : HostError := ⟨operation, .invalidInput⟩

inductive GuestMemoryError
  | invalidAddress
  | invalidLength
  | invalidProtection
  | invalidFlags
  | invalidOffset
  | badFileDescriptor
  | addressInUse
  | notMapped
  | outOfMemory
  | accessDenied
  | regionTooLarge
  | host (error : HostError)
deriving DecidableEq, Repr

def u64Limit : Nat := 2 ^ 64

def guestPageSize : Nat := 4096

def minGuestAddress : Nat := guestPageSize

def checkedAdd (a b : Nat) : Option Nat := if a + b < u64Limit then some (a + b) else none

def isPageAligned (value : Nat) : Bool := value % guestPageSize == 0

def alignDownTo (value alignment : Nat) : Nat := value / alignment * alignment

def alignUpTo (value alignment : Nat) : Except GuestMemoryError Nat :=
  match checkedAdd value (alignment - 1) with
  | some value => .ok (alignDownTo value alignment)
  | none => .error .invalidLength

def alignUp (value : Nat) : Except GuestMemoryError Nat := alignUpTo value guestPageSize

def pageRoundLength (length : Nat) : Except GuestMemoryError Nat :=
  if length = 0 then .error .invalidLength else alignUp length

def checkedRawRange (start length : Nat) : Except GuestMemoryError Nat :=
  match checkedAdd start length with
  | some stop => if stop ≥ start then .ok stop else .error .invalidLength
  | none => .error .invalidLength

def checkedPageRange (start length : Nat) : Except GuestMemoryError Nat :=
  if !isPageAligned start || length = 0 then .error .invalidAddress
  else do
    let length ← pageRoundLength length
    checkedRawRange start length

def checkedMappingEnd (start length addressSpaceEnd : Nat) : Except GuestMemoryError Nat :=
  if start < minGuestAddress || !isPageAligned start then .error .invalidAddress
  else do
    let stop ← checkedRawRange start length
    if stop > addressSpaceEnd then .error .outOfMemory else .ok stop

/-! ### What the checks establish -/

def Aligned (value : Nat) : Prop := guestPageSize ∣ value

theorem isPageAligned_iff {value : Nat} : isPageAligned value = true ↔ Aligned value := by
  simp [isPageAligned, Aligned, Nat.dvd_iff_mod_eq_zero]

theorem checkedRawRange_eq_ok {start length stop : Nat} :
    checkedRawRange start length = .ok stop ↔ stop = start + length ∧ start + length < u64Limit := by
  unfold checkedRawRange checkedAdd
  by_cases h : start + length < u64Limit
  · simp [h, eq_comm]
  · simp [h]

theorem alignUpTo_eq_ok {value alignment stop : Nat} :
    alignUpTo value alignment = .ok stop ↔
      stop = alignDownTo (value + (alignment - 1)) alignment ∧
        value + (alignment - 1) < u64Limit := by
  unfold alignUpTo checkedAdd
  by_cases h : value + (alignment - 1) < u64Limit
  · simp [h, eq_comm]
  · simp [h]

theorem checkedRawRange_error {start length : Nat} {e : GuestMemoryError}
    (h : checkedRawRange start length = .error e) : e = .invalidLength := by
  unfold checkedRawRange at h
  split at h
  · split at h <;> simp_all
  · simp_all

theorem alignUpTo_error {value alignment : Nat} {e : GuestMemoryError}
    (h : alignUpTo value alignment = .error e) : e = .invalidLength := by
  unfold alignUpTo at h
  split at h <;> simp_all

theorem alignDownTo_le (value alignment : Nat) : alignDownTo value alignment ≤ value :=
  Nat.div_mul_le_self value alignment

theorem dvd_alignDownTo (value alignment : Nat) : alignment ∣ alignDownTo value alignment :=
  Nat.dvd_mul_left _ _

theorem lt_alignDownTo_add (value alignment : Nat) (h : 0 < alignment) :
    value < alignDownTo value alignment + alignment := by
  have hmod := Nat.mod_lt value h
  have hsplit := Nat.div_add_mod value alignment
  rw [Nat.mul_comm] at hsplit
  unfold alignDownTo
  omega

theorem le_alignDownTo {value alignment bound : Nat} (hdvd : alignment ∣ bound) (h : bound ≤ value) :
    bound ≤ alignDownTo value alignment := by
  obtain ⟨k, rfl⟩ := hdvd
  rcases Nat.eq_zero_or_pos alignment with h0 | hpos
  · simp [h0]
  · unfold alignDownTo
    rw [Nat.mul_comm alignment k] at h ⊢
    exact Nat.mul_le_mul_right _ ((Nat.le_div_iff_mul_le hpos).mpr h)

/-- Rounding up lands on the least multiple that is not below the value. -/
theorem alignUpTo_ok {value alignment stop : Nat} (hpos : 0 < alignment)
    (h : alignUpTo value alignment = .ok stop) :
    value ≤ stop ∧ stop < value + alignment ∧ alignment ∣ stop ∧ stop < u64Limit := by
  obtain ⟨rfl, hlt⟩ := alignUpTo_eq_ok.mp h
  have hle := alignDownTo_le (value + (alignment - 1)) alignment
  have hgt := lt_alignDownTo_add (value + (alignment - 1)) alignment hpos
  exact ⟨by omega, by omega, dvd_alignDownTo _ _, by omega⟩

theorem alignUpTo_le {value alignment stop bound : Nat} (hpos : 0 < alignment)
    (h : alignUpTo value alignment = .ok stop) (hdvd : alignment ∣ bound) (hle : value ≤ bound) :
    stop ≤ bound := by
  obtain ⟨hvalue, hstop, hs, _⟩ := alignUpTo_ok hpos h
  obtain ⟨a, rfl⟩ := hs
  obtain ⟨b, rfl⟩ := hdvd
  by_contra hcon
  have hab : b + 1 ≤ a := by
    by_contra hlt
    exact hcon (Nat.mul_le_mul_left _ (by omega))
  have : alignment * (b + 1) ≤ alignment * a := Nat.mul_le_mul_left _ hab
  rw [Nat.mul_add] at this
  omega

theorem alignUp_ok {value stop : Nat} (h : alignUp value = .ok stop) :
    value ≤ stop ∧ stop < value + guestPageSize ∧ Aligned stop ∧ stop < u64Limit :=
  alignUpTo_ok (by decide) h

theorem pageRoundLength_ok {length rounded : Nat} (h : pageRoundLength length = .ok rounded) :
    0 < rounded ∧ length ≤ rounded ∧ Aligned rounded ∧ rounded < u64Limit := by
  unfold pageRoundLength at h
  split at h
  · simp at h
  · have := alignUp_ok h
    exact ⟨by omega, this.1, this.2.2.1, this.2.2.2⟩

theorem checkedPageRange_ok {start length stop : Nat} (h : checkedPageRange start length = .ok stop) :
    Aligned start ∧ Aligned stop ∧ start < stop ∧ stop < u64Limit ∧ start + length ≤ stop ∧
      stop < start + length + guestPageSize := by
  unfold checkedPageRange at h
  split at h
  · simp at h
  · rename_i hcond
    simp only [Bool.or_eq_true, Bool.not_eq_true', decide_eq_true_eq, not_or,
      Bool.not_eq_false] at hcond
    cases hr : pageRoundLength length with
    | error e => simp [hr, bind, Except.bind] at h
    | ok rounded =>
        simp only [hr, bind, Except.bind] at h
        obtain ⟨rfl, hlt⟩ := checkedRawRange_eq_ok.mp h
        obtain ⟨hpos, hle, hal, _⟩ := pageRoundLength_ok hr
        have hup : rounded < length + guestPageSize := by
          unfold pageRoundLength at hr
          rw [if_neg hcond.2] at hr
          exact (alignUp_ok hr).2.1
        have hstart := isPageAligned_iff.mp hcond.1
        exact ⟨hstart, Nat.dvd_add hstart hal, by omega, hlt, by omega, by omega⟩

theorem checkedMappingEnd_ok {start length addressSpaceEnd stop : Nat}
    (h : checkedMappingEnd start length addressSpaceEnd = .ok stop) :
    minGuestAddress ≤ start ∧ Aligned start ∧ stop = start + length ∧ stop < u64Limit ∧
      stop ≤ addressSpaceEnd := by
  unfold checkedMappingEnd at h
  split at h
  · simp at h
  · rename_i hcond
    simp only [Bool.or_eq_true, decide_eq_true_eq, Bool.not_eq_true', not_or, not_lt,
      Bool.not_eq_false] at hcond
    cases hr : checkedRawRange start length with
    | error e => simp [hr, bind, Except.bind] at h
    | ok raw =>
        simp only [hr, bind, Except.bind] at h
        split at h
        · simp at h
        · rename_i hle
          simp only [Except.ok.injEq] at h
          subst h
          obtain ⟨rfl, hlt⟩ := checkedRawRange_eq_ok.mp hr
          exact ⟨hcond.1, isPageAligned_iff.mp hcond.2, rfl, hlt, not_lt.mp hle⟩

theorem checkedMappingEnd_ne_host {start length addressSpaceEnd : Nat} {error : HostError} :
    checkedMappingEnd start length addressSpaceEnd ≠ .error (.host error) := by
  intro h
  unfold checkedMappingEnd at h
  split at h
  · simp at h
  · cases hr : checkedRawRange start length with
    | error e =>
        simp only [hr, bind, Except.bind, Except.error.injEq] at h
        have := checkedRawRange_error hr
        simp_all
    | ok stop =>
        simp only [hr, bind, Except.bind] at h
        split at h <;> simp at h

end Mcr.Memory
