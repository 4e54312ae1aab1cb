import Mcr.Memory.Flat

/-!
# The executable-write generation

The generation tells the code patcher that executable bytes may have changed. A write records it once,
after its last chunk, so a write that stops in the middle leaves the chunks before it unrecorded;
`slice_mut` records it first, before the copy that may still fail.
-/

namespace Mcr.Memory

open Prog World

/-- The generation moves when an executable byte changes, and only when one is touched. -/
structure Tracked (s s' : Machine) (changed touched : Nat → Prop) : Prop where
  bumped : (∃ x, changed x ∧ s.Allows (·.execute) x) →
    s'.mem.executableWriteGeneration ≠ s.mem.executableWriteGeneration
  spared : (∀ x, touched x → ¬ s.Allows (·.execute) x) →
    s'.mem.executableWriteGeneration = s.mem.executableWriteGeneration

/-- A write touches its range when it returns; when it fails, the bytes that it changed. -/
def WriteTracked (s : Machine) (address len : Nat) (run : Except Abort Unit × Machine) : Prop :=
  Tracked s run.2 (fun x => run.2.cell x ≠ s.cell x) fun x =>
    match run.1 with
    | .ok _ => address ≤ x ∧ x < address + len
    | .error _ => run.2.cell x ≠ s.cell x

/-- `slice_mut` touches what it lends out. -/
def SliceMutTracked (s : Machine) (address len : Nat) (run : Except Abort (Option (List UInt8)) × Machine) :
    Prop :=
  Tracked s run.2 (fun x => (∃ l, run.1 = .ok (some l)) ∧ address ≤ x ∧ x < address + len)
    fun x => (∃ l, run.1 = .ok (some l)) ∧ address ≤ x ∧ x < address + len

/-- The host grants every copy, and `n` allocation ids are left. -/
structure CanCopy (ctx : Context) (s : Machine) (n : Nat) : Prop where
  unique : ∀ k, ctx.refusal k .unique = none
  detach : ∀ k, ctx.refusal k .detach = none
  ids : s.mem.nextAllocationId + n < u64Limit

/-- The condition on a write: nothing can stop it, or before the first address that may not be written
every executable byte is already what it is to become. -/
def WriteClean (ctx : Context) (s : Machine) (address : Nat) (bytes : List UInt8) : Prop :=
  u64Limit ≤ address + bytes.length ∨
  (∀ x, address ≤ x → x < address + bytes.length → s.Allows (·.write) x) ∧ CanCopy ctx s (bytes.length + 1) ∨
  ∀ x c, address ≤ x → x < address + bytes.length → (∀ y, address ≤ y → y ≤ x → s.Allows (·.write) y) →
    s.cell x = some c → c.protection.execute = true → c.byte = layBytes address bytes x

section Call

variable {ctx : Context} {s : Machine}

theorem CanCopy.not_rangeError {n count : Nat} (h : CanCopy ctx s n) (hcount : count ≤ n) {e : Abort} :
    ¬ RangeError ctx s count e := by
  rintro (⟨k, error, hrefused, _⟩ | ⟨k, error, hrefused, _⟩ | ⟨_, hlimit⟩)
  · rw [h.unique] at hrefused
    simp at hrefused
  · rw [h.detach] at hrefused
    simp at hrefused
  · have := h.ids
    omega

theorem WriteStopped.denied {address k stop n : Nat} {e : Abort} (h : WriteStopped ctx s address k stop e)
    (hcopy : CanCopy ctx s n) (hn : k - address + 1 ≤ n) : k < stop ∧ ¬ s.Allows (·.write) k := by
  rcases h with ⟨hk, ⟨hnone, _⟩ | ⟨c, hc, hfalse, _⟩⟩ | hrange
  · refine ⟨hk, ?_⟩
    rintro ⟨c, hc, _⟩
    rw [hnone] at hc
    simp at hc
  · refine ⟨hk, ?_⟩
    rintro ⟨c', hc', hwrite⟩
    obtain rfl := Option.some.inj (hc.symm.trans hc')
    simp [hfalse] at hwrite
  · exact absurd hrange (hcopy.not_rangeError hn)

theorem Tracked.refl (s : Machine) (touched : Nat → Prop) : Tracked s s (fun x => s.cell x ≠ s.cell x) touched :=
  ⟨fun ⟨_, h, _⟩ => absurd rfl h, fun _ => rfl⟩

theorem writeDone_tracked (hwf : Wf ctx s) (hd : s.mem.Disjoint) {t : Machine} {address len : Nat}
    {f : Nat → UInt8} {touched : Bool} (h : WriteDone ctx s t address (address + len) f false touched) :
    Tracked s (afterWrite t touched) (fun x => (afterWrite t touched).cell x ≠ s.cell x)
      (fun x => address ≤ x ∧ x < address + len) := by
  obtain ⟨hstored, hrest⟩ := h
  have htouched := (hrest hd).2
  simp only [Bool.false_eq_true, false_or] at htouched
  refine ⟨fun ⟨x, hchanged, hexec⟩ => ?_, fun hspared => ?_⟩
  · have hx : address ≤ x ∧ x < address + len := by
      by_contra hx
      refine hchanged ?_
      rw [afterWrite_cell, hstored.cell hwf hd]
      simp [hx]
    obtain rfl : touched = true := htouched.mpr ⟨x, hx.1, hx.2, hexec⟩
    rw [← hstored.generation]
    exact recorded_generation_ne t
  · have hcode : touched = false := by
      rw [← Bool.not_eq_true, htouched]
      rintro ⟨x, hlow, hhigh, hexec⟩
      exact hspared x ⟨hlow, hhigh⟩ hexec
    subst hcode
    exact hstored.generation

/-- A write that stopped at `k` is tracked exactly when it changed no executable byte. -/
theorem stored_tracked_iff (hwf : Wf ctx s) (hd : s.mem.Disjoint) {s' : Machine} {address k : Nat}
    {f : Nat → UInt8} (h : Stored ctx s s' address k f) :
    Tracked s s' (fun x => s'.cell x ≠ s.cell x) (fun x => s'.cell x ≠ s.cell x) ↔
      ∀ x c, address ≤ x → x < k → s.cell x = some c → c.protection.execute = true → c.byte = f x := by
  constructor
  · intro htracked x c hlow hhigh hc hexec
    by_contra hne
    refine htracked.bumped ⟨x, ?_, c, hc, hexec⟩ h.generation
    rw [h.cell hwf hd, hc, Option.map_some, if_pos ⟨hlow, hhigh⟩]
    intro heq
    exact hne (congrArg Cell.byte (Option.some.inj heq)).symm
  · intro hsame
    refine ⟨?_, fun _ => h.generation⟩
    rintro ⟨x, hchanged, c, hc, hexec⟩
    refine absurd ?_ hchanged
    rw [h.cell hwf hd, hc, Option.map_some]
    split
    · rename_i hx
      rw [← hsame x c hx.1 hx.2 hc hexec]
    · rfl

theorem writeGuest_tracked (hwf : Wf ctx s) (hd : s.mem.Disjoint) {address : Nat} {bytes : List UInt8}
    (hclean : WriteClean ctx s address bytes) :
    WriteTracked s address bytes.length (writeGuest ctx address bytes s) := by
  have hspec := writeGuest_spec hwf address bytes
  rcases hrun : writeGuest ctx address bytes s with ⟨r, s'⟩
  cases r with
  | ok u =>
      obtain ⟨_, t, touched, rfl, hdone⟩ := wp_ok hspec hrun
      exact writeDone_tracked hwf hd hdone
  | error e =>
      rcases wp_error hspec hrun with ⟨rfl, _⟩ | ⟨hbound, _, k, hlow, hhigh, hstored, hrest⟩
      · exact Tracked.refl _ _
      · obtain ⟨hwritable, hstopped⟩ := hrest hd
        refine (stored_tracked_iff hwf hd hstored).mpr fun x c hx hxk hc hexec => ?_
        rcases hclean with hover | ⟨hall, hcopy⟩ | hsame
        · omega
        · obtain ⟨hk, hdenied⟩ := hstopped.denied hcopy (by omega)
          exact absurd (hall k hlow hk) hdenied
        · exact hsame x c hx (by omega) (fun y hy hyx => hwritable y hy (by omega)) hc hexec

theorem writeClean_of_tracked (hwf : Wf ctx s) (hd : s.mem.Disjoint) {address : Nat} {bytes : List UInt8}
    (hcopy : CanCopy ctx s (bytes.length + 1))
    (htracked : WriteTracked s address bytes.length (writeGuest ctx address bytes s)) :
    WriteClean ctx s address bytes := by
  have hspec := writeGuest_spec hwf address bytes
  rcases hrun : writeGuest ctx address bytes s with ⟨r, s'⟩
  rw [hrun] at htracked
  cases r with
  | ok u =>
      obtain ⟨_, t, touched, _, _, hrest⟩ := wp_ok hspec hrun
      exact .inr (.inl ⟨(hrest hd).1, hcopy⟩)
  | error e =>
      rcases wp_error hspec hrun with ⟨_, error, hrange, _⟩ | ⟨hbound, _, k, hlow, hhigh, hstored, hrest⟩
      · refine .inl ?_
        by_contra hbound
        rw [checkedRawRange_eq_ok.mpr ⟨rfl, not_le.mp hbound⟩] at hrange
        simp at hrange
      · obtain ⟨_, hstopped⟩ := hrest hd
        refine .inr (.inr fun x c hx hxstop hwritable hc hexec => ?_)
        refine (stored_tracked_iff hwf hd hstored).mp htracked x c hx ?_ hc hexec
        -- the write stopped at an address that may not be written, so behind `x`
        by_contra hxk
        exact (hstopped.denied hcopy (by omega)).2 (hwritable k hlow (by omega))

theorem memset_eq (ctx : Context) (s : Machine) (address : Nat) (value : UInt8) (len : Nat) :
    (address + len < u64Limit ∧
      intrinsicMemset ctx address value len s = writeGuest ctx address (List.replicate len value) s) ∨
    u64Limit ≤ address + len ∧ ∃ e, intrinsicMemset ctx address value len s = (.error e, s) := by
  unfold intrinsicMemset
  cases hrange : checkedRawRange address len with
  | ok stop => exact .inl ⟨(checkedRawRange_eq_ok.mp hrange).2, rfl⟩
  | error e =>
      refine .inr ⟨?_, _, rfl⟩
      by_contra hbound
      rw [checkedRawRange_eq_ok.mpr ⟨rfl, not_le.mp hbound⟩] at hrange
      simp at hrange

theorem memmove_eq (hwf : Wf ctx s) (hd : s.mem.Disjoint) (destination source len : Nat) :
    (∃ l, Flat.read s.cell source len = .ok l ∧ l.length = len ∧
      intrinsicMemmove ctx destination source len s = writeGuest ctx destination l s) ∨
    (∀ l, Flat.read s.cell source len ≠ .ok l) ∧
      ∃ e, intrinsicMemmove ctx destination source len s = (.error e, s) := by
  have hread := read_refines hwf hd source len
  unfold read at hread
  unfold intrinsicMemmove
  cases hflat : Flat.read s.cell source len with
  | ok l =>
      rw [hflat] at hread
      have hlen := (wp_ok (copyGuest_spec hwf source len .read) hread).2.2.1
      exact .inl ⟨l, rfl, hlen, run_bind_ok hread⟩
  | error e =>
      rw [hflat] at hread
      exact .inr ⟨by simp, _, run_bind_error hread⟩

theorem sliceMutBase_generation (hwf : Wf ctx s) (hd : s.mem.Disjoint) (start stop : Nat) :
    (s.TouchesCode start stop →
      (sliceMutBase s start stop).mem.executableWriteGeneration ≠ s.mem.executableWriteGeneration) ∧
    (¬ s.TouchesCode start stop → sliceMutBase s start stop = s) := by
  rw [← rangeOverlapsExecutable_iff hwf hd]
  unfold sliceMutBase
  refine ⟨fun h => ?_, fun h => ?_⟩
  · rw [if_pos h]
    exact recorded_generation_ne s
  · rw [if_neg h]

theorem sliceMut_tracked (hwf : Wf ctx s) (hd : s.mem.Disjoint) {address len : Nat}
    (update : List UInt8 → List UInt8)
    (hclean : CanCopy ctx s 1 ∨ ¬ s.TouchesCode address (address + len)) :
    SliceMutTracked s address len (sliceMut ctx address len update s) := by
  obtain ⟨hcode, hnocode⟩ := sliceMutBase_generation hwf hd address (address + len)
  have hspec := sliceMut_spec hwf address len update
  rcases hrun : sliceMut ctx address len update s with ⟨r, s'⟩
  cases r with
  | ok r =>
      cases r with
      | none =>
          have hdone := wp_ok hspec hrun
          obtain rfl : s' = s := hdone
          exact ⟨by simp, fun _ => rfl⟩
      | some l =>
          obtain ⟨_, _, ⟨rfl, rfl⟩ | ⟨_, hstored⟩⟩ := wp_ok hspec hrun
          · refine ⟨?_, fun _ => rfl⟩
            rintro ⟨x, ⟨_, hlow, hhigh⟩, _⟩
            omega
          · refine ⟨?_, fun hspared => ?_⟩
            · rintro ⟨x, ⟨_, hlow, hhigh⟩, hexec⟩
              rw [hstored.generation]
              exact hcode ⟨x, hlow, hhigh, hexec⟩
            · rw [hstored.generation, hnocode]
              rintro ⟨x, hlow, hhigh, hexec⟩
              exact hspared x ⟨⟨l, rfl⟩, hlow, hhigh⟩ hexec
  | error e =>
      refine ⟨by simp, fun _ => ?_⟩
      obtain ⟨_, ⟨rfl, _⟩ | ⟨hcowed, hrange⟩⟩ := wp_error hspec hrun
      · rfl
      · rcases hclean with hcopy | hnone
        · exact absurd (hrange hd) (hcopy.not_rangeError le_rfl)
        · rw [hcowed.neutral.generation, hnocode hnone]

end Call

/-- One page that may be read, written and executed. -/
def codePage : List (Nat × Event) := [(0, .call (.mmap (fixedMapping 0x2000000 0x1000 7)))]

theorem codePage_reached {s : Machine}
    (hs : ((World.initial freshMemory).run (Host.granting .windows) codePage).machine 0 = some s) :
    Wf (((World.initial freshMemory).run (Host.granting .windows) codePage).context (Host.granting .windows) 0) s ∧
      s.mem.Disjoint := by
  have hids : Along (Host.granting .windows) IdLeft (World.initial freshMemory) codePage :=
    ⟨idLeft_first (by decide +kernel) (by decide +kernel), trivial⟩
  have hrun : CleanRun (Host.granting .windows) (World.initial freshMemory) codePage := by
    refine Along.clean (fun e he requested => ?_) _ hids
    obtain rfl := List.mem_singleton.mp he
    simp
  exact hrun.reached (fun _ => rfl) withLayout_freshMemory hs

end Mcr.Memory
