import Mcr.Memory.Failure

/-!
# The flat guest memory

A guest memory is a partial map from addresses to cells, and the calls that read, write, unmap and
protect are operations on that map: what they return and what they leave is a function of the map
alone, however the same bytes are cut into VMAs and host allocations.
-/

namespace Mcr.Memory

open Prog World

/-! ### Operations on the flat memory -/

namespace Flat

variable (flat : Flat)

/-- The pages of `[start, stop)` taken out. -/
def unmap (start stop : Nat) : Flat := fun x => if start ≤ x ∧ x < stop then none else flat x

/-- The pages of `[start, stop)` under a new protection. -/
def protect (start stop : Nat) (protection : GuestMemoryProtection) : Flat := fun x =>
  (flat x).map fun c => if start ≤ x ∧ x < stop then { c with protection } else c

def store (address : Nat) (bytes : List UInt8) : Flat := fun x =>
  (flat x).map fun c =>
    if address ≤ x ∧ x < address + bytes.length then { c with byte := layBytes address bytes x } else c

variable {flat}

theorem byte_ok_iff {p : GuestMemoryProtection → Bool} {x : Nat} {b : UInt8} :
    flat.byte p x = .ok b ↔ ∃ c, flat x = some c ∧ p c.protection = true ∧ c.byte = b := by
  unfold byte
  cases flat x with
  | none => simp
  | some c => by_cases h : p c.protection = true <;> simp [h]

theorem bytes_isOk_iff {p : GuestMemoryProtection → Bool} {x n : Nat} :
    (∃ l, flat.bytes p x n = .ok l) ↔
      ∀ y, x ≤ y → y < x + n → ∃ c, flat y = some c ∧ p c.protection = true := by
  constructor
  · rintro ⟨l, hl⟩ y hlow hhigh
    obtain ⟨_, hbyte⟩ := bytes_ok_iff.mp hl
    obtain ⟨c, hc, hp, _⟩ := byte_ok_iff.mp (hbyte (y - x) (by omega))
    rw [Nat.add_sub_cancel' hlow] at hc
    exact ⟨c, hc, hp⟩
  · intro h
    induction n generalizing x with
    | zero => exact ⟨[], rfl⟩
    | succ n ih =>
        obtain ⟨c, hc, hp⟩ := h x le_rfl (by omega)
        obtain ⟨rest, hrest⟩ := ih (x := x + 1) fun y hlow hhigh => h y (by omega) (by omega)
        exact ⟨c.byte :: rest, bytes_succ_ok.mpr ⟨c.byte, rest, byte_ok_iff.mpr ⟨c, hc, hp, rfl⟩, hrest, rfl⟩⟩

/-- A string is the readable bytes before a readable NUL that comes within the limit. -/
theorem cString_ok_iff {x n : Nat} {l : List UInt8} :
    flat.cString x n = .ok l ↔
      l.length < n ∧ (0 : UInt8) ∉ l ∧ flat.bytes (·.read) x (l.length + 1) = .ok (l ++ [0]) := by
  induction n generalizing x l with
  | zero => simp [cString]
  | succ n ih =>
      rw [cString]
      cases hb : flat.byte (·.read) x with
      | error e =>
          have : flat.bytes (·.read) x (l.length + 1) = .error e := bytes_error hb (Nat.succ_pos _)
          simp [bind, Except.bind, this]
      | ok b =>
          simp only [bind, Except.bind]
          by_cases hzero : b = 0
          · subst hzero
            rw [if_pos rfl]
            constructor
            · intro h
              obtain rfl : [] = l := Except.ok.inj h
              exact ⟨Nat.succ_pos n, by simp, by simp [bytes, hb, bind, Except.bind, pure, Except.pure]⟩
            · rintro ⟨_, hmem, hbytes⟩
              obtain ⟨b', rest, hb', _, heq⟩ := bytes_succ_ok.mp hbytes
              obtain rfl := Except.ok.inj (hb.symm.trans hb')
              cases l with
              | nil => rfl
              | cons c l =>
                  rw [List.cons_append, List.cons.injEq] at heq
                  exact absurd heq.1 (fun h => hmem (by simp [h]))
          · rw [if_neg hzero]
            constructor
            · intro h
              cases hr : flat.cString (x + 1) n with
              | error e => simp [hr] at h
              | ok rest =>
                  simp only [hr] at h
                  obtain rfl : b :: rest = l := Except.ok.inj h
                  obtain ⟨hlen, hmem, hbytes⟩ := ih.mp hr
                  refine ⟨by simpa using hlen, by simp [hmem, Ne.symm hzero], ?_⟩
                  exact bytes_succ_ok.mpr ⟨b, rest ++ [0], hb, hbytes, rfl⟩
            · rintro ⟨hlen, hmem, hbytes⟩
              obtain ⟨b', rest, hb', hrest, heq⟩ := bytes_succ_ok.mp hbytes
              obtain rfl := Except.ok.inj (hb.symm.trans hb')
              cases l with
              | nil => simp_all
              | cons c l =>
                  rw [List.cons_append, List.cons.injEq] at heq
                  obtain ⟨rfl, rfl⟩ := heq
                  have hl : flat.cString (x + 1) n = .ok l :=
                    ih.mpr ⟨by simpa using hlen, fun h => hmem (List.mem_cons_of_mem _ h), hrest⟩
                  simp [hl, pure, Except.pure]

end Flat

/-! ### The calls on the flat memory -/

/-- What each call returns and leaves, as a function of the flat memory. A copy that the call needs may
be refused by the host or find no allocation id left; it then fails without a visible change. -/
structure RefinesFlat (ctx : Context) (s : Machine) : Prop where
  munmap : ∀ addr length, (Memory.munmap addr length).wp
    (fun _ s' => ∃ stop, checkedPageRange addr length = .ok stop ∧ s'.cell = Flat.unmap s.cell addr stop)
    (fun e s' => s'.cell = s.cell ∧ ∃ error, checkedPageRange addr length = .error error ∧ e = .error error) s
  mprotect_notMapped : ∀ addr length prot protection stop,
    GuestMemoryProtection.fromLinux prot = .ok protection → length ≠ 0 →
    checkedPageRange addr length = .ok stop →
    ((Memory.mprotect ctx addr length prot s).1 = .error (.error .notMapped) ↔
      ∃ x, addr ≤ x ∧ x < stop ∧ s.cell x = none)
  mprotect : ∀ addr length prot, (Memory.mprotect ctx addr length prot).wp
    (fun _ s' => ∃ protection, GuestMemoryProtection.fromLinux prot = .ok protection ∧
      (length = 0 ∧ s'.cell = s.cell ∨
        ∃ stop, checkedPageRange addr length = .ok stop ∧ s'.cell = Flat.protect s.cell addr stop protection))
    (fun e s' => s'.cell = s.cell ∧ ∀ protection stop,
      GuestMemoryProtection.fromLinux prot = .ok protection → length ≠ 0 →
      checkedPageRange addr length = .ok stop → (∀ x, addr ≤ x → x < stop → s.cell x ≠ none) →
      RangeError ctx s (stop - addr) e) s
  read : ∀ address len, Memory.read address len s = ((Flat.read s.cell address len).mapError .error, s)
  read_ok : ∀ address len, address < u64Limit → ((∃ l, (Memory.read address len s).1 = .ok l) ↔
    ∀ x, address ≤ x → x < address + len → s.Allows (·.read) x)
  write : ∀ address bytes, (Memory.write ctx address bytes).wp
    (fun _ s' => (∀ x, address ≤ x → x < address + bytes.length → s.Allows (·.write) x) ∧
      s'.cell = Flat.store s.cell address bytes) (fun _ _ => True) s
  slice : ∀ address len, (Memory.slice address len).wp
    (fun r s' => s' = s ∧ ∀ l, r = some l → Flat.read s.cell address len = .ok l)
    (fun e s' => s' = s ∧ ∃ error, e = .error error ∧ Flat.read s.cell address len = .error error) s
  sliceMut : ∀ address len update, (Memory.sliceMut ctx address len update).wp
    (fun r s' => (r = none → s'.cell = s.cell) ∧
      ∀ l, r = some l → Flat.bytes s.cell (·.write) address len = .ok l ∧
        s'.cell = Flat.store s.cell address ((update l).take len))
    (fun _ s' => s'.cell = s.cell) s
  readCStringBytes : ∀ address maxLen l, (Memory.readCStringBytes address maxLen s).1 = .ok l ↔
    l.length < maxLen ∧ (0 : UInt8) ∉ l ∧ Flat.bytes s.cell (·.read) address (l.length + 1) = .ok (l ++ [0])

section Refines

variable {ctx : Context} {s : Machine}

theorem munmap_refines (hwf : Wf ctx s) (hd : s.mem.Disjoint) (addr length : Nat) :
    (munmap addr length).wp
      (fun _ s' => ∃ stop, checkedPageRange addr length = .ok stop ∧ s'.cell = Flat.unmap s.cell addr stop)
      (fun e s' => s'.cell = s.cell ∧ ∃ error, checkedPageRange addr length = .error error ∧ e = .error error)
      s := by
  refine wp_mono (munmap_spec addr length) (fun _ s' h => ?_) (fun e s' h => ⟨by rw [h.1], h.2⟩)
  obtain ⟨stop, hstop, rfl⟩ := h
  refine ⟨stop, hstop, ?_⟩
  obtain ⟨haddr, hstopAligned, _⟩ := checkedPageRange_ok hstop
  funext x
  apply Option.ext
  intro c
  rw [(unmapRange_wf hwf haddr hstopAligned).cell_eq_some_iff (unmapRange_disjoint hwf haddr hd),
    unmapRange_shows hwf hd haddr hstopAligned, ← hwf.cell_eq_some_iff hd, Flat.unmap]
  by_cases hx : addr ≤ x ∧ x < stop
  · simp [hx]
  · rw [if_neg hx]
    exact and_iff_left hx

theorem Protected.cell {s' : Machine} {start stop : Nat} {protection : GuestMemoryProtection}
    (h : Protected ctx s s' start stop protection) (hwf : Wf ctx s) (hd : s.mem.Disjoint) :
    s'.cell = Flat.protect s.cell start stop protection := by
  funext x
  apply Option.ext
  intro c
  rw [h.kept.wf.cell_eq_some_iff (h.kept.disjoint hd), h.shows hd, Flat.protect, Option.map_eq_some_iff]
  refine exists_congr fun c₀ => ?_
  rw [hwf.cell_eq_some_iff hd, eq_comm]

theorem RangeError.ne_notMapped {count : Nat} {e : Abort} (h : RangeError ctx s count e) :
    e ≠ .error .notMapped := by
  rcases h with ⟨_, _, _, rfl⟩ | ⟨_, _, _, rfl⟩ | ⟨rfl, _⟩ <;> simp

theorem mprotect_refines (hwf : Wf ctx s) (hd : s.mem.Disjoint) (addr length : Nat) (prot : UInt32) :
    (mprotect ctx addr length prot).wp
      (fun _ s' => ∃ protection, GuestMemoryProtection.fromLinux prot = .ok protection ∧
        (length = 0 ∧ s'.cell = s.cell ∨
          ∃ stop, checkedPageRange addr length = .ok stop ∧ s'.cell = Flat.protect s.cell addr stop protection))
      (fun e s' => s'.cell = s.cell ∧ ∀ protection stop,
        GuestMemoryProtection.fromLinux prot = .ok protection → length ≠ 0 →
        checkedPageRange addr length = .ok stop → (∀ x, addr ≤ x → x < stop → s.cell x ≠ none) →
        RangeError ctx s (stop - addr) e) s := by
  refine wp_mono (mprotect_spec hwf addr length prot) (fun _ s' h => ?_) (fun e s' h => ⟨?_, ?_⟩)
  · obtain ⟨protection, hprot, ⟨hzero, rfl⟩ | ⟨_, stop, hstop, _, hprotected⟩⟩ := h
    · exact ⟨protection, hprot, .inl ⟨hzero, rfl⟩⟩
    · exact ⟨protection, hprot, .inr ⟨stop, hstop, hprotected.cell hwf hd⟩⟩
  · funext x
    exact h.1.neutral.cell hwf hd h.1.wf x
  · intro protection stop hprot hlength hstop hmapped
    have hlt := (checkedPageRange_ok hstop).2.2.1
    rcases h.2 with ⟨_, h, _⟩ | ⟨_, _, h, _⟩ | ⟨_, _, h, hunmapped, _⟩ | ⟨_, _, h, _, hcause⟩
    · rw [hprot] at h
      simp at h
    · rw [hstop] at h
      simp at h
    · obtain rfl := Except.ok.inj (hstop.symm.trans h)
      rw [(isRangeMapped_iff hwf hd hlt).mpr hmapped] at hunmapped
      simp at hunmapped
    · obtain rfl := Except.ok.inj (hstop.symm.trans h)
      exact hcause

theorem mprotect_notMapped_iff (hwf : Wf ctx s) (hd : s.mem.Disjoint) {addr length stop : Nat} {prot : UInt32}
    {protection : GuestMemoryProtection} (hprot : GuestMemoryProtection.fromLinux prot = .ok protection)
    (hlength : length ≠ 0) (hstop : checkedPageRange addr length = .ok stop) :
    (mprotect ctx addr length prot s).1 = .error (.error .notMapped) ↔
      ∃ x, addr ≤ x ∧ x < stop ∧ s.cell x = none := by
  have hlt := (checkedPageRange_ok hstop).2.2.1
  have hunmapped : (∃ x, addr ≤ x ∧ x < stop ∧ s.cell x = none) ↔ s.mem.isRangeMapped addr stop = false := by
    rw [← Bool.not_eq_true, isRangeMapped_iff hwf hd hlt]
    push Not
    rfl
  rw [hunmapped]
  have hspec := mprotect_spec hwf addr length prot
  rcases hrun : mprotect ctx addr length prot s with ⟨r, s'⟩
  cases r with
  | ok u =>
      obtain ⟨_, _, ⟨hzero, _⟩ | ⟨_, stop', hstop', hmapped, _⟩⟩ := wp_ok hspec hrun
      · exact absurd hzero hlength
      · obtain rfl := Except.ok.inj (hstop.symm.trans hstop')
        simp [hmapped]
  | error e =>
      rcases (wp_error hspec hrun).2 with ⟨_, h, _⟩ | ⟨_, _, h, _⟩ | ⟨_, _, h, hmapped, rfl⟩ | ⟨_, _, h, hmapped, hcause⟩
      · rw [hprot] at h
        simp at h
      · rw [hstop] at h
        simp at h
      · obtain rfl := Except.ok.inj (hstop.symm.trans h)
        simp [hmapped]
      · obtain rfl := Except.ok.inj (hstop.symm.trans h)
        simp [hmapped, hcause.ne_notMapped]

theorem eq_of_wp_flat {α : Type} {m : MemM α} {r : Except GuestMemoryError α}
    (h : m.wp (fun a s' => s' = s ∧ r = .ok a) (fun e s' => s' = s ∧ ∃ error, e = .error error ∧ r = .error error) s) :
    m s = (r.mapError .error, s) := by
  rcases hrun : m s with ⟨result, s'⟩
  cases result with
  | ok a =>
      obtain ⟨rfl, rfl⟩ := wp_ok h hrun
      rfl
  | error e =>
      obtain ⟨rfl, error, rfl, rfl⟩ := wp_error h hrun
      rfl

theorem read_refines (hwf : Wf ctx s) (hd : s.mem.Disjoint) (address len : Nat) :
    read address len s = ((Flat.read s.cell address len).mapError .error, s) :=
  eq_of_wp_flat (read_spec hwf hd address len)

/-- No address from the end of the address space on is mapped. -/
theorem Wf.cell_bounded (hwf : Wf ctx s) {x : Nat} {c : Cell} (h : s.cell x = some c) : x + 1 < u64Limit := by
  cases hv : s.mem.vmaContaining x with
  | none =>
      rw [hwf.cell_eq_none_iff.mpr hv] at h
      simp at h
  | some v =>
      obtain ⟨_, _, hhigh, hwv⟩ := hwf.vma_of_containing hv
      have := hwv.bounded
      omega

theorem read_ok_iff (hwf : Wf ctx s) (hd : s.mem.Disjoint) {address len : Nat} (haddress : address < u64Limit) :
    (∃ l, (read address len s).1 = .ok l) ↔ ∀ x, address ≤ x → x < address + len → s.Allows (·.read) x := by
  rw [read_refines hwf hd]
  unfold Machine.Allows
  rw [← Flat.bytes_isOk_iff]
  have hok : ∀ r : Except GuestMemoryError (List UInt8),
      (∃ l, (r.mapError Abort.error) = .ok l) ↔ ∃ l, r = .ok l := by
    intro r
    cases r <;> simp [Except.mapError]
  rw [hok, Flat.read]
  by_cases hbound : address + len < u64Limit
  · rw [checkedRawRange_eq_ok.mpr ⟨rfl, hbound⟩]
    rfl
  · -- the last byte of a range that ends past the address space is not mapped
    have herror : ∀ stop, checkedRawRange address len ≠ .ok stop := by
      intro stop hstop
      exact hbound (checkedRawRange_eq_ok.mp hstop).2
    refine iff_of_false ?_ ?_
    · rintro ⟨l, hl⟩
      cases hrange : checkedRawRange address len with
      | ok stop => exact herror stop hrange
      | error e => simp [hrange, bind, Except.bind] at hl
    · intro hbytes
      obtain ⟨c, hc, _⟩ := Flat.bytes_isOk_iff.mp hbytes (address + len - 1) (by omega) (by omega)
      have := hwf.cell_bounded hc
      omega

theorem Stored.cell_store {s' : Machine} {address : Nat} {bytes : List UInt8}
    (h : Stored ctx s s' address (address + bytes.length) (layBytes address bytes)) (hwf : Wf ctx s)
    (hd : s.mem.Disjoint) : s'.cell = Flat.store s.cell address bytes := by
  funext x
  rw [h.cell hwf hd]
  rfl

theorem afterWrite_cell (t : Machine) (touched : Bool) : (afterWrite t touched).cell = t.cell := by
  cases touched <;> rfl

theorem write_refines (hwf : Wf ctx s) (hd : s.mem.Disjoint) (address : Nat) (bytes : List UInt8) :
    (write ctx address bytes).wp
      (fun _ s' => (∀ x, address ≤ x → x < address + bytes.length → s.Allows (·.write) x) ∧
        s'.cell = Flat.store s.cell address bytes) (fun _ _ => True) s := by
  refine wp_mono (writeGuest_spec hwf address bytes) (fun _ s' h => ?_) (fun _ _ _ => trivial)
  obtain ⟨_, t, touched, rfl, hstored, hrest⟩ := h
  refine ⟨(hrest hd).1, ?_⟩
  rw [afterWrite_cell]
  exact hstored.cell_store hwf hd

theorem slice_refines (hwf : Wf ctx s) (hd : s.mem.Disjoint) (address len : Nat) :
    (slice address len).wp
      (fun r s' => s' = s ∧ ∀ l, r = some l → Flat.read s.cell address len = .ok l)
      (fun e s' => s' = s ∧ ∃ error, e = .error error ∧ Flat.read s.cell address len = .error error) s := by
  refine wp_mono (guestSlice_spec hwf address len .read) (fun r s' h => ?_) (fun e s' h => ?_)
  · obtain ⟨rfl, hbound, hl⟩ := h
    refine ⟨rfl, fun l hsome => ?_⟩
    rw [Flat.read, checkedRawRange_eq_ok.mpr ⟨rfl, hbound⟩]
    exact (hl l hsome).2 hd
  · obtain ⟨rfl, error, rfl, hrange | ⟨hbound, hbytes⟩⟩ := h
    · refine ⟨rfl, error, rfl, ?_⟩
      rw [Flat.read, hrange]
      rfl
    · refine ⟨rfl, error, rfl, ?_⟩
      rw [Flat.read, checkedRawRange_eq_ok.mpr ⟨rfl, hbound⟩]
      exact hbytes

theorem sliceMut_refines (hwf : Wf ctx s) (hd : s.mem.Disjoint) (address len : Nat)
    (update : List UInt8 → List UInt8) :
    (sliceMut ctx address len update).wp
      (fun r s' => (r = none → s'.cell = s.cell) ∧
        ∀ l, r = some l → Flat.bytes s.cell (·.write) address len = .ok l ∧
          s'.cell = Flat.store s.cell address ((update l).take len))
      (fun _ s' => s'.cell = s.cell) s := by
  have hwf' := sliceMutBase_wf hwf address (address + len)
  have hd' := (sliceMutBase_kept hwf address (address + len)).disjoint hd
  refine wp_mono (sliceMut_spec hwf address len update) (fun r s' h => ?_) (fun e s' h => ?_)
  · cases r with
    | none =>
        refine ⟨fun _ => ?_, by simp⟩
        rw [show s' = s from h]
    | some l =>
        obtain ⟨_, hbytes, hstored⟩ := h
        refine ⟨by simp, fun l' hl' => ?_⟩
        obtain rfl := Option.some.inj hl'
        refine ⟨hbytes hd, ?_⟩
        rcases hstored with ⟨rfl, rfl⟩ | ⟨_, hstored⟩
        · funext x
          have hout : ¬ (address ≤ x ∧ x < address) := by omega
          simp [Flat.store, hout]
        · have htaken : Stored ctx (sliceMutBase s address (address + len)) s' address
              (address + ((update l).take len).length) (layBytes address ((update l).take len)) := by
            refine hstored.congr fun x hlow hhigh => (getD_take ?_).symm
            have := List.length_take_le len (update l)
            omega
          rw [htaken.cell_store hwf' hd', sliceMutBase_cell]
  · obtain ⟨_, ⟨rfl, _⟩ | ⟨hcowed, _⟩⟩ := h
    · rfl
    · funext x
      rw [hcowed.neutral.cell hwf' hd' hcowed.wf, sliceMutBase_cell]

theorem readCStringBytes_refines (hwf : Wf ctx s) (hd : s.mem.Disjoint) (address maxLen : Nat) :
    readCStringBytes address maxLen s = ((Flat.cString s.cell address maxLen).mapError .error, s) :=
  eq_of_wp_flat (readCStringBytes_spec hwf hd address maxLen)

theorem refinesFlat_of_wf (hwf : Wf ctx s) (hd : s.mem.Disjoint) : RefinesFlat ctx s where
  munmap := munmap_refines hwf hd
  mprotect_notMapped _ _ _ _ _ hprot hlength hstop := mprotect_notMapped_iff hwf hd hprot hlength hstop
  mprotect := mprotect_refines hwf hd
  read := read_refines hwf hd
  read_ok _ _ := read_ok_iff hwf hd
  write := write_refines hwf hd
  slice := slice_refines hwf hd
  sliceMut := sliceMut_refines hwf hd
  readCStringBytes address maxLen l := by
    rw [readCStringBytes_refines hwf hd, ← Flat.cString_ok_iff]
    cases Flat.cString s.cell address maxLen <;> simp [Except.mapError]

end Refines

/-! ### Two cuts of one flat memory -/

/-- The two processes cannot be told apart by what the calls return, nor by what they leave. -/
structure SameResults (ctx ctx' : Context) (s t : Machine) : Prop where
  munmap : ∀ addr length, (Memory.munmap addr length s).1 = (Memory.munmap addr length t).1 ∧
    (Memory.munmap addr length s).2.cell = (Memory.munmap addr length t).2.cell
  mprotect : ∀ addr length prot,
    ((Memory.mprotect ctx addr length prot s).1 = .error (.error .notMapped) ↔
      (Memory.mprotect ctx' addr length prot t).1 = .error (.error .notMapped)) ∧
    ((Memory.mprotect ctx addr length prot s).1 = .ok () → (Memory.mprotect ctx' addr length prot t).1 = .ok () →
      (Memory.mprotect ctx addr length prot s).2.cell = (Memory.mprotect ctx' addr length prot t).2.cell)
  read : ∀ address len, (Memory.read address len s).1 = (Memory.read address len t).1
  write : ∀ address bytes, (Memory.write ctx address bytes s).1 = .ok () →
    (Memory.write ctx' address bytes t).1 = .ok () →
    (Memory.write ctx address bytes s).2.cell = (Memory.write ctx' address bytes t).2.cell
  slice : ∀ address len l l', (Memory.slice address len s).1 = .ok (some l) →
    (Memory.slice address len t).1 = .ok (some l') → l = l'
  sliceMut : ∀ address len update l l', (Memory.sliceMut ctx address len update s).1 = .ok (some l) →
    (Memory.sliceMut ctx' address len update t).1 = .ok (some l') → l = l' ∧
    (Memory.sliceMut ctx address len update s).2.cell = (Memory.sliceMut ctx' address len update t).2.cell
  readCStringBytes : ∀ address maxLen,
    (Memory.readCStringBytes address maxLen s).1 = (Memory.readCStringBytes address maxLen t).1

section Cuts

variable {ctx ctx' : Context} {s t : Machine}

theorem munmap_sameResults (hs : RefinesFlat ctx s) (ht : RefinesFlat ctx' t) (hcell : t.cell = s.cell)
    (addr length : Nat) : (munmap addr length s).1 = (munmap addr length t).1 ∧
      (munmap addr length s).2.cell = (munmap addr length t).2.cell := by
  have h := hs.munmap addr length
  have h' := ht.munmap addr length
  rcases hrun : munmap addr length s with ⟨r, s'⟩
  rcases hrun' : munmap addr length t with ⟨r', t'⟩
  cases r with
  | ok u =>
      obtain ⟨stop, hstop, hleft⟩ := wp_ok h hrun
      cases r' with
      | ok u' =>
          obtain ⟨stop', hstop', hleft'⟩ := wp_ok h' hrun'
          obtain rfl := Except.ok.inj (hstop.symm.trans hstop')
          exact ⟨rfl, by rw [hleft, hleft', hcell]⟩
      | error e' =>
          obtain ⟨_, error, herror, _⟩ := wp_error h' hrun'
          rw [hstop] at herror
          simp at herror
  | error e =>
      obtain ⟨hleft, error, herror, rfl⟩ := wp_error h hrun
      cases r' with
      | ok u' =>
          obtain ⟨stop', hstop', _⟩ := wp_ok h' hrun'
          rw [herror] at hstop'
          simp at hstop'
      | error e' =>
          obtain ⟨hleft', error', herror', rfl⟩ := wp_error h' hrun'
          obtain rfl := Except.error.inj (herror.symm.trans herror')
          exact ⟨rfl, by rw [hleft, hleft', hcell]⟩

/-- Whether a request is rejected for an unmapped page is read off the request and the flat memory. -/
theorem mprotect_notMapped_congr (hwf : Wf ctx s) (hd : s.mem.Disjoint) (hwf' : Wf ctx' t)
    (hd' : t.mem.Disjoint) (hcell : t.cell = s.cell) (addr length : Nat) (prot : UInt32) :
    (mprotect ctx addr length prot s).1 = .error (.error .notMapped) ↔
      (mprotect ctx' addr length prot t).1 = .error (.error .notMapped) := by
  cases hprot : GuestMemoryProtection.fromLinux prot with
  | error e =>
      have hearly : ∀ ctx s, mprotect ctx addr length prot s = (.error (.error e), s) := by
        intro ctx s
        rw [mprotect, hprot]
        rfl
      rw [hearly, hearly]
  | ok protection =>
      by_cases hzero : length = 0
      · have hearly : ∀ ctx s, mprotect ctx addr length prot s = (.ok (), s) := by
          intro ctx s
          simp only [mprotect, hprot, hzero, if_true]
          rfl
        rw [hearly, hearly]
      · cases hstop : checkedPageRange addr length with
        | error e =>
            have hearly : ∀ ctx s, mprotect ctx addr length prot s = (.error (.error e), s) := by
              intro ctx s
              simp only [mprotect, hprot, hzero, if_false, hstop]
              rfl
            rw [hearly, hearly]
        | ok stop =>
            rw [mprotect_notMapped_iff hwf hd hprot hzero hstop, mprotect_notMapped_iff hwf' hd' hprot hzero hstop,
              hcell]

theorem mprotect_cell_congr (hs : RefinesFlat ctx s) (ht : RefinesFlat ctx' t) (hcell : t.cell = s.cell)
    {addr length : Nat} {prot : UInt32} (hok : (mprotect ctx addr length prot s).1 = .ok ())
    (hok' : (mprotect ctx' addr length prot t).1 = .ok ()) :
    (mprotect ctx addr length prot s).2.cell = (mprotect ctx' addr length prot t).2.cell := by
  obtain ⟨protection, hprot, hleft⟩ := wp_ok (hs.mprotect addr length prot) (run_eq hok)
  obtain ⟨protection', hprot', hleft'⟩ := wp_ok (ht.mprotect addr length prot) (run_eq hok')
  obtain rfl := Except.ok.inj (hprot.symm.trans hprot')
  rcases hleft with ⟨rfl, hleft⟩ | ⟨stop, hstop, hleft⟩
  · rcases hleft' with ⟨_, hleft'⟩ | ⟨stop', hstop', _⟩
    · rw [hleft, hleft', hcell]
    · simp [checkedPageRange] at hstop'
  · rcases hleft' with ⟨rfl, _⟩ | ⟨stop', hstop', hleft'⟩
    · simp [checkedPageRange] at hstop
    · obtain rfl := Except.ok.inj (hstop.symm.trans hstop')
      rw [hleft, hleft', hcell]

theorem sameResults_of_cell (hwf : Wf ctx s) (hd : s.mem.Disjoint) (hwf' : Wf ctx' t) (hd' : t.mem.Disjoint)
    (hcell : t.cell = s.cell) : SameResults ctx ctx' s t := by
  have hs := refinesFlat_of_wf hwf hd
  have ht := refinesFlat_of_wf hwf' hd'
  refine ⟨munmap_sameResults hs ht hcell, fun addr length prot => ⟨?_, ?_⟩, fun address len => ?_,
    fun address bytes hok hok' => ?_, fun address len l l' hl hl' => ?_,
    fun address len update l l' hl hl' => ?_, fun address maxLen => ?_⟩
  · exact mprotect_notMapped_congr hwf hd hwf' hd' hcell addr length prot
  · exact mprotect_cell_congr hs ht hcell
  · rw [hs.read, ht.read, hcell]
  · rw [(wp_ok (hs.write address bytes) (run_eq hok)).2, (wp_ok (ht.write address bytes) (run_eq hok')).2, hcell]
  · have h := (wp_ok (hs.slice address len) (run_eq hl)).2 l rfl
    have h' := (wp_ok (ht.slice address len) (run_eq hl')).2 l' rfl
    rw [hcell, h] at h'
    exact Except.ok.inj h'
  · obtain ⟨hbytes, hleft⟩ := (wp_ok (hs.sliceMut address len update) (run_eq hl)).2 l rfl
    obtain ⟨hbytes', hleft'⟩ := (wp_ok (ht.sliceMut address len update) (run_eq hl')).2 l' rfl
    rw [hcell, hbytes] at hbytes'
    obtain rfl := Except.ok.inj hbytes'
    exact ⟨rfl, by rw [hleft, hleft', hcell]⟩
  · rw [readCStringBytes_refines hwf hd, readCStringBytes_refines hwf' hd', hcell]

end Cuts

/-- Two pages of one mapping, of which the second alone may not be written. -/
def cutMapping : List (Nat × Event) :=
  [(0, .call (.mmap (fixedMapping 0x2000000 0x2000 3))), (0, .call (.mprotect 0x2001000 0x1000 1))]

/-- A block that may be written but not read, and one that is shared with a fork. -/
def writeOnlyPage : List (Nat × Event) :=
  [(0, .call (.mmap (fixedMapping 0x2000000 0x10000 2))), (0, .call (.mmap (fixedMapping 0x2040000 0x10000 1))),
    (0, .fork .flexible)]

end Mcr.Memory
