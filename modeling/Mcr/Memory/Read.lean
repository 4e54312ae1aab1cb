import Mcr.Memory.Tables

/-!
# Reading a flat guest memory

The flat guest memory is a partial map from addresses to cells. Its reads go byte by byte; the program
reads chunk by chunk, each chunk inside one VMA, and ends the same way on every cut of the table.
-/

namespace Mcr.Memory

open Prog

/-! ### The flat memory -/

/-- What a guest sees at each address. -/
abbrev Flat := Nat → Option Cell

namespace Flat

variable (flat : Flat) (p : GuestMemoryProtection → Bool)

def byte (x : Nat) : Except GuestMemoryError UInt8 :=
  match flat x with
  | none => .error .notMapped
  | some c => if p c.protection then .ok c.byte else .error .accessDenied

/-- The bytes `[x, x + n)`, or the error of the first one that may not be accessed. -/
def bytes : Nat → Nat → Except GuestMemoryError (List UInt8)
  | _, 0 => .ok []
  | x, n + 1 => do
    let b ← flat.byte p x
    let rest ← bytes (x + 1) n
    pure (b :: rest)

def read (address len : Nat) : Except GuestMemoryError (List UInt8) := do
  let _ ← checkedRawRange address len
  flat.bytes (·.read) address len

/-- The bytes before the first NUL, which must come within `maxLen` bytes. -/
def cString : Nat → Nat → Except GuestMemoryError (List UInt8)
  | _, 0 => .error .invalidLength
  | x, n + 1 => do
    let b ← flat.byte (·.read) x
    if b = 0 then pure []
    else
      let rest ← cString (x + 1) n
      pure (b :: rest)

variable {flat p}

theorem bytes_succ_ok {x n : Nat} {l : List UInt8} :
    flat.bytes p x (n + 1) = .ok l ↔
      ∃ b rest, flat.byte p x = .ok b ∧ flat.bytes p (x + 1) n = .ok rest ∧ l = b :: rest := by
  rw [bytes]
  cases hb : flat.byte p x with
  | error e => simp [bind, Except.bind]
  | ok b =>
      cases hr : flat.bytes p (x + 1) n with
      | error e => simp [bind, Except.bind]
      | ok rest => simp [bind, Except.bind, pure, Except.pure, eq_comm]

theorem bytes_append {x m : Nat} {l : List UInt8} (h : flat.bytes p x m = .ok l) (n : Nat) :
    flat.bytes p x (m + n) = (flat.bytes p (x + m) n).map (l ++ ·) := by
  induction m generalizing x l with
  | zero =>
      simp only [bytes, Except.ok.injEq] at h
      subst h
      rw [Nat.zero_add, Nat.add_zero]
      cases flat.bytes p x n <;> rfl
  | succ m ih =>
      obtain ⟨b, rest, hb, hr, rfl⟩ := bytes_succ_ok.mp h
      rw [Nat.add_right_comm, bytes, hb, ih hr, show x + 1 + m = x + (m + 1) by omega]
      cases flat.bytes p (x + (m + 1)) n <;> rfl

theorem bytes_length {x n : Nat} {l : List UInt8} (h : flat.bytes p x n = .ok l) : l.length = n := by
  induction n generalizing x l with
  | zero =>
      simp only [bytes, Except.ok.injEq] at h
      simp [← h]
  | succ n ih =>
      obtain ⟨b, rest, _, hr, rfl⟩ := bytes_succ_ok.mp h
      rw [List.length_cons, ih hr]

theorem bytes_error {x n : Nat} {e : GuestMemoryError} (h : flat.byte p x = .error e) (hn : 0 < n) :
    flat.bytes p x n = .error e := by
  obtain ⟨n, rfl⟩ := Nat.exists_eq_succ_of_ne_zero hn.ne'
  rw [bytes, h]
  rfl

theorem bytes_ok_iff {x n : Nat} {l : List UInt8} :
    flat.bytes p x n = .ok l ↔ l.length = n ∧ ∀ i, i < n → flat.byte p (x + i) = .ok (l.getD i 0) := by
  induction n generalizing x l with
  | zero =>
      simp only [bytes, Except.ok.injEq, List.length_eq_zero_iff]
      constructor
      · rintro rfl
        exact ⟨rfl, fun i hi => absurd hi (by omega)⟩
      · exact fun h => h.1.symm
  | succ n ih =>
      rw [bytes_succ_ok]
      constructor
      · rintro ⟨b, rest, hb, hr, rfl⟩
        obtain ⟨hlen, hall⟩ := ih.mp hr
        refine ⟨by rw [List.length_cons, hlen], fun i hi => ?_⟩
        cases i with
        | zero => exact hb
        | succ i =>
            rw [show x + (i + 1) = x + 1 + i by omega]
            exact hall i (by omega)
      · rintro ⟨hlen, hall⟩
        obtain ⟨b, rest, rfl⟩ := List.exists_cons_of_length_eq_add_one hlen
        refine ⟨b, rest, hall 0 (by omega), ih.mpr ⟨by simpa using hlen, fun i hi => ?_⟩, rfl⟩
        rw [show x + 1 + i = x + (i + 1) by omega]
        exact hall (i + 1) (by omega)

theorem cString_append_nul {x m : Nat} {l : List UInt8} (h : flat.bytes (·.read) x m = .ok l) {nul : Nat}
    (hnul : l.findIdx? (· = 0) = some nul) (n : Nat) : flat.cString x (m + n) = .ok (l.take nul) := by
  induction m generalizing x l nul with
  | zero =>
      simp only [bytes, Except.ok.injEq] at h
      subst h
      simp at hnul
  | succ m ih =>
      obtain ⟨b, rest, hb, hr, rfl⟩ := bytes_succ_ok.mp h
      rw [Nat.add_right_comm, cString, hb]
      rw [List.findIdx?_cons] at hnul
      by_cases hzero : b = 0
      · simp only [hzero, decide_true, if_true, Option.some.injEq] at hnul
        subst hnul
        simp [bind, Except.bind, hzero, pure, Except.pure]
      · simp only [hzero, decide_false, Bool.false_eq_true, if_false, Option.map_eq_some_iff] at hnul
        obtain ⟨k, hk, rfl⟩ := hnul
        simp [bind, Except.bind, hzero, ih hr hk, pure, Except.pure]

theorem cString_append {x m : Nat} {l : List UInt8} (h : flat.bytes (·.read) x m = .ok l)
    (hnul : l.findIdx? (· = 0) = none) (n : Nat) :
    flat.cString x (m + n) = (flat.cString (x + m) n).map (l ++ ·) := by
  induction m generalizing x l with
  | zero =>
      simp only [bytes, Except.ok.injEq] at h
      subst h
      rw [Nat.zero_add, Nat.add_zero]
      cases flat.cString x n <;> rfl
  | succ m ih =>
      obtain ⟨b, rest, hb, hr, rfl⟩ := bytes_succ_ok.mp h
      rw [List.findIdx?_cons] at hnul
      have hzero : b ≠ 0 := by
        rintro rfl
        simp at hnul
      simp only [hzero, decide_false, Bool.false_eq_true, if_false, Option.map_eq_none_iff] at hnul
      rw [Nat.add_right_comm, cString, hb, show x + (m + 1) = x + 1 + m by omega]
      simp only [bind, Except.bind, hzero, if_false, ih hr hnul]
      cases flat.cString (x + 1 + m) n <;> rfl

end Flat

/-! ### Permissions -/

def AccessKind.allows : AccessKind → GuestMemoryProtection → Bool
  | .read => (·.read)
  | .write => (·.write)

theorem AccessKind.check_ok {access : AccessKind} {protection : GuestMemoryProtection} {u : Unit}
    (h : access.check protection = .ok u) : access.allows protection = true := by
  cases access <;> by_contra hno <;> simp_all [AccessKind.check, AccessKind.allows]

theorem AccessKind.check_error {access : AccessKind} {protection : GuestMemoryProtection}
    {e : GuestMemoryError} (h : access.check protection = .error e) :
    access.allows protection = false ∧ e = .accessDenied := by
  cases access
  · cases hp : protection.read <;> simp_all [AccessKind.check, AccessKind.allows]
  · cases hp : protection.write <;> simp_all [AccessKind.check, AccessKind.allows]

/-- The address is mapped with a protection that passes the test. -/
def Machine.Allows (s : Machine) (p : GuestMemoryProtection → Bool) (x : Nat) : Prop :=
  ∃ c, s.cell x = some c ∧ p c.protection = true

section Access

variable {ctx : Context} {s : Machine} {v : GuestVma}

theorem Wf.allows_of_vma (hwf : Wf ctx s) (hd : s.mem.Disjoint) {x : Nat}
    (hget : s.mem.vmas.get? v.start = some v) (hlow : v.start ≤ x) (hhigh : x < v.stop)
    (p : GuestMemoryProtection → Bool) : s.Allows p x ↔ p v.protection = true := by
  obtain ⟨a, _, hcell⟩ := hwf.cell_of_containing (hwf.containing_of_vma hd hget hlow hhigh)
  unfold Machine.Allows
  simp [hcell]

/-- A chunk inside one VMA lies inside its allocation, and a disjoint table shows its bytes. -/
theorem chunk_spec (hwf : Wf ctx s) {cursor n : Nat} (hv : s.mem.vmaContaining cursor = some v)
    (hend : cursor + n ≤ v.stop) {p : GuestMemoryProtection → Bool} (hp : p v.protection = true)
    {Q : List UInt8 → Machine → Prop} {E : Abort → Machine → Prop}
    (hQ : ∀ l : List UInt8, l.length = n → (s.mem.Disjoint → Flat.bytes s.cell p cursor n = .ok l) → Q l s) :
    (allocationBytes v.allocationId (guestSliceOffset v cursor) n).wp Q E s := by
  obtain ⟨hget, hlow, hhigh, hwv⟩ := hwf.vma_of_containing hv
  obtain ⟨a, ha, hlink, hstop⟩ := hwv.linked
  have hoffset : guestSliceOffset v cursor + a.guestStart = cursor := by
    unfold guestSliceOffset
    omega
  have hbuffer : s.buffer v.allocationId = some (s.heap.object a.memory) := by
    rw [Machine.buffer, ha, Option.map_some]
  rw [wp_allocationBytes, hbuffer]
  simp only
  rw [if_pos (by omega)]
  refine hQ _ (by rw [ByteBuf.toList_length, ByteBuf.extract_len]) fun hd =>
    Flat.bytes_ok_iff.mpr ⟨by rw [ByteBuf.toList_length, ByteBuf.extract_len], fun i hi => ?_⟩
  obtain ⟨a', ha', hcell⟩ := hwf.cell_of_containing (hwf.containing_of_vma (x := cursor + i) hd hget
    (by omega) (by omega))
  obtain rfl := Option.some.inj (ha.symm.trans ha')
  have hbyte : ((s.heap.object a.memory).extract (guestSliceOffset v cursor) n).toList.getD i 0 =
      a.byteAt s.heap (cursor + i) := by
    rw [List.getD_eq_getElem?_getD, ByteBuf.toList, List.getElem?_map, ByteBuf.extract_len,
      List.getElem?_range hi]
    show (s.heap.object a.memory).byte (guestSliceOffset v cursor + i) = _
    unfold GuestAllocation.byteAt
    congr 1
    omega
  rw [hbyte, Flat.byte, hcell]
  simp [hp]

end Access

/-! ### `copy_guest` -/

section Copy

variable {ctx : Context} {s : Machine}

theorem flatByte_none (hwf : Wf ctx s) {x : Nat} (hv : s.mem.vmaContaining x = none)
    (p : GuestMemoryProtection → Bool) : Flat.byte s.cell p x = .error .notMapped := by
  rw [Flat.byte, hwf.cell_eq_none_iff.mpr hv]

theorem flatByte_denied (hwf : Wf ctx s) {x : Nat} {v : GuestVma} (hv : s.mem.vmaContaining x = some v)
    {p : GuestMemoryProtection → Bool} (hp : p v.protection = false) :
    Flat.byte s.cell p x = .error .accessDenied := by
  obtain ⟨a, _, hcell⟩ := hwf.cell_of_containing hv
  rw [Flat.byte, hcell]
  simp [hp]

/-- The loop returns what the flat memory holds from the cursor on, or its first error. -/
theorem copyGuestLoop_spec (hwf : Wf ctx s) (access : AccessKind) (stop : Nat) (fuel cursor : Nat)
    (copied : List UInt8) (hle : cursor ≤ stop) (hfuel : stop - cursor ≤ fuel) :
    (copyGuestLoop access stop fuel cursor copied).wp
      (fun l s' => s' = s ∧ copied.length + (stop - cursor) = l.length ∧ (s.mem.Disjoint →
        ∃ rest, l = copied ++ rest ∧ Flat.bytes s.cell access.allows cursor (stop - cursor) = .ok rest))
      (fun e s' => s' = s ∧ ∃ error, e = .error error ∧ (s.mem.Disjoint →
        Flat.bytes s.cell access.allows cursor (stop - cursor) = .error error)) s := by
  induction fuel generalizing cursor copied with
  | zero =>
      obtain rfl : cursor = stop := by omega
      rw [copyGuestLoop, wp_pure, Nat.sub_self]
      exact ⟨rfl, by omega, fun _ => ⟨[], by simp, rfl⟩⟩
  | succ fuel ih =>
      rw [copyGuestLoop, wp_ite]
      split
      swap
      · obtain rfl : cursor = stop := by omega
        rw [wp_pure, Nat.sub_self]
        exact ⟨rfl, by omega, fun _ => ⟨[], by simp, rfl⟩⟩
      rename_i hlt
      rw [wp_bind, wp_vmaAt]
      cases hv : s.mem.vmaContaining cursor with
      | none =>
          exact ⟨rfl, _, rfl, fun _ => Flat.bytes_error (flatByte_none hwf hv _) (by omega)⟩
      | some v =>
          obtain ⟨_, _, hhigh, _⟩ := hwf.vma_of_containing hv
          refine wp_check_bind (fun _ hcheck => ?_) (fun e he => ?_)
          swap
          · obtain ⟨hdenied, rfl⟩ := AccessKind.check_error he
            exact ⟨rfl, _, rfl, fun _ => Flat.bytes_error (flatByte_denied hwf hv hdenied) (by omega)⟩
          rw [wp_bind]
          have hsplit : min v.stop stop - cursor + (stop - (cursor + (min v.stop stop - cursor))) =
              stop - cursor := by omega
          refine chunk_spec hwf hv (by omega) (AccessKind.check_ok hcheck) fun l hlen hl => ?_
          refine wp_mono (ih _ (copied ++ l) (by omega) (by omega)) (fun r s' h => ?_) (fun e s' h => ?_)
          · obtain ⟨rfl, hr, hrest⟩ := h
            rw [List.length_append] at hr
            refine ⟨rfl, by omega, fun hd => ?_⟩
            obtain ⟨rest, rfl, hbytes⟩ := hrest hd
            refine ⟨l ++ rest, by rw [List.append_assoc], ?_⟩
            rw [← hsplit, Flat.bytes_append (hl hd), hbytes]
            rfl
          · obtain ⟨rfl, error, rfl, herror⟩ := h
            refine ⟨rfl, error, rfl, fun hd => ?_⟩
            rw [← hsplit, Flat.bytes_append (hl hd), herror hd]
            rfl

theorem copyGuest_spec (hwf : Wf ctx s) (address len : Nat) (access : AccessKind) :
    (copyGuest address len access).wp
      (fun l s' => s' = s ∧ address + len < u64Limit ∧ l.length = len ∧
        (s.mem.Disjoint → Flat.bytes s.cell access.allows address len = .ok l))
      (fun e s' => s' = s ∧ ∃ error, e = .error error ∧
        (checkedRawRange address len = .error error ∨
          address + len < u64Limit ∧
            (s.mem.Disjoint → Flat.bytes s.cell access.allows address len = .error error))) s := by
  unfold copyGuest
  refine wp_check_bind (fun stop hstop => ?_) (fun e he => ⟨rfl, e, rfl, .inl he⟩)
  obtain ⟨rfl, hbound⟩ := checkedRawRange_eq_ok.mp hstop
  have hspec := copyGuestLoop_spec hwf access (address + len) len address [] (by omega) (by omega)
  rw [Nat.add_sub_cancel_left] at hspec
  refine wp_mono hspec (fun l s' h => ?_) (fun e s' h => ?_)
  · obtain ⟨rfl, hlen, hrest⟩ := h
    refine ⟨rfl, hbound, by simpa using hlen.symm, fun hd => ?_⟩
    obtain ⟨rest, hl, hbytes⟩ := hrest hd
    rw [List.nil_append] at hl
    rw [hl, hbytes]
  · obtain ⟨rfl, error, rfl, herror⟩ := h
    exact ⟨rfl, error, rfl, .inr ⟨hbound, herror⟩⟩

theorem read_spec (hwf : Wf ctx s) (hd : s.mem.Disjoint) (address len : Nat) :
    (read address len).wp (fun l s' => s' = s ∧ Flat.read s.cell address len = .ok l)
      (fun e s' => s' = s ∧ ∃ error, e = .error error ∧ Flat.read s.cell address len = .error error) s := by
  unfold read
  refine wp_mono (copyGuest_spec hwf address len .read) (fun l s' h => ?_) (fun e s' h => ?_)
  · obtain ⟨rfl, hbound, _, hl⟩ := h
    refine ⟨rfl, ?_⟩
    rw [Flat.read, checkedRawRange_eq_ok.mpr ⟨rfl, hbound⟩]
    exact hl hd
  · obtain ⟨rfl, error, rfl, hrange | ⟨hbound, hbytes⟩⟩ := h
    · refine ⟨rfl, error, rfl, ?_⟩
      rw [Flat.read, hrange]
      rfl
    · refine ⟨rfl, error, rfl, ?_⟩
      rw [Flat.read, checkedRawRange_eq_ok.mpr ⟨rfl, hbound⟩]
      exact hbytes hd

end Copy

/-! ### `slice` and `read_c_string_bytes` -/

section Slice

variable {ctx : Context} {s : Machine}

/-- A borrowed slice shows what the flat memory holds; `none` only says that the range leaves its VMA. -/
theorem guestSlice_spec (hwf : Wf ctx s) (address len : Nat) (access : AccessKind) :
    (guestSlice address len access).wp
      (fun r s' => s' = s ∧ address + len < u64Limit ∧ ∀ l, r = some l → l.length = len ∧
        (s.mem.Disjoint → Flat.bytes s.cell access.allows address len = .ok l))
      (fun e s' => s' = s ∧ ∃ error, e = .error error ∧
        (checkedRawRange address len = .error error ∨
          address + len < u64Limit ∧ Flat.bytes s.cell access.allows address len = .error error)) s := by
  unfold guestSlice
  refine wp_check_bind (fun stop hstop => ?_) (fun e he => ⟨rfl, e, rfl, .inl he⟩)
  obtain ⟨rfl, hbound⟩ := checkedRawRange_eq_ok.mp hstop
  rw [wp_ite]
  split
  · rename_i hzero
    refine (wp_pure _).mpr ⟨rfl, hbound, fun l hl => ?_⟩
    obtain rfl := Option.some.inj hl
    subst hzero
    exact ⟨rfl, fun _ => rfl⟩
  rename_i hpos
  rw [wp_bind, wp_vmaAt]
  cases hv : s.mem.vmaContaining address with
  | none =>
      exact ⟨rfl, _, rfl, .inr ⟨hbound, Flat.bytes_error (flatByte_none hwf hv _) (by omega)⟩⟩
  | some v =>
      refine wp_check_bind (fun _ hcheck => ?_) (fun e he => ?_)
      swap
      · obtain ⟨hdenied, rfl⟩ := AccessKind.check_error he
        exact ⟨rfl, _, rfl, .inr ⟨hbound, Flat.bytes_error (flatByte_denied hwf hv hdenied) (by omega)⟩⟩
      rw [wp_ite]
      split
      · exact (wp_pure _).mpr ⟨rfl, hbound, by simp⟩
      · rename_i hend
        rw [wp_bind]
        refine chunk_spec hwf hv (by omega) (AccessKind.check_ok hcheck) fun l hlen hl => ?_
        refine (wp_pure _).mpr ⟨rfl, hbound, fun l' hl' => ?_⟩
        obtain rfl := Option.some.inj hl'
        exact ⟨hlen, hl⟩

theorem guestSlice_within (hwf : Wf ctx s) {address len : Nat} {v : GuestVma} {access : AccessKind}
    (hv : s.mem.vmaContaining address = some v) (hend : address + len ≤ v.stop) (hpos : 0 < len)
    (hallows : access.check v.protection = .ok ())
    {Q : Option (List UInt8) → Machine → Prop} {E : Abort → Machine → Prop}
    (hQ : ∀ l : List UInt8, l.length = len →
      (s.mem.Disjoint → Flat.bytes s.cell access.allows address len = .ok l) → Q (some l) s) :
    (guestSlice address len access).wp Q E s := by
  have hbounded := (hwf.vma_of_containing hv).2.2.2.bounded
  unfold guestSlice
  rw [checkedRawRange_eq_ok.mpr ⟨rfl, by omega⟩, wp_bind, wp_check]
  simp only
  rw [wp_ite, if_neg (by omega), wp_bind, wp_vmaAt, hv]
  simp only [hallows]
  rw [wp_bind, wp_check]
  simp only
  rw [wp_ite, if_neg (by omega), wp_bind]
  exact chunk_spec hwf hv (by omega) (AccessKind.check_ok hallows) fun l hlen hl =>
    (wp_pure _).mpr (hQ l hlen hl)

theorem readCStringLoop_spec (hwf : Wf ctx s) {maxLen : Nat} (fuel cursor : Nat) (bytes : List UInt8)
    (hle : bytes.length ≤ maxLen) (hfuel : maxLen - bytes.length < fuel) :
    (readCStringLoop maxLen fuel cursor bytes).wp
      (fun l s' => s' = s ∧ (s.mem.Disjoint →
        ∃ rest, l = bytes ++ rest ∧ Flat.cString s.cell cursor (maxLen - bytes.length) = .ok rest))
      (fun e s' => s' = s ∧ ∃ error, e = .error error ∧ (s.mem.Disjoint →
        Flat.cString s.cell cursor (maxLen - bytes.length) = .error error)) s := by
  induction fuel generalizing cursor bytes with
  | zero => omega
  | succ fuel ih =>
      rw [readCStringLoop, wp_ite]
      split
      swap
      · refine (wp_fail _).mpr ⟨rfl, _, rfl, fun _ => ?_⟩
        rw [show maxLen - bytes.length = 0 by omega]
        rfl
      rename_i hlt
      -- an address that may not be read ends the string with its error
      have hfirst : ∀ error, Flat.byte s.cell AccessKind.read.allows cursor = .error error →
          Flat.cString s.cell cursor (maxLen - bytes.length) = .error error := by
        intro error herror
        obtain ⟨n, hn⟩ := Nat.exists_eq_succ_of_ne_zero (show maxLen - bytes.length ≠ 0 by omega)
        change Flat.byte s.cell (·.read) cursor = _ at herror
        rw [hn, Flat.cString, herror]
        rfl
      rw [wp_bind, wp_vmaAt]
      cases hv : s.mem.vmaContaining cursor with
      | none => exact ⟨rfl, _, rfl, fun _ => hfirst _ (flatByte_none hwf hv _)⟩
      | some v =>
          obtain ⟨_, _, hhigh, hwv⟩ := hwf.vma_of_containing hv
          have hbounded := hwv.bounded
          refine wp_check_bind (fun u hcheck => ?_) (fun e he => ?_)
          swap
          · obtain ⟨hdenied, rfl⟩ := AccessKind.check_error he
            exact ⟨rfl, _, rfl, fun _ => hfirst _ (flatByte_denied hwf hv hdenied)⟩
          rw [wp_ite, if_neg (by omega), wp_bind]
          refine guestSlice_within hwf hv (by omega) (by omega) hcheck fun l hlen hl => ?_
          have hsplit : min (v.stop - cursor) (maxLen - bytes.length) +
              (maxLen - (bytes ++ l).length) = maxLen - bytes.length := by
            rw [List.length_append]
            omega
          simp only
          cases hnul : l.findIdx? (· = 0) with
          | some nul =>
              refine (wp_pure _).mpr ⟨rfl, fun hd => ⟨l.take nul, rfl, ?_⟩⟩
              rw [← hsplit]
              exact Flat.cString_append_nul (hl hd) hnul _
          | none =>
              simp only
              refine wp_check_bind (fun next hnext => ?_) (fun e he => ?_)
              swap
              · rw [checkedRawRange_eq_ok.mpr ⟨rfl, by omega⟩] at he
                simp at he
              obtain ⟨rfl, _⟩ := checkedRawRange_eq_ok.mp hnext
              rw [List.length_append] at hsplit
              refine wp_mono (ih _ (bytes ++ l) (by rw [List.length_append]; omega)
                (by rw [List.length_append]; omega)) (fun r s' h => ?_) (fun e s' h => ?_)
              · obtain ⟨rfl, hrest⟩ := h
                refine ⟨rfl, fun hd => ?_⟩
                obtain ⟨rest, rfl, hstring⟩ := hrest hd
                refine ⟨l ++ rest, by rw [List.append_assoc], ?_⟩
                rw [List.length_append] at hstring
                rw [← hsplit, Flat.cString_append (hl hd) hnul, hstring]
                rfl
              · obtain ⟨rfl, error, rfl, herror⟩ := h
                refine ⟨rfl, error, rfl, fun hd => ?_⟩
                have hstring := herror hd
                rw [List.length_append] at hstring
                rw [← hsplit, Flat.cString_append (hl hd) hnul, hstring]
                rfl

theorem readCStringBytes_spec (hwf : Wf ctx s) (hd : s.mem.Disjoint) (address maxLen : Nat) :
    (readCStringBytes address maxLen).wp (fun l s' => s' = s ∧ Flat.cString s.cell address maxLen = .ok l)
      (fun e s' => s' = s ∧ ∃ error, e = .error error ∧
        Flat.cString s.cell address maxLen = .error error) s := by
  unfold readCStringBytes
  refine wp_mono (readCStringLoop_spec hwf (maxLen + 1) address [] (Nat.zero_le _) (by simp)) (fun l s' h => ?_)
    (fun e s' h => ?_)
  · obtain ⟨rfl, hrest⟩ := h
    obtain ⟨rest, hl, hstring⟩ := hrest hd
    rw [List.nil_append] at hl
    exact ⟨rfl, by rw [hl]; exact hstring⟩
  · obtain ⟨rfl, error, rfl, herror⟩ := h
    exact ⟨rfl, error, rfl, herror hd⟩

end Slice

end Mcr.Memory
