import Mcr.Memory.Bytewise

/-!
# A list of stores

A routine that writes its fields one after the other leaves each of them behind when every field ends before the
next begins. Stores that stay in the range of the first one are a single store of that range.
-/

namespace Mcr.Memory.Flat

variable {flat : Flat}

/-- The bytes from `x` on are those of the list, whatever may be done with them. -/
def Shows (flat : Flat) (x : Nat) (l : List UInt8) : Prop :=
  ∀ i, i < l.length → ∃ c, flat (x + i) = some c ∧ c.byte = l.getD i 0

def storeAll (flat : Flat) (stores : List (Nat × List UInt8)) : Flat :=
  stores.foldl (fun flat store => flat.store store.1 store.2) flat

theorem storeAll_cons (x : Nat) (l : List UInt8) (stores : List (Nat × List UInt8)) :
    flat.storeAll ((x, l) :: stores) = (flat.store x l).storeAll stores := rfl

theorem Shows.bytes {p : GuestMemoryProtection → Bool} {x n : Nat} {l : List UInt8} (h : flat.Shows x l)
    (hn : l.length = n) (hp : flat.Permits p x n) : flat.bytes p x n = .ok l := by
  refine bytes_ok_iff.mpr ⟨hn, ?_⟩
  intro i hi
  obtain ⟨c, hc, hbyte⟩ := h i (by omega)
  obtain ⟨c', hc', hallowed⟩ := hp (x + i) (by omega) (by omega)
  obtain rfl := Option.some.inj (hc.symm.trans hc')
  exact byte_ok_iff.mpr ⟨c, hc, hallowed, hbyte⟩

theorem Shows.congr {flat' : Flat} {x : Nat} {l : List UInt8} (h : flat.Shows x l)
    (hsame : ∀ y, x ≤ y → y < x + l.length → (flat' y).map (·.byte) = (flat y).map (·.byte)) :
    flat'.Shows x l := by
  intro i hi
  obtain ⟨c, hc, hbyte⟩ := h i hi
  have hbytes := hsame (x + i) (by omega) (by omega)
  rw [hc] at hbytes
  obtain ⟨c', hc', heq⟩ := Option.map_eq_some_iff.mp hbytes
  exact ⟨c', hc', heq.trans hbyte⟩

theorem shows_store {p : GuestMemoryProtection → Bool} {x : Nat} {l : List UInt8} (h : flat.Permits p x l.length) :
    (flat.store x l).Shows x l := by
  intro i hi
  obtain ⟨c, hc, _⟩ := h (x + i) (by omega) (by omega)
  have hin : x ≤ x + i ∧ x + i < x + l.length := by omega
  refine ⟨{ c with byte := layBytes x l (x + i) }, ?_, ?_⟩
  · rw [store_apply, hc, Option.map_some, if_pos hin]
  · unfold layBytes
    rw [Nat.add_sub_cancel_left]

theorem Shows.store {x y : Nat} {l l' : List UInt8} (h : flat.Shows x l)
    (hapart : x + l.length ≤ y ∨ y + l'.length ≤ x) : (flat.store y l').Shows x l := by
  intro i hi
  obtain ⟨c, hc, hbyte⟩ := h i hi
  have hout : ¬(y ≤ x + i ∧ x + i < y + l'.length) := by omega
  refine ⟨c, ?_, hbyte⟩
  rw [store_apply, hc, Option.map_some, if_neg hout]

theorem Shows.storeAll {x : Nat} {l : List UInt8} {stores : List (Nat × List UInt8)} (h : flat.Shows x l)
    (hapart : ∀ store ∈ stores, x + l.length ≤ store.1) : (flat.storeAll stores).Shows x l := by
  induction stores generalizing flat with
  | nil => exact h
  | cons store stores ih =>
      apply @ih (flat.store store.1 store.2)
      · exact h.store (Or.inl (hapart store List.mem_cons_self))
      · intro later hlater
        exact hapart later (List.mem_cons_of_mem store hlater)

/-- A store ends before a later one begins. -/
def Before (earlier later : Nat × List UInt8) : Prop := earlier.1 + earlier.2.length ≤ later.1

def InOrder (stores : List (Nat × List UInt8)) : Prop := stores.Pairwise Before

theorem inOrder_of_chain {stores : List (Nat × List UInt8)} (h : stores.IsChain Before) : InOrder stores := by
  have htrans : IsTrans (Nat × List UInt8) Before := by
    constructor
    intro a b c hab hbc
    unfold Before at *
    omega
  exact List.isChain_iff_pairwise.mp h

theorem shows_storeAll {p : GuestMemoryProtection → Bool} {x : Nat} {l : List UInt8}
    {stores : List (Nat × List UInt8)} (horder : InOrder stores) (hmem : (x, l) ∈ stores)
    (h : flat.Permits p x l.length) : (flat.storeAll stores).Shows x l := by
  induction stores generalizing flat with
  | nil => cases hmem
  | cons store stores ih =>
      obtain ⟨hfirst, hrest⟩ := List.pairwise_cons.mp horder
      rcases List.mem_cons.mp hmem with rfl | hlater
      · exact (shows_store h).storeAll hfirst
      · exact @ih (flat.store store.1 store.2) hrest hlater (permits_store.mpr h)

theorem store_within {x y : Nat} {l l' : List UInt8} (hlow : x ≤ y) (hhigh : y + l'.length ≤ x + l.length) :
    ∃ l'' : List UInt8, l''.length = l.length ∧ (flat.store x l).store y l' = flat.store x l'' := by
  refine ⟨l.take (y - x) ++ (l' ++ l.drop (y - x + l'.length)), ?_, ?_⟩
  · simp only [List.length_append, List.length_take, List.length_drop]
    omega
  · have htake : (l.take (y - x)).length = y - x := by
      rw [List.length_take]
      omega
    funext z
    rw [store_apply, store_apply, store_apply]
    cases flat z with
    | none => rfl
    | some c =>
        simp only [Option.map_some, List.length_append, List.length_take, List.length_drop]
        unfold layBytes
        by_cases hinner : y ≤ z ∧ z < y + l'.length
        · have houter : x ≤ z ∧ z < x + (min (y - x) l.length + (l'.length + (l.length - (y - x + l'.length)))) := by
            omega
          rw [if_pos hinner, if_pos houter, List.getD_append_right _ _ _ _ (by omega), htake,
            List.getD_append _ _ _ _ (by omega), show z - x - (y - x) = z - y by omega]
          split <;> rfl
        · rw [if_neg hinner]
          by_cases houter : x ≤ z ∧ z < x + l.length
          · have houter' :
                x ≤ z ∧ z < x + (min (y - x) l.length + (l'.length + (l.length - (y - x + l'.length)))) := by
              omega
            rw [if_pos houter, if_pos houter']
            by_cases hbefore : z < y
            · rw [List.getD_append _ _ _ _ (by omega), getD_take (by omega)]
            · rw [List.getD_append_right _ _ _ _ (by omega), htake, List.getD_append_right _ _ _ _ (by omega),
                getD_drop, show y - x + l'.length + (z - x - (y - x) - l'.length) = z - x by omega]
          · have houter' :
                ¬(x ≤ z ∧ z < x + (min (y - x) l.length + (l'.length + (l.length - (y - x + l'.length))))) := by
              omega
            rw [if_neg houter, if_neg houter']

theorem storeAll_within {x : Nat} {l : List UInt8} {stores : List (Nat × List UInt8)}
    (h : ∀ store ∈ stores, x ≤ store.1 ∧ store.1 + store.2.length ≤ x + l.length) :
    ∃ l' : List UInt8, l'.length = l.length ∧ (flat.store x l).storeAll stores = flat.store x l' := by
  induction stores generalizing l with
  | nil => exact ⟨l, rfl, rfl⟩
  | cons store stores ih =>
      obtain ⟨hlow, hhigh⟩ := h store List.mem_cons_self
      obtain ⟨l', hlength, hstore⟩ :
          ∃ l' : List UInt8, l'.length = l.length ∧ (flat.store x l).store store.1 store.2 = flat.store x l' :=
        store_within hlow hhigh
      obtain ⟨l'', hlength', hstores⟩ := ih (l := l') fun later hlater =>
        hlength ▸ h later (List.mem_cons_of_mem store hlater)
      refine ⟨l'', hlength'.trans hlength, ?_⟩
      rw [storeAll_cons, hstore, hstores]

end Mcr.Memory.Flat
