import Mathlib

/-!
# Finite maps ordered by key

A map is the list of its entries in strictly increasing key order, and carries the proof of it, so
iteration order and lookups determine each other. The lemmas describe every operation by what it
does to `get?`.
-/

namespace Mcr

/-- A finite map whose entries are listed in strictly increasing key order. -/
structure SortedMap (κ ν : Type) [LinearOrder κ] where
  entries : List (κ × ν)
  sorted : entries.Pairwise (fun a b => a.1 < b.1)

namespace SortedMap

variable {κ ν : Type} [LinearOrder κ]

def lookupList (k : κ) : List (κ × ν) → Option ν
  | [] => none
  | (j, v) :: rest => if j = k then some v else lookupList k rest

def insertList (k : κ) (v : ν) : List (κ × ν) → List (κ × ν)
  | [] => [(k, v)]
  | (j, w) :: rest =>
    if k < j then (k, v) :: (j, w) :: rest
    else if k = j then (k, v) :: rest
    else (j, w) :: insertList k v rest

theorem mem_insertList {k : κ} {v : ν} {e : κ × ν} {l : List (κ × ν)}
    (h : e ∈ insertList k v l) : e = (k, v) ∨ e ∈ l := by
  induction l with
  | nil => simpa [insertList] using h
  | cons hd tl ih =>
      obtain ⟨j, w⟩ := hd
      rw [insertList] at h
      split_ifs at h
      · simpa using h
      · rcases List.mem_cons.mp h with h | h
        · exact Or.inl h
        · exact Or.inr (List.mem_cons_of_mem _ h)
      · rcases List.mem_cons.mp h with h | h
        · exact Or.inr (h ▸ List.mem_cons_self)
        · exact (ih h).imp id (List.mem_cons_of_mem _)

theorem insertList_sorted {k : κ} {v : ν} {l : List (κ × ν)}
    (h : l.Pairwise (fun a b => a.1 < b.1)) :
    (insertList k v l).Pairwise (fun a b => a.1 < b.1) := by
  induction l with
  | nil => simp [insertList]
  | cons hd tl ih =>
      obtain ⟨j, w⟩ := hd
      obtain ⟨hhd, htl⟩ := List.pairwise_cons.mp h
      rw [insertList]
      split_ifs with hlt heq
      · refine List.pairwise_cons.mpr ⟨fun e he => ?_, h⟩
        rcases List.mem_cons.mp he with rfl | he
        · exact hlt
        · exact hlt.trans (hhd e he)
      · subst heq
        exact List.pairwise_cons.mpr ⟨hhd, htl⟩
      · refine List.pairwise_cons.mpr ⟨fun e he => ?_, ih htl⟩
        rcases mem_insertList he with rfl | he
        · exact lt_of_le_of_ne (not_lt.mp hlt) (Ne.symm heq)
        · exact hhd e he

def empty : SortedMap κ ν := ⟨[], List.Pairwise.nil⟩

def get? (m : SortedMap κ ν) (k : κ) : Option ν := lookupList k m.entries

def insert (m : SortedMap κ ν) (k : κ) (v : ν) : SortedMap κ ν :=
  ⟨insertList k v m.entries, insertList_sorted m.sorted⟩

def filter (m : SortedMap κ ν) (p : κ → ν → Bool) : SortedMap κ ν :=
  ⟨m.entries.filter (fun e => p e.1 e.2), m.sorted.filter _⟩

def erase (m : SortedMap κ ν) (k : κ) : SortedMap κ ν := m.filter (fun j _ => decide (j ≠ k))

def mapValues {μ : Type} (m : SortedMap κ ν) (f : κ → ν → μ) : SortedMap κ μ :=
  ⟨m.entries.map (fun e => (e.1, f e.1 e.2)), List.pairwise_map.mpr m.sorted⟩

/-- Change the value under a key, if there is one. -/
def modify (m : SortedMap κ ν) (k : κ) (f : ν → ν) : SortedMap κ ν :=
  match lookupList k m.entries with
  | some v => m.insert k (f v)
  | none => m

def keys (m : SortedMap κ ν) : List κ := m.entries.map Prod.fst

def values (m : SortedMap κ ν) : List ν := m.entries.map Prod.snd

/-- The entry with the greatest key. -/
def last? (m : SortedMap κ ν) : Option (κ × ν) := m.entries.getLast?

/-- The entry with the greatest key not above `x`. -/
def findLE? (m : SortedMap κ ν) (x : κ) : Option (κ × ν) :=
  (m.entries.filter (fun e => decide (e.1 ≤ x))).getLast?

def keysIn (m : SortedMap κ ν) (lo hi : κ) : List κ :=
  (m.entries.filter (fun e => decide (lo ≤ e.1 ∧ e.1 < hi))).map Prod.fst

/-! ### Lookups and entries -/

theorem lookupList_eq_some_iff {l : List (κ × ν)} (h : l.Pairwise (fun a b => a.1 < b.1))
    {k : κ} {v : ν} : lookupList k l = some v ↔ (k, v) ∈ l := by
  induction l with
  | nil => simp [lookupList]
  | cons hd tl ih =>
      obtain ⟨j, w⟩ := hd
      obtain ⟨hhd, htl⟩ := List.pairwise_cons.mp h
      rw [lookupList]
      split_ifs with hjk
      · subst hjk
        constructor
        · intro hw
          simp only [Option.some.injEq] at hw
          simp [hw]
        · intro hmem
          rcases List.mem_cons.mp hmem with he | he
          · simp only [Prod.mk.injEq, true_and] at he
            rw [he]
          · exact absurd (hhd _ he) (lt_irrefl _)
      · rw [ih htl]
        constructor
        · exact List.mem_cons_of_mem _
        · intro hmem
          rcases List.mem_cons.mp hmem with he | he
          · exact absurd (Prod.mk.inj he).1.symm hjk
          · exact he

theorem get?_eq_some_iff {m : SortedMap κ ν} {k : κ} {v : ν} :
    m.get? k = some v ↔ (k, v) ∈ m.entries :=
  lookupList_eq_some_iff m.sorted

theorem mem_values {m : SortedMap κ ν} {v : ν} : v ∈ m.values ↔ ∃ k, m.get? k = some v := by
  simp [values, get?_eq_some_iff]

theorem mem_keys {m : SortedMap κ ν} {k : κ} : k ∈ m.keys ↔ ∃ v, m.get? k = some v := by
  simp [keys, get?_eq_some_iff]

theorem keys_sorted (m : SortedMap κ ν) : m.keys.Pairwise (· < ·) :=
  List.pairwise_map.mpr m.sorted

theorem values_map_of_keys {m : SortedMap κ ν} {f : ν → κ} (h : ∀ k v, m.get? k = some v → f v = k) :
    m.values.map f = m.keys := by
  rw [values, keys, List.map_map]
  exact List.map_congr_left fun e hmem => h e.1 e.2 (get?_eq_some_iff.mpr hmem)

@[simp] theorem get?_empty (k : κ) : (empty : SortedMap κ ν).get? k = none := rfl

theorem lookupList_insertList (k j : κ) (v : ν) (l : List (κ × ν)) :
    lookupList j (insertList k v l) = if j = k then some v else lookupList j l := by
  induction l with
  | nil =>
      simp only [insertList, lookupList]
      exact if_congr eq_comm rfl rfl
  | cons hd tl ih =>
      obtain ⟨i, w⟩ := hd
      rw [insertList]
      by_cases hlt : k < i
      · rw [if_pos hlt, lookupList]
        exact if_congr eq_comm rfl rfl
      · rw [if_neg hlt]
        by_cases heq : k = i
        · subst heq
          rw [if_pos rfl, lookupList, lookupList]
          by_cases hjk : j = k
          · rw [if_pos hjk.symm, if_pos hjk]
          · rw [if_neg (Ne.symm hjk), if_neg hjk, if_neg (Ne.symm hjk)]
        · rw [if_neg heq, lookupList, ih, lookupList]
          by_cases hij : i = j
          · rw [if_pos hij, if_pos hij, if_neg (fun h => heq (h.symm.trans hij.symm))]
          · rw [if_neg hij, if_neg hij]

@[simp] theorem get?_insert (m : SortedMap κ ν) (k j : κ) (v : ν) :
    (m.insert k v).get? j = if j = k then some v else m.get? j :=
  lookupList_insertList k j v m.entries

@[simp] theorem get?_modify (m : SortedMap κ ν) (k j : κ) (f : ν → ν) :
    (m.modify k f).get? j = if j = k then (m.get? k).map f else m.get? j := by
  rw [modify, get?, get?, get?]
  by_cases hj : j = k
  · subst hj
    cases hv : lookupList j m.entries with
    | none => simp [hv]
    | some v => simpa [get?] using get?_insert m j j (f v)
  · cases hv : lookupList k m.entries with
    | none => simp [hj]
    | some v => simpa [get?, hj] using get?_insert m k j (f v)

theorem get?_filter (m : SortedMap κ ν) (p : κ → ν → Bool) (k : κ) :
    (m.filter p).get? k = (m.get? k).filter (p k) := by
  apply Option.ext
  intro v
  rw [get?_eq_some_iff, Option.filter_eq_some_iff, get?_eq_some_iff]
  simp [filter]

theorem get?_filter_eq_some {m : SortedMap κ ν} {p : κ → ν → Bool} {k : κ} {v : ν} :
    (m.filter p).get? k = some v ↔ m.get? k = some v ∧ p k v = true := by
  rw [get?_filter, Option.filter_eq_some_iff]

@[simp] theorem get?_erase (m : SortedMap κ ν) (k j : κ) :
    (m.erase k).get? j = if j = k then none else m.get? j := by
  rw [erase, get?_filter]
  by_cases h : j = k
  · simp [h]
  · rw [if_neg h]
    cases m.get? j <;> simp [Option.filter, h]

@[simp] theorem get?_mapValues {μ : Type} (m : SortedMap κ ν) (f : κ → ν → μ) (k : κ) :
    (m.mapValues f).get? k = (m.get? k).map (f k) := by
  apply Option.ext
  intro v
  rw [get?_eq_some_iff, Option.map_eq_some_iff]
  simp only [mapValues, List.mem_map, Prod.mk.injEq, Prod.exists, get?_eq_some_iff]
  constructor
  · rintro ⟨j, w, hmem, rfl, hv⟩
    exact ⟨w, hmem, hv⟩
  · rintro ⟨w, hmem, hv⟩
    exact ⟨k, w, hmem, rfl, hv⟩

theorem get?_foldl_insert {l : List (κ × ν)} (h : (l.map Prod.fst).Nodup) (m : SortedMap κ ν) {k : κ}
    {v : ν} : (l.foldl (fun m e => m.insert e.1 e.2) m).get? k = some v ↔
      (k, v) ∈ l ∨ k ∉ l.map Prod.fst ∧ m.get? k = some v := by
  induction l generalizing m with
  | nil => simp
  | cons e rest ih =>
      rw [List.map_cons, List.nodup_cons] at h
      rw [List.foldl_cons, ih h.2, get?_insert, List.map_cons, List.mem_cons, List.mem_cons, not_or]
      by_cases hk : k = e.1
      · subst hk
        have hrest : (e.1, v) ∉ rest := fun hmem => h.1 (List.mem_map.mpr ⟨_, hmem, rfl⟩)
        simp [h.1, hrest, Prod.ext_iff, eq_comm]
      · simp [hk, Prod.ext_iff]

/-! ### Maps with related values -/

theorem lookupList_eq_none {k : κ} {l : List (κ × ν)} (h : ∀ e ∈ l, e.1 ≠ k) : lookupList k l = none := by
  induction l with
  | nil => rfl
  | cons e rest ih =>
      obtain ⟨j, v⟩ := e
      rw [lookupList, if_neg (h (j, v) (by simp))]
      exact ih fun e he => h e (List.mem_cons_of_mem _ he)

theorem forall₂_entries {μ : Type} {r : ν → μ → Prop} {m : SortedMap κ ν} {m' : SortedMap κ μ}
    (h : ∀ k, Option.Rel r (m.get? k) (m'.get? k)) :
    List.Forall₂ (fun e e' => e.1 = e'.1 ∧ r e.2 e'.2) m.entries m'.entries := by
  obtain ⟨l, hl⟩ := m
  obtain ⟨l', hl'⟩ := m'
  simp only [get?] at h
  show List.Forall₂ _ l l'
  induction l generalizing l' with
  | nil =>
      cases l' with
      | nil => exact .nil
      | cons e' rest' =>
          obtain ⟨k, v⟩ := e'
          have hk := h k
          simp [lookupList] at hk
  | cons e rest ih =>
      obtain ⟨k, v⟩ := e
      cases l' with
      | nil =>
          have hk := h k
          simp [lookupList] at hk
      | cons e' rest' =>
          obtain ⟨k', v'⟩ := e'
          rw [List.pairwise_cons] at hl hl'
          -- each head is at most the other, since it is found there
          have hkey : k = k' := by
            rcases lt_trichotomy k k' with hlt | heq | hgt
            · have hk := h k
              rw [lookupList, if_pos rfl, lookupList_eq_none (fun e he => ?_)] at hk
              · nomatch hk
              · rcases List.mem_cons.mp he with rfl | he
                · exact hlt.ne'
                · exact (hlt.trans (hl'.1 e he)).ne'
            · exact heq
            · have hk := h k'
              rw [lookupList_eq_none (l := (k, v) :: rest) (fun e he => ?_), lookupList, if_pos rfl] at hk
              · nomatch hk
              · rcases List.mem_cons.mp he with rfl | he
                · exact hgt.ne'
                · exact (hgt.trans (hl.1 e he)).ne'
          subst hkey
          have hhead : r v v' := by
            have hk := h k
            rw [lookupList, if_pos rfl, lookupList, if_pos rfl] at hk
            cases hk with
            | some hr => exact hr
          refine .cons ⟨rfl, hhead⟩ (ih hl.2 rest' hl'.2 fun j => ?_)
          by_cases hj : k = j
          · subst hj
            rw [lookupList_eq_none (l := rest) fun e he => (hl.1 e he).ne',
              lookupList_eq_none (l := rest') fun e he => (hl'.1 e he).ne']
            exact .none
          · have hk := h j
            rw [lookupList, if_neg hj, lookupList, if_neg hj] at hk
            exact hk

theorem ext_get? {m m' : SortedMap κ ν} (h : ∀ k, m.get? k = m'.get? k) : m = m' := by
  have hrel : ∀ k, Option.Rel (· = ·) (m.get? k) (m'.get? k) := by
    intro k
    rw [h k]
    cases m'.get? k with
    | none => exact .none
    | some v => exact .some rfl
  have hentries := forall₂_entries hrel
  obtain ⟨l, hl⟩ := m
  obtain ⟨l', hl'⟩ := m'
  congr
  refine List.forall₂_eq_eq_eq ▸ hentries.imp fun e e' he => ?_
  exact Prod.ext he.1 he.2

theorem insert_insert (m : SortedMap κ ν) (k : κ) (v v' : ν) : (m.insert k v).insert k v' = m.insert k v' := by
  apply ext_get?
  intro j
  simp only [get?_insert]
  split <;> rfl

/-! ### Counting values -/

theorem countP_values (m : SortedMap κ ν) (p : ν → Bool) :
    m.values.countP p = (m.entries.filter (fun e => p e.2)).length := by
  unfold values
  rw [List.countP_map, List.countP_eq_length_filter]
  rfl

theorem countP_values_eq_one {m : SortedMap κ ν} {p : ν → Bool} {k : κ} {v : ν}
    (hget : m.get? k = some v) (hp : p v = true)
    (huniq : ∀ j w, m.get? j = some w → p w = true → j = k) : m.values.countP p = 1 := by
  rw [countP_values]
  have hall : ∀ e ∈ m.entries.filter (fun e => p e.2), e = (k, v) := by
    rintro ⟨j, w⟩ he
    obtain ⟨hmem, hpw⟩ := List.mem_filter.mp he
    have hw := get?_eq_some_iff.mpr hmem
    obtain rfl := huniq j w hw hpw
    rw [Option.some.inj (hw.symm.trans hget)]
  have hmem : (k, v) ∈ m.entries.filter (fun e => p e.2) :=
    List.mem_filter.mpr ⟨get?_eq_some_iff.mp hget, hp⟩
  have hnodup : (m.entries.filter (fun e => p e.2)).Nodup :=
    (m.sorted.imp fun hlt heq => absurd (congrArg Prod.fst heq) hlt.ne).filter _
  rw [List.eq_replicate_of_mem hall] at hnodup hmem
  have hle := List.nodup_replicate.mp hnodup
  have hpos := List.length_pos_of_mem hmem
  rw [List.length_replicate] at hpos
  omega

theorem unique_of_countP_values_eq_one {m : SortedMap κ ν} {p : ν → Bool} (h : m.values.countP p = 1)
    {j k : κ} {v w : ν} (hv : m.get? k = some v) (hpv : p v = true) (hw : m.get? j = some w)
    (hpw : p w = true) : j = k := by
  rw [countP_values] at h
  obtain ⟨e, he⟩ := List.length_eq_one_iff.mp h
  have hk : (k, v) ∈ m.entries.filter (fun e => p e.2) :=
    List.mem_filter.mpr ⟨get?_eq_some_iff.mp hv, hpv⟩
  have hj : (j, w) ∈ m.entries.filter (fun e => p e.2) :=
    List.mem_filter.mpr ⟨get?_eq_some_iff.mp hw, hpw⟩
  rw [he, List.mem_singleton] at hk hj
  exact congrArg Prod.fst (hj.trans hk.symm)

def total (m : SortedMap κ ν) (weight : ν → Nat) : Nat := (m.values.map weight).sum

@[simp] theorem total_empty (weight : ν → Nat) : (empty : SortedMap κ ν).total weight = 0 := rfl

theorem total_eq_zero_iff {m : SortedMap κ ν} {weight : ν → Nat} :
    m.total weight = 0 ↔ ∀ k v, m.get? k = some v → weight v = 0 := by
  rw [total, List.sum_eq_zero_iff_forall_eq_nat, List.forall_mem_map]
  constructor
  · exact fun h k v hk => h v (mem_values.mpr ⟨k, hk⟩)
  · intro h v hv
    obtain ⟨k, hk⟩ := mem_values.mp hv
    exact h k v hk

theorem erase_of_none {m : SortedMap κ ν} {k : κ} (h : m.get? k = none) : m.erase k = m := by
  refine ext_get? fun j => ?_
  rw [get?_erase]
  split
  · rename_i hj
    rw [hj, h]
  · rfl

theorem total_erase {m : SortedMap κ ν} {k : κ} {v : ν} (h : m.get? k = some v) (weight : ν → Nat) :
    m.total weight = weight v + (m.erase k).total weight := by
  obtain ⟨l, hsorted⟩ := m
  obtain ⟨before, after, rfl⟩ := List.append_of_mem (get?_eq_some_iff.mp h)
  have hbefore : ∀ e ∈ before, e.1 ≠ k := fun e he =>
    ((List.pairwise_append.mp hsorted).2.2 e he (k, v) List.mem_cons_self).ne
  have hafter : ∀ e ∈ after, e.1 ≠ k := fun e he =>
    ((List.pairwise_cons.mp (List.pairwise_append.mp hsorted).2.1).1 e he).ne'
  have hfilter : (before ++ (k, v) :: after).filter (fun e => decide (e.1 ≠ k)) = before ++ after := by
    rw [List.filter_append, List.filter_cons, if_neg (by simp),
      List.filter_eq_self.mpr (fun e he => decide_eq_true (hbefore e he)),
      List.filter_eq_self.mpr (fun e he => decide_eq_true (hafter e he))]
  simp only [total, values, erase, filter, hfilter, List.map_append, List.map_cons, List.sum_append, List.sum_cons]
  omega

theorem total_insert (m : SortedMap κ ν) (k : κ) (v : ν) (weight : ν → Nat) :
    (m.insert k v).total weight = weight v + (m.erase k).total weight := by
  rw [total_erase (k := k) (v := v) (by simp) weight]
  congr 2
  refine ext_get? fun j => ?_
  by_cases hj : j = k <;> simp [hj]

theorem total_rename {m m' : SortedMap κ ν} {f : κ → κ}
    (hnames : ∀ q v, m'.get? q = some v ↔ ∃ p, m.get? p = some v ∧ q = f p)
    (hinj : ∀ p q v w, m.get? p = some v → m.get? q = some w → f p = f q → p = q) (weight : ν → Nat) :
    m'.total weight = m.total weight := by
  have hnodup : ∀ m : SortedMap κ ν, m.entries.Nodup := fun m =>
    m.sorted.imp fun hlt heq => hlt.ne (congrArg Prod.fst heq)
  have hrenamed : (m.entries.map fun e => (f e.1, e.2)).Nodup := by
    refine List.Nodup.map_on ?_ (hnodup m)
    rintro ⟨p, v⟩ hp ⟨q, w⟩ hq heq
    obtain ⟨hf, rfl⟩ := Prod.mk.inj heq
    rw [hinj p q v v (get?_eq_some_iff.mpr hp) (get?_eq_some_iff.mpr hq) hf]
  have hperm : m'.entries.Perm (m.entries.map fun e => (f e.1, e.2)) := by
    refine (List.perm_ext_iff_of_nodup (hnodup m') hrenamed).mpr ?_
    rintro ⟨q, v⟩
    rw [← get?_eq_some_iff, hnames, List.mem_map]
    constructor
    · rintro ⟨p, hp, rfl⟩
      exact ⟨(p, v), get?_eq_some_iff.mp hp, rfl⟩
    · rintro ⟨⟨p, w⟩, hp, heq⟩
      obtain ⟨rfl, rfl⟩ := Prod.mk.inj heq
      exact ⟨p, get?_eq_some_iff.mpr hp, rfl⟩
  have hsum := (hperm.map fun e : κ × ν => weight e.2).sum_nat
  rw [List.map_map] at hsum
  simpa [total, values, Function.comp_def] using hsum

theorem mem_keysIn {m : SortedMap κ ν} {lo hi k : κ} :
    k ∈ m.keysIn lo hi ↔ (∃ v, m.get? k = some v) ∧ lo ≤ k ∧ k < hi := by
  simp only [keysIn, List.mem_map, List.mem_filter, decide_eq_true_eq, Prod.exists,
    exists_and_right, exists_eq_right, get?_eq_some_iff]

/-! ### The greatest key below a bound -/

theorem keysIn_nodup (m : SortedMap κ ν) (lo hi : κ) : (m.keysIn lo hi).Nodup := by
  unfold keysIn
  rw [List.Nodup, List.pairwise_map]
  exact (m.sorted.filter _).imp fun h => h.ne

theorem getLast?_of_sorted {l : List (κ × ν)} (h : l.Pairwise (fun a b => a.1 < b.1))
    {e : κ × ν} : l.getLast? = some e ↔ e ∈ l ∧ ∀ e' ∈ l, e'.1 ≤ e.1 := by
  constructor
  · intro hlast
    obtain ⟨ys, hl⟩ := List.getLast?_eq_some_iff.mp hlast
    subst hl
    refine ⟨by simp, fun e' he' => ?_⟩
    rcases List.mem_append.mp he' with he' | he'
    · exact (List.pairwise_append.mp h).2.2 e' he' e (by simp) |>.le
    · rw [List.mem_singleton.mp he']
  · rintro ⟨hmem, hmax⟩
    have hne : l ≠ [] := List.ne_nil_of_mem hmem
    rw [List.getLast?_eq_some_getLast hne]
    have hsplit : l.dropLast ++ [l.getLast hne] = l := List.dropLast_append_getLast hne
    by_contra hcontra
    have hne' : e ≠ l.getLast hne := fun he => hcontra (by rw [← he])
    have hmem' : e ∈ l.dropLast := by
      rw [← hsplit] at hmem
      rcases List.mem_append.mp hmem with h' | h'
      · exact h'
      · exact absurd (List.mem_singleton.mp h') hne'
    rw [← hsplit] at h
    have hlt := (List.pairwise_append.mp h).2.2 e hmem' (l.getLast hne) (by simp)
    exact absurd (hmax _ (List.getLast_mem hne)) (not_le.mpr hlt)

theorem last?_eq_some_iff {m : SortedMap κ ν} {k : κ} {v : ν} :
    m.last? = some (k, v) ↔ m.get? k = some v ∧ ∀ j w, m.get? j = some w → j ≤ k := by
  rw [last?, getLast?_of_sorted m.sorted, get?_eq_some_iff]
  refine and_congr_right fun _ => ?_
  simp only [get?_eq_some_iff, Prod.forall]

theorem findLE?_eq_some_iff {m : SortedMap κ ν} {x k : κ} {v : ν} :
    m.findLE? x = some (k, v) ↔
      m.get? k = some v ∧ k ≤ x ∧ ∀ j w, m.get? j = some w → j ≤ x → j ≤ k := by
  rw [findLE?, getLast?_of_sorted (m.sorted.filter _), get?_eq_some_iff]
  simp only [List.mem_filter, decide_eq_true_eq, Prod.forall, get?_eq_some_iff, and_assoc]
  refine and_congr_right fun _ => and_congr_right fun _ => ?_
  simp only [and_imp]

end SortedMap

end Mcr
