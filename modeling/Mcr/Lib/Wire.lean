import Mcr.Lib.Prog

/-!
# Wires and their readers

A wire is a way to write values down such that what is written tells where it ends. A reader takes a value off the front
of what is left of its input; it reads a wire when it returns just the values it allows, and just when their written
form comes next. Wires are put together as their readers are, and so what a reader accepts is known without looking at
its steps.
-/

namespace Mcr

theorem append_prefix_iff {β : Type} {first second l : List β} :
    first ++ second <+: l ↔ first <+: l ∧ second <+: l.drop first.length := by
  constructor
  · rintro ⟨t, rfl⟩
    rw [List.append_assoc, List.drop_left]
    exact ⟨List.prefix_append _ _, List.prefix_append _ _⟩
  · rintro ⟨⟨t, rfl⟩, hnext⟩
    rw [List.drop_left] at hnext
    exact (List.prefix_append_right_inj first).mpr hnext

/-- Values as they are written; no value's form starts with that of another. -/
structure Wire (β ρ : Type) where
  write : ρ → List β
  valid : ρ → Prop
  alone : ∀ {a b l}, valid a → valid b → write a <+: l → write b <+: l → a = b

namespace Wire

variable {β ρ σ κ : Type}

theorem eq_of_prefix (W : Wire β ρ) {a b : ρ} (ha : W.valid a) (hb : W.valid b) (h : W.write a <+: W.write b) : a = b :=
  W.alone ha hb h (List.prefix_refl _)

/-- A field of `n` entries. -/
def fixed (β : Type) (n : Nat) : Wire β { l : List β // l.length = n } where
  write a := a.val
  valid _ := True
  alone {a b l} _ _ ha hb := by
    apply Subtype.ext
    rw [List.prefix_iff_eq_take.mp ha, List.prefix_iff_eq_take.mp hb, a.property, b.property]

/-- The same entries under another name. -/
def map (W : Wire β ρ) (parts : σ → ρ) (hparts : Function.Injective parts) : Wire β σ where
  write a := W.write (parts a)
  valid a := W.valid (parts a)
  alone ha hb hnext hnext' := hparts (W.alone ha hb hnext hnext')

def seq (W : Wire β ρ) (V : Wire β σ) : Wire β (ρ × σ) where
  write a := W.write a.1 ++ V.write a.2
  valid a := W.valid a.1 ∧ V.valid a.2
  alone {a b l} ha hb hnext hnext' := by
    rw [append_prefix_iff] at hnext hnext'
    have hfirst := W.alone ha.1 hb.1 hnext.1 hnext'.1
    rw [← hfirst] at hnext'
    exact Prod.ext hfirst (V.alone ha.2 hb.2 hnext.2 hnext'.2)

theorem many_alone (W : Wire β ρ) {as bs : List ρ} {l : List β} (ha : ∀ a ∈ as, W.valid a) (hb : ∀ b ∈ bs, W.valid b)
    (hlength : as.length = bs.length) (hnext : as.flatMap W.write <+: l) (hnext' : bs.flatMap W.write <+: l) :
    as = bs := by
  induction as generalizing bs l with
  | nil => exact (List.length_eq_zero_iff.mp hlength.symm).symm
  | cons a as ih =>
      obtain ⟨b, bs, rfl⟩ := List.exists_cons_of_length_eq_add_one hlength.symm
      rw [List.flatMap_cons, append_prefix_iff] at hnext hnext'
      rw [List.forall_mem_cons] at ha hb
      obtain rfl := W.alone ha.1 hb.1 hnext.1 hnext'.1
      rw [ih ha.2 hb.2 (Nat.succ.inj hlength) hnext.2 hnext'.2]

/-- Records behind their count. -/
def counted (C : Wire β κ) (size : κ → Nat) (ofSize : Nat → κ) (W : Wire β ρ) : Wire β (List ρ) where
  write as := C.write (ofSize as.length) ++ as.flatMap W.write
  valid as := C.valid (ofSize as.length) ∧ size (ofSize as.length) = as.length ∧ ∀ a ∈ as, W.valid a
  alone {as bs l} ha hb hnext hnext' := by
    rw [append_prefix_iff] at hnext hnext'
    have hcount := C.alone ha.1 hb.1 hnext.1 hnext'.1
    have hlength : as.length = bs.length := by rw [← ha.2.1, hcount, hb.2.1]
    rw [← hcount] at hnext'
    exact W.many_alone ha.2.2 hb.2.2 hlength hnext.2 hnext'.2

/-- A form from which the value can be read back, whatever comes behind it. -/
def ofReader (write : ρ → List β) (read : List β → Option ρ) (hread : ∀ a l, read (write a ++ l) = some a) :
    Wire β ρ where
  write := write
  valid _ := True
  alone {a b l} _ _ ha hb := by
    obtain ⟨t, rfl⟩ := ha
    obtain ⟨t', ht'⟩ := hb
    have hback := hread b t'
    rw [ht', hread a t] at hback
    exact Option.some.inj hback

/-- Nothing is written, for the one value there is. -/
def nothing (β : Type) : Wire β Unit := ofReader (fun _ => []) (fun _ => some ()) fun _ _ => rfl

def behind (mark : List β) (W : Wire β ρ) : Wire β ρ where
  write a := mark ++ W.write a
  valid := W.valid
  alone ha hb hnext hnext' := W.alone ha hb (append_prefix_iff.mp hnext).2 (append_prefix_iff.mp hnext').2

/-- No value is written where the mark stands. -/
def Avoids (W : Wire β ρ) (mark : List β) : Prop := ∀ a l, W.valid a → mark <+: l → ¬W.write a <+: l

theorem behind_avoids {mark other : List β} (W : Wire β ρ) (h : ¬mark <+: other) (h' : ¬other <+: mark) :
    (W.behind mark).Avoids other := by
  intro a l _ hother hnext
  rcases List.prefix_or_prefix_of_prefix (append_prefix_iff.mp hnext).1 hother with hle | hle
  · exact h hle
  · exact h' hle

theorem seq_avoids {mark : List β} {W : Wire β ρ} {V : Wire β σ} (h : W.Avoids mark) : (W.seq V).Avoids mark :=
  fun a l ha hmark hnext => h a.1 l ha.1 hmark (append_prefix_iff.mp hnext).1

/-- A value behind its mark, or nothing, before another value. -/
def optional (mark : List β) (W : Wire β ρ) (V : Wire β σ) (h : V.Avoids mark) : Wire β (Option ρ × σ) where
  write a := a.1.elim [] (W.behind mark).write ++ V.write a.2
  valid a := (∀ r ∈ a.1, W.valid r) ∧ V.valid a.2
  alone {a b l} ha hb hnext hnext' := by
    obtain ⟨r, s⟩ := a
    obtain ⟨r', s'⟩ := b
    rw [append_prefix_iff] at hnext hnext'
    cases r with
    | none =>
        cases r' with
        | none => exact congrArg (Prod.mk none) (V.alone ha.2 hb.2 hnext.2 hnext'.2)
        | some r' => exact absurd hnext.2 (h s l ha.2 (append_prefix_iff.mp hnext'.1).1)
    | some r =>
        cases r' with
        | none => exact absurd hnext'.2 (h s' l hb.2 (append_prefix_iff.mp hnext.1).1)
        | some r' =>
            obtain rfl := (W.behind mark).alone (ha.1 r rfl) (hb.1 r' rfl) hnext.1 hnext'.1
            exact congrArg (Prod.mk (some r)) (V.alone ha.2 hb.2 hnext.2 hnext'.2)

/-- Values up to a mark. -/
def upTo (W : Wire β ρ) (stop : List β) (hstop : W.Avoids stop) : Wire β (List ρ) where
  write as := as.flatMap W.write ++ stop
  valid as := ∀ a ∈ as, W.valid a
  alone {as bs l} ha hb hnext hnext' := by
    induction as generalizing bs l with
    | nil =>
        cases bs with
        | nil => rfl
        | cons b bs =>
            rw [List.flatMap_cons, List.append_assoc, append_prefix_iff] at hnext'
            exact absurd hnext'.1 (hstop b l (hb b List.mem_cons_self) hnext)
    | cons a as ih =>
        rw [List.flatMap_cons, List.append_assoc, append_prefix_iff] at hnext
        rw [List.forall_mem_cons] at ha
        cases bs with
        | nil => exact absurd hnext.1 (hstop a l ha.1 hnext')
        | cons b bs =>
            rw [List.flatMap_cons, List.append_assoc, append_prefix_iff] at hnext'
            rw [List.forall_mem_cons] at hb
            obtain rfl := W.alone ha.1 hb.1 hnext.1 hnext'.1
            rw [ih ha.2 hb.2 hnext.2 hnext'.2]

/-- Values with a separator between them, up to a mark. -/
def separated (sep stop : List β) (W : Wire β ρ) (hsep : ¬sep <+: stop) (hstop : ¬stop <+: sep) (h : W.Avoids stop) :
    Wire β (List ρ) where
  write as := as.head?.elim [] W.write ++ (as.tail.flatMap (W.behind sep).write ++ stop)
  valid as := ∀ a ∈ as, W.valid a
  alone {as bs l} ha hb hnext hnext' := by
    rw [append_prefix_iff] at hnext hnext'
    cases as with
    | nil =>
        cases bs with
        | nil => rfl
        | cons b bs => exact absurd hnext'.1 (h b l (hb b List.mem_cons_self) hnext.2)
    | cons a as =>
        rw [List.forall_mem_cons] at ha
        cases bs with
        | nil => exact absurd hnext.1 (h a l ha.1 hnext'.2)
        | cons b bs =>
            rw [List.forall_mem_cons] at hb
            obtain rfl := W.alone ha.1 hb.1 hnext.1 hnext'.1
            rw [((W.behind sep).upTo stop (W.behind_avoids hsep hstop)).alone ha.2 hb.2 hnext.2 hnext'.2]

/-- Entries of one kind, up to a value that begins with another. -/
def span (p : β → Bool) (V : Wire β σ) (h : ∀ s, V.valid s → ∃ c ∈ (V.write s).head?, p c = false) :
    Wire β ({ word : List β // word.all p } × σ) where
  write a := a.1.val ++ V.write a.2
  valid a := V.valid a.2
  alone {a b l} ha hb hnext hnext' := by
    have hword : ∀ c : { word : List β // word.all p } × σ, V.valid c.2 → c.1.val ++ V.write c.2 <+: l →
        c.1.val = l.takeWhile p := by
      rintro ⟨⟨word, hall⟩, s⟩ hs ⟨t, rfl⟩
      obtain ⟨c, hc, hnot⟩ := h s hs
      obtain ⟨rest, hrest⟩ := List.head?_eq_some_iff.mp hc
      rw [hrest, List.append_assoc, List.takeWhile_append_of_pos (List.all_eq_true.mp hall)]
      simp [hnot]
    have heq : a.1 = b.1 := Subtype.ext ((hword a ha hnext).trans (hword b hb hnext').symm)
    rw [append_prefix_iff] at hnext hnext'
    rw [← heq] at hnext'
    exact Prod.ext heq (V.alone ha hb hnext.2 hnext'.2)

end Wire

/-- A state that is read from front to back. -/
structure Tape (β σ : Type) where
  rest : σ → List β
  advance : σ → Nat → σ
  rest_advance : ∀ s n, rest (advance s n) = (rest s).drop n
  advance_zero : ∀ s, advance s 0 = s
  advance_advance : ∀ s n m, advance (advance s n) m = advance s (n + m)

namespace Prog

variable {β σ ε α γ ρ τ κ : Type}

/-- A loop that carries a value through a number of rounds. -/
def times : Nat → (γ → Prog σ ε γ) → γ → Prog σ ε γ
  | 0, _, c => pure c
  | n + 1, round, c => round c >>= times n round

/-- The results of a number of rounds. -/
def many : Nat → Prog σ ε α → Prog σ ε (List α)
  | 0, _ => pure []
  | n + 1, m => m >>= fun a => many n m >>= fun as => pure (a :: as)

/-- Two results, one after the other. -/
def both (m : Prog σ ε α) (n : Prog σ ε γ) : Prog σ ε (α × γ) := m >>= fun a => n >>= fun c => pure (a, c)

/-- A loop that adds what it reads to the value it carries reads first and adds later. -/
theorem times_eq_many (m : Prog σ ε α) (add : γ → α → γ) (n : Nat) (c : γ) :
    times n (fun c => m >>= fun a => pure (add c a)) c = many n m >>= fun as => pure (as.foldl add c) := by
  induction n generalizing c with
  | zero => rfl
  | succ n ih =>
      simp only [times, many, bind_assoc]
      congr 1
      funext a
      exact ih (add c a)

theorem bind_ok_iff {m : Prog σ ε α} {f : α → Prog σ ε γ} {s s'' : σ} {c : γ} :
    (m >>= f) s = (.ok c, s'') ↔ ∃ a s', m s = (.ok a, s') ∧ f a s' = (.ok c, s'') := by
  rcases hfirst : m s with ⟨r, s'⟩
  cases r with
  | error e =>
      rw [run_bind_error hfirst]
      exact ⟨fun h => (nomatch h), fun ⟨_, _, h, _⟩ => (nomatch h)⟩
  | ok a =>
      rw [run_bind_ok hfirst]
      constructor
      · exact fun h => ⟨a, s', rfl, h⟩
      · rintro ⟨_, _, h, hrest⟩
        cases h
        exact hrest

theorem ofExcept_ok_iff {x : Except ε α} {s s' : σ} {a : α} :
    (ofExcept x : Prog σ ε α) s = (.ok a, s') ↔ x = .ok a ∧ s' = s := by
  cases x with
  | ok b => exact ⟨fun h => ⟨(Prod.mk.inj h).1, (Prod.mk.inj h).2.symm⟩, fun ⟨hb, hs'⟩ => by rw [hb, hs']; rfl⟩
  | error e => exact ⟨fun h => (nomatch h), fun h => (nomatch h.1)⟩

theorem pure_ok_iff {s s' : σ} {a b : α} : (pure b : Prog σ ε α) s = (.ok a, s') ↔ b = a ∧ s' = s :=
  ⟨fun h => ⟨Except.ok.inj (Prod.mk.inj h).1, (Prod.mk.inj h).2.symm⟩, fun ⟨hb, hs'⟩ => by rw [hb, hs']; rfl⟩

/-- The reader makes its result of the values it allows, each where its written form comes next, and moves past it. -/
def Reads (T : Tape β σ) (m : Prog σ ε α) (W : Wire β ρ) (allowed : ρ → Prop) (result : ρ → α) : Prop :=
  ∀ s a s', m s = (.ok a, s') ↔
    ∃ r, (W.valid r ∧ allowed r) ∧ result r = a ∧ W.write r <+: T.rest s ∧ s' = T.advance s (W.write r).length

namespace Reads

variable {T : Tape β σ} {m : Prog σ ε α} {W : Wire β ρ} {allowed : ρ → Prop} {result : ρ → α}

theorem congr {allowed' : ρ → Prop} {result' : ρ → α} (h : Reads T m W allowed result)
    (hallowed : ∀ r, W.valid r → (allowed r ↔ allowed' r)) (hresult : ∀ r, allowed r → result r = result' r) :
    Reads T m W allowed' result' := by
  intro s a s'
  rw [h s a s']
  refine exists_congr fun r => ?_
  constructor
  · rintro ⟨⟨hvalid, hr⟩, ha, hnext⟩
    exact ⟨⟨hvalid, (hallowed r hvalid).mp hr⟩, hresult r hr ▸ ha, hnext⟩
  · rintro ⟨⟨hvalid, hr⟩, ha, hnext⟩
    have hr := (hallowed r hvalid).mpr hr
    exact ⟨⟨hvalid, hr⟩, (hresult r hr).trans ha, hnext⟩

theorem andThen (h : Reads T m W allowed result) {f : α → Prog σ ε γ} (allowed' : ρ → Prop) (result' : ρ → γ)
    (hf : ∀ r, allowed r → ∀ s c s', f (result r) s = (.ok c, s') ↔ (allowed' r ∧ result' r = c) ∧ s' = s) :
    Reads T (m >>= f) W (fun r => allowed r ∧ allowed' r) result' := by
  intro s c s'
  rw [bind_ok_iff]
  constructor
  · rintro ⟨a, s₁, hm, hc⟩
    obtain ⟨r, ⟨hvalid, hr⟩, rfl, hnext, rfl⟩ := (h s a s₁).mp hm
    obtain ⟨⟨hr', hresult⟩, rfl⟩ := (hf r hr _ c s').mp hc
    exact ⟨r, ⟨hvalid, hr, hr'⟩, hresult, hnext, rfl⟩
  · rintro ⟨r, ⟨hvalid, hr, hr'⟩, rfl, hnext, rfl⟩
    exact ⟨_, _, (h s _ _).mpr ⟨r, ⟨hvalid, hr⟩, rfl, hnext, rfl⟩, (hf r hr _ _ _).mpr ⟨⟨hr', rfl⟩, rfl⟩⟩

theorem build (h : Reads T m W allowed result) (f : α → γ) :
    Reads T (m >>= fun a => Pure.pure (f a)) W allowed (fun r => f (result r)) :=
  (h.andThen (fun _ => True) (fun r => f (result r)) fun r _ s c s' => by rw [pure_ok_iff, true_and]).congr
    (fun _ _ => iff_of_eq (and_true _)) fun _ _ => rfl

theorem guard (h : Reads T m W allowed result) {c p : Prop} [Decidable c] (hc : c ↔ ¬p) (e : ε) :
    Reads T (if c then Prog.throw e else m) W (fun r => p ∧ allowed r) result := by
  intro s a s'
  by_cases hp : p
  · rw [if_neg (fun h => hc.mp h hp), h s a s']
    simp only [hp, true_and]
  · rw [if_pos (hc.mpr hp)]
    exact ⟨fun h => (nomatch h), fun ⟨_, ⟨_, h, _⟩, _⟩ => absurd h hp⟩

theorem seq {V : Wire β τ} {f : α → Prog σ ε γ} {allowed' : ρ → τ → Prop} {result' : ρ → τ → γ}
    (h : Reads T m W allowed result) (hf : ∀ r, allowed r → Reads T (f (result r)) V (allowed' r) (result' r)) :
    Reads T (m >>= f) (W.seq V) (fun r => allowed r.1 ∧ allowed' r.1 r.2) (fun r => result' r.1 r.2) := by
  intro s c s''
  rw [bind_ok_iff]
  constructor
  · rintro ⟨a, s', hm, hrest⟩
    obtain ⟨r, ⟨hvalid, hr⟩, rfl, hnext, rfl⟩ := (h s a s').mp hm
    obtain ⟨t, ⟨hvalid', ht⟩, rfl, hnext', rfl⟩ := (hf r hr _ c s'').mp hrest
    rw [T.rest_advance] at hnext'
    refine ⟨(r, t), ⟨⟨hvalid, hvalid'⟩, hr, ht⟩, rfl, append_prefix_iff.mpr ⟨hnext, hnext'⟩, ?_⟩
    rw [T.advance_advance, ← List.length_append]
    rfl
  · rintro ⟨⟨r, t⟩, ⟨⟨hvalid, hvalid'⟩, hr, ht⟩, rfl, hnext, rfl⟩
    obtain ⟨hnext, hnext'⟩ := append_prefix_iff.mp hnext
    rw [← T.rest_advance] at hnext'
    refine ⟨result r, _, (h s _ _).mpr ⟨r, ⟨hvalid, hr⟩, rfl, hnext, rfl⟩,
      (hf r hr _ _ _).mpr ⟨t, ⟨hvalid', ht⟩, rfl, hnext', ?_⟩⟩
    rw [T.advance_advance, ← List.length_append]
    rfl

theorem both {n : Prog σ ε γ} {V : Wire β τ} {allowed' : τ → Prop} {result' : τ → γ}
    (hm : Reads T m W allowed result) (hn : Reads T n V allowed' result') :
    Reads T (Prog.both m n) (W.seq V) (fun r => allowed r.1 ∧ allowed' r.2) fun r => (result r.1, result' r.2) :=
  hm.seq (f := fun a => n >>= fun c => Pure.pure (a, c)) fun r _ => hn.build (Prod.mk (result r))

theorem map {parts : τ → ρ} (hparts : Function.Injective parts) (hall : Function.Surjective parts)
    (h : Reads T m W allowed result) :
    Reads T m (W.map parts hparts) (fun t => allowed (parts t)) (fun t => result (parts t)) := by
  intro s a s'
  rw [h s a s']
  constructor
  · rintro ⟨r, hr⟩
    obtain ⟨t, rfl⟩ := hall r
    exact ⟨t, hr⟩
  · rintro ⟨t, ht⟩
    exact ⟨parts t, ht⟩

theorem many (h : Reads T m W allowed result) (n : Nat) (s : σ) (as : List α) (s' : σ) :
    Prog.many n m s = (.ok as, s') ↔ ∃ rs : List ρ, (rs.length = n ∧ ∀ r ∈ rs, W.valid r ∧ allowed r) ∧
      rs.map result = as ∧ rs.flatMap W.write <+: T.rest s ∧ s' = T.advance s (rs.flatMap W.write).length := by
  induction n generalizing s as s' with
  | zero =>
      rw [Prog.many, pure_ok_iff]
      constructor
      · rintro ⟨rfl, rfl⟩
        exact ⟨[], ⟨rfl, by simp⟩, rfl, List.nil_prefix, (T.advance_zero s').symm⟩
      · rintro ⟨rs, ⟨hlength, -⟩, rfl, -, rfl⟩
        obtain rfl := List.length_eq_zero_iff.mp hlength
        exact ⟨rfl, T.advance_zero s⟩
  | succ n ih =>
      rw [Prog.many, bind_ok_iff]
      simp only [bind_ok_iff, pure_ok_iff]
      constructor
      · rintro ⟨a, _, hfirst, rest, _, hrest, rfl, rfl⟩
        obtain ⟨r, hr, rfl, hnext, rfl⟩ := (h s a _).mp hfirst
        obtain ⟨rs, ⟨rfl, hall⟩, rfl, hnext', rfl⟩ := (ih _ rest _).mp hrest
        rw [T.rest_advance] at hnext'
        refine ⟨r :: rs, ⟨rfl, List.forall_mem_cons.mpr ⟨hr, hall⟩⟩, rfl, ?_, ?_⟩
        · rw [List.flatMap_cons]
          exact append_prefix_iff.mpr ⟨hnext, hnext'⟩
        · rw [T.advance_advance, List.flatMap_cons, List.length_append]
      · rintro ⟨rs, ⟨hlength, hall⟩, rfl, hnext, rfl⟩
        obtain ⟨r, rs, rfl⟩ := List.exists_cons_of_length_eq_add_one hlength
        obtain ⟨hr, hall⟩ := List.forall_mem_cons.mp hall
        rw [List.flatMap_cons, append_prefix_iff, ← T.rest_advance] at hnext
        refine ⟨result r, _, (h s _ _).mpr ⟨r, hr, rfl, hnext.1, rfl⟩, rs.map result, _,
          (ih _ _ _).mpr ⟨rs, ⟨Nat.succ.inj hlength, hall⟩, rfl, hnext.2, rfl⟩, rfl, ?_⟩
        rw [T.advance_advance, List.flatMap_cons, List.length_append]

theorem counted {C : Wire β κ} {count : Prog σ ε κ} (hcount : Reads T count C (fun _ => True) id)
    (h : Reads T m W allowed result) {size : κ → Nat} {ofSize : Nat → κ} (hsize : ∀ k, ofSize (size k) = k) :
    Reads T (count >>= fun k => Prog.many (size k) m) (C.counted size ofSize W) (fun rs => ∀ r ∈ rs, allowed r)
      (List.map result) := by
  intro s as s''
  rw [bind_ok_iff]
  constructor
  · rintro ⟨k, s', hk, hrest⟩
    obtain ⟨_, ⟨hvalid, -⟩, rfl, hnext, rfl⟩ := (hcount s k s').mp hk
    obtain ⟨rs, ⟨hlength, hall⟩, rfl, hnext', rfl⟩ := (h.many _ _ as s'').mp hrest
    obtain rfl : ofSize rs.length = _ := hlength ▸ hsize _
    rw [T.rest_advance] at hnext'
    refine ⟨rs, ⟨⟨hvalid, hlength.symm, fun r hr => (hall r hr).1⟩, fun r hr => (hall r hr).2⟩, rfl,
      append_prefix_iff.mpr ⟨hnext, hnext'⟩, ?_⟩
    rw [T.advance_advance, ← List.length_append]
    rfl
  · rintro ⟨rs, ⟨⟨hvalid, hlength, hrs⟩, hall⟩, rfl, hnext, rfl⟩
    obtain ⟨hnext, hnext'⟩ := append_prefix_iff.mp hnext
    rw [← T.rest_advance] at hnext'
    refine ⟨ofSize rs.length, _, (hcount s _ _).mpr ⟨_, ⟨hvalid, trivial⟩, rfl, hnext, rfl⟩,
      (h.many _ _ _ _).mpr ⟨rs, ⟨hlength.symm, fun r hr => ⟨hrs r hr, hall r hr⟩⟩, rfl, hnext', ?_⟩⟩
    rw [T.advance_advance, ← List.length_append]
    rfl

end Reads

end Prog

end Mcr
