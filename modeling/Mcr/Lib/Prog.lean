import Mathlib

/-!
# Programs over a mutable state that may stop early

A function that takes `&mut self` and returns a `Result` leaves its object changed on both exits, so
the state of a `Prog` survives the early exit. `wp m Q E s` says that a run of `m` from `s` ends in
`Q` when it returns and in `E` when it stops early; the rules below take a program apart at its
binds, branches and loops, and nothing else about `Prog` is used outside this module.
-/

namespace Mcr

/-- A program with state `σ`, early exits `ε` and result `α`. -/
def Prog (σ ε α : Type) : Type := σ → Except ε α × σ

namespace Prog

variable {σ ε α β : Type}

instance : Monad (Prog σ ε) where
  pure a := fun s => (.ok a, s)
  bind m f := fun s =>
    match m s with
    | (.ok a, s') => f a s'
    | (.error e, s') => (.error e, s')

def get : Prog σ ε σ := fun s => (.ok s, s)

def modify (f : σ → σ) : Prog σ ε Unit := fun s => (.ok (), f s)

def throw (e : ε) : Prog σ ε α := fun s => (.error e, s)

theorem bind_assoc {γ : Type} (m : Prog σ ε α) (f : α → Prog σ ε β) (g : β → Prog σ ε γ) :
    (m >>= f) >>= g = m >>= fun a => f a >>= g := by
  funext s
  simp only [Bind.bind]
  rcases m s with ⟨r, s'⟩
  cases r <;> rfl

def ofExcept : Except ε α → Prog σ ε α
  | .ok a => pure a
  | .error e => throw e

/-- The handler runs in the state the failed program left behind. -/
def tryCatch (m : Prog σ ε α) (handler : ε → Prog σ ε α) : Prog σ ε α := fun s =>
  match m s with
  | (.ok a, s') => (.ok a, s')
  | (.error e, s') => handler e s'

/-- Runs a program and hands its result to the caller, early exit or not. -/
def attempt {ε' : Type} (m : Prog σ ε α) : Prog σ ε' (Except ε α) := fun s =>
  match m s with
  | (r, s') => (.ok r, s')

/-- `map_err`. -/
def mapError {ε' : Type} (f : ε → ε') (m : Prog σ ε α) : Prog σ ε' α := fun s =>
  match m s with
  | (.ok a, s') => (.ok a, s')
  | (.error e, s') => (.error (f e), s')

def when (c : Prop) [Decidable c] (m : Prog σ ε Unit) : Prog σ ε Unit := if c then m else pure ()

/-- The loop over a list, in its order. -/
def forEach : List β → (β → Prog σ ε Unit) → Prog σ ε Unit
  | [], _ => pure ()
  | b :: rest, f => do
    f b
    forEach rest f

/-- The loop that collects one result for each element. -/
def collect : List β → (β → Prog σ ε α) → Prog σ ε (List α)
  | [], _ => pure []
  | b :: rest, f => do
    let a ← f b
    let as ← collect rest f
    pure (a :: as)

/-- A program over a part of the state, read by `view` and written back by `put`. -/
def zoom {τ : Type} (view : σ → τ) (put : τ → σ → σ) (m : Prog τ ε α) : Prog σ ε α := fun s =>
  match m (view s) with
  | (r, t) => (r, put t s)

/-- A run from `s` ends in `Q` when it returns and in `E` when it stops early. -/
def wp (m : Prog σ ε α) (Q : α → σ → Prop) (E : ε → σ → Prop) (s : σ) : Prop :=
  match m s with
  | (.ok a, s') => Q a s'
  | (.error e, s') => E e s'

variable {m : Prog σ ε α} {f : α → Prog σ ε β} {s : σ}
  {Q Q' : α → σ → Prop} {R : β → σ → Prop} {E E' : ε → σ → Prop}

@[simp] theorem wp_pure (a : α) : wp (pure a) Q E s ↔ Q a s := Iff.rfl

@[simp] theorem wp_get {Q : σ → σ → Prop} : wp get Q E s ↔ Q s s := Iff.rfl

@[simp] theorem wp_modify (g : σ → σ) {Q : Unit → σ → Prop} :
    wp (modify g) Q E s ↔ Q () (g s) := Iff.rfl

@[simp] theorem wp_throw (e : ε) : wp (throw e) Q E s ↔ E e s := Iff.rfl

@[simp] theorem wp_bind :
    wp (m >>= f) R E s ↔ wp m (fun a s' => wp (f a) R E s') E s := by
  simp only [wp, Bind.bind]
  rcases m s with ⟨r, s'⟩
  cases r <;> rfl

@[simp] theorem wp_ite {c : Prop} [Decidable c] {m₁ m₂ : Prog σ ε α} :
    wp (if c then m₁ else m₂) Q E s ↔ if c then wp m₁ Q E s else wp m₂ Q E s := by
  split <;> rfl

@[simp] theorem wp_when {c : Prop} [Decidable c] {m : Prog σ ε Unit} {Q : Unit → σ → Prop} :
    wp (when c m) Q E s ↔ if c then wp m Q E s else Q () s := by
  unfold when
  split <;> rfl

@[simp] theorem wp_ofExcept (x : Except ε α) :
    wp (ofExcept x) Q E s ↔ match x with | .ok a => Q a s | .error e => E e s := by
  cases x <;> rfl

theorem wp_check {x : Except ε α} (herror : ∀ e, x = .error e → E e s) (hok : ∀ a, x = .ok a → Q a s) :
    wp (ofExcept x) Q E s := by
  rw [wp_ofExcept]
  cases hx : x with
  | ok a => exact hok a hx
  | error e => exact herror e hx

@[simp] theorem wp_zoom {τ : Type} {view : σ → τ} {put : τ → σ → σ} {m : Prog τ ε α} :
    wp (zoom view put m) Q E s ↔
      wp m (fun a t => Q a (put t s)) (fun e t => E e (put t s)) (view s) := by
  simp only [wp, zoom]
  rcases m (view s) with ⟨r, t⟩
  cases r <;> rfl

theorem wp_tryCatch {handler : ε → Prog σ ε α} :
    wp (tryCatch m handler) Q E s ↔ wp m Q (fun e s' => wp (handler e) Q E s') s := by
  simp only [wp, tryCatch]
  rcases m s with ⟨r, s'⟩
  cases r <;> rfl

@[simp] theorem wp_attempt {ε' : Type} {Q : Except ε α → σ → Prop} {E : ε' → σ → Prop} :
    wp (attempt m : Prog σ ε' (Except ε α)) Q E s ↔
      wp m (fun a s' => Q (.ok a) s') (fun e s' => Q (.error e) s') s := by
  simp only [wp, attempt]
  rcases m s with ⟨r, s'⟩
  cases r <;> rfl

@[simp] theorem wp_mapError {ε' : Type} {g : ε → ε'} {E : ε' → σ → Prop} :
    wp (mapError g m) Q E s ↔ wp m Q (fun e s' => E (g e) s') s := by
  simp only [wp, mapError]
  rcases m s with ⟨r, s'⟩
  cases r <;> rfl

theorem wp_mono (h : wp m Q E s) (hQ : ∀ a s', Q a s' → Q' a s') (hE : ∀ e s', E e s' → E' e s') :
    wp m Q' E' s := by
  simp only [wp] at h ⊢
  rcases hm : m s with ⟨r, s'⟩
  rw [hm] at h
  cases r with
  | ok a => exact hQ a s' h
  | error e => exact hE e s' h

theorem wp_and (h : wp m Q E s) (h' : wp m Q' E' s) :
    wp m (fun a s' => Q a s' ∧ Q' a s') (fun e s' => E e s' ∧ E' e s') s := by
  simp only [wp] at h h' ⊢
  rcases hm : m s with ⟨r, s'⟩
  rw [hm] at h h'
  cases r <;> exact ⟨h, h'⟩

/-- What a run is known to do, read off its two exits. -/
theorem wp_iff : wp m Q E s ↔
    (∀ a s', m s = (.ok a, s') → Q a s') ∧ (∀ e s', m s = (.error e, s') → E e s') := by
  simp only [wp]
  rcases hm : m s with ⟨r, s'⟩
  cases r <;> simp

theorem wp_ok {a : α} {s' : σ} (h : wp m Q E s) (hm : m s = (.ok a, s')) : Q a s' :=
  (wp_iff.mp h).1 a s' hm

theorem wp_error {e : ε} {s' : σ} (h : wp m Q E s) (hm : m s = (.error e, s')) : E e s' :=
  (wp_iff.mp h).2 e s' hm

theorem wp_of_run {a : α} {t : σ} (hm : m s = (.ok a, t)) (h : Q a t) : wp m Q E s := by
  simp only [wp, hm]
  exact h

theorem wp_of_error {e : ε} {t : σ} (hm : m s = (.error e, t)) (h : E e t) : wp m Q E s := by
  simp only [wp, hm]
  exact h

/-- A property of both exits holds of the state the run leaves. -/
theorem wp_state {P : σ → Prop} (h : wp m (fun _ => P) (fun _ => P) s) : P (m s).2 := by
  simp only [wp] at h
  rcases hm : m s with ⟨r, s'⟩
  rw [hm] at h
  cases r <;> exact h

theorem wp_of_state {P : σ → Prop} (h : P (m s).2) : wp m (fun _ => P) (fun _ => P) s := by
  simp only [wp]
  rcases hm : m s with ⟨r, s'⟩
  rw [hm] at h
  cases r <;> exact h

theorem discard_state (m : Prog σ ε α) (s : σ) : ((m >>= fun _ => pure ()) s : Except ε Unit × σ).2 = (m s).2 := by
  simp only [Bind.bind]
  rcases m s with ⟨r, s'⟩
  cases r <;> rfl

/-- The loop rule: `I` relates the elements still to come to the state. -/
theorem wp_forEach {f : β → Prog σ ε Unit} {I : List β → σ → Prop} {E : ε → σ → Prop}
    (hstep : ∀ b rest s, I (b :: rest) s → wp (f b) (fun _ s' => I rest s') E s) :
    ∀ l s, I l s → wp (forEach l f) (fun _ s' => I [] s') E s := by
  intro l
  induction l with
  | nil => intro s h; exact h
  | cons b rest ih =>
      intro s h
      rw [forEach, wp_bind]
      exact wp_mono (hstep b rest s h) (fun _ s' h' => ih s' h') (fun _ _ h' => h')

/-- The collecting loop rule: `I` also sees what has been collected so far. -/
theorem wp_collect {f : β → Prog σ ε α} {I : List β → List α → σ → Prop} {E : ε → σ → Prop}
    (hstep : ∀ b rest as s, I (b :: rest) as s →
      wp (f b) (fun a s' => I rest (as ++ [a]) s') E s) :
    ∀ l as s, I l as s → wp (collect l f) (fun bs s' => I [] (as ++ bs) s') E s := by
  intro l
  induction l with
  | nil => intro as s h; simpa [collect] using h
  | cons b rest ih =>
      intro as s h
      rw [collect, wp_bind]
      refine wp_mono (hstep b rest as s h) (fun a s' h' => ?_) (fun _ _ h' => h')
      rw [wp_bind]
      refine wp_mono (ih _ _ h') (fun bs s'' h'' => ?_) (fun _ _ h' => h')
      rw [wp_pure]
      simpa using h''

theorem wp_collect_looks {f : β → Prog σ ε α} {P : β → α → Prop} {E : ε → σ → Prop} {s : σ} :
    ∀ l : List β, (∀ b ∈ l, wp (f b) (fun a s' => s' = s ∧ P b a) E s) →
      wp (collect l f) (fun as s' => s' = s ∧ List.Forall₂ P l as) E s := by
  intro l
  induction l with
  | nil =>
      intro _
      exact ⟨rfl, .nil⟩
  | cons b rest ih =>
      intro h
      rw [collect, wp_bind]
      refine wp_mono (h b List.mem_cons_self) (fun a s' ha => ?_) (fun _ _ he => he)
      obtain ⟨rfl, ha⟩ := ha
      rw [wp_bind]
      refine wp_mono (ih fun b hb => h b (List.mem_cons_of_mem _ hb)) (fun as s' has => ?_) (fun _ _ he => he)
      obtain ⟨rfl, has⟩ := has
      rw [wp_pure]
      exact ⟨rfl, .cons ha has⟩

attribute [irreducible] wp

/-! ### Checks without a state -/

@[simp] theorem except_ok_bind {a : α} {f : α → Except ε β} : (Except.ok a >>= f) = f a := rfl

@[simp] theorem except_error_bind {e : ε} {f : α → Except ε β} : (Except.error e >>= f) = .error e := rfl

theorem except_bind_eq_ok {x : Except ε α} {f : α → Except ε β} {b : β} :
    (x >>= f) = .ok b ↔ ∃ a, x = .ok a ∧ f a = .ok b := by
  cases x with
  | ok a =>
      constructor
      · intro h
        exact ⟨a, rfl, h⟩
      · rintro ⟨a', ha, h⟩
        cases ha
        exact h
  | error e =>
      constructor
      · intro h
        nomatch h
      · rintro ⟨a, ha, _⟩
        nomatch ha

theorem except_bind_eq_error {x : Except ε α} {f : α → Except ε β} {e : ε} :
    (x >>= f) = .error e ↔ x = .error e ∨ ∃ a, x = .ok a ∧ f a = .error e := by
  cases x with
  | ok a => simp
  | error e' => simp

theorem toOption_eq_some {r : Except ε α} {a : α} : r.toOption = some a ↔ r = .ok a := by
  cases r <;> simp [Except.toOption]

/-- The early exit, if there was one. -/
def failure : Except ε α → Option ε
  | .ok _ => none
  | .error e => some e

theorem failure_eq_some {r : Except ε α} {e : ε} : failure r = some e ↔ r = .error e := by
  cases r <;> simp [failure]

/-! ### Running a program -/

theorem run_eq {r : Except ε α} (h : (m s).1 = r) : m s = (r, (m s).2) := Prod.ext h rfl

theorem run_bind_ok {a : α} {t : σ} (h : m s = (.ok a, t)) : (m >>= f) s = f a t := by
  simp only [Bind.bind, h]

theorem run_bind_error {e : ε} {t : σ} (h : m s = (.error e, t)) : (m >>= f) s = (.error e, t) := by
  simp only [Bind.bind, h]

/-! ### Programs that only look -/

/-- From either state the program ends alike, and it changes neither. -/
def Alike (m : Prog σ ε α) (s t : σ) : Prop := ∃ r, m s = (r, s) ∧ m t = (r, t)

theorem Alike.pure (a : α) {s t : σ} : Alike (Pure.pure a : Prog σ ε α) s t := ⟨.ok a, rfl, rfl⟩

theorem Alike.throw (e : ε) {s t : σ} : Alike (.throw e : Prog σ ε α) s t := ⟨.error e, rfl, rfl⟩

theorem Alike.bind {m : Prog σ ε α} {f : α → Prog σ ε β} {s t : σ} (hm : Alike m s t)
    (hf : ∀ a, Alike (f a) s t) : Alike (m >>= f) s t := by
  obtain ⟨r, hs, ht⟩ := hm
  cases r with
  | ok a =>
      rw [Alike, run_bind_ok hs, run_bind_ok ht]
      exact hf a
  | error e => exact ⟨.error e, run_bind_error hs, run_bind_error ht⟩

theorem Alike.result {m : Prog σ ε α} {s t : σ} (h : Alike m s t) : (m s).1 = (m t).1 := by
  obtain ⟨r, hs, ht⟩ := h
  rw [hs, ht]

/-! ### Programs that end alike from related states -/

/-- The two runs, of programs whose states may differ, have one result and leave related states. -/
def Simulates {τ : Type} (R : σ → τ → Prop) (m : Prog σ ε α) (n : Prog τ ε α) (s : σ) (t : τ) : Prop :=
  (m s).1 = (n t).1 ∧ R (m s).2 (n t).2

namespace Simulates

variable {τ : Type} {R : σ → τ → Prop} {m : Prog σ ε α} {n : Prog τ ε α} {s : σ} {t : τ}

theorem pure (a : α) (h : R s t) : Simulates R (Pure.pure a : Prog σ ε α) (Pure.pure a : Prog τ ε α) s t := ⟨rfl, h⟩

theorem throw (e : ε) (h : R s t) : Simulates R (Prog.throw e : Prog σ ε α) (Prog.throw e : Prog τ ε α) s t := ⟨rfl, h⟩

theorem ofExcept (x : Except ε α) (h : R s t) :
    Simulates R (Prog.ofExcept x : Prog σ ε α) (Prog.ofExcept x : Prog τ ε α) s t := by
  cases x with
  | ok a => exact .pure a h
  | error e => exact .throw e h

theorem modify {f : σ → σ} {g : τ → τ} (h : R (f s) (g t)) :
    Simulates R (Prog.modify f : Prog σ ε Unit) (Prog.modify g : Prog τ ε Unit) s t := ⟨rfl, h⟩

theorem get {f : σ → Prog σ ε β} {g : τ → Prog τ ε β} (h : Simulates R (f s) (g t) s t) :
    Simulates R (Prog.get >>= f) (Prog.get >>= g) s t := h

theorem bind {f : α → Prog σ ε β} {g : α → Prog τ ε β} (h : Simulates R m n s t)
    (hf : ∀ a s' t', R s' t' → Simulates R (f a) (g a) s' t') : Simulates R (m >>= f) (n >>= g) s t := by
  obtain ⟨hresult, hstates⟩ := h
  rcases hm : m s with ⟨r, s'⟩
  rcases hn : n t with ⟨r', t'⟩
  rw [hm, hn] at hresult hstates
  cases hresult
  cases r with
  | ok a =>
      rw [Simulates, run_bind_ok hm, run_bind_ok hn]
      exact hf a s' t' hstates
  | error e =>
      rw [Simulates, run_bind_error hm, run_bind_error hn]
      exact ⟨rfl, hstates⟩

theorem check {x : Except ε α} {f : α → Prog σ ε β} {g : α → Prog τ ε β} (h : R s t)
    (hf : ∀ a, x = .ok a → Simulates R (f a) (g a) s t) :
    Simulates R (Prog.ofExcept x >>= f) (Prog.ofExcept x >>= g) s t := by
  cases x with
  | ok a => exact hf a rfl
  | error e => exact ⟨rfl, h⟩

theorem ite {c : Prop} [Decidable c] {m' : Prog σ ε α} {n' : Prog τ ε α} (h : c → Simulates R m n s t)
    (h' : ¬ c → Simulates R m' n' s t) : Simulates R (if c then m else m') (if c then n else n') s t := by
  by_cases hc : c
  · rw [if_pos hc, if_pos hc]
    exact h hc
  · rw [if_neg hc, if_neg hc]
    exact h' hc

/-- A first step that finds something out and changes nothing. -/
theorem look {f : α → Prog σ ε β} {n : Prog τ ε β} {a : α} (hm : m s = (.ok a, s)) (hf : Simulates R (f a) n s t) :
    Simulates R (m >>= f) n s t := by
  rw [Simulates, run_bind_ok hm]
  exact hf

theorem look_right {m : Prog σ ε β} {g : α → Prog τ ε β} {a : α} (hn : n t = (.ok a, t))
    (hg : Simulates R m (g a) s t) : Simulates R m (n >>= g) s t := by
  rw [Simulates, run_bind_ok hn]
  exact hg

theorem stop {γ δ : Type} {m : Prog σ ε γ} {n : Prog τ ε δ} {f : γ → Prog σ ε β} {g : δ → Prog τ ε β} {e : ε}
    (hm : m s = (.error e, s)) (hn : n t = (.error e, t)) (h : R s t) : Simulates R (m >>= f) (n >>= g) s t := by
  rw [Simulates, run_bind_error hm, run_bind_error hn]
  exact ⟨rfl, h⟩

theorem tryCatch {handler : ε → Prog σ ε α} {handler' : ε → Prog τ ε α} (h : Simulates R m n s t)
    (hh : ∀ e s' t', R s' t' → Simulates R (handler e) (handler' e) s' t') :
    Simulates R (Prog.tryCatch m handler) (Prog.tryCatch n handler') s t := by
  obtain ⟨hresult, hstates⟩ := h
  rcases hm : m s with ⟨r, s'⟩
  rcases hn : n t with ⟨r', t'⟩
  rw [hm, hn] at hresult hstates
  cases hresult
  unfold Simulates Prog.tryCatch
  rw [hm, hn]
  cases r with
  | ok a => exact ⟨rfl, hstates⟩
  | error e => exact hh e s' t' hstates

end Simulates

/-! ### Programs that leave a part of the state alone -/

/-- Wherever a run ends, `view` of the state is what it was. -/
def Keeps {τ : Type} (view : σ → τ) (m : Prog σ ε α) : Prop := ∀ s, view (m s).2 = view s

namespace Keeps

variable {τ : Type} {view : σ → τ}

theorem pure (a : α) : Keeps view (Pure.pure a : Prog σ ε α) := fun _ => rfl

theorem get : Keeps view (Prog.get : Prog σ ε σ) := fun _ => rfl

theorem throw (e : ε) : Keeps view (Prog.throw e : Prog σ ε α) := fun _ => rfl

theorem ofExcept (x : Except ε α) : Keeps view (Prog.ofExcept x : Prog σ ε α) := by
  intro s
  cases x <;> rfl

theorem modify {g : σ → σ} (h : ∀ s, view (g s) = view s) : Keeps view (Prog.modify g : Prog σ ε Unit) := h

theorem bind {m : Prog σ ε α} {f : α → Prog σ ε β} (hm : Keeps view m) (hf : ∀ a, Keeps view (f a)) :
    Keeps view (m >>= f) := by
  intro s
  rcases hrun : m s with ⟨r, s'⟩
  have hs := hm s
  rw [hrun] at hs
  cases r with
  | ok a =>
      rw [run_bind_ok hrun]
      exact (hf a s').trans hs
  | error e =>
      rw [run_bind_error hrun]
      exact hs

theorem ite {c : Prop} [Decidable c] {m₁ m₂ : Prog σ ε α} (h₁ : Keeps view m₁) (h₂ : Keeps view m₂) :
    Keeps view (if c then m₁ else m₂) := by
  split
  · exact h₁
  · exact h₂

theorem tryCatch {m : Prog σ ε α} {handler : ε → Prog σ ε α} (hm : Keeps view m) (hhandler : ∀ e, Keeps view (handler e)) :
    Keeps view (.tryCatch m handler) := by
  intro s
  have hs := hm s
  unfold Prog.tryCatch
  rcases hrun : m s with ⟨r, s'⟩
  rw [hrun] at hs
  cases r with
  | ok a => exact hs
  | error e => exact (hhandler e s').trans hs

theorem wp {m : Prog σ ε α} (h : Keeps view m) (s : σ) :
    Prog.wp m (fun _ s' => view s' = view s) (fun _ s' => view s' = view s) s := by
  rw [wp_iff]
  constructor
  · intro a s' hrun
    rw [← h s, hrun]
  · intro e s' hrun
    rw [← h s, hrun]

end Keeps

/-! ### Programs that move along a preorder -/

/-- Wherever a run ends, the state it leaves is related to the one it started from. -/
def Along (R : σ → σ → Prop) (m : Prog σ ε α) : Prop := ∀ s, R s (m s).2

namespace Along

variable {R : σ → σ → Prop}

theorem pure [Std.Refl R] (a : α) : Along R (Pure.pure a : Prog σ ε α) := fun s => Std.Refl.refl s

theorem throw [Std.Refl R] (e : ε) : Along R (Prog.throw e : Prog σ ε α) := fun s => Std.Refl.refl s

theorem ofExcept [Std.Refl R] (x : Except ε α) : Along R (Prog.ofExcept x : Prog σ ε α) := by
  cases x with
  | ok a => exact .pure a
  | error e => exact .throw e

theorem get {f : σ → Prog σ ε α} (hf : ∀ s, Along R (f s)) : Along R (Prog.get >>= f) := fun s => hf s s

theorem modify {g : σ → σ} (h : ∀ s, R s (g s)) : Along R (Prog.modify g : Prog σ ε Unit) := h

theorem bind [IsTrans σ R] {m : Prog σ ε α} {f : α → Prog σ ε β} (hm : Along R m) (hf : ∀ a, Along R (f a)) :
    Along R (m >>= f) := by
  intro s
  rcases hrun : m s with ⟨r, s'⟩
  have hs := hm s
  rw [hrun] at hs
  cases r with
  | ok a =>
      rw [run_bind_ok hrun]
      exact IsTrans.trans _ _ _ hs (hf a s')
  | error e =>
      rw [run_bind_error hrun]
      exact hs

theorem ite {c : Prop} [Decidable c] {m₁ m₂ : Prog σ ε α} (h₁ : Along R m₁) (h₂ : Along R m₂) :
    Along R (if c then m₁ else m₂) := by
  split
  · exact h₁
  · exact h₂

theorem when [Std.Refl R] {c : Prop} [Decidable c] {m : Prog σ ε Unit} (h : Along R m) : Along R (Prog.when c m) :=
  .ite h (.pure ())

theorem forEach [Std.Refl R] [IsTrans σ R] {f : β → Prog σ ε Unit} (h : ∀ b, Along R (f b)) :
    ∀ l : List β, Along R (Prog.forEach l f)
  | [] => .pure ()
  | b :: rest => .bind (h b) fun _ => forEach h rest

theorem collect [Std.Refl R] [IsTrans σ R] {f : β → Prog σ ε α} (h : ∀ b, Along R (f b)) :
    ∀ l : List β, Along R (Prog.collect l f)
  | [] => .pure _
  | b :: rest => .bind (h b) fun _ => .bind (collect h rest) fun _ => .pure _

theorem attempt {ε' : Type} {m : Prog σ ε α} (h : Along R m) : Along R (Prog.attempt m : Prog σ ε' (Except ε α)) := h

theorem tryCatch [IsTrans σ R] {m : Prog σ ε α} {handler : ε → Prog σ ε α} (h : Along R m)
    (hhandler : ∀ e, Along R (handler e)) : Along R (Prog.tryCatch m handler) := by
  intro s
  have hs := h s
  unfold Prog.tryCatch
  rcases hrun : m s with ⟨r, s'⟩
  rw [hrun] at hs
  cases r with
  | ok a => exact hs
  | error e => exact IsTrans.trans _ _ _ hs (hhandler e s')

theorem zoom {τ : Type} {T : τ → τ → Prop} {view : σ → τ} {put : τ → σ → σ} {m : Prog τ ε α} (h : Along T m)
    (hput : ∀ s t, T (view s) t → R s (put t s)) : Along R (Prog.zoom view put m) := fun s => hput s _ (h (view s))

theorem wp {m : Prog σ ε α} (h : Along R m) (s : σ) : Prog.wp m (fun _ s' => R s s') (fun _ s' => R s s') s :=
  wp_of_state (h s)

theorem of_wp {m : Prog σ ε α} (h : ∀ s, Prog.wp m (fun _ s' => R s s') (fun _ s' => R s s') s) : Along R m :=
  fun s => wp_state (h s)

end Along

end Prog

end Mcr
