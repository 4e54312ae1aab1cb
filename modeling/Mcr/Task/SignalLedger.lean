import Mcr.Lib.Ledger
import Mcr.Task.Interrupts

/-!
# Where the signals are

A signal that is made pending is a token of a ledger: it is in the set of its target until a task takes it, then
in the task's delivery slot or with the task, and a signal in a slot goes to the task whose slot it is. A signal
whose target is removed goes with it. The kernel keeps no ledger: its pending sets and slots are what a ledger
accounts for.
-/

namespace Mcr.Task

abbrev Posted := SignalTarget × Nat

/-- Where a posted signal is. -/
inductive SignalPlace
  | pending
  | held (tid : GuestTid)
  | handed (tid : GuestTid)
  | gone
deriving DecidableEq, Repr

abbrev SignalLedger := Ledger Posted SignalPlace

/-- A signal given to a task: as the result of `rt_sigtimedwait`, or by delivery. -/
inductive Handover
  | returned (tid : GuestTid) (signal : Nat)
  | delivered (tid : GuestTid) (signal : Nat)
deriving DecidableEq, Repr

/-- The tasks at a step: their processes, and the masks in effect. -/
structure TaskView where
  owner : GuestTid → Option GuestPid
  mask : GuestTid → SignalMask

def TaskView.Within (view : TaskView) (target : SignalTarget) (tid : GuestTid) : Prop :=
  target = .task tid ∨ ∃ pid, target = .process pid ∧ view.owner tid = some pid

/-- What may happen to posted signals: one is posted that was not pending, a task takes one that is pending for
it, unless its mask blocks it, and a slot is only taken when it is empty. -/
inductive Moves (view : TaskView) (l : SignalLedger) : List Posted → List Handover → SignalLedger → Prop
  | start : Moves view l [] [] l
  | post {posts : List Posted} {handovers : List Handover} {l' : SignalLedger} (h : Moves view l posts handovers l')
      (posted : Posted) (hfresh : (posted, .pending) ∉ l') :
      Moves view l (posts ++ [posted]) handovers ((posted, .pending) ::ₘ l')
  | hold {posts : List Posted} {handovers : List Handover} {l' : SignalLedger} (h : Moves view l posts handovers l')
      {target : SignalTarget} {signal : Nat} (hmem : ((target, signal), .pending) ∈ l') {tid : GuestTid}
      (hwithin : view.Within target tid) (hmask : signalMatchesMask signal (view.mask tid) = false)
      (hempty : ∀ e ∈ l', e.2 ≠ .held tid) :
      Moves view l posts handovers (l'.move (target, signal) .pending (.held tid))
  | wait {posts : List Posted} {handovers : List Handover} {l' : SignalLedger} (h : Moves view l posts handovers l')
      {target : SignalTarget} {signal : Nat} (hmem : ((target, signal), .pending) ∈ l') {tid : GuestTid}
      (hwithin : view.Within target tid) :
      Moves view l posts (handovers ++ [.returned tid signal]) (l'.move (target, signal) .pending (.handed tid))
  | deliver {posts : List Posted} {handovers : List Handover} {l' : SignalLedger} (h : Moves view l posts handovers l')
      {target : SignalTarget} {signal : Nat} (hmem : ((target, signal), .pending) ∈ l') {tid : GuestTid}
      (hwithin : view.Within target tid) (hmask : signalMatchesMask signal (view.mask tid) = false) :
      Moves view l posts (handovers ++ [.delivered tid signal]) (l'.move (target, signal) .pending (.handed tid))
  | release {posts : List Posted} {handovers : List Handover} {l' : SignalLedger} (h : Moves view l posts handovers l')
      {target : SignalTarget} {signal : Nat} {tid : GuestTid} (hmem : ((target, signal), .held tid) ∈ l') :
      Moves view l posts (handovers ++ [.delivered tid signal]) (l'.move (target, signal) (.held tid) (.handed tid))

theorem Moves.tokens {view : TaskView} {l l' : SignalLedger} {posts : List Posted} {handovers : List Handover}
    (h : Moves view l posts handovers l') : l'.tokens = l.tokens + ↑posts := by
  induction h with
  | start => simp
  | post _ posted _ ih =>
      rw [Ledger.tokens, Multiset.map_cons, ← Ledger.tokens, ih, ← Multiset.add_cons, Multiset.cons_coe,
        Multiset.coe_eq_coe.mpr (List.perm_append_singleton posted _)]
  | hold _ hmem _ _ _ ih => rw [Ledger.tokens_move hmem, ih]
  | wait _ hmem _ ih => rw [Ledger.tokens_move hmem, ih]
  | deliver _ hmem _ _ ih => rw [Ledger.tokens_move hmem, ih]
  | release _ hmem ih => rw [Ledger.tokens_move hmem, ih]

theorem Moves.trans {view : TaskView} {l l' l'' : SignalLedger} {posts posts' : List Posted}
    {handovers handovers' : List Handover} (h : Moves view l posts handovers l')
    (h' : Moves view l' posts' handovers' l'') : Moves view l (posts ++ posts') (handovers ++ handovers') l'' := by
  induction h' with
  | start => rwa [List.append_nil, List.append_nil]
  | post _ posted hfresh ih =>
      rw [← List.append_assoc]
      exact ih.post posted hfresh
  | hold _ hmem hwithin hmask hempty ih => exact ih.hold hmem hwithin hmask hempty
  | wait _ hmem hwithin ih =>
      rw [← List.append_assoc]
      exact ih.wait hmem hwithin
  | deliver _ hmem hwithin hmask ih =>
      rw [← List.append_assoc]
      exact ih.deliver hmem hwithin hmask
  | release _ hmem ih =>
      rw [← List.append_assoc]
      exact ih.release hmem

namespace GuestKernel

variable {k k' : GuestKernel}

def delivery (k : GuestKernel) (tid : GuestTid) : Option Nat := (k.task tid).bind GuestTask.pendingSignalDelivery

/-- The ledger has exactly what is pending and what the slots hold. -/
structure Accounts (l : SignalLedger) (k : GuestKernel) : Prop where
  pending : ∀ target signal, (l.countP fun e => e = ((target, signal), .pending)) =
    if signal ∈ k.pending target then 1 else 0
  held : ∀ tid signal, (l.countP fun e => e.1.2 = signal ∧ e.2 = .held tid) =
    if k.delivery tid = some signal then 1 else 0

namespace Accounts

variable {l : SignalLedger}

theorem mem_pending (h : Accounts l k) {target : SignalTarget} {signal : Nat} :
    ((target, signal), .pending) ∈ l ↔ signal ∈ k.pending target := by
  have hcount := h.pending target signal
  constructor
  · intro hmem
    by_contra hnot
    rw [if_neg hnot, Multiset.countP_eq_zero] at hcount
    exact hcount _ hmem rfl
  · intro hmem
    rw [if_pos hmem] at hcount
    obtain ⟨e, he, rfl⟩ := Ledger.exists_of_countP_eq_one hcount
    exact he

theorem held_none (h : Accounts l k) {tid : GuestTid} (hnone : k.delivery tid = none) : ∀ e ∈ l, e.2 ≠ .held tid := by
  intro e hmem hplace
  have hcount := h.held tid e.1.2
  rw [hnone, if_neg nofun, Multiset.countP_eq_zero] at hcount
  exact hcount e hmem ⟨rfl, hplace⟩

theorem same (h : Accounts l k) (hpending : ∀ target signal, signal ∈ k'.pending target ↔ signal ∈ k.pending target)
    (hdelivery : ∀ tid, k'.delivery tid = k.delivery tid) : Accounts l k' where
  pending target signal := by
    rw [h.pending]
    simp only [hpending]
  held tid signal := by rw [h.held, hdelivery]

theorem post (h : Accounts l k) {target : SignalTarget} {signal : Nat} (hfresh : signal ∉ k.pending target)
    (hpending : ∀ j s, s ∈ k'.pending j ↔ s ∈ k.pending j ∨ (j = target ∧ s = signal))
    (hdelivery : ∀ tid, k'.delivery tid = k.delivery tid) : Accounts (((target, signal), .pending) ::ₘ l) k' where
  pending j s := by
    rw [Multiset.countP_cons, h.pending]
    simp only [hpending]
    by_cases hsame : j = target ∧ s = signal
    · obtain ⟨rfl, rfl⟩ := hsame
      simp [hfresh]
    · have hne : ¬((target, signal), SignalPlace.pending) = ((j, s), SignalPlace.pending) := by
        simp only [Prod.mk.injEq, and_true, not_and]
        exact fun hj hs => hsame ⟨hj.symm, hs.symm⟩
      simp [hsame, hne]
  held tid s := by
    rw [Multiset.countP_cons, h.held, hdelivery]
    simp

theorem taken (h : Accounts l k) {target : SignalTarget} {signal : Nat} (hmem : signal ∈ k.pending target)
    (hpending : ∀ j s, s ∈ k'.pending j ↔ s ∈ k.pending j ∧ ¬(j = target ∧ s = signal)) {place : SignalPlace}
    (hplace : place ≠ .pending) (j : SignalTarget) (s : Nat) :
    ((l.move (target, signal) .pending place).countP fun e => e = ((j, s), .pending)) =
      if s ∈ k'.pending j then 1 else 0 := by
  have hmove := Ledger.countP_move (fun e => e = ((j, s), SignalPlace.pending)) (q := place) (h.mem_pending.mpr hmem)
  rw [h.pending] at hmove
  simp only [hpending]
  by_cases hsame : j = target ∧ s = signal
  · obtain ⟨rfl, rfl⟩ := hsame
    simpa [hmem, hplace] using hmove
  · have hne : ¬((target, signal), SignalPlace.pending) = ((j, s), SignalPlace.pending) := by
      simp only [Prod.mk.injEq, and_true, not_and]
      exact fun hj hs => hsame ⟨hj.symm, hs.symm⟩
    simpa [hsame, hne, hplace] using hmove

theorem handOver (h : Accounts l k) {target : SignalTarget} {signal : Nat} (hmem : signal ∈ k.pending target)
    (hpending : ∀ j s, s ∈ k'.pending j ↔ s ∈ k.pending j ∧ ¬(j = target ∧ s = signal))
    (hdelivery : ∀ tid, k'.delivery tid = k.delivery tid) (tid : GuestTid) :
    Accounts (l.move (target, signal) .pending (.handed tid)) k' where
  pending := h.taken hmem hpending nofun
  held j s := by
    have hmove := Ledger.countP_move (fun e : Posted × SignalPlace => e.1.2 = s ∧ e.2 = .held j)
      (q := SignalPlace.handed tid) (h.mem_pending.mpr hmem)
    rw [h.held] at hmove
    rw [hdelivery]
    simpa using hmove

theorem hold (h : Accounts l k) {target : SignalTarget} {signal : Nat} (hmem : signal ∈ k.pending target)
    (hpending : ∀ j s, s ∈ k'.pending j ↔ s ∈ k.pending j ∧ ¬(j = target ∧ s = signal)) {tid : GuestTid}
    (hempty : k.delivery tid = none)
    (hdelivery : ∀ j, k'.delivery j = if j = tid then some signal else k.delivery j) :
    Accounts (l.move (target, signal) .pending (.held tid)) k' where
  pending := h.taken hmem hpending nofun
  held j s := by
    have hmove := Ledger.countP_move (fun e : Posted × SignalPlace => e.1.2 = s ∧ e.2 = .held j)
      (q := SignalPlace.held tid) (h.mem_pending.mpr hmem)
    rw [h.held] at hmove
    rw [hdelivery]
    by_cases hj : j = tid
    · subst hj
      simpa [hempty, eq_comm] using hmove
    · simpa [hj, Ne.symm hj] using hmove

theorem release (h : Accounts l k) {tid : GuestTid} {signal : Nat} (hheld : k.delivery tid = some signal)
    (hpending : ∀ j s, s ∈ k'.pending j ↔ s ∈ k.pending j)
    (hdelivery : ∀ j, k'.delivery j = if j = tid then none else k.delivery j) :
    ∃ target, ((target, signal), .held tid) ∈ l ∧ Accounts (l.move (target, signal) (.held tid) (.handed tid)) k' := by
  have hcount := h.held tid signal
  rw [if_pos hheld] at hcount
  obtain ⟨⟨⟨target, _⟩, _⟩, hmem, rfl, rfl⟩ := Ledger.exists_of_countP_eq_one hcount
  refine ⟨target, hmem, ⟨fun j s => ?_, fun j s => ?_⟩⟩
  · have hmove := Ledger.countP_move (fun e => e = ((j, s), SignalPlace.pending)) (q := SignalPlace.handed tid) hmem
    rw [h.pending] at hmove
    simp only [hpending]
    simpa using hmove
  · have hmove := Ledger.countP_move (fun e : Posted × SignalPlace => e.1.2 = s ∧ e.2 = .held j)
      (q := SignalPlace.handed tid) hmem
    rw [h.held] at hmove
    rw [hdelivery]
    by_cases hj : j = tid
    · subst hj
      simp only [hheld] at hmove
      simpa [eq_comm] using hmove
    · simpa [hj, Ne.symm hj] using hmove

end Accounts

end GuestKernel

end Mcr.Task
