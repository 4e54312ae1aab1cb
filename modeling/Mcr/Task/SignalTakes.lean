import Mcr.Task.SignalCalls

/-!
# Taking signals in a turn

A task that runs takes signals for itself: on the way back to user code, in `rt_sigtimedwait` and in
`rt_sigsuspend`. It changes no other task, and what it takes goes to it or into its slot, under the mask that is in
effect.
-/

namespace Mcr.Task

namespace GuestKernel

variable {k k' : GuestKernel} {view : TaskView} {tid : GuestTid} {task : GuestTask} {handed : List Handover}

structure Turned (k k' : GuestKernel) (tid : GuestTid) : Prop where
  runs : k.stateOf tid = some .runnable
  others : ∀ j, j ≠ tid → k'.task j = k.task j

theorem Turned.not_returned (h : Turned k k' tid) {j : GuestTid} {signal : Nat} : ¬WokenWith k k' j signal := by
  rintro ⟨⟨mask, hwait⟩, task, htask, hrunnable, -⟩
  by_cases hj : j = tid
  · rw [hj, h.runs] at hwait
    exact nomatch hwait
  · rw [h.others j hj] at htask
    rw [stateOf, htask, Option.map_some, hrunnable] at hwait
    exact nomatch hwait

/-- What a task that runs does to the signals. -/
structure TurnMoves (view : TaskView) (k k' : GuestKernel) (tid : GuestTid) (handed : List Handover) : Prop where
  turned : Turned k k' tid
  guarded : Guarded k'
  moves : ∀ {l}, Accounts l k → ∃ l', Moves view l [] handed l' ∧ Accounts l' k'

theorem stateOf_of_task (h : k.task tid = some task) : k.stateOf tid = some task.state := by
  rw [stateOf, h, Option.map_some]

theorem Guarded.turned (hg : Guarded k) (hothers : ∀ j, j ≠ tid → k'.task j = k.task j)
    (hmask : ∀ t, k'.task tid = some t → Sanitized t.signalMask)
    (hslot : ∀ t allowed, k'.task tid = some t → t.state = .waitingForSignalSuspend allowed →
      t.pendingSignalDelivery = none ∧ Sanitized (~~~allowed)) : Guarded k' where
  mask j t ht := by
    by_cases hj : j = tid
    · subst hj
      exact hmask t ht
    · exact hg.mask j t (hothers j hj ▸ ht)
  suspended {j t allowed} ht hstate := by
    by_cases hj : j = tid
    · subst hj
      exact hslot t allowed ht hstate
    · exact hg.suspended (hothers j hj ▸ ht) hstate

theorem turnMoves_of_sameSignals (hturned : Turned k k' tid) (hg : Guarded k') (h : SameSignals k k') :
    TurnMoves view k k' tid [] :=
  ⟨hturned, hg, fun haccounts => ⟨_, .start, h.accounts haccounts⟩⟩

theorem turnMoves_refl (hruns : k.stateOf tid = some .runnable) (hg : Guarded k) : TurnMoves view k k tid [] :=
  turnMoves_of_sameSignals ⟨hruns, fun _ _ => rfl⟩ hg (.refl k)

theorem TurnMoves.thenModify (h : TurnMoves view k k' tid handed) {f : GuestTask → GuestTask}
    (hf : ∀ task, (f task).pendingSignals = task.pendingSignals ∧
      (f task).pendingSignalDelivery = task.pendingSignalDelivery)
    (hguarded : ∀ task, k'.task tid = some task → Sanitized (f task).signalMask ∧ (f task).state = task.state) :
    TurnMoves view k (k'.modifyTask tid f) tid handed where
  turned := ⟨h.turned.runs, fun j hj => by rw [task_modifyTask, if_neg hj, h.turned.others j hj]⟩
  guarded := by
    refine h.guarded.turned (fun j hj => by rw [task_modifyTask, if_neg hj]) (fun t ht => ?_) fun t allowed ht hstate => ?_
    · rw [task_modifyTask, if_pos rfl] at ht
      obtain ⟨before, hbefore, rfl⟩ := Option.map_eq_some_iff.mp ht
      exact (hguarded before hbefore).1
    · rw [task_modifyTask, if_pos rfl] at ht
      obtain ⟨before, hbefore, rfl⟩ := Option.map_eq_some_iff.mp ht
      rw [(hguarded before hbefore).2] at hstate
      rw [(hf before).2]
      exact h.guarded.suspended hbefore hstate
  moves haccounts := by
    obtain ⟨l', hmoves, haccounts'⟩ := h.moves haccounts
    exact ⟨l', hmoves, (sameSignals_modifyTask k' tid hf).accounts haccounts'⟩

/-! ### Taking what is pending -/

theorem task_take_self (pid : GuestPid) (mask : SignalMask) (htask : k.task tid = some task) :
    ∃ task', (k.takePendingSignalForTask tid pid mask).2.task tid = some task' ∧ task'.pid = task.pid ∧
      task'.state = task.state ∧ task'.signalMask = task.signalMask := by
  rcases takePendingSignalForTask_cases k tid pid mask with
    ⟨_, _, -, -, heq⟩ | ⟨_, _, -, -, -, heq⟩ | ⟨-, -, heq⟩ <;> rw [heq]
  · rw [task_modifyTask, if_pos rfl, htask]
    exact ⟨_, rfl, rfl, rfl, rfl⟩
  · exact ⟨task, htask, rfl, rfl, rfl⟩
  · exact ⟨task, htask, rfl, rfl, rfl⟩

/-- A task that runs finds nothing, or takes a signal that the mask names from itself or its process. -/
theorem turn_take (hg : Guarded k) (htask : k.task tid = some task) (hruns : task.state = .runnable) (mask : SignalMask) :
    k.takePendingSignalForTask tid task.pid mask = (none, k) ∨
      ∃ signal target k₁, k.takePendingSignalForTask tid task.pid mask = (some signal, k₁) ∧ 0 < signal ∧
        k.view.Within target tid ∧ signal ∈ k.pending target ∧ signalMatchesMask signal mask = true ∧
        (∀ j s, s ∈ k₁.pending j ↔ s ∈ k.pending j ∧ ¬(j = target ∧ s = signal)) ∧
        (∀ j, k₁.delivery j = k.delivery j) ∧ Turned k k₁ tid ∧ Guarded k₁ ∧
        ∃ task₁, k₁.task tid = some task₁ ∧ task₁.pid = task.pid ∧ task₁.state = .runnable ∧
          task₁.signalMask = task.signalMask := by
  rcases take_cases k tid task.pid mask with ⟨-, heq⟩ | ⟨signal, hfinds, target, hwithin, hmem, hsome, hpending, -⟩
  · exact Or.inl heq
  · obtain ⟨task₁, htask₁, hpid, hstate, hmask⟩ := task_take_self task.pid mask htask
    have hothers : ∀ j, j ≠ tid → (k.takePendingSignalForTask tid task.pid mask).2.task j = k.task j :=
      fun j hj => task_take_of_ne task.pid mask hj
    have hpositive : 0 < signal := by
      have hnamed := hfinds.1
      rw [signalMatchesMask_eq, Bool.and_eq_true, Bool.and_eq_true, decide_eq_true_eq] at hnamed
      exact hnamed.1.1
    have hview : k.view.Within target tid := hwithin.imp_right fun heq => ⟨task.pid, heq, view_owner htask⟩
    refine Or.inr ⟨signal, target, _, Prod.ext hsome rfl, hpositive, hview, hmem, hfinds.1, hpending,
      delivery_take k tid task.pid mask, ⟨stateOf_of_task htask ▸ congrArg some hruns, hothers⟩, ?_,
      task₁, htask₁, hpid, hstate.trans hruns, hmask⟩
    refine hg.turned hothers (fun t ht => ?_) fun t allowed ht hsuspended => ?_
    · rw [← Option.some.inj (htask₁.symm.trans ht), hmask]
      exact hg.mask tid task htask
    · rw [← Option.some.inj (htask₁.symm.trans ht), hstate, hruns] at hsuspended
      exact nomatch hsuspended

/-! ### The way back to user code -/

theorem takePendingSignalForReturnToUser_of_task (htask : k.task tid = some task) :
    k.takePendingSignalForReturnToUser tid = match task.pendingSignalDelivery with
      | some signal => (some signal, k.modifyTask tid fun task => { task with pendingSignalDelivery := none })
      | none => k.takePendingSignalForTask tid task.pid (~~~task.signalMask) := by
  rw [takePendingSignalForReturnToUser, htask]
  rfl

/-- No signal is delivered from the slot of a task whose slot is not empty twice, nor one that the mask blocks. -/
theorem returnToUser_moves (hg : Guarded k) (htask : k.task tid = some task) (hruns : task.state = .runnable)
    {signal : Nat} (htake : k.takePendingSignalForReturnToUser tid = (some signal, k')) :
    TurnMoves k.view k k' tid [.delivered tid signal] ∧
      ∃ task', k'.task tid = some task' ∧ task'.pid = task.pid ∧ task'.state = .runnable ∧
        task'.signalMask = task.signalMask := by
  rw [takePendingSignalForReturnToUser_of_task htask] at htake
  cases hslot : task.pendingSignalDelivery with
  | some held =>
      rw [hslot] at htake
      obtain ⟨heq, hk'⟩ := Prod.mk.inj htake
      obtain rfl := Option.some.inj heq
      have htask' : k'.task tid = some { task with pendingSignalDelivery := none } := by
        rw [← hk', task_modifyTask, if_pos rfl, htask, Option.map_some]
      have hothers : ∀ j, j ≠ tid → k'.task j = k.task j := fun j hj => by rw [← hk', task_modifyTask, if_neg hj]
      have hpending : ∀ j s, s ∈ k'.pending j ↔ s ∈ k.pending j := fun j s => by
        rw [← hk', pending_modifyTask_of_keeps fun _ => by rfl]
      have hdelivery : ∀ j, k'.delivery j = if j = tid then none else k.delivery j := fun j => by
        by_cases hj : j = tid
        · rw [if_pos hj, hj, delivery_of_task htask']
        · rw [if_neg hj, delivery, hothers j hj, ← delivery]
      refine ⟨⟨⟨stateOf_of_task htask ▸ congrArg some hruns, hothers⟩, ?_, fun {l} haccounts => ?_⟩,
        _, htask', rfl, hruns, rfl⟩
      · refine hg.turned hothers (fun t ht => ?_) fun t allowed ht hsuspended => ?_
        · rw [← Option.some.inj (htask'.symm.trans ht)]
          exact hg.mask tid task htask
        · rw [← Option.some.inj (htask'.symm.trans ht)] at hsuspended
          cases hruns.symm.trans hsuspended
      · obtain ⟨target, hmem, haccounts'⟩ := haccounts.release ((delivery_of_task htask).trans hslot) hpending hdelivery
        exact ⟨_, Moves.start.release hmem, haccounts'⟩
  | none =>
      rw [hslot] at htake
      dsimp only at htake
      rcases turn_take hg htask hruns (~~~task.signalMask) with hnone | ⟨s, target, k₁, heq, -, hwithin, hmem, hnamed,
        hpending, hdelivery, hturned, hguarded, task₁, htask₁, hpid, hstate, hmask⟩
      · rw [hnone] at htake
        cases congrArg Prod.fst htake
      · rw [heq] at htake
        obtain ⟨hsignal, rfl⟩ := Prod.mk.inj htake
        obtain rfl := Option.some.inj hsignal
        have hblocked : signalMatchesMask s (k.view.mask tid) = false := by
          have hnot := signalMatchesMask_not hnamed
          rwa [BitVec.not_not, show task.signalMask = k.view.mask tid by rw [view_mask htask, GuestTask.heldBack, hruns]] at hnot
        refine ⟨⟨hturned, hguarded, fun {l} haccounts => ?_⟩, task₁, htask₁, hpid, hstate, hmask⟩
        exact ⟨_, Moves.start.deliver (haccounts.mem_pending.mpr hmem) hwithin hblocked,
          haccounts.handOver hmem hpending hdelivery tid⟩

/-! ### Waits for signals -/

theorem sameSignals_parkSignalWait (k : GuestKernel) (tid : GuestTid) (state : TaskState) :
    SameSignals k (k.parkSignalWait tid state) :=
  (sameSignals_modifyTask k tid (f := fun task =>
    { task with regs := task.regs.withSyscallReturn (k.currentSyscallReturnRip tid) task.regs.rax }) fun _ => ⟨rfl, rfl⟩).trans
    (sameSignals_setTaskState _ tid state)

theorem task_parkSignalWait (htask : k.task tid = some task) (state : TaskState) (j : GuestTid) :
    (k.parkSignalWait tid state).task j = if j = tid then some { task with
      regs := task.regs.withSyscallReturn (k.currentSyscallReturnRip tid) task.regs.rax, state := state } else k.task j := by
  rw [parkSignalWait, task_setTaskState, task_modifyTask, if_pos rfl, htask]
  by_cases hj : j = tid
  · rw [if_pos hj, if_pos hj]
    rfl
  · rw [if_neg hj, if_neg hj, task_modifyTask, if_neg hj]

theorem turnMoves_park (hg : Guarded k) (htask : k.task tid = some task) (hruns : task.state = .runnable)
    {state : TaskState} (hslot : ∀ allowed, state = .waitingForSignalSuspend allowed →
      task.pendingSignalDelivery = none ∧ Sanitized (~~~allowed)) :
    TurnMoves view k (k.parkSignalWait tid state) tid [] := by
  have hothers : ∀ j, j ≠ tid → (k.parkSignalWait tid state).task j = k.task j := fun j hj => by
    rw [task_parkSignalWait htask, if_neg hj]
  refine turnMoves_of_sameSignals ⟨stateOf_of_task htask ▸ congrArg some hruns, hothers⟩ ?_
    (sameSignals_parkSignalWait k tid state)
  refine hg.turned hothers (fun t ht => ?_) fun t allowed ht hsuspended => ?_
  · rw [task_parkSignalWait htask, if_pos rfl] at ht
    rw [← Option.some.inj ht]
    exact hg.mask tid task htask
  · rw [task_parkSignalWait htask, if_pos rfl] at ht
    rw [← Option.some.inj ht] at hsuspended ⊢
    exact hslot allowed hsuspended

theorem rtSigtimedwaitCurrent_moves (hg : Guarded k) (htask : k.task tid = some task) (hruns : task.state = .runnable)
    (mask : SignalMask) (sigsetsize : Nat) (waitIndefinitely : Bool) :
    (∃ signal k₁, k.rtSigtimedwaitCurrent tid mask sigsetsize waitIndefinitely = (.success signal, k₁) ∧ 0 < signal ∧
        (k.takePendingSignalForTask tid task.pid mask).1 = some signal ∧
        TurnMoves k.view k k₁ tid [.returned tid signal]) ∨
      ∃ outcome k₁, k.rtSigtimedwaitCurrent tid mask sigsetsize waitIndefinitely = (outcome, k₁) ∧
        (∀ signal, outcome.result = .success signal → signal = 0) ∧ TurnMoves k.view k k₁ tid [] := by
  have hstate : k.stateOf tid = some .runnable := stateOf_of_task htask ▸ congrArg some hruns
  unfold rtSigtimedwaitCurrent
  split
  · exact Or.inr ⟨_, k, rfl, nofun, turnMoves_refl hstate hg⟩
  · rw [htask]
    dsimp only
    rcases turn_take hg htask hruns mask with hnone | ⟨signal, target, k₁, heq, hpositive, hwithin, hmem, -, hpending,
      hdelivery, hturned, hguarded, -⟩
    · rw [hnone]
      dsimp only
      split
      · refine Or.inr ⟨_, _, rfl, fun signal hsuccess => (SyscallReturn.success.inj hsuccess).symm, ?_⟩
        exact turnMoves_park hg htask hruns fun allowed hsuspended => nomatch hsuspended
      · exact Or.inr ⟨_, k, rfl, nofun, turnMoves_refl hstate hg⟩
    · rw [heq]
      refine Or.inl ⟨signal, k₁, rfl, hpositive, rfl, hturned, hguarded, fun haccounts => ?_⟩
      exact ⟨_, Moves.start.wait (haccounts.mem_pending.mpr hmem) hwithin, haccounts.handOver hmem hpending hdelivery tid⟩

def viewUnder (k : GuestKernel) (tid : GuestTid) (mask : SignalMask) : TaskView :=
  { k.view with mask := fun j => if j = tid then mask else k.view.mask j }

theorem rtSigsuspendCurrent_moves (hg : Guarded k) (htask : k.task tid = some task) (hruns : task.state = .runnable)
    (hslot : task.pendingSignalDelivery = none) {temporaryMask : SignalMask} (sigsetsize : Nat)
    (hsanitized : sigsetsize = linuxKernelSigsetSize → Sanitized temporaryMask) :
    TurnMoves (k.viewUnder tid temporaryMask) k (k.rtSigsuspendCurrent tid (~~~temporaryMask) sigsetsize).2 tid [] := by
  have hstate : k.stateOf tid = some .runnable := stateOf_of_task htask ▸ congrArg some hruns
  unfold rtSigsuspendCurrent
  split
  · exact turnMoves_refl hstate hg
  · rename_i hsize
    rw [htask]
    dsimp only
    rcases turn_take hg htask hruns (~~~temporaryMask) with hnone | ⟨signal, target, k₁, heq, -, hwithin, hmem, hnamed,
      hpending, hdelivery, hturned, hguarded, task₁, htask₁, -, hruns₁, -⟩
    · rw [hnone]
      refine turnMoves_park hg htask hruns fun allowed hsuspended => ⟨hslot, ?_⟩
      obtain rfl := TaskState.waitingForSignalSuspend.inj hsuspended
      rw [BitVec.not_not]
      exact hsanitized (not_not.mp hsize)
    · rw [heq]
      dsimp only
      obtain ⟨k₂, hk₂⟩ : ∃ k₂, k₂ = k₁.modifyTask tid fun task => { task with pendingSignalDelivery := some signal } :=
        ⟨_, rfl⟩
      rw [← hk₂]
      have htask₂ : k₂.task tid = some { task₁ with pendingSignalDelivery := some signal } := by
        rw [hk₂, task_modifyTask, if_pos rfl, htask₁, Option.map_some]
      have hothers : ∀ j, j ≠ tid → k₂.task j = k₁.task j := fun j hj => by rw [hk₂, task_modifyTask, if_neg hj]
      have hpending₂ : ∀ j s, s ∈ k₂.pending j ↔ s ∈ k.pending j ∧ ¬(j = target ∧ s = signal) := fun j s => by
        rw [hk₂, pending_modifyTask_of_keeps fun _ => by rfl]
        exact hpending j s
      have hdelivery₂ : ∀ j, k₂.delivery j = if j = tid then some signal else k.delivery j := fun j => by
        by_cases hj : j = tid
        · rw [if_pos hj, hj, delivery_of_task htask₂]
        · rw [if_neg hj, delivery, hothers j hj, ← delivery, hdelivery]
      have hempty : k.delivery tid = none := (delivery_of_task htask).trans hslot
      have hblocked : signalMatchesMask signal ((k.viewUnder tid temporaryMask).mask tid) = false := by
        have hnot := signalMatchesMask_not hnamed
        rw [BitVec.not_not] at hnot
        exact (congrArg (signalMatchesMask signal) (if_pos rfl)).trans hnot
      refine ⟨⟨hstate, fun j hj => (hothers j hj).trans (hturned.others j hj)⟩, ?_, fun haccounts => ?_⟩
      · refine hguarded.turned hothers (fun t ht => ?_) fun t allowed ht hsuspended => ?_
        · rw [← Option.some.inj (htask₂.symm.trans ht)]
          exact hguarded.mask tid task₁ htask₁
        · rw [← Option.some.inj (htask₂.symm.trans ht)] at hsuspended
          cases hruns₁.symm.trans hsuspended
      · exact ⟨_, Moves.start.hold (haccounts.mem_pending.mpr hmem) hwithin hblocked (haccounts.held_none hempty),
          haccounts.hold hmem hpending₂ hempty hdelivery₂⟩

end GuestKernel

end Mcr.Task
