import Mcr.Task.Runs

/-!
# Parked signal waits

A task parked in `rt_sigtimedwait` or `rt_sigsuspend` never has a pending signal it waits for: a wait is parked
only when it finds none, pending sets shrink by themselves, and every entry that makes a signal pending wakes the
waiters of the process that it made it pending for.
-/

namespace Mcr.Task

/-- Whom a signal is pending for. -/
inductive SignalTarget
  | process (pid : GuestPid)
  | task (tid : GuestTid)
deriving DecidableEq, Repr

namespace GuestKernel

variable {k k' : GuestKernel} {scope : Scope} {load : GuestProgram → Except TaskError GuestImageState}

/-! ### What is pending -/

def pending (k : GuestKernel) : SignalTarget → SortedSet Nat
  | .process pid => ((k.process pid).map GuestProcess.pendingSignals).getD .empty
  | .task tid => ((k.task tid).map GuestTask.pendingSignals).getD .empty

theorem pending_of_task {tid : GuestTid} {task : GuestTask} (h : k.task tid = some task) :
    k.pending (.task tid) = task.pendingSignals := by
  rw [pending, h, Option.map_some, Option.getD_some]

theorem pending_of_process {pid : GuestPid} {process : GuestProcess} (h : k.process pid = some process) :
    k.pending (.process pid) = process.pendingSignals := by
  rw [pending, h, Option.map_some, Option.getD_some]

theorem pending_modifyTask (k : GuestKernel) (tid : GuestTid) (f : GuestTask → GuestTask) (target : SignalTarget) :
    (k.modifyTask tid f).pending target =
      if target = .task tid then ((k.task tid).map fun task => (f task).pendingSignals).getD .empty
      else k.pending target := by
  cases target with
  | process pid => simp [pending]
  | task j =>
      rw [pending, task_modifyTask, pending]
      by_cases hj : j = tid
      · simp [hj, Function.comp_def]
      · simp [hj]

theorem pending_modifyProcess (k : GuestKernel) (pid : GuestPid) (f : GuestProcess → GuestProcess)
    (target : SignalTarget) : (k.modifyProcess pid f).pending target =
      if target = .process pid then ((k.process pid).map fun process => (f process).pendingSignals).getD .empty
      else k.pending target := by
  cases target with
  | task tid => simp [pending]
  | process j =>
      rw [pending, process_modifyProcess, pending]
      by_cases hj : j = pid
      · simp [hj, Function.comp_def]
      · simp [hj]

theorem pending_modifyTask_of_keeps {f : GuestTask → GuestTask}
    (hf : ∀ task, (f task).pendingSignals = task.pendingSignals) (k : GuestKernel) (tid : GuestTid)
    (target : SignalTarget) : (k.modifyTask tid f).pending target = k.pending target := by
  rw [pending_modifyTask]
  split
  · rename_i htarget
    simp only [hf, htarget, pending]
  · rfl

theorem pending_modifyProcess_of_keeps {f : GuestProcess → GuestProcess}
    (hf : ∀ process, (f process).pendingSignals = process.pendingSignals) (k : GuestKernel) (pid : GuestPid)
    (target : SignalTarget) : (k.modifyProcess pid f).pending target = k.pending target := by
  rw [pending_modifyProcess]
  split
  · rename_i htarget
    simp only [hf, htarget, pending]
  · rfl

@[simp] theorem pending_setTaskState (k : GuestKernel) (tid : GuestTid) (state : TaskState) (target : SignalTarget) :
    (k.setTaskState tid state).pending target = k.pending target := by
  cases target with
  | process pid => simp [pending]
  | task j =>
      rw [pending, task_setTaskState, pending]
      by_cases hj : j = tid
      · simp [hj, Function.comp_def]
      · simp [hj]

theorem mem_pending_takeTask {tid : GuestTid} {signal s : Nat} {target : SignalTarget} :
    s ∈ (k.modifyTask tid fun task => { task with pendingSignals := task.pendingSignals.erase signal }).pending target ↔
      s ∈ k.pending target ∧ ¬(target = .task tid ∧ s = signal) := by
  rw [pending_modifyTask]
  by_cases htarget : target = .task tid
  · subst htarget
    rw [if_pos rfl, pending]
    cases k.task tid with
    | none => simp
    | some task => simp [and_comm]
  · simp [htarget]

theorem mem_pending_takeProcess {pid : GuestPid} {signal s : Nat} {target : SignalTarget} :
    s ∈ (k.modifyProcess pid fun process =>
        { process with pendingSignals := process.pendingSignals.erase signal }).pending target ↔
      s ∈ k.pending target ∧ ¬(target = .process pid ∧ s = signal) := by
  rw [pending_modifyProcess]
  by_cases htarget : target = .process pid
  · subst htarget
    rw [if_pos rfl, pending]
    cases k.process pid with
    | none => simp
    | some process => simp [and_comm]
  · simp [htarget]

theorem mem_pending_postTask {tid : GuestTid} {signal s : Nat} {target : SignalTarget} :
    s ∈ (k.modifyTask tid fun task => { task with pendingSignals := task.pendingSignals.insert signal }).pending target ↔
      s ∈ k.pending target ∨ (target = .task tid ∧ s = signal ∧ (k.task tid).isSome = true) := by
  rw [pending_modifyTask]
  by_cases htarget : target = .task tid
  · subst htarget
    rw [if_pos rfl, pending]
    cases k.task tid with
    | none => simp
    | some task => simp [or_comm]
  · simp [htarget]

theorem mem_pending_postProcess {pid : GuestPid} {signal s : Nat} {target : SignalTarget} :
    s ∈ (k.modifyProcess pid fun process =>
        { process with pendingSignals := process.pendingSignals.insert signal }).pending target ↔
      s ∈ k.pending target ∨ (target = .process pid ∧ s = signal ∧ (k.process pid).isSome = true) := by
  rw [pending_modifyProcess]
  by_cases htarget : target = .process pid
  · subst htarget
    rw [if_pos rfl, pending]
    cases k.process pid with
    | none => simp
    | some process => simp [or_comm]
  · simp [htarget]

/-! ### Finding signals -/

theorem signalMatchesMask_eq (signal : Nat) (mask : SignalMask) :
    signalMatchesMask signal mask =
      (decide (0 < signal) && decide (signal ≤ linuxSignalCount) && mask.getLsbD (signal - 1)) := by
  by_cases hvalid : 0 < signal ∧ signal ≤ linuxSignalCount
  · obtain ⟨hpos, hle⟩ := hvalid
    have hindex : signal - 1 < 64 := by
      have hbound : signal ≤ 64 := hle
      omega
    have hbit : (mask &&& (1#64 <<< (signal - 1)) != 0) = mask.getLsbD (signal - 1) := by
      rw [← BitVec.twoPow_eq, BitVec.and_twoPow]
      cases mask.getLsbD (signal - 1) with
      | false => rfl
      | true =>
          have hne : BitVec.twoPow 64 (signal - 1) ≠ 0 := by
            intro hzero
            have hget := congrArg (fun v => v.getLsbD (signal - 1)) hzero
            simp [hindex] at hget
          simpa using hne
    rw [signalMatchesMask, hbit]
  · unfold signalMatchesMask
    rcases not_and_or.mp hvalid with h | h <;> simp [h]

/-- The signal is pending for the task, or for its process, and the mask names it. -/
def Finds (k : GuestKernel) (tid : GuestTid) (pid : GuestPid) (mask : SignalMask) (signal : Nat) : Prop :=
  signalMatchesMask signal mask = true ∧ (signal ∈ k.pending (.task tid) ∨ signal ∈ k.pending (.process pid))

theorem takePendingSignal_eq_some {pending : SortedSet Nat} {mask : SignalMask} {signal : Nat}
    (h : takePendingSignal pending mask = some signal) :
    signal ∈ pending ∧ signalMatchesMask signal mask = true :=
  ⟨SortedSet.mem_toList.mp (List.mem_of_find?_eq_some h),
    List.find?_some (p := fun signal => signalMatchesMask signal mask) h⟩

theorem takePendingSignal_eq_none {pending : SortedSet Nat} {mask : SignalMask}
    (h : takePendingSignal pending mask = none) {signal : Nat} (hmem : signal ∈ pending) :
    ¬signalMatchesMask signal mask = true :=
  List.find?_eq_none.mp h signal (SortedSet.mem_toList.mpr hmem)

theorem take_cases (k : GuestKernel) (tid : GuestTid) (pid : GuestPid) (mask : SignalMask) :
    ((∀ signal, ¬k.Finds tid pid mask signal) ∧ k.takePendingSignalForTask tid pid mask = (none, k)) ∨
      ∃ signal, k.Finds tid pid mask signal ∧ ∃ target, (target = .task tid ∨ target = .process pid) ∧
        signal ∈ k.pending target ∧ (k.takePendingSignalForTask tid pid mask).1 = some signal ∧
        (∀ j s, s ∈ (k.takePendingSignalForTask tid pid mask).2.pending j ↔
          s ∈ k.pending j ∧ ¬(j = target ∧ s = signal)) ∧
        ∀ j, (k.takePendingSignalForTask tid pid mask).2.stateOf j = k.stateOf j := by
  rcases takePendingSignalForTask_cases k tid pid mask with
    ⟨task, signal, htask, htake, heq⟩ | ⟨process, signal, hprocess, -, htake, heq⟩ | ⟨htask, hprocess, heq⟩
  · obtain ⟨hmem, hnamed⟩ := takePendingSignal_eq_some htake
    rw [← pending_of_task htask] at hmem
    rw [heq]
    exact Or.inr ⟨signal, ⟨hnamed, Or.inl hmem⟩, .task tid, Or.inl rfl, hmem, rfl, fun _ _ => mem_pending_takeTask,
      stateOf_modifyTask (fun _ => by rfl) k tid⟩
  · obtain ⟨hmem, hnamed⟩ := takePendingSignal_eq_some htake
    rw [← pending_of_process hprocess] at hmem
    rw [heq]
    exact Or.inr ⟨signal, ⟨hnamed, Or.inr hmem⟩, .process pid, Or.inr rfl, hmem, rfl,
      fun _ _ => mem_pending_takeProcess, fun _ => rfl⟩
  · refine Or.inl ⟨?_, heq⟩
    rintro signal ⟨hnamed, hmem | hmem⟩
    · cases hget : k.task tid with
      | none => simp [pending, hget] at hmem
      | some task => exact takePendingSignal_eq_none (htask task hget) (pending_of_task hget ▸ hmem) hnamed
    · cases hget : k.process pid with
      | none => simp [pending, hget] at hmem
      | some process => exact takePendingSignal_eq_none (hprocess process hget) (pending_of_process hget ▸ hmem) hnamed

theorem not_finds_of_none {tid : GuestTid} {pid : GuestPid} {mask : SignalMask}
    (h : (k.takePendingSignalForTask tid pid mask).1 = none) (signal : Nat) : ¬k.Finds tid pid mask signal := by
  rcases take_cases k tid pid mask with ⟨hnone, -⟩ | ⟨_, -, _, -, -, hsome, -⟩
  · exact hnone signal
  · exact nomatch h.symm.trans hsome

/-! ### Pending sets that only shrink -/

def Shrinks (k k' : GuestKernel) : Prop := ∀ target signal, signal ∈ k'.pending target → signal ∈ k.pending target

theorem shrinks_of_eq (h : ∀ target, k'.pending target = k.pending target) : Shrinks k k' :=
  fun target _ hmem => h target ▸ hmem

theorem Shrinks.finds (h : Shrinks k k') {tid : GuestTid} {pid : GuestPid} {mask : SignalMask} {signal : Nat}
    (hfinds : k'.Finds tid pid mask signal) : k.Finds tid pid mask signal :=
  ⟨hfinds.1, hfinds.2.imp (h _ signal) (h _ signal)⟩

theorem QuietEdit.shrinks (h : QuietEdit scope k k') (hposts : ¬scope.posts) : Shrinks k k' := by
  cases h with
  | task tid f hf => exact shrinks_of_eq (pending_modifyTask_of_keeps (fun task => (hf.kept task).2.2.2.2.1) k tid)
  | process pid f hf =>
      exact shrinks_of_eq (pending_modifyProcess_of_keeps (fun process => (hf.kept process).2.2.2.2) k pid)
  | mask tid mask => exact shrinks_of_eq (pending_modifyTask_of_keeps (fun _ => by rfl) k tid)
  | takeTask tid signal => exact fun _ _ hmem => (mem_pending_takeTask.mp hmem).1
  | takeProcess pid signal => exact fun _ _ hmem => (mem_pending_takeProcess.mp hmem).1
  | slot tid signal => exact shrinks_of_eq (pending_modifyTask_of_keeps (fun _ => by rfl) k tid)
  | postTask _ _ h => exact absurd h hposts
  | postProcess _ _ h => exact absurd h hposts
  | wake tid => exact shrinks_of_eq (pending_setTaskState k tid .runnable)
  | requeue tid source target => exact shrinks_of_eq (pending_setTaskState k tid (.waitingForFutex target))
  | park tid state => exact shrinks_of_eq (pending_setTaskState k tid state)
  | exit tid status => exact shrinks_of_eq (pending_setTaskState k tid (.exited status))

theorem shrinks_insertTask (k : GuestKernel) (task : GuestTask) (hempty : task.pendingSignals = .empty) :
    Shrinks k (k.insertTask task) := by
  intro target signal hmem
  cases target with
  | process pid => simpa [pending] using hmem
  | task tid =>
      rw [pending, task_insertTask] at hmem
      split at hmem
      · simp [hempty] at hmem
      · exact hmem

theorem shrinks_insertFork (k : GuestKernel) (parentTask : GuestTask) (parent : GuestProcess) (childPid : GuestPid)
    (childTid : GuestTid) : Shrinks k (k.insertFork parentTask parent childPid childTid) := by
  intro target signal hmem
  rw [insertFork, pending_modifyProcess_of_keeps (fun _ => by rfl)] at hmem
  have hbefore := shrinks_insertTask _ (forkedTask parentTask childPid childTid) rfl target signal hmem
  cases target with
  | task tid => exact hbefore
  | process pid =>
      rw [pending, process, SortedMap.get?_insert] at hbefore
      split at hbefore
      · simp [forkedProcess] at hbefore
      · exact hbefore

theorem shrinks_withoutProcess (k : GuestKernel) (pid : GuestPid) : Shrinks k (k.withoutProcess pid) := by
  intro target signal hmem
  cases target with
  | process j =>
      rw [pending, process_withoutProcess] at hmem
      split at hmem
      · simp at hmem
      · exact hmem
  | task tid =>
      change signal ∈ ((((k.tidsOf pid).foldl GuestKernel.removeTask k).task tid).map
        GuestTask.pendingSignals).getD .empty at hmem
      rw [task_foldl_removeTask] at hmem
      split at hmem
      · simp at hmem
      · exact hmem

theorem KernelEdit.shrinks (h : KernelEdit scope k k') (hposts : ¬scope.posts) : Shrinks k k' := by
  cases h with
  | quiet h => exact h.shrinks hposts
  | ended pid status => exact shrinks_of_eq (pending_modifyProcess_of_keeps (fun _ => by rfl) k pid)
  | image pid image => exact shrinks_of_eq (pending_modifyProcess_of_keeps (fun _ => by rfl) k pid)
  | revive tid => exact shrinks_of_eq (pending_setTaskState k tid .runnable)
  | spendPid => exact fun target _ hmem => by cases target <;> exact hmem
  | fork tid parentTask parent =>
      intro target signal hmem
      have hbefore := shrinks_insertFork _ parentTask parent k.nextPid k.nextTid target signal hmem
      cases target <;> exact hbefore
  | thread tid parentTask _ _ args childRegs =>
      intro target signal hmem
      have hbefore := shrinks_insertTask _ (threadTask parentTask args k.nextTid childRegs) rfl target signal hmem
      cases target <;> exact hbefore
  | reap parentPid childPid =>
      intro target signal hmem
      rw [pending_modifyProcess_of_keeps (fun _ => by rfl)] at hmem
      exact shrinks_withoutProcess k childPid target signal hmem

/-! ### Settled waits -/

/-- If the task is parked in a wait for a signal, none that it waits for is pending. -/
def SettledAt (k : GuestKernel) (tid : GuestTid) : Prop :=
  ∀ task mask returnsSignal, k.task tid = some task → signalWait task.state = some (mask, returnsSignal) →
    ∀ signal, ¬k.Finds tid task.pid mask signal

theorem KernelEdit.settledAt (h : KernelEdit scope k k') (hk : Consistent k) (hposts : ¬scope.posts) {tid : GuestTid}
    (hsettled : k.SettledAt tid) : k'.SettledAt tid := by
  intro task' mask returnsSignal htask' hwait signal hfinds
  have hbefore := (h.shrinks hposts).finds hfinds
  have hstate : k'.stateOf tid = some task'.state := by rw [stateOf, htask', Option.map_some]
  have hold : ∀ {state}, k.stateOf tid = some state → ∃ task, k.task tid = some task ∧ task.state = state ∧
      task'.pid = task.pid := by
    intro state hs
    obtain ⟨task, htask, hs⟩ := Option.map_eq_some_iff.mp hs
    rcases h.owner htask' with ⟨t, ht, hpid⟩ | hnew
    · obtain rfl := Option.some.inj (ht.symm.trans htask)
      exact ⟨t, ht, hs, hpid⟩
    · exact absurd (hk.tidBound htask) (not_lt.mpr hnew)
  generalize task'.state = state at hwait hstate
  cases h.becomes hstate with
  | kept hs =>
      obtain ⟨task, htask, rfl, hpid⟩ := hold hs
      exact hsettled task mask returnsSignal htask hwait signal (hpid ▸ hbefore)
  | parked hs _ hparks _ _ =>
      obtain ⟨task, htask, -, hpid⟩ := hold hs
      exact not_finds_of_none (hparks.signal mask returnsSignal hwait task htask) signal (hpid ▸ hbefore)
  | _ => cases hwait

theorem Edits.settledAt (h : Edits scope k k') (hk : Consistent k) (hposts : ¬scope.posts) {tid : GuestTid}
    (hsettled : k.SettledAt tid) : k'.SettledAt tid :=
  h.preserves_consistent (fun hedit hk hsettled => hedit.settledAt hk hposts hsettled) hk hsettled

/-! ### Waking the waiters -/

def ownerOf (k : GuestKernel) (tid : GuestTid) : Option GuestPid := (k.task tid).map GuestTask.pid

structure Steady {α : Type} (g : GuestTask → α) : Prop where
  state : ∀ task state, g { task with state := state } = g task
  pending : ∀ task pending, g { task with pendingSignals := pending } = g task
  ended : ∀ task signal returnsSignal, g (endSignalWait signal returnsSignal task) = g task

theorem steady_pid : Steady GuestTask.pid := ⟨fun _ _ => rfl, fun _ _ => rfl, fun _ _ r => by cases r <;> rfl⟩

theorem steady_signalMask : Steady GuestTask.signalMask :=
  ⟨fun _ _ => rfl, fun _ _ => rfl, fun _ _ r => by cases r <;> rfl⟩

section

variable {α : Type} {g : GuestTask → α}

theorem map_modifyTask {f : GuestTask → GuestTask} (hf : ∀ task, g (f task) = g task) (k : GuestKernel)
    (tid j : GuestTid) : ((k.modifyTask tid f).task j).map g = (k.task j).map g := by
  rw [task_modifyTask]
  split
  · rename_i hj
    subst hj
    cases k.task j with
    | none => rfl
    | some task => exact congrArg some (hf task)
  · rfl

theorem Steady.setTaskState (hg : Steady g) (k : GuestKernel) (tid j : GuestTid) (state : TaskState) :
    ((k.setTaskState tid state).task j).map g = (k.task j).map g := by
  rw [task_setTaskState]
  split
  · rename_i hj
    subst hj
    cases k.task j with
    | none => rfl
    | some task => exact congrArg some (hg.state task state)
  · rfl

theorem Steady.takePendingSignalForTask (hg : Steady g) (k : GuestKernel) (tid : GuestTid) (pid : GuestPid)
    (mask : SignalMask) (j : GuestTid) :
    ((k.takePendingSignalForTask tid pid mask).2.task j).map g = (k.task j).map g := by
  rcases takePendingSignalForTask_cases k tid pid mask with
    ⟨_, _, -, -, heq⟩ | ⟨_, _, -, -, -, heq⟩ | ⟨-, -, heq⟩ <;> rw [heq]
  · exact map_modifyTask (fun task => hg.pending task _) k tid j
  · rfl

theorem Steady.wakeSignalWaiter (hg : Steady g) (k : GuestKernel) (pid : GuestPid) (tid : GuestTid)
    (mask : SignalMask) (returnsSignal : Bool) (j : GuestTid) :
    ((k.wakeSignalWaiter pid tid mask returnsSignal).task j).map g = (k.task j).map g := by
  have htake := hg.takePendingSignalForTask k tid pid mask j
  unfold GuestKernel.wakeSignalWaiter
  generalize k.takePendingSignalForTask tid pid mask = result at htake ⊢
  obtain ⟨_ | signal, k₁⟩ := result
  · exact htake
  · dsimp only at htake ⊢
    split
    · exact htake
    · rw [hg.setTaskState, map_modifyTask fun task => hg.ended task signal returnsSignal]
      exact htake

end

theorem endSignalWait_keeps (signal : Nat) (returnsSignal : Bool) (task : GuestTask) :
    (endSignalWait signal returnsSignal task).state = task.state ∧
      (endSignalWait signal returnsSignal task).pendingSignals = task.pendingSignals := by
  cases returnsSignal <;> exact ⟨rfl, rfl⟩

/-- One turn of the loop of `wake_signal_waiters`: the wait finds nothing, or takes a signal it finds and ends. -/
theorem wakeSignalWaiter_cases (k : GuestKernel) (pid : GuestPid) (tid : GuestTid) (mask : SignalMask)
    (returnsSignal : Bool) :
    ((∀ signal, ¬k.Finds tid pid mask signal) ∧ k.wakeSignalWaiter pid tid mask returnsSignal = k) ∨
      ∃ signal, k.Finds tid pid mask signal ∧ ∃ target, (target = .task tid ∨ target = .process pid) ∧
        (∀ j s, s ∈ (k.wakeSignalWaiter pid tid mask returnsSignal).pending j ↔
          s ∈ k.pending j ∧ ¬(j = target ∧ s = signal)) ∧
        ∀ j, (k.wakeSignalWaiter pid tid mask returnsSignal).stateOf j =
          if j = tid then (k.stateOf tid).map fun _ => .runnable else k.stateOf j := by
  unfold wakeSignalWaiter
  rcases take_cases k tid pid mask with ⟨hnone, heq⟩ | ⟨signal, hfinds, target, htarget, -, hsome, hpending, hstate⟩
  · exact Or.inl ⟨hnone, by rw [heq]⟩
  · refine Or.inr ⟨signal, hfinds, target, htarget, ?_⟩
    generalize k.takePendingSignalForTask tid pid mask = result at hsome hpending hstate ⊢
    obtain ⟨taken, k₁⟩ := result
    obtain rfl : taken = some signal := hsome
    dsimp only at hpending hstate ⊢
    cases htask : k₁.task tid with
    | none =>
        refine ⟨hpending, fun j => ?_⟩
        rw [← hstate, ← hstate]
        by_cases hj : j = tid
        · rw [if_pos hj, hj, stateOf, htask]
          rfl
        · rw [if_neg hj]
    | some task =>
        refine ⟨fun j s => ?_, fun j => ?_⟩
        · rw [pending_setTaskState, pending_modifyTask_of_keeps fun task => (endSignalWait_keeps signal _ task).2]
          exact hpending j s
        · rw [stateOf_setTaskState, stateOf_modifyTask fun task => (endSignalWait_keeps signal _ task).1,
            stateOf_modifyTask fun task => (endSignalWait_keeps signal _ task).1, hstate, hstate]

def wakeEach (pid : GuestPid) (waiters : List (GuestTid × SignalMask × Bool)) (k : GuestKernel) : GuestKernel :=
  waiters.foldl (fun k (tid, mask, returnsSignal) => k.wakeSignalWaiter pid tid mask returnsSignal) k

theorem shrinks_wakeSignalWaiter (k : GuestKernel) (pid : GuestPid) (tid : GuestTid) (mask : SignalMask)
    (returnsSignal : Bool) : Shrinks k (k.wakeSignalWaiter pid tid mask returnsSignal) := by
  rcases wakeSignalWaiter_cases k pid tid mask returnsSignal with ⟨-, heq⟩ | ⟨_, -, _, -, hpending, -⟩
  · rw [heq]
    exact fun _ _ => id
  · exact fun target signal hmem => ((hpending target signal).mp hmem).1

theorem runnable_wakeEach (pid : GuestPid) (waiters : List (GuestTid × SignalMask × Bool)) (k : GuestKernel)
    {j : GuestTid} (h : k.stateOf j = some .runnable) : (wakeEach pid waiters k).stateOf j = some .runnable := by
  induction waiters generalizing k with
  | nil => exact h
  | cons waiter rest ih =>
      obtain ⟨tid, mask, returnsSignal⟩ := waiter
      refine ih (k.wakeSignalWaiter pid tid mask returnsSignal) ?_
      rcases wakeSignalWaiter_cases k pid tid mask returnsSignal with ⟨-, heq⟩ | ⟨_, -, _, -, -, hstate⟩
      · rw [heq, h]
      · rw [hstate]
        split
        · rename_i hj
          rw [← hj, h, Option.map_some]
        · exact h

theorem stateOf_wakeEach (pid : GuestPid) (waiters : List (GuestTid × SignalMask × Bool)) (k : GuestKernel)
    (j : GuestTid) : (wakeEach pid waiters k).stateOf j = k.stateOf j ∨
      (wakeEach pid waiters k).stateOf j = some .runnable ∧
        ∃ mask returnsSignal signal, (j, mask, returnsSignal) ∈ waiters ∧ k.Finds j pid mask signal := by
  induction waiters generalizing k with
  | nil => exact Or.inl rfl
  | cons waiter rest ih =>
      obtain ⟨tid, mask, returnsSignal⟩ := waiter
      have hshrinks := shrinks_wakeSignalWaiter k pid tid mask returnsSignal
      rcases ih (k.wakeSignalWaiter pid tid mask returnsSignal) with hkept | ⟨hwoken, m, r, signal, hmem, hfinds⟩
      · rcases wakeSignalWaiter_cases k pid tid mask returnsSignal with ⟨-, heq⟩ | ⟨signal, hfinds, _, -, -, hstate⟩
        · exact Or.inl (hkept.trans (by rw [heq]))
        · rw [hstate] at hkept
          split at hkept
          · rename_i hj
            cases hold : k.stateOf tid with
            | none =>
                rw [hold, Option.map_none] at hkept
                exact Or.inl (hkept.trans (hj ▸ hold.symm))
            | some state =>
                rw [hold, Option.map_some] at hkept
                exact Or.inr ⟨hkept, mask, returnsSignal, signal, hj ▸ List.mem_cons_self, hj ▸ hfinds⟩
          · exact Or.inl hkept
      · exact Or.inr ⟨hwoken, m, r, signal, List.mem_cons_of_mem _ hmem, hshrinks.finds hfinds⟩

theorem taken_wakeEach (pid : GuestPid) (waiters : List (GuestTid × SignalMask × Bool)) (k : GuestKernel)
    {target : SignalTarget} {signal : Nat} (hbefore : signal ∈ k.pending target)
    (hafter : signal ∉ (wakeEach pid waiters k).pending target) :
    ∃ tid mask returnsSignal, (tid, mask, returnsSignal) ∈ waiters ∧ k.Finds tid pid mask signal ∧
      (target = .task tid ∨ target = .process pid) ∧
      ∀ state, k.stateOf tid = some state → (wakeEach pid waiters k).stateOf tid = some .runnable := by
  induction waiters generalizing k with
  | nil => exact absurd hbefore hafter
  | cons waiter rest ih =>
      obtain ⟨tid, mask, returnsSignal⟩ := waiter
      have hshrinks := shrinks_wakeSignalWaiter k pid tid mask returnsSignal
      change signal ∉ (wakeEach pid rest (k.wakeSignalWaiter pid tid mask returnsSignal)).pending target at hafter
      by_cases hstill : signal ∈ (k.wakeSignalWaiter pid tid mask returnsSignal).pending target
      · obtain ⟨j, m, r, hmem, hfinds, htarget, hwoken⟩ := ih _ hstill hafter
        refine ⟨j, m, r, List.mem_cons_of_mem _ hmem, hshrinks.finds hfinds, htarget, fun state hstate => ?_⟩
        rcases wakeSignalWaiter_cases k pid tid mask returnsSignal with ⟨-, heq⟩ | ⟨_, -, _, -, -, hturn⟩
        · exact hwoken state (by rw [heq, hstate])
        · by_cases hj : j = tid
          · exact hwoken .runnable (by rw [hturn, if_pos hj, ← hj, hstate, Option.map_some])
          · exact hwoken state (by rw [hturn, if_neg hj, hstate])
      · rcases wakeSignalWaiter_cases k pid tid mask returnsSignal with
          ⟨-, heq⟩ | ⟨taken, hfinds, from_, hfrom, hpending, hturn⟩
        · rw [heq] at hstill
          exact absurd hbefore hstill
        · obtain ⟨rfl, rfl⟩ : target = from_ ∧ signal = taken := by
            by_contra hne
            exact hstill ((hpending target signal).mpr ⟨hbefore, hne⟩)
          refine ⟨tid, mask, returnsSignal, List.mem_cons_self, hfinds, hfrom, fun state hstate => ?_⟩
          exact runnable_wakeEach pid rest _ (by rw [hturn, if_pos rfl, hstate, Option.map_some])

def Answered (k : GuestKernel) (pid : GuestPid) (tid : GuestTid) (state : TaskState) (mask : SignalMask) : Prop :=
  k.stateOf tid = some .runnable ∨ k.stateOf tid = some state ∧ ∀ signal, ¬k.Finds tid pid mask signal

theorem answered_wakeSignalWaiter {pid : GuestPid} {j : GuestTid} {state : TaskState} {mask : SignalMask}
    (h : k.Answered pid j state mask) (tid : GuestTid) (m : SignalMask) (returnsSignal : Bool) :
    (k.wakeSignalWaiter pid tid m returnsSignal).Answered pid j state mask := by
  have hshrinks := shrinks_wakeSignalWaiter k pid tid m returnsSignal
  rcases wakeSignalWaiter_cases k pid tid m returnsSignal with ⟨-, heq⟩ | ⟨_, -, _, -, -, hturn⟩
  · rwa [heq]
  · by_cases hj : j = tid
    · have hthere : ∃ old, k.stateOf tid = some old := by
        rcases h with hrunnable | ⟨hstate, -⟩
        · exact ⟨_, hj ▸ hrunnable⟩
        · exact ⟨_, hj ▸ hstate⟩
      obtain ⟨old, hold⟩ := hthere
      exact Or.inl (by rw [hturn, if_pos hj, hold, Option.map_some])
    · rcases h with hrunnable | ⟨hstate, hnone⟩
      · exact Or.inl (by rw [hturn, if_neg hj, hrunnable])
      · exact Or.inr ⟨by rw [hturn, if_neg hj, hstate], fun signal hfinds => hnone signal (hshrinks.finds hfinds)⟩

theorem answered_wakeEach (pid : GuestPid) (waiters : List (GuestTid × SignalMask × Bool)) (k : GuestKernel)
    {j : GuestTid} {state : TaskState} {mask : SignalMask} {returnsSignal : Bool}
    (h : k.Answered pid j state mask ∨ k.stateOf j = some state ∧ (j, mask, returnsSignal) ∈ waiters) :
    (wakeEach pid waiters k).Answered pid j state mask := by
  induction waiters generalizing k with
  | nil => exact h.resolve_right fun h => List.not_mem_nil h.2
  | cons waiter rest ih =>
      obtain ⟨tid, m, r⟩ := waiter
      refine ih (k.wakeSignalWaiter pid tid m r) ?_
      rcases h with hanswered | ⟨hstate, hmem⟩
      · exact Or.inl (answered_wakeSignalWaiter hanswered tid m r)
      · rcases List.mem_cons.mp hmem with hhead | hrest
        · obtain ⟨rfl, hrest⟩ := Prod.mk.inj hhead
          obtain ⟨rfl, rfl⟩ := Prod.mk.inj hrest
          rcases wakeSignalWaiter_cases k pid j mask returnsSignal with ⟨hnone, heq⟩ | ⟨_, -, _, -, -, hturn⟩
          · exact Or.inl (Or.inr ⟨by rw [heq, hstate], heq.symm ▸ hnone⟩)
          · exact Or.inl (Or.inl (by rw [hturn, if_pos rfl, hstate, Option.map_some]))
        · rcases wakeSignalWaiter_cases k pid tid m r with ⟨-, heq⟩ | ⟨_, -, _, -, -, hturn⟩
          · exact Or.inr ⟨by rw [heq, hstate], hrest⟩
          · by_cases hj : j = tid
            · exact Or.inl (Or.inl (by rw [hturn, if_pos hj, ← hj, hstate, Option.map_some]))
            · exact Or.inr ⟨by rw [hturn, if_neg hj, hstate], hrest⟩

theorem Steady.wakeEach {α : Type} {g : GuestTask → α} (hg : Steady g) (pid : GuestPid)
    (waiters : List (GuestTid × SignalMask × Bool)) (k : GuestKernel) (j : GuestTid) :
    ((wakeEach pid waiters k).task j).map g = (k.task j).map g := by
  induction waiters generalizing k with
  | nil => rfl
  | cons waiter rest ih => exact (ih _).trans (hg.wakeSignalWaiter k pid waiter.1 waiter.2.1 waiter.2.2 j)

theorem shrinks_wakeEach (pid : GuestPid) (waiters : List (GuestTid × SignalMask × Bool)) (k : GuestKernel) :
    Shrinks k (wakeEach pid waiters k) := by
  induction waiters generalizing k with
  | nil => exact fun _ _ => id
  | cons waiter rest ih =>
      exact fun target signal hmem =>
        shrinks_wakeSignalWaiter k pid waiter.1 waiter.2.1 waiter.2.2 target signal (ih _ target signal hmem)

/-- Once the waiters of a process are woken, all of them are settled, and every other task that was. -/
theorem settledAt_wakeSignalWaiters (hk : Named k) (pid : GuestPid) {tid : GuestTid}
    (h : k.ownerOf tid = some pid ∨ k.SettledAt tid) : (k.wakeSignalWaiters pid).SettledAt tid := by
  change (wakeEach pid (k.signalWaiters pid) k).SettledAt tid
  intro task' mask returnsSignal htask' hwait signal hfinds
  have howner := steady_pid.wakeEach pid (k.signalWaiters pid) k tid
  rw [htask', Option.map_some] at howner
  obtain ⟨task, htask, hpid⟩ := Option.map_eq_some_iff.mp howner.symm
  rcases stateOf_wakeEach pid (k.signalWaiters pid) k tid with hkept | ⟨hrunnable, -⟩
  · simp only [stateOf, htask', htask, Option.map_some, Option.some.injEq] at hkept
    rw [hkept] at hwait
    rcases h with hown | hsettled
    · rw [ownerOf, htask, Option.map_some, Option.some.injEq] at hown
      have hmem := (mem_signalWaiters hk).mpr ⟨task, htask, hown, hwait⟩
      have hstate : k.stateOf tid = some task.state := by rw [stateOf, htask, Option.map_some]
      rcases answered_wakeEach pid (k.signalWaiters pid) k (Or.inr ⟨hstate, hmem⟩) with hrunnable | ⟨-, hnone⟩
      · rw [stateOf, htask', Option.map_some, hkept, Option.some.injEq] at hrunnable
        rw [hrunnable] at hwait
        cases hwait
      · exact hnone signal (by rwa [← hpid, hown] at hfinds)
    · exact hsettled task mask returnsSignal htask hwait signal (hpid ▸ (shrinks_wakeEach pid _ k).finds hfinds)
  · rw [stateOf, htask', Option.map_some, Option.some.injEq] at hrunnable
    rw [hrunnable] at hwait
    cases hwait

/-! ### Settled kernels -/

/-- No task waits for a signal that is pending. -/
def Settled (k : GuestKernel) : Prop := ∀ tid, k.SettledAt tid

theorem Edits.settled (h : Edits scope k k') (hk : Consistent k) (hposts : ¬scope.posts) (hsettled : Settled k) :
    Settled k' :=
  fun tid => h.settledAt hk hposts (hsettled tid)

theorem Settled.queueProcessSignal (hk : Named k) (hsettled : Settled k) (pid : GuestPid) (signal : Nat) :
    Settled (k.queueProcessSignal pid signal) := by
  intro tid
  refine settledAt_wakeSignalWaiters (k := k.modifyProcess pid _) hk pid ?_
  by_cases howner : k.ownerOf tid = some pid
  · exact Or.inl howner
  · refine Or.inr fun task mask returnsSignal htask hwait s hfinds => ?_
    refine hsettled tid task mask returnsSignal htask hwait s ⟨hfinds.1, hfinds.2.imp (fun hmem => ?_) fun hmem => ?_⟩
    · rcases mem_pending_postProcess.mp hmem with hold | ⟨htarget, -⟩
      · exact hold
      · exact nomatch htarget
    · rcases mem_pending_postProcess.mp hmem with hold | ⟨htarget, -⟩
      · exact hold
      · rw [ownerOf, show k.task tid = some task from htask, Option.map_some] at howner
        exact absurd (congrArg some (SignalTarget.process.inj htarget)) howner

theorem Settled.postTask (hk : Named k) (hsettled : Settled k) {tid : GuestTid} {task : GuestTask}
    (htask : k.task tid = some task) (signal : Nat) :
    Settled ((k.modifyTask tid fun task =>
      { task with pendingSignals := task.pendingSignals.insert signal }).wakeSignalWaiters task.pid) := by
  have hpost : QuietEdit .signals k (k.modifyTask tid fun task =>
      { task with pendingSignals := task.pendingSignals.insert signal }) := .postTask tid signal trivial
  intro j
  refine settledAt_wakeSignalWaiters (Quiet.named (.single hpost) hk) task.pid ?_
  rw [ownerOf, map_modifyTask (g := GuestTask.pid) fun _ => by rfl]
  by_cases hj : j = tid
  · exact Or.inl (by rw [hj, htask, Option.map_some])
  · refine Or.inr fun t mask returnsSignal ht hwait s hfinds => ?_
    rw [task_modifyTask, if_neg hj] at ht
    refine hsettled j t mask returnsSignal ht hwait s ⟨hfinds.1, hfinds.2.imp (fun hmem => ?_) fun hmem => ?_⟩
    · rcases mem_pending_postTask.mp hmem with hold | ⟨htarget, -⟩
      · exact hold
      · exact absurd (SignalTarget.task.inj htarget) hj
    · rcases mem_pending_postTask.mp hmem with hold | ⟨htarget, -⟩
      · exact hold
      · exact nomatch htarget

theorem Settled.queueTaskSignal (hk : Consistent k) (hsettled : Settled k) (tid : GuestTid) (signal : Nat) :
    Settled (k.queueTaskSignal tid signal) := by
  unfold GuestKernel.queueTaskSignal
  split
  · exact hsettled
  · rename_i task htask
    have hpost : Quiet .signals k (k.modifyTask tid fun task =>
        { task with pendingSignals := task.pendingSignals.insert signal }) := .single (.postTask tid signal trivial)
    have hwoken : Quiet .signals k _ := hpost.trans (wakeSignalWaiters_quiet (hpost.named hk.named) task.pid trivial id)
    have hdone := hsettled.postTask hk.named htask signal
    dsimp only
    split
    · exact hdone
    · have hinterrupt : Quiet .wakes _ _ := endFutexWait_quiet ((k.modifyTask tid fun task =>
        { task with pendingSignals := task.pendingSignals.insert signal }).wakeSignalWaiters task.pid) tid eintr
      exact Edits.settled (.quiet hinterrupt) (hk.quiet hwoken) id hdone

theorem Settled.finishProcess (hk : Consistent k) (hsettled : Settled k) (pid : GuestPid) (status : Int) :
    Settled (k.finishProcess pid status) := by
  have hended : Edits .ends k
      (k.modifyProcess pid fun process => { process with exitState := .exited status }) :=
    .single (.ended pid status trivial)
  have hvfork : Quiet .wakes _ _ := resumeVforkParent_quiet (hended.consistent hk).named pid id
  have hsettled' := Edits.settled (.quiet hvfork) (hended.consistent hk) id (hended.settled hk id hsettled)
  unfold GuestKernel.finishProcess
  dsimp only
  split
  · exact hsettled'.queueProcessSignal (hvfork.named (hended.consistent hk).named) _ linuxSigchld
  · exact hsettled'

theorem Settled.exitEach (hk : Consistent k) (hsettled : Settled k) (tids : List GuestTid) (status : Int) :
    Consistent (tids.foldl (fun k tid => k.setTaskState tid (.exited status)) k) ∧
      Settled (tids.foldl (fun k tid => k.setTaskState tid (.exited status)) k) := by
  have hexit : Quiet .ends _ _ := exitEach_quiet tids status trivial k
  exact ⟨hk.quiet hexit, Edits.settled (.quiet hexit) hk id hsettled⟩

theorem Settled.op (hk : Consistent k) (hsettled : Settled k) (op : KernelOp) : Settled (op.run load k).2 := by
  by_cases hposts : op.posts = true
  · cases op with
    | exitTask tid status =>
        change Settled (k.exitTask tid status).2
        unfold GuestKernel.exitTask
        split
        · exact hsettled
        · rename_i task _
          obtain ⟨hexited, hstill⟩ := hsettled.exitEach hk [tid] status
          dsimp only
          split
          · exact hstill.finishProcess hexited task.pid status
          · exact hstill
    | exitGroup pid status =>
        change Settled (k.exitGroup pid status).2
        unfold GuestKernel.exitGroup
        split
        · exact hsettled
        · obtain ⟨hexited, hstill⟩ := hsettled.exitEach hk (k.tidsOf pid) status
          exact hstill.finishProcess hexited pid status
    | kill pid sig =>
        change Settled (k.killCurrent pid sig).2
        unfold GuestKernel.killCurrent
        repeat' split
        all_goals first | exact hsettled | exact hsettled.queueProcessSignal hk.named _ sig
    | tkill tid sig =>
        change Settled (k.tkillCurrent tid sig).2
        unfold GuestKernel.tkillCurrent GuestKernel.sendTaskSignal
        repeat' split
        all_goals first | exact hsettled | exact hsettled.queueTaskSignal hk _ sig
    | tgkill tgid tid sig =>
        change Settled (k.tgkillCurrent tgid tid sig).2
        unfold GuestKernel.tgkillCurrent GuestKernel.sendTaskSignal
        repeat' split
        all_goals first | exact hsettled | exact hsettled.queueTaskSignal hk _ sig
    | _ => exact absurd hposts Bool.false_ne_true
  · exact (edits_of_op hk op).settled hk hposts hsettled

theorem settled_initial (image : GuestImageState) : Settled (initial image) := by
  intro tid task mask returnsSignal htask hwait
  rw [initial, task_insertTask] at htask
  split at htask
  · rw [← Option.some.inj htask] at hwait
    exact nomatch hwait
  · exact nomatch htask

/-- In every kernel that calls lead to, no task waits for a signal that is pending. -/
theorem settled_of_reached {condition : GuestKernel → KernelOp → Prop} {image : GuestImageState}
    (h : Reached load condition (initial image) k) : Consistent k ∧ Settled k :=
  h.preserves (consistent_initial image) (settled_initial image) fun hk hsettled _ => hsettled.op hk _

end GuestKernel

end Mcr.Task
