import Mcr.Runtime.SignalRuns
import Mcr.Task.Answers

/-!
# Signals that end a process

A signal that interrupts a task is taken by it on its way back to user code. Where its action is the default one and
ends the process, the turn that takes it is the `exit_group` of the process: unless a `rt_sigtimedwait` of the target
names the signal, which then returns it, `SIGKILL` too.
-/

namespace Mcr.Runtime

open Mcr.Task (GprState GuestImageState GuestKernel GuestPid GuestProcess GuestProgram GuestTask GuestTid KernelOp
  SignalTarget TaskError defaultSignalAction linuxSigDfl linuxSigkill sampleImage signalExitStatus)
open Mcr.Task.GuestKernel (Hears Interrupted Reached Takes initial)

variable {k k' : GuestKernel} {tid : GuestTid} {task : GuestTask} {pid : GuestPid} {signal : Nat}

/-- The signal has its default action, which ends the process. -/
def EndedBy (process : GuestProcess) (signal : Nat) : Prop :=
  (∀ action, process.signals.action signal = some action → action.action = linuxSigDfl) ∧
    defaultSignalAction signal = .terminate

/-- The task comes to the turn that ends its process with the signal. -/
def LeadsToEnd (μ : Type) [GuestMemoryAccess μ] (k : GuestKernel) (tid : GuestTid) (pid : GuestPid) (signal : Nat) : Prop :=
  ∃ (before : List Nat) (k₁ k₂ : GuestKernel), Takes tid k before k₁ ∧ ∀ (memory : μ) altStack expected,
    tryDeliverPendingGuestSignal k₁ memory altStack tid pid expected =
      (.ended signal, (k₂.exitGroup pid (signalExitStatus signal)).2)

/-! ### What signals leave -/

/-- The dispositions of a process, and the process of a task. -/
def signalsOf (k : GuestKernel) (pid : GuestPid) : Option Task.SignalState := (k.process pid).map GuestProcess.signals

theorem signalsOf_take (k : GuestKernel) (tid : GuestTid) (owner pid : GuestPid) (mask : Task.SignalMask) :
    signalsOf (k.takePendingSignalForTask tid owner mask).2 pid = signalsOf k pid := by
  unfold signalsOf
  rcases Task.GuestKernel.takePendingSignalForTask_cases k tid owner mask with
    ⟨_, _, -, -, heq⟩ | ⟨_, _, -, -, -, heq⟩ | ⟨-, -, heq⟩ <;> rw [heq]
  · rfl
  · rw [Task.GuestKernel.process_modifyProcess]
    split
    · rename_i hpid
      rw [hpid, Option.map_map]
      rfl
    · rfl

theorem signalsOf_wakeEach (owner : GuestPid) (waiters : List (GuestTid × Task.SignalMask × Bool)) (k : GuestKernel)
    (pid : GuestPid) : signalsOf (Task.GuestKernel.wakeEach owner waiters k) pid = signalsOf k pid := by
  induction waiters generalizing k with
  | nil => rfl
  | cons waiter rest ih =>
      obtain ⟨tid, mask, returnsSignal⟩ := waiter
      refine (ih (k.wakeSignalWaiter owner tid mask returnsSignal)).trans ?_
      have htake := signalsOf_take k tid owner pid mask
      unfold Task.GuestKernel.wakeSignalWaiter
      generalize k.takePendingSignalForTask tid owner mask = result at htake ⊢
      obtain ⟨_ | signal, k₁⟩ := result
      · exact htake
      · dsimp only at htake ⊢
        split
        · exact htake
        · rw [← htake, signalsOf, Task.GuestKernel.process_setTaskState]
          rfl

/-- Every task belongs to the same process, and every process has the same dispositions. -/
def SameSettings (k k' : GuestKernel) : Prop :=
  (∀ tid, k'.ownerOf tid = k.ownerOf tid) ∧ ∀ pid, signalsOf k' pid = signalsOf k pid

theorem SameSettings.trans {k'' : GuestKernel} (h : SameSettings k k') (h' : SameSettings k' k'') : SameSettings k k'' :=
  ⟨fun tid => (h'.1 tid).trans (h.1 tid), fun pid => (h'.2 pid).trans (h.2 pid)⟩

theorem sameSettings_wakeSignalWaiters (k : GuestKernel) (pid : GuestPid) : SameSettings k (k.wakeSignalWaiters pid) :=
  ⟨Task.GuestKernel.steady_pid.wakeEach pid (k.signalWaiters pid) k, signalsOf_wakeEach pid (k.signalWaiters pid) k⟩

theorem sameSettings_interruptFutexWaiter (k : GuestKernel) (tid : GuestTid) :
    SameSettings k (k.interruptFutexWaiter tid).2 := by
  unfold Task.GuestKernel.interruptFutexWaiter Task.GuestKernel.endFutexWait
  split
  · split
    · exact ⟨fun j => (Task.GuestKernel.steady_pid.setTaskState _ tid j .runnable).trans
        (Task.GuestKernel.map_modifyTask (fun _ => by rfl) k tid j), fun j => by
          dsimp only [signalsOf]
          rw [Task.GuestKernel.process_setTaskState]
          rfl⟩
    · exact ⟨fun _ => rfl, fun _ => rfl⟩
  · exact ⟨fun _ => rfl, fun _ => rfl⟩

theorem sameSettings_queueProcessSignal (k : GuestKernel) (pid : GuestPid) (signal : Nat) :
    SameSettings k (k.queueProcessSignal pid signal) := by
  have hposted : SameSettings k (k.modifyProcess pid fun process =>
      { process with pendingSignals := process.pendingSignals.insert signal }) := by
    refine ⟨fun _ => rfl, fun j => ?_⟩
    unfold signalsOf
    rw [Task.GuestKernel.process_modifyProcess]
    split
    · rename_i hpid
      rw [hpid, Option.map_map]
      rfl
    · rfl
  exact hposted.trans (sameSettings_wakeSignalWaiters _ pid)

theorem sameSettings_queueTaskSignal (k : GuestKernel) (tid : GuestTid) (signal : Nat) :
    SameSettings k (k.queueTaskSignal tid signal) := by
  unfold Task.GuestKernel.queueTaskSignal
  split
  · exact ⟨fun _ => rfl, fun _ => rfl⟩
  · rename_i task _
    have hposted : SameSettings k (k.modifyTask tid fun task =>
        { task with pendingSignals := task.pendingSignals.insert signal }) :=
      ⟨Task.GuestKernel.map_modifyTask (fun _ => by rfl) k tid, fun _ => rfl⟩
    have hwoken := hposted.trans (sameSettings_wakeSignalWaiters _ task.pid)
    dsimp only
    split
    · exact hwoken
    · exact hwoken.trans (sameSettings_interruptFutexWaiter _ tid)

theorem ownerOf_returnToUser (k : GuestKernel) (tid : GuestTid) :
    (k.takePendingSignalForReturnToUser tid).2.ownerOf tid = k.ownerOf tid := by
  unfold Task.GuestKernel.takePendingSignalForReturnToUser
  split
  · exact Task.GuestKernel.map_modifyTask (fun _ => by rfl) k tid tid
  · split
    · rfl
    · exact Task.GuestKernel.steady_pid.takePendingSignalForTask k tid _ _ tid

theorem Takes.keeps {before : List Nat} (h : Takes tid k before k') (pid : GuestPid) :
    k'.ownerOf tid = k.ownerOf tid ∧ signalsOf k' pid = signalsOf k pid := by
  induction h with
  | done => exact ⟨rfl, rfl⟩
  | @next k _ _ _ _ htake _ ih =>
      have howner := ownerOf_returnToUser k tid
      have hsignals := signals_returnToUser k tid pid
      rw [htake] at howner hsignals
      exact ⟨ih.1.trans howner, ih.2.trans hsignals⟩

/-! ### The turn that ends a process -/

/-- A task that will take a signal whose default action ends its process comes to the `exit_group`. -/
theorem leadsToEnd_of_leads (μ : Type) [GuestMemoryAccess μ] (howner : k.ownerOf tid = some pid) {process : GuestProcess}
    (hprocess : signalsOf k pid = some process.signals) (hends : EndedBy process signal) (h : k.Leads tid signal) :
    LeadsToEnd μ k tid pid signal := by
  obtain ⟨before, k₁, k₂, htakes, htake⟩ := h
  obtain ⟨howner₁, hsignals₁⟩ := Takes.keeps htakes pid
  have howner₂ := ownerOf_returnToUser k₁ tid
  have hsignals₂ := signals_returnToUser k₁ tid pid
  rw [htake] at howner₂ hsignals₂
  obtain ⟨task₂, htask₂, -⟩ := Option.map_eq_some_iff.mp (howner₂.trans (howner₁.trans howner))
  obtain ⟨process₂, hprocess₂, hactions⟩ := Option.map_eq_some_iff.mp
    (hsignals₂.trans (hsignals₁.trans hprocess))
  have hdefault : deliverDefaultSignalAction k₂ pid signal =
      (.ended signal, (k₂.exitGroup pid (signalExitStatus signal)).2) := by
    unfold deliverDefaultSignalAction
    rw [hends.2]
    unfold Task.GuestKernel.exitGroup
    rw [hprocess₂]
    rfl
  refine ⟨before, k₁, k₂, htakes, fun memory altStack expected => ?_⟩
  unfold tryDeliverPendingGuestSignal
  rw [htake]
  dsimp only
  rw [htask₂, hprocess₂, Option.bind_some]
  dsimp only
  cases haction : process₂.signals.action signal with
  | none => exact hdefault
  | some action =>
      dsimp only
      rw [if_pos (hends.1 action (hactions ▸ haction))]
      exact hdefault

/-! ### The entries -/

theorem interrupted_iff {load : GuestProgram → Except TaskError GuestImageState} {image : GuestImageState}
    (h : Reached load (fun _ _ => True) (initial image) k) {op : KernelOp} {target : SignalTarget}
    (hsends : op.sends = some (target, signal)) (hqueued : (op.run load k).1 = .outcome (.success 0))
    (hsignal : signal ≠ 0) : SameSettings k (op.run load k).2 ∧
      (Interrupted k (op.run load k).2 target signal ↔
        ∃ tid task, k.Open target signal tid task ∧ Hears target signal tid task) := by
  obtain ⟨hk, hsettled⟩ := Task.GuestKernel.settled_of_reached h
  have hpositive := Nat.pos_of_ne_zero hsignal
  cases op with
  | kill pid sig =>
      obtain ⟨rfl, rfl⟩ := Prod.mk.inj (Option.some.inj hsends)
      obtain ⟨hvalid, process, hprocess, hkill⟩ :=
        Task.GuestKernel.killCurrent_success hsignal (Task.KernelReply.outcome.inj hqueued)
      change SameSettings k (k.killCurrent _ _).2 ∧ (Interrupted k (k.killCurrent _ _).2 _ _ ↔ _)
      rw [hkill]
      exact ⟨sameSettings_queueProcessSignal k _ _,
        Task.GuestKernel.interrupted_queueProcessSignal hk hsettled hprocess hpositive hvalid⟩
  | tkill tid sig =>
      obtain ⟨rfl, rfl⟩ := Prod.mk.inj (Option.some.inj hsends)
      obtain ⟨hvalid, task, htask, hkill⟩ :=
        Task.GuestKernel.tkillCurrent_success hsignal (Task.KernelReply.outcome.inj hqueued)
      change SameSettings k (k.tkillCurrent _ _).2 ∧ (Interrupted k (k.tkillCurrent _ _).2 _ _ ↔ _)
      rw [hkill]
      exact ⟨sameSettings_queueTaskSignal k _ _,
        Task.GuestKernel.interrupted_queueTaskSignal hk hsettled htask hpositive hvalid⟩
  | tgkill tgid tid sig =>
      obtain ⟨rfl, rfl⟩ := Prod.mk.inj (Option.some.inj hsends)
      obtain ⟨hvalid, task, htask, hkill⟩ :=
        Task.GuestKernel.tgkillCurrent_success hsignal (Task.KernelReply.outcome.inj hqueued)
      change SameSettings k (k.tgkillCurrent _ _ _).2 ∧ (Interrupted k (k.tgkillCurrent _ _ _).2 _ _ ↔ _)
      rw [hkill]
      exact ⟨sameSettings_queueTaskSignal k _ _,
        Task.GuestKernel.interrupted_queueTaskSignal hk hsettled htask hpositive hvalid⟩
  | _ => cases hsends

/-- No `rt_sigtimedwait` of the target waits for the signal. -/
def Unclaimed (k : GuestKernel) (target : SignalTarget) (signal : Nat) : Prop :=
  ∀ tid task mask, k.Open target signal tid task → task.state = .waitingForSignalSet mask →
    Task.signalMatchesMask signal mask = false

theorem ended_of_interrupted (μ : Type) [GuestMemoryAccess μ] {target : SignalTarget}
    (h : Interrupted k k' target signal) (hunclaimed : Unclaimed k target signal)
    (hsame : SameSettings k k')
    (hends : ∀ tid task, k.Open target signal tid task →
      ∃ process, k.process task.pid = some process ∧ EndedBy process signal) :
    ∃ tid task, k.Open target signal tid task ∧ k'.stateOf tid = some .runnable ∧ LeadsToEnd μ k' tid task.pid signal := by
  obtain ⟨tid, task, hopen, hanswers⟩ := h
  have hruns := hanswers.runs
  obtain ⟨task', htask', -, hanswer⟩ := hanswers
  obtain ⟨process, hprocess, hended⟩ := hends tid task hopen
  have howner : k'.ownerOf tid = some task.pid := by
    rw [hsame.1, Task.GuestKernel.ownerOf, hopen.there, Option.map_some]
  have hactions : signalsOf k' task.pid = some process.signals := by
    rw [hsame.2, signalsOf, hprocess, Option.map_some]
  refine ⟨tid, task, hopen, hruns, leadsToEnd_of_leads μ howner hactions hended ?_⟩
  cases hwait : Task.GuestKernel.signalWait task.state with
  | none =>
      rw [hwait] at hanswer
      exact hanswer.2
  | some wait =>
      obtain ⟨mask, _ | _⟩ := wait
      · rw [hwait] at hanswer
        exact hanswer.2
      · rw [hwait] at hanswer
        have hmissed := hunclaimed tid task mask hopen (Task.GuestKernel.returnsSignal_state hwait)
        rw [hanswer.1] at hmissed
        cases hmissed

/-- A signal that may be delivered interrupts a task of its target if and only if one that does not hold it back hears
it; and a signal that ends the process of a task that hears it then comes to do so, unless `rt_sigtimedwait` claims it. -/
theorem signal_interrupts (μ : Type) [GuestMemoryAccess μ] {load : GuestProgram → Except TaskError GuestImageState}
    {image : GuestImageState} (h : Reached load (fun _ _ => True) (initial image) k) {op : KernelOp}
    {target : SignalTarget} (hsends : op.sends = some (target, signal))
    (hqueued : (op.run load k).1 = .outcome (.success 0)) (hsignal : signal ≠ 0) :
    ((k.Deliverable target signal → Interrupted k (op.run load k).2 target signal) ↔
      (k.Deliverable target signal → ∃ tid task, k.Open target signal tid task ∧ Hears target signal tid task)) ∧
    ((∃ tid task, k.Open target signal tid task ∧ Hears target signal tid task) → Unclaimed k target signal →
      (∀ tid task, k.Open target signal tid task →
        ∃ process, k.process task.pid = some process ∧ EndedBy process signal) →
      ∃ tid task, k.Open target signal tid task ∧ (op.run load k).2.stateOf tid = some .runnable ∧
        LeadsToEnd μ (op.run load k).2 tid task.pid signal) := by
  obtain ⟨hsame, hiff⟩ := interrupted_iff h hsends hqueued hsignal
  exact ⟨imp_congr_right fun _ => hiff, fun hhears hunclaimed hends =>
    ended_of_interrupted μ (hiff.mpr hhears) hunclaimed hsame hends⟩

/-- The first process is suspended, with every signal allowed; there is a child that can send it one. -/
def suspendedKernel : GuestKernel :=
  [KernelOp.forkChild 1, .rtSigsuspend 1 (BitVec.allOnes 64) 8].foldl
    (fun k op => (op.run (fun _ => .ok sampleImage) k).2) (initial sampleImage)

/-- `SIGTERM` wakes the process, and ends it. -/
theorem suspendedKernel_ended :
    Interrupted suspendedKernel (suspendedKernel.killCurrent 1 15).2 (.process 1) 15 ∧
      ∃ tid task, suspendedKernel.Open (.process 1) 15 tid task ∧
        (suspendedKernel.killCurrent 1 15).2.stateOf tid = some .runnable ∧
        LeadsToEnd FlatMemory (suspendedKernel.killCurrent 1 15).2 tid task.pid 15 := by
  have hstart : Reached (fun _ => .ok sampleImage) (fun _ _ => True) (initial sampleImage) (initial sampleImage) := .start
  have hrun : Reached (fun _ => .ok sampleImage) (fun _ _ => True) (initial sampleImage) suspendedKernel :=
    (hstart.direct (.forkChild 1) trivial).direct (.rtSigsuspend 1 (BitVec.allOnes 64) 8) trivial
  have hstate : (suspendedKernel.task 1).map (fun task => (task.pid, task.state)) =
      some (1, .waitingForSignalSuspend (BitVec.allOnes 64)) := by decide +kernel
  have hactions : (suspendedKernel.process 1).map (fun process => process.signals.action 15) = some none := by
    decide +kernel
  have hsets : ∀ task ∈ suspendedKernel.tasks.values, ∀ mask, task.state ≠ .waitingForSignalSet mask := by
    have hstates : suspendedKernel.tasks.values.map GuestTask.state =
        [.waitingForSignalSuspend (BitVec.allOnes 64), .runnable] := by decide +kernel
    intro task hmem mask hset
    have hin := List.mem_map_of_mem (f := GuestTask.state) hmem
    rw [hstates, hset] at hin
    simp at hin
  obtain ⟨task, htask, heq⟩ := Option.map_eq_some_iff.mp hstate
  obtain ⟨hpid, hparked⟩ := Prod.mk.inj heq
  obtain ⟨process, hprocess, haction⟩ := Option.map_eq_some_iff.mp hactions
  have hwait : Task.GuestKernel.signalWait task.state = some (BitVec.allOnes 64, false) := by rw [hparked]; rfl
  have hopen : suspendedKernel.Open (.process 1) 15 1 task :=
    ⟨htask, by rw [hparked]; rfl, Or.inl (by rw [hpid]), Task.GuestKernel.admits_of_waits hwait (by decide)⟩
  have hacts : process.Acts 15 := by
    rw [GuestProcess.Acts, haction]
    decide
  have hqueued : (suspendedKernel.killCurrent 1 15).1 = .success 0 := by decide +kernel
  have hsends : (KernelOp.kill 1 15).sends = some (.process 1, 15) := rfl
  have hhears : ∃ tid task, suspendedKernel.Open (.process 1) 15 tid task ∧ Hears (.process 1) 15 tid task :=
    ⟨1, task, hopen, Or.inr (Or.inl ⟨_, _, hwait, by decide⟩)⟩
  have hsignal := signal_interrupts FlatMemory hrun hsends (congrArg Task.KernelReply.outcome hqueued) (by decide)
  refine ⟨hsignal.1.mpr (fun _ => hhears) ⟨1, task, process, hopen, hpid ▸ hprocess, hacts⟩,
    hsignal.2 hhears (fun tid other mask hother hset => ?_) fun tid other hother => ⟨process, ?_, ?_, by decide⟩⟩
  · exact absurd hset (hsets other (SortedMap.mem_values.mpr ⟨tid, hother.there⟩) mask)
  · rw [← SignalTarget.process.inj (hother.within.resolve_right (by rintro ⟨⟩))]
    exact hprocess
  · intro action hsome
    rw [haction] at hsome
    cases hsome

/-- The first process sleeps; there is a child that can send it a signal. -/
def sleepingKernel : GuestKernel :=
  [KernelOp.forkChild 1, .blockTaskForSleep 1].foldl
    (fun k op => (op.run (fun _ => .ok sampleImage) k).2) (initial sampleImage)

/-- `SIGKILL` leaves the process asleep. -/
theorem sleeper_not_interrupted :
    Reached (fun _ => .ok sampleImage) (fun _ _ => True) (initial sampleImage) sleepingKernel ∧
      (sleepingKernel.killCurrent 1 linuxSigkill).1 = .success 0 ∧
      sleepingKernel.Deliverable (.process 1) linuxSigkill ∧
      (sleepingKernel.killCurrent 1 linuxSigkill).2.stateOf 1 = some .waitingForSleep ∧
      ¬Interrupted sleepingKernel (sleepingKernel.killCurrent 1 linuxSigkill).2 (.process 1) linuxSigkill := by
  have hstart : Reached (fun _ => .ok sampleImage) (fun _ _ => True) (initial sampleImage) (initial sampleImage) := .start
  have hrun : Reached (fun _ => .ok sampleImage) (fun _ _ => True) (initial sampleImage) sleepingKernel :=
    (hstart.direct (.forkChild 1) trivial).direct (.blockTaskForSleep 1) trivial
  have hstate : (sleepingKernel.task 1).map (fun task => (task.pid, task.state, task.signalMask)) =
      some (1, .waitingForSleep, 0) := by decide +kernel
  have hactions : (sleepingKernel.process 1).map (fun process => process.signals.action linuxSigkill) = some none := by
    decide +kernel
  have htasks : sleepingKernel.tasks.values.map (fun task => (task.tid, task.pid)) = [(1, 1), (2, 2)] := by
    decide +kernel
  have hasleep : (sleepingKernel.killCurrent 1 linuxSigkill).2.stateOf 1 = some .waitingForSleep := by decide +kernel
  obtain ⟨task, htask, heq⟩ := Option.map_eq_some_iff.mp hstate
  obtain ⟨hpid, heq⟩ := Prod.mk.inj heq
  obtain ⟨hparked, hmask⟩ := Prod.mk.inj heq
  obtain ⟨process, hprocess, haction⟩ := Option.map_eq_some_iff.mp hactions
  have hadmits : task.Admits linuxSigkill := by
    rw [GuestTask.Admits, GuestTask.heldBack, hparked]
    dsimp only
    rw [hmask]
    decide
  have hacts : process.Acts linuxSigkill := by
    rw [GuestProcess.Acts, haction]
    decide
  refine ⟨hrun, by decide +kernel, ⟨1, task, process, ⟨htask, by rw [hparked]; rfl, Or.inl (by rw [hpid]), hadmits⟩,
    hpid ▸ hprocess, hacts⟩, hasleep, ?_⟩
  rintro ⟨tid, other, hopen, hanswers⟩
  have hrunnable := hanswers.runs
  have hmem := List.mem_map_of_mem (f := fun task => (task.tid, task.pid)) (SortedMap.mem_values.mpr ⟨tid, hopen.there⟩)
  rw [htasks, (Task.GuestKernel.settled_of_reached hrun).1.named tid other hopen.there,
    ← SignalTarget.process.inj (hopen.within.resolve_right (by rintro ⟨⟩))] at hmem
  have hone : tid = 1 := by simpa using hmem
  rw [hone, hasleep] at hrunnable
  cases hrunnable

end Mcr.Runtime
