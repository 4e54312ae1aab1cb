import Mcr.Task.Exec
import Mcr.Task.Pending

/-!
# Which waits a signal interrupts

`kill`, `tkill` and `tgkill` wake the waits for signals of the process, and the last two also the futex wait of
the task they name. So a signal that may be delivered finds a task to run exactly when one that does not hold it
back is running, waits for it, or is the named task in a futex wait: a wait for a child, a descriptor or a sleep
is never interrupted, and a futex wait not by `kill`.
-/

namespace Mcr.Task

/-- The signals a task holds back: while it waits for signals, not the ones that it waits for. -/
def GuestTask.heldBack (task : GuestTask) : SignalMask :=
  match task.state with
  | .waitingForSignalSuspend allowed => ~~~allowed
  | .waitingForSignalSet mask => task.signalMask &&& ~~~mask
  | _ => task.signalMask

def GuestTask.Admits (task : GuestTask) (signal : Nat) : Prop := signalMatchesMask signal task.heldBack = false

/-- The signal runs a handler of the process, or ends it. -/
def GuestProcess.Acts (process : GuestProcess) (signal : Nat) : Prop :=
  match process.signals.action signal with
  | some action =>
    if action.action = linuxSigDfl then defaultSignalAction signal = .terminate else action.action ≠ linuxSigIgn
  | none => defaultSignalAction signal = .terminate

def KernelOp.sends : KernelOp → Option (SignalTarget × Nat)
  | .kill pid sig => some (.process pid.toNat, sig)
  | .tkill tid sig => some (.task tid.toNat, sig)
  | .tgkill _ tid sig => some (.task tid.toNat, sig)
  | _ => none

namespace GuestKernel

variable {k k' : GuestKernel} {load : GuestProgram → Except TaskError GuestImageState}

/-- The task is of the target, has not exited and does not hold the signal back. -/
structure Open (k : GuestKernel) (target : SignalTarget) (signal : Nat) (tid : GuestTid) (task : GuestTask) : Prop where
  there : k.task tid = some task
  live : task.state.isExited = false
  within : target = .process task.pid ∨ target = .task tid
  admits : task.Admits signal

/-- Some task of the target does not hold the signal back, and the signal does something to its process. -/
def Deliverable (k : GuestKernel) (target : SignalTarget) (signal : Nat) : Prop :=
  ∃ tid task process, k.Open target signal tid task ∧ k.process task.pid = some process ∧ process.Acts signal

/-- The task is running, waits for the signal, or is the named task in a futex wait. -/
def Hears (target : SignalTarget) (signal : Nat) (tid : GuestTid) (task : GuestTask) : Prop :=
  task.state = .runnable ∨
    (∃ mask returnsSignal, signalWait task.state = some (mask, returnsSignal) ∧ signalMatchesMask signal mask = true) ∨
    target = .task tid ∧ task.state.isWaitingForFutex = true

theorem admits_of_waits {task : GuestTask} {mask : SignalMask} {returnsSignal : Bool} {signal : Nat}
    (hwait : signalWait task.state = some (mask, returnsSignal)) (h : signalMatchesMask signal mask = true) :
    task.Admits signal := by
  rw [signalMatchesMask_eq, Bool.and_eq_true] at h
  unfold GuestTask.Admits GuestTask.heldBack
  rw [signalMatchesMask_eq]
  cases hstate : task.state <;> rw [hstate] at hwait <;> simp only [signalWait, reduceCtorEq, Option.some.injEq,
    Prod.mk.injEq] at hwait
  · rw [hwait.1, BitVec.getLsbD_and, BitVec.getLsbD_not, h.2, Bool.not_true, Bool.and_false, Bool.and_false, Bool.and_false]
  · rw [hwait.1, BitVec.getLsbD_not, h.2, Bool.not_true, Bool.and_false, Bool.and_false]

theorem waits_of_woken (hk : Named k) (hsettled : Settled k') {pid : GuestPid} {tid : GuestTid} {mask : SignalMask}
    {returnsSignal : Bool} {signal s : Nat} (htasks : ∀ task, k.task tid = some task → ∃ task', k'.task tid = some task' ∧
      task'.pid = task.pid ∧ task'.state = task.state)
    (hpending : ∀ target, s ∈ k.pending target → s ∈ k'.pending target ∨ s = signal)
    (hmem : (tid, mask, returnsSignal) ∈ k.signalWaiters pid) (hfinds : k.Finds tid pid mask s) :
    signalMatchesMask signal mask = true := by
  obtain ⟨task, htask, hpid, hwait⟩ := (mem_signalWaiters hk).mp hmem
  obtain ⟨task', htask', hpid', hstate'⟩ := htasks task htask
  by_contra hnot
  have hne : s ≠ signal := fun heq => hnot (heq ▸ hfinds.1)
  refine hsettled tid task' mask returnsSignal htask' (by rw [hstate', hwait]) s ⟨hfinds.1, ?_⟩
  rw [hpid', hpid]
  exact hfinds.2.imp (fun h => (hpending _ h).resolve_right hne) fun h => (hpending _ h).resolve_right hne

theorem woken_of_waits (hk : Named k) {pid : GuestPid} {target : SignalTarget} {signal : Nat}
    (hposted : signal ∈ k.pending target) (hsettled : Settled (wakeEach pid (k.signalWaiters pid) k)) {tid : GuestTid}
    {task : GuestTask} {mask : SignalMask} {returnsSignal : Bool} (htask : k.task tid = some task)
    (hpid : task.pid = pid) (htarget : target = .task tid ∨ target = .process pid)
    (hwait : signalWait task.state = some (mask, returnsSignal)) (hnamed : signalMatchesMask signal mask = true) :
    ∃ j waiter mask returnsSignal, k.task j = some waiter ∧ waiter.pid = pid ∧
      signalWait waiter.state = some (mask, returnsSignal) ∧ signalMatchesMask signal mask = true ∧
      (target = .task j ∨ target = .process pid) ∧
      (wakeEach pid (k.signalWaiters pid) k).stateOf j = some .runnable := by
  rcases stateOf_wakeEach pid (k.signalWaiters pid) k tid with hkept | ⟨hrunnable, -⟩
  · have howner := steady_pid.wakeEach pid (k.signalWaiters pid) k tid
    rw [htask, Option.map_some] at howner
    obtain ⟨task', htask', hpid'⟩ := Option.map_eq_some_iff.mp howner
    have hstate : task'.state = task.state := by
      rwa [stateOf, htask', stateOf, htask, Option.map_some, Option.map_some, Option.some.injEq] at hkept
    have hgone : signal ∉ (wakeEach pid (k.signalWaiters pid) k).pending target := by
      intro hmem
      refine hsettled tid task' mask returnsSignal htask' (hstate ▸ hwait) signal ⟨hnamed, ?_⟩
      rw [hpid', hpid]
      rcases htarget with rfl | rfl
      · exact Or.inl hmem
      · exact Or.inr hmem
    obtain ⟨j, m, r, hmem, hfinds, htaken, hwoken⟩ := taken_wakeEach pid _ k hposted hgone
    obtain ⟨waiter, hwaiter, hown, hwaits⟩ := (mem_signalWaiters hk).mp hmem
    exact ⟨j, waiter, m, r, hwaiter, hown, hwaits, hfinds.1, htaken,
      hwoken waiter.state (by rw [stateOf, hwaiter, Option.map_some])⟩
  · exact ⟨tid, task, mask, returnsSignal, htask, hpid, hwait, hnamed, htarget, hrunnable⟩

/-! ### The entries -/

theorem TaskError.intoOutcome_ne_success (error : TaskError) : error.intoOutcome ≠ .success 0 :=
  fun h => nomatch congrArg SyscallOutcome.result h

theorem validateSignalOrProbe_ok {sig : Nat} (h : validateSignalOrProbe sig = .ok ()) : sig ≤ linuxSignalCount := by
  unfold validateSignalOrProbe at h
  split at h
  · assumption
  · cases h

theorem killCurrent_success {pid : Int} {sig : Nat} (hsig : sig ≠ 0) (h : (k.killCurrent pid sig).1 = .success 0) :
    sig ≤ linuxSignalCount ∧ ∃ process, k.process pid.toNat = some process ∧
      (k.killCurrent pid sig).2 = k.queueProcessSignal pid.toNat sig := by
  unfold killCurrent at h ⊢
  split at h
  · exact absurd h (TaskError.intoOutcome_ne_success _)
  · rename_i hpid
    rw [if_neg hpid]
    split at h
    · exact nomatch congrArg SyscallOutcome.result h
    · rename_i process hprocess
      simp only [hprocess]
      split at h
      · exact absurd h (TaskError.intoOutcome_ne_success _)
      · rename_i hvalid
        rw [if_neg hsig]
        exact ⟨validateSignalOrProbe_ok hvalid, process, rfl, rfl⟩

theorem sendTaskSignal_success {tid : GuestTid} {sig : Nat} (hsig : sig ≠ 0)
    (h : (k.sendTaskSignal tid sig).1 = .success 0) :
    sig ≤ linuxSignalCount ∧ (k.sendTaskSignal tid sig).2 = k.queueTaskSignal tid sig := by
  unfold sendTaskSignal at h ⊢
  split at h
  · exact absurd h (TaskError.intoOutcome_ne_success _)
  · rename_i hvalid
    rw [if_neg hsig]
    exact ⟨validateSignalOrProbe_ok hvalid, rfl⟩

theorem tkillCurrent_success {tid : Int} {sig : Nat} (hsig : sig ≠ 0) (h : (k.tkillCurrent tid sig).1 = .success 0) :
    sig ≤ linuxSignalCount ∧ ∃ task, k.task tid.toNat = some task ∧
      (k.tkillCurrent tid sig).2 = k.queueTaskSignal tid.toNat sig := by
  unfold tkillCurrent at h ⊢
  split at h
  · exact absurd h (TaskError.intoOutcome_ne_success _)
  · rename_i htid
    rw [if_neg htid]
    split at h
    · exact nomatch congrArg SyscallOutcome.result h
    · rename_i task htask
      simp only [htask]
      obtain ⟨hvalid, hqueues⟩ := sendTaskSignal_success hsig h
      exact ⟨hvalid, task, rfl, hqueues⟩

theorem tgkillCurrent_success {tgid tid : Int} {sig : Nat} (hsig : sig ≠ 0)
    (h : (k.tgkillCurrent tgid tid sig).1 = .success 0) :
    sig ≤ linuxSignalCount ∧ ∃ task, k.task tid.toNat = some task ∧
      (k.tgkillCurrent tgid tid sig).2 = k.queueTaskSignal tid.toNat sig := by
  unfold tgkillCurrent at h ⊢
  split at h
  · exact absurd h (TaskError.intoOutcome_ne_success _)
  · rename_i htid
    rw [if_neg htid]
    split at h
    · exact nomatch congrArg SyscallOutcome.result h
    · rename_i task htask
      simp only [htask]
      split at h
      · exact nomatch congrArg SyscallOutcome.result h
      · rename_i htgid
        rw [if_neg htgid]
        obtain ⟨hvalid, hqueues⟩ := sendTaskSignal_success hsig h
        exact ⟨hvalid, task, rfl, hqueues⟩

end GuestKernel

end Mcr.Task
