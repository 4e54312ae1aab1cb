import Mcr.Task.Kernel

/-!
# Waits

`wait4` and its resumption, and the parking and waking of tasks that wait for a descriptor, a futex or the
end of a sleep.
-/

namespace Mcr.Task

open Net (LinuxErrno)

namespace GuestKernel

def tidsOf (k : GuestKernel) (pid : GuestPid) : List GuestTid :=
  (k.tasks.values.filter fun task => task.pid = pid).map GuestTask.tid

/-! ### Children -/

def childMatches (k : GuestKernel) (parent : GuestProcess) (childPid : GuestPid) (selector : Int) : Bool :=
  match k.process childPid with
  | none => false
  | some child =>
    if selector = -1 then true
    else if selector = 0 then child.pgid = parent.pgid
    else if 0 < selector then childPid = selector.toNat
    else child.pgid = selector.natAbs

def matchingChildren (k : GuestKernel) (parentPid : GuestPid) (selector : Int) : Except TaskError (List GuestPid) :=
  match k.process parentPid with
  | none => .error (.unknownPid parentPid)
  | some parent => .ok (parent.children.toList.filter fun child => k.childMatches parent child selector)

def hasExited (k : GuestKernel) (pid : GuestPid) : Bool :=
  match k.process pid with
  | some process => process.exitState.isExited
  | none => false

def exitedWaitableChild (k : GuestKernel) (parentPid : GuestPid) (selector : Int) :
    Except TaskError (Option GuestPid) := do
  let children ← k.matchingChildren parentPid selector
  pure (children.find? k.hasExited)

def hasWaitableChild (k : GuestKernel) (parentPid : GuestPid) (selector : Int) : Except TaskError Bool := do
  let children ← k.matchingChildren parentPid selector
  pure !children.isEmpty

def withoutProcess (k : GuestKernel) (pid : GuestPid) : GuestKernel :=
  let k := (k.tidsOf pid).foldl removeTask k
  { k with processes := k.processes.erase pid }

def reapChild (k : GuestKernel) (parentPid childPid : GuestPid) : Except TaskError WaitedChild × GuestKernel :=
  match k.process childPid with
  | none => (.error (.unknownPid childPid), k)
  | some child =>
    match child.exitState with
    | .running => (.error .wouldBlock, k)
    | .exited status =>
      let k := k.withoutProcess childPid
      match k.process parentPid with
      | none => (.error (.unknownPid parentPid), k)
      | some _ =>
        (.ok ⟨childPid, status⟩,
          k.modifyProcess parentPid fun parent => { parent with children := parent.children.erase childPid })

def wait4Child (k : GuestKernel) (parentPid : GuestPid) (args : Wait4SyscallArgs) :
    Except TaskError (Option WaitedChild) × GuestKernel :=
  if args.hasUnsupportedOptions then (.error (.invalidWaitOptions args.options), k)
  else
    match k.exitedWaitableChild parentPid args.pid with
    | .error e => (.error e, k)
    | .ok (some childPid) =>
      match k.reapChild parentPid childPid with
      | (.ok waited, k) => (.ok (some waited), k)
      | (.error e, k) => (.error e, k)
    | .ok none =>
      match k.hasWaitableChild parentPid args.pid with
      | .error e => (.error e, k)
      | .ok true => if args.noHang then (.ok none, k) else (.error .wouldBlock, k)
      | .ok false => (.error .noChild, k)

def waitedOutcome (waited : WaitedChild) : SyscallOutcome :=
  (((SyscallOutcome.success waited.pid).withDecodedField (.guestPid waited.pid)).withDecodedField
    (.exitStatus waited.status)).withDecodedField (.waitStatus waited.waitStatus)

def wait4CurrentWithReturn (k : GuestKernel) (tid : GuestTid) (args : Wait4SyscallArgs)
    (returnRip : GuestAddress) : SyscallOutcome × GuestKernel :=
  match k.task tid with
  | none => (.errno esrch, k)
  | some task =>
    match k.wait4Child task.pid args with
    | (.ok (some waited), k) => (waitedOutcome waited, k)
    | (.ok none, k) => (.success 0, k)
    | (.error .wouldBlock, k) =>
      match k.task tid with
      | none => (.errno esrch, k)
      | some _ =>
        let k := k.modifyTask tid fun task =>
          { task with regs := task.regs.withSyscallReturn returnRip task.regs.rax }
        (.success 0, k.setTaskState tid (.waitingForChild args))
    | (.error e, k) => (e.intoOutcome, k)

/-! ### Resuming the waits for children -/

/-- The blocked `wait4` calls, by thread. -/
def waitingTasks (k : GuestKernel) : List (GuestTid × GuestPid × Wait4SyscallArgs) :=
  k.childWaitTids.toList.filterMap fun tid =>
    match k.task tid with
    | some task =>
      match task.state with
      | .waitingForChild args => some (task.tid, task.pid, args)
      | _ => none
    | none => none

def resumeWaitingTask (k : GuestKernel) (tid : GuestTid) (parentPid : GuestPid) (args : Wait4SyscallArgs) :
    Option CompletedWait × GuestKernel :=
  match k.wait4Child parentPid args with
  | (.ok (some waited), k) =>
    let k := k.modifyTask tid fun task =>
      { task with regs := task.regs.withSyscallReturn task.regs.rip waited.pid }
    (some ⟨tid, parentPid, args, waited⟩, k.setTaskState tid .runnable)
  | (_, k) => (none, k)

def resumeEach : List (GuestTid × GuestPid × Wait4SyscallArgs) → GuestKernel → List CompletedWait × GuestKernel
  | [], k => ([], k)
  | (tid, parentPid, args) :: rest, k =>
    let (completed, k) := k.resumeWaitingTask tid parentPid args
    let (others, k) := resumeEach rest k
    (completed.toList ++ others, k)

def resumeWaitingTasks (k : GuestKernel) : List CompletedWait × GuestKernel := resumeEach k.waitingTasks k

/-! ### Parking -/

/-- `block_task_for_fd`, `block_task_for_futex` and `block_task_for_sleep` by the state they park in. -/
def blockTask (k : GuestKernel) (tid : GuestTid) (state : TaskState) : Except TaskError Unit × GuestKernel :=
  match k.task tid with
  | none => (.error (.unknownTid tid), k)
  | some _ => (.ok (), k.setTaskState tid state)

def blockTaskForFd (k : GuestKernel) (tid : GuestTid) (fd : Int) (write : Bool) :
    Except TaskError Unit × GuestKernel :=
  k.blockTask tid (.waitingForFd fd write)

def blockTaskForFutex (k : GuestKernel) (tid : GuestTid) (key : FutexWaitKey) :
    Except TaskError Unit × GuestKernel :=
  k.blockTask tid (.waitingForFutex key)

def blockTaskForSleep (k : GuestKernel) (tid : GuestTid) : Except TaskError Unit × GuestKernel :=
  k.blockTask tid .waitingForSleep

/-! ### Descriptors and sleeps -/

def resumeFdEach (ready : GuestPid → Int → Bool → Bool) : List GuestTid → GuestKernel → Nat × GuestKernel
  | [], k => (0, k)
  | tid :: rest, k =>
    match k.task tid with
    | none => resumeFdEach ready rest k
    | some task =>
      match task.state with
      | .waitingForFd fd write =>
        if ready task.pid fd write then
          let (resumed, k) := resumeFdEach ready rest (k.setTaskState tid .runnable)
          (resumed + 1, k)
        else resumeFdEach ready rest k
      | _ => resumeFdEach ready rest k

def resumeFdWaiters (k : GuestKernel) (ready : GuestPid → Int → Bool → Bool) : Nat × GuestKernel :=
  resumeFdEach ready k.fdWaitTids.toList k

def resumeSleepWaiter (k : GuestKernel) (tid : GuestTid) : Bool × GuestKernel :=
  match k.task tid with
  | some task =>
    if task.state = .waitingForSleep then (true, k.setTaskState tid .runnable) else (false, k)
  | none => (false, k)

/-! ### Futexes -/

/-- The loop of `wake_futex_waiters` and of `requeue_futex_waiters`: waiters of one queue, in order, are
given a new state until `limit` of them have it. -/
def moveFutexWaiters (source : FutexWaitKey) (state : TaskState) (limit : Nat) :
    List GuestTid → Nat → GuestKernel → Nat × GuestKernel
  | [], moved, k => (moved, k)
  | tid :: rest, moved, k =>
    match k.task tid with
    | none => moveFutexWaiters source state limit rest moved k
    | some task =>
      if task.state = .waitingForFutex source then
        let k := k.setTaskState tid state
        if moved + 1 = limit then (moved + 1, k) else moveFutexWaiters source state limit rest (moved + 1) k
      else moveFutexWaiters source state limit rest moved k

def wakeFutexWaiters (k : GuestKernel) (key : FutexWaitKey) (limit : Nat) : Nat × GuestKernel :=
  if limit = 0 then (0, k) else moveFutexWaiters key .runnable limit (k.futexQueue key).toList 0 k

def requeueFutexWaiters (k : GuestKernel) (source target : FutexWaitKey) (wakeLimit requeueLimit : Nat) :
    Nat × GuestKernel :=
  let (woken, k) := k.wakeFutexWaiters source wakeLimit
  if requeueLimit = 0 ∨ source = target then (woken, k)
  else
    let (requeued, k) :=
      moveFutexWaiters source (.waitingForFutex target) requeueLimit (k.futexQueue source).toList 0 k
    (woken + requeued, k)

/-- `timeout_futex_waiter` and `interrupt_futex_waiter` by the errno the wait ends with. -/
def endFutexWait (k : GuestKernel) (tid : GuestTid) (errno : LinuxErrno) : Bool × GuestKernel :=
  match k.task tid with
  | some task =>
    if task.state.isWaitingForFutex then
      let k := k.modifyTask tid fun task =>
        { task with regs := task.regs.withSyscallReturn task.regs.rip (SyscallReturn.errno errno).encode }
      (true, k.setTaskState tid .runnable)
    else (false, k)
  | none => (false, k)

def timeoutFutexWaiter (k : GuestKernel) (tid : GuestTid) : Bool × GuestKernel := k.endFutexWait tid etimedout

def interruptFutexWaiter (k : GuestKernel) (tid : GuestTid) : Bool × GuestKernel := k.endFutexWait tid eintr

end GuestKernel

end Mcr.Task
