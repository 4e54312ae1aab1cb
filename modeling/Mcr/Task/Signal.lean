import Mcr.Task.Wait

/-!
# Exits and signals

A signal is pending at a process or at a task until it is taken: by `rt_sigtimedwait`, by `rt_sigsuspend`, by
the waking of a task parked in one of the two, or on the way back to user code. The masks passed to the
functions that take a signal name the signals that may be taken.
-/

namespace Mcr.Task

/-! ### Signal numbers and masks -/

def validateSignal (signal : Nat) : Except TaskError Unit :=
  if 0 < signal ∧ signal ≤ linuxSignalCount ∧ signal ≠ linuxSigkill ∧ signal ≠ linuxSigstop then .ok ()
  else .error (.invalidSignal signal)

def validateSignalOrProbe (signal : Nat) : Except TaskError Unit :=
  if signal ≤ linuxSignalCount then .ok () else .error (.invalidSignal signal)

def signalMatchesMask (signal : Nat) (mask : SignalMask) : Bool :=
  0 < signal && signal ≤ linuxSignalCount && mask &&& (1#64 <<< (signal - 1)) != 0

/-- The signal `take_pending_signal` removes: the lowest one that the mask names. -/
def takePendingSignal (pending : SortedSet Nat) (mask : SignalMask) : Option Nat :=
  pending.toList.find? fun signal => signalMatchesMask signal mask

def unblockableSignalMask : SignalMask := (1#64 <<< (linuxSigkill - 1)) ||| (1#64 <<< (linuxSigstop - 1))

def sanitizeSignalMask (mask : SignalMask) : SignalMask := mask &&& ~~~unblockableSignalMask

def sigBlock : Nat := 0
def sigUnblock : Nat := 1
def sigSetmask : Nat := 2

/-- `apply_task_signal_mask`: the mask a task gets, where `how` is one of the three it knows. -/
def applyTaskSignalMask (current : SignalMask) (how : Nat) (mask : SignalMask) : Except TaskError SignalMask :=
  let mask := sanitizeSignalMask mask
  if how = sigBlock then .ok (sanitizeSignalMask (current ||| mask))
  else if how = sigUnblock then .ok (current &&& ~~~mask)
  else if how = sigSetmask then .ok mask
  else .error (.invalidSignalMaskHow how)

namespace GuestKernel

/-! ### Taking signals -/

def takePendingSignalForTask (k : GuestKernel) (tid : GuestTid) (pid : GuestPid) (mask : SignalMask) :
    Option Nat × GuestKernel :=
  match (k.task tid).bind fun task => takePendingSignal task.pendingSignals mask with
  | some signal =>
    (some signal, k.modifyTask tid fun task => { task with pendingSignals := task.pendingSignals.erase signal })
  | none =>
    match (k.process pid).bind fun process => takePendingSignal process.pendingSignals mask with
    | some signal =>
      (some signal, k.modifyProcess pid fun process =>
        { process with pendingSignals := process.pendingSignals.erase signal })
    | none => (none, k)

def takePendingSignalForReturnToUser (k : GuestKernel) (tid : GuestTid) : Option Nat × GuestKernel :=
  match (k.task tid).bind GuestTask.pendingSignalDelivery with
  | some signal => (some signal, k.modifyTask tid fun task => { task with pendingSignalDelivery := none })
  | none =>
    match k.task tid with
    | none => (none, k)
    | some task => k.takePendingSignalForTask tid task.pid (~~~task.signalMask)

/-! ### Waking signal waiters -/

/-- The set a parked signal wait takes from, and whether the wait returns the signal or ends in `EINTR`. -/
def signalWait : TaskState → Option (SignalMask × Bool)
  | .waitingForSignalSet mask => some (mask, true)
  | .waitingForSignalSuspend mask => some (mask, false)
  | _ => none

def signalWaiters (k : GuestKernel) (pid : GuestPid) : List (GuestTid × SignalMask × Bool) :=
  k.tasks.values.filterMap fun task =>
    if task.pid = pid then (signalWait task.state).map fun wait => (task.tid, wait) else none

def endSignalWait (signal : Nat) (returnsSignal : Bool) (task : GuestTask) : GuestTask :=
  if returnsSignal then { task with regs := task.regs.withSyscallReturn task.regs.rip signal }
  else
    { task with
      pendingSignalDelivery := some signal
      regs := task.regs.withSyscallReturn task.regs.rip (SyscallReturn.errno eintr).encode }

def wakeSignalWaiter (k : GuestKernel) (pid : GuestPid) (tid : GuestTid) (mask : SignalMask)
    (returnsSignal : Bool) : GuestKernel :=
  match k.takePendingSignalForTask tid pid mask with
  | (none, k) => k
  | (some signal, k) =>
    match k.task tid with
    | none => k
    | some _ => (k.modifyTask tid (endSignalWait signal returnsSignal)).setTaskState tid .runnable

def wakeSignalWaiters (k : GuestKernel) (pid : GuestPid) : GuestKernel :=
  (k.signalWaiters pid).foldl (fun k (tid, mask, returnsSignal) => k.wakeSignalWaiter pid tid mask returnsSignal) k

/-! ### Queueing signals -/

def queueProcessSignal (k : GuestKernel) (pid : GuestPid) (signal : Nat) : GuestKernel :=
  (k.modifyProcess pid fun process =>
    { process with pendingSignals := process.pendingSignals.insert signal }).wakeSignalWaiters pid

def signalBlocked (k : GuestKernel) (tid : GuestTid) (signal : Nat) : Bool :=
  match k.task tid with
  | some task => signalMatchesMask signal task.signalMask
  | none => false

def queueTaskSignal (k : GuestKernel) (tid : GuestTid) (signal : Nat) : GuestKernel :=
  match k.task tid with
  | none => k
  | some task =>
    let k := k.modifyTask tid fun task => { task with pendingSignals := task.pendingSignals.insert signal }
    let k := k.wakeSignalWaiters task.pid
    if k.signalBlocked tid signal then k else (k.interruptFutexWaiter tid).2

/-! ### Exits -/

def isVforkWaiterOf (parentPid childPid : GuestPid) (task : GuestTask) : Bool :=
  task.pid = parentPid && task.state = .waitingForVfork childPid

def resumeVforkParent (k : GuestKernel) (childPid : GuestPid) : GuestKernel :=
  match (k.process childPid).bind GuestProcess.parent with
  | none => k
  | some parentPid =>
    ((k.tasks.values.filter (isVforkWaiterOf parentPid childPid)).map GuestTask.tid).foldl
      (fun k tid => k.setTaskState tid .runnable) k

/-- The end of `exit_task` and `exit_group`, once every task of the process has exited. -/
def finishProcess (k : GuestKernel) (pid : GuestPid) (status : Int) : GuestKernel :=
  let parent := (k.process pid).bind GuestProcess.parent
  let k := k.modifyProcess pid fun process => { process with exitState := .exited status }
  let k := k.resumeVforkParent pid
  match parent with
  | some parent => k.queueProcessSignal parent linuxSigchld
  | none => k

def allTasksExited (k : GuestKernel) (pid : GuestPid) : Bool :=
  (k.tasks.values.filter fun task => task.pid = pid).all fun task => task.state.isExited

def exitTask (k : GuestKernel) (tid : GuestTid) (status : Int) : SyscallOutcome × GuestKernel :=
  match k.task tid with
  | none => (.errno esrch, k)
  | some task =>
    let k := k.setTaskState tid (.exited status)
    let k := if k.allTasksExited task.pid then k.finishProcess task.pid status else k
    (((SyscallOutcome.success 0).withDecodedField (.guestTid tid)).withDecodedField (.exitStatus status), k)

def exitGroup (k : GuestKernel) (pid : GuestPid) (status : Int) : SyscallOutcome × GuestKernel :=
  match k.process pid with
  | none => (.errno esrch, k)
  | some _ =>
    let k := (k.tidsOf pid).foldl (fun k tid => k.setTaskState tid (.exited status)) k
    let k := k.finishProcess pid status
    (((SyscallOutcome.success 0).withDecodedField (.guestPid pid)).withDecodedField (.exitStatus status), k)

/-! ### Dispositions and masks -/

def rtSigactionCurrentWithAction (k : GuestKernel) (tid : GuestTid) (sig sigsetsize : Nat)
    (action : Option GuestSignalAction) : SyscallOutcome × GuestKernel :=
  match k.task tid with
  | none => (.errno esrch, k)
  | some task =>
    match validateSignal sig with
    | .error e => (e.intoOutcome, k)
    | .ok () =>
      if sigsetsize ≠ linuxKernelSigsetSize then ((TaskError.invalidSigsetSize sigsetsize).intoOutcome, k)
      else
        match action with
        | none => (.success 0, k)
        | some action =>
          match k.process task.pid with
          | none => (.errno esrch, k)
          | some _ =>
            (.success 0, k.modifyProcess task.pid fun process =>
              { process with signals := process.signals.setAction sig action })

def rtSigactionCurrent (k : GuestKernel) (tid : GuestTid) (sig : Nat) (act : GuestAddress) (sigsetsize : Nat) :
    SyscallOutcome × GuestKernel :=
  k.rtSigactionCurrentWithAction tid sig sigsetsize (if act ≠ 0 then some (.new act) else none)

def rtSigprocmaskCurrentMask (k : GuestKernel) (tid : GuestTid) (how : Nat) (mask : Option SignalMask)
    (sigsetsize : Nat) : SyscallOutcome × GuestKernel :=
  match k.task tid with
  | none => (.errno esrch, k)
  | some task =>
    if sigsetsize ≠ linuxKernelSigsetSize then ((TaskError.invalidSigsetSize sigsetsize).intoOutcome, k)
    else if how ∉ [sigBlock, sigUnblock, sigSetmask] then ((TaskError.invalidSignalMaskHow how).intoOutcome, k)
    else
      match mask with
      | none => (.success 0, k)
      | some mask =>
        match applyTaskSignalMask task.signalMask how mask with
        | .error e => (e.intoOutcome, k)
        | .ok mask => (.success 0, k.modifyTask tid fun task => { task with signalMask := mask })

def rtSigprocmaskCurrent (k : GuestKernel) (tid : GuestTid) (how : Nat) (set : GuestAddress) (sigsetsize : Nat) :
    SyscallOutcome × GuestKernel :=
  k.rtSigprocmaskCurrentMask tid how (if set ≠ 0 then some (BitVec.ofNat 64 set) else none) sigsetsize

def setTaskSignalMask (k : GuestKernel) (tid : GuestTid) (mask : SignalMask) : Bool × GuestKernel :=
  match k.task tid with
  | none => (false, k)
  | some _ => (true, k.modifyTask tid fun task => { task with signalMask := sanitizeSignalMask mask })

/-! ### Waiting for signals -/

/-- The parking of a signal wait: past the syscall instruction, with `rax` kept. -/
def parkSignalWait (k : GuestKernel) (tid : GuestTid) (state : TaskState) : GuestKernel :=
  let returnRip := k.currentSyscallReturnRip tid
  (k.modifyTask tid fun task => { task with regs := task.regs.withSyscallReturn returnRip task.regs.rax }).setTaskState
    tid state

def rtSigtimedwaitCurrent (k : GuestKernel) (tid : GuestTid) (mask : SignalMask) (sigsetsize : Nat)
    (waitIndefinitely : Bool) : SyscallOutcome × GuestKernel :=
  if sigsetsize ≠ linuxKernelSigsetSize then ((TaskError.invalidSigsetSize sigsetsize).intoOutcome, k)
  else
    match k.task tid with
    | none => (.errno esrch, k)
    | some task =>
      match k.takePendingSignalForTask tid task.pid mask with
      | (some signal, k) => (.success signal, k)
      | (none, k) =>
        if waitIndefinitely then (.success 0, k.parkSignalWait tid (.waitingForSignalSet mask))
        else (.errno eagain, k)

def rtSigsuspendCurrent (k : GuestKernel) (tid : GuestTid) (mask : SignalMask) (sigsetsize : Nat) :
    SyscallOutcome × GuestKernel :=
  if sigsetsize ≠ linuxKernelSigsetSize then ((TaskError.invalidSigsetSize sigsetsize).intoOutcome, k)
  else
    match k.task tid with
    | none => (.errno esrch, k)
    | some task =>
      match k.takePendingSignalForTask tid task.pid mask with
      | (some signal, k) =>
        (.errno eintr, k.modifyTask tid fun task => { task with pendingSignalDelivery := some signal })
      | (none, k) => (.success 0, k.parkSignalWait tid (.waitingForSignalSuspend mask))

/-! ### Sending signals -/

def killCurrent (k : GuestKernel) (pid : Int) (sig : Nat) : SyscallOutcome × GuestKernel :=
  if pid ≤ 0 then ((TaskError.unsupportedSignalTarget pid).intoOutcome, k)
  else
    match k.process pid.toNat with
    | none => (.errno esrch, k)
    | some _ =>
      match validateSignalOrProbe sig with
      | .error e => (e.intoOutcome, k)
      | .ok () => if sig = 0 then (.success 0, k) else (.success 0, k.queueProcessSignal pid.toNat sig)

/-- The checks of the signal number, and the queueing, of `tkill` and `tgkill`. -/
def sendTaskSignal (k : GuestKernel) (tid : GuestTid) (sig : Nat) : SyscallOutcome × GuestKernel :=
  match validateSignalOrProbe sig with
  | .error e => (e.intoOutcome, k)
  | .ok () => if sig = 0 then (.success 0, k) else (.success 0, k.queueTaskSignal tid sig)

def tkillCurrent (k : GuestKernel) (tid : Int) (sig : Nat) : SyscallOutcome × GuestKernel :=
  if tid ≤ 0 then ((TaskError.unsupportedSignalTarget tid).intoOutcome, k)
  else
    match k.task tid.toNat with
    | none => (.errno esrch, k)
    | some _ => k.sendTaskSignal tid.toNat sig

def tgkillCurrent (k : GuestKernel) (tgid tid : Int) (sig : Nat) : SyscallOutcome × GuestKernel :=
  if tgid ≤ 0 ∨ tid ≤ 0 then ((TaskError.unsupportedSignalTarget tid).intoOutcome, k)
  else
    match k.task tid.toNat with
    | none => (.errno esrch, k)
    | some task => if task.pid ≠ tgid.toNat then (.errno esrch, k) else k.sendTaskSignal tid.toNat sig

/-! ### Registrations -/

def setTidAddressCurrent (k : GuestKernel) (tid : GuestTid) (tidptr : GuestAddress) : SyscallOutcome × GuestKernel :=
  match k.task tid with
  | none => (.errno esrch, k)
  | some _ =>
    (.success tid, k.modifyTask tid fun task =>
      { task with clearChildTid := if tidptr ≠ 0 then some tidptr else none })

def setRobustListCurrent (k : GuestKernel) (tid : GuestTid) (head : GuestAddress) (len : Nat) :
    SyscallOutcome × GuestKernel :=
  if len ≠ linuxRobustListHeadSize then ((TaskError.invalidRobustListLength len).intoOutcome, k)
  else
    match k.task tid with
    | none => (.errno esrch, k)
    | some _ =>
      (.success 0, k.modifyTask tid fun task => { task with robustList := if head ≠ 0 then some head else none })

end GuestKernel

end Mcr.Task
