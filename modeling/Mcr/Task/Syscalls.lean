import Mcr.Task.Clone

/-!
# The dispatch of task syscalls

`dispatch_for_current_task` and the calls only it makes, and then every entry of the kernel as one type of
calls, so that a run is a list of them.
-/

namespace Mcr.Task

/-- The numbers `dispatch_for_current_task` tells apart. -/
inductive Syscall
  | getpid | gettid | getppid | getpgrp | getpgid | getsid
  | getuid | geteuid | getgid | getegid | setuid | setgid | setreuid | setregid
  | setpgid | setsid | fork | vfork | clone | exit | exitGroup | wait4
  | rtSigaction | rtSigprocmask | rtSigreturn | rtSigtimedwait
  | kill | tkill | tgkill | setTidAddress | setRobustList | uname | archPrctl | execve | other
deriving DecidableEq, Repr

structure SyscallRequest where
  pid : GuestPid
  tid : GuestTid
  rip : GuestAddress
  syscall : Syscall
  args : List Nat
deriving DecidableEq, Repr

namespace SyscallRequest

def arg (request : SyscallRequest) (index : Nat) : Nat := request.args.getD index 0

/-- `as i32` of a register. -/
def argI32 (request : SyscallRequest) (index : Nat) : Int := (BitVec.ofNat 32 (request.arg index)).toInt

/-- `as u32` of a register. -/
def argU32 (request : SyscallRequest) (index : Nat) : Nat := request.arg index % 2 ^ 32

def childReturnRip (request : SyscallRequest) : GuestAddress := saturatingAdd request.rip syscallInstructionLen

end SyscallRequest

def archSetGs : Nat := 0x1001
def archSetFs : Nat := 0x1002
def archGetFs : Nat := 0x1003
def archGetGs : Nat := 0x1004

def lowExitStatus (raw : Nat) : Int := (raw &&& 0xff : Nat)

/-- `GuestPid::try_from` of a register. -/
def pidOfRaw (raw : Nat) : Option GuestPid := if raw < 2 ^ 32 then some raw else none

namespace GuestKernel

def setpgidCurrent (k : GuestKernel) (currentPid : GuestPid) (rawPid rawPgid : Nat) : SyscallOutcome × GuestKernel :=
  match (if rawPid = 0 then some currentPid else pidOfRaw rawPid) with
  | none => (.errno einval, k)
  | some pid =>
    match (if rawPgid = 0 then some pid else pidOfRaw rawPgid) with
    | none => (.errno einval, k)
    | some pgid =>
      match k.process pid with
      | none => (.errno esrch, k)
      | some process =>
        if process.parent ≠ some currentPid ∧ pid ≠ currentPid then (.errno eperm, k)
        else (.success 0, k.modifyProcess pid fun process => { process with pgid := pgid })

def setsidCurrent (k : GuestKernel) (currentPid : GuestPid) : SyscallOutcome × GuestKernel :=
  match k.process currentPid with
  | none => (.errno esrch, k)
  | some _ =>
    (.success currentPid, k.modifyProcess currentPid fun process =>
      { process with sid := currentPid, pgid := currentPid })

/-- `getpgid_current` and `getsid_current` by the field they read. -/
def readProcessField (k : GuestKernel) (currentPid : GuestPid) (rawPid : Nat) (field : GuestProcess → Nat) :
    SyscallOutcome :=
  match (if rawPid = 0 then some currentPid else pidOfRaw rawPid) with
  | none => .errno esrch
  | some pid =>
    match k.process pid with
    | none => .errno esrch
    | some process => .success (field process)

def getpgidCurrent (k : GuestKernel) (currentPid : GuestPid) (rawPid : Nat) : SyscallOutcome :=
  k.readProcessField currentPid rawPid GuestProcess.pgid

def getsidCurrent (k : GuestKernel) (currentPid : GuestPid) (rawPid : Nat) : SyscallOutcome :=
  k.readProcessField currentPid rawPid GuestProcess.sid

def archPrctl (k : GuestKernel) (tid : GuestTid) (code : Nat) (address : GuestAddress) :
    SyscallOutcome × GuestKernel :=
  match k.task tid with
  | none => (.errno esrch, k)
  | some task =>
    if code = archSetFs then
      (.success 0, k.modifyTask tid fun task => { task with tls := { task.tls with fsBase := address } })
    else if code = archSetGs then
      (.success 0, k.modifyTask tid fun task => { task with tls := { task.tls with gsBase := address } })
    else if code = archGetFs then (.success task.tls.fsBase, k)
    else if code = archGetGs then (.success task.tls.gsBase, k)
    else (.errno einval, k)

def uname (buffer : GuestAddress) : SyscallOutcome := if buffer = 0 then .errno efault else .success 0

/-- `dispatch_for_current_task` for the task's own process. `none` is the panic of `task_process`. -/
def dispatchTask (load : GuestProgram → Except TaskError GuestImageState) (k : GuestKernel)
    (request : SyscallRequest) (task : GuestTask) : Option (SyscallOutcome × GuestKernel) :=
  let tid := request.tid
  match request.syscall with
  | .getpid => some (.success task.pid, k)
  | .gettid => some (.success task.tid, k)
  | .getppid => (k.process task.pid).map fun process => (.success (process.parent.getD 0), k)
  | .getpgrp => (k.process task.pid).map fun process => (.success process.pgid, k)
  | .getpgid => some (k.getpgidCurrent task.pid (request.arg 0), k)
  | .getsid => some (k.getsidCurrent task.pid (request.arg 0), k)
  | .getuid | .geteuid | .getgid | .getegid | .setuid | .setgid | .setreuid | .setregid => some (.success 0, k)
  | .setpgid => some (k.setpgidCurrent task.pid (request.arg 0) (request.arg 1))
  | .setsid => some (k.setsidCurrent task.pid)
  | .fork => some (k.forkCurrentWithReturn tid request.childReturnRip)
  | .vfork => some (k.vforkCurrent tid)
  | .clone =>
    some (k.cloneCurrentWithReturn tid
      ⟨BitVec.ofNat 64 (request.arg 0), request.arg 1, request.arg 2, request.arg 3, request.arg 4⟩
      request.childReturnRip)
  | .exit => some (k.exitTask tid (lowExitStatus (request.arg 0)))
  | .exitGroup => some (k.exitGroup task.pid (lowExitStatus (request.arg 0)))
  | .wait4 =>
    some (k.wait4CurrentWithReturn tid
      ⟨request.argI32 0, request.arg 1, BitVec.ofNat 32 (request.arg 2), request.arg 3⟩ request.childReturnRip)
  | .rtSigaction => some (k.rtSigactionCurrent tid (request.argU32 0) (request.arg 1) (request.arg 3))
  | .rtSigprocmask => some (k.rtSigprocmaskCurrent tid (request.argU32 0) (request.arg 1) (request.arg 3))
  | .rtSigreturn => some (.success 0, k)
  | .rtSigtimedwait => some (k.rtSigtimedwaitCurrent tid 0 (request.arg 3) false)
  | .kill => some (k.killCurrent (request.argI32 0) (request.argU32 1))
  | .tkill => some (k.tkillCurrent (request.argI32 0) (request.argU32 1))
  | .tgkill => some (k.tgkillCurrent (request.argI32 0) (request.argI32 1) (request.argU32 2))
  | .setTidAddress => some (k.setTidAddressCurrent tid (request.arg 0))
  | .setRobustList => some (k.setRobustListCurrent tid (request.arg 0) (request.arg 1))
  | .uname => some (uname (request.arg 0), k)
  | .archPrctl => some (k.archPrctl tid (request.arg 0) (request.arg 1))
  | .execve =>
    (k.process task.pid).map fun process =>
      k.execveCurrent load tid
        ⟨process.image.executable, process.image.interpreter, [process.image.executable.path], []⟩
  | .other => some (.unsupported, k)

def dispatchForCurrentTask (load : GuestProgram → Except TaskError GuestImageState) (k : GuestKernel)
    (request : SyscallRequest) : Option (SyscallOutcome × GuestKernel) :=
  match k.task request.tid with
  | none => some (.errno esrch, k)
  | some task =>
    if task.pid ≠ request.pid then some (.errno esrch, k) else k.dispatchTask load request task

end GuestKernel

/-! ### The entries of the kernel -/

/-- The entries that change the kernel, with their arguments. The `fork` and `vfork` entries are `forkLike` with
their registers, and `setRegs` to `filesMut` are the changes made through `task_mut` and `process_mut`. -/
inductive KernelOp
  | setRegs (tid : GuestTid) (regs : GprState)
  | takeRobustList (tid : GuestTid)
  | takeClearChildTid (tid : GuestTid)
  | filesMut (pid : GuestPid) (files : GuestFdTable)
  | wait4Child (parentPid : GuestPid) (args : Wait4SyscallArgs)
  | wait4Current (tid : GuestTid) (args : Wait4SyscallArgs) (returnRip : GuestAddress)
  | resumeWaitingTasks
  | blockTaskForFd (tid : GuestTid) (fd : Int) (write : Bool)
  | resumeFdWaiters (ready : GuestPid → Int → Bool → Bool)
  | blockTaskForFutex (tid : GuestTid) (key : FutexWaitKey)
  | wakeFutexWaiters (key : FutexWaitKey) (limit : Nat)
  | requeueFutexWaiters (source target : FutexWaitKey) (wakeLimit requeueLimit : Nat)
  | timeoutFutexWaiter (tid : GuestTid)
  | blockTaskForSleep (tid : GuestTid)
  | resumeSleepWaiter (tid : GuestTid)
  | exitTask (tid : GuestTid) (status : Int)
  | exitGroup (pid : GuestPid) (status : Int)
  | rtSigaction (tid : GuestTid) (sig sigsetsize : Nat) (action : Option GuestSignalAction)
  | rtSigprocmask (tid : GuestTid) (how : Nat) (mask : Option SignalMask) (sigsetsize : Nat)
  | takePendingSignalForReturnToUser (tid : GuestTid)
  | setTaskSignalMask (tid : GuestTid) (mask : SignalMask)
  | rtSigtimedwait (tid : GuestTid) (mask : SignalMask) (sigsetsize : Nat) (waitIndefinitely : Bool)
  | rtSigsuspend (tid : GuestTid) (mask : SignalMask) (sigsetsize : Nat)
  | wakeSignalWaiters (pid : GuestPid)
  | kill (pid : Int) (sig : Nat)
  | tkill (tid : Int) (sig : Nat)
  | tgkill (tgid tid : Int) (sig : Nat)
  | setTidAddress (tid : GuestTid) (tidptr : GuestAddress)
  | setRobustList (tid : GuestTid) (head : GuestAddress) (len : Nat)
  | forkChild (tid : GuestTid)
  | forkLike (tid : GuestTid) (childRegs : GprState → GprState) (blockParentForVfork : Bool)
  | clone (tid : GuestTid) (args : CloneSyscallArgs) (childReturnRip : GuestAddress)
  | cloneWithChildRegs (tid : GuestTid) (args : CloneSyscallArgs) (childRegs : GprState)
  | execTask (tid : GuestTid) (program : GuestProgram)
  | setpgid (currentPid : GuestPid) (rawPid rawPgid : Nat)
  | setsid (currentPid : GuestPid)
  | archPrctl (tid : GuestTid) (code : Nat) (address : GuestAddress)

/-- What an entry hands back, where something else depends on it. -/
inductive KernelReply
  | outcome (outcome : SyscallOutcome)
  | waited (result : Except TaskError (Option WaitedChild))
  | completed (waits : List CompletedWait)
  | count (n : Nat)
  | flag (b : Bool)
  | signal (signal : Option Nat)
  | done (result : Except TaskError Unit)
  | forked (result : Except TaskError GuestPid)
  | nothing

def KernelOp.run (load : GuestProgram → Except TaskError GuestImageState) (k : GuestKernel) :
    KernelOp → KernelReply × GuestKernel
  | .setRegs tid regs => (.nothing, k.modifyTask tid fun task => { task with regs := regs })
  | .takeRobustList tid => (.nothing, k.modifyTask tid fun task => { task with robustList := none })
  | .takeClearChildTid tid => (.nothing, k.modifyTask tid fun task => { task with clearChildTid := none })
  | .filesMut pid files => (.nothing, k.modifyProcess pid fun process => { process with files := files })
  | .wait4Child parentPid args => (k.wait4Child parentPid args).map .waited id
  | .wait4Current tid args returnRip => (k.wait4CurrentWithReturn tid args returnRip).map .outcome id
  | .resumeWaitingTasks => k.resumeWaitingTasks.map .completed id
  | .blockTaskForFd tid fd write => (k.blockTaskForFd tid fd write).map .done id
  | .resumeFdWaiters ready => (k.resumeFdWaiters ready).map .count id
  | .blockTaskForFutex tid key => (k.blockTaskForFutex tid key).map .done id
  | .wakeFutexWaiters key limit => (k.wakeFutexWaiters key limit).map .count id
  | .requeueFutexWaiters source target wakeLimit requeueLimit =>
    (k.requeueFutexWaiters source target wakeLimit requeueLimit).map .count id
  | .timeoutFutexWaiter tid => (k.timeoutFutexWaiter tid).map .flag id
  | .blockTaskForSleep tid => (k.blockTaskForSleep tid).map .done id
  | .resumeSleepWaiter tid => (k.resumeSleepWaiter tid).map .flag id
  | .exitTask tid status => (k.exitTask tid status).map .outcome id
  | .exitGroup pid status => (k.exitGroup pid status).map .outcome id
  | .rtSigaction tid sig sigsetsize action =>
    (k.rtSigactionCurrentWithAction tid sig sigsetsize action).map .outcome id
  | .rtSigprocmask tid how mask sigsetsize => (k.rtSigprocmaskCurrentMask tid how mask sigsetsize).map .outcome id
  | .takePendingSignalForReturnToUser tid => (k.takePendingSignalForReturnToUser tid).map .signal id
  | .setTaskSignalMask tid mask => (k.setTaskSignalMask tid mask).map .flag id
  | .rtSigtimedwait tid mask sigsetsize waitIndefinitely =>
    (k.rtSigtimedwaitCurrent tid mask sigsetsize waitIndefinitely).map .outcome id
  | .rtSigsuspend tid mask sigsetsize => (k.rtSigsuspendCurrent tid mask sigsetsize).map .outcome id
  | .wakeSignalWaiters pid => (.nothing, k.wakeSignalWaiters pid)
  | .kill pid sig => (k.killCurrent pid sig).map .outcome id
  | .tkill tid sig => (k.tkillCurrent tid sig).map .outcome id
  | .tgkill tgid tid sig => (k.tgkillCurrent tgid tid sig).map .outcome id
  | .setTidAddress tid tidptr => (k.setTidAddressCurrent tid tidptr).map .outcome id
  | .setRobustList tid head len => (k.setRobustListCurrent tid head len).map .outcome id
  | .forkChild tid => (k.forkChild tid).map .forked id
  | .forkLike tid childRegs blockParentForVfork =>
    (k.forkLikeCurrent tid childRegs blockParentForVfork).map .outcome id
  | .clone tid args childReturnRip => (k.cloneCurrentWithReturn tid args childReturnRip).map .outcome id
  | .cloneWithChildRegs tid args childRegs => (k.cloneCurrentWithChildRegs tid args childRegs).map .outcome id
  | .execTask tid program => (k.execTask load tid program).map .done id
  | .setpgid currentPid rawPid rawPgid => (k.setpgidCurrent currentPid rawPid rawPgid).map .outcome id
  | .setsid currentPid => (k.setsidCurrent currentPid).map .outcome id
  | .archPrctl tid code address => (k.archPrctl tid code address).map .outcome id

/-- An entry of the kernel: one of its functions, or the dispatch of a syscall to them. -/
inductive KernelCall
  | direct (op : KernelOp)
  | dispatch (request : SyscallRequest)

/-- Run a call; `none` is a panic. -/
def KernelCall.run (load : GuestProgram → Except TaskError GuestImageState) (k : GuestKernel) :
    KernelCall → Option (KernelReply × GuestKernel)
  | .direct op => some (op.run load k)
  | .dispatch request => (k.dispatchForCurrentTask load request).map fun result => result.map .outcome id

def KernelCall.runAll (load : GuestProgram → Except TaskError GuestImageState) :
    List KernelCall → GuestKernel → Option (List KernelReply × GuestKernel)
  | [], k => some ([], k)
  | call :: calls, k =>
    match call.run load k with
    | none => none
    | some (reply, k) => (runAll load calls k).map fun result => result.map (reply :: ·) id

theorem KernelCall.eq_of_runAll {load : GuestProgram → Except TaskError GuestImageState} {calls : List KernelCall}
    {k k' : GuestKernel} {replies : List KernelReply} (hrun : runAll load calls k = some (replies, k')) {α : Type}
    (f : GuestKernel → α) {a : α} (h : (runAll load calls k).map (fun result => f result.2) = some a) : f k' = a := by
  rw [hrun, Option.map_some] at h
  exact Option.some.inj h

/-! ### What a dispatch does -/

/-- The entry a dispatched syscall goes to, where it changes the kernel. -/
def SyscallRequest.operation (request : SyscallRequest) (k : GuestKernel) (task : GuestTask) : Option KernelOp :=
  let tid := request.tid
  match request.syscall with
  | .setpgid => some (.setpgid task.pid (request.arg 0) (request.arg 1))
  | .setsid => some (.setsid task.pid)
  | .fork => some (.forkLike tid (fun regs => regs.withSyscallReturn request.childReturnRip 0) false)
  | .vfork =>
    let childReturnRip := k.currentSyscallReturnRip tid
    some (.forkLike tid (fun regs => regs.withSyscallReturn childReturnRip 0) true)
  | .clone =>
    some (.clone tid
      ⟨BitVec.ofNat 64 (request.arg 0), request.arg 1, request.arg 2, request.arg 3, request.arg 4⟩
      request.childReturnRip)
  | .exit => some (.exitTask tid (lowExitStatus (request.arg 0)))
  | .exitGroup => some (.exitGroup task.pid (lowExitStatus (request.arg 0)))
  | .wait4 =>
    some (.wait4Current tid
      ⟨request.argI32 0, request.arg 1, BitVec.ofNat 32 (request.arg 2), request.arg 3⟩ request.childReturnRip)
  | .rtSigaction =>
    some (.rtSigaction tid (request.argU32 0) (request.arg 3)
      (if request.arg 1 ≠ 0 then some (.new (request.arg 1)) else none))
  | .rtSigprocmask =>
    some (.rtSigprocmask tid (request.argU32 0)
      (if request.arg 1 ≠ 0 then some (BitVec.ofNat 64 (request.arg 1)) else none) (request.arg 3))
  | .rtSigtimedwait => some (.rtSigtimedwait tid 0 (request.arg 3) false)
  | .kill => some (.kill (request.argI32 0) (request.argU32 1))
  | .tkill => some (.tkill (request.argI32 0) (request.argU32 1))
  | .tgkill => some (.tgkill (request.argI32 0) (request.argI32 1) (request.argU32 2))
  | .setTidAddress => some (.setTidAddress tid (request.arg 0))
  | .setRobustList => some (.setRobustList tid (request.arg 0) (request.arg 1))
  | .archPrctl => some (.archPrctl tid (request.arg 0) (request.arg 1))
  | .execve =>
    (k.process task.pid).map fun process =>
      .execTask tid ⟨process.image.executable, process.image.interpreter, [process.image.executable.path], []⟩
  | _ => none

def KernelCall.operation (k : GuestKernel) : KernelCall → Option KernelOp
  | .direct op => some op
  | .dispatch request =>
    match k.task request.tid with
    | none => none
    | some task => if task.pid ≠ request.pid then none else request.operation k task

/-- The kernel an entry leaves, if a call goes to one. -/
def KernelOp.effect (load : GuestProgram → Except TaskError GuestImageState) (k : GuestKernel) :
    Option KernelOp → GuestKernel
  | none => k
  | some op => (op.run load k).2

theorem GuestKernel.execveCurrent_snd (load : GuestProgram → Except TaskError GuestImageState) (k : GuestKernel)
    (tid : GuestTid) (program : GuestProgram) :
    (k.execveCurrent load tid program).2 = (k.execTask load tid program).2 := by
  unfold execveCurrent
  rcases k.execTask load tid program with ⟨_ | _, _⟩ <;> rfl

theorem GuestKernel.dispatchTask_state {load : GuestProgram → Except TaskError GuestImageState}
    {k k' : GuestKernel} {request : SyscallRequest} {task : GuestTask} {outcome : SyscallOutcome}
    (h : k.dispatchTask load request task = some (outcome, k')) :
    k' = KernelOp.effect load k (request.operation k task) := by
  unfold dispatchTask at h
  unfold SyscallRequest.operation
  cases hsyscall : request.syscall <;>
    simp only [hsyscall, Option.some.injEq, Option.map_eq_some_iff] at h ⊢
  case getppid =>
      obtain ⟨_, -, h⟩ := h
      exact (Prod.mk.inj h).2.symm
  case getpgrp =>
      obtain ⟨_, -, h⟩ := h
      exact (Prod.mk.inj h).2.symm
  case execve =>
      obtain ⟨process, hprocess, h⟩ := h
      rw [hprocess, Option.map_some]
      exact (congrArg Prod.snd h).symm.trans (execveCurrent_snd load k request.tid _)
  all_goals exact (congrArg Prod.snd h).symm

theorem KernelCall.run_state {load : GuestProgram → Except TaskError GuestImageState} {k k' : GuestKernel}
    {call : KernelCall} {reply : KernelReply} (h : call.run load k = some (reply, k')) :
    k' = KernelOp.effect load k (call.operation k) := by
  cases call with
  | direct op => exact (Prod.mk.inj (Option.some.inj h)).2.symm
  | dispatch request =>
      simp only [run, Option.map_eq_some_iff, Prod.exists] at h
      obtain ⟨outcome, k₁, hdispatch, hk⟩ := h
      obtain rfl : k₁ = k' := (Prod.mk.inj hk).2
      unfold GuestKernel.dispatchForCurrentTask at hdispatch
      cases htask : k.task request.tid with
      | none =>
          simp only [htask, Option.some.injEq, Prod.mk.injEq] at hdispatch
          simp only [operation, htask]
          exact hdispatch.2.symm
      | some task =>
          simp only [htask] at hdispatch
          simp only [operation, htask]
          by_cases hpid : task.pid ≠ request.pid
          · rw [if_pos hpid] at hdispatch ⊢
            exact (Prod.mk.inj (Option.some.inj hdispatch)).2.symm
          · rw [if_neg hpid] at hdispatch ⊢
            exact GuestKernel.dispatchTask_state hdispatch

end Mcr.Task
