import Mcr.Task.Signal

/-!
# New processes, new threads, new images
-/

namespace Mcr.Task

/-! ### Clone flags -/

def isSupportedForkLikeClone (flags : BitVec 64) : Bool :=
  let semanticFlags := flags &&& ~~~cloneExitSignalMask
  let exitSignal := flags &&& cloneExitSignalMask
  (exitSignal == 0 || exitSignal == BitVec.ofNat 64 linuxSigchld) &&
    (semanticFlags == 0 || semanticFlags == (cloneVm ||| cloneVfork)) &&
    flags &&& ~~~(cloneExitSignalMask ||| cloneVm ||| cloneVfork) == 0

def requiredThreadFlags : BitVec 64 := cloneVm ||| cloneFs ||| cloneFiles ||| cloneSighand ||| cloneThread

def optionalThreadFlags : BitVec 64 :=
  cloneSysvsem ||| cloneSettls ||| cloneParentSettid ||| cloneChildCleartid ||| cloneChildSettid |||
    cloneDetached

def isSupportedThreadClone (flags : BitVec 64) : Bool :=
  flags &&& cloneExitSignalMask == 0 && flags &&& requiredThreadFlags == requiredThreadFlags &&
    flags &&& ~~~(requiredThreadFlags ||| optionalThreadFlags) == 0

def cloneForkLikeChildRegs (args : CloneSyscallArgs) (regs : GprState) : GprState :=
  if args.childStack ≠ 0 then { regs with rsp := args.childStack } else regs

namespace GuestKernel

/-! ### Forks -/

def forkedTask (parent : GuestTask) (childPid : GuestPid) (childTid : GuestTid) : GuestTask :=
  { parent with
    pid := childPid
    tid := childTid
    state := .runnable
    pendingSignals := .empty
    pendingSignalDelivery := none }

def forkedProcess (parent : GuestProcess) (parentPid childPid : GuestPid) : GuestProcess where
  pid := childPid
  parent := some parentPid
  pgid := parent.pgid
  sid := parent.sid
  image := parent.image
  files := parent.files
  signals := parent.signals
  pendingSignals := .empty
  children := .empty
  exitState := .running

/-- The tables after a fork, once the identities of the child are allocated. -/
def insertFork (k : GuestKernel) (parentTask : GuestTask) (parent : GuestProcess) (childPid : GuestPid)
    (childTid : GuestTid) : GuestKernel :=
  ({ k with
      processes := k.processes.insert childPid (forkedProcess parent parentTask.pid childPid) }.insertTask
    (forkedTask parentTask childPid childTid)).modifyProcess parentTask.pid fun parent =>
      { parent with children := parent.children.insert childPid }

/-- `fork_child_task`. A thread identity that has run out leaves the process identity spent. -/
def forkChildTask (k : GuestKernel) (tid : GuestTid) : Except TaskError (GuestPid × GuestTid) × GuestKernel :=
  match k.task tid with
  | none => (.error (.unknownTid tid), k)
  | some parentTask =>
    match k.process parentTask.pid with
    | none => (.error (.unknownPid parentTask.pid), k)
    | some parent =>
      if parent.exitState ≠ .running then (.error (.unknownPid parentTask.pid), k)
      else
        match k.allocatePid with
        | .error e => (.error e, k)
        | .ok (childPid, k) =>
          match k.allocateTid with
          | .error e => (.error e, k)
          | .ok (childTid, k) => (.ok (childPid, childTid), k.insertFork parentTask parent childPid childTid)

def forkChild (k : GuestKernel) (tid : GuestTid) : Except TaskError GuestPid × GuestKernel :=
  match k.forkChildTask tid with
  | (.ok (childPid, _), k) => (.ok childPid, k)
  | (.error e, k) => (.error e, k)

/-- The `fork_like_current` family: the registers of the child as a function of the caller's, and whether the
caller waits for the child as `vfork` does. -/
def forkLikeCurrent (k : GuestKernel) (tid : GuestTid) (childRegs : GprState → GprState)
    (blockParentForVfork : Bool) : SyscallOutcome × GuestKernel :=
  match k.forkChildTask tid with
  | (.ok (childPid, childTid), k) =>
    let k := k.modifyTask childTid fun task => { task with regs := childRegs task.regs }
    let k := if blockParentForVfork then k.setTaskState tid (.waitingForVfork childPid) else k
    ((SyscallOutcome.success childPid).withDecodedField (.guestPid childPid), k)
  | (.error e, k) => (e.intoOutcome, k)

def forkCurrentWithReturn (k : GuestKernel) (tid : GuestTid) (childReturnRip : GuestAddress) :
    SyscallOutcome × GuestKernel :=
  k.forkLikeCurrent tid (fun regs => regs.withSyscallReturn childReturnRip 0) false

def vforkCurrent (k : GuestKernel) (tid : GuestTid) : SyscallOutcome × GuestKernel :=
  let childReturnRip := k.currentSyscallReturnRip tid
  k.forkLikeCurrent tid (fun regs => regs.withSyscallReturn childReturnRip 0) true

/-! ### Threads -/

def threadTask (parent : GuestTask) (args : CloneSyscallArgs) (childTid : GuestTid) (childRegs : GprState) :
    GuestTask :=
  { parent with
    tid := childTid
    regs := cloneForkLikeChildRegs args childRegs
    state := .runnable
    pendingSignals := .empty
    pendingSignalDelivery := none
    robustList := none
    clearChildTid := if args.hasCloneChildCleartid && args.childTid ≠ 0 then some args.childTid else none
    tls := if args.hasCloneSettls then { parent.tls with fsBase := args.tls } else parent.tls }

def threadCurrentWithChildRegs (k : GuestKernel) (tid : GuestTid) (args : CloneSyscallArgs) (childRegs : GprState) :
    SyscallOutcome × GuestKernel :=
  if !isSupportedThreadClone args.flags then ((TaskError.invalidCloneFlags args.flags).intoOutcome, k)
  else
    match k.task tid with
    | none => (.errno esrch, k)
    | some parentTask =>
      match k.process parentTask.pid with
      | none => (.errno esrch, k)
      | some _ =>
        match k.allocateTid with
        | .error e => (e.intoOutcome, k)
        | .ok (childTid, k) =>
          ((SyscallOutcome.success childTid).withDecodedField (.guestTid childTid),
            k.insertTask (threadTask parentTask args childTid childRegs))

def cloneCurrentWithChildRegs (k : GuestKernel) (tid : GuestTid) (args : CloneSyscallArgs) (childRegs : GprState) :
    SyscallOutcome × GuestKernel :=
  if args.hasCloneThread then k.threadCurrentWithChildRegs tid args childRegs
  else if !isSupportedForkLikeClone args.flags then ((TaskError.invalidCloneFlags args.flags).intoOutcome, k)
  else k.forkLikeCurrent tid (fun _ => cloneForkLikeChildRegs args childRegs) args.hasCloneVfork

def cloneCurrentWithReturn (k : GuestKernel) (tid : GuestTid) (args : CloneSyscallArgs)
    (childReturnRip : GuestAddress) : SyscallOutcome × GuestKernel :=
  if args.hasCloneThread then
    match k.task tid with
    | none => (.errno esrch, k)
    | some task => k.threadCurrentWithChildRegs tid args (task.regs.withSyscallReturn childReturnRip 0)
  else if !isSupportedForkLikeClone args.flags then ((TaskError.invalidCloneFlags args.flags).intoOutcome, k)
  else
    match k.task tid with
    | none => (.errno esrch, k)
    | some task =>
      let childRegs := cloneForkLikeChildRegs args (task.regs.withSyscallReturn childReturnRip 0)
      k.forkLikeCurrent tid (fun _ => childRegs) args.hasCloneVfork

/-! ### Images -/

def execedTask (image : GuestMemoryImage) (task : GuestTask) : GuestTask :=
  { task with
    regs := .new image.entrypoint image.initialStackPointer
    tls := .new
    robustList := none
    clearChildTid := none }

def execedProcess (image : GuestImageState) (process : GuestProcess) : GuestProcess :=
  { process with files := process.files.closeOnExec, image := image, exitState := .running }

/-- `exec_task` of a program; `load` is the loader, `load_program`. -/
def execTask (load : GuestProgram → Except TaskError GuestImageState) (k : GuestKernel) (tid : GuestTid)
    (program : GuestProgram) : Except TaskError Unit × GuestKernel :=
  match k.task tid with
  | none => (.error (.unknownTid tid), k)
  | some task =>
    match load program with
    | .error e => (.error e, k)
    | .ok image =>
      match k.process task.pid with
      | none => (.error (.unknownPid task.pid), k)
      | some _ =>
        let k := k.modifyProcess task.pid (execedProcess image)
        let k := (k.modifyTask tid (execedTask image.memory)).setTaskState tid .runnable
        (.ok (), k.resumeVforkParent task.pid)

def execveCurrent (load : GuestProgram → Except TaskError GuestImageState) (k : GuestKernel) (tid : GuestTid)
    (program : GuestProgram) : SyscallOutcome × GuestKernel :=
  match k.execTask load tid program with
  | (.ok (), k) => (.success 0, k)
  | (.error e, k) => (e.intoOutcome, k)

end GuestKernel

end Mcr.Task
