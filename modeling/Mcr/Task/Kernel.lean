import Mcr.Task.Types

/-!
# The task kernel's tables

Processes and tasks are two tables; four indexes over the task table say which tasks are runnable, which wait
for a child, which for a descriptor and which for a futex, the last one queue by queue. Every change of a
task's state goes through `insertTask`, `removeTask` and `setTaskState`, which keep the indexes in step.
-/

namespace Mcr.Task

structure GuestKernel where
  nextPid : GuestPid
  nextTid : GuestTid
  processes : SortedMap GuestPid GuestProcess
  tasks : SortedMap GuestTid GuestTask
  runnableTids : SortedSet GuestTid
  childWaitTids : SortedSet GuestTid
  fdWaitTids : SortedSet GuestTid
  futexWaitTids : SortedMap FutexWaitKey (SortedSet GuestTid)

namespace GuestKernel

def process (k : GuestKernel) (pid : GuestPid) : Option GuestProcess := k.processes.get? pid

def task (k : GuestKernel) (tid : GuestTid) : Option GuestTask := k.tasks.get? tid

/-- A change through `task_mut`. -/
def modifyTask (k : GuestKernel) (tid : GuestTid) (f : GuestTask → GuestTask) : GuestKernel :=
  { k with tasks := k.tasks.modify tid f }

/-- A change through `process_mut`. -/
def modifyProcess (k : GuestKernel) (pid : GuestPid) (f : GuestProcess → GuestProcess) : GuestKernel :=
  { k with processes := k.processes.modify pid f }

/-- `futex_wait_tids.get(&key)`, with the missing queue read as an empty one. -/
def futexQueue (k : GuestKernel) (key : FutexWaitKey) : SortedSet GuestTid :=
  (k.futexWaitTids.get? key).getD .empty

/-! ### The indexes -/

def indexTaskState (k : GuestKernel) (tid : GuestTid) : TaskState → GuestKernel
  | .runnable => { k with runnableTids := k.runnableTids.insert tid }
  | .waitingForChild _ => { k with childWaitTids := k.childWaitTids.insert tid }
  | .waitingForFd _ _ => { k with fdWaitTids := k.fdWaitTids.insert tid }
  | .waitingForFutex key =>
      { k with futexWaitTids := k.futexWaitTids.insert key ((k.futexQueue key).insert tid) }
  | .waitingForVfork _ | .waitingForSleep | .waitingForSignalSuspend _ | .waitingForSignalSet _
  | .exited _ => k

def unindexTaskState (k : GuestKernel) (tid : GuestTid) : TaskState → GuestKernel
  | .runnable => { k with runnableTids := k.runnableTids.erase tid }
  | .waitingForChild _ => { k with childWaitTids := k.childWaitTids.erase tid }
  | .waitingForFd _ _ => { k with fdWaitTids := k.fdWaitTids.erase tid }
  | .waitingForFutex key =>
    match k.futexWaitTids.get? key with
    | some waiters =>
      if (waiters.erase tid).isEmpty then { k with futexWaitTids := k.futexWaitTids.erase key }
      else { k with futexWaitTids := k.futexWaitTids.insert key (waiters.erase tid) }
    | none => k
  | .waitingForVfork _ | .waitingForSleep | .waitingForSignalSuspend _ | .waitingForSignalSet _
  | .exited _ => k

def insertTask (k : GuestKernel) (task : GuestTask) : GuestKernel :=
  { k.indexTaskState task.tid task.state with tasks := k.tasks.insert task.tid task }

def removeTask (k : GuestKernel) (tid : GuestTid) : GuestKernel :=
  match k.task tid with
  | some task => { k with tasks := k.tasks.erase tid }.unindexTaskState task.tid task.state
  | none => k

def setTaskState (k : GuestKernel) (tid : GuestTid) (state : TaskState) : GuestKernel :=
  match k.task tid with
  | none => k
  | some task =>
    if task.state = state then k
    else
      ((k.unindexTaskState tid task.state).modifyTask tid fun task => { task with state := state }).indexTaskState
        tid state

/-! ### Identities -/

def allocatePid (k : GuestKernel) : Except TaskError (GuestPid × GuestKernel) :=
  match checkedSucc k.nextPid with
  | some next => .ok (k.nextPid, { k with nextPid := next })
  | none => .error .pidExhausted

def allocateTid (k : GuestKernel) : Except TaskError (GuestTid × GuestKernel) :=
  match checkedSucc k.nextTid with
  | some next => .ok (k.nextTid, { k with nextTid := next })
  | none => .error .tidExhausted

def currentSyscallReturnRip (k : GuestKernel) (tid : GuestTid) : GuestAddress :=
  match k.task tid with
  | some task => saturatingAdd task.regs.rip syscallInstructionLen
  | none => 0

/-! ### The initial process -/

/-- `GuestTask::initial`. -/
def initialTask (tid : GuestTid) (pid : GuestPid) (image : GuestMemoryImage) : GuestTask where
  tid := tid
  pid := pid
  regs := .new image.entrypoint image.initialStackPointer
  tls := .new
  state := .runnable
  robustList := none
  clearChildTid := none
  signalMask := 0
  pendingSignals := .empty
  pendingSignalDelivery := none

def initialProcess (pid : GuestPid) (image : GuestImageState) : GuestProcess where
  pid := pid
  parent := none
  pgid := pid
  sid := pid
  image := image
  files := .withStdio
  signals := .default
  pendingSignals := .empty
  children := .empty
  exitState := .running

def bare : GuestKernel where
  nextPid := initialGuestPid
  nextTid := initialGuestTid
  processes := .empty
  tasks := .empty
  runnableTids := .empty
  childWaitTids := .empty
  fdWaitTids := .empty
  futexWaitTids := .empty

/-- `create_initial_process` on a program whose image has loaded. -/
def createInitialProcess (k : GuestKernel) (image : GuestImageState) : Except TaskError GuestKernel := do
  let (pid, k) ← k.allocatePid
  let (tid, k) ← k.allocateTid
  pure ({ k with processes := k.processes.insert pid (initialProcess pid image) }.insertTask
    (initialTask tid pid image.memory))

/-- `GuestKernel::new`; `load` is the loader, `load_program`. -/
def new (load : GuestProgram → Except TaskError GuestImageState) (program : GuestProgram) :
    Except TaskError GuestKernel := do
  let image ← load program
  bare.createInitialProcess image

def initial (image : GuestImageState) : GuestKernel :=
  { bare with
      nextPid := initialGuestPid + 1
      nextTid := initialGuestTid + 1
      processes := SortedMap.empty.insert initialGuestPid (initialProcess initialGuestPid image) }.insertTask
    (initialTask initialGuestTid initialGuestPid image.memory)

theorem new_eq_initial {load : GuestProgram → Except TaskError GuestImageState} {program : GuestProgram}
    {image : GuestImageState} (h : load program = .ok image) : new load program = .ok (initial image) := by
  rw [new, h]
  rfl

end GuestKernel

end Mcr.Task
