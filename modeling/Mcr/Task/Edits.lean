import Mcr.Task.Syscalls

/-!
# The edits the kernel is changed by

What every primitive does to the two tables, and the edits that leave the process tree alone: a task keeps its
identity and its process, a process keeps its parent, its children and whether it has exited, and the indexes
follow through `setTaskState`. The scope of a sequence of edits bounds what else it does: the tasks it may park,
and whether it takes pending signals, makes signals pending, ends tasks, reaps processes or adds to futex queues.
-/

namespace Mcr.Task

namespace GuestKernel

variable {k k' : GuestKernel}

/-! ### The tables after a primitive -/

@[simp] theorem tasks_indexTaskState (k : GuestKernel) (tid : GuestTid) (state : TaskState) :
    (k.indexTaskState tid state).tasks = k.tasks := by
  cases state <;> rfl

@[simp] theorem processes_indexTaskState (k : GuestKernel) (tid : GuestTid) (state : TaskState) :
    (k.indexTaskState tid state).processes = k.processes := by
  cases state <;> rfl

@[simp] theorem next_indexTaskState (k : GuestKernel) (tid : GuestTid) (state : TaskState) :
    (k.indexTaskState tid state).nextPid = k.nextPid ∧ (k.indexTaskState tid state).nextTid = k.nextTid := by
  cases state <;> exact ⟨rfl, rfl⟩

@[simp] theorem tasks_unindexTaskState (k : GuestKernel) (tid : GuestTid) (state : TaskState) :
    (k.unindexTaskState tid state).tasks = k.tasks := by
  cases state <;> simp only [unindexTaskState]
  split
  · split <;> rfl
  · rfl

@[simp] theorem processes_unindexTaskState (k : GuestKernel) (tid : GuestTid) (state : TaskState) :
    (k.unindexTaskState tid state).processes = k.processes := by
  cases state <;> simp only [unindexTaskState]
  split
  · split <;> rfl
  · rfl

@[simp] theorem next_unindexTaskState (k : GuestKernel) (tid : GuestTid) (state : TaskState) :
    (k.unindexTaskState tid state).nextPid = k.nextPid ∧ (k.unindexTaskState tid state).nextTid = k.nextTid := by
  cases state <;> simp only [unindexTaskState, and_self]
  split
  · split <;> exact ⟨rfl, rfl⟩
  · exact ⟨rfl, rfl⟩

@[simp] theorem task_indexTaskState (k : GuestKernel) (tid j : GuestTid) (state : TaskState) :
    (k.indexTaskState tid state).task j = k.task j := by
  rw [task, tasks_indexTaskState, task]

@[simp] theorem task_unindexTaskState (k : GuestKernel) (tid j : GuestTid) (state : TaskState) :
    (k.unindexTaskState tid state).task j = k.task j := by
  rw [task, tasks_unindexTaskState, task]

@[simp] theorem task_modifyTask (k : GuestKernel) (tid j : GuestTid) (f : GuestTask → GuestTask) :
    (k.modifyTask tid f).task j = if j = tid then (k.task tid).map f else k.task j :=
  SortedMap.get?_modify k.tasks tid j f

@[simp] theorem process_modifyTask (k : GuestKernel) (tid : GuestTid) (f : GuestTask → GuestTask) (pid : GuestPid) :
    (k.modifyTask tid f).process pid = k.process pid := rfl

@[simp] theorem process_modifyProcess (k : GuestKernel) (pid j : GuestPid) (f : GuestProcess → GuestProcess) :
    (k.modifyProcess pid f).process j = if j = pid then (k.process pid).map f else k.process j :=
  SortedMap.get?_modify k.processes pid j f

@[simp] theorem task_modifyProcess (k : GuestKernel) (pid : GuestPid) (f : GuestProcess → GuestProcess)
    (tid : GuestTid) : (k.modifyProcess pid f).task tid = k.task tid := rfl

@[simp] theorem task_setTaskState (k : GuestKernel) (tid j : GuestTid) (state : TaskState) :
    (k.setTaskState tid state).task j =
      if j = tid then (k.task tid).map fun task => { task with state := state } else k.task j := by
  unfold setTaskState
  cases htask : k.task tid with
  | none =>
      by_cases hj : j = tid
      · subst hj
        simp [htask]
      · simp [hj]
  | some task =>
      by_cases hstate : task.state = state
      · subst hstate
        by_cases hj : j = tid
        · subst hj
          simp [htask]
        · simp [hj]
      · simp [hstate, htask]

@[simp] theorem process_setTaskState (k : GuestKernel) (tid : GuestTid) (state : TaskState) (pid : GuestPid) :
    (k.setTaskState tid state).process pid = k.process pid := by
  unfold setTaskState
  split
  · rfl
  · split
    · rfl
    · simp [process, modifyTask]

theorem next_setTaskState (k : GuestKernel) (tid : GuestTid) (state : TaskState) :
    (k.setTaskState tid state).nextPid = k.nextPid ∧ (k.setTaskState tid state).nextTid = k.nextTid := by
  unfold setTaskState
  split
  · exact ⟨rfl, rfl⟩
  · split
    · exact ⟨rfl, rfl⟩
    · simp [modifyTask]

theorem task_insertTask (k : GuestKernel) (task : GuestTask) (j : GuestTid) :
    (k.insertTask task).task j = if j = task.tid then some task else k.task j :=
  SortedMap.get?_insert k.tasks task.tid j task

@[simp] theorem process_insertTask (k : GuestKernel) (task : GuestTask) (pid : GuestPid) :
    (k.insertTask task).process pid = k.process pid := by
  simp [process, insertTask]

theorem next_insertTask (k : GuestKernel) (task : GuestTask) :
    (k.insertTask task).nextPid = k.nextPid ∧ (k.insertTask task).nextTid = k.nextTid := by
  simp [insertTask]

theorem task_removeTask (k : GuestKernel) (tid j : GuestTid) :
    (k.removeTask tid).task j = if j = tid then none else k.task j := by
  unfold removeTask
  cases htask : k.task tid with
  | none =>
      by_cases hj : j = tid
      · simp [hj, htask]
      · simp [hj]
  | some removed =>
      dsimp only
      rw [task_unindexTaskState]
      exact SortedMap.get?_erase k.tasks tid j

@[simp] theorem process_removeTask (k : GuestKernel) (tid : GuestTid) (pid : GuestPid) :
    (k.removeTask tid).process pid = k.process pid := by
  unfold removeTask
  split <;> simp [process]

theorem next_removeTask (k : GuestKernel) (tid : GuestTid) :
    (k.removeTask tid).nextPid = k.nextPid ∧ (k.removeTask tid).nextTid = k.nextTid := by
  unfold removeTask
  split <;> simp

/-! ### The states of the tasks -/

def stateOf (k : GuestKernel) (tid : GuestTid) : Option TaskState := (k.task tid).map GuestTask.state

theorem stateOf_modifyTask {f : GuestTask → GuestTask} (hf : ∀ task, (f task).state = task.state) (k : GuestKernel)
    (tid j : GuestTid) : (k.modifyTask tid f).stateOf j = k.stateOf j := by
  rw [stateOf, task_modifyTask, stateOf]
  split
  · rename_i hj
    subst hj
    cases k.task j with
    | none => rfl
    | some task => exact congrArg some (hf task)
  · rfl

@[simp] theorem stateOf_modifyProcess (k : GuestKernel) (pid : GuestPid) (f : GuestProcess → GuestProcess)
    (tid : GuestTid) : (k.modifyProcess pid f).stateOf tid = k.stateOf tid := rfl

@[simp] theorem stateOf_setTaskState (k : GuestKernel) (tid j : GuestTid) (state : TaskState) :
    (k.setTaskState tid state).stateOf j = if j = tid then (k.stateOf tid).map fun _ => state else k.stateOf j := by
  rw [stateOf, task_setTaskState, stateOf, stateOf]
  split
  · cases k.task tid <;> rfl
  · rfl

def Named (k : GuestKernel) : Prop := ∀ tid task, k.task tid = some task → task.tid = tid

theorem named_setTaskState (hk : Named k) (tid : GuestTid) (state : TaskState) : Named (k.setTaskState tid state) := by
  intro j t ht
  rw [task_setTaskState] at ht
  split at ht
  · obtain ⟨t₀, ht₀, rfl⟩ := Option.map_eq_some_iff.mp ht
    exact (hk _ _ ht₀).trans ‹j = tid›.symm
  · exact hk j t ht

/-! ### Quiet edits -/

/-- An edit of a task's registers and registrations. -/
def KeepsTask (f : GuestTask → GuestTask) : Prop :=
  ∀ task, f task =
    { task with
      regs := (f task).regs, tls := (f task).tls, robustList := (f task).robustList
      clearChildTid := (f task).clearChildTid }

/-- An edit of what a process is called, runs, has open and does on signals. -/
def KeepsPlace (f : GuestProcess → GuestProcess) : Prop :=
  ∀ process, f process =
    { process with
      pgid := (f process).pgid, sid := (f process).sid, image := (f process).image, files := (f process).files
      signals := (f process).signals }

theorem KeepsTask.kept {f : GuestTask → GuestTask} (h : KeepsTask f) (task : GuestTask) :
    (f task).tid = task.tid ∧ (f task).pid = task.pid ∧ (f task).state = task.state ∧
      (f task).signalMask = task.signalMask ∧ (f task).pendingSignals = task.pendingSignals ∧
      (f task).pendingSignalDelivery = task.pendingSignalDelivery := by
  rw [h task]
  exact ⟨rfl, rfl, rfl, rfl, rfl, rfl⟩

theorem KeepsPlace.kept {f : GuestProcess → GuestProcess} (h : KeepsPlace f) (process : GuestProcess) :
    (f process).pid = process.pid ∧ (f process).parent = process.parent ∧
      (f process).children = process.children ∧ (f process).exitState = process.exitState ∧
      (f process).pendingSignals = process.pendingSignals := by
  rw [h process]
  exact ⟨rfl, rfl, rfl, rfl, rfl⟩

/-- The mask blocks neither `SIGKILL` nor `SIGSTOP`. -/
def Sanitized (mask : SignalMask) : Prop := mask &&& unblockableSignalMask = 0

/-- What a sequence of edits may do: the tasks it may park, whether it takes pending signals, makes signals
pending, ends tasks, reaps processes, adds to futex queues, or makes tasks. -/
structure Scope where
  parks : GuestTid → Prop
  takes : Prop
  posts : Prop
  exits : Prop
  reaps : Prop
  queues : Prop
  births : Prop

def Scope.wakes : Scope := ⟨fun _ => False, False, False, False, False, False, False⟩

def Scope.signals : Scope := ⟨fun _ => False, True, True, False, False, False, False⟩

def Scope.sends : Scope := ⟨fun _ => False, False, True, False, False, False, False⟩

def Scope.ends : Scope := ⟨fun _ => False, False, False, True, False, False, False⟩

def Scope.reaping : Scope := ⟨fun _ => False, False, False, False, True, False, False⟩

def Scope.requeues : Scope := ⟨fun _ => False, False, False, False, False, True, False⟩

/-- The task has not exited, if there is one, and waits for a signal only if signals are taken. -/
def Awake (k : GuestKernel) (scope : Scope) (tid : GuestTid) : Prop :=
  ∀ state, k.stateOf tid = some state → state.isExited = false ∧ ((signalWait state).isSome = true → scope.takes)

theorem awake_of_task {scope : Scope} {tid : GuestTid} {task : GuestTask} (htask : k.task tid = some task)
    (h : task.state.isExited = false ∧ ((signalWait task.state).isSome = true → scope.takes)) :
    k.Awake scope tid := by
  intro state hstate
  rw [stateOf, htask, Option.map_some, Option.some.injEq] at hstate
  exact hstate ▸ h

/-- A task may be parked in the state: a wait for a child has options that are supported, and a wait for a
signal finds none pending. -/
structure Parks (k : GuestKernel) (tid : GuestTid) (state : TaskState) : Prop where
  live : state.isExited = false
  child : ∀ args, state = .waitingForChild args → args.hasUnsupportedOptions = false
  signal : ∀ mask returnsSignal, signalWait state = some (mask, returnsSignal) →
    ∀ task, k.task tid = some task → (k.takePendingSignalForTask tid task.pid mask).1 = none

inductive QuietEdit (scope : Scope) (k : GuestKernel) : GuestKernel → Prop
  | task (tid : GuestTid) (f : GuestTask → GuestTask) (h : KeepsTask f) : QuietEdit scope k (k.modifyTask tid f)
  | process (pid : GuestPid) (f : GuestProcess → GuestProcess) (h : KeepsPlace f) :
      QuietEdit scope k (k.modifyProcess pid f)
  | mask (tid : GuestTid) (mask : SignalMask)
      (h : ∀ task, k.task tid = some task → Sanitized task.signalMask → Sanitized mask) :
      QuietEdit scope k (k.modifyTask tid fun task => { task with signalMask := mask })
  | takeTask (tid : GuestTid) (signal : Nat) (h : scope.takes) :
      QuietEdit scope k
        (k.modifyTask tid fun task => { task with pendingSignals := task.pendingSignals.erase signal })
  | takeProcess (pid : GuestPid) (signal : Nat) (h : scope.takes) :
      QuietEdit scope k
        (k.modifyProcess pid fun process => { process with pendingSignals := process.pendingSignals.erase signal })
  | slot (tid : GuestTid) (signal : Option Nat) (h : scope.takes) :
      QuietEdit scope k (k.modifyTask tid fun task => { task with pendingSignalDelivery := signal })
  | postTask (tid : GuestTid) (signal : Nat) (h : scope.posts) :
      QuietEdit scope k
        (k.modifyTask tid fun task => { task with pendingSignals := task.pendingSignals.insert signal })
  | postProcess (pid : GuestPid) (signal : Nat) (h : scope.posts) :
      QuietEdit scope k
        (k.modifyProcess pid fun process => { process with pendingSignals := process.pendingSignals.insert signal })
  | wake (tid : GuestTid) (h : k.Awake scope tid) : QuietEdit scope k (k.setTaskState tid .runnable)
  | requeue (tid : GuestTid) (source target : FutexWaitKey) (h : k.stateOf tid = some (.waitingForFutex source))
      (hqueues : scope.queues) : QuietEdit scope k (k.setTaskState tid (.waitingForFutex target))
  | park (tid : GuestTid) (state : TaskState) (h : scope.parks tid) (hparks : k.Parks tid state)
      (hqueues : state.isWaitingForFutex = true → scope.queues)
      (hwaits : (signalWait state).isSome = true → scope.takes) : QuietEdit scope k (k.setTaskState tid state)
  | exit (tid : GuestTid) (status : Int) (h : scope.exits) : QuietEdit scope k (k.setTaskState tid (.exited status))

abbrev Quiet (scope : Scope) : GuestKernel → GuestKernel → Prop := Relation.ReflTransGen (QuietEdit scope)

theorem QuietEdit.cases {scope : Scope} (h : QuietEdit scope k k') :
    (∃ tid f, k' = k.modifyTask tid f ∧
        ∀ task, (f task).tid = task.tid ∧ (f task).pid = task.pid ∧ (f task).state = task.state) ∨
      (∃ pid f, k' = k.modifyProcess pid f ∧
        ∀ process, (f process).pid = process.pid ∧ (f process).parent = process.parent ∧
          (f process).children = process.children ∧ (f process).exitState = process.exitState) ∨
      ∃ tid state, k' = k.setTaskState tid state := by
  cases h with
  | task tid f hf =>
      refine Or.inl ⟨tid, f, rfl, fun task => ?_⟩
      obtain ⟨htid, hpid, hstate, -⟩ := hf.kept task
      exact ⟨htid, hpid, hstate⟩
  | process pid f hf =>
      refine Or.inr (Or.inl ⟨pid, f, rfl, fun process => ?_⟩)
      obtain ⟨hpid, hparent, hchildren, hexit, -⟩ := hf.kept process
      exact ⟨hpid, hparent, hchildren, hexit⟩
  | mask tid mask => exact Or.inl ⟨tid, _, rfl, fun _ => ⟨rfl, rfl, rfl⟩⟩
  | takeTask tid signal => exact Or.inl ⟨tid, _, rfl, fun _ => ⟨rfl, rfl, rfl⟩⟩
  | takeProcess pid signal => exact Or.inr (Or.inl ⟨pid, _, rfl, fun _ => ⟨rfl, rfl, rfl, rfl⟩⟩)
  | slot tid signal => exact Or.inl ⟨tid, _, rfl, fun _ => ⟨rfl, rfl, rfl⟩⟩
  | postTask tid signal => exact Or.inl ⟨tid, _, rfl, fun _ => ⟨rfl, rfl, rfl⟩⟩
  | postProcess pid signal => exact Or.inr (Or.inl ⟨pid, _, rfl, fun _ => ⟨rfl, rfl, rfl, rfl⟩⟩)
  | wake tid => exact Or.inr (Or.inr ⟨tid, _, rfl⟩)
  | requeue tid source target => exact Or.inr (Or.inr ⟨tid, _, rfl⟩)
  | park tid state => exact Or.inr (Or.inr ⟨tid, _, rfl⟩)
  | exit tid status => exact Or.inr (Or.inr ⟨tid, _, rfl⟩)

inductive Becomes (scope : Scope) (k : GuestKernel) (tid : GuestTid) : TaskState → Prop
  | kept {state : TaskState} (h : k.stateOf tid = some state) : Becomes scope k tid state
  | woken {old : TaskState} (h : k.stateOf tid = some old) (hlive : old.isExited = false)
      (hwaits : (signalWait old).isSome = true → scope.takes) : Becomes scope k tid .runnable
  | requeued {source target : FutexWaitKey} (h : k.stateOf tid = some (.waitingForFutex source))
      (hscope : scope.queues) : Becomes scope k tid (.waitingForFutex target)
  | parked {old state : TaskState} (h : k.stateOf tid = some old) (hscope : scope.parks tid)
      (hparks : k.Parks tid state) (hqueues : state.isWaitingForFutex = true → scope.queues)
      (hwaits : (signalWait state).isSome = true → scope.takes) : Becomes scope k tid state
  | ended {status : Int} (hscope : scope.exits) : Becomes scope k tid (.exited status)
  | revived {old : TaskState} (h : k.stateOf tid = some old) (hscope : scope.parks tid) : Becomes scope k tid .runnable
  | born (h : tid = k.nextTid) : Becomes scope k tid .runnable

theorem QuietEdit.becomes {scope : Scope} (h : QuietEdit scope k k') {tid : GuestTid} {state : TaskState}
    (hstate : k'.stateOf tid = some state) : Becomes scope k tid state := by
  have hmoved : ∀ {j new}, (k.setTaskState j new).stateOf tid = some state →
      k.stateOf tid = some state ∨ (tid = j ∧ state = new ∧ ∃ old, k.stateOf tid = some old) := by
    intro j new hs
    rw [stateOf_setTaskState] at hs
    split at hs
    · obtain ⟨old, hold, rfl⟩ := Option.map_eq_some_iff.mp hs
      exact Or.inr ⟨‹_›, rfl, old, ‹tid = j› ▸ hold⟩
    · exact Or.inl hs
  have hkept : ∀ {j} {f : GuestTask → GuestTask}, (k.modifyTask j f).stateOf tid = some state →
      (∀ task, (f task).state = task.state) → Becomes scope k tid state :=
    fun hs hf => .kept (stateOf_modifyTask hf k _ tid ▸ hs)
  cases h with
  | task j f hf => exact hkept hstate fun task => (hf.kept task).2.2.1
  | process pid f => exact .kept hstate
  | mask j mask => exact hkept hstate fun _ => rfl
  | takeTask j signal => exact hkept hstate fun _ => rfl
  | takeProcess pid signal => exact .kept hstate
  | slot j signal => exact hkept hstate fun _ => rfl
  | postTask j signal => exact hkept hstate fun _ => rfl
  | postProcess pid signal => exact .kept hstate
  | wake j hawake =>
      rcases hmoved hstate with hs | ⟨rfl, rfl, old, hold⟩
      · exact .kept hs
      · exact .woken hold (hawake old hold).1 (hawake old hold).2
  | requeue j source target hsource hqueues =>
      rcases hmoved hstate with hs | ⟨rfl, rfl, -⟩
      · exact .kept hs
      · exact .requeued hsource hqueues
  | park j new h hparks hqueues hwaits =>
      rcases hmoved hstate with hs | ⟨rfl, rfl, old, hold⟩
      · exact .kept hs
      · exact .parked hold h hparks hqueues hwaits
  | exit j status h =>
      rcases hmoved hstate with hs | ⟨rfl, rfl, -⟩
      · exact .kept hs
      · exact .ended h

theorem Becomes.awake {scope : Scope} {tid : GuestTid} {state : TaskState} (h : Becomes scope k tid state)
    (hexits : ¬scope.exits) (hawake : k.Awake scope tid) :
    state.isExited = false ∧ ((signalWait state).isSome = true → scope.takes) := by
  cases h with
  | kept h => exact hawake state h
  | parked _ _ hparks _ hwaits => exact ⟨hparks.live, hwaits⟩
  | ended hscope => exact absurd hscope hexits
  | _ => exact ⟨rfl, nofun⟩

theorem QuietEdit.awake {scope : Scope} (h : QuietEdit scope k k') (hexits : ¬scope.exits) {tid : GuestTid}
    (hawake : k.Awake scope tid) : k'.Awake scope tid :=
  fun _ hstate => (h.becomes hstate).awake hexits hawake

namespace Quiet

variable {scope : Scope}

theorem task (k : GuestKernel) (tid : GuestTid) {f : GuestTask → GuestTask}
    (h : KeepsTask f) : Quiet scope k (k.modifyTask tid f) :=
  .single (.task tid f h)

theorem process (k : GuestKernel) (pid : GuestPid) {f : GuestProcess → GuestProcess}
    (h : KeepsPlace f) : Quiet scope k (k.modifyProcess pid f) :=
  .single (.process pid f h)

theorem preserves {P : GuestKernel → Prop} (hedit : ∀ {k k'}, QuietEdit scope k k' → P k → P k')
    (h : Quiet scope k k') (hP : P k) : P k' := by
  induction h with
  | refl => exact hP
  | tail _ hlast ih => exact hedit hlast ih

theorem widen {wider : Scope} (hparks : ∀ tid, scope.parks tid → wider.parks tid) (htakes : scope.takes → wider.takes)
    (hposts : scope.posts → wider.posts) (hexits : scope.exits → wider.exits) (hqueues : scope.queues → wider.queues)
    (h : Quiet scope k k') : Quiet wider k k' := by
  refine Relation.ReflTransGen.mono (fun k k' hedit => ?_) k k' h
  cases hedit with
  | task tid f hf => exact .task tid f hf
  | process pid f hf => exact .process pid f hf
  | mask tid mask hmask => exact .mask tid mask hmask
  | takeTask tid signal h => exact .takeTask tid signal (htakes h)
  | takeProcess pid signal h => exact .takeProcess pid signal (htakes h)
  | slot tid signal h => exact .slot tid signal (htakes h)
  | postTask tid signal h => exact .postTask tid signal (hposts h)
  | postProcess pid signal h => exact .postProcess pid signal (hposts h)
  | wake tid hawake =>
      exact .wake tid fun state hstate => ⟨(hawake state hstate).1, fun hwait => htakes ((hawake state hstate).2 hwait)⟩
  | requeue tid source target hstate h => exact .requeue tid source target hstate (hqueues h)
  | park tid state h hstate hqueue hwaits =>
      exact .park tid state (hparks tid h) hstate (fun hfutex => hqueues (hqueue hfutex)) fun hwait => htakes (hwaits hwait)
  | exit tid status h => exact .exit tid status (hexits h)

theorem awake (h : Quiet scope k k') (hexits : ¬scope.exits) {tid : GuestTid} (hawake : k.Awake scope tid) :
    k'.Awake scope tid :=
  h.preserves (fun hedit hawake => hedit.awake hexits hawake) hawake

theorem named (h : Quiet scope k k') (hk : Named k) : Named k' := by
  refine h.preserves (fun {k k'} hedit hk => ?_) hk
  intro j t ht
  rcases hedit.cases with ⟨tid, f, rfl, hf⟩ | ⟨pid, f, rfl, -⟩ | ⟨tid, state, rfl⟩
  · rw [task_modifyTask] at ht
    split at ht
    · obtain ⟨t₀, ht₀, rfl⟩ := Option.map_eq_some_iff.mp ht
      rw [(hf t₀).1, hk _ _ ht₀, ‹j = tid›]
    · exact hk j t ht
  · exact hk j t ht
  · exact named_setTaskState hk tid state j t ht

theorem foldl {α : Type} {f : GuestKernel → α → GuestKernel} (tid : α → GuestTid) (hexits : ¬scope.exits)
    (h : ∀ k a, k.Awake scope (tid a) → Quiet scope k (f k a)) (l : List α) (k : GuestKernel)
    (hl : ∀ a ∈ l, k.Awake scope (tid a)) : Quiet scope k (l.foldl f k) := by
  induction l generalizing k with
  | nil => exact .refl
  | cons a rest ih =>
      have hturn := h k a (hl a List.mem_cons_self)
      exact hturn.trans (ih (f k a) fun b hb => hturn.awake hexits (hl b (List.mem_cons_of_mem a hb)))

end Quiet

end GuestKernel

end Mcr.Task
