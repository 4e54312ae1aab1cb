import Mcr.Task.Edits

/-!
# The quiet calls

Every entry of the kernel but the waits for children, the exits, the forks and the replacement of an image is a
sequence of quiet edits, within a scope that can be read off the entry.
-/

namespace Mcr.Task

open Net (LinuxErrno)

namespace GuestKernel

variable {k : GuestKernel} {scope : Scope}

/-! ### Parking and waking -/

theorem parks_of_plain {tid : GuestTid} {state : TaskState} (hlive : state.isExited = false)
    (hchild : state.isWaitingForChild = false) (hsignal : signalWait state = none) : k.Parks tid state where
  live := hlive
  child := fun args h => by simp [h, TaskState.isWaitingForChild] at hchild
  signal := fun mask returnsSignal h => by simp [h] at hsignal

theorem blockTask_quiet (k : GuestKernel) (tid : GuestTid) {state : TaskState} (h : scope.parks tid)
    (hparks : k.Parks tid state) (hqueues : state.isWaitingForFutex = true → scope.queues)
    (hwaits : (signalWait state).isSome = true → scope.takes) : Quiet scope k (k.blockTask tid state).2 := by
  unfold blockTask
  split
  · exact .refl
  · exact .single (.park tid state h hparks hqueues hwaits)

theorem resumeFdEach_quiet (ready : GuestPid → Int → Bool → Bool) (tids : List GuestTid) (k : GuestKernel) :
    Quiet scope k (resumeFdEach ready tids k).2 := by
  induction tids generalizing k with
  | nil => exact .refl
  | cons tid rest ih =>
      unfold resumeFdEach
      split
      · exact ih k
      · rename_i task htask
        split
        · rename_i fd write hstate
          split
          · have hwake : QuietEdit scope k (k.setTaskState tid .runnable) :=
              .wake tid (awake_of_task htask (by rw [hstate]; exact ⟨rfl, nofun⟩))
            exact (Relation.ReflTransGen.single hwake).trans (ih _)
          · exact ih k
        · exact ih k

theorem resumeSleepWaiter_quiet (k : GuestKernel) (tid : GuestTid) : Quiet scope k (k.resumeSleepWaiter tid).2 := by
  unfold resumeSleepWaiter
  split
  · rename_i task htask
    split
    · rename_i hstate
      exact .single (.wake tid (awake_of_task htask (by rw [hstate]; exact ⟨rfl, nofun⟩)))
    · exact .refl
  · exact .refl

theorem moveFutexWaiters_quiet (source : FutexWaitKey) {state : TaskState}
    (hstate : state = .runnable ∨ scope.queues ∧ ∃ target, state = .waitingForFutex target) (limit : Nat)
    (tids : List GuestTid) (moved : Nat) (k : GuestKernel) :
    Quiet scope k (moveFutexWaiters source state limit tids moved k).2 := by
  have hmove : ∀ {k : GuestKernel} {tid : GuestTid} {task : GuestTask}, k.task tid = some task →
      task.state = .waitingForFutex source → Quiet scope k (k.setTaskState tid state) := by
    intro k tid task htask hwaits
    rcases hstate with rfl | ⟨hqueues, target, rfl⟩
    · exact .single (.wake tid (awake_of_task htask (by rw [hwaits]; exact ⟨rfl, nofun⟩)))
    · exact .single (.requeue tid source target (by rw [stateOf, htask, Option.map_some, hwaits]) hqueues)
  induction tids generalizing k moved with
  | nil => exact .refl
  | cons tid rest ih =>
      unfold moveFutexWaiters
      split
      · exact ih moved k
      · rename_i task htask
        split
        · rename_i hwaits
          split
          · exact hmove htask hwaits
          · exact (hmove htask hwaits).trans (ih (moved + 1) _)
        · exact ih moved k

theorem wakeFutexWaiters_quiet (k : GuestKernel) (key : FutexWaitKey) (limit : Nat) :
    Quiet scope k (k.wakeFutexWaiters key limit).2 := by
  unfold wakeFutexWaiters
  split
  · exact .refl
  · exact moveFutexWaiters_quiet key (Or.inl rfl) limit _ 0 k

theorem requeueFutexWaiters_quiet (k : GuestKernel) (source target : FutexWaitKey) (wakeLimit requeueLimit : Nat)
    (hqueues : scope.queues) : Quiet scope k (k.requeueFutexWaiters source target wakeLimit requeueLimit).2 := by
  have hwake : Quiet scope k (k.wakeFutexWaiters source wakeLimit).2 := wakeFutexWaiters_quiet k source wakeLimit
  unfold requeueFutexWaiters
  generalize k.wakeFutexWaiters source wakeLimit = result at hwake ⊢
  obtain ⟨woken, k₁⟩ := result
  dsimp only at hwake ⊢
  split
  · exact hwake
  · exact hwake.trans (moveFutexWaiters_quiet source (Or.inr ⟨hqueues, target, rfl⟩) requeueLimit _ 0 k₁)

theorem plain_of_isWaitingForFutex {state : TaskState} (h : state.isWaitingForFutex = true) :
    state.isExited = false ∧ signalWait state = none := by
  cases state <;> simp [TaskState.isWaitingForFutex, TaskState.isExited, signalWait] at h ⊢

theorem endFutexWait_quiet (k : GuestKernel) (tid : GuestTid) (errno : LinuxErrno) :
    Quiet scope k (k.endFutexWait tid errno).2 := by
  unfold endFutexWait
  split
  · rename_i task htask
    split
    · rename_i hwaits
      have hregs : Quiet scope k (k.modifyTask tid fun task =>
          { task with regs := task.regs.withSyscallReturn task.regs.rip (SyscallReturn.errno errno).encode }) :=
        .task k tid fun _ => rfl
      refine hregs.trans (.single (.wake tid fun state hstate => ?_))
      rw [stateOf, task_modifyTask, if_pos rfl, htask] at hstate
      rw [← Option.some.inj hstate]
      obtain ⟨hlive, hnone⟩ := plain_of_isWaitingForFutex hwaits
      exact ⟨hlive, fun hsome => by simp [hnone] at hsome⟩
    · exact .refl
  · exact .refl

theorem stateOf_endFutexWait (k : GuestKernel) (tid : GuestTid) (errno : LinuxErrno) (j : GuestTid) :
    (k.endFutexWait tid errno).2.stateOf j =
      if j = tid then (k.stateOf tid).map fun state => if state.isWaitingForFutex then .runnable else state
      else k.stateOf j := by
  unfold endFutexWait
  cases htask : k.task tid with
  | none =>
      by_cases hj : j = tid
      · simp [hj, stateOf, htask]
      · simp [hj]
  | some task =>
      by_cases hwaits : task.state.isWaitingForFutex = true
      · simp only [hwaits, if_true]
        rw [stateOf_setTaskState, stateOf_modifyTask fun _ => by rfl, stateOf_modifyTask fun _ => by rfl]
        by_cases hj : j = tid
        · simp [hj, stateOf, htask, hwaits]
        · simp [hj]
      · by_cases hj : j = tid
        · simp [hj, stateOf, htask, hwaits]
        · simp [hj, hwaits]

/-- The end of a sleep: the task is woken from one, and nothing else has a new state. -/
theorem stateOf_resumeSleepWaiter (k : GuestKernel) (tid j : GuestTid) :
    (k.resumeSleepWaiter tid).2.stateOf j =
      if j = tid then (k.stateOf tid).map fun state => if state = .waitingForSleep then .runnable else state
      else k.stateOf j := by
  unfold resumeSleepWaiter
  cases htask : k.task tid with
  | none =>
      by_cases hj : j = tid
      · simp [hj, stateOf, htask]
      · simp [hj]
  | some task =>
      by_cases hwaits : task.state = .waitingForSleep
      · by_cases hj : j = tid
        · simp [hj, stateOf, htask, hwaits]
        · simp [hj, hwaits]
      · by_cases hj : j = tid
        · simp [hj, stateOf, htask, hwaits]
        · simp [hj, hwaits]

/-! ### Taking signals -/

/-- The three ways a signal is taken: from the task, from its process, or not at all. -/
theorem takePendingSignalForTask_cases (k : GuestKernel) (tid : GuestTid) (pid : GuestPid) (mask : SignalMask) :
    (∃ task signal, k.task tid = some task ∧ takePendingSignal task.pendingSignals mask = some signal ∧
        k.takePendingSignalForTask tid pid mask = (some signal, k.modifyTask tid fun task =>
          { task with pendingSignals := task.pendingSignals.erase signal })) ∨
      (∃ process signal, k.process pid = some process ∧
        (∀ task, k.task tid = some task → takePendingSignal task.pendingSignals mask = none) ∧
        takePendingSignal process.pendingSignals mask = some signal ∧
        k.takePendingSignalForTask tid pid mask = (some signal, k.modifyProcess pid fun process =>
          { process with pendingSignals := process.pendingSignals.erase signal })) ∨
      (∀ task, k.task tid = some task → takePendingSignal task.pendingSignals mask = none) ∧
        (∀ process, k.process pid = some process → takePendingSignal process.pendingSignals mask = none) ∧
        k.takePendingSignalForTask tid pid mask = (none, k) := by
  unfold takePendingSignalForTask
  cases htask : (k.task tid).bind fun task => takePendingSignal task.pendingSignals mask with
  | some signal =>
      obtain ⟨task, hget, htake⟩ := Option.bind_eq_some_iff.mp htask
      exact Or.inl ⟨task, signal, hget, htake, rfl⟩
  | none =>
      have hnone : ∀ task, k.task tid = some task → takePendingSignal task.pendingSignals mask = none :=
        fun task hget => by rwa [hget, Option.bind_some] at htask
      cases hprocess : (k.process pid).bind fun process => takePendingSignal process.pendingSignals mask with
      | some signal =>
          obtain ⟨process, hget, htake⟩ := Option.bind_eq_some_iff.mp hprocess
          exact Or.inr (Or.inl ⟨process, signal, hget, hnone, htake, rfl⟩)
      | none =>
          refine Or.inr (Or.inr ⟨hnone, fun process hget => ?_, rfl⟩)
          rwa [hget, Option.bind_some] at hprocess

theorem takePendingSignalForTask_quiet (k : GuestKernel) (tid : GuestTid) (pid : GuestPid) (mask : SignalMask)
    (h : scope.takes) : Quiet scope k (k.takePendingSignalForTask tid pid mask).2 := by
  rcases takePendingSignalForTask_cases k tid pid mask with
    ⟨task, signal, -, -, htake⟩ | ⟨process, signal, -, -, -, htake⟩ | ⟨-, -, htake⟩
  · rw [htake]
    exact .single (.takeTask tid signal h)
  · rw [htake]
    exact .single (.takeProcess pid signal h)
  · rw [htake]

theorem takePendingSignalForReturnToUser_quiet (k : GuestKernel) (tid : GuestTid) (h : scope.takes) :
    Quiet scope k (k.takePendingSignalForReturnToUser tid).2 := by
  unfold takePendingSignalForReturnToUser
  split
  · exact .single (.slot tid none h)
  · split
    · exact .refl
    · exact takePendingSignalForTask_quiet k tid _ _ h

/-! ### Waking signal waiters -/

theorem modifyTask_modifyTask (k : GuestKernel) (tid : GuestTid) (f g : GuestTask → GuestTask) :
    (k.modifyTask tid f).modifyTask tid g = k.modifyTask tid fun task => g (f task) := by
  have htasks : (k.tasks.modify tid f).modify tid g = k.tasks.modify tid fun task => g (f task) := by
    refine SortedMap.ext_get? fun j => ?_
    simp only [SortedMap.get?_modify]
    split
    · simp [Function.comp_def]
    · rfl
  exact congrArg (fun tasks => { k with tasks := tasks }) htasks

theorem endSignalWait_quiet (k : GuestKernel) (tid : GuestTid) (signal : Nat) (returnsSignal : Bool) (h : scope.takes) :
    Quiet scope k (k.modifyTask tid (endSignalWait signal returnsSignal)) := by
  cases returnsSignal with
  | true => exact .task k tid fun _ => rfl
  | false =>
      have hslot : Quiet scope k (k.modifyTask tid fun task => { task with pendingSignalDelivery := some signal }) :=
        .single (.slot tid (some signal) h)
      have hregs := hslot.trans (Quiet.task _ tid (f := fun task =>
        { task with regs := task.regs.withSyscallReturn task.regs.rip (SyscallReturn.errno eintr).encode }) fun _ => rfl)
      rwa [modifyTask_modifyTask] at hregs

theorem wakeSignalWaiter_quiet (k : GuestKernel) (pid : GuestPid) (tid : GuestTid) (mask : SignalMask)
    (returnsSignal : Bool) (h : scope.takes) (hexits : ¬scope.exits) (hawake : k.Awake scope tid) :
    Quiet scope k (k.wakeSignalWaiter pid tid mask returnsSignal) := by
  have htake := takePendingSignalForTask_quiet k tid pid mask h
  unfold wakeSignalWaiter
  generalize k.takePendingSignalForTask tid pid mask = result at htake ⊢
  obtain ⟨_ | signal, k₁⟩ := result
  · exact htake
  · dsimp only at htake ⊢
    split
    · exact htake
    · have hended := htake.trans (endSignalWait_quiet k₁ tid signal returnsSignal h)
      exact hended.trans (.single (.wake tid (Quiet.awake hended hexits hawake)))

theorem signalWait_live {state : TaskState} {wait : SignalMask × Bool} (h : signalWait state = some wait) :
    state.isExited = false := by
  cases state <;> simp [signalWait, TaskState.isExited] at h ⊢

theorem mem_signalWaiters (hk : Named k) {pid : GuestPid} {tid : GuestTid} {mask : SignalMask} {returnsSignal : Bool} :
    (tid, mask, returnsSignal) ∈ k.signalWaiters pid ↔
      ∃ task, k.task tid = some task ∧ task.pid = pid ∧ signalWait task.state = some (mask, returnsSignal) := by
  simp only [signalWaiters, List.mem_filterMap, SortedMap.mem_values]
  constructor
  · rintro ⟨task, ⟨j, hj⟩, hwait⟩
    split at hwait
    · obtain ⟨⟨_, _⟩, hstate, heq⟩ := Option.map_eq_some_iff.mp hwait
      obtain ⟨rfl, rfl, rfl⟩ := by simpa using heq
      exact ⟨task, (hk j task hj).symm ▸ hj, ‹_›, hstate⟩
    · exact nomatch hwait
  · rintro ⟨task, htask, hpid, hwait⟩
    refine ⟨task, ⟨tid, htask⟩, ?_⟩
    rw [if_pos hpid, hwait, Option.map_some, hk tid task htask]

theorem wakeSignalWaiters_quiet (hk : Named k) (pid : GuestPid) (h : scope.takes) (hexits : ¬scope.exits) :
    Quiet scope k (k.wakeSignalWaiters pid) := by
  refine Quiet.foldl Prod.fst hexits (fun k waiter hawake => ?_) _ k fun waiter hmem => ?_
  · exact wakeSignalWaiter_quiet k pid waiter.1 waiter.2.1 waiter.2.2 h hexits hawake
  · obtain ⟨task, htask, -, hwait⟩ := (mem_signalWaiters hk).mp hmem
    exact awake_of_task htask ⟨signalWait_live hwait, fun _ => h⟩

/-! ### Queueing signals -/

theorem queueProcessSignal_quiet (hk : Named k) (pid : GuestPid) (signal : Nat) (hposts : scope.posts)
    (h : scope.takes) (hexits : ¬scope.exits) : Quiet scope k (k.queueProcessSignal pid signal) := by
  have hpost : Quiet scope k (k.modifyProcess pid fun process =>
      { process with pendingSignals := process.pendingSignals.insert signal }) := .single (.postProcess pid signal hposts)
  exact hpost.trans (wakeSignalWaiters_quiet (hpost.named hk) pid h hexits)

theorem queueTaskSignal_quiet (hk : Named k) (tid : GuestTid) (signal : Nat) (hposts : scope.posts)
    (h : scope.takes) (hexits : ¬scope.exits) : Quiet scope k (k.queueTaskSignal tid signal) := by
  unfold queueTaskSignal
  split
  · exact .refl
  · rename_i task _
    have hpost : Quiet scope k (k.modifyTask tid fun task =>
        { task with pendingSignals := task.pendingSignals.insert signal }) := .single (.postTask tid signal hposts)
    have hwoken := hpost.trans (wakeSignalWaiters_quiet (hpost.named hk) task.pid h hexits)
    dsimp only
    split
    · exact hwoken
    · exact hwoken.trans (endFutexWait_quiet _ tid eintr)

theorem killCurrent_quiet (hk : Named k) (pid : Int) (sig : Nat) (hposts : scope.posts) (h : scope.takes)
    (hexits : ¬scope.exits) : Quiet scope k (k.killCurrent pid sig).2 := by
  unfold killCurrent
  repeat' split
  all_goals first | exact .refl | exact queueProcessSignal_quiet hk _ sig hposts h hexits

theorem sendTaskSignal_quiet (hk : Named k) (tid : GuestTid) (sig : Nat) (hposts : scope.posts) (h : scope.takes)
    (hexits : ¬scope.exits) : Quiet scope k (k.sendTaskSignal tid sig).2 := by
  unfold sendTaskSignal
  repeat' split
  all_goals first | exact .refl | exact queueTaskSignal_quiet hk tid sig hposts h hexits

theorem tkillCurrent_quiet (hk : Named k) (tid : Int) (sig : Nat) (hposts : scope.posts) (h : scope.takes)
    (hexits : ¬scope.exits) : Quiet scope k (k.tkillCurrent tid sig).2 := by
  unfold tkillCurrent
  repeat' split
  all_goals first | exact .refl | exact sendTaskSignal_quiet hk _ sig hposts h hexits

theorem tgkillCurrent_quiet (hk : Named k) (tgid tid : Int) (sig : Nat) (hposts : scope.posts) (h : scope.takes)
    (hexits : ¬scope.exits) : Quiet scope k (k.tgkillCurrent tgid tid sig).2 := by
  unfold tgkillCurrent
  repeat' split
  all_goals first | exact .refl | exact sendTaskSignal_quiet hk _ sig hposts h hexits

theorem mem_vforkWaiters (hk : Named k) {parentPid childPid : GuestPid} {tid : GuestTid} :
    tid ∈ (k.tasks.values.filter (isVforkWaiterOf parentPid childPid)).map GuestTask.tid ↔
      ∃ task, k.task tid = some task ∧ task.pid = parentPid ∧ task.state = .waitingForVfork childPid := by
  simp only [List.mem_map, List.mem_filter, SortedMap.mem_values, isVforkWaiterOf, Bool.and_eq_true, decide_eq_true_eq]
  constructor
  · rintro ⟨task, ⟨⟨j, hj⟩, hpid, hstate⟩, rfl⟩
    exact ⟨task, hk j task hj ▸ hj, hpid, hstate⟩
  · rintro ⟨task, htask, hpid, hstate⟩
    exact ⟨task, ⟨⟨tid, htask⟩, hpid, hstate⟩, hk tid task htask⟩

theorem resumeVforkParent_quiet (hk : Named k) (childPid : GuestPid) (hexits : ¬scope.exits) :
    Quiet scope k (k.resumeVforkParent childPid) := by
  unfold resumeVforkParent
  split
  · exact .refl
  · refine Quiet.foldl id hexits (fun k tid hawake => .single (.wake tid hawake)) _ k fun tid hmem => ?_
    obtain ⟨task, htask, -, hstate⟩ := (mem_vforkWaiters hk).mp hmem
    exact awake_of_task htask (by rw [hstate]; exact ⟨rfl, nofun⟩)

theorem exitEach_quiet (tids : List GuestTid) (status : Int) (h : scope.exits) (k : GuestKernel) :
    Quiet scope k (tids.foldl (fun k tid => k.setTaskState tid (.exited status)) k) := by
  induction tids generalizing k with
  | nil => exact .refl
  | cons tid rest ih => exact (Relation.ReflTransGen.single (.exit tid status h)).trans (ih _)

theorem finishProcess_quiet (hk : Named k) (pid : GuestPid) (status : Int) :
    Quiet .signals (k.modifyProcess pid fun process => { process with exitState := .exited status })
      (k.finishProcess pid status) := by
  have hvfork : Quiet .signals _ _ := resumeVforkParent_quiet (k := k.modifyProcess pid fun process =>
    { process with exitState := .exited status }) hk pid id
  unfold finishProcess
  dsimp only
  split
  · exact hvfork.trans (queueProcessSignal_quiet (hvfork.named hk) _ linuxSigchld trivial trivial id)
  · exact hvfork

/-! ### Dispositions, masks and waits for signals -/

theorem rtSigactionCurrentWithAction_quiet (k : GuestKernel) (tid : GuestTid) (sig sigsetsize : Nat)
    (action : Option GuestSignalAction) :
    Quiet scope k (k.rtSigactionCurrentWithAction tid sig sigsetsize action).2 := by
  unfold rtSigactionCurrentWithAction
  repeat' split
  all_goals first | exact .refl | exact .process k _ fun _ => rfl

theorem sanitized_sanitizeSignalMask (mask : SignalMask) : Sanitized (sanitizeSignalMask mask) := by
  rw [Sanitized, sanitizeSignalMask, BitVec.and_assoc, BitVec.and_comm (~~~unblockableSignalMask)]
  simp

/-- Every way of changing a mask keeps `SIGKILL` and `SIGSTOP` out of it. -/
theorem sanitized_of_applyTaskSignalMask {current mask result : SignalMask} {how : Nat} (h : Sanitized current)
    (happly : applyTaskSignalMask current how mask = .ok result) : Sanitized result := by
  unfold applyTaskSignalMask at happly
  dsimp only at happly
  split at happly
  · exact Except.ok.inj happly ▸ sanitized_sanitizeSignalMask _
  · split at happly
    · rw [← Except.ok.inj happly, Sanitized, BitVec.and_assoc, BitVec.and_comm (~~~_), ← BitVec.and_assoc,
        show current &&& unblockableSignalMask = 0#64 from h, BitVec.zero_and]
      rfl
    · split at happly
      · exact Except.ok.inj happly ▸ sanitized_sanitizeSignalMask _
      · exact nomatch happly

theorem rtSigprocmaskCurrentMask_quiet (k : GuestKernel) (tid : GuestTid) (how : Nat) (mask : Option SignalMask)
    (sigsetsize : Nat) : Quiet scope k (k.rtSigprocmaskCurrentMask tid how mask sigsetsize).2 := by
  unfold rtSigprocmaskCurrentMask
  split
  · exact .refl
  · rename_i task htask
    split
    · exact .refl
    · split
      · exact .refl
      · split
        · exact .refl
        · split
          · exact .refl
          · rename_i happly
            refine .single (.mask tid _ fun t ht hsanitized => ?_)
            obtain rfl : task = t := Option.some.inj (htask.symm.trans ht)
            exact sanitized_of_applyTaskSignalMask hsanitized happly

theorem setTaskSignalMask_quiet (k : GuestKernel) (tid : GuestTid) (mask : SignalMask) :
    Quiet scope k (k.setTaskSignalMask tid mask).2 := by
  unfold setTaskSignalMask
  split
  · exact .refl
  · exact .single (.mask tid _ fun _ _ _ => sanitized_sanitizeSignalMask mask)

theorem parks_of_none {tid : GuestTid} {task : GuestTask} {mask : SignalMask} (htask : k.task tid = some task)
    (hnone : (k.takePendingSignalForTask tid task.pid mask).1 = none) {f : GuestTask → GuestTask} (hf : KeepsTask f)
    {state : TaskState} {returnsSignal : Bool} (hwait : signalWait state = some (mask, returnsSignal)) :
    (k.modifyTask tid f).Parks tid state where
  live := signalWait_live hwait
  child := fun args h => by simp [h, signalWait] at hwait
  signal := fun m r hm t ht => by
    rw [hwait] at hm
    obtain ⟨rfl, rfl⟩ := Prod.mk.inj (Option.some.inj hm)
    rw [task_modifyTask, if_pos rfl, htask, Option.map_some, Option.some.injEq] at ht
    obtain ⟨-, hpid, -, -, hpending, -⟩ := hf.kept task
    rw [← ht, hpid]
    unfold takePendingSignalForTask at hnone ⊢
    rw [htask] at hnone
    rw [task_modifyTask, if_pos rfl, htask]
    simp only [Option.map_some, Option.bind_some, hpending, process_modifyTask] at hnone ⊢
    split at hnone
    · exact nomatch hnone
    · split at hnone
      · exact nomatch hnone
      · rfl

theorem parkSignalWait_quiet {tid : GuestTid} {task : GuestTask} (htask : k.task tid = some task)
    {mask : SignalMask} {state : TaskState} {returnsSignal : Bool}
    (hwait : signalWait state = some (mask, returnsSignal))
    (hnone : (k.takePendingSignalForTask tid task.pid mask).1 = none) (h : scope.parks tid) (htakes : scope.takes) :
    Quiet scope k (k.parkSignalWait tid state) :=
  (Quiet.task k tid fun _ => by rfl).trans (.single (.park tid state h (parks_of_none htask hnone (fun _ => rfl) hwait)
    (fun hfutex => absurd hwait (by cases state <;> simp_all [signalWait, TaskState.isWaitingForFutex])) fun _ => htakes))

theorem rtSigtimedwaitCurrent_quiet (k : GuestKernel) (tid : GuestTid) (mask : SignalMask) (sigsetsize : Nat)
    (waitIndefinitely : Bool) (hparks : scope.parks tid) (h : scope.takes) :
    Quiet scope k (k.rtSigtimedwaitCurrent tid mask sigsetsize waitIndefinitely).2 := by
  unfold rtSigtimedwaitCurrent
  split
  · exact .refl
  · split
    · exact .refl
    · rename_i task htask
      have htake := takePendingSignalForTask_quiet k tid task.pid mask h
      rcases takePendingSignalForTask_cases k tid task.pid mask with
        ⟨_, signal, -, -, heq⟩ | ⟨_, signal, -, -, -, heq⟩ | ⟨-, -, heq⟩
      · rw [heq] at htake ⊢
        exact htake
      · rw [heq] at htake ⊢
        exact htake
      · rw [heq]
        dsimp only
        split
        · exact parkSignalWait_quiet htask rfl (by rw [heq]) hparks h
        · exact .refl

theorem rtSigsuspendCurrent_quiet (k : GuestKernel) (tid : GuestTid) (mask : SignalMask) (sigsetsize : Nat)
    (hparks : scope.parks tid) (h : scope.takes) :
    Quiet scope k (k.rtSigsuspendCurrent tid mask sigsetsize).2 := by
  unfold rtSigsuspendCurrent
  split
  · exact .refl
  · split
    · exact .refl
    · rename_i task htask
      have htake := takePendingSignalForTask_quiet k tid task.pid mask h
      rcases takePendingSignalForTask_cases k tid task.pid mask with
        ⟨_, signal, -, -, heq⟩ | ⟨_, signal, -, -, -, heq⟩ | ⟨-, -, heq⟩
      · rw [heq] at htake ⊢
        exact htake.trans (.single (.slot tid (some signal) h))
      · rw [heq] at htake ⊢
        exact htake.trans (.single (.slot tid (some signal) h))
      · rw [heq]
        exact parkSignalWait_quiet htask rfl (by rw [heq]) hparks h

/-! ### Registrations and groups -/

theorem setTidAddressCurrent_quiet (k : GuestKernel) (tid : GuestTid) (tidptr : GuestAddress) :
    Quiet scope k (k.setTidAddressCurrent tid tidptr).2 := by
  unfold setTidAddressCurrent
  split
  · exact .refl
  · exact .task k tid fun _ => rfl

theorem setRobustListCurrent_quiet (k : GuestKernel) (tid : GuestTid) (head : GuestAddress) (len : Nat) :
    Quiet scope k (k.setRobustListCurrent tid head len).2 := by
  unfold setRobustListCurrent
  repeat' split
  all_goals first | exact .refl | exact .task k tid fun _ => rfl

theorem setpgidCurrent_quiet (k : GuestKernel) (currentPid : GuestPid) (rawPid rawPgid : Nat) :
    Quiet scope k (k.setpgidCurrent currentPid rawPid rawPgid).2 := by
  unfold setpgidCurrent
  repeat' split
  all_goals first | exact .refl | exact .process k _ fun _ => rfl

theorem setsidCurrent_quiet (k : GuestKernel) (currentPid : GuestPid) :
    Quiet scope k (k.setsidCurrent currentPid).2 := by
  unfold setsidCurrent
  split
  · exact .refl
  · exact .process k currentPid fun _ => rfl

theorem archPrctl_quiet (k : GuestKernel) (tid : GuestTid) (code : Nat) (address : GuestAddress) :
    Quiet scope k (k.archPrctl tid code address).2 := by
  unfold archPrctl
  repeat' split
  all_goals first | exact .refl | exact .task k tid fun _ => rfl

end GuestKernel

/-! ### The entries -/

/-- The entries that are sequences of quiet edits. -/
def KernelOp.isQuiet : KernelOp → Bool
  | .wait4Child _ _ | .wait4Current _ _ _ | .resumeWaitingTasks | .exitTask _ _ | .exitGroup _ _ | .forkChild _
  | .forkLike _ _ _ | .clone _ _ _ | .cloneWithChildRegs _ _ _ | .execTask _ _ => false
  | _ => true

def KernelOp.isWait : KernelOp → Bool
  | .wait4Child _ _ | .wait4Current _ _ _ | .resumeWaitingTasks => true
  | _ => false

/-- The task an entry may park or, for `execTask`, give a new image. -/
def KernelOp.actor : KernelOp → Option GuestTid
  | .wait4Current tid _ _ | .blockTaskForFd tid _ _ | .blockTaskForFutex tid _ | .blockTaskForSleep tid
  | .rtSigtimedwait tid _ _ _ | .rtSigsuspend tid _ _ | .forkLike tid _ _ | .clone tid _ _
  | .cloneWithChildRegs tid _ _ | .execTask tid _ => some tid
  | _ => none

/-- The entry makes signals pending. -/
def KernelOp.posts : KernelOp → Bool
  | .kill _ _ | .tkill _ _ | .tgkill _ _ _ | .exitTask _ _ | .exitGroup _ _ => true
  | _ => false

def KernelOp.takes : KernelOp → Bool
  | .takePendingSignalForReturnToUser _ | .rtSigtimedwait _ _ _ _ | .rtSigsuspend _ _ _ | .wakeSignalWaiters _ => true
  | op => op.posts

/-- The entry ends tasks. -/
def KernelOp.exits : KernelOp → Bool
  | .exitTask _ _ | .exitGroup _ _ => true
  | _ => false

def KernelOp.queues : KernelOp → Bool
  | .blockTaskForFutex _ _ | .requeueFutexWaiters _ _ _ _ => true
  | _ => false

/-- The entry makes tasks. -/
def KernelOp.births : KernelOp → Bool
  | .forkChild _ | .forkLike _ _ _ | .clone _ _ _ | .cloneWithChildRegs _ _ _ => true
  | _ => false

def KernelOp.scope (op : KernelOp) : GuestKernel.Scope where
  parks tid := op.actor = some tid
  takes := op.takes = true
  posts := op.posts = true
  exits := op.exits = true
  reaps := op.isWait = true
  queues := op.queues = true
  births := op.births = true

namespace GuestKernel

variable {k : GuestKernel} {load : GuestProgram → Except TaskError GuestImageState}

theorem quiet_of_isQuiet (hk : Named k) {op : KernelOp} (h : op.isQuiet = true) :
    Quiet op.scope k (op.run load k).2 := by
  cases op with
  | setRegs tid regs => exact .task k tid fun _ => rfl
  | takeRobustList tid => exact .task k tid fun _ => rfl
  | takeClearChildTid tid => exact .task k tid fun _ => rfl
  | filesMut pid files => exact .process k pid fun _ => rfl
  | blockTaskForFd tid fd write => exact blockTask_quiet k tid rfl (parks_of_plain rfl rfl rfl) nofun nofun
  | resumeFdWaiters ready => exact resumeFdEach_quiet ready _ k
  | blockTaskForFutex tid key => exact blockTask_quiet k tid rfl (parks_of_plain rfl rfl rfl) (fun _ => rfl) nofun
  | wakeFutexWaiters key limit => exact wakeFutexWaiters_quiet k key limit
  | requeueFutexWaiters source target wakeLimit requeueLimit =>
      exact requeueFutexWaiters_quiet k source target wakeLimit requeueLimit rfl
  | timeoutFutexWaiter tid => exact endFutexWait_quiet k tid etimedout
  | blockTaskForSleep tid => exact blockTask_quiet k tid rfl (parks_of_plain rfl rfl rfl) nofun nofun
  | resumeSleepWaiter tid => exact resumeSleepWaiter_quiet k tid
  | rtSigaction tid sig sigsetsize action => exact rtSigactionCurrentWithAction_quiet k tid sig sigsetsize action
  | rtSigprocmask tid how mask sigsetsize => exact rtSigprocmaskCurrentMask_quiet k tid how mask sigsetsize
  | takePendingSignalForReturnToUser tid => exact takePendingSignalForReturnToUser_quiet k tid rfl
  | setTaskSignalMask tid mask => exact setTaskSignalMask_quiet k tid mask
  | rtSigtimedwait tid mask sigsetsize waitIndefinitely =>
      exact rtSigtimedwaitCurrent_quiet k tid mask sigsetsize waitIndefinitely rfl rfl
  | rtSigsuspend tid mask sigsetsize => exact rtSigsuspendCurrent_quiet k tid mask sigsetsize rfl rfl
  | wakeSignalWaiters pid => exact wakeSignalWaiters_quiet hk pid rfl Bool.false_ne_true
  | kill pid sig => exact killCurrent_quiet hk pid sig rfl rfl Bool.false_ne_true
  | tkill tid sig => exact tkillCurrent_quiet hk tid sig rfl rfl Bool.false_ne_true
  | tgkill tgid tid sig => exact tgkillCurrent_quiet hk tgid tid sig rfl rfl Bool.false_ne_true
  | setTidAddress tid tidptr => exact setTidAddressCurrent_quiet k tid tidptr
  | setRobustList tid head len => exact setRobustListCurrent_quiet k tid head len
  | setpgid currentPid rawPid rawPgid => exact setpgidCurrent_quiet k currentPid rawPid rawPgid
  | setsid currentPid => exact setsidCurrent_quiet k currentPid
  | archPrctl tid code address => exact archPrctl_quiet k tid code address
  | _ => exact absurd h Bool.false_ne_true

end GuestKernel

end Mcr.Task
