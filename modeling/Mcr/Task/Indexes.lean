import Mcr.Task.Quiet

/-!
# The scheduler's indexes are exact

`IndexesOf` reads the four indexes against a task table that may be ahead of or behind the kernel's own, so that
a change of state is a removal from the table followed by an insertion. With it, every task is known by its own
identity and belongs to a process of the table, and the identities still to be given out are unused.
-/

namespace Mcr.Task

namespace GuestKernel

variable {k k' : GuestKernel} {tid : GuestTid} {task : GuestTask} {tasks : SortedMap GuestTid GuestTask}

/-! ### Membership after an index changes -/

theorem mem_runnableTids_index {k : GuestKernel} {tid j : GuestTid} {state : TaskState} :
    j ∈ (k.indexTaskState tid state).runnableTids ↔ (j = tid ∧ state = .runnable) ∨ j ∈ k.runnableTids := by
  cases state <;> simp [indexTaskState]

theorem mem_childWaitTids_index {k : GuestKernel} {tid j : GuestTid} {state : TaskState} :
    j ∈ (k.indexTaskState tid state).childWaitTids ↔
      (j = tid ∧ state.isWaitingForChild = true) ∨ j ∈ k.childWaitTids := by
  cases state <;> simp [indexTaskState, TaskState.isWaitingForChild]

theorem mem_fdWaitTids_index {k : GuestKernel} {tid j : GuestTid} {state : TaskState} :
    j ∈ (k.indexTaskState tid state).fdWaitTids ↔
      (j = tid ∧ state.isWaitingForFd = true) ∨ j ∈ k.fdWaitTids := by
  cases state <;> simp [indexTaskState, TaskState.isWaitingForFd]

theorem mem_futexQueue_index {k : GuestKernel} {tid j : GuestTid} {state : TaskState} {key : FutexWaitKey} :
    j ∈ (k.indexTaskState tid state).futexQueue key ↔
      (j = tid ∧ state = .waitingForFutex key) ∨ j ∈ k.futexQueue key := by
  cases state with
  | waitingForFutex queued =>
      simp only [indexTaskState, futexQueue, SortedMap.get?_insert, TaskState.waitingForFutex.injEq]
      by_cases hkey : key = queued
      · subst hkey
        simp
      · simp [hkey, Ne.symm hkey]
  | _ => simp [indexTaskState, futexQueue]

theorem queueNonempty_index (h : ∀ key waiters, k.futexWaitTids.get? key = some waiters → ∃ j, j ∈ waiters)
    (tid : GuestTid) (state : TaskState) (key : FutexWaitKey) (waiters : SortedSet GuestTid)
    (hget : (k.indexTaskState tid state).futexWaitTids.get? key = some waiters) : ∃ j, j ∈ waiters := by
  cases state with
  | waitingForFutex queued =>
      simp only [indexTaskState, SortedMap.get?_insert] at hget
      by_cases hkey : key = queued
      · rw [if_pos hkey, Option.some.injEq] at hget
        exact ⟨tid, hget ▸ SortedSet.mem_insert.mpr (Or.inl rfl)⟩
      · rw [if_neg hkey] at hget
        exact h key waiters hget
  | _ => exact h key waiters hget

theorem mem_runnableTids_unindex {k : GuestKernel} {tid j : GuestTid} {state : TaskState} :
    j ∈ (k.unindexTaskState tid state).runnableTids ↔ ¬(j = tid ∧ state = .runnable) ∧ j ∈ k.runnableTids := by
  cases state with
  | waitingForFutex queued =>
      simp only [unindexTaskState]
      split
      · split <;> simp
      · simp
  | _ => simp [unindexTaskState]

theorem mem_childWaitTids_unindex {k : GuestKernel} {tid j : GuestTid} {state : TaskState} :
    j ∈ (k.unindexTaskState tid state).childWaitTids ↔
      ¬(j = tid ∧ state.isWaitingForChild = true) ∧ j ∈ k.childWaitTids := by
  cases state with
  | waitingForFutex queued =>
      simp only [unindexTaskState, TaskState.isWaitingForChild]
      split
      · split <;> simp
      · simp
  | _ => simp [unindexTaskState, TaskState.isWaitingForChild]

theorem mem_fdWaitTids_unindex {k : GuestKernel} {tid j : GuestTid} {state : TaskState} :
    j ∈ (k.unindexTaskState tid state).fdWaitTids ↔
      ¬(j = tid ∧ state.isWaitingForFd = true) ∧ j ∈ k.fdWaitTids := by
  cases state with
  | waitingForFutex queued =>
      simp only [unindexTaskState, TaskState.isWaitingForFd]
      split
      · split <;> simp
      · simp
  | _ => simp [unindexTaskState, TaskState.isWaitingForFd]

theorem mem_futexQueue_unindex {k : GuestKernel} {tid j : GuestTid} {state : TaskState} {key : FutexWaitKey} :
    j ∈ (k.unindexTaskState tid state).futexQueue key ↔
      ¬(j = tid ∧ state = .waitingForFutex key) ∧ j ∈ k.futexQueue key := by
  cases state with
  | waitingForFutex queued =>
      simp only [unindexTaskState, TaskState.waitingForFutex.injEq]
      cases hget : k.futexWaitTids.get? queued with
      | none =>
          by_cases hkey : key = queued
          · subst hkey
            simp [futexQueue, hget]
          · simp [Ne.symm hkey]
      | some waiters =>
          by_cases hkey : key = queued
          · subst hkey
            by_cases hempty : (waiters.erase tid).isEmpty = true
            · have hnone := SortedSet.isEmpty_iff.mp hempty j
              simp only [SortedSet.mem_erase, not_and] at hnone
              simp only [hempty, if_true, futexQueue, SortedMap.get?_erase, hget, Option.getD_none,
                SortedSet.not_mem_empty, Option.getD_some, and_true, false_iff, not_and]
              exact hnone
            · simp [hempty, futexQueue, hget]
          · by_cases hempty : (waiters.erase tid).isEmpty = true <;> simp [hempty, futexQueue, hkey, Ne.symm hkey]
  | _ => simp [unindexTaskState, futexQueue]

theorem queueNonempty_unindex (h : ∀ key waiters, k.futexWaitTids.get? key = some waiters → ∃ j, j ∈ waiters)
    (tid : GuestTid) (state : TaskState) (key : FutexWaitKey) (waiters : SortedSet GuestTid)
    (hget : (k.unindexTaskState tid state).futexWaitTids.get? key = some waiters) : ∃ j, j ∈ waiters := by
  cases state with
  | waitingForFutex queued =>
      simp only [unindexTaskState] at hget
      split at hget
      · split at hget
        · rw [SortedMap.get?_erase] at hget
          split at hget
          · cases hget
          · exact h key waiters hget
        · rename_i hempty
          rw [SortedMap.get?_insert] at hget
          split at hget
          · rw [Option.some.injEq] at hget
            rw [SortedSet.isEmpty_iff, hget] at hempty
            simpa using hempty
          · exact h key waiters hget
      · exact h key waiters hget
  | _ => exact h key waiters hget

/-! ### Indexes of a task table -/

/-- The indexes of the kernel are the ones a scan of the table makes. -/
structure IndexesOf (k : GuestKernel) (tasks : SortedMap GuestTid GuestTask) : Prop where
  runnable : ∀ j, j ∈ k.runnableTids ↔ ∃ task, tasks.get? j = some task ∧ task.state = .runnable
  childWait : ∀ j, j ∈ k.childWaitTids ↔
    ∃ task, tasks.get? j = some task ∧ task.state.isWaitingForChild = true
  fdWait : ∀ j, j ∈ k.fdWaitTids ↔ ∃ task, tasks.get? j = some task ∧ task.state.isWaitingForFd = true
  futexWait : ∀ key j, j ∈ k.futexQueue key ↔
    ∃ task, tasks.get? j = some task ∧ task.state = .waitingForFutex key
  queueNonempty : ∀ key waiters, k.futexWaitTids.get? key = some waiters → ∃ j, j ∈ waiters

theorem exists_insert_iff {P : TaskState → Prop} (hfresh : tasks.get? tid = none) (task : GuestTask) (j : GuestTid) :
    (∃ t, (tasks.insert tid task).get? j = some t ∧ P t.state) ↔
      (j = tid ∧ P task.state) ∨ ∃ t, tasks.get? j = some t ∧ P t.state := by
  rw [SortedMap.get?_insert]
  by_cases hj : j = tid
  · subst hj
    simp [hfresh]
  · simp [hj]

/-- A removed entry leaves the indexes its state put it in, and no other entry does. -/
theorem exists_erase_iff {P : TaskState → Prop} (hget : tasks.get? tid = some task) (j : GuestTid) :
    (∃ t, (tasks.erase tid).get? j = some t ∧ P t.state) ↔
      ¬(j = tid ∧ P task.state) ∧ ∃ t, tasks.get? j = some t ∧ P t.state := by
  rw [SortedMap.get?_erase]
  by_cases hj : j = tid
  · subst hj
    simp [hget]
  · simp [hj]

namespace IndexesOf

theorem insert (h : IndexesOf k tasks) (hfresh : tasks.get? tid = none) (task : GuestTask) :
    IndexesOf (k.indexTaskState tid task.state) (tasks.insert tid task) where
  runnable j := by
    rw [mem_runnableTids_index, h.runnable, exists_insert_iff (P := fun s => s = .runnable) hfresh]
  childWait j := by
    rw [mem_childWaitTids_index, h.childWait, exists_insert_iff (P := fun s => s.isWaitingForChild = true) hfresh]
  fdWait j := by
    rw [mem_fdWaitTids_index, h.fdWait, exists_insert_iff (P := fun s => s.isWaitingForFd = true) hfresh]
  futexWait key j := by
    rw [mem_futexQueue_index, h.futexWait, exists_insert_iff (P := fun s => s = .waitingForFutex key) hfresh]
  queueNonempty := queueNonempty_index h.queueNonempty tid task.state

theorem erase (h : IndexesOf k tasks) (hget : tasks.get? tid = some task) :
    IndexesOf (k.unindexTaskState tid task.state) (tasks.erase tid) where
  runnable j := by
    rw [mem_runnableTids_unindex, h.runnable, exists_erase_iff (P := fun s => s = .runnable) hget]
  childWait j := by
    rw [mem_childWaitTids_unindex, h.childWait, exists_erase_iff (P := fun s => s.isWaitingForChild = true) hget]
  fdWait j := by
    rw [mem_fdWaitTids_unindex, h.fdWait, exists_erase_iff (P := fun s => s.isWaitingForFd = true) hget]
  futexWait key j := by
    rw [mem_futexQueue_unindex, h.futexWait, exists_erase_iff (P := fun s => s = .waitingForFutex key) hget]
  queueNonempty := queueNonempty_unindex h.queueNonempty tid task.state

theorem transfer (h : IndexesOf k tasks) (hsame : k'.runnableTids = k.runnableTids ∧
    k'.childWaitTids = k.childWaitTids ∧ k'.fdWaitTids = k.fdWaitTids ∧ k'.futexWaitTids = k.futexWaitTids) :
    IndexesOf k' tasks where
  runnable j := hsame.1 ▸ h.runnable j
  childWait j := hsame.2.1 ▸ h.childWait j
  fdWait j := hsame.2.2.1 ▸ h.fdWait j
  futexWait key j := by
    unfold futexQueue
    rw [hsame.2.2.2]
    exact h.futexWait key j
  queueNonempty := hsame.2.2.2 ▸ h.queueNonempty

theorem modify (h : IndexesOf k tasks) (tid : GuestTid) {f : GuestTask → GuestTask}
    (hf : ∀ task, (f task).state = task.state) : IndexesOf k (tasks.modify tid f) := by
  have hscan : ∀ (P : TaskState → Prop) j, (∃ t, (tasks.modify tid f).get? j = some t ∧ P t.state) ↔
      ∃ t, tasks.get? j = some t ∧ P t.state := by
    intro P j
    rw [SortedMap.get?_modify]
    by_cases hj : j = tid
    · subst hj
      cases tasks.get? j <;> simp [hf]
    · simp [hj]
  exact
    { runnable := fun j => (h.runnable j).trans (hscan (fun s => s = .runnable) j).symm
      childWait := fun j => (h.childWait j).trans (hscan (fun s => s.isWaitingForChild = true) j).symm
      fdWait := fun j => (h.fdWait j).trans (hscan (fun s => s.isWaitingForFd = true) j).symm
      futexWait := fun key j => (h.futexWait key j).trans (hscan (fun s => s = .waitingForFutex key) j).symm
      queueNonempty := h.queueNonempty }

end IndexesOf

/-! ### Consistent kernels -/

/-- No process is its own child. -/
def Irreflexive (k : GuestKernel) : Prop := ∀ pid process, k.process pid = some process → pid ∉ process.children

/-- The invariant of every kernel that calls reach. -/
structure Consistent (k : GuestKernel) : Prop where
  indexes : IndexesOf k k.tasks
  named : Named k
  owned : ∀ {tid task}, k.task tid = some task → ∃ process, k.process task.pid = some process
  tidBound : ∀ {tid task}, k.task tid = some task → tid < k.nextTid
  processNamed : ∀ {pid process}, k.process pid = some process → process.pid = pid
  pidBound : ∀ {pid process}, k.process pid = some process → pid < k.nextPid
  irreflexive : Irreflexive k

theorem indexTaskState_withTasks (k : GuestKernel) (tid : GuestTid) (state : TaskState)
    (tasks : SortedMap GuestTid GuestTask) :
    { k with tasks := tasks }.indexTaskState tid state = { k.indexTaskState tid state with tasks := tasks } := by
  cases state <;> rfl

theorem unindexTaskState_withTasks (k : GuestKernel) (tid : GuestTid) (state : TaskState)
    (tasks : SortedMap GuestTid GuestTask) :
    { k with tasks := tasks }.unindexTaskState tid state = { k.unindexTaskState tid state with tasks := tasks } := by
  cases state <;> simp only [unindexTaskState]
  split
  · split <;> rfl
  · rfl

theorem indexTaskState_withNextTid (k : GuestKernel) (tid : GuestTid) (state : TaskState) (next : GuestTid) :
    { k with nextTid := next }.indexTaskState tid state = { k.indexTaskState tid state with nextTid := next } := by
  cases state <;> rfl

theorem indexesOf_setTaskState (h : IndexesOf k k.tasks) (tid : GuestTid) (state : TaskState) :
    IndexesOf (k.setTaskState tid state) (k.setTaskState tid state).tasks := by
  unfold setTaskState
  cases hget : k.task tid with
  | none => exact h
  | some task =>
      by_cases hstate : task.state = state
      · simpa [hstate] using h
      · have hmoved := (h.erase hget).insert (show (k.tasks.erase tid).get? tid = none by simp) { task with state := state }
        have htasks : (k.tasks.erase tid).insert tid { task with state := state } =
            k.tasks.modify tid fun task => { task with state := state } := by
          refine SortedMap.ext_get? fun j => ?_
          rw [SortedMap.get?_insert, SortedMap.get?_erase, SortedMap.get?_modify, show k.tasks.get? tid = some task from hget]
          by_cases hj : j = tid <;> simp [hj]
        rw [htasks] at hmoved
        have hkernel : k.setTaskState tid state =
            { (k.unindexTaskState tid task.state).indexTaskState tid state with
              tasks := k.tasks.modify tid fun task => { task with state := state } } := by
          rw [← indexTaskState_withTasks, setTaskState, hget]
          simp [hstate, modifyTask]
        rw [setTaskState, hget] at hkernel
        dsimp only at hkernel ⊢
        rw [hkernel]
        exact hmoved.transfer ⟨rfl, rfl, rfl, rfl⟩

namespace Consistent

/-- A kernel whose tasks are some of the old ones, up to everything but identity and process. -/
theorem of_tasks (h : Consistent k) (hindexes : IndexesOf k' k'.tasks)
    (htasks : ∀ {j t}, k'.task j = some t → ∃ t₀, k.task j = some t₀ ∧ t.tid = t₀.tid ∧ t.pid = t₀.pid)
    (hprocess : ∀ pid, k'.process pid = k.process pid) (hnext : k'.nextPid = k.nextPid ∧ k'.nextTid = k.nextTid) :
    Consistent k' where
  indexes := hindexes
  named _ _ ht := by
    obtain ⟨t₀, ht₀, htid, -⟩ := htasks ht
    exact htid.trans (h.named _ _ ht₀)
  owned ht := by
    obtain ⟨t₀, ht₀, -, hpid⟩ := htasks ht
    rw [hpid, hprocess]
    exact h.owned ht₀
  tidBound ht := by
    obtain ⟨t₀, ht₀, -⟩ := htasks ht
    exact hnext.2 ▸ h.tidBound ht₀
  processNamed hprocess' := h.processNamed (hprocess _ ▸ hprocess')
  pidBound hprocess' := hnext.1 ▸ h.pidBound (hprocess _ ▸ hprocess')
  irreflexive pid process hprocess' := h.irreflexive pid process (hprocess pid ▸ hprocess')

theorem modifyTask (h : Consistent k) (tid : GuestTid) {f : GuestTask → GuestTask}
    (hf : ∀ task, (f task).tid = task.tid ∧ (f task).pid = task.pid ∧ (f task).state = task.state) :
    Consistent (k.modifyTask tid f) := by
  refine h.of_tasks ((h.indexes.modify tid fun task => (hf task).2.2).transfer ⟨rfl, rfl, rfl, rfl⟩)
    (fun {j t} ht => ?_) (fun _ => rfl) ⟨rfl, rfl⟩
  rw [task_modifyTask] at ht
  by_cases hj : j = tid
  · rw [if_pos hj, Option.map_eq_some_iff] at ht
    obtain ⟨t₀, ht₀, rfl⟩ := ht
    exact ⟨t₀, hj ▸ ht₀, (hf t₀).1, (hf t₀).2.1⟩
  · rw [if_neg hj] at ht
    exact ⟨t, ht, rfl, rfl⟩

theorem setTaskState (h : Consistent k) (tid : GuestTid) (state : TaskState) :
    Consistent (k.setTaskState tid state) := by
  refine h.of_tasks (indexesOf_setTaskState h.indexes tid state) (fun {j t} ht => ?_)
    (process_setTaskState k tid state) (next_setTaskState k tid state)
  rw [task_setTaskState] at ht
  by_cases hj : j = tid
  · rw [if_pos hj, Option.map_eq_some_iff] at ht
    obtain ⟨t₀, ht₀, rfl⟩ := ht
    exact ⟨t₀, hj ▸ ht₀, rfl, rfl⟩
  · rw [if_neg hj] at ht
    exact ⟨t, ht, rfl, rfl⟩

theorem modifyProcess (h : Consistent k) (pid : GuestPid) {f : GuestProcess → GuestProcess}
    (hf : ∀ process, (f process).pid = process.pid)
    (hchildren : ∀ process, pid ∉ process.children → pid ∉ (f process).children) :
    Consistent (k.modifyProcess pid f) := by
  have hold : ∀ {j process}, (k.modifyProcess pid f).process j = some process →
      ∃ p₀, k.process j = some p₀ ∧ process.pid = p₀.pid ∧ (j ∉ p₀.children → j ∉ process.children) := by
    intro j process hprocess
    rw [process_modifyProcess] at hprocess
    by_cases hj : j = pid
    · rw [if_pos hj, Option.map_eq_some_iff] at hprocess
      obtain ⟨p₀, hp₀, rfl⟩ := hprocess
      exact ⟨p₀, hj ▸ hp₀, hf p₀, hj ▸ hchildren p₀⟩
    · rw [if_neg hj] at hprocess
      exact ⟨process, hprocess, rfl, id⟩
  refine ⟨h.indexes.transfer ⟨rfl, rfl, rfl, rfl⟩, h.named, fun {tid task} htask => ?_, h.tidBound,
    fun hprocess => ?_, fun hprocess => ?_,
    fun j process hprocess => ?_⟩
  · obtain ⟨process, hprocess⟩ := h.owned htask
    rw [process_modifyProcess]
    by_cases hpid : task.pid = pid
    · exact ⟨f process, by rw [if_pos hpid, ← hpid, hprocess, Option.map_some]⟩
    · exact ⟨process, by rw [if_neg hpid, hprocess]⟩
  · obtain ⟨p₀, hp₀, hpid, -⟩ := hold hprocess
    exact hpid.trans (h.processNamed hp₀)
  · obtain ⟨p₀, hp₀, -⟩ := hold hprocess
    exact h.pidBound hp₀
  · obtain ⟨p₀, hp₀, -, hchild⟩ := hold hprocess
    exact hchild (h.irreflexive j p₀ hp₀)

theorem quiet {scope : Scope} (hquiet : Quiet scope k k') (h : Consistent k) : Consistent k' := by
  refine Quiet.preserves (fun hedit hk => ?_) hquiet h
  rcases hedit.cases with ⟨tid, f, rfl, hf⟩ | ⟨pid, f, rfl, hf⟩ | ⟨tid, state, rfl⟩
  · exact hk.modifyTask tid hf
  · exact hk.modifyProcess pid (fun process => (hf process).1) fun process => (hf process).2.2.1 ▸ id
  · exact hk.setTaskState tid state

theorem removeTask (h : Consistent k) (tid : GuestTid) : Consistent (k.removeTask tid) := by
  have hindexes : IndexesOf (k.removeTask tid) (k.removeTask tid).tasks := by
    unfold GuestKernel.removeTask
    cases hget : k.task tid with
    | none => exact h.indexes
    | some task =>
        have herased := h.indexes.erase hget
        dsimp only
        rw [h.named _ _ hget, unindexTaskState_withTasks]
        exact herased.transfer ⟨rfl, rfl, rfl, rfl⟩
  refine h.of_tasks hindexes (fun {j t} ht => ?_) (process_removeTask k tid) (next_removeTask k tid)
  rw [task_removeTask] at ht
  split at ht
  · exact nomatch ht
  · exact ⟨t, ht, rfl, rfl⟩

theorem insertTask (h : Consistent k) (task : GuestTask) (htid : task.tid = k.nextTid)
    (howned : ∃ process, k.process task.pid = some process) :
    Consistent ({ k with nextTid := k.nextTid + 1 }.insertTask task) := by
  have hfresh : k.tasks.get? task.tid = none := by
    cases hget : k.tasks.get? task.tid with
    | none => rfl
    | some t => exact absurd (h.tidBound hget) (htid ▸ lt_irrefl _)
  have hinserted := h.indexes.insert hfresh task
  have hlook : ∀ {j t}, ({ k with nextTid := k.nextTid + 1 }.insertTask task).task j = some t →
      (j = task.tid ∧ t = task) ∨ k.task j = some t := by
    intro j t ht
    rw [task_insertTask] at ht
    split at ht
    · exact Or.inl ⟨‹_›, (Option.some.inj ht).symm⟩
    · exact Or.inr ht
  refine ⟨?_, fun _ _ ht => ?_, fun ht => ?_, fun ht => ?_, fun hp => ?_, fun hp => ?_, fun pid p hp => ?_⟩
  · rw [GuestKernel.insertTask, indexTaskState_withNextTid]
    exact hinserted.transfer ⟨rfl, rfl, rfl, rfl⟩
  · rcases hlook ht with ⟨rfl, rfl⟩ | ht
    · rfl
    · exact h.named _ _ ht
  · rw [process_insertTask]
    rcases hlook ht with ⟨-, rfl⟩ | ht
    · exact howned
    · exact h.owned ht
  · rw [(next_insertTask _ _).2]
    rcases hlook ht with ⟨rfl, -⟩ | ht
    · exact htid ▸ Nat.lt_succ_self _
    · exact Nat.lt_succ_of_lt (h.tidBound ht)
  · rw [process_insertTask] at hp
    exact h.processNamed hp
  · rw [process_insertTask] at hp
    rw [(next_insertTask _ _).1]
    exact h.pidBound hp
  · rw [process_insertTask] at hp
    exact h.irreflexive pid p hp

theorem insertProcess (h : Consistent k) (process : GuestProcess) (hpid : process.pid = k.nextPid)
    (hchildren : process.pid ∉ process.children) :
    Consistent { k with nextPid := k.nextPid + 1, processes := k.processes.insert process.pid process } := by
  have hlook : ∀ j, ({ k with
      nextPid := k.nextPid + 1, processes := k.processes.insert process.pid process } : GuestKernel).process j =
      if j = process.pid then some process else k.process j :=
    fun j => SortedMap.get?_insert k.processes process.pid j process
  refine ⟨h.indexes.transfer ⟨rfl, rfl, rfl, rfl⟩, h.named, fun {tid task} htask => ?_, h.tidBound, fun {pid p} hp => ?_,
    fun {pid p} hp => ?_, fun pid p hp => ?_⟩
  · obtain ⟨p, hp⟩ := h.owned htask
    rw [hlook]
    split
    · exact ⟨process, rfl⟩
    · exact ⟨p, hp⟩
  · rw [hlook] at hp
    split at hp
    · exact (Option.some.inj hp) ▸ ‹pid = process.pid›.symm
    · exact h.processNamed hp
  · rw [hlook] at hp
    split at hp
    · rename_i hj
      rw [hj, hpid]
      exact Nat.lt_succ_self _
    · exact Nat.lt_succ_of_lt (h.pidBound hp)
  · rw [hlook] at hp
    split at hp
    · rename_i hj
      rw [hj, ← Option.some.inj hp]
      exact hchildren
    · exact h.irreflexive pid p hp

theorem spendPid (h : Consistent k) : Consistent { k with nextPid := k.nextPid + 1 } :=
  ⟨h.indexes.transfer ⟨rfl, rfl, rfl, rfl⟩, h.named, h.owned, h.tidBound, h.processNamed,
    fun hp => Nat.lt_succ_of_lt (h.pidBound hp),
    h.irreflexive⟩

theorem eraseProcess (h : Consistent k) {pid : GuestPid} (hnone : ∀ tid task, k.task tid = some task → task.pid ≠ pid) :
    Consistent { k with processes := k.processes.erase pid } := by
  have hlook : ∀ j, ({ k with processes := k.processes.erase pid } : GuestKernel).process j =
      if j = pid then none else k.process j :=
    fun j => SortedMap.get?_erase k.processes pid j
  refine ⟨h.indexes.transfer ⟨rfl, rfl, rfl, rfl⟩, h.named, fun {tid task} htask => ?_, h.tidBound,
    fun {j p} hp => ?_, fun {j p} hp => ?_,
    fun j p hp => ?_⟩
  · rw [hlook, if_neg (hnone tid task htask)]
    exact h.owned htask
  · rw [hlook] at hp
    split at hp
    · exact nomatch hp
    · exact h.processNamed hp
  · rw [hlook] at hp
    split at hp
    · exact nomatch hp
    · exact h.pidBound hp
  · rw [hlook] at hp
    split at hp
    · exact nomatch hp
    · exact h.irreflexive j p hp

end Consistent

/-! ### Reaping -/

theorem task_foldl_removeTask (tids : List GuestTid) (k : GuestKernel) (j : GuestTid) :
    (tids.foldl GuestKernel.removeTask k).task j = if j ∈ tids then none else k.task j := by
  induction tids generalizing k with
  | nil => simp
  | cons tid rest ih =>
      rw [List.foldl_cons, ih, task_removeTask]
      by_cases hrest : j ∈ rest
      · simp [hrest]
      · by_cases hj : j = tid <;> simp [hrest, hj]

theorem process_foldl_removeTask (tids : List GuestTid) (k : GuestKernel) (pid : GuestPid) :
    (tids.foldl GuestKernel.removeTask k).process pid = k.process pid := by
  induction tids generalizing k with
  | nil => rfl
  | cons tid rest ih => rw [List.foldl_cons, ih, process_removeTask]

theorem next_foldl_removeTask (tids : List GuestTid) (k : GuestKernel) :
    (tids.foldl GuestKernel.removeTask k).nextPid = k.nextPid ∧
      (tids.foldl GuestKernel.removeTask k).nextTid = k.nextTid := by
  induction tids generalizing k with
  | nil => exact ⟨rfl, rfl⟩
  | cons tid rest ih =>
      have hstep := next_removeTask k tid
      exact ⟨(ih _).1.trans hstep.1, (ih _).2.trans hstep.2⟩

theorem Consistent.mem_tidsOf (h : Consistent k) {pid : GuestPid} {tid : GuestTid} :
    tid ∈ k.tidsOf pid ↔ ∃ task, k.task tid = some task ∧ task.pid = pid := by
  simp only [tidsOf, List.mem_map, List.mem_filter, SortedMap.mem_values, decide_eq_true_eq]
  constructor
  · rintro ⟨task, ⟨⟨j, hj⟩, hpid⟩, rfl⟩
    exact ⟨task, h.named _ _ hj ▸ hj, hpid⟩
  · rintro ⟨task, htask, hpid⟩
    exact ⟨task, ⟨⟨tid, htask⟩, hpid⟩, h.named _ _ htask⟩

theorem process_withoutProcess (k : GuestKernel) (pid j : GuestPid) :
    (k.withoutProcess pid).process j = if j = pid then none else k.process j := by
  rw [process, withoutProcess, SortedMap.get?_erase]
  exact congrArg (fun p => if j = pid then none else p) (process_foldl_removeTask _ k j)

theorem Consistent.task_withoutProcess (h : Consistent k) {pid : GuestPid} {tid : GuestTid} {task : GuestTask} :
    (k.withoutProcess pid).task tid = some task ↔ k.task tid = some task ∧ task.pid ≠ pid := by
  change ((k.tidsOf pid).foldl GuestKernel.removeTask k).task tid = some task ↔ _
  rw [task_foldl_removeTask]
  by_cases hmem : tid ∈ k.tidsOf pid
  · obtain ⟨t, ht, hpid⟩ := h.mem_tidsOf.mp hmem
    rw [if_pos hmem, ht]
    simp only [reduceCtorEq, Option.some.injEq, false_iff, not_and, not_not]
    rintro rfl
    exact hpid
  · rw [if_neg hmem]
    exact ⟨fun ht => ⟨ht, fun hpid => hmem (h.mem_tidsOf.mpr ⟨task, ht, hpid⟩)⟩, And.left⟩

theorem Consistent.withoutProcess (h : Consistent k) (pid : GuestPid) : Consistent (k.withoutProcess pid) := by
  have hremoved : ∀ (tids : List GuestTid) (k : GuestKernel), Consistent k →
      Consistent (tids.foldl GuestKernel.removeTask k) := by
    intro tids
    induction tids with
    | nil => exact fun _ hk => hk
    | cons tid rest ih => exact fun k hk => ih _ (hk.removeTask tid)
  refine (hremoved (k.tidsOf pid) k h).eraseProcess fun tid task htask hpid => ?_
  rw [task_foldl_removeTask] at htask
  split at htask
  · exact nomatch htask
  · exact ‹tid ∉ k.tidsOf pid› (h.mem_tidsOf.mpr ⟨task, htask, hpid⟩)

theorem reapChild_cases (k : GuestKernel) (parentPid childPid : GuestPid) :
    (k.hasExited childPid = false ∧ ∃ e, k.reapChild parentPid childPid = (.error e, k)) ∨
      ∃ child status, k.process childPid = some child ∧ child.exitState = .exited status ∧
        ((parentPid = childPid ∨ k.process parentPid = none) ∧
            k.reapChild parentPid childPid = (.error (.unknownPid parentPid), k.withoutProcess childPid) ∨
          k.reapChild parentPid childPid =
            (.ok ⟨childPid, status⟩, (k.withoutProcess childPid).modifyProcess parentPid fun parent =>
              { parent with children := parent.children.erase childPid })) := by
  unfold reapChild
  cases hchild : k.process childPid with
  | none => exact Or.inl ⟨by rw [hasExited, hchild], _, rfl⟩
  | some child =>
      cases hexit : child.exitState with
      | running =>
          refine Or.inl ⟨?_, .wouldBlock, by simp only [hexit]⟩
          simp [hasExited, hchild, hexit, ExitState.isExited]
      | exited status =>
          refine Or.inr ⟨child, status, rfl, hexit, ?_⟩
          simp only [hexit]
          cases hparent : (k.withoutProcess childPid).process parentPid with
          | none =>
              refine Or.inl ⟨?_, rfl⟩
              rw [process_withoutProcess] at hparent
              split at hparent
              · exact Or.inl ‹_›
              · exact Or.inr hparent
          | some parent => exact Or.inr rfl

/-- A `wait4` either reaps an exited child that matches, or leaves the kernel alone. -/
theorem wait4Child_cases (k : GuestKernel) (parentPid : GuestPid) (args : Wait4SyscallArgs) :
    (∃ r, k.wait4Child parentPid args = (r, k) ∧ (∀ waited, r ≠ .ok (some waited)) ∧
        (r = .error .wouldBlock → args.hasUnsupportedOptions = false) ∧
        (args.hasUnsupportedOptions = false →
          ∀ childPid, k.exitedWaitableChild parentPid args.pid ≠ .ok (some childPid))) ∨
      ∃ childPid, args.hasUnsupportedOptions = false ∧
        k.exitedWaitableChild parentPid args.pid = .ok (some childPid) ∧
        k.wait4Child parentPid args = (k.reapChild parentPid childPid).map (Except.map some) id := by
  unfold wait4Child
  by_cases hoptions : args.hasUnsupportedOptions = true
  · exact Or.inl ⟨_, if_pos hoptions, nofun, nofun, fun hsupported => absurd hoptions (by simp [hsupported])⟩
  · rw [if_neg hoptions]
    have hsupported : args.hasUnsupportedOptions = false := by simpa using hoptions
    cases hexited : k.exitedWaitableChild parentPid args.pid with
    | error e => exact Or.inl ⟨_, rfl, nofun, fun _ => hsupported, fun _ => nofun⟩
    | ok found =>
        cases found with
        | some childPid =>
            refine Or.inr ⟨childPid, hsupported, rfl, ?_⟩
            dsimp only
            generalize k.reapChild parentPid childPid = reaped
            rcases reaped with ⟨_ | _, _⟩ <;> rfl
        | none =>
            refine Or.inl ?_
            rcases k.hasWaitableChild parentPid args.pid with e | _ | _
            · exact ⟨_, rfl, nofun, fun _ => hsupported, fun _ => nofun⟩
            · exact ⟨_, rfl, nofun, fun _ => hsupported, fun _ => nofun⟩
            · by_cases hhang : args.noHang = true
              · exact ⟨.ok none, by simp [hhang], nofun, fun _ => hsupported, fun _ => nofun⟩
              · exact ⟨.error .wouldBlock, by simp [hhang], nofun, fun _ => hsupported, fun _ => nofun⟩

end GuestKernel

end Mcr.Task
