import Mcr.Task.Waits

/-!
# The edits behind every entry

Besides the quiet edits there are seven: a process ends, gets a new image, is forked or reaped, the task with
the new image runs again, a thread is made, and an identity is spent in vain. Every entry is a sequence of edits
within its scope, so that an invariant of the kernel is one case analysis over the edits.
-/

namespace Mcr.Task

namespace GuestKernel

variable {k k' : GuestKernel} {scope : Scope} {load : GuestProgram → Except TaskError GuestImageState}

/-! ### Identities and images -/

theorem allocatePid_ok {pid : GuestPid} (h : k.allocatePid = .ok (pid, k')) :
    pid = k.nextPid ∧ k' = { k with nextPid := k.nextPid + 1 } ∧ k.nextPid + 1 < 2 ^ 32 := by
  unfold allocatePid checkedSucc at h
  split at h
  · rename_i next hnext
    split at hnext
    · rename_i hbound
      obtain ⟨rfl, rfl⟩ := Prod.mk.inj (Except.ok.inj h)
      exact ⟨rfl, by rw [← Option.some.inj hnext], hbound⟩
    · exact nomatch hnext
  · exact nomatch h

theorem allocateTid_ok {tid : GuestTid} (h : k.allocateTid = .ok (tid, k')) :
    tid = k.nextTid ∧ k' = { k with nextTid := k.nextTid + 1 } := by
  unfold allocateTid checkedSucc at h
  split at h
  · rename_i next hnext
    split at hnext
    · obtain ⟨rfl, rfl⟩ := Prod.mk.inj (Except.ok.inj h)
      exact ⟨rfl, by rw [← Option.some.inj hnext]⟩
    · exact nomatch hnext
  · exact nomatch h

/-- A fork that succeeds gives the child the next two identities; one that fails spends a process identity at
most. -/
theorem forkChildTask_cases (k : GuestKernel) (tid : GuestTid) :
    (∃ e, k.forkChildTask tid = (.error e, k)) ∨
      (k.nextPid + 1 < 2 ^ 32 ∧ ∃ e, k.forkChildTask tid = (.error e, { k with nextPid := k.nextPid + 1 })) ∨
      ∃ parentTask parent, k.task tid = some parentTask ∧ k.process parentTask.pid = some parent ∧
        parent.exitState = .running ∧ k.nextPid + 1 < 2 ^ 32 ∧
        k.forkChildTask tid = (.ok (k.nextPid, k.nextTid),
          { k with nextPid := k.nextPid + 1, nextTid := k.nextTid + 1 }.insertFork parentTask parent k.nextPid
            k.nextTid) := by
  unfold forkChildTask
  cases htask : k.task tid with
  | none => exact Or.inl ⟨_, rfl⟩
  | some parentTask =>
      dsimp only
      cases hparent : k.process parentTask.pid with
      | none => exact Or.inl ⟨_, rfl⟩
      | some parent =>
          dsimp only
          by_cases hrunning : parent.exitState ≠ .running
          · exact Or.inl ⟨_, if_pos hrunning⟩
          · rw [if_neg hrunning]
            cases hpid : k.allocatePid with
            | error e => exact Or.inl ⟨_, rfl⟩
            | ok allocated =>
                obtain ⟨childPid, k₁⟩ := allocated
                obtain ⟨rfl, rfl, hbound⟩ := allocatePid_ok hpid
                dsimp only
                cases htid : ({ k with nextPid := k.nextPid + 1 } : GuestKernel).allocateTid with
                | error e => exact Or.inr (Or.inl ⟨hbound, _, rfl⟩)
                | ok allocated =>
                    obtain ⟨childTid, k₂⟩ := allocated
                    obtain ⟨rfl, rfl⟩ := allocateTid_ok htid
                    exact Or.inr (Or.inr ⟨parentTask, parent, rfl, hparent, not_not.mp hrunning, hbound, rfl⟩)

/-- A program that loads is put in place of the caller's; any other leaves the kernel as it was. -/
theorem execTask_cases (load : GuestProgram → Except TaskError GuestImageState) (k : GuestKernel) (tid : GuestTid)
    (program : GuestProgram) :
    (∃ e, k.execTask load tid program = (.error e, k)) ∨
      ∃ task process image, k.task tid = some task ∧ k.process task.pid = some process ∧
        load program = .ok image ∧
        k.execTask load tid program = (.ok (),
          (((k.modifyProcess task.pid (execedProcess image)).modifyTask tid (execedTask image.memory)).setTaskState
            tid .runnable).resumeVforkParent task.pid) := by
  unfold execTask
  cases htask : k.task tid with
  | none => exact Or.inl ⟨_, rfl⟩
  | some task =>
      cases himage : load program with
      | error e => exact Or.inl ⟨_, rfl⟩
      | ok image =>
          dsimp only
          cases hprocess : k.process task.pid with
          | none => exact Or.inl ⟨_, rfl⟩
          | some process => exact Or.inr ⟨task, process, image, rfl, hprocess, rfl, rfl⟩

/-! ### Edits -/

inductive KernelEdit (scope : Scope) (k : GuestKernel) : GuestKernel → Prop
  | quiet {k' : GuestKernel} (h : QuietEdit scope k k') : KernelEdit scope k k'
  | ended (pid : GuestPid) (status : Int) (h : scope.exits) :
      KernelEdit scope k (k.modifyProcess pid fun process => { process with exitState := .exited status })
  | image (pid : GuestPid) (image : GuestImageState) : KernelEdit scope k (k.modifyProcess pid (execedProcess image))
  | revive (tid : GuestTid) (h : scope.parks tid) : KernelEdit scope k (k.setTaskState tid .runnable)
  | spendPid (hbound : k.nextPid + 1 < 2 ^ 32) : KernelEdit scope k { k with nextPid := k.nextPid + 1 }
  | fork (tid : GuestTid) (parentTask : GuestTask) (parent : GuestProcess) (htask : k.task tid = some parentTask)
      (hparent : k.process parentTask.pid = some parent) (hrunning : parent.exitState = .running)
      (h : scope.births) (hbound : k.nextPid + 1 < 2 ^ 32) :
      KernelEdit scope k
        ({ k with nextPid := k.nextPid + 1, nextTid := k.nextTid + 1 }.insertFork parentTask parent k.nextPid k.nextTid)
  | thread (tid : GuestTid) (parentTask : GuestTask) (htask : k.task tid = some parentTask)
      (hparent : ∃ process, k.process parentTask.pid = some process) (args : CloneSyscallArgs) (childRegs : GprState)
      (h : scope.births) :
      KernelEdit scope k
        ({ k with nextTid := k.nextTid + 1 }.insertTask (threadTask parentTask args k.nextTid childRegs))
  | reap (parentPid childPid : GuestPid) (parent child : GuestProcess) (hparent : k.process parentPid = some parent)
      (hchild : k.process childPid = some child) (hmem : childPid ∈ parent.children)
      (hexited : child.exitState.isExited = true) (hne : parentPid ≠ childPid) (h : scope.reaps) :
      KernelEdit scope k ((k.withoutProcess childPid).modifyProcess parentPid fun parent =>
        { parent with children := parent.children.erase childPid })

abbrev Edits (scope : Scope) : GuestKernel → GuestKernel → Prop := Relation.ReflTransGen (KernelEdit scope)

theorem Edits.quiet (h : Quiet scope k k') : Edits scope k k' := by
  induction h with
  | refl => exact .refl
  | tail _ hedit ih => exact ih.tail (.quiet hedit)

theorem Edits.preserves {P : GuestKernel → Prop} (hedit : ∀ {k k'}, KernelEdit scope k k' → P k → P k')
    (h : Edits scope k k') (hP : P k) : P k' := by
  induction h with
  | refl => exact hP
  | tail _ hlast ih => exact hedit hlast ih

theorem Consistent.insertFork (h : Consistent k) (parentTask : GuestTask) {parent : GuestProcess}
    (hparent : k.process parentTask.pid = some parent) :
    Consistent ({ k with nextPid := k.nextPid + 1, nextTid := k.nextTid + 1 }.insertFork parentTask parent k.nextPid
      k.nextTid) := by
  have hprocess := h.insertProcess (forkedProcess parent parentTask.pid k.nextPid) rfl (SortedSet.not_mem_empty _)
  have htask := hprocess.insertTask (forkedTask parentTask k.nextPid k.nextTid) rfl
    ⟨forkedProcess parent parentTask.pid k.nextPid, by simp [process, forkedTask, forkedProcess]⟩
  refine htask.modifyProcess parentTask.pid (fun _ => rfl) fun process hnot hmem => ?_
  rcases SortedSet.mem_insert.mp hmem with heq | hmem
  · exact absurd heq (h.pidBound hparent).ne
  · exact hnot hmem

theorem KernelEdit.consistent (h : KernelEdit scope k k') (hk : Consistent k) : Consistent k' := by
  cases h with
  | quiet h => exact Consistent.quiet (.single h) hk
  | ended pid status => exact hk.modifyProcess pid (fun _ => rfl) fun _ => id
  | image pid image => exact hk.modifyProcess pid (fun _ => rfl) fun _ => id
  | revive tid => exact hk.setTaskState tid .runnable
  | spendPid => exact hk.spendPid
  | fork tid parentTask parent _ hparent => exact hk.insertFork parentTask hparent
  | thread tid parentTask _ hparent args childRegs =>
      exact hk.insertTask (threadTask parentTask args k.nextTid childRegs) rfl hparent
  | reap parentPid childPid =>
      refine (hk.withoutProcess childPid).modifyProcess parentPid (fun _ => rfl) fun process hnot hmem => ?_
      exact hnot (SortedSet.mem_erase.mp hmem).2

theorem Edits.consistent (h : Edits scope k k') (hk : Consistent k) : Consistent k' :=
  h.preserves (fun hedit hk => hedit.consistent hk) hk

/-! ### The states of the tasks -/

theorem stateOf_insertTask (k : GuestKernel) (task : GuestTask) (j : GuestTid) :
    (k.insertTask task).stateOf j = if j = task.tid then some task.state else k.stateOf j := by
  rw [stateOf, task_insertTask, stateOf]
  split <;> rfl

theorem stateOf_insertFork (k : GuestKernel) (parentTask : GuestTask) (parent : GuestProcess) (childPid : GuestPid)
    (childTid j : GuestTid) :
    (k.insertFork parentTask parent childPid childTid).stateOf j =
      if j = childTid then some .runnable else k.stateOf j := by
  rw [insertFork, stateOf_modifyProcess, stateOf_insertTask]
  rfl

theorem stateOf_withoutProcess {pid : GuestPid} {j : GuestTid} {state : TaskState}
    (h : (k.withoutProcess pid).stateOf j = some state) : k.stateOf j = some state := by
  rw [stateOf] at h ⊢
  change (((k.tidsOf pid).foldl GuestKernel.removeTask k).task j).map GuestTask.state = some state at h
  rw [task_foldl_removeTask] at h
  split at h
  · cases h
  · exact h

theorem KernelEdit.becomes (h : KernelEdit scope k k') {tid : GuestTid} {state : TaskState}
    (hstate : k'.stateOf tid = some state) : Becomes scope k tid state := by
  cases h with
  | quiet h => exact h.becomes hstate
  | ended pid status => exact .kept hstate
  | image pid image => exact .kept hstate
  | revive j h =>
      rw [stateOf_setTaskState] at hstate
      split at hstate
      · rename_i hj
        subst hj
        obtain ⟨old, hold, rfl⟩ := Option.map_eq_some_iff.mp hstate
        exact .revived hold h
      · exact .kept hstate
  | spendPid => exact .kept hstate
  | fork j parentTask parent =>
      rw [stateOf_insertFork] at hstate
      split at hstate
      · rw [← Option.some.inj hstate]
        exact .born ‹_›
      · exact .kept hstate
  | thread j parentTask =>
      rw [stateOf_insertTask] at hstate
      split at hstate
      · rw [← Option.some.inj hstate]
        exact .born ‹_›
      · exact .kept hstate
  | reap parentPid childPid =>
      rw [stateOf_modifyProcess] at hstate
      exact .kept (stateOf_withoutProcess hstate)

theorem KernelEdit.awake (h : KernelEdit scope k k') (hexits : ¬scope.exits) {tid : GuestTid}
    (hawake : k.Awake scope tid) : k'.Awake scope tid :=
  fun _ hstate => (h.becomes hstate).awake hexits hawake

theorem Edits.preserves_consistent {P : GuestKernel → Prop}
    (hedit : ∀ {k k'}, KernelEdit scope k k' → Consistent k → P k → P k') (h : Edits scope k k')
    (hk : Consistent k) (hP : P k) : P k' :=
  (h.preserves (P := fun k => Consistent k ∧ P k) (fun hstep h => ⟨hstep.consistent h.1, hedit hstep h.1 h.2⟩)
    ⟨hk, hP⟩).2

theorem Edits.awake (h : Edits scope k k') (hexits : ¬scope.exits) {tid : GuestTid} (hawake : k.Awake scope tid) :
    k'.Awake scope tid :=
  h.preserves (fun hedit hawake => hedit.awake hexits hawake) hawake

/-! ### The processes of the tasks -/

theorem KernelEdit.nextTid_le (h : KernelEdit scope k k') : k.nextTid ≤ k'.nextTid := by
  cases h with
  | quiet h =>
      rcases h.cases with ⟨tid, f, rfl, -⟩ | ⟨pid, f, rfl, -⟩ | ⟨tid, state, rfl⟩
      · exact le_rfl
      · exact le_rfl
      · exact (next_setTaskState k tid state).2.ge
  | ended pid status => exact le_rfl
  | image pid image => exact le_rfl
  | revive tid => exact (next_setTaskState k tid .runnable).2.ge
  | spendPid => exact le_rfl
  | fork tid parentTask parent =>
      rw [insertFork, modifyProcess]
      dsimp only
      rw [(next_insertTask _ _).2]
      exact Nat.le_succ _
  | thread tid parentTask =>
      rw [(next_insertTask _ _).2]
      exact Nat.le_succ _
  | reap parentPid childPid => exact (next_foldl_removeTask (k.tidsOf childPid) k).2.ge

theorem KernelEdit.owner (h : KernelEdit scope k k') {tid : GuestTid} {task' : GuestTask}
    (htask : k'.task tid = some task') :
    (∃ task, k.task tid = some task ∧ task'.pid = task.pid) ∨ k.nextTid ≤ tid := by
  have hmoved : ∀ {j new}, (k.setTaskState j new).task tid = some task' →
      ∃ task, k.task tid = some task ∧ task'.pid = task.pid := by
    intro j new ht
    rw [task_setTaskState] at ht
    split at ht
    · obtain ⟨t, hget, rfl⟩ := Option.map_eq_some_iff.mp ht
      exact ⟨t, ‹tid = j› ▸ hget, rfl⟩
    · exact ⟨task', ht, rfl⟩
  cases h with
  | quiet h =>
      rcases h.cases with ⟨j, f, rfl, hf⟩ | ⟨pid, f, rfl, -⟩ | ⟨j, state, rfl⟩
      · rw [task_modifyTask] at htask
        split at htask
        · obtain ⟨t, hget, rfl⟩ := Option.map_eq_some_iff.mp htask
          exact Or.inl ⟨t, ‹tid = j› ▸ hget, (hf t).2.1⟩
        · exact Or.inl ⟨task', htask, rfl⟩
      · exact Or.inl ⟨task', htask, rfl⟩
      · exact Or.inl (hmoved htask)
  | ended pid status => exact Or.inl ⟨task', htask, rfl⟩
  | image pid image => exact Or.inl ⟨task', htask, rfl⟩
  | revive j => exact Or.inl (hmoved htask)
  | spendPid => exact Or.inl ⟨task', htask, rfl⟩
  | fork j parentTask parent =>
      rw [insertFork, task_modifyProcess, task_insertTask] at htask
      split at htask
      · exact Or.inr (le_of_eq ‹tid = k.nextTid›.symm)
      · exact Or.inl ⟨task', htask, rfl⟩
  | thread j parentTask =>
      rw [task_insertTask] at htask
      split at htask
      · exact Or.inr (le_of_eq ‹tid = k.nextTid›.symm)
      · exact Or.inl ⟨task', htask, rfl⟩
  | reap parentPid childPid =>
      rw [task_modifyProcess] at htask
      change ((k.tidsOf childPid).foldl GuestKernel.removeTask k).task tid = some task' at htask
      rw [task_foldl_removeTask] at htask
      split at htask
      · exact nomatch htask
      · exact Or.inl ⟨task', htask, rfl⟩

theorem Edits.owner (h : Edits scope k k') (hk : Consistent k) {tid : GuestTid} {task task' : GuestTask}
    (htask : k.task tid = some task) (htask' : k'.task tid = some task') : task'.pid = task.pid := by
  have hinvariant : tid < k'.nextTid ∧ ∀ t, k'.task tid = some t → t.pid = task.pid := by
    refine h.preserves (P := fun k' => tid < k'.nextTid ∧ ∀ t, k'.task tid = some t → t.pid = task.pid)
      (fun hedit hold => ⟨lt_of_lt_of_le hold.1 hedit.nextTid_le, fun t ht => ?_⟩) ⟨hk.tidBound htask, fun t ht => ?_⟩
    · rcases hedit.owner ht with ⟨before, hbefore, hpid⟩ | hnew
      · exact hpid.trans (hold.2 before hbefore)
      · exact absurd hold.1 (not_lt.mpr hnew)
    · rw [Option.some.inj (ht.symm.trans htask)]
  exact hinvariant.2 task' htask'

/-! ### Waits for children -/

theorem Edits.wait4Child (hk : Irreflexive k) (parentPid : GuestPid) (args : Wait4SyscallArgs) (hreaps : scope.reaps) :
    Edits scope k (k.wait4Child parentPid args).2 := by
  rcases (AfterReaping.refl k).wait4Child hk parentPid args with
    ⟨-, hkept, -⟩ | ⟨childPid, child, status, hclaimed, hchild, hstatus, hwait, -⟩
  · rw [hkept]
  · obtain ⟨⟨parent, hparent, hmem, -⟩, -⟩ := mem_remaining.mp (mem_of_claimed hclaimed).2
    rw [hwait]
    refine .single (.reap parentPid childPid parent child hparent hchild hmem (by rw [hstatus]; rfl) ?_ hreaps)
    exact fun heq => hk parentPid parent hparent (heq ▸ hmem)

theorem Edits.resumeWaitingTask (hk : Consistent k) {tid : GuestTid} (hawake : k.Awake scope tid) (hexits : ¬scope.exits)
    (parentPid : GuestPid) (args : Wait4SyscallArgs) (hreaps : scope.reaps) :
    Edits scope k (k.resumeWaitingTask tid parentPid args).2 := by
  have hwait : Edits scope k (k.wait4Child parentPid args).2 := Edits.wait4Child hk.irreflexive parentPid args hreaps
  unfold GuestKernel.resumeWaitingTask
  generalize k.wait4Child parentPid args = result at hwait ⊢
  obtain ⟨_ | _ | waited, k₁⟩ := result
  · exact hwait
  · exact hwait
  · have hregs := hwait.trans (Edits.quiet (Quiet.task k₁ tid (f := fun task =>
      { task with regs := task.regs.withSyscallReturn task.regs.rip waited.pid }) fun _ => rfl))
    exact hregs.tail (.quiet (.wake tid (Edits.awake hregs hexits hawake)))

theorem Edits.resumeEach (waiting : List (GuestTid × GuestPid × Wait4SyscallArgs)) (hk : Consistent k)
    (hexits : ¬scope.exits) (hreaps : scope.reaps) (hawake : ∀ waiter ∈ waiting, k.Awake scope waiter.1) :
    Edits scope k (resumeEach waiting k).2 := by
  induction waiting generalizing k with
  | nil => exact .refl
  | cons waiter rest ih =>
      obtain ⟨tid, parentPid, args⟩ := waiter
      have hturn : Edits scope k (k.resumeWaitingTask tid parentPid args).2 :=
        Edits.resumeWaitingTask hk (hawake _ List.mem_cons_self) hexits parentPid args hreaps
      refine hturn.trans (ih (hturn.consistent hk) fun waiter hmem => ?_)
      exact Edits.awake hturn hexits (hawake waiter (List.mem_cons_of_mem _ hmem))

theorem mem_waitingTasks (hk : Consistent k) {tid : GuestTid} {pid : GuestPid} {args : Wait4SyscallArgs} :
    (tid, pid, args) ∈ k.waitingTasks ↔
      ∃ task, k.task tid = some task ∧ task.pid = pid ∧ task.state = .waitingForChild args := by
  simp only [waitingTasks, List.mem_filterMap, SortedSet.mem_toList]
  constructor
  · rintro ⟨j, -, hj⟩
    split at hj
    · rename_i task htask
      split at hj
      · rename_i parked hstate
        obtain ⟨rfl, rfl, rfl⟩ := by simpa using hj
        exact ⟨task, (hk.named j task htask).symm ▸ htask, rfl, hstate⟩
      · cases hj
    · cases hj
  · rintro ⟨task, htask, rfl, hstate⟩
    refine ⟨tid, (hk.indexes.childWait tid).mpr ⟨task, htask, by rw [hstate]; rfl⟩, ?_⟩
    rw [htask]
    simp [hstate, hk.named tid task htask]

theorem Edits.wait4CurrentWithReturn (hk : Irreflexive k) (tid : GuestTid) (args : Wait4SyscallArgs)
    (returnRip : GuestAddress) (hparks : scope.parks tid) (hreaps : scope.reaps) :
    Edits scope k (k.wait4CurrentWithReturn tid args returnRip).2 := by
  unfold GuestKernel.wait4CurrentWithReturn
  split
  · exact .refl
  · rename_i task _
    have hwait : Edits scope k (k.wait4Child task.pid args).2 := Edits.wait4Child hk task.pid args hreaps
    have hblocked : (k.wait4Child task.pid args).1 = .error .wouldBlock → args.hasUnsupportedOptions = false := by
      rcases wait4Child_cases k task.pid args with ⟨r, heq, -, hsupported, -⟩ | ⟨_, hsupported, -⟩
      · rw [heq]
        exact hsupported
      · exact fun _ => hsupported
    generalize k.wait4Child task.pid args = result at hwait hblocked ⊢
    split
    · exact hwait
    · exact hwait
    · rename_i k₁
      split
      · exact hwait
      · have hregs := hwait.trans (Edits.quiet (Quiet.task k₁ tid (f := fun task =>
          { task with regs := task.regs.withSyscallReturn returnRip task.regs.rax }) fun _ => rfl))
        refine hregs.tail (.quiet (.park tid (.waitingForChild args) hparks ⟨rfl, fun parked hparked => ?_, nofun⟩ nofun nofun))
        exact TaskState.waitingForChild.inj hparked ▸ hblocked rfl
    · exact hwait

/-! ### Exits -/

theorem Edits.finishProcess (hk : Named k) (pid : GuestPid) (status : Int) (hexits : scope.exits)
    (hposts : scope.posts) (htakes : scope.takes) : Edits scope k (k.finishProcess pid status) := by
  have hsignals : Quiet scope _ _ :=
    (finishProcess_quiet hk pid status).widen (fun _ => False.elim) (fun _ => htakes) (fun _ => hposts) False.elim False.elim
  exact (Relation.ReflTransGen.single (.ended pid status hexits)).trans (Edits.quiet hsignals)

theorem Edits.exitTask (hk : Named k) (tid : GuestTid) (status : Int) (hexits : scope.exits)
    (hposts : scope.posts) (htakes : scope.takes) : Edits scope k (k.exitTask tid status).2 := by
  unfold GuestKernel.exitTask
  split
  · exact .refl
  · have hexit : Quiet scope k (k.setTaskState tid (.exited status)) := .single (.exit tid status hexits)
    dsimp only
    split
    · exact (Edits.quiet hexit).trans (Edits.finishProcess (hexit.named hk) _ status hexits hposts htakes)
    · exact Edits.quiet hexit

theorem Edits.exitGroup (hk : Named k) (pid : GuestPid) (status : Int) (hexits : scope.exits)
    (hposts : scope.posts) (htakes : scope.takes) : Edits scope k (k.exitGroup pid status).2 := by
  unfold GuestKernel.exitGroup
  split
  · exact .refl
  · have hexit := exitEach_quiet (k.tidsOf pid) status hexits k
    exact (Edits.quiet hexit).trans (Edits.finishProcess (hexit.named hk) pid status hexits hposts htakes)

/-! ### Forks, threads and images -/

theorem Edits.forkChildTask (k : GuestKernel) (tid : GuestTid) (hbirths : scope.births) :
    Edits scope k (k.forkChildTask tid).2 := by
  rcases forkChildTask_cases k tid with
    ⟨e, hfork⟩ | ⟨hbound, e, hfork⟩ | ⟨parentTask, parent, htask, hparent, hrunning, hbound, hfork⟩
  · rw [hfork]
  · rw [hfork]
    exact .single (.spendPid hbound)
  · rw [hfork]
    exact .single (.fork tid parentTask parent htask hparent hrunning hbirths hbound)

theorem Edits.forkChild (k : GuestKernel) (tid : GuestTid) (hbirths : scope.births) :
    Edits scope k (k.forkChild tid).2 := by
  have hfork : Edits scope k (k.forkChildTask tid).2 := Edits.forkChildTask k tid hbirths
  unfold GuestKernel.forkChild
  generalize k.forkChildTask tid = result at hfork ⊢
  rcases result with ⟨_ | ⟨_, _⟩, k₁⟩ <;> exact hfork

theorem Edits.forkLikeCurrent (k : GuestKernel) (tid : GuestTid) (childRegs : GprState → GprState)
    (blockParentForVfork : Bool) (hparks : scope.parks tid) (hbirths : scope.births) :
    Edits scope k (k.forkLikeCurrent tid childRegs blockParentForVfork).2 := by
  have hfork : Edits scope k (k.forkChildTask tid).2 := Edits.forkChildTask k tid hbirths
  unfold GuestKernel.forkLikeCurrent
  generalize k.forkChildTask tid = result at hfork ⊢
  rcases result with ⟨_ | ⟨childPid, childTid⟩, k₁⟩
  · exact hfork
  · have hregs := hfork.trans (Edits.quiet (Quiet.task k₁ childTid (f := fun task =>
      { task with regs := childRegs task.regs }) fun _ => rfl))
    dsimp only
    split
    · exact hregs.tail (.quiet (.park tid _ hparks (parks_of_plain rfl rfl rfl) nofun nofun))
    · exact hregs

theorem Edits.threadCurrentWithChildRegs (k : GuestKernel) (tid : GuestTid) (args : CloneSyscallArgs)
    (childRegs : GprState) (hbirths : scope.births) :
    Edits scope k (k.threadCurrentWithChildRegs tid args childRegs).2 := by
  unfold GuestKernel.threadCurrentWithChildRegs
  split
  · exact .refl
  · split
    · exact .refl
    · rename_i parentTask htask
      split
      · exact .refl
      · rename_i process hprocess
        split
        · exact .refl
        · rename_i childTid k₁ hallocated
          obtain ⟨rfl, rfl⟩ := allocateTid_ok hallocated
          exact .single (.thread tid parentTask htask ⟨process, hprocess⟩ args childRegs hbirths)

theorem Edits.cloneCurrentWithReturn (k : GuestKernel) (tid : GuestTid) (args : CloneSyscallArgs)
    (childReturnRip : GuestAddress) (hparks : scope.parks tid) (hbirths : scope.births) :
    Edits scope k (k.cloneCurrentWithReturn tid args childReturnRip).2 := by
  unfold GuestKernel.cloneCurrentWithReturn
  split
  · split
    · exact .refl
    · exact Edits.threadCurrentWithChildRegs k tid args _ hbirths
  · split
    · exact .refl
    · split
      · exact .refl
      · exact Edits.forkLikeCurrent k tid _ _ hparks hbirths

theorem Edits.cloneCurrentWithChildRegs (k : GuestKernel) (tid : GuestTid) (args : CloneSyscallArgs)
    (childRegs : GprState) (hparks : scope.parks tid) (hbirths : scope.births) :
    Edits scope k (k.cloneCurrentWithChildRegs tid args childRegs).2 := by
  unfold GuestKernel.cloneCurrentWithChildRegs
  split
  · exact Edits.threadCurrentWithChildRegs k tid args childRegs hbirths
  · split
    · exact .refl
    · exact Edits.forkLikeCurrent k tid _ _ hparks hbirths

theorem execedTask_keeps (image : GuestMemoryImage) : KeepsTask (execedTask image) := fun _ => rfl

theorem Edits.execTask (hk : Named k) (tid : GuestTid) (program : GuestProgram) (hexits : ¬scope.exits)
    (hparks : scope.parks tid) : Edits scope k (k.execTask load tid program).2 := by
  rcases execTask_cases load k tid program with ⟨e, hexec⟩ | ⟨task, process, image, -, -, -, hexec⟩
  · rw [hexec]
  · rw [hexec]
    have himage : Edits scope k (k.modifyProcess task.pid (execedProcess image)) := .single (.image task.pid image)
    have hregs : Quiet scope (k.modifyProcess task.pid (execedProcess image)) _ :=
      .task _ tid (execedTask_keeps image.memory)
    have hnamed : Named (((k.modifyProcess task.pid (execedProcess image)).modifyTask tid
        (execedTask image.memory)).setTaskState tid .runnable) := named_setTaskState (hregs.named hk) tid .runnable
    exact ((himage.trans (Edits.quiet hregs)).tail (.revive tid hparks)).trans
      (Edits.quiet (resumeVforkParent_quiet hnamed task.pid hexits))

/-! ### The entries -/

theorem edits_of_op (hk : Consistent k) (op : KernelOp) :
    Edits op.scope k (op.run load k).2 := by
  by_cases hquiet : op.isQuiet = true
  · exact Edits.quiet (quiet_of_isQuiet hk.named hquiet)
  · cases op with
    | wait4Child parentPid args => exact Edits.wait4Child hk.irreflexive parentPid args rfl
    | wait4Current tid args returnRip => exact Edits.wait4CurrentWithReturn hk.irreflexive tid args returnRip rfl rfl
    | resumeWaitingTasks =>
        refine Edits.resumeEach k.waitingTasks hk Bool.false_ne_true rfl fun waiter hmem => ?_
        obtain ⟨task, htask, -, hstate⟩ := (mem_waitingTasks hk).mp hmem
        exact awake_of_task htask (by rw [hstate]; exact ⟨rfl, nofun⟩)
    | exitTask tid status => exact Edits.exitTask hk.named tid status rfl rfl rfl
    | exitGroup pid status => exact Edits.exitGroup hk.named pid status rfl rfl rfl
    | forkChild tid => exact Edits.forkChild k tid rfl
    | forkLike tid childRegs blockParentForVfork =>
        exact Edits.forkLikeCurrent k tid childRegs blockParentForVfork rfl rfl
    | clone tid args childReturnRip => exact Edits.cloneCurrentWithReturn k tid args childReturnRip rfl rfl
    | cloneWithChildRegs tid args childRegs => exact Edits.cloneCurrentWithChildRegs k tid args childRegs rfl rfl
    | execTask tid program => exact Edits.execTask hk.named tid program Bool.false_ne_true rfl
    | _ => exact absurd rfl hquiet

theorem Consistent.op (hk : Consistent k) (op : KernelOp) : Consistent (op.run load k).2 :=
  (edits_of_op hk op).consistent hk

end GuestKernel

end Mcr.Task
