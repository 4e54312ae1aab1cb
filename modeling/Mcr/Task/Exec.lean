import Mcr.Task.Runs

/-!
# A process with a new image

`exec_task` puts the image in place, resets the calling task and nothing else: the other threads of the process
keep their state and their registers, and the dispositions keep their handlers. So the process is a fresh program
exactly when it was down to one thread and had no handler before.
-/

namespace Mcr.Task

def linuxSigDfl : GuestAddress := 0
def linuxSigIgn : GuestAddress := 1

def GuestSignalAction.IsPlain (action : GuestSignalAction) : Prop :=
  action.action = linuxSigDfl ∨ action.action = linuxSigIgn

namespace GuestKernel

variable {k k' : GuestKernel} {load : GuestProgram → Except TaskError GuestImageState}

/-! ### What an exec leaves alone -/

theorem task_foldl_wake (tids : List GuestTid) (k : GuestKernel) (j : GuestTid) :
    (tids.foldl (fun k tid => k.setTaskState tid .runnable) k).task j =
      if j ∈ tids then (k.task j).map fun task => { task with state := .runnable } else k.task j := by
  induction tids generalizing k with
  | nil => rw [List.foldl_nil, if_neg List.not_mem_nil]
  | cons tid rest ih =>
      rw [List.foldl_cons, ih, task_setTaskState]
      by_cases hj : j = tid
      · subst hj
        cases k.task j <;> simp
      · simp [hj]

theorem process_foldl_wake (tids : List GuestTid) (k : GuestKernel) (pid : GuestPid) :
    (tids.foldl (fun k tid => k.setTaskState tid .runnable) k).process pid = k.process pid := by
  induction tids generalizing k with
  | nil => rfl
  | cons tid rest ih => rw [List.foldl_cons, ih, process_setTaskState]

/-- The end of a `vfork` wakes tasks that have not exited, and changes nothing else about any task. -/
theorem task_resumeVforkParent (hk : Named k) (childPid : GuestPid) (j : GuestTid) :
    (k.resumeVforkParent childPid).task j = k.task j ∨
      ∃ task, k.task j = some task ∧ task.state.isExited = false ∧
        (k.resumeVforkParent childPid).task j = some { task with state := .runnable } := by
  unfold resumeVforkParent
  split
  · exact Or.inl rfl
  · rw [task_foldl_wake]
    split
    · rename_i hmem
      obtain ⟨task, htask, -, hstate⟩ := (mem_vforkWaiters hk).mp hmem
      exact Or.inr ⟨task, htask, by rw [hstate]; rfl, by rw [htask, Option.map_some]⟩
    · exact Or.inl rfl

theorem process_resumeVforkParent (k : GuestKernel) (childPid pid : GuestPid) :
    (k.resumeVforkParent childPid).process pid = k.process pid := by
  unfold resumeVforkParent
  split
  · rfl
  · exact process_foldl_wake _ k pid

/-- What a successful `exec_task` makes of the tables: the caller runs, any other task is as it was or has been
woken, and the process keeps its dispositions. -/
structure Exec (k : GuestKernel) (tid : GuestTid) (pid : GuestPid) (k' : GuestKernel) : Prop where
  caller : k'.stateOf tid = some .runnable
  others : ∀ j, j ≠ tid → k'.task j = k.task j ∨
    ∃ task, k.task j = some task ∧ task.state.isExited = false ∧ k'.task j = some { task with state := .runnable }
  signals : ∃ process process', k.process pid = some process ∧ k'.process pid = some process' ∧
    process'.signals = process.signals

theorem exec_of_execTask (hk : Consistent k) {tid : GuestTid} {task : GuestTask} {program : GuestProgram}
    (htask : k.task tid = some task) (hexec : k.execTask load tid program = (.ok (), k')) : Exec k tid task.pid k' := by
  rcases execTask_cases load k tid program with ⟨e, herror⟩ | ⟨task', process, image, htask', hprocess, -, hok⟩
  · rw [herror] at hexec
    exact nomatch (Prod.mk.inj hexec).1
  · obtain rfl := Option.some.inj (htask'.symm.trans htask)
    rw [hok] at hexec
    obtain rfl := (Prod.mk.inj hexec).2
    have hregs : Quiet .wakes (k.modifyProcess task'.pid (execedProcess image)) _ :=
      .task _ tid (execedTask_keeps image.memory)
    have hnamed : Named (((k.modifyProcess task'.pid (execedProcess image)).modifyTask tid
        (execedTask image.memory)).setTaskState tid .runnable) :=
      named_setTaskState (hregs.named hk.named) tid .runnable
    have hcaller : (((k.modifyProcess task'.pid (execedProcess image)).modifyTask tid
        (execedTask image.memory)).setTaskState tid .runnable).task tid =
          some { execedTask image.memory task' with state := .runnable } := by
      simp [htask]
    refine ⟨?_, fun j hj => ?_, process, execedProcess image process, hprocess, ?_, rfl⟩
    · rcases task_resumeVforkParent hnamed task'.pid tid with hkept | ⟨woken, -, -, hwoken⟩
      · rw [stateOf, hkept, hcaller, Option.map_some]
      · rw [stateOf, hwoken, Option.map_some]
    · have hwoken := task_resumeVforkParent hnamed task'.pid j
      rwa [task_setTaskState, if_neg hj, task_modifyTask, if_neg hj, task_modifyProcess] at hwoken
    · rw [process_resumeVforkParent, process_setTaskState, process_modifyTask, process_modifyProcess, if_pos rfl,
        hprocess, Option.map_some]

/-! ### Fresh programs -/

def ActsLive (k : GuestKernel) (op : KernelOp) : Prop :=
  ∀ tid, op.actor = some tid → ∃ task, k.task tid = some task ∧ task.state.isExited = false

def DownTo (k : GuestKernel) (pid : GuestPid) (tid : GuestTid) : Prop :=
  ∀ j task, k.task j = some task → task.pid = pid → j ≠ tid → task.state.isExited = true

def HandlerFree (k : GuestKernel) (pid : GuestPid) : Prop :=
  ∀ process, k.process pid = some process → ∀ signal action, process.signals.action signal = some action →
    action.IsPlain

/-- The process is a fresh program after an exec of the task: the task is its only one that has not exited, no
disposition is a handler, the ignored signals are still ignored, and no task it had before runs again, whatever
live tasks go on to do. -/
structure FreshProgram (load : GuestProgram → Except TaskError GuestImageState) (k k' : GuestKernel) (pid : GuestPid)
    (tid : GuestTid) : Prop where
  caller : k'.stateOf tid = some .runnable
  alone : k'.DownTo pid tid
  plain : k'.HandlerFree pid
  ignored : ∀ process process', k.process pid = some process → k'.process pid = some process' →
    ∀ signal action, process.signals.action signal = some action → action.action = linuxSigIgn →
      process'.signals.action signal = some action
  silent : ∀ {k''}, Reached load ActsLive k' k'' → ∀ j task, k.task j = some task → task.pid = pid → j ≠ tid →
    k''.stateOf j ≠ some .runnable

/-- The task, of an identity that is spent, has exited or is gone. -/
def Over (k : GuestKernel) (tid : GuestTid) : Prop :=
  tid < k.nextTid ∧ ∀ state, k.stateOf tid = some state → state.isExited = true

theorem KernelEdit.over {scope : Scope} (h : KernelEdit scope k k') {tid : GuestTid} (hparks : ¬scope.parks tid)
    (hover : k.Over tid) : k'.Over tid := by
  refine ⟨lt_of_lt_of_le hover.1 h.nextTid_le, fun state hstate => ?_⟩
  cases h.becomes hstate with
  | kept hold => exact hover.2 state hold
  | woken hold hlive _ => exact absurd (hover.2 _ hold) (by rw [hlive]; exact Bool.false_ne_true)
  | requeued hold _ => exact nomatch hover.2 _ hold
  | parked _ hscope _ _ _ => exact absurd hscope hparks
  | ended => rfl
  | revived _ hscope => exact absurd hscope hparks
  | born hnew => exact absurd hover.1 (hnew ▸ lt_irrefl _)

theorem Over.op {tid : GuestTid} (hover : k.Over tid) (hk : Consistent k) {op : KernelOp} (hlive : k.ActsLive op) :
    (op.run load k).2.Over tid := by
  have hparks : ¬op.scope.parks tid := by
    intro hactor
    obtain ⟨task, htask, hstate⟩ := hlive tid hactor
    have hexited := hover.2 task.state (by rw [stateOf, htask, Option.map_some])
    rw [hstate] at hexited
    exact Bool.false_ne_true hexited
  exact Edits.preserves (P := fun k => k.Over tid) (fun hedit hover => hedit.over hparks hover) (edits_of_op hk op) hover

theorem Exec.downTo_iff {pid : GuestPid} {tid : GuestTid} (h : Exec k tid pid k') :
    k'.DownTo pid tid ↔ k.DownTo pid tid := by
  constructor
  · intro hdown j task htask hpid hj
    rcases h.others j hj with hkept | ⟨woken, hget, -, hwoken⟩
    · exact hdown j task (hkept.trans htask) hpid hj
    · obtain rfl := Option.some.inj (hget.symm.trans htask)
      exact nomatch hdown j _ hwoken hpid hj
  · intro hdown j task htask hpid hj
    rcases h.others j hj with hkept | ⟨woken, hget, hlive, hwoken⟩
    · exact hdown j task (hkept.symm.trans htask) hpid hj
    · obtain rfl := Option.some.inj (hwoken.symm.trans htask)
      rw [hdown j woken hget hpid hj] at hlive
      exact nomatch hlive

theorem Exec.handlerFree_iff {pid : GuestPid} {tid : GuestTid} (h : Exec k tid pid k') :
    k'.HandlerFree pid ↔ k.HandlerFree pid := by
  obtain ⟨process, process', hprocess, hprocess', hsignals⟩ := h.signals
  simp only [HandlerFree, hprocess, hprocess', Option.some.injEq, forall_eq', hsignals]

/-- After an exec the process is a fresh program if and only if it was down to the calling thread and had no
handler. -/
theorem exec_fresh {image : GuestImageState} (h : Reached load (fun _ _ => True) (initial image) k) {tid : GuestTid}
    {task : GuestTask} {program : GuestProgram} (htask : k.task tid = some task)
    (hexec : k.execTask load tid program = (.ok (), k')) :
    FreshProgram load k k' task.pid tid ↔ k.DownTo task.pid tid ∧ k.HandlerFree task.pid := by
  obtain ⟨hk, -⟩ := h.preserves (P := fun _ => True) (consistent_initial image) trivial fun _ _ _ => trivial
  have hk' : Consistent k' := by
    have hop : Consistent (KernelOp.run load k (.execTask tid program)).2 := hk.op (.execTask tid program)
    rwa [KernelOp.run, hexec] at hop
  have hfresh := exec_of_execTask hk htask hexec
  constructor
  · intro hprogram
    exact ⟨hfresh.downTo_iff.mp hprogram.alone, hfresh.handlerFree_iff.mp hprogram.plain⟩
  · rintro ⟨hdown, hfree⟩
    refine ⟨hfresh.caller, hfresh.downTo_iff.mpr hdown, hfresh.handlerFree_iff.mpr hfree,
      fun process process' hprocess hprocess' signal action haction _ => ?_, fun {k''} hlater j old hold hpid hj => ?_⟩
    · obtain ⟨p, p', hp, hp', hsignals⟩ := hfresh.signals
      obtain rfl := Option.some.inj (hp.symm.trans hprocess)
      obtain rfl := Option.some.inj (hp'.symm.trans hprocess')
      rwa [hsignals]
    · have hstill : k'.task j = some old := by
        rcases hfresh.others j hj with hkept | ⟨woken, hget, hlive, -⟩
        · exact hkept.trans hold
        · rw [hdown j woken hget (Option.some.inj (hget.symm.trans hold) ▸ hpid) hj] at hlive
          cases hlive
      have hover : k'.Over j := by
        refine ⟨hk'.tidBound hstill, fun state hstate => ?_⟩
        rw [stateOf, hstill, Option.map_some, Option.some.injEq] at hstate
        exact hstate ▸ hdown j old hold hpid hj
      have hlast := (hlater.preserves (P := fun k => k.Over j) hk' hover fun hk hover hlive => hover.op hk hlive).2
      exact fun hrunnable => by cases hlast.2 _ hrunnable

/-- The program the runs on fixed inputs exec. -/
def sampleProgram : GuestProgram := ⟨⟨[0x2f, 0x61], []⟩, none, [], []⟩

/-- A thread whose only sibling has exited. -/
def loneKernel : GuestKernel :=
  [KernelOp.cloneWithChildRegs 1 ⟨0x10f00, 0, 0, 0, 0⟩ (.new 0x401000 0), .exitTask 2 0].foldl
    (fun k op => (op.run (fun _ => .ok sampleImage) k).2) (initial sampleImage)

theorem Reached.direct {condition : GuestKernel → KernelOp → Prop} {k₀ : GuestKernel} (h : Reached load condition k₀ k)
    (op : KernelOp) (hop : condition k op) : Reached load condition k₀ (op.run load k).2 :=
  .step h (.direct op) (fun _ heq => Option.some.inj heq ▸ hop) (run_direct load k op)

theorem loneKernel_fresh : ∃ k', loneKernel.execTask (fun _ => .ok sampleImage) 1 sampleProgram = (.ok (), k') ∧
    FreshProgram (fun _ => .ok sampleImage) loneKernel k' 1 1 := by
  have hstart : Reached (fun _ => .ok sampleImage) (fun _ _ => True) (initial sampleImage) (initial sampleImage) := .start
  have hrun : Reached (fun _ => .ok sampleImage) (fun _ _ => True) (initial sampleImage) loneKernel :=
    (hstart.direct (.cloneWithChildRegs 1 ⟨0x10f00, 0, 0, 0, 0⟩ (.new 0x401000 0)) trivial).direct
      (.exitTask 2 0) trivial
  obtain ⟨hk, -⟩ := hrun.preserves (P := fun _ => True) (consistent_initial sampleImage) trivial fun _ _ _ => trivial
  have htasks : loneKernel.tasks.values.map (fun task => (task.tid, task.pid, task.state.isExited)) =
      [(1, 1, false), (2, 1, true)] := by decide +kernel
  have hactions : (loneKernel.process 1).map (fun process => process.signals.actions.keys) = some [] := by
    decide +kernel
  have hpid : (loneKernel.task 1).map GuestTask.pid = some 1 := by decide +kernel
  have hok : (loneKernel.execTask (fun _ => .ok sampleImage) 1 sampleProgram).1 = .ok () := by decide +kernel
  obtain ⟨k', hexec⟩ : ∃ k', loneKernel.execTask (fun _ => .ok sampleImage) 1 sampleProgram = (.ok (), k') :=
    ⟨_, Prod.ext hok rfl⟩
  obtain ⟨task, htask, hone⟩ := Option.map_eq_some_iff.mp hpid
  have hfresh := exec_fresh hrun htask hexec
  rw [hone] at hfresh
  refine ⟨k', hexec, hfresh.mpr ⟨fun j other hother _ hj => ?_, fun process hprocess signal action haction => ?_⟩⟩
  · have hmem := List.mem_map_of_mem (f := fun task => (task.tid, task.pid, task.state.isExited))
      (SortedMap.mem_values.mpr ⟨j, hother⟩)
    rw [htasks, hk.named j other hother] at hmem
    simp only [List.mem_cons, Prod.mk.injEq, hj, false_and, false_or, List.not_mem_nil, or_false] at hmem
    exact hmem.2.2
  · rw [hprocess, Option.map_some, Option.some.injEq] at hactions
    have hmem := SortedMap.mem_keys.mpr ⟨action, haction⟩
    rw [hactions] at hmem
    exact nomatch hmem

/-- Two threads, and a handler of the process. -/
def threadedKernel : GuestKernel :=
  [KernelOp.cloneWithChildRegs 1 ⟨0x10f00, 0, 0, 0, 0⟩ (.new 0x401000 0), .rtSigaction 1 10 8 (some (.new 0x402000))].foldl
    (fun k op => (op.run (fun _ => .ok sampleImage) k).2) (initial sampleImage)

/-- After an exec of the first thread the second still runs the code of the old image, and the handler is still
in place. -/
theorem old_code_survives_exec : ∃ k', Reached (fun _ => .ok sampleImage) (fun _ _ => True) (initial sampleImage)
    threadedKernel ∧ threadedKernel.execTask (fun _ => .ok sampleImage) 1 sampleProgram = (.ok (), k') ∧
      (k'.task 2).map (fun task => (task.pid, task.state, task.regs.rip)) = some (1, .runnable, 0x401000) ∧
      (k'.process 1).bind (fun process => process.signals.action 10) = some (.new 0x402000) ∧
      ¬FreshProgram (fun _ => .ok sampleImage) threadedKernel k' 1 1 := by
  have hstart : Reached (fun _ => .ok sampleImage) (fun _ _ => True) (initial sampleImage) (initial sampleImage) := .start
  have hrun : Reached (fun _ => .ok sampleImage) (fun _ _ => True) (initial sampleImage) threadedKernel :=
    (hstart.direct (.cloneWithChildRegs 1 ⟨0x10f00, 0, 0, 0, 0⟩ (.new 0x401000 0)) trivial).direct
      (.rtSigaction 1 10 8 (some (.new 0x402000))) trivial
  have hok : (threadedKernel.execTask (fun _ => .ok sampleImage) 1 sampleProgram).1 = .ok () := by decide +kernel
  have hsecond : ((threadedKernel.execTask (fun _ => .ok sampleImage) 1 sampleProgram).2.task 2).map
      (fun task => (task.pid, task.state, task.regs.rip)) = some (1, .runnable, 0x401000) := by decide +kernel
  have hhandler : ((threadedKernel.execTask (fun _ => .ok sampleImage) 1 sampleProgram).2.process 1).bind
      (fun process => process.signals.action 10) = some (.new 0x402000) := by decide +kernel
  refine ⟨_, hrun, Prod.ext hok rfl, hsecond, hhandler, fun hfresh => ?_⟩
  obtain ⟨task, htask, heq⟩ := Option.map_eq_some_iff.mp hsecond
  obtain ⟨hpid, hstate⟩ := Prod.mk.inj heq
  have hexited := hfresh.alone 2 task htask hpid (by decide)
  rw [(Prod.mk.inj hstate).1] at hexited
  exact nomatch hexited

end GuestKernel

end Mcr.Task
