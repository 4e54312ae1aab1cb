import Mcr.Task.Steps

/-!
# Runs of the kernel

Every entry keeps a consistent kernel consistent, so every run from the initial process does, and no dispatch on
the way meets a task without a process.
-/

namespace Mcr.Task

namespace GuestKernel

variable {k k' : GuestKernel} {load : GuestProgram → Except TaskError GuestImageState}

theorem Consistent.dispatch_isSome (h : Consistent k) (request : SyscallRequest) :
    (k.dispatchForCurrentTask load request).isSome = true := by
  unfold dispatchForCurrentTask
  split
  · rfl
  · rename_i task htask
    split
    · rfl
    · obtain ⟨process, hprocess⟩ := h.owned htask
      unfold dispatchTask
      cases request.syscall <;> simp [hprocess]

theorem Consistent.call (h : Consistent k) (load : GuestProgram → Except TaskError GuestImageState)
    (call : KernelCall) :
    ∃ reply k', call.run load k = some (reply, k') ∧ Consistent k' := by
  have hsome : (call.run load k).isSome = true := by
    cases call with
    | direct op => rfl
    | dispatch request =>
        rw [KernelCall.run, Option.isSome_map]
        exact h.dispatch_isSome request
  obtain ⟨⟨reply, k'⟩, hrun⟩ := Option.isSome_iff_exists.mp hsome
  refine ⟨reply, k', hrun, ?_⟩
  rw [KernelCall.run_state hrun]
  cases call.operation k with
  | none => exact h
  | some op => exact h.op op

theorem Consistent.runAll (h : Consistent k) (load : GuestProgram → Except TaskError GuestImageState)
    (calls : List KernelCall) :
    ∃ replies k', KernelCall.runAll load calls k = some (replies, k') ∧ Consistent k' := by
  induction calls generalizing k with
  | nil => exact ⟨[], k, rfl, h⟩
  | cons call calls ih =>
      obtain ⟨reply, k₁, hcall, hk₁⟩ := h.call load call
      obtain ⟨replies, k₂, hcalls, hk₂⟩ := ih hk₁
      exact ⟨reply :: replies, k₂, by simp [KernelCall.runAll, hcall, hcalls], hk₂⟩

theorem consistent_initial (image : GuestImageState) : Consistent (initial image) := by
  have hbare : Consistent { bare with nextTid := initialGuestTid, nextPid := initialGuestPid } :=
    { indexes :=
        { runnable := by simp [bare]
          childWait := by simp [bare]
          fdWait := by simp [bare]
          futexWait := by simp [bare, futexQueue]
          queueNonempty := by simp [bare] }
      named := by simp [Named, task, bare]
      owned := by simp [task, bare]
      tidBound := by simp [task, bare]
      processNamed := by simp [process, bare]
      pidBound := by simp [process, bare]
      irreflexive := by simp [Irreflexive, process, bare] }
  have hprocess := hbare.insertProcess (initialProcess initialGuestPid image) rfl (SortedSet.not_mem_empty _)
  exact hprocess.insertTask (initialTask initialGuestTid initialGuestPid image.memory) rfl
    ⟨initialProcess initialGuestPid image, by simp [process, initialTask, initialProcess]⟩

/-- The kernels that calls lead to, when every entry they go to meets a condition. -/
inductive Reached (load : GuestProgram → Except TaskError GuestImageState) (condition : GuestKernel → KernelOp → Prop)
    (k₀ : GuestKernel) : GuestKernel → Prop
  | start : Reached load condition k₀ k₀
  | step {k k' : GuestKernel} {reply : KernelReply} (h : Reached load condition k₀ k) (call : KernelCall)
      (hcondition : ∀ op, call.operation k = some op → condition k op)
      (hrun : call.run load k = some (reply, k')) : Reached load condition k₀ k'

/-- A property that every entry preserves, on consistent kernels and under the condition, holds wherever calls
lead. -/
theorem Reached.preserves {condition : GuestKernel → KernelOp → Prop} {k₀ : GuestKernel} {P : GuestKernel → Prop}
    (h : Reached load condition k₀ k) (hk₀ : Consistent k₀) (hstart : P k₀)
    (hstep : ∀ {k op}, Consistent k → P k → condition k op → P (op.run load k).2) : Consistent k ∧ P k := by
  induction h with
  | start => exact ⟨hk₀, hstart⟩
  | step _ call hcondition hrun ih =>
      rename_i k₁ _ _ _
      rw [KernelCall.run_state hrun]
      cases hop : call.operation k₁ with
      | none => exact ih
      | some op => exact ⟨ih.1.op op, hstep ih.1 ih.2 (hcondition op hop)⟩

/-- The replies that calls give and the kernels that they lead to, when every entry they go to meets a condition. -/
inductive Logged (load : GuestProgram → Except TaskError GuestImageState) (condition : GuestKernel → KernelOp → Prop)
    (k₀ : GuestKernel) : List KernelReply → GuestKernel → Prop
  | start : Logged load condition k₀ [] k₀
  | step {k k' : GuestKernel} {replies : List KernelReply} {reply : KernelReply} (h : Logged load condition k₀ replies k)
      (call : KernelCall) (hcondition : ∀ op, call.operation k = some op → condition k op)
      (hrun : call.run load k = some (reply, k')) : Logged load condition k₀ (replies ++ [reply]) k'

theorem run_direct (load : GuestProgram → Except TaskError GuestImageState) (k : GuestKernel) (op : KernelOp) :
    KernelCall.run load k (.direct op) = some ((op.run load k).1, (op.run load k).2) := rfl

theorem Logged.direct {condition : GuestKernel → KernelOp → Prop} {k₀ : GuestKernel} {replies : List KernelReply}
    (h : Logged load condition k₀ replies k) (op : KernelOp) (hop : condition k op) :
    Logged load condition k₀ (replies ++ [(op.run load k).1]) (op.run load k).2 :=
  .step h (.direct op) (fun _ heq => Option.some.inj heq ▸ hop) (run_direct load k op)

theorem Logged.reached {condition : GuestKernel → KernelOp → Prop} {k₀ : GuestKernel} {replies : List KernelReply}
    (h : Logged load condition k₀ replies k) : Reached load condition k₀ k := by
  induction h with
  | start => exact .start
  | step _ call hcondition hrun ih => exact .step ih call hcondition hrun

def scan (k : GuestKernel) (p : TaskState → Bool) : SortedSet GuestTid :=
  SortedSet.keysWhere k.tasks fun _ task => p task.state

/-- The four indexes are the scans of the task states, with no empty futex queue, and every task's process
exists. -/
structure Exact (k : GuestKernel) : Prop where
  runnable : k.runnableTids = k.scan fun state => state = .runnable
  childWait : k.childWaitTids = k.scan TaskState.isWaitingForChild
  fdWait : k.fdWaitTids = k.scan TaskState.isWaitingForFd
  futexWait : ∀ key, k.futexWaitTids.get? key =
    let waiters := k.scan fun state => state = .waitingForFutex key
    if waiters.isEmpty then none else some waiters
  owned : ∀ tid task, k.task tid = some task → (k.process task.pid).isSome = true

theorem Consistent.exact (h : Consistent k) : Exact k where
  runnable := SortedSet.ext_mem fun j => by simp [h.indexes.runnable, scan]
  childWait := SortedSet.ext_mem fun j => by simp [h.indexes.childWait, scan]
  fdWait := SortedSet.ext_mem fun j => by simp [h.indexes.fdWait, scan]
  futexWait key := by
    have hqueue : k.futexQueue key = k.scan fun state => state = .waitingForFutex key :=
      SortedSet.ext_mem fun j => by simp [h.indexes.futexWait, scan]
    rw [← hqueue]
    dsimp only
    unfold futexQueue
    cases hget : k.futexWaitTids.get? key with
    | none => rw [if_pos (SortedSet.isEmpty_iff.mpr fun j => by simp)]
    | some waiters =>
        obtain ⟨j, hj⟩ := h.indexes.queueNonempty key waiters hget
        rw [Option.getD_some, if_neg fun hempty => SortedSet.isEmpty_iff.mp hempty j hj]
  owned tid task htask := by
    obtain ⟨process, hprocess⟩ := h.owned htask
    rw [hprocess, Option.isSome_some]

/-- Every run of the kernel returns, with the indexes a scan of the task states would make and no task without
its process. -/
theorem indexes_exact (load : GuestProgram → Except TaskError GuestImageState) (image : GuestImageState)
    (calls : List KernelCall) :
    ∃ replies k, KernelCall.runAll load calls (initial image) = some (replies, k) ∧ k.Exact := by
  obtain ⟨replies, k, hrun, hk⟩ := (consistent_initial image).runAll load calls
  exact ⟨replies, k, hrun, hk.exact⟩

end GuestKernel

end Mcr.Task
