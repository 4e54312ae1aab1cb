import Mcr.Task.Exec
import Mcr.Task.Reaping

/-!
# Numbers are used once

Pids and tids come from counters that only grow, so what a run finds under a number given out before was there before,
and what has gone does not come back.
-/

namespace Mcr.Task

variable {load : GuestProgram → Except TaskError GuestImageState} {condition : GuestKernel → KernelOp → Prop}
  {k₀ k k' : GuestKernel}

namespace GuestKernel

/-- The tasks of `k'` with numbers given out in `k` were there in `k`, in the same process. -/
structure OldTasks (k k' : GuestKernel) : Prop where
  nextTid : k.nextTid ≤ k'.nextTid
  task : ∀ tid < k.nextTid, ∀ task', k'.task tid = some task' → ∃ task, k.task tid = some task ∧ task'.pid = task.pid

structure UsedOnce (k k' : GuestKernel) : Prop extends OldTasks k k' where
  nextPid : k.nextPid ≤ k'.nextPid
  process : ∀ pid < k.nextPid, (k'.process pid).isSome = true → (k.process pid).isSome = true

theorem OldTasks.edit {scope : Scope} (h : OldTasks k₀ k) (hedit : KernelEdit scope k k') : OldTasks k₀ k' := by
  refine ⟨h.nextTid.trans hedit.nextTid_le, fun tid htid task' htask' => ?_⟩
  rcases hedit.owner htask' with ⟨between, hbetween, hpid⟩ | hnew
  · obtain ⟨task, htask, howner⟩ := h.task tid htid between hbetween
    exact ⟨task, htask, hpid.trans howner⟩
  · exact absurd (htid.trans_le h.nextTid) (not_lt.mpr hnew)

theorem UsedOnce.op (h : UsedOnce k₀ k) (hk : Consistent k) (op : KernelOp) : UsedOnce k₀ (op.run load k).2 := by
  refine ⟨(edits_of_op hk op).preserves (fun hedit hold => hold.edit hedit) h.toOldTasks,
    h.nextPid.trans (handsOver_of_op hk op).next, fun pid hpid hsome => h.process pid hpid ?_⟩
  exact ((handsOver_of_op hk op).born pid hsome).resolve_right (not_le.mpr (hpid.trans_le h.nextPid))

/-- In every run a number names one process and one task. No process or task that has gone comes back, no task
changes its process, and no task that has exited runs again as long as only live ones act. -/
theorem numbers_used_once {image : GuestImageState} (h : Reached load (fun _ _ => True) (initial image) k)
    (hrun : Reached load condition k k') :
    UsedOnce k k' ∧ ((∀ k op, condition k op → k.ActsLive op) → ∀ tid, k.Over tid → k'.Over tid) := by
  obtain ⟨hk, -⟩ := h.preserves (P := fun _ => True) (consistent_initial image) trivial fun _ _ _ => trivial
  refine ⟨(hrun.preserves (P := UsedOnce k) hk ?_ fun hk hold _ => hold.op hk _).2, fun hlive tid hover => ?_⟩
  · exact ⟨⟨le_rfl, fun _ _ task htask => ⟨task, htask, rfl⟩⟩, le_rfl, fun _ _ => id⟩
  · exact (hrun.preserves (P := fun k => k.Over tid) hk hover fun hk hover hop => hover.op hk (hlive _ _ hop)).2

/-- A child is reaped and another one forked, which does not get its number. -/
theorem numbers_used_once_reaped : ∃ k k', UsedOnce k k' ∧ k.nextPid = 3 ∧ (k'.process 2).isNone = true ∧
    (k'.process 3).isSome = true := by
  have hrun : ∀ k, Reached (fun _ => .ok sampleImage) (fun _ _ => True) k k := fun _ => .start
  have hchild := ((hrun (initial sampleImage)).direct (.forkChild 1) trivial).direct (.exitGroup 2 7) trivial
  refine ⟨_, _, (numbers_used_once hchild (((hrun _).direct (.wait4Child 1 ⟨-1, 0, 0, 0⟩) trivial).direct
    (.forkChild 1) trivial)).1, ?_, ?_, ?_⟩ <;> decide +kernel

end GuestKernel

end Mcr.Task
