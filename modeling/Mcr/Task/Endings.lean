import Mcr.Task.Reaping

/-!
# How processes end

A process ends by an exit of its last task, by an exit of the whole group, or by a signal whose default action
terminates it. The kernel keeps only a status, and the waits encode it as the status word of an exit. The history of
a run says which ending it was, so that the two can be compared.
-/

namespace Mcr.Task

/-! ### Status words -/

def wtermsig (word : Nat) : Nat := word &&& 0x7f

def wifexited (word : Nat) : Prop := wtermsig word = 0

def wexitstatus (word : Nat) : Nat := (word >>> 8) &&& 0xff

def wifsignaled (word : Nat) : Prop := 0 < wtermsig word ∧ wtermsig word < 0x7f

/-- The way a process ended; the status of an exit is the register it was called with. -/
inductive Ending
  | exited (status : Nat)
  | killed (signal : Nat)
deriving DecidableEq, Repr

def Ending.status : Ending → Int
  | .exited status => lowExitStatus status
  | .killed signal => signalExitStatus signal

/-- The word tells the ending apart from all others. -/
def Ending.Decodes : Ending → Nat → Prop
  | .exited status, word => wifexited word ∧ ¬wifsignaled word ∧ wexitstatus word = status &&& 0xff
  | .killed signal, word => wifsignaled word ∧ ¬wifexited word ∧ wtermsig word = signal

/-- The word shows an exit; that of a process killed by a signal has 128 and the signal for its status. -/
def Ending.Shows (ending : Ending) (word : Nat) : Prop :=
  wifexited word ∧ ¬wifsignaled word ∧ wexitstatus word = match ending with
    | .exited status => status &&& 0xff
    | .killed signal => 128 + signal

theorem wtermsig_shifted (n : Nat) : wtermsig (n <<< 8) = 0 := by
  unfold wtermsig
  rw [show 0x7f = 2 ^ 7 - 1 from rfl, Nat.and_two_pow_sub_one_eq_mod, Nat.shiftLeft_eq]
  omega

/-- The ending is one that the kernel lets happen. -/
def Ending.Possible : Ending → Prop
  | .exited _ => True
  | .killed signal => defaultSignalAction signal = .terminate

theorem lt_of_terminates {signal : Nat} (h : defaultSignalAction signal = .terminate) : signal < 32 := by
  unfold defaultSignalAction at h
  split at h
  · rename_i hmem
    revert hmem
    simp only [List.mem_cons, List.not_mem_nil, or_false]
    omega
  · cases h

theorem Ending.shows_status {ending : Ending} (h : ending.Possible) :
    ending.Shows (linuxWaitExitStatus ending.status) := by
  unfold linuxWaitExitStatus
  refine ⟨wtermsig_shifted _, fun hsignaled => absurd (wtermsig_shifted _) hsignaled.1.ne', ?_⟩
  unfold wexitstatus
  rw [Nat.shiftLeft_shiftRight, Nat.and_assoc, Nat.and_self]
  cases ending with
  | exited status =>
      have hlow : status &&& 0xff < 256 := Nat.lt_of_le_of_lt Nat.and_le_right (by decide)
      have hword : ((lowExitStatus status % 2 ^ 32).toNat) = status &&& 0xff := by
        unfold lowExitStatus
        omega
      simp only [Ending.status]
      rw [hword, Nat.and_assoc, Nat.and_self]
  | killed signal =>
      have hsmall := lt_of_terminates h
      have hword : (signalExitStatus signal % 2 ^ 32).toNat = 128 + signal := by
        unfold signalExitStatus
        omega
      simp only [Ending.status]
      rw [hword, show 0xff = 2 ^ 8 - 1 from rfl, Nat.and_two_pow_sub_one_eq_mod, Nat.mod_eq_of_lt (by omega)]

def KernelOp.exitStatus : KernelOp → Int
  | .exitTask _ status | .exitGroup _ status => status
  | _ => 0

namespace GuestKernel

variable {k k' : GuestKernel} {load : GuestProgram → Except TaskError GuestImageState} {scope : Scope}

/-! ### Exit states -/

def exitOf (k : GuestKernel) (pid : GuestPid) : Option ExitState := (k.process pid).map GuestProcess.exitState

theorem exitOf_modifyProcess (k : GuestKernel) (pid j : GuestPid) {f : GuestProcess → GuestProcess}
    (hf : ∀ process, (f process).exitState = process.exitState) : (k.modifyProcess pid f).exitOf j = k.exitOf j := by
  unfold exitOf
  rw [process_modifyProcess]
  split
  · rename_i hj
    rw [hj, Option.map_map]
    exact congrArg (Option.map · _) (funext hf)
  · rfl

theorem QuietEdit.exitOf (h : QuietEdit scope k k') (pid : GuestPid) : k'.exitOf pid = k.exitOf pid := by
  rcases h.cases with ⟨tid, f, rfl, -⟩ | ⟨j, f, rfl, hf⟩ | ⟨tid, state, rfl⟩
  · rfl
  · exact exitOf_modifyProcess k j pid fun process => (hf process).2.2.2
  · unfold GuestKernel.exitOf
    rw [process_setTaskState]

theorem Quiet.exitOf (h : Quiet scope k k') (pid : GuestPid) : k'.exitOf pid = k.exitOf pid := by
  induction h with
  | refl => rfl
  | tail _ hedit ih => rw [hedit.exitOf, ih]

/-- What exits leave alone: a process that has exited had done so before, with the same status. -/
def KeepsExits (k k' : GuestKernel) : Prop :=
  ∀ pid status, k'.exitOf pid = some (.exited status) → k.exitOf pid = some (.exited status)

theorem KernelEdit.keepsExits (h : KernelEdit scope k k') (hexits : ¬scope.exits) : KeepsExits k k' := by
  intro pid status hexit
  cases h with
  | quiet h => rwa [h.exitOf] at hexit
  | ended _ _ h => exact absurd h hexits
  | image j image =>
      unfold exitOf at hexit ⊢
      rw [process_modifyProcess] at hexit
      split at hexit
      · -- an image can only be loaded into a process that runs again
        rw [Option.map_map] at hexit
        obtain ⟨process, -, hrunning⟩ := Option.map_eq_some_iff.mp hexit
        cases hrunning
      · exact hexit
  | revive tid =>
      unfold exitOf at hexit ⊢
      rwa [process_setTaskState] at hexit
  | spendPid => exact hexit
  | fork tid parentTask parent =>
      unfold insertFork at hexit
      rw [exitOf_modifyProcess, exitOf, process_insertTask, process, SortedMap.get?_insert] at hexit
      · split at hexit
        · cases hexit
        · exact hexit
      · exact fun _ => rfl
  | thread tid parentTask =>
      unfold exitOf at hexit ⊢
      rwa [process_insertTask] at hexit
  | reap parentPid childPid parent child =>
      rw [exitOf_modifyProcess, exitOf, process_withoutProcess] at hexit
      · split at hexit
        · cases hexit
        · exact hexit
      · exact fun _ => rfl

theorem keepsExits_of_op (hk : Consistent k) {op : KernelOp} (h : op.exits = false) :
    KeepsExits k (op.run load k).2 := by
  refine Edits.preserves (P := KeepsExits k) ?_ (edits_of_op hk op) (fun _ _ hexit => hexit)
  intro k₁ k₂ hedit hkept pid status hexit
  exact hkept pid status (hedit.keepsExits (fun hexits => absurd (h.symm.trans hexits) Bool.false_ne_true) pid status hexit)

/-! ### The two exits -/

theorem exitOf_finishProcess (hk : Named k) (pid j : GuestPid) (status : Int) :
    (k.finishProcess pid status).exitOf j =
      if j = pid then (k.exitOf pid).map fun _ => .exited status else k.exitOf j := by
  rw [Quiet.exitOf (finishProcess_quiet hk pid status), exitOf, process_modifyProcess]
  split
  · rw [exitOf, Option.map_map, Option.map_map]
    rfl
  · rfl

def endedBy (k : GuestKernel) : KernelOp → Option GuestPid
  | .exitTask tid status =>
    (k.task tid).bind fun task =>
      if (k.setTaskState tid (.exited status)).allTasksExited task.pid then some task.pid else none
  | .exitGroup pid _ => (k.process pid).map fun _ => pid
  | _ => none

theorem exitOf_ended {pid : GuestPid} (h : (k.process pid).isSome = true) (status : Int) :
    ((k.exitOf pid).map fun _ => ExitState.exited status) = some (.exited status) := by
  obtain ⟨process, hprocess⟩ := Option.isSome_iff_exists.mp h
  rw [exitOf, hprocess]
  rfl

theorem exitOf_exitTask (hk : Consistent k) (tid : GuestTid) (status : Int) (j : GuestPid) :
    (k.exitTask tid status).2.exitOf j =
      if k.endedBy (.exitTask tid status) = some j then some (.exited status) else k.exitOf j := by
  cases htask : k.task tid with
  | none =>
      simp only [exitTask, endedBy, htask, Option.bind_none]
      rw [if_neg (by rintro ⟨⟩)]
  | some task =>
      have hquiet : Quiet .ends k
          (k.setTaskState tid (.exited status)) := .single (.exit tid status trivial)
      obtain ⟨process, hprocess⟩ := hk.owned htask
      simp only [exitTask, endedBy, htask, Option.bind_some]
      by_cases hall : (k.setTaskState tid (.exited status)).allTasksExited task.pid = true
      · simp only [if_pos hall, Option.some.injEq]
        rw [exitOf_finishProcess (hquiet.named hk.named), hquiet.exitOf, hquiet.exitOf]
        by_cases hj : j = task.pid
        · rw [if_pos hj, if_pos hj.symm, exitOf_ended (by rw [hprocess]; rfl)]
        · rw [if_neg hj, if_neg (Ne.symm hj)]
      · simp only [if_neg hall]
        rw [hquiet.exitOf, if_neg (by rintro ⟨⟩)]

theorem exitOf_exitGroup (hk : Consistent k) (pid : GuestPid) (status : Int) (j : GuestPid) :
    (k.exitGroup pid status).2.exitOf j =
      if k.endedBy (.exitGroup pid status) = some j then some (.exited status) else k.exitOf j := by
  cases hprocess : k.process pid with
  | none =>
      simp only [exitGroup, endedBy, hprocess, Option.map_none]
      rw [if_neg (by rintro ⟨⟩)]
  | some process =>
      have hquiet : Quiet .ends k
          ((k.tidsOf pid).foldl (fun k tid => k.setTaskState tid (.exited status)) k) :=
        exitEach_quiet (k.tidsOf pid) status trivial k
      simp only [exitGroup, endedBy, hprocess, Option.map_some, Option.some.injEq]
      rw [exitOf_finishProcess (hquiet.named hk.named), hquiet.exitOf, hquiet.exitOf]
      by_cases hj : j = pid
      · rw [if_pos hj, if_pos hj.symm, exitOf_ended (by rw [hprocess]; rfl)]
      · rw [if_neg hj, if_neg (Ne.symm hj)]

theorem exitOf_of_exit (hk : Consistent k) {op : KernelOp} (h : op.exits = true) (j : GuestPid) :
    (op.run load k).2.exitOf j = if k.endedBy op = some j then some (.exited op.exitStatus) else k.exitOf j := by
  cases op with
  | exitTask tid status => exact exitOf_exitTask hk tid status j
  | exitGroup pid status => exact exitOf_exitGroup hk pid status j
  | _ => nomatch h

/-! ### Numbers of processes -/

/-- The numbers given out, and the next one, fit a register of 32 bits. -/
def SmallPids (k : GuestKernel) : Prop := k.nextPid < 2 ^ 32

theorem smallPids_initial (image : GuestImageState) : SmallPids (initial image) := by
  unfold SmallPids initial
  rw [(next_insertTask _ _).1]
  show initialGuestPid + 1 < 2 ^ 32
  decide

theorem KernelEdit.smallPids (h : KernelEdit scope k k') (hsmall : SmallPids k) : SmallPids k' := by
  unfold SmallPids at hsmall ⊢
  cases h with
  | quiet h =>
      rcases h.cases with ⟨tid, f, rfl, -⟩ | ⟨j, f, rfl, -⟩ | ⟨tid, state, rfl⟩
      · exact hsmall
      · exact hsmall
      · rwa [(next_setTaskState k tid state).1]
  | ended => exact hsmall
  | image => exact hsmall
  | revive tid => rwa [(next_setTaskState k tid .runnable).1]
  | spendPid hbound => exact hbound
  | fork tid parentTask parent _ _ _ _ hbound =>
      change (GuestKernel.insertTask _ _).nextPid < _
      rwa [(next_insertTask _ _).1]
  | thread => rwa [(next_insertTask _ _).1]
  | reap parentPid childPid =>
      change (k.withoutProcess childPid).nextPid < _
      rwa [next_withoutProcess]

theorem smallPids_of_op (hk : Consistent k) (hsmall : SmallPids k) (op : KernelOp) : SmallPids (op.run load k).2 :=
  Edits.preserves (fun hedit => hedit.smallPids) (edits_of_op hk op) hsmall

end GuestKernel

end Mcr.Task
