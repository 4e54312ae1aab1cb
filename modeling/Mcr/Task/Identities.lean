import Mcr.Task.Interrupts

/-!
# Pids and tids

The two kinds of identity come from two counters. As long as every process is forked while the counters are equal,
the first task of a process has the process's identity for its own, and an identity of a process is never that of a
task of another.
-/

namespace Mcr.Task

/-- The task a fork is made for, if the entry is one and its flags are those of a fork. -/
def KernelOp.forker : KernelOp → Option GuestTid
  | .forkChild tid | .forkLike tid _ _ => some tid
  | .clone tid args _ | .cloneWithChildRegs tid args _ =>
    if args.hasCloneThread = false ∧ isSupportedForkLikeClone args.flags = true then some tid else none
  | _ => none

/-- The number a signal is sent to. -/
def SignalTarget.identity : SignalTarget → Nat
  | .process pid => pid
  | .task tid => tid

def linuxFutexTidMask : BitVec 32 := 0x3fffffff

namespace GuestKernel

variable {k k' : GuestKernel} {scope : Scope} {load : GuestProgram → Except TaskError GuestImageState}

/-! ### Lookups by number -/

def schedTargetExists (k : GuestKernel) (currentPid : GuestPid) (requestedPid : Nat) : Bool :=
  if requestedPid = 0 then true
  else if 2 ^ 32 ≤ requestedPid then false
  else (k.task requestedPid).isSome || (k.process requestedPid).isSome || currentPid == requestedPid

/-- The lookup of `sched_getaffinity`, which takes the low half of its argument. -/
def schedAffinityTarget (k : GuestKernel) (requestedTid : Nat) : Option GuestTask := k.task (requestedTid % 2 ^ 32)

/-- The word of a robust futex names the task: `wake_robust_futex`. -/
def namesOwner (word : BitVec 32) (tid : GuestTid) : Bool := word &&& linuxFutexTidMask == BitVec.ofNat 32 tid

def targetOwner (k : GuestKernel) : SignalTarget → Option GuestPid
  | .process pid => (k.process pid).map GuestProcess.pid
  | .task tid => k.ownerOf tid

/-- A call that is given the number, or gives it, is about the process. -/
inductive Addresses (k : GuestKernel) (id : Nat) : GuestPid → Prop
  | signal {op : KernelOp} {target : SignalTarget} {sig : Nat} {owner : GuestPid}
      (hsends : op.sends = some (target, sig)) (hid : target.identity = id)
      (howner : k.targetOwner target = some owner) : Addresses k id owner
  | setTidAddress {tid : GuestTid} {tidptr : GuestAddress} {owner : GuestPid}
      (hreply : (k.setTidAddressCurrent tid tidptr).1 = .success id) (howner : k.ownerOf tid = some owner) :
      Addresses k id owner
  | robustList {word : BitVec 32} {tid : GuestTid} {owner : GuestPid} (hword : namesOwner word tid = true)
      (hid : (word &&& linuxFutexTidMask).toNat = id) (hbound : tid < 2 ^ 32) (howner : k.ownerOf tid = some owner) :
      Addresses k id owner
  | schedTask {currentPid owner : GuestPid} (hexists : k.schedTargetExists currentPid id = true)
      (howner : k.ownerOf id = some owner) : Addresses k id owner
  | schedAffinity {requestedTid : Nat} {task : GuestTask} (hid : requestedTid % 2 ^ 32 = id)
      (htask : k.schedAffinityTarget requestedTid = some task) : Addresses k id task.pid

/-- Pids and tids are one namespace: every process has a leader, which keeps its tid when it exits, and no tid is the
pid of another process. -/
structure OneNamespace (k : GuestKernel) : Prop where
  leader : ∀ pid process, k.process pid = some process → ∃ task, k.task pid = some task ∧ task.pid = pid
  apart : ∀ tid task, k.task tid = some task → (k.process tid).isSome = true → task.pid = tid
  addressed : ∀ id owner, (k.process id).isSome = true → k.Addresses id owner → owner = id

/-! ### Leaders -/

/-- Every process has a task of its own number. -/
def Led (k : GuestKernel) : Prop := ∀ pid, (k.process pid).isSome = true → k.ownerOf pid = some pid

theorem ownerOf_of_task {tid : GuestTid} {task : GuestTask} (h : k.task tid = some task) :
    k.ownerOf tid = some task.pid := by
  rw [ownerOf, h, Option.map_some]

theorem Led.addressed (hk : Consistent k) (h : Led k) {id : Nat} {owner : GuestPid}
    (hid : (k.process id).isSome = true) (haddresses : k.Addresses id owner) : owner = id := by
  have hleader : ∀ {tid : GuestTid} {pid : GuestPid}, tid = id → k.ownerOf tid = some pid → pid = id := by
    intro tid pid htid howner
    rw [htid, h id hid] at howner
    exact (Option.some.inj howner).symm
  cases haddresses with
  | signal hsends hid howner =>
      rename_i op target sig
      cases target with
      | process pid =>
          obtain ⟨process, hprocess, hpid⟩ := Option.map_eq_some_iff.mp howner
          exact (hpid.symm.trans (hk.processNamed hprocess)).trans hid
      | task tid => exact hleader hid howner
  | setTidAddress hreply howner =>
      rename_i tid tidptr
      obtain ⟨task, htask, -⟩ := Option.map_eq_some_iff.mp howner
      rw [setTidAddressCurrent, htask] at hreply
      have hresult : SyscallReturn.success tid = SyscallReturn.success id := congrArg SyscallOutcome.result hreply
      exact hleader (SyscallReturn.success.inj hresult) howner
  | robustList hword hid hbound howner =>
      rename_i word tid
      have htid : (BitVec.ofNat 32 tid).toNat = id := by
        rw [← eq_of_beq hword]
        exact hid
      rw [BitVec.toNat_ofNat, Nat.mod_eq_of_lt hbound] at htid
      exact hleader htid howner
  | schedTask hexists howner => exact hleader rfl howner
  | schedAffinity hid htask => exact hleader hid (ownerOf_of_task htask)

theorem oneNamespace_iff (hk : Consistent k) : OneNamespace k ↔ Led k := by
  constructor
  · intro h pid hpid
    obtain ⟨process, hprocess⟩ := Option.isSome_iff_exists.mp hpid
    obtain ⟨task, htask, howner⟩ := h.leader pid process hprocess
    rw [ownerOf_of_task htask, howner]
  · intro h
    refine ⟨fun pid process hprocess => ?_, fun tid task htask hprocess => ?_, fun id owner => h.addressed hk⟩
    · exact Option.map_eq_some_iff.mp (h pid (by rw [hprocess, Option.isSome_some]))
    · have howner := h tid hprocess
      rw [ownerOf_of_task htask] at howner
      exact Option.some.inj howner

/-! ### Entries that make no task -/

/-- The same numbers name the same processes and tasks. -/
structure SameIdentities (k k' : GuestKernel) : Prop where
  owner : ∀ tid, k'.ownerOf tid = k.ownerOf tid
  process : ∀ pid, (k'.process pid).isSome = (k.process pid).isSome

theorem SameIdentities.led_iff (h : SameIdentities k k') : Led k' ↔ Led k := by
  unfold Led
  simp only [h.owner, h.process]

theorem sameIdentities_modifyTask (k : GuestKernel) (tid : GuestTid) {f : GuestTask → GuestTask}
    (hf : ∀ task, (f task).pid = task.pid) : SameIdentities k (k.modifyTask tid f) :=
  ⟨map_modifyTask hf k tid, fun _ => rfl⟩

theorem sameIdentities_modifyProcess (k : GuestKernel) (pid : GuestPid) (f : GuestProcess → GuestProcess) :
    SameIdentities k (k.modifyProcess pid f) := by
  refine ⟨fun _ => rfl, fun j => ?_⟩
  rw [process_modifyProcess]
  split
  · rename_i hj
    rw [hj, Option.isSome_map]
  · rfl

theorem sameIdentities_setTaskState (k : GuestKernel) (tid : GuestTid) (state : TaskState) :
    SameIdentities k (k.setTaskState tid state) :=
  ⟨fun j => steady_pid.setTaskState k tid j state, fun j => by rw [process_setTaskState]⟩

theorem QuietEdit.sameIdentities (h : QuietEdit scope k k') : SameIdentities k k' := by
  rcases h.cases with ⟨tid, f, rfl, hf⟩ | ⟨pid, f, rfl, -⟩ | ⟨tid, state, rfl⟩
  · exact sameIdentities_modifyTask k tid fun task => (hf task).2.1
  · exact sameIdentities_modifyProcess k pid f
  · exact sameIdentities_setTaskState k tid state

theorem KernelEdit.led (h : KernelEdit scope k k') (hbirths : ¬scope.births) (hk : Consistent k) (hled : Led k) :
    Led k' := by
  cases h with
  | quiet h => exact h.sameIdentities.led_iff.mpr hled
  | ended pid status => exact (sameIdentities_modifyProcess k pid _).led_iff.mpr hled
  | image pid image => exact (sameIdentities_modifyProcess k pid _).led_iff.mpr hled
  | revive tid => exact (sameIdentities_setTaskState k tid .runnable).led_iff.mpr hled
  | spendPid => exact hled
  | fork _ _ _ _ _ _ h _ => exact absurd h hbirths
  | thread _ _ _ _ _ _ h => exact absurd h hbirths
  | reap parentPid childPid =>
      refine (sameIdentities_modifyProcess _ parentPid _).led_iff.mpr ?_
      -- the tasks of the child go with it, and the leaders of the others stay
      intro pid hpid
      rw [process_withoutProcess] at hpid
      split at hpid
      · exact absurd hpid Bool.false_ne_true
      · rename_i hne
        obtain ⟨task, htask, howner⟩ := Option.map_eq_some_iff.mp (hled pid hpid)
        have hstays := hk.task_withoutProcess.mpr ⟨htask, howner.symm ▸ hne⟩
        rw [ownerOf_of_task hstays, howner]

theorem Edits.led (h : Edits scope k k') (hbirths : ¬scope.births) (hk : Consistent k) (hled : Led k) : Led k' :=
  h.preserves_consistent (fun hedit hk hled => hedit.led hbirths hk hled) hk hled

/-! ### Forks and threads -/

/-- A fork for the task succeeds: its process runs, and no counter is at its end. -/
def CanFork (k : GuestKernel) (tid : GuestTid) : Prop :=
  ∃ parentTask parent, k.task tid = some parentTask ∧ k.process parentTask.pid = some parent ∧
    parent.exitState = .running ∧ (checkedSucc k.nextPid).isSome = true ∧ (checkedSucc k.nextTid).isSome = true

theorem canFork_iff (k : GuestKernel) (tid : GuestTid) :
    k.CanFork tid ↔ ∃ ids, (k.forkChildTask tid).1 = .ok ids := by
  constructor
  · intro h
    obtain ⟨parentTask, parent, htask, hparent, hrunning, hpid, htid⟩ := h
    obtain ⟨pid, hpid⟩ := Option.isSome_iff_exists.mp hpid
    obtain ⟨next, htid⟩ := Option.isSome_iff_exists.mp htid
    refine ⟨(k.nextPid, k.nextTid), ?_⟩
    rw [forkChildTask, htask]
    dsimp only
    rw [hparent]
    dsimp only
    rw [if_neg (not_not.mpr hrunning), allocatePid, hpid]
    dsimp only
    rw [allocateTid, htid]
  · intro h
    obtain ⟨ids, hok⟩ := h
    rw [forkChildTask] at hok
    cases htask : k.task tid with
    | none =>
        rw [htask] at hok
        exact nomatch hok
    | some parentTask =>
        rw [htask] at hok
        dsimp only at hok
        cases hparent : k.process parentTask.pid with
        | none =>
            rw [hparent] at hok
            exact nomatch hok
        | some parent =>
            rw [hparent] at hok
            dsimp only at hok
            split at hok
            · exact nomatch hok
            · rename_i hrunning
              cases hpid : checkedSucc k.nextPid with
              | none =>
                  rw [allocatePid, hpid] at hok
                  exact nomatch hok
              | some pid =>
                  rw [allocatePid, hpid] at hok
                  dsimp only at hok
                  cases htid : checkedSucc k.nextTid with
                  | none =>
                      rw [allocateTid, htid] at hok
                      exact nomatch hok
                  | some next =>
                      exact ⟨parentTask, parent, htask, hparent, not_not.mp hrunning, by rw [hpid]; rfl, by rw [htid]; rfl⟩

/-- The child of a fork is led if and only if its two identities are equal. -/
theorem led_insertFork_iff (hk : Consistent k) (hled : Led k) (parentTask : GuestTask) (parent : GuestProcess) :
    Led ({ k with nextPid := k.nextPid + 1, nextTid := k.nextTid + 1 }.insertFork parentTask parent k.nextPid k.nextTid) ↔
      k.nextPid = k.nextTid := by
  have howner : ∀ j, ({ k with nextPid := k.nextPid + 1, nextTid := k.nextTid + 1 }.insertFork parentTask parent
      k.nextPid k.nextTid).ownerOf j = if j = k.nextTid then some k.nextPid else k.ownerOf j := by
    intro j
    rw [insertFork, ownerOf, task_modifyProcess, task_insertTask]
    change Option.map GuestTask.pid (if j = k.nextTid then _ else _) = _
    split <;> rfl
  have hprocess : ∀ j, (({ k with nextPid := k.nextPid + 1, nextTid := k.nextTid + 1 }.insertFork parentTask parent
      k.nextPid k.nextTid).process j).isSome = true ↔ j = k.nextPid ∨ (k.process j).isSome = true := by
    intro j
    rw [insertFork, (sameIdentities_modifyProcess _ parentTask.pid _).process, process_insertTask]
    change (SortedMap.get? (k.processes.insert k.nextPid _) j).isSome = true ↔ _
    rw [SortedMap.get?_insert]
    by_cases hj : j = k.nextPid
    · rw [if_pos hj]
      exact ⟨fun _ => Or.inl hj, fun _ => rfl⟩
    · rw [if_neg hj]
      exact ⟨Or.inr, fun h => h.resolve_left hj⟩
  constructor
  · intro h
    by_contra hne
    -- the only task of the child has another number, and no task was of a process with the child's
    have hchild := h k.nextPid ((hprocess _).mpr (Or.inl rfl))
    rw [howner, if_neg hne] at hchild
    obtain ⟨task, htask, hpid⟩ := Option.map_eq_some_iff.mp hchild
    obtain ⟨process, hold⟩ := hk.owned htask
    exact absurd (hk.pidBound hold) (by rw [hpid]; exact lt_irrefl _)
  · intro h j hj
    rw [howner]
    rcases (hprocess j).mp hj with hchild | hold
    · rw [if_pos (hchild.trans h), hchild]
    · obtain ⟨process, hold'⟩ := Option.isSome_iff_exists.mp hold
      rw [if_neg (h ▸ (hk.pidBound hold').ne), hled j hold]

theorem led_insertThread (hk : Consistent k) (hled : Led k) {task : GuestTask} (htid : task.tid = k.nextTid) :
    Led ({ k with nextTid := k.nextTid + 1 }.insertTask task) := by
  intro j hj
  rw [process_insertTask] at hj
  obtain ⟨leader, hleader, hpid⟩ := Option.map_eq_some_iff.mp (hled j hj)
  have hne : j ≠ task.tid := fun h => absurd (hk.tidBound hleader) (by rw [h, htid]; exact lt_irrefl _)
  rw [ownerOf, task_insertTask, if_neg hne]
  exact hled j hj

/-- A fork is made while the counters are equal. -/
def ForksAligned (k : GuestKernel) (op : KernelOp) : Prop :=
  ∀ tid, op.forker = some tid → k.CanFork tid → k.nextPid = k.nextTid

theorem led_forkChildTask_iff (hk : Consistent k) (hled : Led k) (tid : GuestTid) :
    Led (k.forkChildTask tid).2 ↔ (k.CanFork tid → k.nextPid = k.nextTid) := by
  have hcan := canFork_iff k tid
  rcases forkChildTask_cases k tid with
    ⟨e, hfork⟩ | ⟨-, e, hfork⟩ | ⟨parentTask, parent, htask, hparent, hrunning, -, hfork⟩
  · rw [hfork] at hcan ⊢
    exact iff_of_true hled fun h => nomatch hcan.mp h
  · rw [hfork] at hcan ⊢
    exact iff_of_true hled fun h => nomatch hcan.mp h
  · rw [hfork] at hcan ⊢
    have hforks : k.CanFork tid := hcan.mpr ⟨_, rfl⟩
    exact (led_insertFork_iff hk hled parentTask parent).trans ⟨fun h _ => h, fun h => h hforks⟩

theorem forkChild_state (k : GuestKernel) (tid : GuestTid) : (k.forkChild tid).2 = (k.forkChildTask tid).2 := by
  unfold forkChild
  cases k.forkChildTask tid with
  | mk result k₁ => cases result <;> rfl

theorem led_forkLikeCurrent_iff (k : GuestKernel) (tid : GuestTid) (childRegs : GprState → GprState)
    (blockParentForVfork : Bool) :
    Led (k.forkLikeCurrent tid childRegs blockParentForVfork).2 ↔ Led (k.forkChildTask tid).2 := by
  unfold forkLikeCurrent
  cases k.forkChildTask tid with
  | mk result k₁ =>
      cases result with
      | error e => exact Iff.rfl
      | ok ids =>
          obtain ⟨childPid, childTid⟩ := ids
          have hregs := (sameIdentities_modifyTask k₁ childTid (f := fun task =>
            { task with regs := childRegs task.regs }) fun _ => rfl).led_iff
          dsimp only
          split
          · exact (sameIdentities_setTaskState _ tid _).led_iff.trans hregs
          · exact hregs

theorem led_threadCurrentWithChildRegs (hk : Consistent k) (hled : Led k) (tid : GuestTid) (args : CloneSyscallArgs)
    (childRegs : GprState) : Led (k.threadCurrentWithChildRegs tid args childRegs).2 := by
  unfold threadCurrentWithChildRegs
  split
  · exact hled
  · split
    · exact hled
    · split
      · exact hled
      · split
        · exact hled
        · rename_i childTid k₁ hallocated
          obtain ⟨rfl, rfl⟩ := allocateTid_ok hallocated
          exact led_insertThread hk hled rfl

theorem led_cloneCurrentWithChildRegs_iff (hk : Consistent k) (hled : Led k) (tid : GuestTid) (args : CloneSyscallArgs)
    (childRegs : GprState) :
    Led (k.cloneCurrentWithChildRegs tid args childRegs).2 ↔
      k.ForksAligned (.cloneWithChildRegs tid args childRegs) := by
  unfold cloneCurrentWithChildRegs ForksAligned
  dsimp only [KernelOp.forker]
  by_cases hthread : args.hasCloneThread = true
  · rw [if_pos hthread, if_neg fun h => absurd (hthread.symm.trans h.1) Bool.true_eq_false.mp]
    exact iff_of_true (led_threadCurrentWithChildRegs hk hled tid args childRegs) nofun
  · rw [if_neg hthread]
    cases hflags : isSupportedForkLikeClone args.flags with
    | false => exact iff_of_true hled fun j hj => by simp at hj
    | true =>
        rw [if_neg (by decide), if_pos ⟨Bool.eq_false_iff.mpr hthread, rfl⟩, led_forkLikeCurrent_iff,
          led_forkChildTask_iff hk hled]
        exact ⟨fun h j hj => Option.some.inj hj ▸ h, fun h => h tid rfl⟩

theorem led_cloneCurrentWithReturn_iff (hk : Consistent k) (hled : Led k) (tid : GuestTid) (args : CloneSyscallArgs)
    (childReturnRip : GuestAddress) :
    Led (k.cloneCurrentWithReturn tid args childReturnRip).2 ↔ k.ForksAligned (.clone tid args childReturnRip) := by
  cases htask : k.task tid with
  | none =>
      have hstays : (k.cloneCurrentWithReturn tid args childReturnRip).2 = k := by
        unfold cloneCurrentWithReturn
        rw [htask]
        repeat' split
        all_goals first | rfl | contradiction
      rw [hstays]
      refine iff_of_true hled fun j hj hcan => ?_
      obtain ⟨parentTask, _, hparent, -⟩ := hcan
      have htid : tid = j := by
        dsimp only [KernelOp.forker] at hj
        split at hj
        · exact Option.some.inj hj
        · exact nomatch hj
      rw [← htid, htask] at hparent
      exact nomatch hparent
  | some task =>
      have heq : k.cloneCurrentWithReturn tid args childReturnRip =
          k.cloneCurrentWithChildRegs tid args (task.regs.withSyscallReturn childReturnRip 0) := by
        unfold cloneCurrentWithReturn cloneCurrentWithChildRegs
        rw [htask]
      rw [heq]
      exact led_cloneCurrentWithChildRegs_iff hk hled tid args _

theorem births_of_forker {op : KernelOp} {tid : GuestTid} (h : op.forker = some tid) : op.births = true := by
  cases op with
  | forkChild tid => rfl
  | forkLike tid childRegs blockParentForVfork => rfl
  | clone tid args childReturnRip => rfl
  | cloneWithChildRegs tid args childRegs => rfl
  | _ => exact nomatch h

/-- Every entry keeps the leaders exactly if it makes no child while the counters differ. -/
theorem led_op_iff (hk : Consistent k) (hled : Led k) (op : KernelOp) :
    Led (op.run load k).2 ↔ k.ForksAligned op := by
  cases hbirths : op.births with
  | false =>
      have hscope : ¬op.scope.births := fun h => absurd (hbirths.symm.trans h) Bool.false_ne_true
      refine iff_of_true (Edits.led (edits_of_op hk op) hscope hk hled) fun tid htid => ?_
      exact absurd (hbirths.symm.trans (births_of_forker htid)) Bool.false_ne_true
  | true =>
      cases op with
      | forkChild tid =>
          change Led (k.forkChild tid).2 ↔ _
          rw [forkChild_state, led_forkChildTask_iff hk hled]
          exact ⟨fun h j hj => Option.some.inj hj ▸ h, fun h => h tid rfl⟩
      | forkLike tid childRegs blockParentForVfork =>
          change Led (k.forkLikeCurrent tid childRegs blockParentForVfork).2 ↔ _
          rw [led_forkLikeCurrent_iff, led_forkChildTask_iff hk hled]
          exact ⟨fun h j hj => Option.some.inj hj ▸ h, fun h => h tid rfl⟩
      | clone tid args childReturnRip => exact led_cloneCurrentWithReturn_iff hk hled tid args childReturnRip
      | cloneWithChildRegs tid args childRegs => exact led_cloneCurrentWithChildRegs_iff hk hled tid args childRegs
      | _ => exact absurd hbirths Bool.false_ne_true

/-! ### Runs -/

theorem led_initial (image : GuestImageState) : Led (initial image) := by
  intro pid hpid
  have hprocess : (initial image).process pid = if pid = initialGuestPid then _ else _ :=
    SortedMap.get?_insert .empty initialGuestPid pid (initialProcess initialGuestPid image)
  rw [hprocess] at hpid
  split at hpid
  · rename_i hfirst
    rw [hfirst]
    rfl
  · exact absurd hpid Bool.false_ne_true

/-- In every run whose forks are made while the counters are equal, pids and tids are one namespace, and the next entry
keeps it one exactly if it is no other fork. -/
theorem one_namespace {image : GuestImageState} (h : Reached load ForksAligned (initial image) k) :
    OneNamespace k ∧ ∀ op, OneNamespace (op.run load k).2 ↔ k.ForksAligned op := by
  obtain ⟨hk, hled⟩ := h.preserves (consistent_initial image) (led_initial image)
    fun hk hled hop => (led_op_iff hk hled _).mpr hop
  exact ⟨(oneNamespace_iff hk).mpr hled,
    fun op => (oneNamespace_iff (hk.op op)).trans (led_op_iff hk hled op)⟩

def forkedThenThreaded : GuestKernel :=
  [KernelOp.forkChild 1, .cloneWithChildRegs 2 ⟨0x10f00, 0, 0, 0, 0⟩ (.new 0x401000 0)].foldl
    (fun k op => (op.run (fun _ => .ok sampleImage) k).2) (initial sampleImage)

theorem forkedThenThreaded_one : OneNamespace forkedThenThreaded ∧
    ¬OneNamespace ((KernelOp.forkChild 1).run (fun _ => .ok sampleImage) forkedThenThreaded).2 := by
  have hstart : Reached (fun _ => .ok sampleImage) ForksAligned (initial sampleImage) (initial sampleImage) := .start
  have hrun : Reached (fun _ => .ok sampleImage) ForksAligned (initial sampleImage) forkedThenThreaded :=
    (hstart.direct (.forkChild 1) fun _ _ _ => rfl).direct (.cloneWithChildRegs 2 ⟨0x10f00, 0, 0, 0, 0⟩ (.new 0x401000 0))
      fun _ hfork => nomatch hfork
  obtain ⟨hone, hnext⟩ := one_namespace hrun
  refine ⟨hone, fun h => ?_⟩
  have hforks : forkedThenThreaded.CanFork 1 :=
    (canFork_iff _ _).mpr ⟨(3, 4), by decide +kernel⟩
  exact absurd ((hnext (.forkChild 1)).mp h 1 rfl hforks) (by decide +kernel)

/-- A process makes a thread and then a child: the pid of the child is the tid of the thread. -/
def threadedThenForked : GuestKernel :=
  [KernelOp.cloneWithChildRegs 1 ⟨0x10f00, 0, 0, 0, 0⟩ (.new 0x401000 0), .forkChild 1].foldl
    (fun k op => (op.run (fun _ => .ok sampleImage) k).2) (initial sampleImage)

theorem namespaces_diverge : Reached (fun _ => .ok sampleImage) (fun _ _ => True) (initial sampleImage)
    threadedThenForked ∧ threadedThenForked.ownerOf 2 = some 1 ∧ threadedThenForked.ownerOf 3 = some 2 ∧
      ¬OneNamespace threadedThenForked := by
  have hstart : Reached (fun _ => .ok sampleImage) (fun _ _ => True) (initial sampleImage) (initial sampleImage) := .start
  have hrun : Reached (fun _ => .ok sampleImage) (fun _ _ => True) (initial sampleImage) threadedThenForked :=
    (hstart.direct (.cloneWithChildRegs 1 ⟨0x10f00, 0, 0, 0, 0⟩ (.new 0x401000 0)) trivial).direct (.forkChild 1) trivial
  have howner : threadedThenForked.ownerOf 2 = some 1 := by decide +kernel
  refine ⟨hrun, howner, by decide +kernel, fun h => ?_⟩
  obtain ⟨task, htask, hpid⟩ := Option.map_eq_some_iff.mp howner
  have hchild : (threadedThenForked.process 2).isSome = true := by decide +kernel
  exact absurd (hpid.symm.trans (h.apart 2 task htask hchild)) (by decide)

end GuestKernel

end Mcr.Task
