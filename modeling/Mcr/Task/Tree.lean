import Mcr.Lib.Forest
import Mcr.Task.Runs

/-!
# The process tree

Both sides of the parent links are edited by `fork`, by the exits and by reaping, and by nothing else. Nothing
ever gives a process a new parent. So the tree stays linked, with somebody left to wait for every exited
process, as long as no process leaves children behind: none is reaped while it has a child, and none ends under
an ended parent or over an ended child.
-/

namespace Mcr.Task

def GuestProcess.node (process : GuestProcess) : Forest.Node GuestPid :=
  ⟨process.parent, process.children, process.exitState.isExited⟩

namespace GuestKernel

variable {k k' : GuestKernel} {load : GuestProgram → Except TaskError GuestImageState}

def place (k : GuestKernel) (pid : GuestPid) : Option (Forest.Node GuestPid) :=
  (k.process pid).map GuestProcess.node

/-- The parent links and the child sets of the processes agree, and every exited process has a parent that has
not exited. -/
abbrev Tree (k : GuestKernel) : Prop := Forest.Linked k.place

theorem place_eq_some {pid : GuestPid} {node : Forest.Node GuestPid} :
    k.place pid = some node ↔ ∃ process, k.process pid = some process ∧ process.node = node := by
  rw [place, Option.map_eq_some_iff]

/-! ### The tree after an edit -/

theorem place_modifyProcess {pid : GuestPid} {process : GuestProcess} (h : k.process pid = some process)
    (f : GuestProcess → GuestProcess) :
    (k.modifyProcess pid f).place = Function.update k.place pid (some (f process).node) := by
  funext j
  rw [Function.update_apply, place, process_modifyProcess, h]
  split <;> rfl

theorem place_modifyProcess_of_keeps {f : GuestProcess → GuestProcess}
    (hf : ∀ process, (f process).pid = process.pid ∧ (f process).parent = process.parent ∧
      (f process).children = process.children ∧ (f process).exitState = process.exitState) (k : GuestKernel)
    (pid : GuestPid) : (k.modifyProcess pid f).place = k.place := by
  funext j
  rw [place, process_modifyProcess, place]
  split
  · rename_i hj
    subst hj
    cases hprocess : k.process j with
    | none => rfl
    | some process =>
        obtain ⟨-, hparent, hchildren, hexit⟩ := hf process
        simp [GuestProcess.node, hparent, hchildren, hexit]
  · rfl

theorem place_of_process (h : ∀ pid, k'.process pid = k.process pid) : k'.place = k.place := by
  funext pid
  rw [place, h, place]

theorem place_quiet {scope : Scope} (h : Quiet scope k k') : k'.place = k.place := by
  induction h with
  | refl => rfl
  | tail _ hedit ih =>
      rw [← ih]
      rcases hedit.cases with ⟨tid, f, rfl, -⟩ | ⟨pid, f, rfl, hf⟩ | ⟨tid, state, rfl⟩
      · exact place_of_process (process_modifyTask _ tid f)
      · exact place_modifyProcess_of_keeps hf _ pid
      · exact place_of_process (process_setTaskState _ tid state)

theorem place_finishProcess (hk : Named k) {pid : GuestPid} {process : GuestProcess}
    (h : k.process pid = some process) (status : Int) :
    (k.finishProcess pid status).place = Function.update k.place pid (some { process.node with ended := true }) := by
  rw [place_quiet (finishProcess_quiet hk pid status), place_modifyProcess h]
  rfl

/-! ### Reaping -/

def Leaf (k : GuestKernel) (pid : GuestPid) : Prop :=
  ∀ process, k.process pid = some process → ∀ c, c ∉ process.children

theorem place_reaped {parentPid childPid : GuestPid} {parent : GuestProcess}
    (hparent : k.process parentPid = some parent) (hne : parentPid ≠ childPid) :
    ((k.withoutProcess childPid).modifyProcess parentPid fun parent =>
      { parent with children := parent.children.erase childPid }).place =
      Function.update (Function.update k.place childPid none) parentPid
        (some { parent.node with children := parent.children.erase childPid }) := by
  have hgone : (k.withoutProcess childPid).place = Function.update k.place childPid none := by
    funext j
    rw [Function.update_apply, place, process_withoutProcess]
    split <;> rfl
  have hstill : (k.withoutProcess childPid).process parentPid = some parent := by
    rw [process_withoutProcess, if_neg hne, hparent]
  rw [place_modifyProcess hstill, hgone]
  rfl

theorem Tree.wait4Child (h : Tree k') {reaped : List GuestPid} (hafter : AfterReaping k reaped k')
    (hk : Irreflexive k) {parentPid : GuestPid} {args : Wait4SyscallArgs}
    (hleaf : ∀ c, k.claimed reaped parentPid args = some c → k.Leaf c) : Tree (k'.wait4Child parentPid args).2 := by
  rcases hafter.wait4Child hk parentPid args with
    ⟨-, hkept, -⟩ | ⟨childPid, child, status, hclaimed, hchild, -, hwait, -⟩
  · rw [hkept]
    exact h
  · obtain ⟨hparent, hmem⟩ := mem_of_claimed hclaimed
    obtain ⟨⟨parent, hget, hin, -⟩, hnew⟩ := mem_remaining.mp hmem
    obtain ⟨children, hget', hsub, hsup⟩ := hafter.kept parentPid hparent parent hget
    have hin' : childPid ∈ children := (hsup childPid hin).resolve_right hnew
    obtain ⟨node, hnode, hup⟩ := h.down (place_eq_some.mpr ⟨_, hget', rfl⟩) hin'
    have hne : parentPid ≠ childPid := fun heq => hk parentPid parent hget (heq ▸ hin)
    obtain ⟨old, hold⟩ := hafter.old childPid child hchild
    obtain ⟨grandchildren, hget'', hgrand, -⟩ := hafter.kept childPid hnew old hold
    obtain rfl := Option.some.inj (hchild.symm.trans hget'')
    rw [hwait, Tree, place_reaped hget' hne]
    refine h.removeLeaf (place_eq_some.mpr ⟨_, hchild, rfl⟩) (fun c hc => ?_) ?_ (place_eq_some.mpr ⟨_, hget', rfl⟩)
    · exact hleaf childPid hclaimed old hold c (hgrand c hc)
    · rw [place_eq_some.mpr ⟨_, hchild, rfl⟩] at hnode
      exact (Option.some.inj hnode) ▸ hup

theorem Tree.resumeWaitingTask (h : Tree k') {reaped : List GuestPid} (hafter : AfterReaping k reaped k')
    (hk : Irreflexive k) (tid : GuestTid) {parentPid : GuestPid} {args : Wait4SyscallArgs}
    (hleaf : ∀ c, k.claimed reaped parentPid args = some c → k.Leaf c) :
    Tree (k'.resumeWaitingTask tid parentPid args).2 := by
  have hwait := Tree.wait4Child h hafter hk hleaf
  unfold GuestKernel.resumeWaitingTask
  generalize k'.wait4Child parentPid args = result at hwait ⊢
  obtain ⟨_ | _ | waited, k₁⟩ := result
  · exact hwait
  · exact hwait
  · dsimp only at hwait ⊢
    rw [Tree, place_of_process (process_setTaskState _ tid .runnable), place_of_process (process_modifyTask _ tid _)]
    exact hwait

theorem Tree.resumeEach (waiting : List (GuestTid × GuestPid × Wait4SyscallArgs)) (h : Tree k')
    {reaped : List GuestPid} (hafter : AfterReaping k reaped k') (hk : Irreflexive k)
    (hleaf : ∀ c ∈ k.claims waiting reaped, k.Leaf c) : Tree (resumeEach waiting k').2 := by
  induction waiting generalizing k' reaped with
  | nil => exact h
  | cons waiter rest ih =>
      obtain ⟨tid, parentPid, args⟩ := waiter
      refine ih (Tree.resumeWaitingTask h hafter hk tid fun c hc => ?_) (hafter.resumeWaitingTask hk tid parentPid args) hleaf
      exact hleaf c (subset_claims rest _ (by simp [hc]))

theorem Tree.wait4CurrentWithReturn (hk : Consistent k) (h : Tree k) (tid : GuestTid) (args : Wait4SyscallArgs)
    (returnRip : GuestAddress) (hleaf : ∀ c ∈ k.reapedBy (.wait4Current tid args returnRip), k.Leaf c) :
    Tree (k.wait4CurrentWithReturn tid args returnRip).2 := by
  unfold GuestKernel.wait4CurrentWithReturn
  split
  · exact h
  · rename_i task htask
    have hwait : Tree (k.wait4Child task.pid args).2 :=
      Tree.wait4Child h (.refl k) hk.irreflexive fun c hc => hleaf c (by simp [reapedBy, htask, hc])
    generalize k.wait4Child task.pid args = result at hwait ⊢
    split
    · exact hwait
    · exact hwait
    · split
      · exact hwait
      · dsimp only at hwait ⊢
        rw [Tree, place_of_process (process_setTaskState _ tid _), place_of_process (process_modifyTask _ tid _)]
        exact hwait
    · exact hwait

/-! ### Exits -/

def endingProcess (k : GuestKernel) : KernelOp → Option GuestPid
  | .exitTask tid status =>
    match k.task tid with
    | some task =>
      if (k.setTaskState tid (.exited status)).allTasksExited task.pid then some task.pid else none
    | none => none
  | .exitGroup pid _ => some pid
  | _ => none

def EndsAlone (k : GuestKernel) (pid : GuestPid) : Prop :=
  ∀ process, k.process pid = some process →
    (∀ q, process.parent = some q → k.hasExited q = false) ∧ ∀ c ∈ process.children, k.hasExited c = false

theorem hasExited_of_place {pid : GuestPid} {node : Forest.Node GuestPid} (h : k.place pid = some node) :
    k.hasExited pid = node.ended := by
  obtain ⟨process, hprocess, rfl⟩ := place_eq_some.mp h
  rw [hasExited, hprocess]
  rfl

theorem Tree.finishProcess (hk : Named k) (h : Tree k) {pid : GuestPid} (status : Int) (halone : k.EndsAlone pid)
    {process : GuestProcess} (hprocess : k.process pid = some process) : Tree (k.finishProcess pid status) := by
  obtain ⟨hparent, hchildren⟩ := halone process hprocess
  rw [Tree, place_finishProcess hk hprocess]
  refine h.setEnded (place_eq_some.mpr ⟨process, hprocess, rfl⟩) true (fun _ q m hq hm => ?_) fun _ c m hc hm => ?_
  · rw [← hasExited_of_place hm]
    exact hparent q hq
  · rw [← hasExited_of_place hm]
    exact hchildren c hc

theorem Tree.exitTask (hk : Consistent k) (h : Tree k) (tid : GuestTid) (status : Int)
    (halone : ∀ pid, k.endingProcess (.exitTask tid status) = some pid → k.EndsAlone pid) :
    Tree (k.exitTask tid status).2 := by
  unfold GuestKernel.exitTask
  split
  · exact h
  · rename_i task htask
    simp only [endingProcess, htask] at halone
    have hexited : Tree (k.setTaskState tid (.exited status)) := by
      rw [Tree, place_of_process (process_setTaskState k tid _)]
      exact h
    dsimp only at halone ⊢
    split
    · rename_i hall
      obtain ⟨process, hprocess⟩ := hk.owned htask
      refine Tree.finishProcess (named_setTaskState hk.named tid _) hexited status (fun p hp => ?_)
        (by rw [process_setTaskState, hprocess])
      simp only [hasExited, process_setTaskState] at hp ⊢
      exact halone task.pid (if_pos hall) p hp
    · exact hexited

theorem Tree.exitGroup (hk : Consistent k) (h : Tree k) (pid : GuestPid) (status : Int) (halone : k.EndsAlone pid) :
    Tree (k.exitGroup pid status).2 := by
  unfold GuestKernel.exitGroup
  split
  · exact h
  · rename_i process hprocess
    have hfold : ∀ (tids : List GuestTid) (k : GuestKernel) (j : GuestPid),
        (tids.foldl (fun k tid => k.setTaskState tid (.exited status)) k).process j = k.process j := by
      intro tids
      induction tids with
      | nil => exact fun _ _ => rfl
      | cons tid rest ih => exact fun k j => (ih _ j).trans (process_setTaskState k tid _ j)
    have hexit : Quiet .ends _ _ :=
      exitEach_quiet (k.tidsOf pid) status trivial k
    refine Tree.finishProcess (hexit.named hk.named) ?_ status (fun p hp => ?_) ((hfold _ k pid).trans hprocess)
    · rw [Tree, place_of_process (hfold _ k)]
      exact h
    · simp only [hasExited, hfold] at hp ⊢
      exact halone p hp

/-! ### Forks and images -/

theorem place_insertFork (hk : Consistent k) (parentTask : GuestTask) {parent : GuestProcess}
    (hparent : k.process parentTask.pid = some parent) :
    ({ k with nextPid := k.nextPid + 1, nextTid := k.nextTid + 1 }.insertFork parentTask parent k.nextPid
      k.nextTid).place = Function.update (Function.update k.place k.nextPid (some ⟨some parentTask.pid, .empty, false⟩))
        parentTask.pid (some { parent.node with children := parent.children.insert k.nextPid }) := by
  have hne : parentTask.pid ≠ k.nextPid := (hk.pidBound hparent).ne
  funext j
  rw [Function.update_apply, Function.update_apply, place, GuestKernel.insertFork, process_modifyProcess,
    process_insertTask, process_insertTask]
  simp only [process, SortedMap.get?_insert, if_neg hne]
  rw [show k.processes.get? parentTask.pid = some parent from hparent]
  split
  · rfl
  · split <;> rfl

theorem Consistent.process_nextPid (hk : Consistent k) : k.process k.nextPid = none := by
  cases hprocess : k.process k.nextPid with
  | none => rfl
  | some process => exact absurd (hk.pidBound hprocess) (lt_irrefl _)

theorem Tree.insertFork (hk : Consistent k) (h : Tree k) (parentTask : GuestTask) {parent : GuestProcess}
    (hparent : k.process parentTask.pid = some parent) (hrunning : parent.exitState = .running) :
    Tree ({ k with nextPid := k.nextPid + 1, nextTid := k.nextTid + 1 }.insertFork parentTask parent k.nextPid
      k.nextTid) := by
  rw [Tree, place_insertFork hk parentTask hparent]
  exact h.addLeaf (by rw [place, hk.process_nextPid, Option.map_none]) (place_eq_some.mpr ⟨parent, hparent, rfl⟩)
    (by simp [GuestProcess.node, hrunning, ExitState.isExited])

theorem KernelEdit.tree {scope : Scope} (h : KernelEdit scope k k') (hk : Consistent k) (htree : Tree k)
    (hexits : ¬scope.exits) (hreaps : ¬scope.reaps) : Tree k' := by
  cases h with
  | quiet h =>
      rw [Tree, place_quiet (.single h)]
      exact htree
  | ended pid status h => exact absurd h hexits
  | image pid image =>
      cases hprocess : k.process pid with
      | none =>
          have hsame : ∀ j, (k.modifyProcess pid (execedProcess image)).process j = k.process j := by
            intro j
            rw [process_modifyProcess]
            split
            · rename_i hj
              rw [hj, hprocess, Option.map_none]
            · rfl
          rw [Tree, place_of_process hsame]
          exact htree
      | some process =>
          rw [Tree, place_modifyProcess hprocess]
          exact htree.setEnded (place_eq_some.mpr ⟨process, hprocess, rfl⟩) false nofun nofun
  | revive tid =>
      rw [Tree, place_of_process (process_setTaskState k tid .runnable)]
      exact htree
  | spendPid => exact htree
  | fork tid parentTask parent _ hparent hrunning => exact Tree.insertFork hk htree parentTask hparent hrunning
  | thread tid parentTask =>
      rw [Tree, place_of_process (process_insertTask _ _)]
      exact htree
  | reap _ _ _ _ _ _ _ _ _ h => exact absurd h hreaps

theorem Edits.tree {scope : Scope} (h : Edits scope k k') (hk : Consistent k) (htree : Tree k)
    (hexits : ¬scope.exits) (hreaps : ¬scope.reaps) : Tree k' :=
  h.preserves_consistent (fun hedit hk htree => hedit.tree hk htree hexits hreaps) hk htree

/-! ### Runs -/

/-- The step leaves no process without a parent that could wait for it: the children it reaps have none of
their own, and a process it ends has no exited relative. -/
structure LeavesNobody (k : GuestKernel) (op : KernelOp) : Prop where
  reaped : ∀ c ∈ k.reapedBy op, k.Leaf c
  ended : ∀ pid, k.endingProcess op = some pid → k.EndsAlone pid

theorem Tree.op (hk : Consistent k) (h : Tree k) {op : KernelOp} (hstep : k.LeavesNobody op) :
    Tree (op.run load k).2 := by
  cases op with
  | wait4Child parentPid args =>
      exact Tree.wait4Child h (.refl k) hk.irreflexive fun c hc => hstep.reaped c (by simp [reapedBy, hc])
  | wait4Current tid args returnRip => exact Tree.wait4CurrentWithReturn hk h tid args returnRip hstep.reaped
  | resumeWaitingTasks => exact Tree.resumeEach k.waitingTasks h (.refl k) hk.irreflexive hstep.reaped
  | exitTask tid status => exact Tree.exitTask hk h tid status hstep.ended
  | exitGroup pid status => exact Tree.exitGroup hk h pid status (hstep.ended pid rfl)
  | _ => exact Edits.tree (edits_of_op hk _) hk h Bool.false_ne_true Bool.false_ne_true

/-- In every run whose steps leave nobody behind, the tree stays consistent with a running parent over every
exited process, and `getppid` names a process of the table. -/
theorem tree_consistent {image : GuestImageState} (h : Reached load LeavesNobody (initial image) k) :
    Tree k ∧ ∀ request outcome, request.syscall = .getppid → k.dispatchForCurrentTask load request = some outcome →
      ∀ parent, outcome.1.result = .success parent → parent = 0 ∨ ∃ process, k.process parent = some process := by
  have hinitial : Tree (initial image) := by
    have hplace : (initial image).place =
        Function.update (fun _ => none) initialGuestPid (some ⟨none, .empty, false⟩) := by
      funext j
      rw [Function.update_apply, place, initial, process_insertTask]
      simp only [process, SortedMap.get?_insert, SortedMap.get?_empty]
      split <;> rfl
    rw [Tree, hplace]
    exact Forest.Linked.root initialGuestPid
  obtain ⟨-, htree⟩ := h.preserves (consistent_initial image) hinitial fun hk h hstep => Tree.op hk h hstep
  refine ⟨htree, fun request outcome hsyscall hdispatch parent hresult => ?_⟩
  unfold dispatchForCurrentTask at hdispatch
  split at hdispatch
  · rw [← Option.some.inj hdispatch] at hresult
    cases hresult
  · rename_i task _
    split at hdispatch
    · rw [← Option.some.inj hdispatch] at hresult
      cases hresult
    · simp only [dispatchTask, hsyscall, Option.map_eq_some_iff] at hdispatch
      obtain ⟨process, hprocess, rfl⟩ := hdispatch
      obtain rfl : process.parent.getD 0 = parent := SyscallReturn.success.inj hresult
      cases hparent : process.parent with
      | none => exact Or.inl rfl
      | some q =>
          obtain ⟨node, hnode, -⟩ := htree.up (place_eq_some.mpr ⟨process, hprocess, rfl⟩) hparent
          obtain ⟨parent, hparent, -⟩ := place_eq_some.mp hnode
          exact Or.inr ⟨parent, hparent⟩

/-- A child ends, its parent waits for it, and the tree is as it should be. -/
theorem tree_consistent_after_exit : ∃ k, k.process 2 = none ∧ (k.process 1).isSome = true ∧ Tree k := by
  let load : GuestProgram → Except TaskError GuestImageState := fun _ => .ok sampleImage
  let k₁ := (KernelOp.run load (initial sampleImage) (.forkChild 1)).2
  let k₂ := (KernelOp.run load k₁ (.exitGroup 2 0)).2
  let waited := KernelOp.run load k₂ (.wait4Child 1 ⟨-1, 0, 0, 0⟩)
  have hfork : Reached load LeavesNobody (initial sampleImage) k₁ := by
    refine .step .start (.direct (.forkChild 1)) (fun op hop => ?_) rfl
    obtain rfl := Option.some.inj hop
    exact ⟨fun c hc => (nomatch hc), nofun⟩
  have hexit : Reached load LeavesNobody (initial sampleImage) k₂ := by
    refine .step hfork (.direct (.exitGroup 2 0)) (fun op hop => ?_) rfl
    obtain rfl := Option.some.inj hop
    refine ⟨fun c hc => (nomatch hc), fun pid hpid process hprocess => ?_⟩
    obtain rfl := Option.some.inj hpid
    have hlinks : (k₁.process 2).map (fun process => (process.parent, process.children.toList)) = some (some 1, []) := by
      decide +kernel
    rw [hprocess, Option.map_some, Option.some.injEq, Prod.mk.injEq] at hlinks
    obtain ⟨hparent, hchildren⟩ := hlinks
    refine ⟨fun q hq => ?_, fun c hc => ?_⟩
    · obtain rfl : q = 1 := Option.some.inj (hq.symm.trans hparent)
      decide +kernel
    · rw [← SortedSet.mem_toList, hchildren] at hc
      exact nomatch hc
  have hreap : Reached load LeavesNobody (initial sampleImage) waited.2 := by
    have hrun : KernelCall.run load k₂ (.direct (.wait4Child 1 ⟨-1, 0, 0, 0⟩)) = some (waited.1, waited.2) :=
      congrArg some (Prod.mk.eta).symm
    refine .step hexit (.direct (.wait4Child 1 ⟨-1, 0, 0, 0⟩)) (fun op hop => ?_) hrun
    obtain rfl := Option.some.inj hop
    refine ⟨fun c hc process hprocess => ?_, nofun⟩
    have hreaped : k₂.reapedBy (.wait4Child 1 ⟨-1, 0, 0, 0⟩) = [2] := by decide +kernel
    obtain rfl := List.mem_singleton.mp (hreaped ▸ hc)
    have hleaf : (k₂.process 2).map (fun process => process.children.toList) = some [] := by decide +kernel
    rw [hprocess, Option.map_some, Option.some.injEq] at hleaf
    intro child hchild
    rw [← SortedSet.mem_toList, hleaf] at hchild
    exact nomatch hchild
  have hgone : (waited.2.process 2).isNone = true := by decide +kernel
  have hparent : (waited.2.process 1).isSome = true := by decide +kernel
  exact ⟨waited.2, Option.isNone_iff_eq_none.mp hgone, hparent, (tree_consistent hreap).1⟩

def orphanCalls : List KernelCall :=
  [.direct (.forkChild 1), .direct (.forkChild 2), .direct (.exitGroup 2 0), .direct (.wait4Child 1 ⟨-1, 0, 0, 0⟩)]

/-- The grandchild keeps the reaped child as its parent, and `getppid` names it. -/
theorem reaping_orphans : ∃ replies k, KernelCall.runAll (fun _ => .ok sampleImage) orphanCalls (initial sampleImage) =
    some (replies, k) ∧ (k.process 3).map GuestProcess.parent = some (some 2) ∧ (k.process 2).isNone = true ∧
      ((k.dispatchForCurrentTask (fun _ => .ok sampleImage) ⟨3, 3, 0, .getppid, []⟩).map fun o => o.1.result) =
        some (.success 2) ∧ ¬Tree k := by
  obtain ⟨replies, k, hrun, -⟩ := (consistent_initial sampleImage).runAll (fun _ => .ok sampleImage) orphanCalls
  have hparent : (k.process 3).map GuestProcess.parent = some (some 2) :=
    KernelCall.eq_of_runAll hrun (fun k => (k.process 3).map GuestProcess.parent) (by decide +kernel)
  have hgone : (k.process 2).isNone = true :=
    KernelCall.eq_of_runAll hrun (fun k => (k.process 2).isNone) (by decide +kernel)
  have hgetppid : ((k.dispatchForCurrentTask (fun _ => .ok sampleImage) ⟨3, 3, 0, .getppid, []⟩).map fun o =>
      o.1.result) = some (.success 2) :=
    KernelCall.eq_of_runAll hrun (fun k =>
      (k.dispatchForCurrentTask (fun _ => .ok sampleImage) ⟨3, 3, 0, .getppid, []⟩).map fun o => o.1.result)
      (by decide +kernel)
  refine ⟨replies, k, hrun, hparent, hgone, hgetppid, fun htree => ?_⟩
  obtain ⟨process, hprocess, hup⟩ := Option.map_eq_some_iff.mp hparent
  obtain ⟨node, hnode, -⟩ := htree.up (place_eq_some.mpr ⟨process, hprocess, rfl⟩) hup
  obtain ⟨reaped, hreaped, -⟩ := place_eq_some.mp hnode
  rw [hreaped] at hgone
  exact nomatch hgone

end GuestKernel

end Mcr.Task
