import Mcr.Task.Tree

/-!
# Every exited child is handed to one wait

A process leaves the table only by being reaped, its number is never used again, and the wait that reaped it
returns it with its exit status. A round of resumed waits leaves nobody waiting in vain as long as no wait of the
round finds all of its children claimed by the waits before it.
-/

namespace Mcr.Task

/-- The children an outcome of `wait4` reports, from its decoded fields. -/
def SyscallOutcome.handed (outcome : SyscallOutcome) : List WaitedChild :=
  match outcome.decoded with
  | [.guestPid pid, .exitStatus status, .waitStatus _] => [⟨pid, status⟩]
  | _ => []

def KernelReply.handed : KernelReply → List WaitedChild
  | .outcome o => o.handed
  | .waited (.ok (some child)) => [child]
  | .completed waits => waits.map CompletedWait.waited
  | _ => []

namespace GuestKernel

variable {k k' : GuestKernel} {load : GuestProgram → Except TaskError GuestImageState}

/-! ### Processes that stay -/

/-- No process goes, and a new one has a number that was never given out. -/
structure Evolves (k k' : GuestKernel) : Prop where
  kept : ∀ pid, (k.process pid).isSome = true → (k'.process pid).isSome = true
  born : ∀ pid, (k'.process pid).isSome = true → (k.process pid).isSome = true ∨ k.nextPid ≤ pid
  next : k.nextPid ≤ k'.nextPid

namespace Evolves

theorem refl (k : GuestKernel) : Evolves k k := ⟨fun _ => id, fun _ => Or.inl, le_rfl⟩

theorem of_isSome (h : ∀ pid, (k'.process pid).isSome = (k.process pid).isSome) (hnext : k'.nextPid = k.nextPid) :
    Evolves k k' where
  kept pid := h pid ▸ id
  born pid hpid := Or.inl (h pid ▸ hpid)
  next := hnext.ge

theorem trans {k'' : GuestKernel} (h : Evolves k k') (h' : Evolves k' k'') : Evolves k k'' where
  kept pid hpid := h'.kept pid (h.kept pid hpid)
  born pid hpid := by
    rcases h'.born pid hpid with hold | hnew
    · exact h.born pid hold
    · exact Or.inr (h.next.trans hnew)
  next := h.next.trans h'.next

theorem modifyProcess (k : GuestKernel) (pid : GuestPid) (f : GuestProcess → GuestProcess) :
    Evolves k (k.modifyProcess pid f) := by
  refine of_isSome (fun j => ?_) rfl
  rw [process_modifyProcess]
  split
  · rename_i hj
    rw [hj, Option.isSome_map]
  · rfl

end Evolves

theorem KernelEdit.evolves {scope : Scope} (h : KernelEdit scope k k') (hreaps : ¬scope.reaps) : Evolves k k' := by
  cases h with
  | quiet h =>
      rcases h.cases with ⟨tid, f, rfl, -⟩ | ⟨pid, f, rfl, -⟩ | ⟨tid, state, rfl⟩
      · exact .of_isSome (fun _ => rfl) rfl
      · exact .modifyProcess k pid f
      · exact .of_isSome (fun j => by rw [process_setTaskState]) (next_setTaskState k tid state).1
  | ended pid status => exact .modifyProcess k pid _
  | image pid image => exact .modifyProcess k pid _
  | revive tid => exact .of_isSome (fun j => by rw [process_setTaskState]) (next_setTaskState k tid .runnable).1
  | spendPid => exact ⟨fun _ => id, fun _ => Or.inl, Nat.le_succ _⟩
  | fork tid parentTask parent =>
      have hinsert : Evolves k (({ k with
          nextPid := k.nextPid + 1, nextTid := k.nextTid + 1
          processes := k.processes.insert k.nextPid (forkedProcess parent parentTask.pid k.nextPid) } :
            GuestKernel).insertTask (forkedTask parentTask k.nextPid k.nextTid)) := by
        refine ⟨fun pid hpid => ?_, fun pid hpid => ?_, ?_⟩
        · rw [process_insertTask, process, SortedMap.get?_insert]
          split
          · rfl
          · exact hpid
        · rw [process_insertTask, process, SortedMap.get?_insert] at hpid
          split at hpid
          · exact Or.inr (le_of_eq ‹pid = k.nextPid›.symm)
          · exact Or.inl hpid
        · rw [(next_insertTask _ _).1]
          exact Nat.le_succ _
      exact hinsert.trans (.modifyProcess _ parentTask.pid _)
  | thread tid parentTask =>
      exact .of_isSome (fun j => by rw [process_insertTask]; rfl) (next_insertTask _ _).1
  | reap _ _ _ _ _ _ _ _ _ h => exact absurd h hreaps

theorem evolves_of_op (hk : Consistent k) {op : KernelOp} (h : op.isWait = false) : Evolves k (op.run load k).2 := by
  refine Edits.preserves (P := Evolves k) (fun hedit hold => hold.trans (hedit.evolves ?_)) (edits_of_op hk op) (.refl k)
  exact fun hwait => absurd (h.symm.trans hwait) Bool.false_ne_true

/-! ### What a wait hands over -/

/-- The processes after a wait: the children handed over are gone, with the statuses they exited with, and nothing
else has changed hands. -/
structure HandsOver (k : GuestKernel) (waited : List WaitedChild) (k' : GuestKernel) : Prop where
  distinct : (waited.map WaitedChild.pid).Nodup
  own : ∀ w ∈ waited, ∃ child, k.process w.pid = some child ∧ child.exitState = .exited w.status
  gone : ∀ w ∈ waited, (k'.process w.pid).isNone = true
  kept : ∀ pid, (k.process pid).isSome = true → (k'.process pid).isSome = true ∨ pid ∈ waited.map WaitedChild.pid
  born : ∀ pid, (k'.process pid).isSome = true → (k.process pid).isSome = true ∨ k.nextPid ≤ pid
  next : k.nextPid ≤ k'.nextPid

theorem Evolves.handsOver (h : Evolves k k') : HandsOver k [] k' where
  distinct := List.nodup_nil
  own := nofun
  gone := nofun
  kept pid hpid := Or.inl (h.kept pid hpid)
  born := h.born
  next := h.next

/-- The statuses and the numbers of the children that some waits of a round have returned. -/
structure Returned (k : GuestKernel) (waited : List WaitedChild) : Prop where
  distinct : (waited.map WaitedChild.pid).Nodup
  own : ∀ w ∈ waited, ∃ child, k.process w.pid = some child ∧ child.exitState = .exited w.status

theorem next_withoutProcess (k : GuestKernel) (pid : GuestPid) : (k.withoutProcess pid).nextPid = k.nextPid :=
  (next_foldl_removeTask (k.tidsOf pid) k).1

theorem AfterReaping.handsOver {waited : List WaitedChild}
    (h : AfterReaping k (waited.map WaitedChild.pid) k') (hreturned : Returned k waited)
    (hnext : k'.nextPid = k.nextPid) : HandsOver k waited k' where
  distinct := hreturned.distinct
  own := hreturned.own
  gone w hw := by rw [h.gone w.pid (List.mem_map_of_mem hw), Option.isNone_none]
  kept pid hpid := by
    by_cases hmem : pid ∈ waited.map WaitedChild.pid
    · exact Or.inr hmem
    · obtain ⟨process, hprocess⟩ := Option.isSome_iff_exists.mp hpid
      obtain ⟨children, hget, -⟩ := h.kept pid hmem process hprocess
      exact Or.inl (by rw [hget, Option.isSome_some])
  born pid hpid := by
    obtain ⟨process, hprocess⟩ := Option.isSome_iff_exists.mp hpid
    obtain ⟨old, hold⟩ := h.old pid process hprocess
    exact Or.inl (by rw [hold, Option.isSome_some])
  next := hnext.ge

theorem AfterReaping.wait4Child_returns (waited : List WaitedChild)
    (h : AfterReaping k (waited.map WaitedChild.pid) k') (hreturned : Returned k waited) (hk : Irreflexive k)
    (parentPid : GuestPid) (args : Wait4SyscallArgs) :
    ((k'.wait4Child parentPid args).2 = k' ∧ ∀ w, (k'.wait4Child parentPid args).1 ≠ .ok (some w)) ∨
      ∃ w, (k'.wait4Child parentPid args).1 = .ok (some w) ∧ Returned k (w :: waited) ∧
        AfterReaping k ((w :: waited).map WaitedChild.pid) (k'.wait4Child parentPid args).2 ∧
        (k'.wait4Child parentPid args).2.nextPid = k'.nextPid := by
  rcases h.wait4Child hk parentPid args with
    ⟨-, hkept, hnone⟩ | ⟨childPid, child, status, hclaimed, hchild, hstatus, hwait, hreaped⟩
  · exact Or.inl ⟨hkept, hnone⟩
  · have hnew := (mem_remaining.mp (mem_of_claimed hclaimed).2).2
    obtain ⟨old, hold⟩ := h.old childPid child hchild
    obtain ⟨children, hget, -⟩ := h.kept childPid hnew old hold
    obtain rfl := Option.some.inj (hchild.symm.trans hget)
    refine Or.inr ⟨⟨childPid, status⟩, by rw [hwait], ⟨?_, fun w hw => ?_⟩, hreaped, ?_⟩
    · exact List.nodup_cons.mpr ⟨hnew, hreturned.distinct⟩
    · rcases List.mem_cons.mp hw with rfl | hw
      · exact ⟨old, hold, hstatus⟩
      · exact hreturned.own w hw
    · rw [hwait]
      exact next_withoutProcess k' childPid

theorem AfterReaping.resumeEach_returns (waiting : List (GuestTid × GuestPid × Wait4SyscallArgs))
    (waited : List WaitedChild) (h : AfterReaping k (waited.map WaitedChild.pid) k') (hreturned : Returned k waited)
    (hk : Irreflexive k) :
    let result := GuestKernel.resumeEach waiting k'
    Returned k ((result.1.map CompletedWait.waited).reverse ++ waited) ∧
      AfterReaping k (((result.1.map CompletedWait.waited).reverse ++ waited).map WaitedChild.pid) result.2 ∧
      result.2.nextPid = k'.nextPid := by
  induction waiting generalizing k' waited with
  | nil => exact ⟨hreturned, h, rfl⟩
  | cons waiter rest ih =>
      obtain ⟨tid, parentPid, args⟩ := waiter
      have hturn := h.wait4Child_returns waited hreturned hk parentPid args
      unfold GuestKernel.resumeEach GuestKernel.resumeWaitingTask
      generalize k'.wait4Child parentPid args = result at hturn
      rcases hturn with ⟨rfl, hnone⟩ | ⟨w, hw, hreturned', hafter, hnext⟩
      · obtain ⟨_ | _ | w, k₁⟩ := result
        · exact ih waited h hreturned
        · exact ih waited h hreturned
        · exact absurd rfl (hnone w)
      · obtain ⟨_, k₁⟩ := result
        obtain rfl := hw
        have hedited : AfterReaping k ((w :: waited).map WaitedChild.pid)
            ((k₁.modifyTask tid fun task =>
              { task with regs := task.regs.withSyscallReturn task.regs.rip w.pid }).setTaskState tid .runnable) :=
          hafter.of_process fun pid => by rw [process_setTaskState, process_modifyTask]
        obtain ⟨hall, hend, hlast⟩ := ih (w :: waited) hedited hreturned'
        dsimp only at hall hend hlast ⊢
        simp only [Option.toList_some, List.cons_append, List.nil_append, List.map_cons, List.reverse_cons,
          List.append_assoc]
        refine ⟨hall, hend, hlast.trans ?_⟩
        rw [(next_setTaskState _ tid .runnable).1]
        exact hnext

/-! ### Replies -/

theorem handed_of_op {op : KernelOp} (h : op.isWait = false) : (op.run load k).1.handed = [] := by
  cases op with
  | wait4Child _ _ => exact nomatch h
  | wait4Current _ _ _ => exact nomatch h
  | resumeWaitingTasks => exact nomatch h
  | exitTask tid status =>
      simp only [KernelOp.run, Prod.map_fst, KernelReply.handed, exitTask]
      split <;> rfl
  | exitGroup pid status =>
      simp only [KernelOp.run, Prod.map_fst, KernelReply.handed, exitGroup]
      split <;> rfl
  | rtSigaction tid sig sigsetsize action =>
      simp only [KernelOp.run, Prod.map_fst, KernelReply.handed, rtSigactionCurrentWithAction]
      repeat' split
      all_goals rfl
  | rtSigprocmask tid how mask sigsetsize =>
      simp only [KernelOp.run, Prod.map_fst, KernelReply.handed, rtSigprocmaskCurrentMask]
      repeat' split
      all_goals rfl
  | rtSigtimedwait tid mask sigsetsize waitIndefinitely =>
      simp only [KernelOp.run, Prod.map_fst, KernelReply.handed, rtSigtimedwaitCurrent]
      repeat' split
      all_goals rfl
  | rtSigsuspend tid mask sigsetsize =>
      simp only [KernelOp.run, Prod.map_fst, KernelReply.handed, rtSigsuspendCurrent]
      repeat' split
      all_goals rfl
  | kill pid sig =>
      simp only [KernelOp.run, Prod.map_fst, KernelReply.handed, killCurrent]
      repeat' split
      all_goals rfl
  | tkill tid sig =>
      simp only [KernelOp.run, Prod.map_fst, KernelReply.handed, tkillCurrent, sendTaskSignal]
      repeat' split
      all_goals rfl
  | tgkill tgid tid sig =>
      simp only [KernelOp.run, Prod.map_fst, KernelReply.handed, tgkillCurrent, sendTaskSignal]
      repeat' split
      all_goals rfl
  | setTidAddress tid tidptr =>
      simp only [KernelOp.run, Prod.map_fst, KernelReply.handed, setTidAddressCurrent]
      split <;> rfl
  | setRobustList tid head len =>
      simp only [KernelOp.run, Prod.map_fst, KernelReply.handed, setRobustListCurrent]
      repeat' split
      all_goals rfl
  | forkLike tid childRegs blockParentForVfork =>
      simp only [KernelOp.run, Prod.map_fst, KernelReply.handed, forkLikeCurrent]
      split <;> rfl
  | clone tid args childReturnRip =>
      simp only [KernelOp.run, Prod.map_fst, KernelReply.handed, cloneCurrentWithReturn, threadCurrentWithChildRegs,
        forkLikeCurrent]
      repeat' split
      all_goals rfl
  | cloneWithChildRegs tid args childRegs =>
      simp only [KernelOp.run, Prod.map_fst, KernelReply.handed, cloneCurrentWithChildRegs,
        threadCurrentWithChildRegs, forkLikeCurrent]
      repeat' split
      all_goals rfl
  | setpgid currentPid rawPid rawPgid =>
      simp only [KernelOp.run, Prod.map_fst, KernelReply.handed, setpgidCurrent]
      repeat' split
      all_goals rfl
  | setsid currentPid =>
      simp only [KernelOp.run, Prod.map_fst, KernelReply.handed, setsidCurrent]
      split <;> rfl
  | archPrctl tid code address =>
      simp only [KernelOp.run, Prod.map_fst, KernelReply.handed, archPrctl]
      repeat' split
      all_goals rfl
  | _ => rfl

theorem HandsOver.reverse {waited : List WaitedChild} (h : HandsOver k waited.reverse k') : HandsOver k waited k' where
  distinct := List.nodup_reverse.mp (List.map_reverse ▸ h.distinct)
  own w hw := h.own w (List.mem_reverse.mpr hw)
  gone w hw := h.gone w (List.mem_reverse.mpr hw)
  kept pid hpid := (h.kept pid hpid).imp id fun hmem => by simpa using hmem
  born := h.born
  next := h.next

theorem handed_of_not_some {r : Except TaskError (Option WaitedChild)} (h : ∀ w, r ≠ .ok (some w)) :
    (KernelReply.waited r).handed = [] := by
  obtain _ | _ | w := r
  · rfl
  · rfl
  · exact absurd rfl (h w)

theorem HandsOver.wait4Child (hk : Irreflexive k) (parentPid : GuestPid) (args : Wait4SyscallArgs) :
    HandsOver k (KernelReply.waited (k.wait4Child parentPid args).1).handed (k.wait4Child parentPid args).2 := by
  have hnone : Returned k [] := ⟨List.nodup_nil, nofun⟩
  rcases (AfterReaping.refl k).wait4Child_returns [] hnone hk parentPid args with
    ⟨hkept, hnothing⟩ | ⟨w, hw, hreturned, hafter, hnext⟩
  · rw [handed_of_not_some hnothing, hkept]
    exact (Evolves.refl k).handsOver
  · rw [hw]
    exact hafter.handsOver hreturned hnext

theorem HandsOver.evolves {waited : List WaitedChild} (h : HandsOver k waited k') {k'' : GuestKernel}
    (hprocess : ∀ pid, (k''.process pid).isSome = (k'.process pid).isSome) (hnext : k''.nextPid = k'.nextPid) :
    HandsOver k waited k'' where
  distinct := h.distinct
  own := h.own
  gone w hw := by
    have hgone := h.gone w hw
    rw [← Option.not_isSome, hprocess, Option.not_isSome]
    exact hgone
  kept pid hpid := (h.kept pid hpid).imp (fun hsome => (hprocess pid).trans hsome) id
  born pid hpid := h.born pid ((hprocess pid).symm.trans hpid)
  next := hnext ▸ h.next

theorem HandsOver.wait4CurrentWithReturn (hk : Irreflexive k) (tid : GuestTid) (args : Wait4SyscallArgs)
    (returnRip : GuestAddress) :
    HandsOver k (k.wait4CurrentWithReturn tid args returnRip).1.handed
      (k.wait4CurrentWithReturn tid args returnRip).2 := by
  unfold GuestKernel.wait4CurrentWithReturn
  split
  · exact (Evolves.refl k).handsOver
  · rename_i task _
    have hwait := HandsOver.wait4Child hk task.pid args
    generalize k.wait4Child task.pid args = result at hwait ⊢
    split
    · exact hwait
    · exact hwait
    · split
      · exact hwait
      · refine hwait.evolves (fun pid => by rw [process_setTaskState, process_modifyTask]) ?_
        exact (next_setTaskState _ tid _).1
    · exact hwait

theorem handsOver_of_op (hk : Consistent k) (op : KernelOp) :
    HandsOver k (op.run load k).1.handed (op.run load k).2 := by
  cases hwait : op.isWait with
  | false =>
      rw [handed_of_op hwait]
      exact (evolves_of_op hk hwait).handsOver
  | true =>
      cases op with
      | wait4Child parentPid args => exact HandsOver.wait4Child hk.irreflexive parentPid args
      | wait4Current tid args returnRip => exact HandsOver.wait4CurrentWithReturn hk.irreflexive tid args returnRip
      | resumeWaitingTasks =>
          obtain ⟨hreturned, hafter, hnext⟩ := (AfterReaping.refl k).resumeEach_returns k.waitingTasks []
            ⟨List.nodup_nil, nofun⟩ hk.irreflexive
          rw [List.append_nil] at hreturned hafter
          exact (hafter.handsOver hreturned hnext).reverse
      | _ => exact nomatch hwait

/-! ### Waits that are left -/

def Supported (k : GuestKernel) : Prop :=
  ∀ tid args, k.stateOf tid = some (.waitingForChild args) → args.hasUnsupportedOptions = false

theorem KernelEdit.supported {scope : Scope} (h : KernelEdit scope k k') (hs : Supported k) : Supported k' := by
  intro tid args hstate
  cases h.becomes hstate with
  | kept hold => exact hs tid args hold
  | parked _ _ hparks _ _ => exact hparks.child args rfl

theorem Edits.waitingForChild {scope : Scope} (h : Edits scope k k') (hparks : ∀ tid, ¬scope.parks tid)
    {tid : GuestTid} {args : Wait4SyscallArgs} (hstate : k'.stateOf tid = some (.waitingForChild args)) :
    k.stateOf tid = some (.waitingForChild args) := by
  refine h.preserves (P := fun k' => k'.stateOf tid = some (.waitingForChild args) →
    k.stateOf tid = some (.waitingForChild args)) (fun hedit hold hstate => ?_) id hstate
  cases hedit.becomes hstate with
  | kept hs => exact hold hs
  | parked _ hpark _ _ _ => exact absurd hpark (hparks tid)

/-- Every wait of the round, when its turn comes, has a child that no earlier wait of the round has claimed. -/
def Served (k : GuestKernel) : List (GuestTid × GuestPid × Wait4SyscallArgs) → List GuestPid → Prop
  | [], _ => True
  | (_, parentPid, args) :: rest, reaped =>
    (parentPid ∈ reaped ∨ k.remaining reaped parentPid args.pid ≠ []) ∧
      Served k rest ((k.claimed reaped parentPid args).toList ++ reaped)

theorem parked_after_round (waiting : List (GuestTid × GuestPid × Wait4SyscallArgs)) {reaped : List GuestPid}
    (h : AfterReaping k reaped k') (hirr : Irreflexive k) (hk' : Consistent k')
    (hawake : ∀ waiter ∈ waiting, k'.Awake .reaping waiter.1) {tid : GuestTid} {pid : GuestPid}
    {args parked : Wait4SyscallArgs} (hmem : (tid, pid, args) ∈ waiting)
    (hstate : (resumeEach waiting k').2.stateOf tid = some (.waitingForChild parked)) :
    ∃ earlier, k.claimed earlier pid args = none ∧
      (k.Served waiting reaped → pid ∈ earlier ∨ k.remaining earlier pid args.pid ≠ []) ∧
      earlier ⊆ k.claims waiting reaped := by
  induction waiting generalizing k' reaped with
  | nil => exact nomatch hmem
  | cons waiter rest ih =>
      obtain ⟨turnTid, turnPid, turnArgs⟩ := waiter
      have hturn : Edits .reaping k' (k'.resumeWaitingTask turnTid turnPid turnArgs).2 :=
        Edits.resumeWaitingTask hk' (hawake _ List.mem_cons_self) id turnPid turnArgs trivial
      have hafter := h.resumeWaitingTask hirr turnTid turnPid turnArgs
      have hrest : ∀ waiter ∈ rest, (k'.resumeWaitingTask turnTid turnPid turnArgs).2.Awake _ waiter.1 :=
        fun waiter hwaiter => Edits.awake hturn id (hawake waiter (List.mem_cons_of_mem _ hwaiter))
      rcases List.mem_cons.mp hmem with heq | hmem
      · obtain ⟨rfl, rfl, rfl⟩ := by simpa using heq
        rcases h.wait4Child hirr pid args with ⟨hclaimed, -⟩ | ⟨childPid, child, status, -, -, -, hwait, -⟩
        · exact ⟨reaped, hclaimed, fun hserved => hserved.1, subset_claims _ reaped⟩
        · -- the wait was completed, and nothing parks it again
          have hround : Edits .reaping _ _ := Edits.resumeEach rest (hturn.consistent hk') id trivial hrest
          have hlast := Edits.waitingForChild hround (fun _ => id) hstate
          rw [GuestKernel.resumeWaitingTask, hwait] at hlast
          dsimp only at hlast
          rw [stateOf_setTaskState, if_pos rfl] at hlast
          obtain ⟨-, -, hrunnable⟩ := Option.map_eq_some_iff.mp hlast
          exact nomatch hrunnable
      · obtain ⟨earlier, hclaimed, hleft, hsub⟩ := ih hafter (hturn.consistent hk') hrest hmem hstate
        exact ⟨earlier, hclaimed, fun hserved => hleft hserved.2, hsub⟩

/-- An exited child that a wait of the process with the selector would be handed. -/
def Waitable (k : GuestKernel) (parentPid : GuestPid) (selector : Int) (child : GuestPid) : Prop :=
  ∃ children, k.matchingChildren parentPid selector = .ok children ∧ child ∈ children ∧ k.hasExited child = true

theorem Waitable.remaining {parentPid child : GuestPid} {selector : Int} {reaped : List GuestPid}
    (hafter : AfterReaping k reaped k') (hthere : parentPid ∉ reaped) (h : k'.Waitable parentPid selector child) :
    child ∈ k.remaining reaped parentPid selector ∧ k.hasExited child = true := by
  obtain ⟨children, hchildren, hmem, hexited⟩ := h
  have hparent : ∃ parent, k'.process parentPid = some parent := by
    unfold matchingChildren at hchildren
    split at hchildren
    · cases hchildren
    · exact ⟨_, ‹_›⟩
  obtain ⟨_, hparent⟩ := hparent
  obtain ⟨parent, hget⟩ := hafter.old _ _ hparent
  rw [hafter.matchingChildren hthere hget selector] at hchildren
  obtain rfl := Except.ok.inj hchildren
  refine ⟨hmem, ?_⟩
  unfold hasExited at hexited ⊢
  split at hexited
  · rename_i process hprocess
    obtain ⟨old, hold⟩ := hafter.old child process hprocess
    obtain ⟨_, hkept, -⟩ := hafter.kept child (mem_remaining.mp hmem).2 old hold
    obtain rfl := Option.some.inj (hprocess.symm.trans hkept)
    rw [hold]
    exact hexited
  · cases hexited

/-- A wait that would block, or reports that there is nothing, leaves no exited child behind. -/
theorem nothing_waitable (hirr : Irreflexive k) {parentPid : GuestPid} {args : Wait4SyscallArgs}
    (h : (k.wait4Child parentPid args).1 = .error .wouldBlock ∨ (k.wait4Child parentPid args).1 = .ok none)
    (child : GuestPid) : ¬k.Waitable parentPid args.pid child := by
  intro hwaitable
  obtain ⟨hmem, hexited⟩ := hwaitable.remaining (.refl k) List.not_mem_nil
  rcases (AfterReaping.refl k).wait4Child hirr parentPid args with
    ⟨hclaimed, -⟩ | ⟨childPid, found, status, -, -, -, hwait, -⟩
  · unfold claimed at hclaimed
    split at hclaimed
    · rename_i hunsupported
      have hoptions : args.hasUnsupportedOptions = true := hunsupported.resolve_right List.not_mem_nil
      rw [GuestKernel.wait4Child, if_pos hoptions] at h
      rcases h with h | h <;> cases h
    · exact List.find?_eq_none.mp hclaimed child hmem hexited
  · rw [hwait] at h
    rcases h with h | h <;> cases h

/-- No task is left waiting for a child that has exited. -/
def NobodyMissed (k : GuestKernel) : Prop :=
  ∀ tid task args, k.task tid = some task → task.state = .waitingForChild args →
    ∀ child, ¬k.Waitable task.pid args.pid child

/-- Every task that waits for a child has a running one that its selector matches. -/
def NobodyStranded (k : GuestKernel) : Prop :=
  ∀ tid task args, k.task tid = some task → task.state = .waitingForChild args →
    ∃ parent c child, k.process task.pid = some parent ∧ c ∈ parent.children ∧
      k.childMatches parent c args.pid = true ∧ k.process c = some child ∧ child.exitState = .running

theorem exited_of_claims (waiting : List (GuestTid × GuestPid × Wait4SyscallArgs)) (reaped : List GuestPid)
    (h : ∀ c ∈ reaped, k.hasExited c = true) : ∀ c ∈ k.claims waiting reaped, k.hasExited c = true := by
  induction waiting generalizing reaped with
  | nil => exact h
  | cons waiter rest ih =>
      obtain ⟨tid, parentPid, args⟩ := waiter
      refine ih _ fun c hc => ?_
      rcases List.mem_append.mp hc with hc | hc
      · rw [Option.mem_toList, claimed] at hc
        split at hc
        · cases hc
        · exact List.find?_some hc
      · exact h c hc

/-- A wait that is left after a round: none of the children that were there for it at its turn has exited. -/
theorem waits_after_round (hk : Consistent k) (hsupported : Supported k) {tid : GuestTid} {task : GuestTask}
    {args : Wait4SyscallArgs} (htask : k.resumeWaitingTasks.2.task tid = some task)
    (hstate : task.state = .waitingForChild args) :
    ∃ earlier ⊆ k.claims k.waitingTasks [], task.pid ∉ k.claims k.waitingTasks [] ∧
      (∀ c ∈ k.remaining earlier task.pid args.pid, k.hasExited c = false) ∧
      (k.Served k.waitingTasks [] → k.remaining earlier task.pid args.pid ≠ []) := by
  have hawake : ∀ waiter ∈ k.waitingTasks, k.Awake .reaping waiter.1 := fun waiter hmem => by
    obtain ⟨task, htask, -, hstate⟩ := (mem_waitingTasks hk).mp hmem
    exact awake_of_task htask (by rw [hstate]; exact ⟨rfl, by rintro ⟨⟩⟩)
  have hround : Edits .reaping k k.resumeWaitingTasks.2 := Edits.resumeEach k.waitingTasks hk id trivial hawake
  have hafter := (AfterReaping.refl k).resumeEach k.waitingTasks hk.irreflexive
  have hparked : k.resumeWaitingTasks.2.stateOf tid = some (.waitingForChild args) := by
    rw [stateOf, htask, Option.map_some, hstate]
  have hold := Edits.waitingForChild hround (fun _ => id) hparked
  obtain ⟨before, hbefore, hwait⟩ := Option.map_eq_some_iff.mp hold
  have hpid : before.pid = task.pid := (hround.owner hk hbefore htask).symm
  obtain ⟨earlier, hclaimed, hleft, hsub⟩ := parked_after_round k.waitingTasks (.refl k) hk.irreflexive hk hawake
    ((mem_waitingTasks hk).mpr ⟨before, hbefore, rfl, hwait⟩) hparked
  obtain ⟨parent, hparent⟩ := (hround.consistent hk).owned htask
  have hthere : task.pid ∉ k.claims k.waitingTasks [] := fun hmem => by cases (hafter.gone _ hmem).symm.trans hparent
  rw [hpid] at hclaimed hleft
  have hnot : task.pid ∉ earlier := fun hmem => hthere (hsub hmem)
  rw [claimed, if_neg (by simp [hsupported tid args hold, hnot])] at hclaimed
  exact ⟨earlier, hsub, hthere, fun c hc => by simpa using List.find?_eq_none.mp hclaimed c hc,
    fun hserved => (hleft hserved).resolve_left hnot⟩

theorem nobody_missed (hk : Consistent k) (hsupported : Supported k) : NobodyMissed k.resumeWaitingTasks.2 := by
  intro tid task args htask hstate child hwaitable
  obtain ⟨earlier, hsub, hthere, hrunning, -⟩ := waits_after_round hk hsupported htask hstate
  obtain ⟨hmem, hexited⟩ :=
    hwaitable.remaining ((AfterReaping.refl k).resumeEach k.waitingTasks hk.irreflexive) hthere
  obtain ⟨hchild, hleft⟩ := mem_remaining.mp hmem
  have hstill := hrunning child (mem_remaining.mpr ⟨hchild, fun h => hleft (hsub h)⟩)
  exact Bool.false_ne_true (hstill.symm.trans hexited)

theorem nobody_stranded (hk : Consistent k) (hsupported : Supported k) (hserved : k.Served k.waitingTasks []) :
    NobodyStranded k.resumeWaitingTasks.2 := by
  intro tid task args htask hstate
  obtain ⟨earlier, hsub, hthere, hrunning, hleft⟩ := waits_after_round hk hsupported htask hstate
  have hafter : AfterReaping k (k.claims k.waitingTasks []) k.resumeWaitingTasks.2 :=
    (AfterReaping.refl k).resumeEach k.waitingTasks hk.irreflexive
  obtain ⟨c, hc⟩ := List.exists_mem_of_ne_nil _ (hleft hserved)
  have hrunning := hrunning c hc
  obtain ⟨⟨parent, hget, hchild, hmatches⟩, -⟩ := mem_remaining.mp hc
  have hkept : c ∉ k.claims k.waitingTasks [] := fun hmem => by
    have hexited := exited_of_claims k.waitingTasks [] (by rintro _ ⟨⟩) c hmem
    exact Bool.false_ne_true (hrunning.symm.trans hexited)
  obtain ⟨children, hget', -, hsup⟩ := hafter.kept task.pid hthere parent hget
  have hstays : c ∈ children := (hsup c hchild).resolve_right hkept
  have hmatches' : c ∈ k.remaining (k.claims k.waitingTasks []) task.pid args.pid :=
    mem_remaining.mpr ⟨⟨parent, hget, hchild, hmatches⟩, hkept⟩
  have hlist := hafter.matchingChildren hthere hget args.pid
  rw [matchingChildren, hget', Except.ok.injEq] at hlist
  obtain ⟨-, hstill⟩ := List.mem_filter.mp (hlist.symm ▸ hmatches')
  obtain ⟨child, hcget⟩ : ∃ child, k.process c = some child := by
    unfold childMatches at hmatches
    cases hcget : k.process c with
    | none => simp [hcget] at hmatches
    | some child => exact ⟨child, rfl⟩
  obtain ⟨grandchildren, hcget', -⟩ := hafter.kept c hkept child hcget
  refine ⟨_, c, _, hget', hstays, hstill, hcget', ?_⟩
  rw [hasExited, hcget] at hrunning
  cases hexit : child.exitState with
  | running => rfl
  | exited status => simp [hexit, ExitState.isExited] at hrunning

/-! ### Runs -/

theorem readProcessField_handed (currentPid : GuestPid) (rawPid : Nat) (field : GuestProcess → Nat) :
    (k.readProcessField currentPid rawPid field).handed = [] := by
  unfold readProcessField
  repeat' split
  all_goals rfl

theorem uname_handed (buffer : GuestAddress) : (uname buffer).handed = [] := by
  unfold uname
  split <;> rfl

theorem dispatchTask_handed {request : SyscallRequest} {task : GuestTask} {outcome : SyscallOutcome}
    (h : k.dispatchTask load request task = some (outcome, k')) :
    outcome.handed = ((request.operation k task).map fun op => (op.run load k).1.handed).getD [] := by
  unfold dispatchTask at h
  unfold SyscallRequest.operation
  cases hsyscall : request.syscall <;>
    simp only [hsyscall, Option.some.injEq, Option.map_eq_some_iff] at h ⊢
  case getppid =>
      obtain ⟨_, -, h⟩ := h
      rw [← (Prod.mk.inj h).1]
      rfl
  case getpgrp =>
      obtain ⟨_, -, h⟩ := h
      rw [← (Prod.mk.inj h).1]
      rfl
  case execve =>
      obtain ⟨process, hprocess, h⟩ := h
      obtain rfl : _ = outcome := congrArg Prod.fst h
      rw [hprocess]
      unfold execveCurrent
      rcases k.execTask load request.tid _ with ⟨_ | _, _⟩ <;> rfl
  all_goals
    obtain rfl : _ = outcome := congrArg Prod.fst h
    first
      | rfl
      | exact readProcessField_handed _ _ _
      | exact uname_handed _

theorem call_handed {call : KernelCall} {reply : KernelReply} (h : call.run load k = some (reply, k')) :
    reply.handed = ((call.operation k).map fun op => (op.run load k).1.handed).getD [] := by
  cases call with
  | direct op =>
      obtain rfl : _ = reply := congrArg Prod.fst (Option.some.inj h)
      rfl
  | dispatch request =>
      simp only [KernelCall.run, Option.map_eq_some_iff, Prod.exists] at h
      obtain ⟨outcome, k₁, hdispatch, hk⟩ := h
      obtain rfl : _ = reply := congrArg Prod.fst hk
      change outcome.handed = _
      unfold dispatchForCurrentTask at hdispatch
      cases htask : k.task request.tid with
      | none =>
          simp only [htask, Option.some.injEq, Prod.mk.injEq] at hdispatch
          simp only [KernelCall.operation, htask, ← hdispatch.1]
          rfl
      | some task =>
          simp only [htask] at hdispatch
          simp only [KernelCall.operation, htask]
          by_cases hpid : task.pid ≠ request.pid
          · rw [if_pos hpid] at hdispatch ⊢
            obtain rfl : _ = outcome := congrArg Prod.fst (Option.some.inj hdispatch)
            rfl
          · rw [if_neg hpid] at hdispatch ⊢
            exact dispatchTask_handed hdispatch

theorem handsOver_of_call (hk : Consistent k) {call : KernelCall} {reply : KernelReply}
    (h : call.run load k = some (reply, k')) : HandsOver k reply.handed k' := by
  rw [call_handed h, KernelCall.run_state h]
  cases call.operation k with
  | none => exact (Evolves.refl k).handsOver
  | some op => exact handsOver_of_op hk op

def handedOver (replies : List KernelReply) : List WaitedChild := replies.flatMap KernelReply.handed

theorem supported_initial (image : GuestImageState) : Supported (initial image) := by
  intro tid args hstate
  rw [initial, stateOf_insertTask] at hstate
  split at hstate
  · cases hstate
  · cases hstate

/-- What a run has handed over is no process any more, and its numbers are spent. -/
theorem Logged.handedOver_gone {condition : GuestKernel → KernelOp → Prop} {k₀ : GuestKernel}
    {replies : List KernelReply} (h : Logged load condition k₀ replies k) (hk₀ : Consistent k₀) :
    Consistent k ∧ ((handedOver replies).map WaitedChild.pid).Nodup ∧
      ∀ w ∈ handedOver replies, w.pid < k.nextPid ∧ (k.process w.pid).isNone = true := by
  induction h with
  | start => exact ⟨hk₀, List.nodup_nil, nofun⟩
  | step _ call hcondition hrun ih =>
      rename_i k k' replies reply _
      obtain ⟨hk, hdistinct, hgone⟩ := ih
      have hstep := handsOver_of_call hk hrun
      obtain ⟨_, _, hrun', hk'⟩ := hk.call load call
      obtain rfl := (Prod.mk.inj (Option.some.inj (hrun.symm.trans hrun'))).2
      rw [handedOver, List.flatMap_append, List.flatMap_singleton]
      refine ⟨hk', ?_, fun w hw => ?_⟩
      · rw [List.map_append, List.nodup_append]
        refine ⟨hdistinct, hstep.distinct, fun pid hold pid' hnew heq => ?_⟩
        obtain ⟨w, hw, rfl⟩ := List.mem_map.mp hold
        obtain ⟨w', hw', rfl⟩ := List.mem_map.mp hnew
        obtain ⟨child, hchild, -⟩ := hstep.own w' hw'
        have hnone := (hgone w hw).2
        rw [heq, hchild] at hnone
        exact nomatch hnone
      · rcases List.mem_append.mp hw with hw | hw
        · obtain ⟨hspent, hnone⟩ := hgone w hw
          refine ⟨lt_of_lt_of_le hspent hstep.next, ?_⟩
          rw [← Option.not_isSome, Bool.not_eq_true']
          refine Bool.eq_false_iff.mpr fun hback => ?_
          rcases hstep.born w.pid hback with hthere | hnew
          · rw [← Option.not_isSome, hthere] at hnone
            exact nomatch hnone
          · exact absurd hspent (not_lt.mpr hnew)
        · obtain ⟨child, hchild, -⟩ := hstep.own w hw
          exact ⟨lt_of_lt_of_le (hk.pidBound hchild) hstep.next, hstep.gone w hw⟩

def servedKernel : GuestKernel :=
  [KernelOp.forkChild 1, .wait4Current 1 ⟨-1, 0, 0, 0⟩ 0, .exitGroup 2 7].foldl
    (fun k op => (op.run (fun _ => .ok sampleImage) k).2) (initial sampleImage)

def strandingCalls : List KernelCall :=
  [.direct (.cloneWithChildRegs 1 ⟨0x10f00, 0, 0, 0, 0⟩ (.new 0 0)), .direct (.forkChild 1),
    .direct (.wait4Current 1 ⟨-1, 0, 0, 0⟩ 0), .direct (.wait4Current 2 ⟨-1, 0, 0, 0⟩ 0),
    .direct (.exitGroup 2 0), .direct .resumeWaitingTasks]

end GuestKernel

end Mcr.Task
