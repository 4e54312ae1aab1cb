import Mcr.Task.SignalMoves

/-!
# The entries and the signals

What an entry of the kernel does to the signals: it posts what it is asked to send, unless that is pending already,
the waits for signals that it ends return or hold what they took, and nothing else moves. Between the entries no
mask blocks `SIGKILL` or `SIGSTOP`, and a task that is parked in `rt_sigsuspend` has nothing in its slot.
-/

namespace Mcr.Task

namespace GuestKernel

variable {k k' k₁ : GuestKernel} {scope : Scope} {l l₀ : SignalLedger} {posts : List Posted} {handovers : List Handover}

/-! ### Parked waits -/

theorem Edits.parkedBefore (h : Edits scope k k') (htakes : ¬scope.takes) {tid : GuestTid} {state : TaskState}
    (hwait : (signalWait state).isSome = true) (hstate : k'.stateOf tid = some state) : k.stateOf tid = some state := by
  induction h with
  | refl => exact hstate
  | tail _ hedit ih =>
      refine ih ?_
      cases hedit.becomes hstate with
      | kept h => exact h
      | parked _ _ _ _ hwaits => exact absurd (hwaits hwait) htakes
      | _ => exact absurd hwait Bool.false_ne_true

theorem Edits.parkedAfter (h : Edits scope k k') (hk : Consistent k) (htakes : ¬scope.takes) {tid : GuestTid}
    (hactor : ¬scope.parks tid) {state : TaskState} (hwait : (signalWait state).isSome = true)
    (hstate : k.stateOf tid = some state) {state' : TaskState} (hstate' : k'.stateOf tid = some state') :
    state' = state ∨ state'.isExited = true := by
  obtain ⟨task, htask, -⟩ := Option.map_eq_some_iff.mp hstate
  have hkept : tid < k'.nextTid ∧ ∀ s, k'.stateOf tid = some s → s = state ∨ s.isExited = true := by
    refine h.preserves (P := fun k' => tid < k'.nextTid ∧ ∀ s, k'.stateOf tid = some s → s = state ∨ s.isExited = true)
      (fun hedit hold => ⟨lt_of_lt_of_le hold.1 hedit.nextTid_le, fun s hs => ?_⟩)
      ⟨hk.tidBound htask, fun s hs => Or.inl (Option.some.inj (hs.symm.trans hstate))⟩
    cases hedit.becomes hs with
    | kept h => exact hold.2 s h
    | woken hbefore hlive hwaits =>
        rcases hold.2 _ hbefore with rfl | hexited
        · exact absurd (hwaits hwait) htakes
        · exact absurd (hexited.symm.trans hlive) Bool.noConfusion
    | requeued hbefore =>
        rcases hold.2 _ hbefore with rfl | hexited
        · exact absurd hwait Bool.false_ne_true
        · exact nomatch hexited
    | parked _ hparks => exact absurd hparks hactor
    | ended => exact Or.inr rfl
    | revived _ hparks => exact absurd hparks hactor
    | born htid => exact absurd hold.1 (htid ▸ lt_irrefl _)
  exact hkept.2 state' hstate'

/-- The waits for signals are those of before, but for tasks that have exited. -/
structure SameWaits (k k' : GuestKernel) : Prop where
  before : ∀ {tid state}, (signalWait state).isSome = true → k'.stateOf tid = some state → k.stateOf tid = some state
  after : ∀ {tid state state'}, (signalWait state).isSome = true → k.stateOf tid = some state →
    k'.stateOf tid = some state' → state' = state ∨ state'.isExited = true
  owner : ∀ {tid task task'}, k.task tid = some task → k'.task tid = some task' → task'.pid = task.pid

theorem Edits.sameWaits (h : Edits scope k k') (hk : Consistent k) (htakes : ¬scope.takes)
    (hactor : ∀ tid, scope.parks tid → k.stateOf tid = some .runnable) : SameWaits k k' where
  before := h.parkedBefore htakes
  after {tid state state'} hwait hstate hstate' := by
    refine h.parkedAfter hk htakes (fun hparks => ?_) hwait hstate hstate'
    obtain rfl := Option.some.inj ((hactor tid hparks).symm.trans hstate)
    exact absurd hwait Bool.false_ne_true
  owner := h.owner hk

theorem SameWaits.not_returned (h : SameWaits k k') {tid : GuestTid} {signal : Nat} : ¬WokenWith k k' tid signal := by
  rintro ⟨⟨mask, hwait⟩, task, htask, hrunnable, -⟩
  have hstate : k'.stateOf tid = some .runnable := by rw [stateOf, htask, Option.map_some, hrunnable]
  rcases h.after rfl hwait hstate with heq | hexited
  · cases heq
  · cases hexited

/-! ### Masks and slots -/

def MasksSanitized (k : GuestKernel) : Prop := ∀ tid task, k.task tid = some task → Sanitized task.signalMask

/-- No mask blocks `SIGKILL` or `SIGSTOP`, and the slot of a task in `rt_sigsuspend` is empty. -/
structure Guarded (k : GuestKernel) : Prop where
  mask : MasksSanitized k
  suspended : ∀ {tid task allowed}, k.task tid = some task → task.state = .waitingForSignalSuspend allowed →
    task.pendingSignalDelivery = none ∧ Sanitized (~~~allowed)

theorem KernelEdit.masks (h : KernelEdit scope k k') (hk : MasksSanitized k) : MasksSanitized k' := by
  intro tid task' htask
  have hmodified : ∀ {j f}, (k.modifyTask j f).task tid = some task' → (∀ task, (f task).signalMask = task.signalMask) →
      Sanitized task'.signalMask := by
    intro j f ht hf
    rw [task_modifyTask] at ht
    split at ht
    · obtain ⟨t, hget, rfl⟩ := Option.map_eq_some_iff.mp ht
      exact hf t ▸ hk _ t hget
    · exact hk tid task' ht
  have hmoved : ∀ {j state}, (k.setTaskState j state).task tid = some task' → Sanitized task'.signalMask := by
    intro j state ht
    rw [task_setTaskState] at ht
    split at ht
    · obtain ⟨t, hget, rfl⟩ := Option.map_eq_some_iff.mp ht
      exact hk _ t hget
    · exact hk tid task' ht
  cases h with
  | quiet h =>
      cases h with
      | task j f hf => exact hmodified htask fun task => (hf.kept task).2.2.2.1
      | process pid f => exact hk tid task' htask
      | mask j mask hmask =>
          rw [task_modifyTask] at htask
          split at htask
          · obtain ⟨t, hget, rfl⟩ := Option.map_eq_some_iff.mp htask
            exact hmask t hget (hk _ t hget)
          · exact hk tid task' htask
      | takeTask j signal => exact hmodified htask fun _ => rfl
      | takeProcess pid signal => exact hk tid task' htask
      | slot j signal => exact hmodified htask fun _ => rfl
      | postTask j signal => exact hmodified htask fun _ => rfl
      | postProcess pid signal => exact hk tid task' htask
      | wake j => exact hmoved htask
      | requeue j source target => exact hmoved htask
      | park j state => exact hmoved htask
      | exit j status => exact hmoved htask
  | ended pid status => exact hk tid task' htask
  | image pid image => exact hk tid task' htask
  | revive j => exact hmoved htask
  | spendPid => exact hk tid task' htask
  | fork j parentTask parent hparent =>
      rw [insertFork, task_modifyProcess, task_insertTask] at htask
      split at htask
      · obtain rfl := Option.some.inj htask
        exact hk j parentTask hparent
      · exact hk tid task' htask
  | thread j parentTask hparent =>
      rw [task_insertTask] at htask
      split at htask
      · obtain rfl := Option.some.inj htask
        exact hk j parentTask hparent
      · exact hk tid task' htask
  | reap parentPid childPid =>
      rw [task_modifyProcess] at htask
      change ((k.tidsOf childPid).foldl GuestKernel.removeTask k).task tid = some task' at htask
      rw [task_foldl_removeTask] at htask
      split at htask
      · cases htask
      · exact hk tid task' htask

theorem Edits.masks (h : Edits scope k k') (hk : MasksSanitized k) : MasksSanitized k' :=
  h.preserves (fun hedit hk => hedit.masks hk) hk

theorem Edits.guarded (h : Edits scope k k') (htakes : ¬scope.takes) (hposts : ¬scope.posts) (hk : Guarded k) :
    Guarded k' where
  mask := h.masks hk.mask
  suspended {tid task' allowed} htask' hstate := by
    have hstate' : k'.stateOf tid = some (.waitingForSignalSuspend allowed) := by
      rw [stateOf, htask', Option.map_some, hstate]
    have hbefore := h.parkedBefore htakes rfl hstate'
    obtain ⟨task, htask, hsuspended⟩ := Option.map_eq_some_iff.mp hbefore
    obtain ⟨hempty, hsanitized⟩ := hk.suspended htask hsuspended
    refine ⟨?_, hsanitized⟩
    rcases (h.carries htakes hposts).task htask' with ⟨before, hget, -, hslot⟩ | ⟨-, -, hnone⟩
    · obtain rfl := Option.some.inj (htask.symm.trans hget)
      exact hslot.trans hempty
    · exact hnone

/-! ### Waking the waiters -/

theorem sublist_map_filterMap {α β : Type} {f : α → GuestTid} {g : α → Option (GuestTid × β)}
    (h : ∀ a b, g a = some b → b.1 = f a) (as : List α) : ((as.filterMap g).map Prod.fst).Sublist (as.map f) := by
  induction as with
  | nil => exact .slnil
  | cons a rest ih =>
      rw [List.filterMap_cons, List.map_cons]
      cases ha : g a with
      | none => exact ih.cons _
      | some b =>
          rw [List.map_cons, h a b ha]
          exact ih.cons_cons _

theorem signalWaiters_nodup (hk : Named k) (pid : GuestPid) : ((k.signalWaiters pid).map Prod.fst).Nodup := by
  have hkeys : (k.tasks.values.map GuestTask.tid).Nodup := by
    rw [SortedMap.values_map_of_keys hk]
    exact k.tasks.keys_sorted.imp fun h => h.ne
  refine (sublist_map_filterMap (fun task waiter hwaiter => ?_) k.tasks.values).nodup hkeys
  split at hwaiter
  · obtain ⟨_, -, rfl⟩ := Option.map_eq_some_iff.mp hwaiter
    rfl
  · exact nomatch hwaiter

theorem Guarded.wakeSignalWaiter (hk : Guarded k) {tid : GuestTid} {task : GuestTask} (htask : k.task tid = some task)
    (pid : GuestPid) (mask : SignalMask) (returnsSignal : Bool) :
    Guarded (k.wakeSignalWaiter pid tid mask returnsSignal) where
  mask j t ht := by
    have hmap := steady_signalMask.wakeSignalWaiter k pid tid mask returnsSignal j
    rw [ht, Option.map_some] at hmap
    obtain ⟨before, hbefore, heq⟩ := Option.map_eq_some_iff.mp hmap.symm
    exact heq ▸ hk.mask j before hbefore
  suspended {j t allowed} ht hstate := by
    rcases wakeSignalWaiter_turn htask pid mask returnsSignal with hsame | ⟨target, signal, hends⟩
    · rw [hsame] at ht
      exact hk.suspended ht hstate
    · by_cases hj : j = tid
      · subst hj
        obtain ⟨ended, hended, hrunnable, -⟩ := hends.ended
        rw [Option.some.inj (ht.symm.trans hended), hrunnable] at hstate
        exact nomatch hstate
      · exact hk.suspended (hends.others j hj ▸ ht) hstate

theorem Guarded.wakeEach (hk : Guarded k) (pid : GuestPid) (waiters : List (GuestTid × SignalMask × Bool))
    (hthere : ∀ waiter ∈ waiters, ∃ pid, k.ownerOf waiter.1 = some pid) : Guarded (wakeEach pid waiters k) := by
  induction waiters generalizing k with
  | nil => exact hk
  | cons waiter rest ih =>
      obtain ⟨tid, mask, returnsSignal⟩ := waiter
      obtain ⟨_, hpid⟩ := hthere _ List.mem_cons_self
      obtain ⟨task, htask, -⟩ := Option.map_eq_some_iff.mp hpid
      refine ih (hk.wakeSignalWaiter htask pid mask returnsSignal) fun waiter hmem => ?_
      obtain ⟨owner, howner⟩ := hthere waiter (List.mem_cons_of_mem _ hmem)
      exact ⟨owner, (steady_pid.wakeSignalWaiter k pid tid mask returnsSignal waiter.1).trans howner⟩

theorem Guarded.wakeSignalWaiters (hk : Guarded k) (hnamed : Named k) (pid : GuestPid) :
    Guarded (k.wakeSignalWaiters pid) := by
  refine hk.wakeEach pid _ fun waiter hmem => ?_
  obtain ⟨task, htask, -⟩ := (mem_signalWaiters hnamed).mp hmem
  exact ⟨task.pid, by rw [ownerOf, htask, Option.map_some]⟩

def view (k : GuestKernel) : TaskView := ⟨k.ownerOf, fun tid => ((k.task tid).map GuestTask.heldBack).getD 0⟩

theorem view_owner {tid : GuestTid} {task : GuestTask} (h : k.task tid = some task) :
    k.view.owner tid = some task.pid := by
  change k.ownerOf tid = some task.pid
  rw [ownerOf, h, Option.map_some]

theorem view_mask {tid : GuestTid} {task : GuestTask} (h : k.task tid = some task) :
    k.view.mask tid = task.heldBack := by
  change ((k.task tid).map GuestTask.heldBack).getD 0 = task.heldBack
  rw [h, Option.map_some, Option.getD_some]

theorem waiting_signalWaiters (hnamed : Named k₁) (hk₁ : Guarded k₁) (h : SameWaits k k₁) (pid : GuestPid) :
    Waiting k.view pid (k₁.signalWaiters pid) k₁ := by
  have hbefore : ∀ {tid mask returnsSignal}, (tid, mask, returnsSignal) ∈ k₁.signalWaiters pid →
      ∃ task task₁, k.task tid = some task ∧ k₁.task tid = some task₁ ∧ task₁.pid = pid ∧ task.state = task₁.state ∧
        signalWait task₁.state = some (mask, returnsSignal) := by
    intro tid mask returnsSignal hmem
    obtain ⟨task₁, htask₁, hpid, hwait⟩ := (mem_signalWaiters hnamed).mp hmem
    have hstate := h.before (by rw [hwait]; rfl) (by rw [stateOf, htask₁, Option.map_some])
    obtain ⟨task, htask, heq⟩ := Option.map_eq_some_iff.mp hstate
    exact ⟨task, task₁, htask, htask₁, hpid, heq, hwait⟩
  refine
    { distinct := signalWaiters_nodup hnamed pid
      parked := fun hmem => ?_
      owner := fun hmem => ?_
      empty := fun hmem => ?_
      mask := fun hmem => ?_ }
  · obtain ⟨_, task₁, -, htask₁, -, -, hwait⟩ := hbefore hmem
    exact ⟨task₁, htask₁, hwait⟩
  · obtain ⟨task, task₁, htask, htask₁, hpid, -, -⟩ := hbefore hmem
    rw [view_owner htask, ← h.owner htask htask₁, hpid]
  · obtain ⟨_, task₁, -, htask₁, -, -, hwait⟩ := hbefore hmem
    rw [delivery_of_task htask₁]
    exact (hk₁.suspended htask₁ (suspends_state hwait)).1
  · obtain ⟨task, task₁, htask, -, -, hstate, hwait⟩ := hbefore hmem
    rw [view_mask htask, GuestTask.heldBack, hstate, suspends_state hwait]

theorem moves_wakeSignalWaiters (hnamed : Named k₁) (hk₁ : Guarded k₁) (h : SameWaits k k₁) (pid : GuestPid)
    (hmoves : Moves k.view l₀ posts handovers l) (haccounts : Accounts l k₁) :
    ∃ returned l', Moves k.view l₀ posts (handovers ++ returned) l' ∧ Accounts l' (k₁.wakeSignalWaiters pid) ∧
      returned.Nodup ∧
      ∀ x, x ∈ returned ↔ ∃ tid signal, x = .returned tid signal ∧ WokenWith k (k₁.wakeSignalWaiters pid) tid signal := by
  have hwaiting := waiting_signalWaiters hnamed hk₁ h pid
  obtain ⟨returned, l', hmoves', haccounts', hnodup, hmem⟩ := moves_wakeEach (k₁.signalWaiters pid) hwaiting hmoves haccounts
  refine ⟨returned, l', hmoves', haccounts', hnodup, fun x => (hmem x).trans ?_⟩
  change (∃ tid signal, _ ∧ _ ∧ WokenWith k₁ (k₁.wakeSignalWaiters pid) tid signal) ↔ _
  constructor
  · rintro ⟨tid, signal, rfl, -, ⟨mask, hparked⟩, hended⟩
    exact ⟨tid, signal, rfl, ⟨mask, h.before rfl hparked⟩, hended⟩
  · rintro ⟨tid, signal, rfl, ⟨mask, hparked⟩, hended⟩
    by_cases hmem : tid ∈ (k₁.signalWaiters pid).map Prod.fst
    · obtain ⟨⟨j, waited, returnsSignal⟩, hwaiter, rfl⟩ := List.mem_map.mp hmem
      obtain ⟨task, htask, hwait⟩ := hwaiting.parked hwaiter
      have hstate : k₁.stateOf j = some task.state := by rw [stateOf, htask, Option.map_some]
      have hset := (h.before (by rw [hwait]; rfl) hstate).symm.trans hparked
      exact ⟨j, signal, rfl, hmem, ⟨mask, hstate.trans hset⟩, hended⟩
    · -- a task that is not one of the waiters is as the edits have left it, so it does not run
      obtain ⟨task, htask, hrunnable, hrax⟩ := hended
      rw [show (k₁.wakeSignalWaiters pid).task tid = k₁.task tid from task_wakeEach_of_not_mem pid _ k₁ hmem] at htask
      exact absurd ⟨⟨mask, hparked⟩, task, htask, hrunnable, hrax⟩ h.not_returned

/-! ### Edits that leave the signals where they are -/

structure SameSignals (k k' : GuestKernel) : Prop where
  has : ∀ target, k'.has target = k.has target
  pending : ∀ target, k'.pending target = k.pending target
  delivery : ∀ tid, k'.delivery tid = k.delivery tid

theorem SameSignals.refl (k : GuestKernel) : SameSignals k k := ⟨fun _ => rfl, fun _ => rfl, fun _ => rfl⟩

theorem SameSignals.trans {k'' : GuestKernel} (h : SameSignals k k') (h' : SameSignals k' k'') : SameSignals k k'' where
  has target := (h'.has target).trans (h.has target)
  pending target := (h'.pending target).trans (h.pending target)
  delivery tid := (h'.delivery tid).trans (h.delivery tid)

theorem SameSignals.accounts (h : SameSignals k k') (haccounts : Accounts l k) : Accounts l k' :=
  haccounts.same (fun target _ => by rw [h.pending]) h.delivery

theorem sameSignals_setTaskState (k : GuestKernel) (tid : GuestTid) (state : TaskState) :
    SameSignals k (k.setTaskState tid state) where
  has target := by
    cases target with
    | process pid => rw [has, process_setTaskState, has]
    | task j =>
        rw [has, task_setTaskState, has]
        split
        · rename_i hj
          rw [hj, Option.isSome_map]
        · rfl
  pending := pending_setTaskState k tid state
  delivery j := delivery_setTaskState k tid j state

theorem sameSignals_foldl_setTaskState (tids : List GuestTid) (state : TaskState) (k : GuestKernel) :
    SameSignals k (tids.foldl (fun k tid => k.setTaskState tid state) k) := by
  induction tids generalizing k with
  | nil => exact .refl k
  | cons tid rest ih => exact (sameSignals_setTaskState k tid state).trans (ih _)

theorem sameSignals_modifyTask (k : GuestKernel) (tid : GuestTid) {f : GuestTask → GuestTask}
    (hf : ∀ task, (f task).pendingSignals = task.pendingSignals ∧
      (f task).pendingSignalDelivery = task.pendingSignalDelivery) : SameSignals k (k.modifyTask tid f) where
  has target := by
    cases target with
    | process pid => rfl
    | task j =>
        rw [has, task_modifyTask, has]
        split
        · rename_i hj
          rw [hj, Option.isSome_map]
        · rfl
  pending := pending_modifyTask_of_keeps (fun task => (hf task).1) k tid
  delivery j := delivery_modifyTask_of_keeps (fun task => (hf task).2) k tid j

theorem sameSignals_modifyProcess (k : GuestKernel) (pid : GuestPid) {f : GuestProcess → GuestProcess}
    (hf : ∀ process, (f process).pendingSignals = process.pendingSignals) : SameSignals k (k.modifyProcess pid f) where
  has target := by
    cases target with
    | task tid => rfl
    | process j =>
        rw [has, process_modifyProcess, has]
        split
        · rename_i hj
          rw [hj, Option.isSome_map]
        · rfl
  pending := pending_modifyProcess_of_keeps hf k pid
  delivery _ := rfl

theorem sameSignals_endFutexWait (k : GuestKernel) (tid : GuestTid) (errno : Net.LinuxErrno) :
    SameSignals k (k.endFutexWait tid errno).2 := by
  unfold endFutexWait
  split
  · split
    · have hregs := sameSignals_modifyTask k tid (f := fun task =>
        { task with regs := task.regs.withSyscallReturn task.regs.rip (SyscallReturn.errno errno).encode })
        fun _ => ⟨rfl, rfl⟩
      exact hregs.trans (sameSignals_setTaskState _ tid .runnable)
    · exact .refl k
  · exact .refl k

/-! ### Posts -/

def freshly (k : GuestKernel) (target : SignalTarget) (signal : Nat) : List Posted :=
  if k.has target = true ∧ signal ∉ k.pending target then [(target, signal)] else []

theorem SameSignals.freshly (h : SameSignals k k') (target : SignalTarget) (signal : Nat) :
    k'.freshly target signal = k.freshly target signal := by
  rw [GuestKernel.freshly, h.has, h.pending, GuestKernel.freshly]

theorem moves_post (view : TaskView) (target : SignalTarget) (signal : Nat) (haccounts : Accounts l k)
    (hpending : ∀ j s, s ∈ k'.pending j ↔ s ∈ k.pending j ∨ (j = target ∧ s = signal ∧ k.has target = true))
    (hdelivery : ∀ tid, k'.delivery tid = k.delivery tid) :
    ∃ l', Moves view l (k.freshly target signal) [] l' ∧ Accounts l' k' := by
  by_cases hfresh : k.has target = true ∧ signal ∉ k.pending target
  · rw [freshly, if_pos hfresh]
    refine ⟨_, Moves.start.post (target, signal) fun hmem => hfresh.2 (haccounts.mem_pending.mp hmem),
      haccounts.post hfresh.2 (fun j s => ?_) hdelivery⟩
    rw [hpending, and_iff_left hfresh.1]
  · rw [freshly, if_neg hfresh]
    refine ⟨l, .start, haccounts.same (fun j s => (hpending j s).trans ⟨?_, Or.inl⟩) hdelivery⟩
    rintro (hmem | ⟨rfl, rfl, hhas⟩)
    · exact hmem
    · exact of_not_not fun hnot => hfresh ⟨hhas, hnot⟩

/-- An entry posts the signals, and returns from the waits it ends what they took. -/
structure Sends (k k' : GuestKernel) (posted : List Posted) : Prop where
  guarded : Guarded k'
  moves : ∀ {l}, Accounts l k → ∃ returned l', Moves k.view l posted returned l' ∧ Accounts l' k' ∧
    returned.Nodup ∧ ∀ x, x ∈ returned ↔ ∃ tid signal, x = .returned tid signal ∧ WokenWith k k' tid signal

theorem sends_of_sameWaits (hwaits : SameWaits k k') (hguarded : Guarded k') (hsame : SameSignals k k') :
    Sends k k' [] where
  guarded := hguarded
  moves haccounts := by
    refine ⟨[], _, .start, hsame.accounts haccounts, List.nodup_nil, fun x => ⟨nofun, ?_⟩⟩
    rintro ⟨tid, signal, -, hreturned⟩
    exact absurd hreturned hwaits.not_returned

/-- Nothing but the ends of tasks and processes. -/
theorem sends_of_ends (hk : Consistent k) (hg : Guarded k) (h : Edits .ends k k') (hsame : SameSignals k k') :
    Sends k k' [] :=
  sends_of_sameWaits (h.sameWaits hk id fun _ hparks => False.elim hparks) (h.guarded id id hg) hsame

theorem sends_refl (hk : Consistent k) (hg : Guarded k) : Sends k k [] := sends_of_ends hk hg .refl (.refl k)

theorem sends_queueProcessSignal (hk : Consistent k) (hg : Guarded k) (h : Edits .ends k k₁) (hsame : SameSignals k k₁)
    (pid : GuestPid) (signal : Nat) :
    Sends k (k₁.queueProcessSignal pid signal) (k.freshly (.process pid) signal) := by
  have hwaits := h.sameWaits hk id fun _ hparks => False.elim hparks
  have hg₁ := h.guarded id id hg
  let k₂ := k₁.modifyProcess pid fun process => { process with pendingSignals := process.pendingSignals.insert signal }
  have hnamed : Named k₂ := (h.consistent hk).named
  have hg₂ : Guarded k₂ := ⟨hg₁.mask, hg₁.suspended⟩
  refine ⟨hg₂.wakeSignalWaiters hnamed pid, fun {l} haccounts => ?_⟩
  obtain ⟨l₁, hmoves, haccounts₂⟩ := moves_post k.view (.process pid) signal (hsame.accounts haccounts)
    (fun j s => mem_pending_postProcess) fun _ => rfl
  rw [hsame.freshly] at hmoves
  exact moves_wakeSignalWaiters hnamed hg₂ ⟨hwaits.before, hwaits.after, hwaits.owner⟩ pid hmoves haccounts₂

/-! ### Ends of processes -/

def childSignal (k : GuestKernel) (pid : GuestPid) : List Posted :=
  match (k.process pid).bind GuestProcess.parent with
  | some parent => k.freshly (.process parent) linuxSigchld
  | none => []

theorem edits_resumeVforkParent (hk : Named k) (pid : GuestPid) : Edits .ends k (k.resumeVforkParent pid) := by
  have hwakes : Quiet .wakes k (k.resumeVforkParent pid) := resumeVforkParent_quiet hk pid id
  exact Edits.quiet (hwakes.widen (fun _ => False.elim) False.elim False.elim False.elim False.elim)

theorem sameSignals_resumeVforkParent (k : GuestKernel) (pid : GuestPid) : SameSignals k (k.resumeVforkParent pid) := by
  unfold resumeVforkParent
  split
  · exact .refl k
  · exact sameSignals_foldl_setTaskState _ .runnable k

theorem sends_finishProcess (hk : Consistent k) (hg : Guarded k) (h : Edits .ends k k₁) (hsame : SameSignals k k₁)
    {pid : GuestPid} (hparent : (k₁.process pid).bind GuestProcess.parent = (k.process pid).bind GuestProcess.parent)
    (status : Int) : Sends k (k₁.finishProcess pid status) (k.childSignal pid) := by
  let k₂ := k₁.modifyProcess pid fun process => { process with exitState := .exited status }
  have hended : Edits .ends k k₂ := h.tail (.ended pid status trivial)
  have hedits : Edits .ends k (k₂.resumeVforkParent pid) :=
    hended.trans (edits_resumeVforkParent (hended.consistent hk).named pid)
  have hsame₂ : SameSignals k k₂ := hsame.trans (sameSignals_modifyProcess k₁ pid fun _ => rfl)
  have hsame₃ : SameSignals k (k₂.resumeVforkParent pid) := hsame₂.trans (sameSignals_resumeVforkParent k₂ pid)
  unfold finishProcess childSignal
  rw [hparent]
  cases (k.process pid).bind GuestProcess.parent with
  | some parent => exact sends_queueProcessSignal hk hg hedits hsame₃ parent linuxSigchld
  | none => exact sends_of_ends hk hg hedits hsame₃

/-- `exit_task` sends the signal when it ends the last task of the process. -/
def exitSignal (k : GuestKernel) (tid : GuestTid) (status : Int) : List Posted :=
  match k.task tid with
  | some task => if (k.setTaskState tid (.exited status)).allTasksExited task.pid then k.childSignal task.pid else []
  | none => []

theorem sends_exitTask (hk : Consistent k) (hg : Guarded k) (tid : GuestTid) (status : Int) :
    Sends k (k.exitTask tid status).2 (k.exitSignal tid status) := by
  unfold exitTask exitSignal
  cases htask : k.task tid with
  | none => exact sends_refl hk hg
  | some task =>
      have hexit : Edits .ends k (k.setTaskState tid (.exited status)) := .single (.quiet (.exit tid status trivial))
      have hsame := sameSignals_setTaskState k tid (.exited status)
      dsimp only
      split
      · exact sends_finishProcess hk hg hexit hsame (by rw [process_setTaskState]) status
      · exact sends_of_ends hk hg hexit hsame

theorem process_foldl_setTaskState (tids : List GuestTid) (state : TaskState) (k : GuestKernel) (pid : GuestPid) :
    (tids.foldl (fun k tid => k.setTaskState tid state) k).process pid = k.process pid := by
  induction tids generalizing k with
  | nil => rfl
  | cons tid rest ih => exact (ih _).trans (process_setTaskState k tid state pid)

theorem sends_exitGroup (hk : Consistent k) (hg : Guarded k) (pid : GuestPid) (status : Int) :
    Sends k (k.exitGroup pid status).2 (k.childSignal pid) := by
  unfold exitGroup
  cases hprocess : k.process pid with
  | none =>
      rw [childSignal, hprocess, Option.bind_none]
      exact sends_refl hk hg
  | some process =>
      have hexit : Edits .ends k _ := Edits.quiet (exitEach_quiet (k.tidsOf pid) status trivial k)
      exact sends_finishProcess hk hg hexit (sameSignals_foldl_setTaskState _ _ k)
        (by rw [process_foldl_setTaskState]) status

/-! ### Signals to tasks -/

theorem task_endFutexWait_of_ne_futex {tid j : GuestTid} {errno : Net.LinuxErrno}
    (h : ∀ state, k.stateOf j = some state → state.isWaitingForFutex = false) :
    (k.endFutexWait tid errno).2.task j = k.task j := by
  unfold endFutexWait
  split
  · rename_i task htask
    split
    · rename_i hwaits
      by_cases hj : j = tid
      · subst hj
        rw [h task.state (by rw [stateOf, htask, Option.map_some])] at hwaits
        cases hwaits
      · rw [task_setTaskState, if_neg hj, task_modifyTask, if_neg hj]
    · rfl
  · rfl

theorem sends_queueTaskSignal (hk : Consistent k) (hg : Guarded k) (tid : GuestTid) (signal : Nat) :
    Sends k (k.queueTaskSignal tid signal) (k.freshly (.task tid) signal) := by
  unfold queueTaskSignal
  cases htask : k.task tid with
  | none =>
      rw [freshly, if_neg fun h => by simp [has, htask] at h]
      exact sends_refl hk hg
  | some task =>
      let k₁ := k.modifyTask tid fun task => { task with pendingSignals := task.pendingSignals.insert signal }
      have hpost : Edits .sends k k₁ :=
        .single (.quiet (.postTask tid signal trivial))
      have hwaits := hpost.sameWaits hk id fun _ hparks => False.elim hparks
      have hnamed : Named k₁ := (hpost.consistent hk).named
      have hg₁ : Guarded k₁ := by
        refine ⟨hpost.masks hg.mask, fun {j t allowed} ht hstate => ?_⟩
        rw [task_modifyTask] at ht
        split at ht
        · obtain ⟨before, hbefore, rfl⟩ := Option.map_eq_some_iff.mp ht
          have hempty := hg.suspended hbefore hstate
          exact hempty
        · exact hg.suspended ht hstate
      have hg₂ := hg₁.wakeSignalWaiters hnamed task.pid
      have hwoken : ∀ {l}, Accounts l k → ∃ returned l', Moves k.view l (k.freshly (.task tid) signal) returned l' ∧
          Accounts l' (k₁.wakeSignalWaiters task.pid) ∧ returned.Nodup ∧ ∀ x, x ∈ returned ↔
            ∃ tid signal, x = .returned tid signal ∧ WokenWith k (k₁.wakeSignalWaiters task.pid) tid signal := by
        intro l haccounts
        obtain ⟨l₁, hmoves, haccounts₁⟩ := moves_post k.view (.task tid) signal haccounts
          (fun j s => mem_pending_postTask) (delivery_modifyTask_of_keeps (fun _ => by rfl) k tid)
        exact moves_wakeSignalWaiters hnamed hg₁ hwaits task.pid hmoves haccounts₁
      dsimp only
      split
      · exact ⟨hg₂, hwoken⟩
      · let k₂ := k₁.wakeSignalWaiters task.pid
        have hinterrupt : Edits .ends k₂ (k₂.interruptFutexWaiter tid).2 := Edits.quiet (endFutexWait_quiet k₂ tid eintr)
        have hreturned : ∀ j s, WokenWith k (k₂.interruptFutexWaiter tid).2 j s ↔ WokenWith k k₂ j s := by
          intro j s
          refine and_congr_right fun hparked => ?_
          obtain ⟨mask, hparked⟩ := hparked
          rw [interruptFutexWaiter, task_endFutexWait_of_ne_futex]
          intro state hstate
          rcases stateOf_wakeEach task.pid (k₁.signalWaiters task.pid) k₁ j with hkept | ⟨hrunnable, -⟩
          · rcases hwaits.after rfl hparked (hkept ▸ hstate) with rfl | hexited
            · rfl
            · cases state <;> simp_all [TaskState.isExited, TaskState.isWaitingForFutex]
          · obtain rfl := Option.some.inj (hrunnable.symm.trans hstate)
            rfl
        refine ⟨hinterrupt.guarded id id hg₂, fun {l} haccounts => ?_⟩
        obtain ⟨returned, l', hmoves, haccounts', hnodup, hmem⟩ := hwoken haccounts
        refine ⟨returned, l', hmoves, (sameSignals_endFutexWait k₂ tid eintr).accounts haccounts', hnodup, fun x => ?_⟩
        exact (hmem x).trans (exists₂_congr fun j s => and_congr_right fun _ => (hreturned j s).symm)

theorem sends_killCurrent (hk : Consistent k) (hg : Guarded k) (pid : Int) (sig : Nat) :
    Sends k (k.killCurrent pid sig).2
      (if sig ≠ 0 ∧ (k.killCurrent pid sig).1 = .success 0 then k.freshly (.process pid.toNat) sig else []) := by
  split
  · rename_i h
    obtain ⟨-, _, -, hqueued⟩ := killCurrent_success h.1 h.2
    rw [hqueued]
    exact sends_queueProcessSignal hk hg .refl (.refl k) pid.toNat sig
  · rename_i h
    have hkept : (k.killCurrent pid sig).2 = k := by
      unfold killCurrent at h ⊢
      repeat' split
      all_goals first | rfl | simp_all
    rw [hkept]
    exact sends_refl hk hg

theorem sendTaskSignal_kept {tid : GuestTid} {sig : Nat}
    (h : ¬(sig ≠ 0 ∧ (k.sendTaskSignal tid sig).1 = .success 0)) : (k.sendTaskSignal tid sig).2 = k := by
  unfold sendTaskSignal at h ⊢
  repeat' split
  all_goals first | rfl | simp_all

theorem sends_tkillCurrent (hk : Consistent k) (hg : Guarded k) (tid : Int) (sig : Nat) :
    Sends k (k.tkillCurrent tid sig).2
      (if sig ≠ 0 ∧ (k.tkillCurrent tid sig).1 = .success 0 then k.freshly (.task tid.toNat) sig else []) := by
  split
  · rename_i h
    obtain ⟨-, _, -, hqueued⟩ := tkillCurrent_success h.1 h.2
    rw [hqueued]
    exact sends_queueTaskSignal hk hg tid.toNat sig
  · rename_i h
    have hkept : (k.tkillCurrent tid sig).2 = k := by
      unfold tkillCurrent at h ⊢
      repeat' split
      all_goals first | rfl | (refine sendTaskSignal_kept fun hsent => h ?_; simp_all)
    rw [hkept]
    exact sends_refl hk hg

theorem sends_tgkillCurrent (hk : Consistent k) (hg : Guarded k) (tgid tid : Int) (sig : Nat) :
    Sends k (k.tgkillCurrent tgid tid sig).2
      (if sig ≠ 0 ∧ (k.tgkillCurrent tgid tid sig).1 = .success 0 then k.freshly (.task tid.toNat) sig else []) := by
  split
  · rename_i h
    obtain ⟨-, _, -, hqueued⟩ := tgkillCurrent_success h.1 h.2
    rw [hqueued]
    exact sends_queueTaskSignal hk hg tid.toNat sig
  · rename_i h
    have hkept : (k.tgkillCurrent tgid tid sig).2 = k := by
      unfold tgkillCurrent at h ⊢
      repeat' split
      all_goals first | rfl | (refine sendTaskSignal_kept fun hsent => h ?_; simp_all)
    rw [hkept]
    exact sends_refl hk hg

theorem sends_wakeSignalWaiters (hk : Consistent k) (hg : Guarded k) (pid : GuestPid) :
    Sends k (k.wakeSignalWaiters pid) [] where
  guarded := hg.wakeSignalWaiters hk.named pid
  moves haccounts := by
    have hkept : Edits .ends k k := .refl
    have hwaits : SameWaits k k := hkept.sameWaits hk id fun _ hparks => False.elim hparks
    exact moves_wakeSignalWaiters hk.named hg hwaits pid .start haccounts

end GuestKernel

/-! ### The entries -/

/-- The signals an entry makes pending that were not. -/
def KernelOp.posted (k : GuestKernel) : KernelOp → List Posted
  | .kill pid sig => if sig ≠ 0 ∧ (k.killCurrent pid sig).1 = .success 0 then k.freshly (.process pid.toNat) sig else []
  | .tkill tid sig => if sig ≠ 0 ∧ (k.tkillCurrent tid sig).1 = .success 0 then k.freshly (.task tid.toNat) sig else []
  | .tgkill tgid tid sig =>
    if sig ≠ 0 ∧ (k.tgkillCurrent tgid tid sig).1 = .success 0 then k.freshly (.task tid.toNat) sig else []
  | .exitTask tid status => k.exitSignal tid status
  | .exitGroup pid _ => k.childSignal pid
  | _ => []

def KernelOp.isTake : KernelOp → Bool
  | .takePendingSignalForReturnToUser _ | .rtSigtimedwait _ _ _ _ | .rtSigsuspend _ _ _ => true
  | _ => false

namespace GuestKernel

variable {k : GuestKernel} {load : GuestProgram → Except TaskError GuestImageState}

theorem sends_of_takes (hk : Consistent k) (hg : Guarded k) {op : KernelOp} (htakes : op.takes = true)
    (hop : op.isTake = false) : Sends k (op.run load k).2 (op.posted k) := by
  cases op with
  | kill pid sig => exact sends_killCurrent hk hg pid sig
  | tkill tid sig => exact sends_tkillCurrent hk hg tid sig
  | tgkill tgid tid sig => exact sends_tgkillCurrent hk hg tgid tid sig
  | exitTask tid status => exact sends_exitTask hk hg tid status
  | exitGroup pid status => exact sends_exitGroup hk hg pid status
  | wakeSignalWaiters pid => exact sends_wakeSignalWaiters hk hg pid
  | takePendingSignalForReturnToUser tid => exact nomatch hop
  | rtSigtimedwait tid mask sigsetsize waitIndefinitely => exact nomatch hop
  | rtSigsuspend tid mask sigsetsize => exact nomatch hop
  | _ => exact nomatch htakes

theorem posted_of_not_takes {op : KernelOp} (htakes : ¬op.takes = true) : op.posted k = [] := by
  cases op <;> first | rfl | exact absurd rfl htakes

theorem takes_of_posts {op : KernelOp} (hposts : op.posts = true) : op.takes = true := by
  cases op <;> first | rfl | exact nomatch hposts

/-- An entry that takes no signal for the caller posts what it sends, returns from the waits that it ends what
they took, and removes signals only with their targets. -/
theorem moves_op (hk : Consistent k) (hg : Guarded k) {op : KernelOp} (hop : op.isTake = false)
    (hactor : ∀ tid, op.actor = some tid → k.stateOf tid = some .runnable) :
    Guarded (op.run load k).2 ∧ ∀ {l}, Accounts l k → ∃ returned l', Moves k.view l (op.posted k) returned l' ∧
      Accounts (l'.relocate (op.run load k).2.removal) (op.run load k).2 ∧ returned.Nodup ∧
      ∀ x, x ∈ returned ↔ ∃ tid signal, x = .returned tid signal ∧ WokenWith k (op.run load k).2 tid signal := by
  by_cases htakes : op.takes = true
  · have hsends : Sends k (op.run load k).2 (op.posted k) := sends_of_takes hk hg htakes hop
    refine ⟨hsends.guarded, fun haccounts => ?_⟩
    obtain ⟨returned, l', hmoves, haccounts', hreturned⟩ := hsends.moves haccounts
    exact ⟨returned, l', hmoves, haccounts'.carried (hk.op op) (.refl _), hreturned⟩
  · have hposts : ¬op.posts = true := fun hposts => htakes (takes_of_posts hposts)
    have hedits : Edits op.scope k (op.run load k).2 := edits_of_op hk op
    refine ⟨hedits.guarded htakes hposts hg, fun {l} haccounts => ⟨[], l, ?_, ?_, List.nodup_nil, fun x => ⟨nofun, ?_⟩⟩⟩
    · rw [posted_of_not_takes htakes]
      exact .start
    · exact haccounts.carried hk (hedits.carries htakes hposts)
    · rintro ⟨tid, signal, -, hreturned⟩
      exact absurd hreturned (hedits.sameWaits hk htakes hactor).not_returned

end GuestKernel

end Mcr.Task
