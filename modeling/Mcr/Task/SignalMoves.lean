import Mcr.Task.SignalLedger

/-!
# How the kernel moves signals

Every entry of the kernel moves the signals of the ledger that accounts for it: the posts by what the entry is asked
to do, the handovers by the waits for signals that it ends.
-/

namespace Mcr.Task.GuestKernel

variable {k k' : GuestKernel} {scope : Scope} {l l' : SignalLedger} {view : TaskView}

/-! ### Slots -/

theorem delivery_of_task {tid : GuestTid} {task : GuestTask} (h : k.task tid = some task) :
    k.delivery tid = task.pendingSignalDelivery := by
  rw [delivery, h, Option.bind_some]

theorem delivery_congr (h : (k'.task tid).map GuestTask.pendingSignalDelivery =
    (k.task tid).map GuestTask.pendingSignalDelivery) : k'.delivery tid = k.delivery tid := by
  unfold delivery
  cases htask : k.task tid <;> cases htask' : k'.task tid <;> simp_all

theorem delivery_modifyTask_of_keeps {f : GuestTask → GuestTask}
    (hf : ∀ task, (f task).pendingSignalDelivery = task.pendingSignalDelivery) (k : GuestKernel) (tid j : GuestTid) :
    (k.modifyTask tid f).delivery j = k.delivery j :=
  delivery_congr (map_modifyTask hf k tid j)

@[simp] theorem delivery_setTaskState (k : GuestKernel) (tid j : GuestTid) (state : TaskState) :
    (k.setTaskState tid state).delivery j = k.delivery j := by
  unfold delivery
  rw [task_setTaskState]
  split
  · rename_i hj
    subst hj
    cases k.task j <;> rfl
  · rfl

theorem delivery_take (k : GuestKernel) (tid : GuestTid) (pid : GuestPid) (mask : SignalMask) (j : GuestTid) :
    (k.takePendingSignalForTask tid pid mask).2.delivery j = k.delivery j := by
  rcases takePendingSignalForTask_cases k tid pid mask with
    ⟨_, _, -, -, heq⟩ | ⟨_, _, -, -, -, heq⟩ | ⟨-, -, heq⟩ <;> rw [heq]
  · exact delivery_modifyTask_of_keeps (fun _ => by rfl) k tid j
  · rfl

theorem task_take_of_ne (pid : GuestPid) (mask : SignalMask) {tid j : GuestTid} (hj : j ≠ tid) :
    (k.takePendingSignalForTask tid pid mask).2.task j = k.task j := by
  rcases takePendingSignalForTask_cases k tid pid mask with
    ⟨_, _, -, -, heq⟩ | ⟨_, _, -, -, -, heq⟩ | ⟨-, -, heq⟩ <;> rw [heq]
  · rw [task_modifyTask, if_neg hj]
  · rfl

theorem exists_task_take (pid : GuestPid) (mask : SignalMask) {tid : GuestTid} {task : GuestTask}
    (htask : k.task tid = some task) : ∃ task', (k.takePendingSignalForTask tid pid mask).2.task tid = some task' := by
  rcases takePendingSignalForTask_cases k tid pid mask with
    ⟨_, _, -, -, heq⟩ | ⟨_, _, -, -, -, heq⟩ | ⟨-, -, heq⟩ <;> rw [heq]
  · exact ⟨_, by rw [task_modifyTask, if_pos rfl, htask, Option.map_some]⟩
  · exact ⟨task, htask⟩
  · exact ⟨task, htask⟩

/-! ### The turn of a waiter -/

/-- A wait that finds a signal takes it and ends: in the slot of its task, or in its result. -/
structure EndsWait (k k' : GuestKernel) (tid : GuestTid) (pid : GuestPid) (mask : SignalMask) (returnsSignal : Bool)
    (target : SignalTarget) (signal : Nat) : Prop where
  within : target = .task tid ∨ target = .process pid
  mem : signal ∈ k.pending target
  named : signalMatchesMask signal mask = true
  pending : ∀ j s, s ∈ k'.pending j ↔ s ∈ k.pending j ∧ ¬(j = target ∧ s = signal)
  delivery : ∀ j, k'.delivery j = if j = tid ∧ returnsSignal = false then some signal else k.delivery j
  others : ∀ j, j ≠ tid → k'.task j = k.task j
  ended : ∃ task, k'.task tid = some task ∧ task.state = .runnable ∧ (returnsSignal = true → task.regs.rax = signal)
  interrupted : returnsSignal = false →
    ∃ task, k'.task tid = some task ∧ task.regs.rax = (SyscallReturn.errno eintr).encode

theorem wakeSignalWaiter_turn {tid : GuestTid} {task : GuestTask} (htask : k.task tid = some task) (pid : GuestPid)
    (mask : SignalMask) (returnsSignal : Bool) :
    k.wakeSignalWaiter pid tid mask returnsSignal = k ∨
      ∃ target signal, EndsWait k (k.wakeSignalWaiter pid tid mask returnsSignal) tid pid mask returnsSignal target
        signal := by
  obtain ⟨task₁, htask₁⟩ := exists_task_take pid mask htask
  have hothers : ∀ j, j ≠ tid → (k.takePendingSignalForTask tid pid mask).2.task j = k.task j :=
    fun j hj => task_take_of_ne pid mask hj
  have hdelivery := delivery_take k tid pid mask
  unfold wakeSignalWaiter
  rcases take_cases k tid pid mask with ⟨-, heq⟩ | ⟨signal, hfinds, target, hwithin, hmem, hsome, hpending, -⟩
  · exact Or.inl (by rw [heq])
  · refine Or.inr ⟨target, signal, ?_⟩
    generalize k.takePendingSignalForTask tid pid mask = result at htask₁ hothers hdelivery hsome hpending ⊢
    obtain ⟨taken, k₁⟩ := result
    obtain rfl : taken = some signal := hsome
    dsimp only at htask₁ hothers hdelivery hpending ⊢
    rw [htask₁]
    dsimp only
    refine
      { within := hwithin
        mem := hmem
        named := hfinds.1
        pending := fun j s => ?_
        delivery := fun j => ?_
        others := fun j hj => ?_
        ended := ?_
        interrupted := fun hsuspends => ?_ }
    · rw [pending_setTaskState, pending_modifyTask_of_keeps fun task => (endSignalWait_keeps signal _ task).2]
      exact hpending j s
    · rw [delivery_setTaskState, ← hdelivery j]
      cases returnsSignal with
      | true =>
          rw [if_neg fun h => nomatch h.2]
          exact delivery_modifyTask_of_keeps (fun _ => by rfl) k₁ tid j
      | false =>
          unfold GuestKernel.delivery
          rw [task_modifyTask]
          by_cases hj : j = tid
          · subst hj
            simp [htask₁, endSignalWait]
          · simp [hj]
    · rw [task_setTaskState, if_neg hj, task_modifyTask, if_neg hj, hothers j hj]
    · refine ⟨_, by rw [task_setTaskState, if_pos rfl, task_modifyTask, if_pos rfl, htask₁, Option.map_some,
        Option.map_some], rfl, fun hreturns => ?_⟩
      subst hreturns
      rfl
    · refine ⟨_, by rw [task_setTaskState, if_pos rfl, task_modifyTask, if_pos rfl, htask₁, Option.map_some,
        Option.map_some], ?_⟩
      subst hsuspends
      rfl

/-! ### Waking the waiters -/

/-- The wait for a signal of a task that was parked in `rt_sigtimedwait` has ended with the signal. -/
def WokenWith (k k' : GuestKernel) (tid : GuestTid) (signal : Nat) : Prop :=
  (∃ mask, k.stateOf tid = some (.waitingForSignalSet mask)) ∧
    ∃ task, k'.task tid = some task ∧ task.state = .runnable ∧ task.regs.rax = signal

/-- The waiters wait as they are listed, with empty slots where the signal goes into one. -/
structure Waiting (view : TaskView) (pid : GuestPid) (waiters : List (GuestTid × SignalMask × Bool)) (k : GuestKernel) :
    Prop where
  distinct : (waiters.map Prod.fst).Nodup
  parked : ∀ {tid mask returnsSignal}, (tid, mask, returnsSignal) ∈ waiters →
    ∃ task, k.task tid = some task ∧ signalWait task.state = some (mask, returnsSignal)
  owner : ∀ {tid mask returnsSignal}, (tid, mask, returnsSignal) ∈ waiters → view.owner tid = some pid
  empty : ∀ {tid mask}, (tid, mask, false) ∈ waiters → k.delivery tid = none
  mask : ∀ {tid mask}, (tid, mask, false) ∈ waiters → view.mask tid = ~~~mask

theorem task_wakeSignalWaiter_of_ne (pid : GuestPid) (mask : SignalMask) (returnsSignal : Bool) {tid j : GuestTid}
    (hj : j ≠ tid) : (k.wakeSignalWaiter pid tid mask returnsSignal).task j = k.task j := by
  have hothers : (k.takePendingSignalForTask tid pid mask).2.task j = k.task j := task_take_of_ne pid mask hj
  unfold wakeSignalWaiter
  generalize k.takePendingSignalForTask tid pid mask = result at hothers ⊢
  obtain ⟨_ | signal, k₁⟩ := result
  · exact hothers
  · dsimp only at hothers ⊢
    split
    · exact hothers
    · rw [task_setTaskState, if_neg hj, task_modifyTask, if_neg hj, hothers]

theorem task_wakeEach_of_not_mem (pid : GuestPid) (waiters : List (GuestTid × SignalMask × Bool)) (k : GuestKernel)
    {j : GuestTid} (hj : j ∉ waiters.map Prod.fst) : (wakeEach pid waiters k).task j = k.task j := by
  induction waiters generalizing k with
  | nil => rfl
  | cons waiter rest ih =>
      obtain ⟨tid, mask, returnsSignal⟩ := waiter
      rw [List.map_cons, List.mem_cons, not_or] at hj
      exact (ih _ hj.2).trans (task_wakeSignalWaiter_of_ne pid mask returnsSignal hj.1)

theorem Waiting.tail {pid : GuestPid} {waiter : GuestTid × SignalMask × Bool}
    {rest : List (GuestTid × SignalMask × Bool)} (h : Waiting view pid (waiter :: rest) k)
    (htasks : ∀ j, j ≠ waiter.1 → k'.task j = k.task j) : Waiting view pid rest k' := by
  have hne : ∀ {tid mask returnsSignal}, (tid, mask, returnsSignal) ∈ rest → tid ≠ waiter.1 := by
    intro tid mask returnsSignal hmem heq
    exact (List.nodup_cons.mp h.distinct).1 (List.mem_map.mpr ⟨_, hmem, heq⟩)
  refine ⟨(List.nodup_cons.mp h.distinct).2, fun hmem => ?_, fun hmem => h.owner (List.mem_cons_of_mem _ hmem),
    fun hmem => ?_, fun hmem => h.mask (List.mem_cons_of_mem _ hmem)⟩
  · rw [htasks _ (hne hmem)]
    exact h.parked (List.mem_cons_of_mem _ hmem)
  · rw [delivery, htasks _ (hne hmem), ← delivery]
    exact h.empty (List.mem_cons_of_mem _ hmem)

theorem signalMatchesMask_not {signal : Nat} {mask : SignalMask} (h : signalMatchesMask signal mask = true) :
    signalMatchesMask signal (~~~mask) = false := by
  rw [signalMatchesMask_eq, Bool.and_eq_true] at h
  rw [signalMatchesMask_eq, BitVec.getLsbD_not, h.2, Bool.not_true, Bool.and_false, Bool.and_false]

theorem returnsSignal_state {state : TaskState} {mask : SignalMask} (h : signalWait state = some (mask, true)) :
    state = .waitingForSignalSet mask := by
  cases state <;> simp_all [signalWait]

theorem suspends_state {state : TaskState} {mask : SignalMask} (h : signalWait state = some (mask, false)) :
    state = .waitingForSignalSuspend mask := by
  cases state <;> simp_all [signalWait]

/-- The loop of `wake_signal_waiters` moves the signals that it takes, and returns those that `rt_sigtimedwait`
waited for. -/
theorem moves_wakeEach {pid : GuestPid} (waiters : List (GuestTid × SignalMask × Bool))
    (h : Waiting view pid waiters k) {l₀ : SignalLedger} {posts : List Posted} {handovers : List Handover}
    (hmoves : Moves view l₀ posts handovers l) (haccounts : Accounts l k) :
    ∃ returned l', Moves view l₀ posts (handovers ++ returned) l' ∧ Accounts l' (wakeEach pid waiters k) ∧
      returned.Nodup ∧ ∀ x, x ∈ returned ↔ ∃ tid signal, x = .returned tid signal ∧ tid ∈ waiters.map Prod.fst ∧
        WokenWith k (wakeEach pid waiters k) tid signal := by
  induction waiters generalizing k l handovers with
  | nil =>
      refine ⟨[], l, by rwa [List.append_nil], haccounts, List.nodup_nil, fun x => ?_⟩
      simp
  | cons waiter rest ih =>
      obtain ⟨tid, mask, returnsSignal⟩ := waiter
      obtain ⟨task, htask, hwait⟩ := h.parked List.mem_cons_self
      have hnot : tid ∉ rest.map Prod.fst := (List.nodup_cons.mp h.distinct).1
      have hstate : k.stateOf tid = some task.state := by rw [stateOf, htask, Option.map_some]
      change ∃ returned l', _ ∧ Accounts l' (wakeEach pid rest (k.wakeSignalWaiter pid tid mask returnsSignal)) ∧ _ ∧
        ∀ x, _ ↔ ∃ j s, _ ∧ _ ∧ WokenWith k (wakeEach pid rest (k.wakeSignalWaiter pid tid mask returnsSignal)) j s
      have hlast : (wakeEach pid rest (k.wakeSignalWaiter pid tid mask returnsSignal)).task tid =
          (k.wakeSignalWaiter pid tid mask returnsSignal).task tid := task_wakeEach_of_not_mem pid rest _ hnot
      -- the later waiters are the same before and after this one's turn
      have hrest : ∀ (k' : GuestKernel) {j s}, j ∈ rest.map Prod.fst →
          (WokenWith (k.wakeSignalWaiter pid tid mask returnsSignal) k' j s ↔ WokenWith k k' j s) := by
        intro k' j s hj
        have hne : j ≠ tid := fun heq => hnot (heq ▸ hj)
        rw [WokenWith, WokenWith, stateOf, task_wakeSignalWaiter_of_ne pid mask returnsSignal hne, ← stateOf]
      have hwaiting : Waiting view pid rest (k.wakeSignalWaiter pid tid mask returnsSignal) :=
        h.tail fun j hj => task_wakeSignalWaiter_of_ne pid mask returnsSignal hj
      rcases wakeSignalWaiter_turn htask pid mask returnsSignal with hsame | ⟨target, signal, hends⟩
      · rw [hsame] at hlast hrest hwaiting ⊢
        obtain ⟨returned, l', hmoves', haccounts', hnodup, hmem⟩ := ih hwaiting hmoves haccounts
        refine ⟨returned, l', hmoves', haccounts', hnodup, fun x => (hmem x).trans ?_⟩
        constructor
        · rintro ⟨j, s, rfl, hj, hreturned⟩
          exact ⟨j, s, rfl, List.mem_cons_of_mem _ hj, hreturned⟩
        · rintro ⟨j, s, rfl, hj, hreturned⟩
          rcases List.mem_cons.mp hj with rfl | hj
          · obtain ⟨t, ht, hrunnable, -⟩ := hreturned.2
            rw [hlast, htask, Option.some.injEq] at ht
            rw [ht, hrunnable] at hwait
            cases hwait
          · exact ⟨j, s, rfl, hj, hreturned⟩
      · have hwithin : view.Within target tid := hends.within.imp_right fun heq => ⟨pid, heq, h.owner List.mem_cons_self⟩
        have hpending := haccounts.mem_pending.mpr hends.mem
        cases returnsSignal with
        | true =>
            have hheld : ∀ j, (k.wakeSignalWaiter pid tid mask true).delivery j = k.delivery j := fun j => by
              rw [hends.delivery, if_neg fun hj => by cases hj.2]
            obtain ⟨returned, l', hmoves', haccounts', hnodup, hmem⟩ :=
              ih hwaiting (hmoves.wait hpending hwithin) (haccounts.handOver hends.mem hends.pending hheld tid)
            rw [List.append_assoc, List.singleton_append] at hmoves'
            refine ⟨_, l', hmoves', haccounts', List.nodup_cons.mpr ⟨fun hx => ?_, hnodup⟩, fun x => ?_⟩
            · obtain ⟨j, s, heq, hj, -⟩ := (hmem _).mp hx
              exact hnot ((Handover.returned.inj heq).1 ▸ hj)
            · obtain ⟨ended, htask', hrunnable, hrax⟩ := hends.ended
              rw [List.mem_cons, hmem]
              constructor
              · rintro (rfl | ⟨j, s, rfl, hj, hreturned⟩)
                · refine ⟨tid, signal, rfl, List.mem_cons_self, ⟨mask, ?_⟩, ended, hlast.trans htask', hrunnable, hrax rfl⟩
                  rw [hstate, returnsSignal_state hwait]
                · exact ⟨j, s, rfl, List.mem_cons_of_mem _ hj, (hrest _ hj).mp hreturned⟩
              · rintro ⟨j, s, rfl, hj, hreturned⟩
                rcases List.mem_cons.mp hj with rfl | hj
                · obtain ⟨t, ht, -, hs⟩ := hreturned.2
                  rw [hlast, htask', Option.some.injEq] at ht
                  rw [← hs, ← ht, hrax rfl]
                  exact Or.inl rfl
                · exact Or.inr ⟨j, s, rfl, hj, (hrest _ hj).mpr hreturned⟩
        | false =>
            have hempty := h.empty List.mem_cons_self
            have hheld : ∀ j, (k.wakeSignalWaiter pid tid mask false).delivery j =
                if j = tid then some signal else k.delivery j := fun j => by
              rw [hends.delivery]
              simp only [and_true]
            have hmask : signalMatchesMask signal (view.mask tid) = false := by
              rw [h.mask List.mem_cons_self]
              exact signalMatchesMask_not hends.named
            obtain ⟨returned, l', hmoves', haccounts', hnodup, hmem⟩ :=
              ih hwaiting (hmoves.hold hpending hwithin hmask (haccounts.held_none hempty))
                (haccounts.hold hends.mem hends.pending hempty hheld)
            refine ⟨returned, l', hmoves', haccounts', hnodup, fun x => (hmem x).trans ?_⟩
            constructor
            · rintro ⟨j, s, rfl, hj, hreturned⟩
              exact ⟨j, s, rfl, List.mem_cons_of_mem _ hj, (hrest _ hj).mp hreturned⟩
            · rintro ⟨j, s, rfl, hj, hreturned⟩
              rcases List.mem_cons.mp hj with rfl | hj
              · obtain ⟨m, hset⟩ := hreturned.1
                rw [hstate, Option.some.injEq] at hset
                rw [hset] at hwait
                cases hwait
              · exact ⟨j, s, rfl, hj, (hrest _ hj).mpr hreturned⟩

/-! ### Edits that leave the signals alone -/

def has (k : GuestKernel) : SignalTarget → Bool
  | .process pid => (k.process pid).isSome
  | .task tid => (k.task tid).isSome

theorem pending_of_not_has {target : SignalTarget} (h : k.has target = false) : k.pending target = .empty := by
  cases target with
  | process pid =>
      have hnone : k.process pid = none := by simpa [has] using h
      rw [pending, hnone, Option.map_none, Option.getD_none]
  | task tid =>
      have hnone : k.task tid = none := by simpa [has] using h
      rw [pending, hnone, Option.map_none, Option.getD_none]

theorem delivery_of_not_has {tid : GuestTid} (h : k.has (.task tid) = false) : k.delivery tid = none := by
  have hnone : k.task tid = none := by simpa [has] using h
  rw [delivery, hnone, Option.bind_none]

/-- What is there afterwards was there before, with the same signals, or is new and has none. -/
structure Carries (k k' : GuestKernel) : Prop where
  next : k.nextPid ≤ k'.nextPid ∧ k.nextTid ≤ k'.nextTid
  process : ∀ {pid process'}, k'.process pid = some process' →
    (∃ process, k.process pid = some process ∧ process'.pendingSignals = process.pendingSignals) ∨
      k.nextPid ≤ pid ∧ process'.pendingSignals = .empty
  task : ∀ {tid task'}, k'.task tid = some task' →
    (∃ task, k.task tid = some task ∧ task'.pendingSignals = task.pendingSignals ∧
      task'.pendingSignalDelivery = task.pendingSignalDelivery) ∨
      k.nextTid ≤ tid ∧ task'.pendingSignals = .empty ∧ task'.pendingSignalDelivery = none

theorem Carries.refl (k : GuestKernel) : Carries k k :=
  ⟨⟨le_rfl, le_rfl⟩, fun h => Or.inl ⟨_, h, rfl⟩, fun h => Or.inl ⟨_, h, rfl, rfl⟩⟩

theorem Carries.trans {k'' : GuestKernel} (h : Carries k k') (h' : Carries k' k'') : Carries k k'' where
  next := ⟨h.next.1.trans h'.next.1, h.next.2.trans h'.next.2⟩
  process hprocess := by
    rcases h'.process hprocess with ⟨middle, hmiddle, heq⟩ | ⟨hnew, hempty⟩
    · rcases h.process hmiddle with ⟨before, hbefore, heq'⟩ | ⟨hnew, hempty⟩
      · exact Or.inl ⟨before, hbefore, heq.trans heq'⟩
      · exact Or.inr ⟨hnew, heq.trans hempty⟩
    · exact Or.inr ⟨h.next.1.trans hnew, hempty⟩
  task htask := by
    rcases h'.task htask with ⟨middle, hmiddle, heq, hslot⟩ | ⟨hnew, hempty⟩
    · rcases h.task hmiddle with ⟨before, hbefore, heq', hslot'⟩ | ⟨hnew, hempty, hnone⟩
      · exact Or.inl ⟨before, hbefore, heq.trans heq', hslot.trans hslot'⟩
      · exact Or.inr ⟨hnew, heq.trans hempty, hslot.trans hnone⟩
    · exact Or.inr ⟨h.next.2.trans hnew, hempty⟩

theorem carries_modifyTask (k : GuestKernel) (tid : GuestTid) {f : GuestTask → GuestTask}
    (hf : ∀ task, (f task).pendingSignals = task.pendingSignals ∧
      (f task).pendingSignalDelivery = task.pendingSignalDelivery) : Carries k (k.modifyTask tid f) where
  next := ⟨le_rfl, le_rfl⟩
  process hprocess := Or.inl ⟨_, hprocess, rfl⟩
  task htask := by
    rw [task_modifyTask] at htask
    split at htask
    · obtain ⟨task, hget, rfl⟩ := Option.map_eq_some_iff.mp htask
      exact Or.inl ⟨task, ‹_ = tid› ▸ hget, hf task⟩
    · exact Or.inl ⟨_, htask, rfl, rfl⟩

theorem carries_modifyProcess (k : GuestKernel) (pid : GuestPid) {f : GuestProcess → GuestProcess}
    (hf : ∀ process, (f process).pendingSignals = process.pendingSignals) : Carries k (k.modifyProcess pid f) where
  next := ⟨le_rfl, le_rfl⟩
  process hprocess := by
    rw [process_modifyProcess] at hprocess
    split at hprocess
    · obtain ⟨process, hget, rfl⟩ := Option.map_eq_some_iff.mp hprocess
      exact Or.inl ⟨process, ‹_ = pid› ▸ hget, hf process⟩
    · exact Or.inl ⟨_, hprocess, rfl⟩
  task htask := Or.inl ⟨_, htask, rfl, rfl⟩

theorem carries_setTaskState (k : GuestKernel) (tid : GuestTid) (state : TaskState) :
    Carries k (k.setTaskState tid state) where
  next := ⟨(next_setTaskState k tid state).1.ge, (next_setTaskState k tid state).2.ge⟩
  process hprocess := Or.inl ⟨_, by rwa [process_setTaskState] at hprocess, rfl⟩
  task htask := by
    rw [task_setTaskState] at htask
    split at htask
    · obtain ⟨task, hget, rfl⟩ := Option.map_eq_some_iff.mp htask
      exact Or.inl ⟨task, ‹_ = tid› ▸ hget, rfl, rfl⟩
    · exact Or.inl ⟨_, htask, rfl, rfl⟩

theorem Carries.insertTask (h : Carries k k') (task : GuestTask) (hnew : k.nextTid ≤ task.tid)
    (hpending : task.pendingSignals = .empty) (hslot : task.pendingSignalDelivery = none) :
    Carries k (k'.insertTask task) where
  next := ⟨h.next.1.trans (next_insertTask k' task).1.ge, h.next.2.trans (next_insertTask k' task).2.ge⟩
  process hprocess := h.process (by rwa [process_insertTask] at hprocess)
  task htask := by
    rw [task_insertTask] at htask
    split at htask
    · rename_i htid
      obtain rfl := Option.some.inj htask
      exact Or.inr ⟨htid.symm ▸ hnew, hpending, hslot⟩
    · exact h.task htask

theorem Carries.insertProcess (h : Carries k k') {pid : GuestPid} (process : GuestProcess) (hnew : k.nextPid ≤ pid)
    (hpending : process.pendingSignals = .empty) :
    Carries k { k' with processes := k'.processes.insert pid process } where
  next := h.next
  process hprocess := by
    rw [GuestKernel.process, SortedMap.get?_insert] at hprocess
    split at hprocess
    · rename_i hpid
      obtain rfl := Option.some.inj hprocess
      exact Or.inr ⟨hpid.symm ▸ hnew, hpending⟩
    · exact h.process hprocess
  task htask := h.task htask

theorem carries_spend (k : GuestKernel) (pids tids : Nat) :
    Carries k { k with nextPid := k.nextPid + pids, nextTid := k.nextTid + tids } :=
  ⟨⟨Nat.le_add_right _ _, Nat.le_add_right _ _⟩, fun h => Or.inl ⟨_, h, rfl⟩, fun h => Or.inl ⟨_, h, rfl, rfl⟩⟩

theorem carries_withoutProcess (k : GuestKernel) (pid : GuestPid) : Carries k (k.withoutProcess pid) where
  next := ⟨(next_foldl_removeTask (k.tidsOf pid) k).1.ge, (next_foldl_removeTask (k.tidsOf pid) k).2.ge⟩
  process hprocess := by
    rw [process_withoutProcess] at hprocess
    split at hprocess
    · exact nomatch hprocess
    · exact Or.inl ⟨_, hprocess, rfl⟩
  task {tid _} htask := by
    change ((k.tidsOf pid).foldl GuestKernel.removeTask k).task tid = some _ at htask
    rw [task_foldl_removeTask] at htask
    split at htask
    · exact nomatch htask
    · exact Or.inl ⟨_, htask, rfl, rfl⟩

theorem QuietEdit.carries (h : QuietEdit scope k k') (htakes : ¬scope.takes) (hposts : ¬scope.posts) :
    Carries k k' := by
  cases h with
  | task tid f hf => exact carries_modifyTask k tid fun task => (hf.kept task).2.2.2.2
  | process pid f hf => exact carries_modifyProcess k pid fun process => (hf.kept process).2.2.2.2
  | mask tid mask => exact carries_modifyTask k tid fun _ => ⟨rfl, rfl⟩
  | takeTask _ _ h => exact absurd h htakes
  | takeProcess _ _ h => exact absurd h htakes
  | slot _ _ h => exact absurd h htakes
  | postTask _ _ h => exact absurd h hposts
  | postProcess _ _ h => exact absurd h hposts
  | wake tid => exact carries_setTaskState k tid _
  | requeue tid source target => exact carries_setTaskState k tid _
  | park tid state => exact carries_setTaskState k tid _
  | exit tid status => exact carries_setTaskState k tid _

theorem KernelEdit.carries (h : KernelEdit scope k k') (htakes : ¬scope.takes) (hposts : ¬scope.posts) :
    Carries k k' := by
  cases h with
  | quiet h => exact h.carries htakes hposts
  | ended pid status => exact carries_modifyProcess k pid fun _ => rfl
  | image pid image => exact carries_modifyProcess k pid fun _ => rfl
  | revive tid => exact carries_setTaskState k tid .runnable
  | spendPid => exact carries_spend k 1 0
  | fork tid parentTask parent =>
      have hprocess := (carries_spend k 1 1).insertProcess (forkedProcess parent parentTask.pid k.nextPid) le_rfl rfl
      have htask := hprocess.insertTask (forkedTask parentTask k.nextPid k.nextTid) le_rfl rfl rfl
      exact htask.trans (carries_modifyProcess _ parentTask.pid fun _ => rfl)
  | thread tid parentTask _ _ args childRegs =>
      exact (carries_spend k 0 1).insertTask (threadTask parentTask args k.nextTid childRegs) le_rfl rfl rfl
  | reap parentPid childPid =>
      exact (carries_withoutProcess k childPid).trans (carries_modifyProcess _ parentPid fun _ => rfl)

theorem Edits.carries (h : Edits scope k k') (htakes : ¬scope.takes) (hposts : ¬scope.posts) : Carries k k' := by
  induction h with
  | refl => exact .refl k
  | tail _ hedit ih => exact ih.trans (hedit.carries htakes hposts)

/-! ### Targets that are removed -/

/-- Where the signals of the targets that are not there go. -/
def removal (k : GuestKernel) (posted : Posted) : SignalPlace → SignalPlace
  | .pending => if k.has posted.1 then .pending else .gone
  | .held tid => if k.has (.task tid) then .held tid else .gone
  | place => place

theorem removal_eq_pending {posted : Posted} {place : SignalPlace} :
    k.removal posted place = .pending ↔ place = .pending ∧ k.has posted.1 = true := by
  cases place with
  | pending => by_cases h : k.has posted.1 = true <;> simp [removal, h]
  | held tid => by_cases h : k.has (.task tid) = true <;> simp [removal, h]
  | handed tid => simp [removal]
  | gone => simp [removal]

theorem removal_eq_held {posted : Posted} {place : SignalPlace} {tid : GuestTid} :
    k.removal posted place = .held tid ↔ place = .held tid ∧ k.has (.task tid) = true := by
  cases place with
  | pending => by_cases h : k.has posted.1 = true <;> simp [removal, h]
  | held j =>
      by_cases hj : j = tid
      · subst hj
        by_cases h : k.has (.task j) = true <;> simp [removal, h]
      · by_cases h : k.has (.task j) = true <;> simp [removal, h, hj]
  | handed tid => simp [removal]
  | gone => simp [removal]

theorem Carries.pending_eq (h : Carries k k') (hk : Consistent k) {target : SignalTarget} (hhas : k'.has target = true) :
    k'.pending target = k.pending target := by
  cases target with
  | process pid =>
      obtain ⟨process', hprocess'⟩ := Option.isSome_iff_exists.mp hhas
      rw [pending_of_process hprocess']
      rcases h.process hprocess' with ⟨process, hprocess, heq⟩ | ⟨hnew, hempty⟩
      · rw [pending_of_process hprocess, heq]
      · cases hbefore : k.process pid with
        | none => rw [hempty, GuestKernel.pending, hbefore, Option.map_none, Option.getD_none]
        | some process => exact absurd hnew (not_le.mpr (hk.pidBound hbefore))
  | task tid =>
      obtain ⟨task', htask'⟩ := Option.isSome_iff_exists.mp hhas
      rw [pending_of_task htask']
      rcases h.task htask' with ⟨task, htask, heq, -⟩ | ⟨hnew, hempty, -⟩
      · rw [pending_of_task htask, heq]
      · cases hbefore : k.task tid with
        | none => rw [hempty, GuestKernel.pending, hbefore, Option.map_none, Option.getD_none]
        | some task => exact absurd hnew (not_le.mpr (hk.tidBound hbefore))

theorem Carries.delivery_eq (h : Carries k k') (hk : Consistent k) {tid : GuestTid}
    (hhas : k'.has (.task tid) = true) : k'.delivery tid = k.delivery tid := by
  obtain ⟨task', htask'⟩ := Option.isSome_iff_exists.mp hhas
  rw [delivery_of_task htask']
  rcases h.task htask' with ⟨task, htask, -, heq⟩ | ⟨hnew, -, hnone⟩
  · rw [delivery_of_task htask, heq]
  · cases hbefore : k.task tid with
    | none => rw [hnone, delivery, hbefore, Option.bind_none]
    | some task => exact absurd hnew (not_le.mpr (hk.tidBound hbefore))

theorem Accounts.carried (h : Accounts l k) (hk : Consistent k) (hcarries : Carries k k') :
    Accounts (l.relocate k'.removal) k' where
  pending target signal := by
    rw [Ledger.countP_relocate]
    by_cases hhas : k'.has target = true
    · rw [hcarries.pending_eq hk hhas, ← h.pending]
      refine Multiset.countP_congr rfl fun e _ => propext ?_
      simp only [Prod.ext_iff, removal_eq_pending]
      constructor
      · exact fun heq => ⟨heq.1, heq.2.1⟩
      · exact fun heq => ⟨heq.1, heq.2, by rwa [heq.1.1]⟩
    · rw [pending_of_not_has (Bool.not_eq_true _ ▸ hhas), if_neg (SortedSet.not_mem_empty signal)]
      refine Multiset.countP_eq_zero.mpr fun e _ heq => hhas ?_
      have hplace := removal_eq_pending.mp (congrArg Prod.snd heq)
      rw [congrArg Prod.fst heq] at hplace
      exact hplace.2
  held tid signal := by
    rw [Ledger.countP_relocate]
    by_cases hhas : k'.has (.task tid) = true
    · rw [hcarries.delivery_eq hk hhas, ← h.held]
      refine Multiset.countP_congr rfl fun e _ => ?_
      simp only [removal_eq_held, hhas, and_true]
    · rw [delivery_of_not_has (Bool.not_eq_true _ ▸ hhas), if_neg nofun]
      exact Multiset.countP_eq_zero.mpr fun e _ heq => hhas (removal_eq_held.mp heq.2).2

end Mcr.Task.GuestKernel
