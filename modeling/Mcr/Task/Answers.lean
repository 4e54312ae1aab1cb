import Mcr.Task.SignalCalls

/-!
# How an interrupted wait ends

A task that hears a signal runs afterwards. If it waited for the signal in `rt_sigtimedwait`, that call returns it;
any other wait ends in `EINTR`, and the signal is kept for the task, which takes it on its way back to user code after
those that come before it.
-/

namespace Mcr.Task.GuestKernel

variable {k k' : GuestKernel} {tid : GuestTid} {task : GuestTask} {signal : Nat}

/-! ### Signals that a task will take -/

/-- The signals that the task takes on its way back to user code, one on each. -/
inductive Takes (tid : GuestTid) : GuestKernel → List Nat → GuestKernel → Prop
  | done (k : GuestKernel) : Takes tid k [] k
  | next {k k₁ k' : GuestKernel} {signal : Nat} {rest : List Nat} :
      k.takePendingSignalForReturnToUser tid = (some signal, k₁) → Takes tid k₁ rest k' → Takes tid k (signal :: rest) k'

/-- The task takes the signal on its way back to user code, after those that come before it. -/
def Leads (k : GuestKernel) (tid : GuestTid) (signal : Nat) : Prop :=
  ∃ before k₁ k₂, Takes tid k before k₁ ∧ k₁.takePendingSignalForReturnToUser tid = (some signal, k₂)

theorem leads_of_held (htask : k.task tid = some task) (hheld : task.pendingSignalDelivery = some signal) :
    k.Leads tid signal := by
  refine ⟨[], k, k.modifyTask tid fun task => { task with pendingSignalDelivery := none }, .done k, ?_⟩
  rw [takePendingSignalForReturnToUser, htask, Option.bind_some, hheld]

/-- What is pending for the task or for its process. -/
def waitingSignals (k : GuestKernel) (tid : GuestTid) (pid : GuestPid) : Finset (SignalTarget × Nat) :=
  ([SignalTarget.task tid, SignalTarget.process pid].flatMap fun target =>
    (k.pending target).toList.map fun signal => (target, signal)).toFinset

theorem mem_waitingSignals {pid : GuestPid} {target : SignalTarget} : (target, signal) ∈ k.waitingSignals tid pid ↔
    (target = .task tid ∨ target = .process pid) ∧ signal ∈ k.pending target := by
  simp only [waitingSignals, List.mem_toFinset, List.mem_flatMap, List.mem_cons, List.not_mem_nil, or_false,
    List.mem_map, SortedSet.mem_toList, Prod.mk.injEq]
  constructor
  · rintro ⟨j, hj, s, hs, rfl, rfl⟩
    exact ⟨hj, hs⟩
  · rintro ⟨htarget, hmem⟩
    exact ⟨target, htarget, signal, hmem, rfl, rfl⟩

theorem waitingSignals_take {pid : GuestPid} {target : SignalTarget}
    (htarget : target = .task tid ∨ target = .process pid) (hmem : signal ∈ k.pending target)
    (hpending : ∀ j s, s ∈ k'.pending j ↔ s ∈ k.pending j ∧ ¬(j = target ∧ s = signal)) :
    (k'.waitingSignals tid pid).card < (k.waitingSignals tid pid).card := by
  have hthere : (target, signal) ∈ k.waitingSignals tid pid := mem_waitingSignals.mpr ⟨htarget, hmem⟩
  refine Finset.card_lt_card ((Finset.ssubset_iff_of_subset fun x hx => ?_).mpr ⟨_, hthere, fun hx => ?_⟩)
  · obtain ⟨hwithin, hx⟩ := mem_waitingSignals.mp hx
    exact mem_waitingSignals.mpr ⟨hwithin, ((hpending _ _).mp hx).1⟩
  · exact ((hpending _ _).mp (mem_waitingSignals.mp hx).2).2 ⟨rfl, rfl⟩

theorem leads_of_pending_of_empty (htask : k.task tid = some task) (hempty : task.pendingSignalDelivery = none)
    (hadmits : signalMatchesMask signal (~~~task.signalMask) = true)
    (hmem : signal ∈ k.pending (.task tid) ∨ signal ∈ k.pending (.process task.pid)) : k.Leads tid signal := by
  induction hn : (k.waitingSignals tid task.pid).card using Nat.strong_induction_on generalizing k task with
  | _ n ih =>
      have htakes : k.takePendingSignalForReturnToUser tid =
          k.takePendingSignalForTask tid task.pid (~~~task.signalMask) := by
        rw [takePendingSignalForReturnToUser, htask, Option.bind_some, hempty]
      rcases take_cases k tid task.pid (~~~task.signalMask) with
        ⟨hnone, -⟩ | ⟨s, hfinds, target, htarget, hpends, hsome, hpending, -⟩
      · exact absurd ⟨hadmits, hmem⟩ (hnone signal)
      · by_cases hs : s = signal
        · exact ⟨[], k, _, .done k, htakes.trans (Prod.ext (hs ▸ hsome) rfl)⟩
        · obtain ⟨task₁, htask₁⟩ := exists_task_take task.pid (~~~task.signalMask) htask
          have hkept : task₁.pid = task.pid ∧ task₁.signalMask = task.signalMask ∧
              task₁.pendingSignalDelivery = none := by
            have hpid := steady_pid.takePendingSignalForTask k tid task.pid (~~~task.signalMask) tid
            have hmask := steady_signalMask.takePendingSignalForTask k tid task.pid (~~~task.signalMask) tid
            have hslot := delivery_take k tid task.pid (~~~task.signalMask) tid
            rw [htask₁, htask, Option.map_some, Option.map_some, Option.some.injEq] at hpid hmask
            rw [delivery_of_task htask₁, delivery_of_task htask] at hslot
            exact ⟨hpid, hmask, hslot.trans hempty⟩
          have hless := waitingSignals_take htarget hpends hpending
          have hstill : ∀ j, signal ∈ k.pending j → signal ∈ (k.takePendingSignalForTask tid task.pid
              (~~~task.signalMask)).2.pending j :=
            fun j h => (hpending j signal).mpr ⟨h, fun heq => hs heq.2.symm⟩
          rw [hn] at hless
          obtain ⟨before, k₁, k₂, htaken, hlast⟩ := ih _ hless htask₁ hkept.2.2 (by rwa [hkept.2.1]) (by
            rw [hkept.1]
            exact hmem.imp (hstill _) (hstill _)) (by rw [hkept.1])
          exact ⟨s :: before, k₁, k₂, .next (htakes.trans (Prod.ext hsome rfl)) htaken, hlast⟩

/-- A signal that is pending for a task, or for its process, and not blocked is taken by it. -/
theorem leads_of_pending (htask : k.task tid = some task)
    (hadmits : signalMatchesMask signal (~~~task.signalMask) = true)
    (hmem : signal ∈ k.pending (.task tid) ∨ signal ∈ k.pending (.process task.pid)) : k.Leads tid signal := by
  cases hslot : task.pendingSignalDelivery with
  | none => exact leads_of_pending_of_empty htask hslot hadmits hmem
  | some held =>
      have htakes : k.takePendingSignalForReturnToUser tid =
          (some held, k.modifyTask tid fun task => { task with pendingSignalDelivery := none }) := by
        rw [takePendingSignalForReturnToUser, htask, Option.bind_some, hslot]
      have htask₁ : (k.modifyTask tid fun task => { task with pendingSignalDelivery := none }).task tid =
          some { task with pendingSignalDelivery := none } := by
        rw [task_modifyTask, if_pos rfl, htask, Option.map_some]
      have hpending : ∀ target, (k.modifyTask tid fun task => { task with pendingSignalDelivery := none }).pending target =
          k.pending target := pending_modifyTask_of_keeps (fun _ => by rfl) k tid
      obtain ⟨before, k₁, k₂, htaken, hlast⟩ := leads_of_pending_of_empty htask₁ rfl hadmits (by
        rw [hpending, hpending]
        exact hmem)
      exact ⟨held :: before, k₁, k₂, .next htakes htaken, hlast⟩

/-! ### The ends of waits -/

/-- The end of a wait for signals: `rt_sigtimedwait` returns the signal, `rt_sigsuspend` ends in `EINTR` and keeps it. -/
structure Ends (task' : GuestTask) (returnsSignal : Bool) (signal : Nat) : Prop where
  runs : task'.state = .runnable
  returned : returnsSignal = true → task'.regs.rax = signal
  interrupted : returnsSignal = false → task'.regs.rax = (SyscallReturn.errno eintr).encode
  held : returnsSignal = false → task'.pendingSignalDelivery = some signal

theorem EndsWait.ends {pid : GuestPid} {mask : SignalMask} {returnsSignal : Bool} {target : SignalTarget}
    (h : EndsWait k k' tid pid mask returnsSignal target signal) :
    ∃ task', k'.task tid = some task' ∧ Ends task' returnsSignal signal := by
  obtain ⟨task', htask', hruns, hreturned⟩ := h.ended
  refine ⟨task', htask', hruns, hreturned, fun hsuspends => ?_, fun hsuspends => ?_⟩
  · obtain ⟨other, hother, hrax⟩ := h.interrupted hsuspends
    rwa [← Option.some.inj (htask'.symm.trans hother)] at hrax
  · rw [← delivery_of_task htask', h.delivery, if_pos ⟨rfl, hsuspends⟩]

/-- The wake-up leaves a waiter alone, or ends its wait with a signal that it finds. -/
theorem waiter_wakeEach {pid : GuestPid} (waiters : List (GuestTid × SignalMask × Bool))
    (hdistinct : (waiters.map Prod.fst).Nodup) {mask : SignalMask} {returnsSignal : Bool}
    (hmem : (tid, mask, returnsSignal) ∈ waiters) (htask : k.task tid = some task) :
    (wakeEach pid waiters k).task tid = some task ∨
      ∃ s task', k.Finds tid pid mask s ∧ (wakeEach pid waiters k).task tid = some task' ∧ Ends task' returnsSignal s := by
  induction waiters generalizing k with
  | nil => exact absurd hmem List.not_mem_nil
  | cons waiter rest ih =>
      obtain ⟨j, m, r⟩ := waiter
      have hnot : j ∉ rest.map Prod.fst := (List.nodup_cons.mp hdistinct).1
      change (wakeEach pid rest (k.wakeSignalWaiter pid j m r)).task tid = some task ∨ ∃ s task', _ ∧
        (wakeEach pid rest (k.wakeSignalWaiter pid j m r)).task tid = some task' ∧ _
      rcases List.mem_cons.mp hmem with hhead | hrest
      · obtain ⟨rfl, heq⟩ := Prod.mk.inj hhead
        obtain ⟨rfl, rfl⟩ := Prod.mk.inj heq
        rw [task_wakeEach_of_not_mem pid rest _ hnot]
        rcases wakeSignalWaiter_turn htask pid mask returnsSignal with hsame | ⟨target, s, hends⟩
        · exact Or.inl (by rw [hsame, htask])
        · obtain ⟨task', htask', hended⟩ := hends.ends
          refine Or.inr ⟨s, task', ⟨hends.named, ?_⟩, htask', hended⟩
          rcases hends.within with rfl | rfl
          · exact Or.inl hends.mem
          · exact Or.inr hends.mem
      · have hne : tid ≠ j := fun heq => hnot (heq ▸ List.mem_map.mpr ⟨_, hrest, rfl⟩)
        have hkept : (k.wakeSignalWaiter pid j m r).task tid = some task := by
          rw [task_wakeSignalWaiter_of_ne pid m r hne, htask]
        refine (ih (List.nodup_cons.mp hdistinct).2 hrest hkept).imp_right ?_
        rintro ⟨s, task', hfinds, htask', hended⟩
        exact ⟨s, task', (shrinks_wakeSignalWaiter k pid j m r).finds hfinds, htask', hended⟩

/-- A waiter that runs after the wake-up was ended by the signal that was posted: none of the others it waits for was
pending. -/
theorem ended_of_woken (hk : Named k) (hsettled : Settled k') {pid : GuestPid} {before : GuestTask} {mask : SignalMask}
    {returnsSignal : Bool} (hbefore : k'.task tid = some before) (htask : k.task tid = some task)
    (hstate : before.state = task.state) (howner : before.pid = pid) (hpid : task.pid = pid)
    (hwait : signalWait task.state = some (mask, returnsSignal))
    (hposted : ∀ target s, s ∈ k.pending target → s ∈ k'.pending target ∨ s = signal)
    (hwoken : (wakeEach pid (k.signalWaiters pid) k).stateOf tid = some .runnable) :
    ∃ task', (wakeEach pid (k.signalWaiters pid) k).task tid = some task' ∧ Ends task' returnsSignal signal := by
  have hmem := (mem_signalWaiters hk).mpr ⟨task, htask, hpid, hwait⟩
  rcases waiter_wakeEach _ (signalWaiters_nodup hk pid) hmem htask with hkept | ⟨s, task', hfinds, htask', hends⟩
  · rw [stateOf, hkept, Option.map_some, Option.some.injEq] at hwoken
    rw [hwoken] at hwait
    cases hwait
  · have hsignal : s = signal := by
      by_contra hne
      refine hsettled tid before mask returnsSignal hbefore (hstate ▸ hwait) s ⟨hfinds.1, ?_⟩
      rw [howner]
      exact hfinds.2.imp (fun h => (hposted _ _ h).resolve_right hne) fun h => (hposted _ _ h).resolve_right hne
    exact ⟨task', htask', hsignal ▸ hends⟩

/-- How the task of an interrupted wait goes on. -/
def Answers (k' : GuestKernel) (tid : GuestTid) (task : GuestTask) (signal : Nat) : Prop :=
  ∃ task', k'.task tid = some task' ∧ task'.state = .runnable ∧
    match signalWait task.state with
    | some (mask, true) => signalMatchesMask signal mask = true ∧ task'.regs.rax = signal
    | _ => (task.state ≠ .runnable → task'.regs.rax = (SyscallReturn.errno eintr).encode) ∧ k'.Leads tid signal

/-- Some task of the target that does not hold the signal back runs afterwards, its wait over and the signal returned
by it or kept for the task. -/
def Interrupted (k k' : GuestKernel) (target : SignalTarget) (signal : Nat) : Prop :=
  ∃ tid task, k.Open target signal tid task ∧ k'.Answers tid task signal

theorem Answers.runs (h : k'.Answers tid task signal) : k'.stateOf tid = some .runnable := by
  obtain ⟨task', htask', hruns, -⟩ := h
  rw [stateOf, htask', Option.map_some, hruns]

theorem answers_of_ends {task' : GuestTask} {mask : SignalMask} {returnsSignal : Bool}
    (hwait : signalWait task.state = some (mask, returnsSignal)) (hnamed : signalMatchesMask signal mask = true)
    (htask' : k'.task tid = some task') (hends : Ends task' returnsSignal signal) : k'.Answers tid task signal := by
  refine ⟨task', htask', hends.runs, ?_⟩
  rw [hwait]
  cases returnsSignal with
  | true => exact ⟨hnamed, hends.returned rfl⟩
  | false => exact ⟨fun _ => hends.interrupted rfl, leads_of_held htask' (hends.held rfl)⟩

theorem answers_of_pending {task' : GuestTask} (hwait : signalWait task.state = none) (htask' : k'.task tid = some task')
    (hruns : task'.state = .runnable) (hrax : task.state ≠ .runnable →
      task'.regs.rax = (SyscallReturn.errno eintr).encode)
    (hadmits : signalMatchesMask signal (~~~task'.signalMask) = true)
    (hmem : signal ∈ k'.pending (.task tid) ∨ signal ∈ k'.pending (.process task'.pid)) :
    k'.Answers tid task signal := by
  refine ⟨task', htask', hruns, ?_⟩
  rw [hwait]
  exact ⟨hrax, leads_of_pending htask' hadmits hmem⟩

/-- A signal that is not held back by a task that waits for none is one that its mask lets through. -/
theorem Open.passes {target : SignalTarget} (h : k.Open target signal tid task) (hwait : signalWait task.state = none)
    (hpositive : 0 < signal) (hvalid : signal ≤ linuxSignalCount) :
    signalMatchesMask signal (~~~task.signalMask) = true := by
  have hadmits : signalMatchesMask signal task.heldBack = false := h.admits
  have hheld : task.heldBack = task.signalMask := by
    unfold GuestTask.heldBack
    cases hstate : task.state <;> rw [hstate] at hwait <;> first | rfl | cases hwait
  rw [hheld, signalMatchesMask_eq, decide_eq_true hpositive, decide_eq_true hvalid, Bool.and_self, Bool.true_and] at hadmits
  have hindex : signal - 1 < 64 := by
    have hbound : signal ≤ 64 := hvalid
    omega
  rw [signalMatchesMask_eq, decide_eq_true hpositive, decide_eq_true hvalid, BitVec.getLsbD_not, hadmits,
    decide_eq_true hindex]
  rfl

/-! ### Signals to a process -/

theorem interrupted_queueProcessSignal (hk : Consistent k) (hsettled : Settled k) {pid : GuestPid} {process : GuestProcess}
    (hprocess : k.process pid = some process) (hpositive : 0 < signal) (hvalid : signal ≤ linuxSignalCount) :
    Interrupted k (k.queueProcessSignal pid signal) (.process pid) signal ↔
      ∃ tid task, k.Open (.process pid) signal tid task ∧ Hears (.process pid) signal tid task := by
  let k₁ := k.modifyProcess pid fun process =>
    { process with pendingSignals := process.pendingSignals.insert signal }
  let k₂ := wakeEach pid (k₁.signalWaiters pid) k₁
  have hnamed : Named k₁ := hk.named
  have hafter : Settled k₂ := hsettled.queueProcessSignal hk.named pid signal
  have hposted : signal ∈ k₁.pending (.process pid) :=
    mem_pending_postProcess.mpr (Or.inr ⟨rfl, rfl, by rw [hprocess, Option.isSome_some]⟩)
  have hnew : ∀ target s, s ∈ k₁.pending target → s ∈ k.pending target ∨ s = signal :=
    fun target s h => (mem_pending_postProcess.mp h).imp id fun h => h.2.1
  change Interrupted k k₂ _ _ ↔ _
  -- a waiter that runs afterwards answers the signal
  have hwaiter : ∀ {j waiter mask returnsSignal}, k.task j = some waiter → waiter.pid = pid →
      signalWait waiter.state = some (mask, returnsSignal) → signalMatchesMask signal mask = true →
      k₂.stateOf j = some .runnable → Interrupted k k₂ (.process pid) signal := by
    intro j waiter mask returnsSignal htask hpid hwait hnames hwoken
    have htask₁ : k₁.task j = some waiter := htask
    obtain ⟨task', htask', hends⟩ := ended_of_woken hnamed hsettled htask htask₁ rfl hpid hpid hwait hnew hwoken
    exact ⟨j, waiter, ⟨htask, signalWait_live hwait, Or.inl (by rw [hpid]), admits_of_waits hwait hnames⟩,
      answers_of_ends hwait hnames htask' hends⟩
  constructor
  · rintro ⟨tid, task, hopen, hanswers⟩
    have hrunnable := hanswers.runs
    refine ⟨tid, task, hopen, ?_⟩
    rcases stateOf_wakeEach pid (k₁.signalWaiters pid) k₁ tid with hkept | ⟨-, mask, returnsSignal, s, hmem, hfinds⟩
    · rw [hrunnable, stateOf, show k₁.task tid = some task from hopen.there, Option.map_some, Option.some.injEq] at hkept
      exact Or.inl hkept.symm
    · obtain ⟨waiter, hwaits, -, hwait⟩ := (mem_signalWaiters hnamed).mp hmem
      obtain rfl := Option.some.inj (hwaits.symm.trans hopen.there)
      exact Or.inr (Or.inl ⟨mask, returnsSignal, hwait, waits_of_woken hnamed hsettled
        (fun task htask => ⟨task, htask, rfl, rfl⟩) (fun target => hnew target s) hmem hfinds⟩)
  · rintro ⟨tid, task, hopen, hrunnable | ⟨mask, returnsSignal, hwait, hnames⟩ | ⟨htarget, -⟩⟩
    · have hpid : task.pid = pid := by
        rcases hopen.within with hprocess | htask
        · exact (SignalTarget.process.inj hprocess).symm
        · cases htask
      by_cases hstill : signal ∈ k₂.pending (.process pid)
      · have hstate : k₂.stateOf tid = some .runnable := runnable_wakeEach pid _ k₁
          (by rw [stateOf, show k₁.task tid = some task from hopen.there, Option.map_some, hrunnable])
        obtain ⟨task', htask', hruns⟩ := Option.map_eq_some_iff.mp hstate
        have howner := steady_pid.wakeEach pid (k₁.signalWaiters pid) k₁ tid
        have hmask := steady_signalMask.wakeEach pid (k₁.signalWaiters pid) k₁ tid
        rw [show (wakeEach pid (k₁.signalWaiters pid) k₁).task tid = some task' from htask',
          show k₁.task tid = some task from hopen.there, Option.map_some, Option.map_some, Option.some.injEq] at howner hmask
        have hwait : signalWait task.state = none := by rw [hrunnable]; rfl
        refine ⟨tid, task, hopen, answers_of_pending hwait htask' hruns (fun h => absurd hrunnable h) ?_ (Or.inr ?_)⟩
        · rw [hmask]
          exact hopen.passes hwait hpositive hvalid
        · rwa [howner, hpid]
      · obtain ⟨j, mask, returnsSignal, hmem, hfinds, -, hwoken⟩ := taken_wakeEach pid _ k₁ hposted hstill
        obtain ⟨waiter, hwaits, hown, hwait⟩ := (mem_signalWaiters hnamed).mp hmem
        exact hwaiter hwaits hown hwait hfinds.1 (hwoken waiter.state (by rw [stateOf, hwaits, Option.map_some]))
    · have hpid : task.pid = pid := by
        rcases hopen.within with hprocess | htask
        · exact (SignalTarget.process.inj hprocess).symm
        · cases htask
      obtain ⟨j, waiter, m, r, hwaits, hown, hparked, hnamed', -, hwoken⟩ :=
        woken_of_waits hnamed hposted hafter hopen.there hpid (Or.inr rfl) hwait hnames
      exact hwaiter hwaits hown hparked hnamed' hwoken
    · cases htarget

/-! ### Signals to a task -/

theorem exists_of_isWaitingForFutex {state : TaskState} (h : state.isWaitingForFutex = true) :
    ∃ key, state = .waitingForFutex key := by
  cases state <;> simp [TaskState.isWaitingForFutex] at h ⊢

theorem interruptFutexWaiter_of_not_waiting (htask : k.task tid = some task) (h : task.state.isWaitingForFutex = false) :
    (k.interruptFutexWaiter tid).2 = k := by
  rw [interruptFutexWaiter, endFutexWait, htask]
  dsimp only
  rw [h]
  rfl

theorem interruptFutexWaiter_of_waiting (htask : k.task tid = some task) (h : task.state.isWaitingForFutex = true) :
    ∃ task', (k.interruptFutexWaiter tid).2.task tid = some task' ∧ task'.state = .runnable ∧
      task'.regs.rax = (SyscallReturn.errno eintr).encode ∧ task'.signalMask = task.signalMask ∧
      task'.pid = task.pid ∧ ∀ target, (k.interruptFutexWaiter tid).2.pending target = k.pending target := by
  rw [interruptFutexWaiter, endFutexWait, htask]
  dsimp only
  rw [if_pos h]
  refine ⟨{ task with
    regs := task.regs.withSyscallReturn task.regs.rip (SyscallReturn.errno eintr).encode
    state := .runnable }, ?_, rfl, rfl, rfl, rfl, fun target => ?_⟩
  · rw [task_setTaskState, if_pos rfl, task_modifyTask, if_pos rfl, htask]
    rfl
  · rw [pending_setTaskState, pending_modifyTask_of_keeps fun _ => by rfl]

theorem interrupted_queueTaskSignal (hk : Consistent k) (hsettled : Settled k) (htask : k.task tid = some task)
    (hpositive : 0 < signal) (hvalid : signal ≤ linuxSignalCount) :
    Interrupted k (k.queueTaskSignal tid signal) (.task tid) signal ↔
      ∃ j task, k.Open (.task tid) signal j task ∧ Hears (.task tid) signal j task := by
  let k₁ := k.modifyTask tid fun task => { task with pendingSignals := task.pendingSignals.insert signal }
  let k₂ := wakeEach task.pid (k₁.signalWaiters task.pid) k₁
  let task₁ : GuestTask := { task with pendingSignals := task.pendingSignals.insert signal }
  have hpost : Quiet .signals k k₁ := .single (.postTask tid signal trivial)
  have hnamed : Named k₁ := hpost.named hk.named
  have hafter : Settled k₂ := hsettled.postTask hk.named htask signal
  have hposted : signal ∈ k₁.pending (.task tid) :=
    mem_pending_postTask.mpr (Or.inr ⟨rfl, rfl, by rw [htask, Option.isSome_some]⟩)
  have hnew : ∀ target s, s ∈ k₁.pending target → s ∈ k.pending target ∨ s = signal :=
    fun target s h => (mem_pending_postTask.mp h).imp id fun h => h.2.1
  have htask₁ : k₁.task tid = some task₁ := by
    rw [task_modifyTask, if_pos rfl, htask, Option.map_some]
  have hresult : k.queueTaskSignal tid signal =
      if signalMatchesMask signal task.signalMask then k₂ else (k₂.interruptFutexWaiter tid).2 := by
    have hmask := steady_signalMask.wakeEach task.pid (k₁.signalWaiters task.pid) k₁ tid
    rw [htask₁, Option.map_some] at hmask
    obtain ⟨task₂, htask₂, hmask⟩ := Option.map_eq_some_iff.mp hmask
    have hblocked : k₂.signalBlocked tid signal = signalMatchesMask signal task.signalMask := by
      rw [signalBlocked, show k₂.task tid = some task₂ from htask₂]
      exact congrArg (signalMatchesMask signal) hmask
    unfold queueTaskSignal
    rw [htask]
    change (if k₂.signalBlocked tid signal = true then k₂ else (k₂.interruptFutexWaiter tid).2) = _
    rw [hblocked]
  -- a task that waits for no signal takes none from its own set
  have hkept : signalWait task.state = none → k₂.task tid = some task₁ ∧ signal ∈ k₂.pending (.task tid) := by
    intro hwait
    have hnot : tid ∉ (k₁.signalWaiters task.pid).map Prod.fst := by
      intro hmem
      obtain ⟨⟨j, mask, returnsSignal⟩, hmem, rfl⟩ := List.mem_map.mp hmem
      obtain ⟨waiter, hwaits, -, hparked⟩ := (mem_signalWaiters hnamed).mp hmem
      rw [← Option.some.inj (htask₁.symm.trans hwaits), show task₁.state = task.state from rfl, hwait] at hparked
      cases hparked
    refine ⟨(task_wakeEach_of_not_mem task.pid _ k₁ hnot).trans htask₁, ?_⟩
    by_contra hgone
    obtain ⟨j, mask, returnsSignal, hmem, -, htarget, -⟩ := taken_wakeEach task.pid _ k₁ hposted hgone
    obtain rfl : tid = j := SignalTarget.task.inj (htarget.resolve_right (by rintro ⟨⟩))
    exact hnot (List.mem_map.mpr ⟨_, hmem, rfl⟩)
  constructor
  · rintro ⟨j, t, hopen, hanswers⟩
    have hrunnable := hanswers.runs
    obtain rfl : tid = j := SignalTarget.task.inj (hopen.within.resolve_left (by rintro ⟨⟩))
    obtain rfl := Option.some.inj (htask.symm.trans hopen.there)
    refine ⟨tid, task, hopen, ?_⟩
    cases hwait : signalWait task.state with
    | none =>
        obtain ⟨htask₂, -⟩ := hkept hwait
        by_cases hfutex : task.state.isWaitingForFutex = true
        · exact Or.inr (Or.inr ⟨rfl, hfutex⟩)
        · rw [hresult, interruptFutexWaiter_of_not_waiting htask₂ (eq_false_of_ne_true hfutex), ite_self, stateOf, htask₂,
            Option.map_some, Option.some.injEq] at hrunnable
          exact Or.inl hrunnable
    | some wait =>
        obtain ⟨mask, returnsSignal⟩ := wait
        have hparked : task.state.isWaitingForFutex = false := by
          cases hstate : task.state <;> rw [hstate] at hwait <;> first | rfl | cases hwait
        have hwoken : k₂.stateOf tid = some .runnable := by
          rw [hresult] at hrunnable
          split at hrunnable
          · exact hrunnable
          · rw [interruptFutexWaiter, stateOf_endFutexWait, if_pos rfl] at hrunnable
            rcases stateOf_wakeEach task.pid (k₁.signalWaiters task.pid) k₁ tid with hsame | ⟨hruns, -⟩
            · rw [show k₂.stateOf tid = some task.state by
                rw [show k₂.stateOf tid = k₁.stateOf tid from hsame, stateOf, htask₁, Option.map_some], Option.map_some,
                if_neg (by rw [hparked]; exact Bool.false_ne_true), Option.some.injEq] at hrunnable
              rw [hrunnable] at hwait
              cases hwait
            · exact hruns
        refine Or.inr (Or.inl ⟨mask, returnsSignal, hwait, ?_⟩)
        rcases stateOf_wakeEach task.pid (k₁.signalWaiters task.pid) k₁ tid with hsame | ⟨-, m, r, s, hmem, hfinds⟩
        · rw [show k₂.stateOf tid = k₁.stateOf tid from hsame, stateOf, htask₁, Option.map_some, Option.some.injEq] at hwoken
          rw [show task.state = .runnable from hwoken] at hwait
          cases hwait
        · obtain ⟨waiter, hwaits, -, hparks⟩ := (mem_signalWaiters hnamed).mp hmem
          obtain rfl := Option.some.inj (htask₁.symm.trans hwaits)
          obtain ⟨rfl, rfl⟩ := Prod.mk.inj (Option.some.inj (hwait.symm.trans hparks))
          refine waits_of_woken hnamed hsettled (fun t ht => ?_) (fun target => hnew target s) hmem hfinds
          obtain rfl := Option.some.inj (ht.symm.trans htask₁)
          exact ⟨task, htask, rfl, rfl⟩
  · rintro ⟨j, t, hopen, hhears⟩
    obtain rfl : tid = j := SignalTarget.task.inj (hopen.within.resolve_left (by rintro ⟨⟩))
    obtain rfl := Option.some.inj (htask.symm.trans hopen.there)
    refine ⟨tid, task, hopen, ?_⟩
    rcases hhears with hrunnable | ⟨mask, returnsSignal, hwait, hnames⟩ | ⟨-, hfutex⟩
    · have hwait : signalWait task.state = none := by rw [hrunnable]; rfl
      obtain ⟨htask₂, hpending⟩ := hkept hwait
      rw [hresult, interruptFutexWaiter_of_not_waiting htask₂ (by
        rw [show task₁.state = .runnable from hrunnable]; rfl), ite_self]
      exact answers_of_pending hwait htask₂ hrunnable (fun h => absurd hrunnable h)
        (hopen.passes hwait hpositive hvalid) (Or.inl hpending)
    · obtain ⟨j, -, -, -, -, -, -, -, hj, hwoken⟩ :=
        woken_of_waits hnamed hposted hafter htask₁ rfl (Or.inl rfl) hwait hnames
      obtain rfl : tid = j := SignalTarget.task.inj (hj.resolve_right (by rintro ⟨⟩))
      obtain ⟨task', htask', hends⟩ := ended_of_woken hnamed hsettled htask htask₁ rfl rfl rfl hwait hnew hwoken
      rw [hresult, interruptFutexWaiter_of_not_waiting htask' (by rw [hends.runs]; rfl), ite_self]
      exact answers_of_ends hwait hnames htask' hends
    · obtain ⟨key, hkey⟩ := exists_of_isWaitingForFutex hfutex
      have hwait : signalWait task.state = none := by rw [hkey]; rfl
      have hpasses := hopen.passes hwait hpositive hvalid
      obtain ⟨htask₂, hpending⟩ := hkept hwait
      have hadmits : signalMatchesMask signal task.signalMask = false := by
        have hnot := signalMatchesMask_not hpasses
        rwa [BitVec.not_not] at hnot
      obtain ⟨task', htask', hruns, hrax, hmask, -, hsame⟩ := interruptFutexWaiter_of_waiting htask₂ hfutex
      rw [hresult, hadmits, if_neg Bool.false_ne_true]
      refine answers_of_pending hwait htask' hruns (fun _ => hrax) ?_ (Or.inl ?_)
      · rw [hmask]
        exact hpasses
      · rwa [hsame]

end Mcr.Task.GuestKernel
