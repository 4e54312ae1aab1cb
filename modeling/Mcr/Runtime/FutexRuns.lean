import Mcr.Runtime.FutexLaw

/-!
# Futexes over runs

The runs of the futex calls, of timeouts, of the wakes at thread exits and of everything else the kernel does,
with the masks of the waiters beside. A waiter of a private queue is of the queue's process and every waiter has a
mask, so for a step of a run the law comes down to the masks that a bitset wake meets, the processes in the
queues that are not private, and the timeouts of bitset waits.
-/

namespace Mcr.Runtime

open Mcr.Task (FutexWaitKey GuestAddress GuestImageState GuestKernel GuestPid GuestProgram GuestTid KernelCall KernelOp
  KernelReply SyscallOutcome TaskError TaskState etimedout)
open Mcr.Task.GuestKernel (Consistent Edits Quiet Scope)

/-! ### The law of a step -/

def KeepsDeadlines (s s' : RuntimeEvents) : Prop :=
  ∀ tid key, s'.tasks.stateOf tid = some (.waitingForFutex key) → s'.futexTimeouts.get? tid = s.futexTimeouts.get? tid

/-- The task is parked in the queue with the deadline, and nothing else changes. -/
structure Parked (s s' : RuntimeEvents) (tid : GuestTid) (key : FutexWaitKey) (deadline : Option Instant) : Prop where
  state : s'.tasks.stateOf tid = some (.waitingForFutex key)
  deadline : s'.futexTimeouts.get? tid = deadline
  others : ∀ j, j ≠ tid → s'.tasks.stateOf j = s.tasks.stateOf j ∧ s'.futexTimeouts.get? j = s.futexTimeouts.get? j

/-- What has passed of a timeout at the call: that of a bitset wait counts from the start of its clock. -/
def FutexSyscallArgs.elapsed (args : FutexSyscallArgs) (clock : HostClock) : Nat :=
  if args.command = linuxFutexWaitBitset then if args.hasClockRealtime then clock.realtime else clock.monotonic else 0

/-- A wait whose timeout has passed times out, and any other parks until its timeout. -/
structure WaitsFor (s s' : RuntimeEvents) (outcome : SyscallOutcome) (tid : GuestTid) (key : FutexWaitKey) (now : Instant)
    (elapsed : Nat) (timeout : Option Duration) : Prop where
  expired : ∀ t, timeout = some t → t ≤ elapsed → outcome = .errno etimedout ∧ s' = s
  parks : (∀ t, timeout = some t → elapsed < t) →
    outcome = .success 0 ∧ Parked s s' tid key (timeout.map fun t => now + (t - elapsed))

/-- The tasks that pass the test are woken and no others, and those keep their deadlines. -/
structure Expires (s s' : RuntimeEvents) (p : GuestTid → Prop) : Prop where
  woken : ∀ tid, Woken s.tasks s'.tasks tid ↔ p tid
  others : ∀ tid, ¬p tid → s'.tasks.stateOf tid = s.tasks.stateOf tid
  deadlines : KeepsDeadlines s s'

variable {μ : Type} [GuestMemoryAccess μ]

structure CallLaw (s : RuntimeEvents) (masks : WaitMasks) (memory : μ) (clock : HostClock) (pid : GuestPid)
    (tid : GuestTid) (args : FutexSyscallArgs) (outcome : SyscallOutcome) (s' : RuntimeEvents) : Prop where
  wakes : args.Wakes → ∃ count, outcome = .success count ∧ KeepsDeadlines s s' ∧
    WakesExactly s.tasks s'.tasks (Eligible s.tasks masks pid (args.source pid) args.wakeMask) args.val count
  requeues : args.Requeues memory → ∃ count, outcome = .success count ∧ KeepsDeadlines s s' ∧
    Requeues s.tasks s'.tasks pid (args.source pid) (args.target pid) args.val args.timeout count
  waits : ∀ timeout, args.Waits memory timeout →
    WaitsFor s s' outcome tid (args.source pid) clock.now (args.elapsed clock) timeout
  refuses : ¬args.Wakes → ¬args.Requeues memory → (∀ timeout, ¬args.Waits memory timeout) →
    (∃ e, outcome = .errno e) ∧ s' = s

/-- The steps that wake, move or park the waiters of futexes. -/
inductive FutexStep (μ : Type)
  | call (pid : GuestPid) (tid : GuestTid) (args : FutexSyscallArgs) (memory : μ) (clock : HostClock)
  | exitWake (pid : GuestPid) (addr : GuestAddress) (isPrivate : Bool)
  | expire (now : Instant)
  | expireNext

namespace FutexStep

variable (s : RuntimeEvents) (masks : WaitMasks)

def Called : FutexStep μ → Prop
  | .call pid tid _ _ _ => s.tasks.ownerOf tid = some pid
  | _ => True

def next : FutexStep μ → RuntimeEvents
  | .call pid tid args memory clock => (s.futex memory clock pid tid args).2
  | .exitWake pid addr isPrivate => (s.exitWake pid addr isPrivate).2
  | .expire now => (s.resumeExpiredFutexTimeouts now).2
  | .expireNext => s.expireNextFutexTimeout.2

/-- The masks after the step: a task that parks waits with the mask of its call. -/
def nextMasks : FutexStep μ → WaitMasks
  | .call pid tid args memory clock =>
    if (args.command = linuxFutexWait ∨ args.command = linuxFutexWaitBitset) ∧
        (s.futex memory clock pid tid args).1 = .success 0 then
      masks.insert tid args.waitMask
    else masks
  | _ => masks

def Lawful : FutexStep μ → Prop
  | .call pid tid args memory clock =>
    CallLaw s masks memory clock pid tid args (s.futex memory clock pid tid args).1 (s.futex memory clock pid tid args).2
  | .exitWake pid addr isPrivate =>
    KeepsDeadlines s (s.exitWake pid addr isPrivate).2 ∧
      WakesExactly s.tasks (s.exitWake pid addr isPrivate).2.tasks
        (Eligible s.tasks masks pid (.new pid addr isPrivate) (.allOnes 32)) (2 ^ 32 - 1)
        (s.exitWake pid addr isPrivate).1
  | .expire now =>
    Expires s (s.resumeExpiredFutexTimeouts now).2 fun tid => ∃ deadline, s.Waits .futex tid deadline ∧ deadline ≤ now
  | .expireNext =>
    Expires s s.expireNextFutexTimeout.2 fun tid => ∃ deadline, s.Waits .futex tid deadline ∧
      ∀ tid' deadline', s.Waits .futex tid' deadline' → deadline ≤ deadline'

/-- The waiters that a step takes from a queue that is not private are of the process, those that a bitset wake
takes wait for one of its bits, and the timeout of a bitset wait is zero or all of it is left. -/
def Fits : FutexStep μ → Prop
  | .call pid _ args memory clock =>
    (args.Wakes → ∀ tid ∈ (s.tasks.waiters (args.source pid)).take args.val,
        (args.isPrivate = false → s.tasks.ownerOf tid = some pid) ∧
          (args.command = linuxFutexWakeBitset → ∀ waitMask, masks.get? tid = some waitMask → waitMask &&& args.val3 ≠ 0)) ∧
      (args.Requeues memory → args.isPrivate = false →
        (∀ tid ∈ (s.tasks.waiters (args.source pid)).take args.val, s.tasks.ownerOf tid = some pid) ∧
          (args.uaddr ≠ args.uaddr2 → ∀ tid ∈ ((s.tasks.waiters (args.source pid)).drop args.val).take args.timeout,
            s.tasks.ownerOf tid = some pid)) ∧
      ∀ t, args.Waits memory (some t) → t = 0 ∨ args.elapsed clock = 0
  | .exitWake pid addr isPrivate =>
    isPrivate = false →
      ∀ tid ∈ (s.tasks.waiters (.new pid addr isPrivate)).take (2 ^ 32 - 1), s.tasks.ownerOf tid = some pid
  | .expire _ | .expireNext => True

end FutexStep

/-! ### Waiters have masks -/

/-- Every waiter waits for something, and one of a private queue is of the queue's process. -/
structure Queued (s : RuntimeEvents) (masks : WaitMasks) : Prop where
  consistent : Consistent s.tasks
  mask : ∀ {tid key}, s.tasks.stateOf tid = some (.waitingForFutex key) →
    ∃ waitMask, masks.get? tid = some waitMask ∧ waitMask ≠ 0
  owner : ∀ {tid pid addr}, s.tasks.stateOf tid = some (.waitingForFutex ⟨some pid, addr⟩) →
    s.tasks.ownerOf tid = some pid

variable {s s' : RuntimeEvents} {masks : WaitMasks}

theorem Queued.edits {scope : Scope} (h : Queued s masks) (hedits : Edits scope s.tasks s'.tasks)
    (hqueues : ¬scope.queues) : Queued s' masks where
  consistent := hedits.consistent h.consistent
  mask hstate := h.mask (GuestKernel.Edits.drains hedits h.consistent hqueues hstate).1
  owner hstate := by
    obtain ⟨hbefore, howner⟩ := GuestKernel.Edits.drains hedits h.consistent hqueues hstate
    rw [howner, h.owner hbefore]

theorem Queued.quiet (h : Queued s masks) (hquiet : Quiet .wakes s.tasks s'.tasks) : Queued s' masks :=
  h.edits (Edits.quiet hquiet) id

theorem expireEach_quiet (wait : TimedWait) (tids : List GuestTid) (timeouts : Timeouts) (tasks : GuestKernel) :
    Quiet .wakes tasks (wait.expireEach tids timeouts tasks).2.2 := by
  induction tids generalizing timeouts tasks with
  | nil => exact .refl
  | cons tid rest ih =>
      have hresume : Quiet .wakes tasks (wait.resume tasks tid).2 := by
        cases wait with
        | futex => exact GuestKernel.endFutexWait_quiet tasks tid etimedout
        | sleep => exact GuestKernel.resumeSleepWaiter_quiet tasks tid
      exact hresume.trans (ih (timeouts.erase tid) (wait.resume tasks tid).2)

theorem expireNext_quiet (wait : TimedWait) (timeouts : Timeouts) (tasks : GuestKernel) :
    Quiet .wakes tasks (wait.expireNext timeouts tasks).2.2 := by
  unfold TimedWait.expireNext
  dsimp only
  split
  · exact .refl
  · exact expireEach_quiet wait _ _ tasks

/-! ### What expires -/

theorem futexParks_iff {state : TaskState} : TimedWait.futex.parks state = true ↔ ∃ key, state = .waitingForFutex key := by
  cases state <;> simp [TimedWait.parks, TaskState.isWaitingForFutex]

theorem keepsDeadlines_prune {tasks : GuestKernel} {timeouts : Timeouts} (htasks : s'.tasks = tasks)
    (htimeouts : s'.futexTimeouts = TimedWait.futex.prune tasks timeouts)
    (hkept : ∀ tid key, tasks.stateOf tid = some (.waitingForFutex key) → timeouts.get? tid = s.futexTimeouts.get? tid) :
    KeepsDeadlines s s' := by
  intro tid key hstate
  rw [htasks] at hstate
  rw [htimeouts, ← hkept tid key hstate]
  ext deadline
  rw [TimedWait.get?_prune]
  exact and_iff_left ⟨_, hstate, futexParks_iff.mpr ⟨key, rfl⟩⟩

theorem expires_each (timeouts : Timeouts) (tids : List GuestTid)
    (htasks : s'.tasks = (TimedWait.futex.expireEach tids timeouts s.tasks).2.2)
    (htimeouts : s'.futexTimeouts =
      TimedWait.futex.prune s'.tasks (TimedWait.futex.expireEach tids timeouts s.tasks).2.1)
    (hkept : ∀ tid key, s.tasks.stateOf tid = some (.waitingForFutex key) →
      timeouts.get? tid = s.futexTimeouts.get? tid) :
    Expires s s' fun tid => tid ∈ tids ∧ ∃ key, s.tasks.stateOf tid = some (.waitingForFutex key) := by
  classical
  have hstates : ∀ tid, s'.tasks.stateOf tid =
      if tid ∈ tids ∧ ∃ key, s.tasks.stateOf tid = some (.waitingForFutex key) then some .runnable
      else s.tasks.stateOf tid := by
    intro tid
    rw [htasks, TimedWait.stateOf_expireEach]
    cases hstate : s.tasks.stateOf tid with
    | none => simp
    | some state =>
        by_cases hmem : tid ∈ tids <;> by_cases hparks : TimedWait.futex.parks state = true <;>
          simp_all [futexParks_iff]
  have hothers : ∀ tid, ¬(tid ∈ tids ∧ ∃ key, s.tasks.stateOf tid = some (.waitingForFutex key)) →
      s'.tasks.stateOf tid = s.tasks.stateOf tid := fun tid h => by rw [hstates, if_neg h]
  refine ⟨fun tid => ⟨fun h => ?_, fun h => ⟨h.2, by rw [hstates, if_pos h]⟩⟩, hothers, ?_⟩
  · by_contra hnot
    obtain ⟨⟨key, hwaits⟩, hrunnable⟩ := h
    rw [hothers tid hnot, hwaits] at hrunnable
    exact nomatch hrunnable
  · refine keepsDeadlines_prune rfl htimeouts fun tid key hstate => ?_
    have hnot : ¬(tid ∈ tids ∧ ∃ key, s.tasks.stateOf tid = some (.waitingForFutex key)) := by
      intro h
      rw [hstates, if_pos h] at hstate
      exact nomatch hstate
    rw [hothers tid hnot] at hstate
    rw [TimedWait.get?_expireEach, if_neg fun hmem => hnot ⟨hmem, key, hstate⟩, hkept tid key hstate]

theorem Expires.congr {p q : GuestTid → Prop} (h : Expires s s' p) (hpq : ∀ tid, p tid ↔ q tid) : Expires s s' q where
  woken tid := (h.woken tid).trans (hpq tid)
  others tid hq := h.others tid fun hp => hq ((hpq tid).mp hp)
  deadlines := h.deadlines

theorem waits_futex {tid : GuestTid} {deadline : Instant} : s.Waits .futex tid deadline ↔
    s.futexTimeouts.get? tid = some deadline ∧ ∃ key, s.tasks.stateOf tid = some (.waitingForFutex key) := by
  unfold RuntimeEvents.Waits
  simp only [futexParks_iff]
  exact and_congr_right fun _ => ⟨fun ⟨_, hstate, key, hkey⟩ => ⟨key, hkey ▸ hstate⟩, fun ⟨key, hstate⟩ => ⟨_, hstate, key, rfl⟩⟩

theorem expires_due (s : RuntimeEvents) (now : Instant) :
    (FutexStep.expire (μ := μ) now).Lawful s masks := by
  refine (expires_each s.futexTimeouts (TimedWait.due s.futexTimeouts now) rfl rfl fun _ _ _ => rfl).congr fun tid => ?_
  rw [TimedWait.mem_due]
  simp only [waits_futex]
  exact ⟨fun ⟨⟨d, hget, hle⟩, hwaits⟩ => ⟨d, ⟨hget, hwaits⟩, hle⟩, fun ⟨d, ⟨hget, hwaits⟩, hle⟩ => ⟨⟨d, hget, hle⟩, hwaits⟩⟩

theorem get?_prune_futex {tid : GuestTid} {deadline : Instant} :
    (TimedWait.futex.prune s.tasks s.futexTimeouts).get? tid = some deadline ↔ s.Waits .futex tid deadline :=
  TimedWait.get?_prune

theorem keepsDeadlines_pruned : KeepsDeadlines s s.pruneFutexTimeouts :=
  keepsDeadlines_prune rfl rfl fun _ _ _ => rfl

theorem expires_next (s : RuntimeEvents) : (FutexStep.expireNext (μ := μ)).Lawful s masks := by
  rw [FutexStep.Lawful]
  cases hmin : (TimedWait.futex.prune s.tasks s.futexTimeouts).values.min? with
  | none =>
      have hnone : ∀ tid deadline, ¬s.Waits .futex tid deadline := by
        intro tid deadline hwaits
        have hmem := SortedMap.mem_values.mpr ⟨tid, get?_prune_futex.mpr hwaits⟩
        rw [List.min?_eq_none_iff.mp hmin] at hmem
        cases hmem
      have heq : s.expireNextFutexTimeout.2 = s.pruneFutexTimeouts := by
        simp only [RuntimeEvents.expireNextFutexTimeout, TimedWait.expireNext, hmin]
        rfl
      rw [heq]
      refine ⟨fun tid => iff_of_false ?_ ?_, fun _ _ => rfl, keepsDeadlines_pruned⟩
      · rintro ⟨⟨key, hwaits⟩, hrunnable⟩
        cases hwaits.symm.trans hrunnable
      · rintro ⟨deadline, hwaits, _⟩
        exact hnone tid deadline hwaits
  | some deadline =>
      obtain ⟨hmem, hleast⟩ := List.min?_eq_some_iff.mp hmin
      obtain ⟨tid₀, hfirst⟩ := SortedMap.mem_values.mp hmem
      have hall : ∀ tid candidate, s.Waits .futex tid candidate → deadline ≤ candidate := fun tid candidate hwaits =>
        hleast candidate (SortedMap.mem_values.mpr ⟨tid, get?_prune_futex.mpr hwaits⟩)
      refine (expires_each (TimedWait.futex.prune s.tasks s.futexTimeouts)
        (TimedWait.due (TimedWait.futex.prune s.tasks s.futexTimeouts) deadline) ?_ ?_
        (fun tid key => keepsDeadlines_pruned tid key)).congr fun tid => ?_
      · simp only [RuntimeEvents.expireNextFutexTimeout, TimedWait.expireNext, hmin]
      · simp only [RuntimeEvents.expireNextFutexTimeout, TimedWait.expireNext, hmin]
      · rw [TimedWait.mem_due]
        constructor
        · rintro ⟨⟨candidate, hget, hle⟩, -⟩
          exact ⟨candidate, get?_prune_futex.mp hget, fun tid' deadline' h => hle.trans (hall tid' deadline' h)⟩
        · rintro ⟨candidate, hwaits, hearliest⟩
          exact ⟨⟨candidate, get?_prune_futex.mpr hwaits, hearliest tid₀ deadline (get?_prune_futex.mp hfirst)⟩,
            (waits_futex.mp hwaits).2⟩

/-! ### The law, call by call -/

variable {pid : GuestPid} {tid : GuestTid} {args : FutexSyscallArgs} {memory : μ} {clock : HostClock}

theorem success_injective : Function.Injective SyscallOutcome.success := fun _ _ h =>
  Task.SyscallReturn.success.inj (congrArg SyscallOutcome.result h)

theorem eligible_iff (h : Queued s masks) {uaddr : GuestAddress} {isPrivate : Bool} {mask : BitVec 32}
    (hwaits : s.tasks.stateOf tid = some (.waitingForFutex (.new pid uaddr isPrivate))) :
    Eligible s.tasks masks pid (.new pid uaddr isPrivate) mask tid ↔
      (isPrivate = false → s.tasks.ownerOf tid = some pid) ∧
        ∀ waitMask, masks.get? tid = some waitMask → waitMask &&& mask ≠ 0 := by
  obtain ⟨waitMask, hmask, -⟩ := h.mask hwaits
  have howner : (isPrivate = false → s.tasks.ownerOf tid = some pid) ↔ s.tasks.ownerOf tid = some pid := by
    cases isPrivate with
    | false => exact ⟨fun h => h rfl, fun h _ => h⟩
    | true => exact ⟨fun _ => h.owner hwaits, fun h _ => h⟩
  rw [howner]
  constructor
  · rintro ⟨-, hpid, m, hm, hbit⟩
    exact ⟨hpid, fun m' hm' => Option.some.inj (hm.symm.trans hm') ▸ hbit⟩
  · rintro ⟨hpid, hbits⟩
    exact ⟨hwaits, hpid, waitMask, hmask, hbits waitMask hmask⟩

theorem wake_iff (h : Queued s masks) :
    (∃ count, SyscallOutcome.success (s.futexWake pid args).1 = .success count ∧
        KeepsDeadlines s (s.futexWake pid args).2 ∧
        WakesExactly s.tasks (s.futexWake pid args).2.tasks
          (Eligible s.tasks masks pid (args.source pid) args.wakeMask) args.val count) ↔
      ∀ tid ∈ (s.tasks.waiters (args.source pid)).take args.val,
        (args.isPrivate = false → s.tasks.ownerOf tid = some pid) ∧
          (args.command = linuxFutexWakeBitset → ∀ waitMask, masks.get? tid = some waitMask → waitMask &&& args.val3 ≠ 0) := by
  have hkeeps : KeepsDeadlines s (s.futexWake pid args).2 := keepsDeadlines_prune rfl rfl fun _ _ _ => rfl
  have hparked : ∀ tid, Eligible s.tasks masks pid (args.source pid) args.wakeMask tid →
      s.tasks.stateOf tid = some (.waitingForFutex (args.source pid)) := fun tid heligible => heligible.1
  have hexact := wakesExactly_iff h.consistent (args.source pid) args.val hparked
  constructor
  · rintro ⟨count, hcount, -, hwakes⟩ tid hmem
    obtain rfl := success_injective hcount
    have hwaits := (GuestKernel.mem_waiters h.consistent).mp (List.mem_of_mem_take hmem)
    obtain ⟨howner, hbits⟩ := (eligible_iff h hwaits).mp (hexact.mp hwakes tid hmem)
    refine ⟨howner, fun hcommand waitMask hmask => ?_⟩
    have hbit := hbits waitMask hmask
    rwa [FutexSyscallArgs.wakeMask, if_pos hcommand] at hbit
  · intro hfits
    refine ⟨_, rfl, hkeeps, hexact.mpr fun tid hmem => ?_⟩
    have hwaits := (GuestKernel.mem_waiters h.consistent).mp (List.mem_of_mem_take hmem)
    obtain ⟨howner, hbits⟩ := hfits tid hmem
    refine (eligible_iff h hwaits).mpr ⟨howner, fun waitMask hmask => ?_⟩
    rw [FutexSyscallArgs.wakeMask]
    split
    · exact hbits ‹_› waitMask hmask
    · obtain ⟨waitMask', hmask', hne⟩ := h.mask hwaits
      obtain rfl := Option.some.inj (hmask'.symm.trans hmask)
      rwa [BitVec.and_allOnes]

theorem exitWake_iff (h : Queued s masks) (addr : GuestAddress) (isPrivate : Bool) :
    (FutexStep.exitWake (μ := μ) pid addr isPrivate).Lawful s masks ↔
      (FutexStep.exitWake (μ := μ) pid addr isPrivate).Fits s masks := by
  have hkeeps : KeepsDeadlines s (s.exitWake pid addr isPrivate).2 := fun _ _ _ => rfl
  have hparked : ∀ tid, Eligible s.tasks masks pid (.new pid addr isPrivate) (.allOnes 32) tid →
      s.tasks.stateOf tid = some (.waitingForFutex (.new pid addr isPrivate)) := fun tid heligible => heligible.1
  have hexact := wakesExactly_iff h.consistent (.new pid addr isPrivate) (2 ^ 32 - 1) hparked
  refine (and_iff_right hkeeps).trans (hexact.trans ?_)
  constructor
  · intro heligible hshared tid hmem
    have hwaits := (GuestKernel.mem_waiters h.consistent).mp (List.mem_of_mem_take hmem)
    exact ((eligible_iff h hwaits).mp (heligible tid hmem)).1 hshared
  · intro howner tid hmem
    have hwaits := (GuestKernel.mem_waiters h.consistent).mp (List.mem_of_mem_take hmem)
    refine (eligible_iff h hwaits).mpr ⟨fun hshared => howner hshared tid hmem, fun waitMask hmask => ?_⟩
    obtain ⟨waitMask', hmask', hne⟩ := h.mask hwaits
    obtain rfl := Option.some.inj (hmask'.symm.trans hmask)
    rwa [BitVec.and_allOnes]

theorem requeue_iff (h : Queued s masks) :
    (∃ count, (s.requeue pid args).1 = .success count ∧ KeepsDeadlines s (s.requeue pid args).2 ∧
        Requeues s.tasks (s.requeue pid args).2.tasks pid (args.source pid) (args.target pid) args.val args.timeout count) ↔
      (args.isPrivate = false →
        (∀ tid ∈ (s.tasks.waiters (args.source pid)).take args.val, s.tasks.ownerOf tid = some pid) ∧
          (args.uaddr ≠ args.uaddr2 → ∀ tid ∈ ((s.tasks.waiters (args.source pid)).drop args.val).take args.timeout,
            s.tasks.ownerOf tid = some pid)) := by
  have hkeeps : KeepsDeadlines s (s.requeue pid args).2 := keepsDeadlines_prune rfl rfl fun _ _ _ => rfl
  have hexact := requeues_iff h.consistent pid (args.source pid) (args.target pid) args.val args.timeout
  have hsame : args.source pid ≠ args.target pid ↔ args.uaddr ≠ args.uaddr2 := by
    simp [FutexSyscallArgs.source, FutexSyscallArgs.target, FutexWaitKey.new]
  have howned : args.isPrivate = true → ∀ tid ∈ s.tasks.waiters (args.source pid), s.tasks.ownerOf tid = some pid := by
    intro hprivate tid hmem
    have hwaits := (GuestKernel.mem_waiters h.consistent).mp hmem
    rw [FutexSyscallArgs.source, FutexWaitKey.new, if_pos hprivate] at hwaits
    exact h.owner hwaits
  rw [← hsame]
  constructor
  · rintro ⟨count, hcount, -, hrequeues⟩ -
    obtain rfl := success_injective hcount
    exact hexact.mp hrequeues
  · intro hfits
    refine ⟨_, rfl, hkeeps, hexact.mpr ?_⟩
    cases hprivate : args.isPrivate with
    | false => exact hfits hprivate
    | true =>
        exact ⟨fun tid hmem => howned hprivate tid (List.mem_of_mem_take hmem),
          fun _ tid hmem => howned hprivate tid (List.mem_of_mem_drop (List.mem_of_mem_take hmem))⟩

theorem parkFutexWait_ok (h : s.tasks.ownerOf tid = some pid) (key : FutexWaitKey) (deadline : Option Instant) :
    ∃ s', s.parkFutexWait tid key deadline = (.ok (), s') ∧
      s'.tasks = s.tasks.setTaskState tid (.waitingForFutex key) ∧ Parked s s' tid key deadline := by
  obtain ⟨task, htask, -⟩ := Option.map_eq_some_iff.mp h
  simp only [RuntimeEvents.parkFutexWait, GuestKernel.blockTaskForFutex, GuestKernel.blockTask, htask]
  refine ⟨_, rfl, rfl, ?_, ?_, fun j hj => ⟨?_, ?_⟩⟩
  · rw [GuestKernel.stateOf_setTaskState, if_pos rfl, GuestKernel.stateOf, htask]
    rfl
  · cases deadline <;> simp
  · rw [GuestKernel.stateOf_setTaskState, if_neg hj]
  · cases deadline <;> simp [hj]

theorem readI64_lt {addr : GuestAddress} {value : Int} (h : readI64 memory addr = .ok value) : value < 2 ^ 63 := by
  unfold readI64 at h
  split at h
  · rw [← Except.ok.inj h]
    exact BitVec.toInt_lt
  · exact nomatch h

theorem readFutexTimeout_lt {addr : GuestAddress} {t : Duration} (h : readFutexTimeout memory addr = .ok (some t)) :
    t < 2 ^ 63 * nanosPerSec := by
  unfold readFutexTimeout at h
  by_cases haddr : addr = 0
  · simp [haddr] at h
  · rw [if_neg haddr] at h
    cases hsec : readI64 memory addr with
    | error e => simp [hsec, bind, Except.bind] at h
    | ok tvSec =>
        have hsecLt := readI64_lt hsec
        simp only [hsec, bind, Except.bind] at h
        by_cases hnext : addr + 8 < 2 ^ 64
        · rw [if_pos hnext] at h
          cases hnsec : readI64 memory (addr + 8) with
          | error e => simp [hnsec] at h
          | ok tvNsec =>
              simp only [hnsec] at h
              split at h
              · exact nomatch h
              · rename_i hvalid
                push Not at hvalid
                rw [← Option.some.inj (Except.ok.inj h)]
                have hnsecLt : tvNsec < 10 ^ 9 := hvalid.2.2
                have hsum : tvSec.toNat * 10 ^ 9 + tvNsec.toNat < 2 ^ 63 * 10 ^ 9 := by omega
                exact hsum
        · rw [if_neg hnext] at h
          exact nomatch h

theorem deadlineAfter_eq {addr : GuestAddress} {t : Duration} (h : readFutexTimeout memory addr = .ok (some t)) :
    deadlineAfter clock t = clock.now + t := by
  have hlt := readFutexTimeout_lt h
  have hrecent := clock.recent
  have hsum : clock.now + t < instantLimit := by
    have hhalves : 2 ^ 63 * nanosPerSec + 2 ^ 63 * nanosPerSec = instantLimit := by decide
    exact hhalves ▸ Nat.add_lt_add hrecent hlt
  rw [deadlineAfter, instantCheckedAdd, if_pos hsum, Option.getD_some]

theorem waits_iff (hcalled : s.tasks.ownerOf tid = some pid) {timeout : Option Duration}
    (hwaits : args.Waits memory timeout) :
    WaitsFor s (s.futex memory clock pid tid args).2 (s.futex memory clock pid tid args).1 tid (args.source pid)
        clock.now (args.elapsed clock) timeout ↔
      ∀ t, timeout = some t → t = 0 ∨ args.elapsed clock = 0 := by
  obtain ⟨s₁, hpark, -, hparked⟩ := parkFutexWait_ok hcalled (args.source pid) (timeout.map (deadlineAfter clock))
  rw [RuntimeEvents.futex_waits hwaits, hpark]
  have hdeadline : timeout.map (deadlineAfter clock) = timeout.map (clock.now + ·) := by
    cases timeout with
    | none => rfl
    | some t => exact congrArg some (deadlineAfter_eq hwaits.timeout)
  rw [hdeadline] at hparked
  generalize args.elapsed clock = elapsed
  by_cases hzero : timeout = some 0
  · -- a timeout of zero has passed, by every clock
    subst hzero
    refine iff_of_true ⟨fun t ht hle => ⟨rfl, rfl⟩, fun h => absurd (h 0 rfl) (Nat.not_lt_zero _)⟩ fun t ht => ?_
    exact Or.inl (Option.some.inj ht).symm
  · rw [if_neg hzero]
    constructor
    · intro h t ht
      subst ht
      by_contra hnot
      push Not at hnot
      rcases le_or_gt t elapsed with hle | hlt
      · exact nomatch (h.expired t rfl hle).1
      · have hstate := (h.parks fun t' ht' => Option.some.inj ht' ▸ hlt).2.deadline
        rw [hparked.deadline] at hstate
        have heq : t = t - elapsed := Nat.add_left_cancel (Option.some.inj hstate)
        exact absurd heq.symm (Nat.sub_lt (Nat.pos_of_ne_zero hnot.1) (Nat.pos_of_ne_zero hnot.2)).ne
    · intro h
      refine ⟨fun t ht hle => ?_, fun hall => ⟨rfl, ?_⟩⟩
      · subst ht
        rcases h t rfl with rfl | rfl
        · exact absurd rfl hzero
        · exact absurd (congrArg some (Nat.le_zero.mp hle)) hzero
      · cases timeout with
        | none => exact hparked
        | some t =>
            rcases h t rfl with rfl | rfl
            · exact absurd rfl hzero
            · exact hparked

theorem lawful_iff (h : Queued s masks) (step : FutexStep μ) (hcalled : step.Called s) :
    step.Lawful s masks ↔ step.Fits s masks := by
  cases step with
  | exitWake pid addr isPrivate => exact exitWake_iff h addr isPrivate
  | expire now => exact iff_of_true (expires_due s now) trivial
  | expireNext => exact iff_of_true (expires_next s) trivial
  | call pid tid args memory clock =>
      constructor
      · intro hlaw
        refine ⟨fun hwakes => ?_, fun hrequeues => ?_, fun t hwaits => ?_⟩
        · have hwake := hlaw.wakes hwakes
          rw [RuntimeEvents.futex_wakes hwakes] at hwake
          exact (wake_iff h).mp hwake
        · have hrequeue := hlaw.requeues hrequeues
          rw [RuntimeEvents.futex_requeues hrequeues] at hrequeue
          exact (requeue_iff h).mp hrequeue
        · exact (waits_iff hcalled hwaits).mp (hlaw.waits (some t) hwaits) t rfl
      · rintro ⟨hwake, hrequeue, hwait⟩
        refine ⟨fun hwakes => ?_, fun hrequeues => ?_, fun timeout hwaits => ?_, fun hwakes hrequeues hwaits => ?_⟩
        · rw [RuntimeEvents.futex_wakes hwakes]
          exact (wake_iff h).mpr (hwake hwakes)
        · rw [RuntimeEvents.futex_requeues hrequeues]
          exact (requeue_iff h).mpr (hrequeue hrequeues)
        · exact (waits_iff hcalled hwaits).mpr fun t ht => hwait t (ht ▸ hwaits)
        · obtain ⟨e, heq⟩ : ∃ e, s.futex memory clock pid tid args = (.errno e, s) :=
            RuntimeEvents.futex_refuses hwakes hrequeues hwaits
          rw [heq]
          exact ⟨⟨e, rfl⟩, rfl⟩

/-! ### Runs -/

/-- The runs from the initial process: the steps that concern the waiters of futexes, sleeps, and everything else
that the kernel does. -/
inductive FutexRun (μ : Type) [GuestMemoryAccess μ] (load : GuestProgram → Except TaskError GuestImageState)
    (image : GuestImageState) : RuntimeEvents → WaitMasks → Prop
  | start : FutexRun μ load image ⟨.initial image, .empty, .empty⟩ .empty
  | step {s : RuntimeEvents} {masks : WaitMasks} (h : FutexRun μ load image s masks) (step : FutexStep μ)
      (hcalled : step.Called s) : FutexRun μ load image (step.next s) (step.nextMasks s masks)
  | kernel {s : RuntimeEvents} {masks : WaitMasks} (h : FutexRun μ load image s masks) (call : KernelCall)
      (hother : ∀ op, call.operation s.tasks = some op → op.queues = false) {reply : KernelReply} {tasks : GuestKernel}
      (hrun : call.run load s.tasks = some (reply, tasks)) : FutexRun μ load image { s with tasks := tasks } masks
  | sleep {s : RuntimeEvents} {masks : WaitMasks} (h : FutexRun μ load image s masks) (tid : GuestTid)
      (deadline : Instant) : FutexRun μ load image (s.parkSleep tid deadline).2 masks
  | expireSleeps {s : RuntimeEvents} {masks : WaitMasks} (h : FutexRun μ load image s masks) (now : Instant) :
      FutexRun μ load image (s.resumeExpiredSleepTimeouts now).2 masks
  | expireNextSleep {s : RuntimeEvents} {masks : WaitMasks} (h : FutexRun μ load image s masks) :
      FutexRun μ load image s.expireNextSleepTimeout.2 masks

theorem Queued.parked (h : Queued s masks) (hcalled : s.tasks.ownerOf tid = some pid) (hconsistent : Consistent s'.tasks)
    (howners : ∀ j, s'.tasks.ownerOf j = s.tasks.ownerOf j) {deadline : Option Instant}
    (hparked : Parked s s' tid (args.source pid) deadline) {waitMask : BitVec 32} (hmask : waitMask ≠ 0) :
    Queued s' (masks.insert tid waitMask) where
  consistent := hconsistent
  mask {j key} hstate := by
    by_cases hj : j = tid
    · exact ⟨waitMask, by rw [hj, SortedMap.get?_insert, if_pos rfl], hmask⟩
    · rw [(hparked.others j hj).1] at hstate
      rw [SortedMap.get?_insert, if_neg hj]
      exact h.mask hstate
  owner {j pid' addr} hstate := by
    rw [howners]
    by_cases hj : j = tid
    · subst hj
      have hkey := hparked.state.symm.trans hstate
      simp only [FutexSyscallArgs.source, FutexWaitKey.new, Option.some.injEq, TaskState.waitingForFutex.injEq,
        FutexWaitKey.mk.injEq] at hkey
      obtain ⟨hpid, -⟩ := hkey
      split at hpid
      · rw [hcalled, hpid]
      · exact nomatch hpid
    · rw [(hparked.others j hj).1] at hstate
      exact h.owner hstate

theorem Queued.requeue (h : Queued s masks) : Queued (s.requeue pid args).2 masks := by
  have hscope : Quiet .requeues s.tasks (s.requeue pid args).2.tasks :=
    GuestKernel.requeueFutexWaiters_quiet s.tasks (args.source pid) (args.target pid) args.val args.timeout trivial
  have hbefore : ∀ {j key}, (s.requeue pid args).2.tasks.stateOf j = some (.waitingForFutex key) →
      ∃ key', s.tasks.stateOf j = some (.waitingForFutex key') ∧ key'.pid = key.pid := by
    intro j key hstate
    have hspec := (GuestKernel.requeueFutexWaiters_spec h.consistent (args.source pid) (args.target pid) args.val
      args.timeout).2 j
    rw [show (s.requeue pid args).2.tasks =
      (s.tasks.requeueFutexWaiters (args.source pid) (args.target pid) args.val args.timeout).2 from rfl, hspec] at hstate
    simp only [mem_unless_same] at hstate
    split at hstate
    · rename_i hmoved
      refine ⟨args.source pid, (GuestKernel.mem_waiters h.consistent).mp
        (List.mem_of_mem_drop (List.mem_of_mem_take hmoved.2)), ?_⟩
      rw [← TaskState.waitingForFutex.inj (Option.some.inj hstate)]
      rfl
    · split at hstate
      · exact nomatch hstate
      · exact ⟨key, hstate, rfl⟩
  refine ⟨Consistent.quiet hscope h.consistent, fun hstate => ?_, fun {j pid' addr} hstate => ?_⟩
  · obtain ⟨key', hwaits, -⟩ := hbefore hstate
    exact h.mask hwaits
  · obtain ⟨⟨_, addr'⟩, hwaits, rfl⟩ := hbefore hstate
    rw [Edits.ownerOf (Edits.quiet hscope) h.consistent hwaits hstate, h.owner hwaits]

theorem waitMask_ne_zero {timeout : Option Duration} (hwaits : args.Waits memory timeout) : args.waitMask ≠ 0 := by
  rw [FutexSyscallArgs.waitMask]
  rcases hwaits.command with hwait | ⟨-, hmask⟩
  · rw [if_neg (by rw [hwait]; decide)]
    decide
  · split
    · exact hmask
    · decide

theorem Queued.call (h : Queued s masks) (hcalled : s.tasks.ownerOf tid = some pid) :
    Queued (s.futex memory clock pid tid args).2
      ((FutexStep.call pid tid args memory clock).nextMasks s masks) := by
  rw [FutexStep.nextMasks]
  by_cases hwakes : args.Wakes
  · have hother : ¬(args.command = linuxFutexWait ∨ args.command = linuxFutexWaitBitset) := by
      rcases hwakes.2 with heq | ⟨heq, -⟩ <;> rw [heq] <;> decide
    rw [if_neg fun hc => hother hc.1, RuntimeEvents.futex_wakes hwakes]
    exact h.quiet (GuestKernel.wakeFutexWaiters_quiet s.tasks (args.source pid) args.val)
  · by_cases hrequeues : args.Requeues memory
    · have hother : ¬(args.command = linuxFutexWait ∨ args.command = linuxFutexWaitBitset) := by
        rcases hrequeues.2.2 with heq | ⟨heq, -⟩ <;> rw [heq] <;> decide
      rw [if_neg fun hc => hother hc.1, RuntimeEvents.futex_requeues hrequeues]
      exact h.requeue
    · by_cases hwaits : ∃ timeout, args.Waits memory timeout
      · obtain ⟨timeout, hwaits⟩ := hwaits
        have hcommand : args.command = linuxFutexWait ∨ args.command = linuxFutexWaitBitset :=
          hwaits.command.imp_right And.left
        obtain ⟨s₁, hpark, htasks, hparked⟩ :=
          parkFutexWait_ok hcalled (args.source pid) (timeout.map (deadlineAfter clock))
        rw [RuntimeEvents.futex_waits hwaits, hpark]
        by_cases hzero : timeout = some 0
        · rw [if_pos hzero, if_neg fun hc => nomatch hc.2]
          exact h
        · rw [if_neg hzero, if_pos ⟨hcommand, rfl⟩]
          refine h.parked hcalled ?_ (fun j => ?_) hparked (waitMask_ne_zero hwaits)
          · rw [htasks]
            exact h.consistent.setTaskState tid _
          · rw [htasks]
            exact GuestKernel.steady_pid.setTaskState s.tasks tid j _
      · obtain ⟨e, heq⟩ : ∃ e, s.futex memory clock pid tid args = (.errno e, s) :=
          RuntimeEvents.futex_refuses hwakes hrequeues (not_exists.mp hwaits)
        rw [heq, if_neg fun hc => nomatch hc.2]
        exact h

theorem Queued.step (h : Queued s masks) (step : FutexStep μ) (hcalled : step.Called s) :
    Queued (step.next s) (step.nextMasks s masks) := by
  cases step with
  | call pid tid args memory clock => exact h.call hcalled
  | exitWake pid addr isPrivate =>
      exact h.quiet (GuestKernel.wakeFutexWaiters_quiet s.tasks (.new pid addr isPrivate) (2 ^ 32 - 1))
  | expire now => exact h.quiet (expireEach_quiet .futex (TimedWait.due s.futexTimeouts now) s.futexTimeouts s.tasks)
  | expireNext => exact h.quiet (expireNext_quiet .futex s.futexTimeouts s.tasks)

variable {load : GuestProgram → Except TaskError GuestImageState} {image : GuestImageState}

theorem FutexRun.queued (h : FutexRun μ load image s masks) : Queued s masks := by
  induction h with
  | start =>
      have hrunnable : ∀ {tid state}, (GuestKernel.initial image).stateOf tid = some state → state = .runnable := by
        intro tid state hstate
        rw [GuestKernel.initial, GuestKernel.stateOf_insertTask] at hstate
        split at hstate
        · exact (Option.some.inj hstate).symm
        · cases hstate
      refine ⟨GuestKernel.consistent_initial image, fun hstate => ?_, fun hstate => ?_⟩
      · cases hrunnable hstate
      · cases hrunnable hstate
  | step _ step hcalled ih => exact ih.step step hcalled
  | kernel _ call hother hrun ih =>
      rename_i s masks _ reply tasks
      rw [KernelCall.run_state hrun]
      cases hop : call.operation s.tasks with
      | none => exact ih
      | some op =>
          have hqueues : ¬op.scope.queues := fun hqueues => by
            rw [KernelOp.scope, hother op hop] at hqueues
            cases hqueues
          exact ih.edits (GuestKernel.edits_of_op ih.consistent op) hqueues
  | sleep _ tid deadline ih =>
      rename_i s masks _
      have hscope : Quiet ⟨fun _ => True, False, False, False, False, False, False⟩ s.tasks
          (s.tasks.blockTaskForSleep tid).2 :=
        GuestKernel.blockTask_quiet s.tasks tid trivial (GuestKernel.parks_of_plain rfl rfl rfl) (by rintro ⟨⟩)
          (by rintro ⟨⟩)
      unfold RuntimeEvents.parkSleep
      generalize s.tasks.blockTaskForSleep tid = result at hscope ⊢
      obtain ⟨_ | _, tasks⟩ := result
      · exact ih.edits (Edits.quiet hscope) id
      · exact ih.edits (Edits.quiet hscope) id
  | expireSleeps _ now ih =>
      rename_i s masks _
      exact ih.quiet (expireEach_quiet .sleep (TimedWait.due s.sleepTimeouts now) s.sleepTimeouts s.tasks)
  | expireNextSleep _ ih =>
      rename_i s masks _
      exact ih.quiet (expireNext_quiet .sleep s.sleepTimeouts s.tasks)

/-- Wherever a run leads, the next step is lawful if and only if the waiters it takes and its timeout fit. -/
theorem futex_law (h : FutexRun μ load image s masks) (step : FutexStep μ) (hcalled : step.Called s) :
    step.Lawful s masks ↔ step.Fits s masks :=
  lawful_iff h.queued step hcalled

/-! ### A run with a bitset wait -/

/-- A futex of value zero, and at 16 a timeout of 500 ns. -/
def futexMemory : FlatMemory := ⟨List.replicate 24 0 ++ [0xf4, 1] ++ List.replicate 6 0⟩

def futexClock : HostClock := ⟨2000, 1000, 1000, by decide⟩

def futexCall (command : BitVec 32) (val timeout : Nat) (mask : BitVec 32) : FutexSyscallArgs :=
  ⟨8, command ||| linuxFutexPrivateFlag, val, timeout, 0, mask⟩

def threadedEvents : RuntimeEvents :=
  ⟨(KernelOp.run (fun _ => .ok Task.sampleImage) (.initial Task.sampleImage)
    (.cloneWithChildRegs 1 ⟨0x10f00, 0, 0, 0, 0⟩ (.new 0 0))).2, .empty, .empty⟩

/-- The second thread waits for the bit 1. -/
def bitsetWait : FutexStep FlatMemory := .call 1 2 (futexCall linuxFutexWaitBitset 0 0 1) futexMemory futexClock

def bitsetEvents : RuntimeEvents := bitsetWait.next threadedEvents

def bitsetMasks : WaitMasks := bitsetWait.nextMasks threadedEvents .empty

theorem bitsetRun : FutexRun FlatMemory (fun _ => .ok Task.sampleImage) Task.sampleImage bitsetEvents bitsetMasks := by
  have hthreaded : FutexRun FlatMemory (fun _ => .ok Task.sampleImage) Task.sampleImage threadedEvents .empty :=
    FutexRun.start.kernel (.direct (.cloneWithChildRegs 1 ⟨0x10f00, 0, 0, 0, 0⟩ (.new 0 0)))
      (fun _ hop => Option.some.inj hop ▸ rfl) (GuestKernel.run_direct _ _ _)
  have hcaller : threadedEvents.tasks.ownerOf 2 = some 1 := by decide +kernel
  exact hthreaded.step bitsetWait hcaller

/-- A plain wake fits, and is lawful. -/
theorem bitsetEvents_wake :
    (FutexStep.call 1 1 (futexCall linuxFutexWake 1 0 0) futexMemory futexClock).Lawful bitsetEvents bitsetMasks := by
  have hcaller : bitsetEvents.tasks.ownerOf 1 = some 1 := by decide +kernel
  refine (futex_law bitsetRun (.call 1 1 _ _ _) hcaller).mpr ⟨fun _ tid _ => ⟨nofun, nofun⟩, fun _ => nofun, ?_⟩
  intro t hwaits
  rcases hwaits.command with h | ⟨h, -⟩ <;> exact absurd h (by decide)

/-- A wake for the bit 2 wakes the thread that waits for the bit 1, and a bitset wait whose timeout has passed
parks. -/
theorem bitsets_ignored :
    FutexRun FlatMemory (fun _ => .ok Task.sampleImage) Task.sampleImage bitsetEvents bitsetMasks ∧
      ¬(FutexStep.call 1 1 (futexCall linuxFutexWakeBitset 1 0 2) futexMemory futexClock).Lawful bitsetEvents
        bitsetMasks ∧
      ¬(FutexStep.call 1 1 (futexCall linuxFutexWaitBitset 0 16 1) futexMemory futexClock).Lawful bitsetEvents
        bitsetMasks := by
  refine ⟨bitsetRun, fun hlaw => ?_, fun hlaw => ?_⟩
  · have hwakes : (futexCall linuxFutexWakeBitset 1 0 2).Wakes :=
      ⟨⟨by decide, by decide, by decide⟩, Or.inr ⟨by decide, by decide⟩⟩
    obtain ⟨count, -, -, hexact⟩ := hlaw.wakes hwakes
    have hparked : bitsetEvents.tasks.stateOf 2 = some (.waitingForFutex ⟨some 1, 8⟩) := by decide +kernel
    have hwoken : (bitsetEvents.futex futexMemory futexClock 1 1
      (futexCall linuxFutexWakeBitset 1 0 2)).2.tasks.stateOf 2 = some .runnable := by decide +kernel
    obtain ⟨-, -, waitMask, hmask, hbit⟩ := hexact.only 2 ⟨⟨_, hparked⟩, hwoken⟩
    have hone : bitsetMasks.get? 2 = some 1 := by decide +kernel
    obtain rfl := Option.some.inj (hone.symm.trans hmask)
    exact hbit (by decide)
  · have hwaits : (futexCall linuxFutexWaitBitset 0 16 1).Waits futexMemory (some 500) :=
      ⟨⟨by decide, by decide, by decide⟩, Or.inr ⟨by decide, by decide⟩, by decide +kernel, by decide +kernel⟩
    have hexpired := ((hlaw.waits _ hwaits).expired 500 rfl (by decide)).1
    have hparks : (bitsetEvents.futex futexMemory futexClock 1 1 (futexCall linuxFutexWaitBitset 0 16 1)).1 =
      .success 0 := by decide +kernel
    exact nomatch hparks.symm.trans hexpired

end Mcr.Runtime
