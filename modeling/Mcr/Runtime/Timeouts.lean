import Mcr.Task.Runs

/-!
# Timed waits

A task in a futex wait or in a sleep may have a deadline, in one of two maps. Deadlines that have passed are
expired map by map, and so are the next ones when no task can run: the next futex deadline first, and the next
sleep only when no futex wait has one. So the step that an idle scheduler takes resumes the waits with the
earliest deadline exactly when no sleep is due as early as the next futex wait.
-/

namespace Mcr.Runtime

open Mcr.Task (FutexWaitKey GuestKernel GuestTid KernelOp TaskError TaskState)

/-- A point of the host's monotonic clock, in nanoseconds. -/
abbrev Instant := Nat

abbrev Timeouts := SortedMap GuestTid Instant

inductive TimedWait
  | futex
  | sleep
deriving DecidableEq, Repr

namespace TimedWait

def parks : TimedWait → TaskState → Bool
  | .futex, state => state.isWaitingForFutex
  | .sleep, state => state = .waitingForSleep

def resume : TimedWait → GuestKernel → GuestTid → Bool × GuestKernel
  | .futex, tasks, tid => tasks.timeoutFutexWaiter tid
  | .sleep, tasks, tid => tasks.resumeSleepWaiter tid

def prune (wait : TimedWait) (tasks : GuestKernel) (timeouts : Timeouts) : Timeouts :=
  timeouts.filter fun tid _ => (tasks.stateOf tid).any wait.parks

/-- The loop over the tasks whose deadline has passed: how many were resumed, and what is left. -/
def expireEach (wait : TimedWait) : List GuestTid → Timeouts → GuestKernel → Nat × Timeouts × GuestKernel
  | [], timeouts, tasks => (0, timeouts, tasks)
  | tid :: rest, timeouts, tasks =>
    let (woken, tasks) := wait.resume tasks tid
    let (resumed, timeouts, tasks) := expireEach wait rest (timeouts.erase tid) tasks
    (if woken then resumed + 1 else resumed, timeouts, tasks)

def due (timeouts : Timeouts) (deadline : Instant) : List GuestTid :=
  (timeouts.filter fun _ candidate => candidate ≤ deadline).keys

/-- `resume_expired_futex_timeouts` and `resume_expired_sleep_timeouts` by the wait. -/
def resumeExpired (wait : TimedWait) (now : Instant) (timeouts : Timeouts) (tasks : GuestKernel) :
    Nat × Timeouts × GuestKernel :=
  let (resumed, timeouts, tasks) := expireEach wait (due timeouts now) timeouts tasks
  (resumed, wait.prune tasks timeouts, tasks)

/-- `expire_next_futex_timeout` and `expire_next_sleep_timeout` by the wait. -/
def expireNext (wait : TimedWait) (timeouts : Timeouts) (tasks : GuestKernel) : Bool × Timeouts × GuestKernel :=
  let timeouts := wait.prune tasks timeouts
  match timeouts.values.min? with
  | none => (false, timeouts, tasks)
  | some deadline =>
    let (_, timeouts, tasks) := expireEach wait (due timeouts deadline) timeouts tasks
    (true, wait.prune tasks timeouts, tasks)

end TimedWait

/-- The tasks and the deadlines of their waits. -/
structure RuntimeEvents where
  tasks : GuestKernel
  futexTimeouts : Timeouts
  sleepTimeouts : Timeouts

namespace RuntimeEvents

def timeouts (s : RuntimeEvents) : TimedWait → Timeouts
  | .futex => s.futexTimeouts
  | .sleep => s.sleepTimeouts

def resumeExpiredFutexTimeouts (s : RuntimeEvents) (now : Instant) : Nat × RuntimeEvents :=
  let (resumed, timeouts, tasks) := TimedWait.futex.resumeExpired now s.futexTimeouts s.tasks
  (resumed, { s with tasks := tasks, futexTimeouts := timeouts })

def resumeExpiredSleepTimeouts (s : RuntimeEvents) (now : Instant) : Nat × RuntimeEvents :=
  let (resumed, timeouts, tasks) := TimedWait.sleep.resumeExpired now s.sleepTimeouts s.tasks
  (resumed, { s with tasks := tasks, sleepTimeouts := timeouts })

def expireNextFutexTimeout (s : RuntimeEvents) : Bool × RuntimeEvents :=
  let (expired, timeouts, tasks) := TimedWait.futex.expireNext s.futexTimeouts s.tasks
  (expired, { s with tasks := tasks, futexTimeouts := timeouts })

def expireNextSleepTimeout (s : RuntimeEvents) : Bool × RuntimeEvents :=
  let (expired, timeouts, tasks) := TimedWait.sleep.expireNext s.sleepTimeouts s.tasks
  (expired, { s with tasks := tasks, sleepTimeouts := timeouts })

/-- The step of `run_guest_until_exit_loop` when no task is runnable; `false` is `NoRunnableTasks`. -/
def idleStep (s : RuntimeEvents) : Bool × RuntimeEvents :=
  let (expired, s) := s.expireNextFutexTimeout
  if expired then (true, s) else s.expireNextSleepTimeout

def parkFutexWait (s : RuntimeEvents) (tid : GuestTid) (key : FutexWaitKey) (deadline : Option Instant) :
    Except TaskError Unit × RuntimeEvents :=
  match s.tasks.blockTaskForFutex tid key with
  | (.ok (), tasks) =>
    (.ok (), { s with
      tasks := tasks
      futexTimeouts := match deadline with
        | some deadline => s.futexTimeouts.insert tid deadline
        | none => s.futexTimeouts.erase tid })
  | (.error e, tasks) => (.error e, { s with tasks := tasks })

/-- The end of `nanosleep`, for a duration that is not zero. -/
def parkSleep (s : RuntimeEvents) (tid : GuestTid) (deadline : Instant) : Except TaskError Unit × RuntimeEvents :=
  match s.tasks.blockTaskForSleep tid with
  | (.ok (), tasks) =>
    (.ok (), { s with tasks := tasks, sleepTimeouts := s.sleepTimeouts.insert tid deadline })
  | (.error e, tasks) => (.error e, { s with tasks := tasks })

end RuntimeEvents

/-! ### What expiring does -/

namespace TimedWait

theorem stateOf_resume (wait : TimedWait) (tasks : GuestKernel) (tid j : GuestTid) :
    (wait.resume tasks tid).2.stateOf j =
      if j = tid then (tasks.stateOf tid).map fun state => if wait.parks state then .runnable else state
      else tasks.stateOf j := by
  cases wait with
  | futex => exact GuestKernel.stateOf_endFutexWait tasks tid Task.etimedout j
  | sleep =>
      rw [resume, GuestKernel.stateOf_resumeSleepWaiter]
      simp only [parks, decide_eq_true_eq]

theorem parks_runnable (wait : TimedWait) : wait.parks .runnable = false := by
  cases wait <;> rfl

theorem stateOf_expireEach (wait : TimedWait) (tids : List GuestTid) (timeouts : Timeouts) (tasks : GuestKernel)
    (j : GuestTid) : (wait.expireEach tids timeouts tasks).2.2.stateOf j =
      if j ∈ tids then (tasks.stateOf j).map fun state => if wait.parks state then .runnable else state
      else tasks.stateOf j := by
  induction tids generalizing timeouts tasks with
  | nil => rfl
  | cons tid rest ih =>
      rw [expireEach]
      dsimp only
      rw [ih, stateOf_resume]
      by_cases hj : j = tid
      · subst hj
        cases hstate : tasks.stateOf j with
        | none => simp
        | some state => by_cases hparks : wait.parks state = true <;> simp [hparks, parks_runnable]
      · simp [hj]

theorem get?_expireEach (wait : TimedWait) (tids : List GuestTid) (timeouts : Timeouts) (tasks : GuestKernel)
    (j : GuestTid) : (wait.expireEach tids timeouts tasks).2.1.get? j =
      if j ∈ tids then none else timeouts.get? j := by
  induction tids generalizing timeouts tasks with
  | nil => rfl
  | cons tid rest ih =>
      rw [expireEach]
      dsimp only
      rw [ih, SortedMap.get?_erase]
      by_cases hj : j = tid <;> simp [hj]

theorem mem_due {timeouts : Timeouts} {deadline : Instant} {tid : GuestTid} :
    tid ∈ due timeouts deadline ↔ ∃ candidate, timeouts.get? tid = some candidate ∧ candidate ≤ deadline := by
  simp [due, SortedMap.mem_keys, SortedMap.get?_filter_eq_some]

theorem get?_prune {wait : TimedWait} {tasks : GuestKernel} {timeouts : Timeouts} {tid : GuestTid} {deadline : Instant} :
    (wait.prune tasks timeouts).get? tid = some deadline ↔
      timeouts.get? tid = some deadline ∧ ∃ state, tasks.stateOf tid = some state ∧ wait.parks state = true := by
  simp [prune, SortedMap.get?_filter_eq_some, Option.any_eq_true]

end TimedWait

namespace RuntimeEvents

def Waits (s : RuntimeEvents) (wait : TimedWait) (tid : GuestTid) (deadline : Instant) : Prop :=
  (s.timeouts wait).get? tid = some deadline ∧ ∃ state, s.tasks.stateOf tid = some state ∧ wait.parks state = true

theorem Waits.unique {s : RuntimeEvents} {wait wait' : TimedWait} {tid : GuestTid} {deadline deadline' : Instant}
    (h : s.Waits wait tid deadline) (h' : s.Waits wait' tid deadline') : wait = wait' ∧ deadline = deadline' := by
  obtain ⟨hget, state, hstate, hparks⟩ := h
  obtain ⟨hget', state', hstate', hparks'⟩ := h'
  obtain rfl := Option.some.inj (hstate.symm.trans hstate')
  have hwait : wait = wait' := by
    cases wait <;> cases wait' <;> cases state <;> simp_all [TimedWait.parks, TaskState.isWaitingForFutex]
  subst hwait
  exact ⟨rfl, Option.some.inj (hget.symm.trans hget')⟩

end RuntimeEvents

theorem TimedWait.expireNext_cases (wait : TimedWait) (timeouts : Timeouts) (tasks : GuestKernel) :
    ((∀ tid deadline, (wait.prune tasks timeouts).get? tid ≠ some deadline) ∧
        wait.expireNext timeouts tasks = (false, wait.prune tasks timeouts, tasks)) ∨
      ∃ deadline, (∃ tid, (wait.prune tasks timeouts).get? tid = some deadline) ∧
        (∀ tid candidate, (wait.prune tasks timeouts).get? tid = some candidate → deadline ≤ candidate) ∧
        (wait.expireNext timeouts tasks).1 = true ∧
        ∀ j, (wait.expireNext timeouts tasks).2.2.stateOf j =
          if (wait.prune tasks timeouts).get? j = some deadline then some .runnable else tasks.stateOf j := by
  unfold expireNext
  cases hmin : (wait.prune tasks timeouts).values.min? with
  | none =>
      refine Or.inl ⟨fun tid deadline hget => ?_, by simp only [hmin]⟩
      have hmem := SortedMap.mem_values.mpr ⟨tid, hget⟩
      rw [List.min?_eq_none_iff.mp hmin] at hmem
      exact nomatch hmem
  | some deadline =>
      obtain ⟨hmem, hleast⟩ := List.min?_eq_some_iff.mp hmin
      have hall : ∀ tid candidate, (wait.prune tasks timeouts).get? tid = some candidate → deadline ≤ candidate :=
        fun tid candidate hget => hleast candidate (SortedMap.mem_values.mpr ⟨tid, hget⟩)
      refine Or.inr ⟨deadline, SortedMap.mem_values.mp hmem, hall, by simp only [hmin], fun j => ?_⟩
      simp only [hmin]
      rw [stateOf_expireEach]
      by_cases hj : (wait.prune tasks timeouts).get? j = some deadline
      · obtain ⟨-, state, hstate, hparks⟩ := get?_prune.mp hj
        rw [if_pos (mem_due.mpr ⟨deadline, hj, le_rfl⟩), if_pos hj, hstate, Option.map_some, if_pos hparks]
      · rw [if_neg hj, if_neg]
        intro hdue
        obtain ⟨candidate, hget, hle⟩ := mem_due.mp hdue
        exact hj (le_antisymm hle (hall j candidate hget) ▸ hget)

namespace RuntimeEvents

/-! ### The idle step -/

def Resumes (s s' : RuntimeEvents) (tid : GuestTid) : Prop :=
  (∃ wait deadline, s.Waits wait tid deadline) ∧ s'.tasks.stateOf tid = some .runnable

/-- The task has a deadline, and none is earlier. -/
def Earliest (s : RuntimeEvents) (tid : GuestTid) : Prop :=
  ∃ wait deadline, s.Waits wait tid deadline ∧
    ∀ wait' tid' deadline', s.Waits wait' tid' deadline' → deadline ≤ deadline'

/-- No futex wait has a deadline, or one has a deadline that comes before every sleep's. -/
def FutexesFirst (s : RuntimeEvents) : Prop :=
  (∀ tid deadline, ¬s.Waits .futex tid deadline) ∨
    ∃ tid deadline, s.Waits .futex tid deadline ∧ ∀ tid' deadline', s.Waits .sleep tid' deadline' → deadline < deadline'

theorem waits_futex_iff {s : RuntimeEvents} {tid : GuestTid} {deadline : Instant} :
    (TimedWait.futex.prune s.tasks s.futexTimeouts).get? tid = some deadline ↔ s.Waits .futex tid deadline :=
  TimedWait.get?_prune

theorem waits_sleep_iff {s : RuntimeEvents} {tid : GuestTid} {deadline : Instant} :
    (TimedWait.sleep.prune s.tasks s.sleepTimeouts).get? tid = some deadline ↔ s.Waits .sleep tid deadline :=
  TimedWait.get?_prune

theorem resumes_iff {s s' : RuntimeEvents} {p : GuestTid → Prop} [DecidablePred p]
    (hp : ∀ tid, p tid → ∃ wait deadline, s.Waits wait tid deadline)
    (hstate : ∀ tid, s'.tasks.stateOf tid = if p tid then some .runnable else s.tasks.stateOf tid) (tid : GuestTid) :
    s.Resumes s' tid ↔ p tid := by
  constructor
  · rintro ⟨⟨wait, deadline, -, state, hold, hparks⟩, hrunnable⟩
    by_contra hnot
    rw [hstate, if_neg hnot, hold, Option.some.injEq] at hrunnable
    rw [hrunnable, wait.parks_runnable] at hparks
    exact nomatch hparks
  · intro h
    exact ⟨hp tid h, by rw [hstate, if_pos h]⟩

/-- The idle step resumes the waits of one kind that have its earliest deadline: futex waits, if any has one. -/
theorem idleStep_cases (s : RuntimeEvents) :
    (∃ tid₀ deadline, s.Waits .futex tid₀ deadline ∧
        (∀ tid deadline', s.Waits .futex tid deadline' → deadline ≤ deadline') ∧
        ∀ tid, s.Resumes s.idleStep.2 tid ↔ s.Waits .futex tid deadline) ∨
      (∀ tid deadline, ¬s.Waits .futex tid deadline) ∧
        ((∀ tid deadline, ¬s.Waits .sleep tid deadline) ∧ (∀ tid, ¬s.Resumes s.idleStep.2 tid) ∨
          ∃ deadline, (∃ tid, s.Waits .sleep tid deadline) ∧
            (∀ tid deadline', s.Waits .sleep tid deadline' → deadline ≤ deadline') ∧
            ∀ tid, s.Resumes s.idleStep.2 tid ↔ s.Waits .sleep tid deadline) := by
  simp only [← waits_futex_iff, ← waits_sleep_iff]
  rcases TimedWait.futex.expireNext_cases s.futexTimeouts s.tasks with
    ⟨hnone, heq⟩ | ⟨deadline, ⟨tid₀, hsome⟩, hleast, htrue, hstate⟩
  · have hidle : s.idleStep =
        ({ s with futexTimeouts := TimedWait.futex.prune s.tasks s.futexTimeouts } : RuntimeEvents).expireNextSleepTimeout := by
      simp only [idleStep, expireNextFutexTimeout, heq, Bool.false_eq_true, if_false]
    refine Or.inr ⟨hnone, ?_⟩
    rcases TimedWait.sleep.expireNext_cases s.sleepTimeouts s.tasks with
      ⟨hnone', heq'⟩ | ⟨deadline, hsome, hleast, -, hstate⟩
    · have htasks : s.idleStep.2.tasks = s.tasks := by simp only [hidle, expireNextSleepTimeout, heq']
      refine Or.inl ⟨hnone', fun tid hresumes => ?_⟩
      refine (resumes_iff (p := fun _ => False) (fun _ => False.elim) (fun tid => ?_) tid).mp hresumes
      rw [if_neg id, htasks]
    · refine Or.inr ⟨deadline, hsome, hleast, fun tid => ?_⟩
      refine resumes_iff (fun tid h => ⟨.sleep, deadline, waits_sleep_iff.mp h⟩) (fun tid => ?_) tid
      rw [← hstate, hidle]
      rfl
  · have hidle : s.idleStep = (true, s.expireNextFutexTimeout.2) := by
      simp only [idleStep, expireNextFutexTimeout, htrue, if_true]
    refine Or.inl ⟨tid₀, deadline, hsome, hleast, fun tid => ?_⟩
    refine resumes_iff (fun tid h => ⟨.futex, deadline, waits_futex_iff.mp h⟩) (fun tid => ?_) tid
    rw [← hstate, hidle]
    rfl

/-- The step resumes the waits with the earliest deadline of all and no others, so none whose deadline is later than
one that is pending. -/
structure InOrder (s s' : RuntimeEvents) : Prop where
  exact : ∀ tid, s.Resumes s' tid ↔ s.Earliest tid
  ordered : ∀ wait tid deadline, s.Waits wait tid deadline → s.Resumes s' tid →
    ∀ wait' tid' deadline', s.Waits wait' tid' deadline' → deadline ≤ deadline'

theorem inOrder_of_exact {s s' : RuntimeEvents} (h : ∀ tid, s.Resumes s' tid ↔ s.Earliest tid) : InOrder s s' where
  exact := h
  ordered wait tid deadline hwaits hresumes := by
    obtain ⟨wait', deadline', hwaits', hall⟩ := (h tid).mp hresumes
    exact (hwaits.unique hwaits').2 ▸ hall

theorem exact_iff (s : RuntimeEvents) : (∀ tid, s.Resumes s.idleStep.2 tid ↔ s.Earliest tid) ↔ s.FutexesFirst := by
  rcases s.idleStep_cases with ⟨tid₀, deadline, hwaits, hleast, hresumes⟩ |
    ⟨hnone, ⟨hnone', hresumes⟩ | ⟨deadline, ⟨tid₀, hwaits⟩, hleast, hresumes⟩⟩
  · constructor
    · intro hexact
      refine Or.inr ⟨tid₀, deadline, hwaits, fun tid deadline' hsleep => ?_⟩
      obtain ⟨wait, d, hd, hall⟩ := (hexact tid₀).mp ((hresumes tid₀).mpr hwaits)
      obtain ⟨-, rfl⟩ := hd.unique hwaits
      refine lt_of_le_of_ne (hall .sleep tid deadline' hsleep) fun heq => ?_
      have hearliest : s.Earliest tid := ⟨.sleep, deadline', hsleep, heq ▸ hall⟩
      have hfutex := (hresumes tid).mp ((hexact tid).mpr hearliest)
      exact nomatch (hsleep.unique hfutex).1
    · rintro (hempty | ⟨tid₁, d₁, hfirst, hbefore⟩) tid
      · exact absurd hwaits (hempty tid₀ deadline)
      · rw [hresumes]
        constructor
        · intro h
          refine ⟨.futex, deadline, h, fun wait tid' deadline' h' => ?_⟩
          cases wait with
          | futex => exact hleast tid' deadline' h'
          | sleep => exact (hleast tid₁ d₁ hfirst).trans (hbefore tid' deadline' h').le
        · rintro ⟨wait, d, hd, hall⟩
          cases wait with
          | futex => exact le_antisymm (hall .futex tid₀ deadline hwaits) (hleast tid d hd) ▸ hd
          | sleep => exact absurd (hall .futex tid₁ d₁ hfirst) (not_le.mpr (hbefore tid d hd))
  · refine iff_of_true (fun tid => iff_of_false (hresumes tid) ?_) (Or.inl hnone)
    rintro ⟨wait, d, hd, -⟩
    cases wait with
    | futex => exact hnone tid d hd
    | sleep => exact hnone' tid d hd
  · refine iff_of_true (fun tid => ?_) (Or.inl hnone)
    rw [hresumes]
    constructor
    · intro h
      refine ⟨.sleep, deadline, h, fun wait tid' deadline' h' => ?_⟩
      cases wait with
      | futex => exact absurd h' (hnone tid' deadline')
      | sleep => exact hleast tid' deadline' h'
    · rintro ⟨wait, d, hd, hall⟩
      cases wait with
      | futex => exact absurd hd (hnone tid d)
      | sleep => exact le_antisymm (hall .sleep tid₀ deadline hwaits) (hleast tid d hd) ▸ hd

/-- In every state the idle step goes by the deadlines if and only if no sleep is due as early as the next futex
wait. -/
theorem idle_in_deadline_order (s : RuntimeEvents) : s.InOrder s.idleStep.2 ↔ s.FutexesFirst :=
  ⟨fun h => s.exact_iff.mp h.exact, fun h => inOrder_of_exact (s.exact_iff.mpr h)⟩

/-- One thread sleeps for a while, another waits on a futex for longer. -/
def timedEvents : RuntimeEvents :=
  let tasks := (KernelOp.run (fun _ => .ok Task.sampleImage) (.initial Task.sampleImage)
    (.cloneWithChildRegs 1 ⟨0x10f00, 0, 0, 0, 0⟩ (.new 0 0))).2
  ((RuntimeEvents.parkFutexWait ⟨tasks, .empty, .empty⟩ 2 ⟨some 1, 0x1000⟩ (some 2000)).2.parkSleep 1 1000).2

/-- The futex wait, which is due later, is the one that ends. -/
theorem later_deadline_first : timedEvents.tasks.runnableTids.isEmpty = true ∧
    timedEvents.futexTimeouts.get? 2 = some 2000 ∧ timedEvents.sleepTimeouts.get? 1 = some 1000 ∧
    timedEvents.idleStep.2.tasks.stateOf 2 = some .runnable ∧
    timedEvents.idleStep.2.tasks.stateOf 1 = some .waitingForSleep ∧ ¬timedEvents.InOrder timedEvents.idleStep.2 := by
  have hfutex : timedEvents.futexTimeouts.get? 2 = some 2000 := by decide +kernel
  have hsleep : timedEvents.sleepTimeouts.get? 1 = some 1000 := by decide +kernel
  have hwaits : timedEvents.tasks.stateOf 2 = some (.waitingForFutex ⟨some 1, 0x1000⟩) := by decide +kernel
  have hsleeps : timedEvents.tasks.stateOf 1 = some .waitingForSleep := by decide +kernel
  have hresumed : timedEvents.idleStep.2.tasks.stateOf 2 = some .runnable := by decide +kernel
  refine ⟨by decide +kernel, hfutex, hsleep, hresumed, by decide +kernel, fun horder => ?_⟩
  have hlater : timedEvents.Waits .futex 2 2000 := ⟨hfutex, _, hwaits, rfl⟩
  have hearlier : timedEvents.Waits .sleep 1 1000 := ⟨hsleep, _, hsleeps, rfl⟩
  exact absurd (horder.ordered .futex 2 2000 hlater ⟨⟨_, _, hlater⟩, hresumed⟩ .sleep 1 1000 hearlier) (by decide)

end RuntimeEvents

end Mcr.Runtime
