import Mcr.Runtime.Futex

/-!
# What the futex calls should do

A wake takes exactly as many waiters of its key as it may, of the caller's process and with a mask that meets
its own; a requeue wakes and moves at most as many of them as it may and loses none; the timeout of a bitset wait
is a point in time. The masks of the waiters are kept beside the state, as the calls gave them: the code keeps
none. For each step the law holds exactly when the waiters next in line are of the right kind, and a bitset wait
has no timeout that counts.
-/

namespace Mcr.Runtime

open Mcr.Task (FutexWaitKey GuestKernel GuestPid GuestTid eagain einval etimedout)
open Mcr.Task.GuestKernel (Consistent)

/-! ### Wakes and moves -/

/-- The masks that the parked waiters wait with. -/
abbrev WaitMasks := SortedMap GuestTid (BitVec 32)

/-- The task waits in the queue, is of the process, and waits for a bit of the mask. -/
def Eligible (k : GuestKernel) (masks : WaitMasks) (pid : GuestPid) (key : FutexWaitKey) (mask : BitVec 32)
    (tid : GuestTid) : Prop :=
  k.stateOf tid = some (.waitingForFutex key) ∧ k.ownerOf tid = some pid ∧
    ∃ waitMask, masks.get? tid = some waitMask ∧ waitMask &&& mask ≠ 0

def Woken (k k' : GuestKernel) (tid : GuestTid) : Prop :=
  (∃ key, k.stateOf tid = some (.waitingForFutex key)) ∧ k'.stateOf tid = some .runnable

def Moved (k k' : GuestKernel) (source target : FutexWaitKey) (tid : GuestTid) : Prop :=
  source ≠ target ∧ k.stateOf tid = some (.waitingForFutex source) ∧ k'.stateOf tid = some (.waitingForFutex target)

/-- Exactly as many eligible waiters are woken as there may be, and nothing else happens to any task. -/
structure WakesExactly (k k' : GuestKernel) (eligible : GuestTid → Prop) (n count : Nat) : Prop where
  only : ∀ tid, Woken k k' tid → eligible tid
  number : {tid | Woken k k' tid}.ncard = min n {tid | eligible tid}.ncard
  counted : count = {tid | Woken k k' tid}.ncard
  others : ∀ tid, ¬Woken k k' tid → k'.stateOf tid = k.stateOf tid

/-- At most as many waiters of the source are woken and moved as there may be, all of the process, and the others
stay where they are. -/
structure Requeues (k k' : GuestKernel) (pid : GuestPid) (source target : FutexWaitKey) (val val2 count : Nat) :
    Prop where
  woken : ∀ tid, Woken k k' tid → k.stateOf tid = some (.waitingForFutex source) ∧ k.ownerOf tid = some pid
  wokenNumber : {tid | Woken k k' tid}.ncard ≤ val
  moved : ∀ tid, Moved k k' source target tid → k.ownerOf tid = some pid
  movedNumber : {tid | Moved k k' source target tid}.ncard ≤ val2
  counted : count = {tid | Woken k k' tid}.ncard + {tid | Moved k k' source target tid}.ncard
  others : ∀ tid, ¬Woken k k' tid → ¬Moved k k' source target tid → k'.stateOf tid = k.stateOf tid

theorem ncard_mem {l : List GuestTid} (h : l.Nodup) {p : GuestTid → Prop} (hp : ∀ tid, p tid ↔ tid ∈ l) :
    {tid | p tid}.ncard = l.length := by
  have hset : {tid | p tid} = (l.toFinset : Set GuestTid) := by
    ext tid
    simp [hp]
  rw [hset, Set.ncard_coe_finset, List.toFinset_card_of_nodup h]

variable {k : GuestKernel}

theorem futexWake_woken_iff (hk : Consistent k) (key : FutexWaitKey) (n : Nat) (tid : GuestTid) :
    Woken k (k.wakeFutexWaiters key n).2 tid ↔ tid ∈ (k.waiters key).take n := by
  have hspec := (k.wakeFutexWaiters_spec hk key n).2 tid
  constructor
  · rintro ⟨⟨key', hstate⟩, hrunnable⟩
    by_contra hnot
    rw [hspec, if_neg hnot, hstate] at hrunnable
    exact nomatch hrunnable
  · intro hmem
    exact ⟨⟨key, (GuestKernel.mem_waiters hk).mp (List.mem_of_mem_take hmem)⟩, by rw [hspec, if_pos hmem]⟩

theorem wakesExactly_iff (hk : Consistent k) (key : FutexWaitKey) (n : Nat) {eligible : GuestTid → Prop}
    (hparked : ∀ tid, eligible tid → k.stateOf tid = some (.waitingForFutex key)) :
    WakesExactly k (k.wakeFutexWaiters key n).2 eligible n (k.wakeFutexWaiters key n).1 ↔
      ∀ tid ∈ (k.waiters key).take n, eligible tid := by
  classical
  have hspec := GuestKernel.wakeFutexWaiters_spec hk key n
  have hnodup := k.waiters_nodup key
  have hwoken : {tid | Woken k (k.wakeFutexWaiters key n).2 tid}.ncard = ((k.waiters key).take n).length :=
    ncard_mem (hnodup.sublist (List.take_sublist n _)) (futexWake_woken_iff hk key n)
  have heligible : {tid | eligible tid}.ncard = ((k.waiters key).filter fun tid => eligible tid).length := by
    refine ncard_mem (hnodup.filter _) fun tid => ?_
    rw [List.mem_filter, decide_eq_true_eq]
    exact ⟨fun h => ⟨(GuestKernel.mem_waiters hk).mpr (hparked tid h), h⟩, And.right⟩
  constructor
  · intro h tid hmem
    exact h.only tid ((futexWake_woken_iff hk key n tid).mpr hmem)
  · intro hall
    refine ⟨fun tid h => hall tid ((futexWake_woken_iff hk key n tid).mp h), ?_, by rw [hspec.1, hwoken], fun tid h => ?_⟩
    · -- the prefix is all of the eligible waiters, or there are more of them than may be woken
      have hprefix : ((k.waiters key).take n).length ≤ ((k.waiters key).filter fun tid => eligible tid).length := by
        have hsub := (List.take_sublist n (k.waiters key)).filter fun tid => eligible tid
        rw [List.filter_eq_self.mpr fun tid hmem => decide_eq_true (hall tid hmem)] at hsub
        exact hsub.length_le
      have hle := List.length_filter_le (fun tid => decide (eligible tid)) (k.waiters key)
      rw [hwoken, heligible]
      rw [List.length_take] at hprefix ⊢
      omega
    · rw [hspec.2, if_neg fun hmem => h ((futexWake_woken_iff hk key n tid).mpr hmem)]

theorem mem_unless_same {source target : FutexWaitKey} {tid : GuestTid} {l : List GuestTid} :
    (tid ∈ if source = target then [] else l) ↔ source ≠ target ∧ tid ∈ l := by
  by_cases hsame : source = target <;> simp [hsame]

theorem requeued_iff (hk : Consistent k) (source target : FutexWaitKey) (val val2 : Nat) (tid : GuestTid) :
    (Woken k (k.requeueFutexWaiters source target val val2).2 tid ↔ tid ∈ (k.waiters source).take val) ∧
      (Moved k (k.requeueFutexWaiters source target val val2).2 source target tid ↔
        source ≠ target ∧ tid ∈ ((k.waiters source).drop val).take val2) := by
  have hspec := (GuestKernel.requeueFutexWaiters_spec hk source target val val2).2 tid
  have hparked : ∀ {l : List GuestTid}, l.Sublist (k.waiters source) → tid ∈ l →
      k.stateOf tid = some (.waitingForFutex source) :=
    fun hsub hmem => (GuestKernel.mem_waiters hk).mp (hsub.subset hmem)
  have htake : ((k.waiters source).take val).Sublist (k.waiters source) := List.take_sublist val _
  have hdrop : (((k.waiters source).drop val).take val2).Sublist (k.waiters source) :=
    (List.take_sublist val2 _).trans (List.drop_sublist val _)
  simp only [mem_unless_same] at hspec
  constructor
  · constructor
    · rintro ⟨⟨key, hstate⟩, hrunnable⟩
      by_contra hnot
      rw [hspec, if_neg hnot, hstate] at hrunnable
      split at hrunnable <;> exact nomatch hrunnable
    · intro hmem
      have hstays : ¬(source ≠ target ∧ tid ∈ ((k.waiters source).drop val).take val2) := fun h =>
        List.disjoint_take_drop (k.waiters_nodup source) le_rfl hmem (List.mem_of_mem_take h.2)
      exact ⟨⟨source, hparked htake hmem⟩, by rw [hspec, if_neg hstays, if_pos hmem]⟩
  · constructor
    · rintro ⟨hne, hbefore, hafter⟩
      by_contra hnot
      rw [hspec, if_neg hnot, hbefore] at hafter
      split at hafter
      · exact nomatch hafter
      · exact hne (Task.TaskState.waitingForFutex.inj (Option.some.inj hafter))
    · intro h
      exact ⟨h.1, hparked hdrop h.2, by rw [hspec, if_pos h]⟩

theorem requeues_iff (hk : Consistent k) (pid : GuestPid) (source target : FutexWaitKey) (val val2 : Nat) :
    Requeues k (k.requeueFutexWaiters source target val val2).2 pid source target val val2
        (k.requeueFutexWaiters source target val val2).1 ↔
      (∀ tid ∈ (k.waiters source).take val, k.ownerOf tid = some pid) ∧
        (source ≠ target → ∀ tid ∈ ((k.waiters source).drop val).take val2, k.ownerOf tid = some pid) := by
  have hspec := GuestKernel.requeueFutexWaiters_spec hk source target val val2
  have hiff := requeued_iff hk source target val val2
  have hnodup := k.waiters_nodup source
  have hwoken : {tid | Woken k (k.requeueFutexWaiters source target val val2).2 tid}.ncard =
      ((k.waiters source).take val).length :=
    ncard_mem (hnodup.sublist (List.take_sublist val _)) fun tid => (hiff tid).1
  have hmoved : {tid | Moved k (k.requeueFutexWaiters source target val val2).2 source target tid}.ncard =
      (if source = target then [] else ((k.waiters source).drop val).take val2).length := by
    refine ncard_mem ?_ fun tid => ?_
    · split
      · exact List.nodup_nil
      · exact hnodup.sublist ((List.take_sublist val2 _).trans (List.drop_sublist val _))
    · rw [(hiff tid).2, mem_unless_same]
  constructor
  · intro h
    exact ⟨fun tid hmem => (h.woken tid ((hiff tid).1.mpr hmem)).2,
      fun hne tid hmem => h.moved tid ((hiff tid).2.mpr ⟨hne, hmem⟩)⟩
  · rintro ⟨hfirst, hnext⟩
    refine
      { woken := fun tid h => ?_
        wokenNumber := by rw [hwoken, List.length_take]; exact min_le_left _ _
        moved := fun tid h => ?_
        movedNumber := ?_
        counted := by rw [hspec.1, hwoken, hmoved]
        others := fun tid hw hm => ?_ }
    · have hmem := (hiff tid).1.mp h
      exact ⟨(GuestKernel.mem_waiters hk).mp (List.mem_of_mem_take hmem), hfirst tid hmem⟩
    · obtain ⟨hne, hmem⟩ := (hiff tid).2.mp h
      exact hnext hne tid hmem
    · rw [hmoved]
      split
      · exact Nat.zero_le _
      · rw [List.length_take]
        exact min_le_left _ _
    · rw [hspec.2, if_neg fun hmem => hm ((hiff tid).2.mpr (mem_unless_same.mp hmem)),
        if_neg fun hmem => hw ((hiff tid).1.mpr hmem)]

/-! ### The calls by what they ask for -/

namespace FutexSyscallArgs

structure Accepted (args : FutexSyscallArgs) : Prop where
  flags : args.hasUnsupportedFlags = false
  aligned : args.uaddr % 4 = 0
  clock : args.hasClockRealtime = true → args.command = linuxFutexWaitBitset

def Wakes (args : FutexSyscallArgs) : Prop :=
  args.Accepted ∧ (args.command = linuxFutexWake ∨ args.command = linuxFutexWakeBitset ∧ args.val3 ≠ 0)

def wakeMask (args : FutexSyscallArgs) : BitVec 32 :=
  if args.command = linuxFutexWakeBitset then args.val3 else .allOnes 32

def waitMask (args : FutexSyscallArgs) : BitVec 32 :=
  if args.command = linuxFutexWaitBitset then args.val3 else .allOnes 32

variable {μ : Type} [GuestMemoryAccess μ]

/-- `FUTEX_REQUEUE`, or `FUTEX_CMP_REQUEUE` where the futex has the value. -/
def Requeues (args : FutexSyscallArgs) (memory : μ) : Prop :=
  args.Accepted ∧ args.uaddr2 % 4 = 0 ∧
    (args.command = linuxFutexRequeue ∨
      args.command = linuxFutexCmpRequeue ∧ readU32 memory args.uaddr = .ok args.val3.toNat)

/-- `FUTEX_WAIT`, or `FUTEX_WAIT_BITSET` with a mask, where the futex has the value and the timeout is valid. -/
structure Waits (args : FutexSyscallArgs) (memory : μ) (timeout : Option Duration) : Prop where
  accepted : args.Accepted
  command : args.command = linuxFutexWait ∨ args.command = linuxFutexWaitBitset ∧ args.val3 ≠ 0
  value : readU32 memory args.uaddr = .ok args.val
  timeout : readFutexTimeout memory args.timeout = .ok timeout

end FutexSyscallArgs

namespace RuntimeEvents

variable {μ : Type} [GuestMemoryAccess μ] {s : RuntimeEvents} {memory : μ} {clock : HostClock} {pid : GuestPid}
  {tid : GuestTid} {args : FutexSyscallArgs}

theorem futex_accepted (h : args.Accepted) : s.futex memory clock pid tid args =
    if args.command = linuxFutexWait then s.futexWait memory clock pid tid args
    else if args.command = linuxFutexWaitBitset then
      if args.val3 = 0 then (.errno einval, s) else s.futexWait memory clock pid tid args
    else if args.command = linuxFutexWake then (.success (s.futexWake pid args).1, (s.futexWake pid args).2)
    else if args.command = linuxFutexWakeBitset then
      if args.val3 = 0 then (.errno einval, s) else (.success (s.futexWake pid args).1, (s.futexWake pid args).2)
    else if args.command = linuxFutexRequeue then s.futexRequeue memory pid args false
    else if args.command = linuxFutexCmpRequeue then s.futexRequeue memory pid args true
    else (.errno einval, s) := by
  have hclock : ¬(args.hasClockRealtime = true ∧ args.command ≠ linuxFutexWaitBitset) := fun hc => hc.2 (h.clock hc.1)
  rw [futex, if_neg (by rw [h.flags]; exact Bool.false_ne_true), if_neg (not_not.mpr h.aligned), if_neg hclock]

theorem futex_wakes (h : args.Wakes) :
    s.futex memory clock pid tid args = (.success (s.futexWake pid args).1, (s.futexWake pid args).2) := by
  rw [futex_accepted h.1]
  rcases h.2 with hwake | ⟨hwake, hmask⟩
  · simp [hwake, linuxFutexWake, linuxFutexWait, linuxFutexWaitBitset]
  · simp only [hwake, linuxFutexWakeBitset, linuxFutexWake, linuxFutexWait, linuxFutexWaitBitset, BitVec.reduceEq,
      if_false, if_true, if_neg hmask]

theorem futex_requeues (h : args.Requeues memory) : s.futex memory clock pid tid args = s.requeue pid args := by
  obtain ⟨haccepted, haligned, hcommand⟩ := h
  rw [futex_accepted haccepted]
  rcases hcommand with hrequeue | ⟨hrequeue, hvalue⟩
  · simp [hrequeue, futexRequeue, haligned, linuxFutexRequeue, linuxFutexWakeBitset, linuxFutexWake, linuxFutexWait,
      linuxFutexWaitBitset]
  · simp [hrequeue, futexRequeue, haligned, hvalue, linuxFutexCmpRequeue, linuxFutexRequeue, linuxFutexWakeBitset,
      linuxFutexWake, linuxFutexWait, linuxFutexWaitBitset]

theorem futex_waits {timeout : Option Duration} (h : args.Waits memory timeout) :
    s.futex memory clock pid tid args =
      if timeout = some 0 then (.errno etimedout, s)
      else
        match s.parkFutexWait tid (args.source pid) (timeout.map (deadlineAfter clock)) with
        | (.ok (), s) => (.success 0, s)
        | (.error e, s) => (e.intoOutcome, s) := by
  have hwait : s.futex memory clock pid tid args = s.futexWait memory clock pid tid args := by
    rw [futex_accepted h.accepted]
    rcases h.command with hwait | ⟨hwait, hmask⟩
    · simp [hwait]
    · simp only [hwait, linuxFutexWaitBitset, linuxFutexWait, BitVec.reduceEq, if_false, if_true, if_neg hmask]
  rw [hwait, futexWait, h.value]
  refine (if_neg (not_not.mpr rfl)).trans ?_
  rewrite [h.timeout]
  rfl

theorem futex_not_accepted (h : ¬args.Accepted) : s.futex memory clock pid tid args = (.errno einval, s) := by
  unfold futex
  by_cases hflags : args.hasUnsupportedFlags = true
  · rw [if_pos hflags]
  · rw [if_neg hflags]
    by_cases haligned : args.uaddr % 4 = 0
    · rw [if_neg (not_not.mpr haligned), if_pos]
      by_contra hclock
      refine h ⟨Bool.eq_false_iff.mpr hflags, haligned, fun hrealtime => ?_⟩
      by_contra hcommand
      exact hclock ⟨hrealtime, hcommand⟩
    · rw [if_pos haligned]

theorem futexWait_refuses (h : ∀ timeout, ¬(readU32 memory args.uaddr = .ok args.val ∧
    readFutexTimeout memory args.timeout = .ok timeout)) :
    ∃ e, s.futexWait memory clock pid tid args = (.errno e, s) := by
  unfold futexWait
  cases hvalue : readU32 memory args.uaddr with
  | error e => exact ⟨e, rfl⟩
  | ok value =>
      by_cases heq : value = args.val
      · subst heq
        simp only [ne_eq, not_true_eq_false, if_false]
        cases htimeout : readFutexTimeout memory args.timeout with
        | error e => exact ⟨e, rfl⟩
        | ok timeout => exact absurd ⟨hvalue, htimeout⟩ (h timeout)
      · simp only [ne_eq, heq, not_false_eq_true, if_true]
        exact ⟨eagain, rfl⟩

theorem futexRequeue_refuses {compare : Bool} (h : ¬(args.uaddr2 % 4 = 0 ∧
    (compare = true → readU32 memory args.uaddr = .ok args.val3.toNat))) :
    ∃ e, s.futexRequeue memory pid args compare = (.errno e, s) := by
  unfold futexRequeue
  by_cases haligned : args.uaddr2 % 4 = 0
  · have hcompare : compare = true := by
      by_contra hnot
      exact h ⟨haligned, fun hcompare => absurd hcompare hnot⟩
    rw [if_neg (not_not.mpr haligned), if_pos hcompare]
    cases hvalue : readU32 memory args.uaddr with
    | error e => exact ⟨e, rfl⟩
    | ok value =>
        have hne : value ≠ args.val3.toNat := fun heq => h ⟨haligned, fun _ => heq ▸ hvalue⟩
        exact ⟨eagain, if_pos hne⟩
  · exact ⟨einval, if_pos haligned⟩

theorem futex_refuses (hwakes : ¬args.Wakes) (hrequeues : ¬args.Requeues memory)
    (hwaits : ∀ timeout, ¬args.Waits memory timeout) : ∃ e, s.futex memory clock pid tid args = (.errno e, s) := by
  by_cases haccepted : args.Accepted
  · rw [futex_accepted haccepted]
    split_ifs with hwait hbitset hmask hwake hwakeBitset hmask' hrequeue hcmpRequeue
    · exact futexWait_refuses fun timeout h => hwaits timeout ⟨haccepted, Or.inl hwait, h.1, h.2⟩
    · exact ⟨einval, rfl⟩
    · exact futexWait_refuses fun timeout h => hwaits timeout ⟨haccepted, Or.inr ⟨hbitset, hmask⟩, h.1, h.2⟩
    · exact absurd ⟨haccepted, Or.inl hwake⟩ hwakes
    · exact ⟨einval, rfl⟩
    · exact absurd ⟨haccepted, Or.inr ⟨hwakeBitset, hmask'⟩⟩ hwakes
    · exact futexRequeue_refuses fun h => hrequeues ⟨haccepted, h.1, Or.inl hrequeue⟩
    · exact futexRequeue_refuses fun h => hrequeues ⟨haccepted, h.1, Or.inr ⟨hcmpRequeue, h.2 rfl⟩⟩
    · exact ⟨einval, rfl⟩
  · exact ⟨einval, futex_not_accepted haccepted⟩

end RuntimeEvents

end Mcr.Runtime
