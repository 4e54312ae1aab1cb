import Mcr.Task.Pending

/-!
# Futex queues

The waiters of a futex queue are taken in thread order. A wake takes a prefix of the queue, and a requeue a
prefix for the wakes and the next waiters for the other queue. So whether a wake takes the waiters that it
should depends on the prefix alone.
-/

namespace Mcr.Task.GuestKernel

variable {k k' : GuestKernel}

/-! ### The loops -/

/-- The loop over the waiters of a queue gives the new state to the first of them, up to the limit. -/
theorem moveFutexWaiters_spec {source : FutexWaitKey} (state : TaskState) {limit : Nat} (tids : List GuestTid)
    (hnodup : tids.Nodup) (moved : Nat) (hlimit : moved < limit) (k : GuestKernel)
    (hparked : ∀ tid ∈ tids, k.stateOf tid = some (.waitingForFutex source)) :
    (moveFutexWaiters source state limit tids moved k).1 = moved + (tids.take (limit - moved)).length ∧
      ∀ j, (moveFutexWaiters source state limit tids moved k).2.stateOf j =
        if j ∈ tids.take (limit - moved) then some state else k.stateOf j := by
  induction tids generalizing k moved with
  | nil => simp [moveFutexWaiters]
  | cons tid rest ih =>
      obtain ⟨hnew, hrest⟩ := List.nodup_cons.mp hnodup
      obtain ⟨task, htask, hstate⟩ := Option.map_eq_some_iff.mp (hparked tid List.mem_cons_self)
      have hfirst : ∀ j, (k.setTaskState tid state).stateOf j = if j = tid then some state else k.stateOf j := by
        intro j
        rw [stateOf_setTaskState, hparked tid List.mem_cons_self, Option.map_some]
      have htake : (tid :: rest).take (limit - moved) = tid :: rest.take (limit - (moved + 1)) := by
        rw [show limit - moved = limit - (moved + 1) + 1 by omega, List.take_succ_cons]
      rw [moveFutexWaiters, htask]
      simp only [hstate, if_true]
      rw [htake]
      by_cases hfull : moved + 1 = limit
      · subst hfull
        simpa using hfirst
      · rw [if_neg hfull]
        have hparked' : ∀ j ∈ rest, (k.setTaskState tid state).stateOf j = some (.waitingForFutex source) := by
          intro j hj
          rw [hfirst, if_neg (by rintro rfl; exact hnew hj), hparked j (List.mem_cons_of_mem _ hj)]
        obtain ⟨hcount, hstates⟩ := ih hrest (moved + 1) (by omega) _ hparked'
        refine ⟨by rw [hcount, List.length_cons]; omega, fun j => ?_⟩
        rw [hstates, hfirst]
        by_cases hj : j = tid <;> simp [hj]

def waiters (k : GuestKernel) (key : FutexWaitKey) : List GuestTid := (k.futexQueue key).toList

theorem mem_waiters (hk : Consistent k) {key : FutexWaitKey} {tid : GuestTid} :
    tid ∈ k.waiters key ↔ k.stateOf tid = some (.waitingForFutex key) := by
  rw [waiters, SortedSet.mem_toList, hk.indexes.futexWait, stateOf, Option.map_eq_some_iff]
  rfl

theorem waiters_nodup (k : GuestKernel) (key : FutexWaitKey) : (k.waiters key).Nodup :=
  SortedSet.toList_nodup _

theorem wakeFutexWaiters_spec (hk : Consistent k) (key : FutexWaitKey) (limit : Nat) :
    (k.wakeFutexWaiters key limit).1 = ((k.waiters key).take limit).length ∧
      ∀ j, (k.wakeFutexWaiters key limit).2.stateOf j =
        if j ∈ (k.waiters key).take limit then some .runnable else k.stateOf j := by
  unfold wakeFutexWaiters
  by_cases hlimit : limit = 0
  · simp [hlimit]
  · rw [if_neg hlimit]
    have hspec := moveFutexWaiters_spec .runnable (k.waiters key) (k.waiters_nodup key) 0
      (Nat.pos_of_ne_zero hlimit) k fun tid hmem => (mem_waiters hk).mp hmem
    simp only [Nat.sub_zero, Nat.zero_add] at hspec
    exact hspec

theorem consistent_wakeFutexWaiters (hk : Consistent k) (key : FutexWaitKey) (limit : Nat) :
    Consistent (k.wakeFutexWaiters key limit).2 := by
  have hquiet : Quiet .wakes k (k.wakeFutexWaiters key limit).2 := wakeFutexWaiters_quiet k key limit
  exact hk.quiet hquiet

/-- Queues are in thread order, so they are known by their members. -/
theorem waiters_eq {key : FutexWaitKey} {tids : List GuestTid} (hsorted : tids.Pairwise (· < ·))
    (h : ∀ tid, tid ∈ k.waiters key ↔ tid ∈ tids) : k.waiters key = tids := by
  have hsorted' : (k.waiters key).Pairwise (· < ·) := SortedSet.toList_sorted _
  refine List.Perm.eq_of_pairwise (fun a b _ _ hab hba => absurd (hab.trans hba) (lt_irrefl a)) hsorted' hsorted ?_
  exact (List.perm_ext_iff_of_nodup (k.waiters_nodup key) (hsorted.imp fun h => h.ne)).mpr h

theorem waiters_wakeFutexWaiters (hk : Consistent k) (key : FutexWaitKey) (limit : Nat) :
    (k.wakeFutexWaiters key limit).2.waiters key = (k.waiters key).drop limit := by
  have hsorted : (k.waiters key).Pairwise (· < ·) := SortedSet.toList_sorted _
  refine waiters_eq (hsorted.sublist (List.drop_sublist limit _)) fun tid => ?_
  rw [mem_waiters (consistent_wakeFutexWaiters hk key limit), (wakeFutexWaiters_spec hk key limit).2]
  have hsplit : tid ∈ k.waiters key ↔ tid ∈ (k.waiters key).take limit ∨ tid ∈ (k.waiters key).drop limit := by
    rw [← List.mem_append, List.take_append_drop]
  by_cases htake : tid ∈ (k.waiters key).take limit
  · have hnot : tid ∉ (k.waiters key).drop limit :=
      (List.disjoint_take_drop (k.waiters_nodup key) le_rfl) htake
    simp [htake, hnot]
  · rw [if_neg htake, ← mem_waiters hk, hsplit]
    exact or_iff_right htake

theorem requeueFutexWaiters_spec (hk : Consistent k) (source target : FutexWaitKey) (wakeLimit requeueLimit : Nat) :
    let woken := (k.waiters source).take wakeLimit
    let moved := if source = target then [] else ((k.waiters source).drop wakeLimit).take requeueLimit
    (k.requeueFutexWaiters source target wakeLimit requeueLimit).1 = woken.length + moved.length ∧
      ∀ j, (k.requeueFutexWaiters source target wakeLimit requeueLimit).2.stateOf j =
        if j ∈ moved then some (.waitingForFutex target) else if j ∈ woken then some .runnable else k.stateOf j := by
  obtain ⟨hcount, hstates⟩ := wakeFutexWaiters_spec hk source wakeLimit
  have hrest := waiters_wakeFutexWaiters hk source wakeLimit
  have hwoken := consistent_wakeFutexWaiters hk source wakeLimit
  unfold requeueFutexWaiters
  generalize k.wakeFutexWaiters source wakeLimit = result at hcount hstates hrest hwoken ⊢
  obtain ⟨woken, k₁⟩ := result
  dsimp only at hcount hstates hrest hwoken ⊢
  subst hcount
  by_cases hsame : source = target
  · simp [hsame, hstates]
  · by_cases hlimit : requeueLimit = 0
    · simp [hlimit, hstates]
    · have hspec := moveFutexWaiters_spec (.waitingForFutex target) (k₁.waiters source)
        (k₁.waiters_nodup source) 0 (Nat.pos_of_ne_zero hlimit) k₁ fun tid hmem => (mem_waiters hwoken).mp hmem
      simp only [Nat.sub_zero, Nat.zero_add] at hspec
      rw [hrest] at hspec
      have hqueue : (k₁.futexQueue source).toList = (k.waiters source).drop wakeLimit := hrest
      simp only [hlimit, hsame, false_or, if_false, hqueue]
      exact ⟨by rw [hspec.1], fun j => by rw [hspec.2, hstates]⟩

/-! ### Leaving the queues -/

variable {scope : Scope}

theorem Edits.ownerOf (h : Edits scope k k') (hk : Consistent k) {tid : GuestTid} {state state' : TaskState}
    (hbefore : k.stateOf tid = some state) (hafter : k'.stateOf tid = some state') : k'.ownerOf tid = k.ownerOf tid := by
  obtain ⟨task, htask, -⟩ := Option.map_eq_some_iff.mp hbefore
  obtain ⟨task', htask', -⟩ := Option.map_eq_some_iff.mp hafter
  rw [GuestKernel.ownerOf, GuestKernel.ownerOf, htask, htask', Option.map_some, Option.map_some,
    h.owner hk htask htask']

theorem Edits.drains (h : Edits scope k k') (hk : Consistent k) (hqueues : ¬scope.queues) {tid : GuestTid}
    {key : FutexWaitKey} (hstate : k'.stateOf tid = some (.waitingForFutex key)) :
    k.stateOf tid = some (.waitingForFutex key) ∧ k'.ownerOf tid = k.ownerOf tid := by
  have hbefore : k.stateOf tid = some (.waitingForFutex key) := by
    refine h.preserves (P := fun k' => k'.stateOf tid = some (.waitingForFutex key) →
      k.stateOf tid = some (.waitingForFutex key)) (fun hedit ih hstate => ?_) id hstate
    cases hedit.becomes hstate with
    | kept hold => exact ih hold
    | requeued _ hscope => exact absurd hscope hqueues
    | parked _ _ _ hscope _ => exact absurd (hscope rfl) hqueues
  exact ⟨hbefore, h.ownerOf hk hbefore hstate⟩

end Mcr.Task.GuestKernel
