import Mcr.Net.Buffered

/-!
# Readiness of what the handles buffer

A connection or bytes that a completion port has already brought will not be signalled again, so a poll
has to find them in the handle or in the readiness the table remembers. `TableReady` is the invariant
that couples the two: a buffered connection is remembered as readable, buffered bytes belong to a handle
that polls its own buffers, and everything remembered belongs to an open socket. The calls keep it as
long as three things do not happen; each of them is a condition on the state before a call.
-/

namespace Mcr.Net

variable {σ ω : Type}

/-! ### The remembered readiness -/

namespace SocketReadinessCache

variable {cache : SocketReadinessCache} {token token' : SocketReadinessToken}

def remembered (cache : SocketReadinessCache) (token : SocketReadinessToken) : SocketEvents :=
  (cache.get? token).getD .none

def applyAll (cache : SocketReadinessCache) (token : SocketReadinessToken)
    (completions : List HostSocketCompletion) : SocketReadinessCache :=
  completions.foldl (fun cache c => cache.applyCompletion token c) cache

theorem applyAll_other (completions : List HostSocketCompletion) (hne : token' ≠ token) :
    ∀ cache : SocketReadinessCache, (cache.applyAll token completions).get? token' = cache.get? token' := by
  induction completions with
  | nil => exact fun _ => rfl
  | cons c rest ih =>
      intro cache
      rw [applyAll, List.foldl_cons]
      refine (ih _).trans ?_
      unfold applyCompletion
      split
      · rfl
      · rw [SortedMap.get?_insert, if_neg hne]

theorem applyCompletion_readable {c : HostSocketCompletion} (h : (cache.remembered token).readable = true) :
    ((cache.applyCompletion token c).remembered token).readable = true := by
  unfold applyCompletion
  split
  · exact h
  · rw [remembered, SortedMap.get?_insert, if_pos rfl]
    show ((cache.remembered token).readable || _) = true
    rw [h, Bool.true_or]

theorem applyAll_readable (completions : List HostSocketCompletion) :
    ∀ cache : SocketReadinessCache, (cache.remembered token).readable = true →
      ((cache.applyAll token completions).remembered token).readable = true := by
  induction completions with
  | nil => exact fun _ h => h
  | cons c rest ih => exact fun cache h => ih _ (applyCompletion_readable h)

theorem applyAll_accept {completions : List HostSocketCompletion}
    (htoken : ∀ c ∈ completions, c.token = token) (hmem : .accept ∈ completions.map (·.kind)) :
    ∀ cache : SocketReadinessCache, ((cache.applyAll token completions).remembered token).readable = true := by
  induction completions with
  | nil => exact absurd hmem (by simp)
  | cons c rest ih =>
      intro cache
      rw [List.map_cons, List.mem_cons] at hmem
      rw [applyAll, List.foldl_cons]
      rcases hmem with hkind | hmem
      · refine applyAll_readable rest _ ?_
        rw [applyCompletion, if_neg (not_not.mpr (htoken c List.mem_cons_self)), remembered,
          SortedMap.get?_insert, if_pos rfl, ← hkind]
        show (_ || true) = true
        rw [Bool.or_true]
      · exact ih (fun c hc => htoken c (List.mem_cons_of_mem _ hc)) hmem _

theorem clearSocket_other {id : SocketId} (hne : token.socket ≠ id) :
    (cache.clearSocket id).get? token = cache.get? token := by
  rw [clearSocket, SortedMap.get?_filter]
  cases cache.get? token with
  | none => rfl
  | some events => simp [hne]

theorem clearSocket_eq_some {id : SocketId} {events : SocketEvents}
    (h : (cache.clearSocket id).get? token = some events) :
    token.socket ≠ id ∧ cache.get? token = some events := by
  obtain ⟨hget, hkeep⟩ := SortedMap.get?_filter_eq_some.mp h
  exact ⟨by simpa using hkeep, hget⟩

theorem readiness_readable {interest : SocketEvents} (h : (cache.remembered token).readable = true)
    (hinterest : interest.readable = true) :
    ∃ r, cache.readiness token interest = some r ∧ r.readable = true := by
  unfold remembered at h
  cases hget : cache.get? token with
  | none =>
      rw [hget] at h
      nomatch h
  | some events =>
      rw [hget] at h
      have hr : (events.forInterest interest).readable = true := by
        rw [SocketEvents.forInterest, show events.readable = true from h, hinterest]
        rfl
      refine ⟨events.forInterest interest, ?_, hr⟩
      rw [readiness, hget, Option.map_some, Option.filter_some,
        if_pos (by rw [SocketEvents.not_isEmpty_of_readable hr]; rfl)]

end SocketReadinessCache

/-! ### The invariant -/

/-- A handle against its guest socket and the readiness remembered for it. -/
structure HandleReady (socket : GuestSocket) (events : SocketEvents) (handle : WinHostSocketHandle σ) :
    Prop where
  accepted : handle.acceptedFastPath.isSome → events.readable = true
  listening : handle.acceptedFastPath.isSome ∨ handle.pendingAccept.isSome →
    ∃ address, socket.state = .listening address
  receiving : handle.hasRecvReadiness ∨ handle.pendingRecv.isSome → handle.canUseIocpRecv = true
  exclusive : handle.Exclusive

structure EntryReady (table : GuestSocketTable σ) (id : SocketId) (entry : HostSocketEntry σ) : Prop where
  token : entry.readinessToken.socket = id
  socket : ∃ socket, table.sockets.get? id = some socket ∧ socket.state ≠ .closed ∧
    socket.domain ≠ .unix ∧
    HandleReady socket (table.readinessCache.remembered entry.readinessToken) entry.handle

structure TableReady (table : GuestSocketTable σ) : Prop where
  unused : table.nextId ≠ 0 → ∀ id, table.nextId ≤ id → table.sockets.get? id = none
  entry : ∀ id entry, table.hostHandles.get? id = some entry → EntryReady table id entry
  cache : ∀ token events, table.readinessCache.get? token = some events →
    ∃ entry, table.hostHandles.get? token.socket = some entry ∧ entry.readinessToken = token

/-- What the handles of `t` buffer is still buffered in `t'`. -/
def Holds (t t' : GuestSocketTable σ) : Prop :=
  ∀ id entry, t.hostHandles.get? id = some entry → ∃ entry', t'.hostHandles.get? id = some entry' ∧
    (entry.handle.acceptedFastPath.isSome → entry'.handle.acceptedFastPath.isSome) ∧
    (entry.handle.hasRecvReadiness → entry'.handle.hasRecvReadiness)

theorem Holds.refl (t : GuestSocketTable σ) : Holds t t := fun _ entry h => ⟨entry, h, id, id⟩

theorem Holds.trans {t t' t'' : GuestSocketTable σ} (hfirst : Holds t t') (hsecond : Holds t' t'') :
    Holds t t'' := by
  intro id entry h
  obtain ⟨entry', h', haccepted, hrecv⟩ := hfirst id entry h
  obtain ⟨entry'', h'', haccepted', hrecv'⟩ := hsecond id entry' h'
  exact ⟨entry'', h'', haccepted' ∘ haccepted, hrecv' ∘ hrecv⟩

namespace TableReady

variable {table : GuestSocketTable σ} {id : SocketId} {entry : HostSocketEntry σ}

theorem put (h : TableReady table) (hentry : table.hostHandles.get? id = some entry)
    {handle : WinHostSocketHandle σ} {cache : SocketReadinessCache}
    (hother : ∀ token, token ≠ entry.readinessToken → cache.get? token = table.readinessCache.get? token)
    (hready : ∀ socket, table.sockets.get? id = some socket →
      HandleReady socket (table.readinessCache.remembered entry.readinessToken) entry.handle →
      HandleReady socket (cache.remembered entry.readinessToken) handle) :
    TableReady { table with
      hostHandles := table.hostHandles.insert id { entry with handle := handle }
      readinessCache := cache } := by
  have hentryReady := h.entry id entry hentry
  refine ⟨h.unused, fun id' entry' hget => ?_, fun token events hget => ?_⟩
  · rw [SortedMap.get?_insert] at hget
    split at hget
    · rename_i hid
      cases hget
      subst hid
      obtain ⟨socket, hsocket, hopen, hdomain, hold⟩ := hentryReady.socket
      exact ⟨hentryReady.token, socket, hsocket, hopen, hdomain, hready socket hsocket hold⟩
    · rename_i hid
      have hentry' := h.entry id' entry' hget
      obtain ⟨socket, hsocket, hopen, hdomain, hold⟩ := hentry'.socket
      refine ⟨hentry'.token, socket, hsocket, hopen, hdomain, ?_⟩
      have hne : entry'.readinessToken ≠ entry.readinessToken := by
        intro heq
        apply hid
        rw [← hentry'.token, heq, hentryReady.token]
      show HandleReady socket ((cache.get? _).getD _) _
      rw [hother _ hne]
      exact hold
  · by_cases htoken : token = entry.readinessToken
    · subst htoken
      refine ⟨{ entry with handle := handle }, ?_, rfl⟩
      rw [SortedMap.get?_insert, if_pos hentryReady.token]
    · rw [hother token htoken] at hget
      obtain ⟨entry', hget', heq⟩ := h.cache token events hget
      by_cases hid : token.socket = id
      · rw [hid, hentry] at hget'
        cases hget'
        exact absurd heq.symm htoken
      · exact ⟨entry', by rw [SortedMap.get?_insert, if_neg hid]; exact hget', heq⟩

theorem putSocket (h : TableReady table) {old socket : GuestSocket}
    (hold : table.sockets.get? id = some old) (hopen : old.state ≠ .closed → socket.state ≠ .closed)
    (hdomain : socket.domain = old.domain)
    (hlistening : (∃ a, old.state = .listening a) → ∃ a, socket.state = .listening a) :
    TableReady (table.putSocket id socket) := by
  refine ⟨fun hne id' hid' => ?_, fun id' entry' hget => ?_, h.cache⟩
  · have hnone := h.unused hne id' hid'
    show (table.sockets.insert id socket).get? id' = none
    rw [SortedMap.get?_insert, if_neg]
    · exact hnone
    · intro heq
      rw [heq, hold] at hnone
      nomatch hnone
  · have hentry := h.entry id' entry' hget
    obtain ⟨socket', hsocket', hopen', hdomain', hready⟩ := hentry.socket
    refine ⟨hentry.token, ?_⟩
    by_cases hid : id' = id
    · subst hid
      rw [hold] at hsocket'
      cases hsocket'
      refine ⟨socket, by rw [GuestSocketTable.putSocket, SortedMap.get?_insert, if_pos rfl], hopen hopen',
        hdomain ▸ hdomain', hready.accepted, hlistening ∘ hready.listening, hready.receiving, hready.exclusive⟩
    · exact ⟨socket', by rw [GuestSocketTable.putSocket, SortedMap.get?_insert, if_neg hid]; exact hsocket',
        hopen', hdomain', hready⟩

/-- The remembered readiness of a socket without a buffered connection may be forgotten. -/
theorem clear (h : TableReady table)
    (hnone : ∀ entry, table.hostHandles.get? id = some entry → entry.handle.acceptedFastPath = none) :
    TableReady { table with readinessCache := table.readinessCache.clearSocket id } := by
  refine ⟨h.unused, fun id' entry' hget => ?_, fun token events hget => ?_⟩
  · have hentry := h.entry id' entry' hget
    obtain ⟨socket, hsocket, hopen, hdomain, hready⟩ := hentry.socket
    refine ⟨hentry.token, socket, hsocket, hopen, hdomain, ?_, hready.listening, hready.receiving,
      hready.exclusive⟩
    intro haccepted
    by_cases hid : id' = id
    · subst hid
      rw [hnone entry' hget] at haccepted
      nomatch haccepted
    · show (((table.readinessCache.clearSocket id).get? _).getD _).readable = true
      rw [SocketReadinessCache.clearSocket_other (by rw [hentry.token]; exact hid)]
      exact hready.accepted haccepted
  · exact h.cache token events (SocketReadinessCache.clearSocket_eq_some hget).2

theorem handleReady_fresh (socket : GuestSocket) (events : SocketEvents) (raw : σ) (spec : SocketSpec)
    (port : Bool) : HandleReady socket events (.fresh raw spec port) := by
  refine ⟨fun h => (nomatch h), fun h => ?_, fun h => ?_, fun h => (nomatch h)⟩
  · rcases h with h | h <;> nomatch h
  · rcases h with h | h <;> nomatch h

theorem addHandle (h : TableReady table) {socket : GuestSocket} {raw : σ} {spec : SocketSpec} {port : Bool}
    {generation : Nat} (hnone : table.hostHandles.get? id = none)
    (hsocket : table.sockets.get? id = some socket) (hopen : socket.state ≠ .closed)
    (hdomain : socket.domain ≠ .unix) :
    TableReady { table.bumpGeneration with
      hostHandles := table.hostHandles.insert id ⟨.fresh raw spec port, .new id generation⟩ } := by
  refine ⟨h.unused, fun id' entry' hget => ?_, fun token events hget => ?_⟩
  · rw [SortedMap.get?_insert] at hget
    split at hget
    · rename_i hid
      cases hget
      subst hid
      exact ⟨rfl, socket, hsocket, hopen, hdomain, handleReady_fresh _ _ _ _ _⟩
    · obtain ⟨htoken, hrest⟩ := h.entry id' entry' hget
      exact ⟨htoken, hrest⟩
  · obtain ⟨entry', hget', heq⟩ := h.cache token events hget
    have hid : token.socket ≠ id := by
      intro hid
      rw [hid, hnone] at hget'
      nomatch hget'
    exact ⟨entry', by rw [SortedMap.get?_insert, if_neg hid]; exact hget', heq⟩

theorem erase (h : TableReady table) {socket : GuestSocket} (hsocket : (table.sockets.get? id).isSome) :
    TableReady { table with
      sockets := table.sockets.insert id socket
      hostHandles := table.hostHandles.erase id
      readinessCache := table.readinessCache.clearSocket id } := by
  refine ⟨fun hne id' hid' => ?_, fun id' entry' hget => ?_, fun token events hget => ?_⟩
  · have hnone := h.unused hne id' hid'
    show (table.sockets.insert id socket).get? id' = none
    rw [SortedMap.get?_insert, if_neg]
    · exact hnone
    · intro heq
      rw [heq] at hnone
      rw [hnone] at hsocket
      nomatch hsocket
  · rw [SortedMap.get?_erase] at hget
    split at hget
    · nomatch hget
    · rename_i hid
      have hentry := h.entry id' entry' hget
      obtain ⟨socket', hsocket', hopen, hdomain, hready⟩ := hentry.socket
      refine ⟨hentry.token, socket', ?_, hopen, hdomain, ?_, hready.listening, hready.receiving, hready.exclusive⟩
      · show (table.sockets.insert id socket).get? id' = some socket'
        rw [SortedMap.get?_insert, if_neg hid]
        exact hsocket'
      · intro haccepted
        show (((table.readinessCache.clearSocket id).get? _).getD _).readable = true
        rw [SocketReadinessCache.clearSocket_other (by rw [hentry.token]; exact hid)]
        exact hready.accepted haccepted
  · obtain ⟨hid, hget'⟩ := SocketReadinessCache.clearSocket_eq_some hget
    obtain ⟨entry', hentry', heq⟩ := h.cache token events hget'
    exact ⟨entry', by rw [SortedMap.get?_erase, if_neg hid]; exact hentry', heq⟩

end TableReady

end Mcr.Net
