import Mcr.Net.Readiness

/-!
# Polls report what is buffered

The calls of the table keep `TableReady`, and a poll that asks for readable reports every socket whose
handle buffers a connection, bytes or an end of file. The last part compares `poll` with `poll_many`.
-/

namespace Mcr.Net

variable {σ ω : Type} {host : HostNet σ ω} {s : NetState σ ω} {id : SocketId}

/-- What every step of a poll leaves behind, whether it returns or stops. -/
structure PollKept (s s' : NetState σ ω) : Prop where
  ready : TableReady s'.table
  holds : Holds s.table s'.table

theorem PollKept.refl (h : TableReady s.table) : PollKept s s := ⟨h, .refl _⟩

theorem PollKept.trans {s' s'' : NetState σ ω} (hfirst : PollKept s s') (hsecond : PollKept s' s'') :
    PollKept s s'' :=
  ⟨hsecond.ready, hfirst.holds.trans hsecond.holds⟩

theorem Holds.put {table : GuestSocketTable σ} {entry : HostSocketEntry σ} {handle : WinHostSocketHandle σ}
    {cache : SocketReadinessCache} (hentry : table.hostHandles.get? id = some entry)
    (haccepted : entry.handle.acceptedFastPath.isSome → handle.acceptedFastPath.isSome)
    (hrecv : entry.handle.hasRecvReadiness → handle.hasRecvReadiness) :
    Holds table { table with
      hostHandles := table.hostHandles.insert id { entry with handle := handle }
      readinessCache := cache } := by
  intro id' entry' hget
  by_cases hid : id' = id
  · subst hid
    rw [hentry] at hget
    cases hget
    exact ⟨{ entry with handle := handle }, by rw [SortedMap.get?_insert, if_pos rfl], haccepted, hrecv⟩
  · exact ⟨entry', by rw [SortedMap.get?_insert, if_neg hid]; exact hget, fun h => h, fun h => h⟩

/-! ### Finishing a connect -/

/-- The buffers of a handle are as they were, and receives go the way they went. -/
structure SameBuffers (h h' : WinHostSocketHandle σ) : Prop where
  port : h'.canUseIocpRecv = h.canUseIocpRecv
  accepted : h'.acceptedFastPath = h.acceptedFastPath
  accepting : h'.pendingAccept = h.pendingAccept
  ready : h'.hasRecvReadiness = h.hasRecvReadiness
  receiving : h'.pendingRecv = h.pendingRecv

theorem SameBuffers.refl (h : WinHostSocketHandle σ) : SameBuffers h h := ⟨rfl, rfl, rfl, rfl, rfl⟩

theorem SameBuffers.trans {h h' h'' : WinHostSocketHandle σ} (hfirst : SameBuffers h h')
    (hsecond : SameBuffers h' h'') : SameBuffers h h'' :=
  ⟨hsecond.port.trans hfirst.port, hsecond.accepted.trans hfirst.accepted,
    hsecond.accepting.trans hfirst.accepting, hsecond.ready.trans hfirst.ready,
    hsecond.receiving.trans hfirst.receiving⟩

/-- The method leaves the buffers alone, whether it returns or stops. -/
def KeepsBuffers {α : Type} (method : HandleProg σ ω α) : Prop :=
  ∀ t, method.wp (fun _ t' => SameBuffers t.handle t'.handle) (fun _ t' => SameBuffers t.handle t'.handle) t

namespace KeepsBuffers

variable {α β : Type}

theorem pure (a : α) : KeepsBuffers (pure a : HandleProg σ ω α) := by
  intro t
  rw [Prog.wp_pure]
  exact .refl _

theorem bind {m : HandleProg σ ω α} {f : α → HandleProg σ ω β} (hm : KeepsBuffers m)
    (hf : ∀ a, KeepsBuffers (f a)) : KeepsBuffers (m >>= f) := by
  intro t
  rw [Prog.wp_bind]
  refine Prog.wp_mono (hm t) (fun a t' h => ?_) fun _ _ h => h
  exact Prog.wp_mono (hf a t') (fun _ _ h' => h.trans h') fun _ _ h' => h.trans h'

theorem tryCatch {m : HandleProg σ ω α} {handler : HostIoError → HandleProg σ ω α} (hm : KeepsBuffers m)
    (hhandler : ∀ e, KeepsBuffers (handler e)) : KeepsBuffers (.tryCatch m handler) := by
  intro t
  rw [Prog.wp_tryCatch]
  refine Prog.wp_mono (hm t) (fun _ _ h => h) fun e t' h => ?_
  exact Prog.wp_mono (hhandler e t') (fun _ _ h' => h.trans h') fun _ _ h' => h.trans h'

theorem ite {c : Prop} [Decidable c] {m n : HandleProg σ ω α} (hm : KeepsBuffers m) (hn : KeepsBuffers n) :
    KeepsBuffers (if c then m else n) := by
  split
  · exact hm
  · exact hn

theorem get {f : HandleState σ ω → HandleProg σ ω α} (hf : ∀ t, KeepsBuffers (f t)) :
    KeepsBuffers (Prog.get >>= f) := by
  intro t
  rw [Prog.wp_bind, Prog.wp_get]
  exact hf t t

theorem hostCall (call : Prog ω HostError α) : KeepsBuffers (hostCall call : HandleProg σ ω α) := by
  intro t
  rw [wp_hostCall]
  exact wp_anyCall (fun _ _ => .refl _) fun _ _ => .refl _

theorem setHandle {f : WinHostSocketHandle σ → WinHostSocketHandle σ} (h : ∀ handle, SameBuffers handle (f handle)) :
    KeepsBuffers (setHandle f : HandleProg σ ω Unit) := by
  intro t
  rw [wp_setHandle]
  exact h _

end KeepsBuffers

theorem HandleReady.same {socket : GuestSocket} {events : SocketEvents} {h h' : WinHostSocketHandle σ}
    (hready : HandleReady socket events h) (hsame : SameBuffers h h') : HandleReady socket events h' := by
  refine ⟨?_, ?_, ?_, ?_⟩
  · rw [hsame.accepted]
    exact hready.accepted
  · rw [hsame.accepted, hsame.accepting]
    exact hready.listening
  · rw [hsame.ready, hsame.receiving, hsame.port]
    exact hready.receiving
  · rw [WinHostSocketHandle.Exclusive, hsame.receiving, hsame.ready]
    exact hready.exclusive

theorem PollKept.put {entry : HostSocketEntry σ} {t : HandleState σ ω} (h : TableReady s.table)
    (hentry : s.table.hostHandles.get? id = some entry) (hsame : SameBuffers entry.handle t.handle) :
    PollKept s (s.putHandle id entry t) := by
  refine ⟨h.put hentry (fun _ _ => rfl) fun socket _ hready => hready.same hsame, Holds.put hentry ?_ ?_⟩
  · rw [hsame.accepted]
    exact fun h => h
  · rw [hsame.ready]
    exact fun h => h

theorem withHandle_kept {α : Type} {operation : SocketOperation} {method : HandleProg σ ω α}
    (hmethod : KeepsBuffers method) (h : TableReady s.table) :
    (withHandle id operation method).wp
      (fun _ s' => PollKept s s' ∧ s'.table.sockets = s.table.sockets)
      (fun _ s' => PollKept s s' ∧ s'.table.sockets = s.table.sockets) s := by
  refine wp_withHandle (fun _ => ⟨.refl h, rfl⟩) fun entry hentry => ?_
  exact Prog.wp_mono (hmethod _) (fun _ t hsame => ⟨.put h hentry hsame, rfl⟩)
    (fun _ t hsame => ⟨.put h hentry hsame, rfl⟩)

theorem completeConnectFastPath_same :
    KeepsBuffers (completeConnectFastPath : HandleProg σ ω SocketConnectFastPathCompletion) := by
  refine .get fun t => .ite (.bind (.setHandle fun _ => ?_) fun _ => .pure _) (.ite (.pure _) (.ite (.pure _) (.pure _)))
  exact ⟨rfl, rfl, rfl, rfl, rfl⟩

theorem handleTakeError_same : KeepsBuffers (handleTakeError host) := by
  refine .get fun t => .ite (.bind (.setHandle fun _ => ?_) fun _ => .pure _) (.bind (.hostCall _) fun _ => .pure _)
  exact ⟨rfl, rfl, rfl, rfl, rfl⟩

theorem handleLocalAddr_same : KeepsBuffers (handleLocalAddr host) := .get fun _ => .hostCall _

theorem handlePeerAddr_same : KeepsBuffers (handlePeerAddr host) := .get fun _ => .hostCall _

theorem updateConnecting_kept {f : GuestSocket → GuestSocket} {socket : GuestSocket}
    {address : SocketAddress} (h : TableReady s.table) (hsocket : s.table.sockets.get? id = some socket)
    (hconnecting : socket.state = .connecting address)
    (hopen : (f socket).state ≠ .closed) (hdomain : (f socket).domain = socket.domain) :
    (updateSocket id f).wp (fun _ s' => PollKept s s') (fun _ s' => PollKept s s') s := by
  refine wp_updateSocket (fun socket' hsocket' => ?_) (fun _ => .refl h)
  rw [hsocket] at hsocket'
  cases hsocket'
  refine ⟨h.putSocket hsocket (fun _ => hopen) hdomain fun ⟨_, hlistening⟩ => ?_,
    fun id' entry hget => ⟨entry, hget, fun h => h, fun h => h⟩⟩
  rw [hconnecting] at hlistening
  nomatch hlistening

theorem finishNonblockingConnect_kept (h : TableReady s.table) :
    (finishNonblockingConnect host id).wp (fun _ s' => PollKept s s') (fun _ s' => PollKept s s') s := by
  unfold finishNonblockingConnect
  rw [Prog.wp_bind]
  refine wp_getSocket (fun socket hsocket => ?_) (fun _ => .refl h)
  cases hstate : socket.state with
  | connecting address =>
      simp only
      rw [Prog.wp_bind, Prog.wp_get, Prog.wp_ite]
      split
      · rw [Prog.wp_bind]
        refine Prog.wp_mono (withHandle_kept completeConnectFastPath_same h) (fun completion s₁ h₁ => ?_)
          (fun _ _ h₁ => h₁.1)
        obtain ⟨hkept₁, hsockets₁⟩ := h₁
        rw [Prog.wp_ite]
        split
        · rw [Prog.wp_pure]
          exact hkept₁
        rw [Prog.wp_bind]
        refine Prog.wp_mono (withHandle_kept handleTakeError_same hkept₁.ready) (fun error s₂ h₂ => ?_)
          (fun _ _ h₂ => hkept₁.trans h₂.1)
        obtain ⟨hkept₂, hsockets₂⟩ := h₂
        have hsocket₂ : s₂.table.sockets.get? id = some socket := by rw [hsockets₂, hsockets₁]; exact hsocket
        have hkept := hkept₁.trans hkept₂
        cases error with
        | some error =>
            simp only
            rw [Prog.wp_bind]
            refine Prog.wp_mono (updateConnecting_kept hkept.ready hsocket₂ hstate (by exact nofun) rfl)
              (fun _ s₃ h₃ => ?_) (fun _ _ h₃ => hkept.trans h₃)
            rw [Prog.wp_throw]
            exact hkept.trans h₃
        | none =>
            simp only
            rw [Prog.wp_bind]
            refine Prog.wp_mono (withHandle_kept handleLocalAddr_same hkept.ready) (fun localAddress s₃ h₃ => ?_)
              (fun _ _ h₃ => hkept.trans h₃.1)
            obtain ⟨hkept₃, hsockets₃⟩ := h₃
            have hkept' := hkept.trans hkept₃
            rw [Prog.wp_bind]
            refine Prog.wp_mono (withHandle_kept handlePeerAddr_same hkept'.ready) (fun peer s₄ h₄ => ?_)
              (fun _ _ h₄ => hkept'.trans h₄.1)
            obtain ⟨hkept₄, hsockets₄⟩ := h₄
            have hsocket₄ : s₄.table.sockets.get? id = some socket := by
              rw [hsockets₄, hsockets₃]
              exact hsocket₂
            have hkept'' := hkept'.trans hkept₄
            exact Prog.wp_mono (updateConnecting_kept hkept''.ready hsocket₄ hstate (by exact nofun) rfl)
              (fun _ _ h₅ => hkept''.trans h₅) (fun _ _ h₅ => hkept''.trans h₅)
      · exact updateConnecting_kept h hsocket hstate (by exact nofun) rfl
  | created => simp only; rw [Prog.wp_pure]; exact .refl h
  | bound address => simp only; rw [Prog.wp_pure]; exact .refl h
  | listening address => simp only; rw [Prog.wp_pure]; exact .refl h
  | connected localAddress peer => simp only; rw [Prog.wp_pure]; exact .refl h
  | closed => simp only; rw [Prog.wp_pure]; exact .refl h

theorem finishPolledReadiness_kept {readiness : SocketEvents} (h : TableReady s.table) :
    (finishPolledReadiness host id readiness).wp (fun _ s' => PollKept s s') (fun _ s' => PollKept s s') s := by
  unfold finishPolledReadiness
  rw [Prog.wp_ite]
  split
  · rw [Prog.wp_bind]
    refine wp_getSocket (fun socket _ => ?_) (fun _ => .refl h)
    rw [Prog.wp_when]
    split
    · exact finishNonblockingConnect_kept h
    · exact .refl h
  · rw [Prog.wp_pure]
    exact .refl h

/-- A handle that is opened here is fresh, so it buffers nothing. -/
theorem ensureHostEntry_kept (host : HostNet σ ω) (id : SocketId) (operation : SocketOperation)
    (h : TableReady s.table)
    (hopen : ∀ socket, s.table.sockets.get? id = some socket → socket.state ≠ .closed) :
    (ensureHostEntry host id operation).wp
      (fun _ s' => PollKept s s' ∧ s'.table.sockets = s.table.sockets ∧
        (∃ entry, s'.table.hostHandles.get? id = some entry) ∧
        (∀ entry, s.table.hostHandles.get? id = some entry → s' = s) ∧
        (s.table.hostHandles.get? id = none → ∀ entry, s'.table.hostHandles.get? id = some entry →
          ∃ raw spec port, entry.handle = .fresh raw spec port))
      (fun _ s' => PollKept s s' ∧ s'.table.sockets = s.table.sockets) s := by
  refine wp_ensureHostEntry (fun entry hentry => ?_) (fun socket raw port w hnone hsocket hdomain => ?_)
    (fun _ _ => ⟨⟨h, .refl _⟩, rfl⟩)
  · refine ⟨.refl h, rfl, ⟨entry, hentry⟩, fun _ _ => rfl, fun hnone => ?_⟩
    rw [hentry] at hnone
    nomatch hnone
  · refine ⟨⟨h.addHandle hnone hsocket (hopen socket hsocket) hdomain, fun id' entry hget => ?_⟩, rfl,
      ⟨_, by rw [SortedMap.get?_insert, if_pos rfl]⟩, fun entry hget => ?_, fun _ entry hget => ?_⟩
    · refine ⟨entry, ?_, fun h => h, fun h => h⟩
      rw [SortedMap.get?_insert, if_neg]
      · exact hget
      · intro hid
        rw [hid, hnone] at hget
        nomatch hget
    · rw [hnone] at hget
      nomatch hget
    · rw [SortedMap.get?_insert, if_pos rfl] at hget
      cases hget
      exact ⟨raw, _, port, rfl⟩

/-! ### Polling one socket -/

/-- The handle of the socket buffers a connection, bytes or an end of file, and readable is asked for. -/
def Wanted (table : GuestSocketTable σ) (request : SocketId × SocketEvents) : Prop :=
  request.2.readable = true ∧ ∃ entry, table.hostHandles.get? request.1 = some entry ∧
    (entry.handle.acceptedFastPath.isSome ∨ entry.handle.hasRecvReadiness)

theorem Wanted.holds {t t' : GuestSocketTable σ} {request : SocketId × SocketEvents}
    (h : Wanted t request) (hholds : Holds t t') : Wanted t' request := by
  obtain ⟨hreadable, entry, hentry, hbuffered⟩ := h
  obtain ⟨entry', hentry', haccepted, hrecv⟩ := hholds _ entry hentry
  exact ⟨hreadable, entry', hentry', hbuffered.imp haccepted hrecv⟩

/-- The two ways in which a poll can lose what a handle buffers: bytes hidden behind other remembered
events that answer the poll, and a drain that fails after it has completed an accept. -/
structure PollSpared (host : HostNet σ ω) (s : NetState σ ω) (request : SocketId × SocketEvents) : Prop where
  bytes : ∀ entry, s.table.hostHandles.get? request.1 = some entry → entry.handle.hasRecvReadiness →
    request.2.readable = true → entry.handle.pendingConnect = none ∧
      ∀ r, s.table.readinessCache.readiness entry.readinessToken request.2 = some r → r.readable = true
  drain : ∀ entry, s.table.hostHandles.get? request.1 = some entry → ∀ error t,
    drainReadinessCompletions host entry.readinessToken ⟨entry.handle, s.host⟩ = (.error error, t) →
    t.handle.acceptedFastPath.isSome → entry.handle.acceptedFastPath.isSome

theorem HandleReady.took {socket : GuestSocket} {cache : SocketReadinessCache}
    {token : SocketReadinessToken} {h h' : WinHostSocketHandle σ} {completions : List HostSocketCompletion}
    (hready : HandleReady socket (cache.remembered token) h)
    (htoken : ∀ c ∈ completions, c.token = token) (htook : Took h h' (completions.map (·.kind))) :
    HandleReady socket ((cache.applyAll token completions).remembered token) h' := by
  refine ⟨fun haccepted => ?_, fun hlistening => ?_, fun hreceiving => ?_, htook.exclusive hready.exclusive⟩
  · rcases htook.accepted haccepted with hold | ⟨_, hmem⟩
    · exact SocketReadinessCache.applyAll_readable _ _ (hready.accepted hold)
    · exact SocketReadinessCache.applyAll_accept htoken hmem _
  · apply hready.listening
    rcases hlistening with haccepted | haccepting
    · exact (htook.accepted haccepted).imp_right And.left
    · exact Or.inr (htook.accepting haccepting)
  · rw [WinHostSocketHandle.canUseIocpRecv_of_setup htook.setup]
    apply hready.receiving
    rcases hreceiving with hrecv | hpending
    · exact htook.received hrecv
    · exact Or.inr (htook.receiving hpending)

theorem HandleReady.lost {socket : GuestSocket} {events : SocketEvents} {h h' : WinHostSocketHandle σ}
    {kinds : List SocketCompletionKind} (hready : HandleReady socket events h) (htook : Took h h' kinds)
    (haccepted : h'.acceptedFastPath.isSome → h.acceptedFastPath.isSome) : HandleReady socket events h' := by
  refine ⟨hready.accepted ∘ haccepted, fun hlistening => ?_, fun hreceiving => ?_,
    htook.exclusive hready.exclusive⟩
  · apply hready.listening
    exact hlistening.imp haccepted htook.accepting
  · rw [WinHostSocketHandle.canUseIocpRecv_of_setup htook.setup]
    apply hready.receiving
    rcases hreceiving with hrecv | hpending
    · exact htook.received hrecv
    · exact Or.inr (htook.receiving hpending)

theorem HandleReady.polled {socket : GuestSocket} {events : SocketEvents} {h h' : WinHostSocketHandle σ}
    (hready : HandleReady socket events h) (hpolled : Polled h h') : HandleReady socket events h' := by
  refine ⟨?_, fun hlistening => ?_, fun hreceiving => ?_, hpolled.exclusive hready.exclusive⟩
  · rw [hpolled.accepted]
    exact hready.accepted
  · rw [hpolled.accepted] at hlistening
    exact hready.listening (hlistening.imp_right hpolled.accepting)
  · rw [WinHostSocketHandle.canUseIocpRecv_of_setup hpolled.setup]
    rcases hpolled.received hreceiving with h1 | h1 | h1
    · exact hready.receiving (Or.inl h1)
    · exact hready.receiving (Or.inr h1)
    · exact h1

/-- What `cached_poll_readiness` answers for a socket whose handle buffers something: readable, or
nothing, and then the handle still holds the bytes it will report itself. -/
structure CachedReports (s s' : NetState σ ω) (request : SocketId × SocketEvents)
    (cached : Option SocketEvents) : Prop where
  kept : PollKept s s'
  entry : ∃ entry, s'.table.hostHandles.get? request.1 = some entry
  answered : Wanted s.table request → ∀ r, cached = some r → r.readable = true
  passed : Wanted s.table request → cached = none →
    ∃ entry, s'.table.hostHandles.get? request.1 = some entry ∧ entry.handle.hasRecvReadiness

theorem wp_cachedAnswer (answer : Option SocketEvents) {Q : Option SocketEvents → NetState σ ω → Prop}
    {E : SocketError → NetState σ ω → Prop} (hnone : answer = none → Q none s)
    (hsome : ∀ readiness, answer = some readiness →
      (finishPolledReadiness host id readiness).wp (fun _ => Q (some readiness)) E s) :
    Prog.wp (match answer with
      | none => pure none
      | some readiness => do
        finishPolledReadiness host id readiness
        pure (some readiness)) Q E s := by
  cases answer with
  | none => exact (Prog.wp_pure _).mpr (hnone rfl)
  | some readiness =>
      rw [Prog.wp_bind]
      refine Prog.wp_mono (hsome readiness rfl) (fun _ s' h => ?_) (fun _ _ h => h)
      exact (Prog.wp_pure _).mpr h

/-- What the handle buffers is in the cached answer, or it is left for the handle to tell. -/
theorem cachedPollReadiness_reports {interest : SocketEvents} (h : TableReady s.table)
    (hspared : PollSpared host s (id, interest)) :
    (cachedPollReadiness host id interest).wp
      (fun cached s' => CachedReports s s' (id, interest) cached) (fun _ s' => PollKept s s') s := by
  unfold cachedPollReadiness
  rw [Prog.wp_bind]
  refine wp_requireOpen (fun socket hsocket hopen => ?_) (.refl h)
  rw [Prog.wp_bind]
  have hensured := ensureHostEntry_kept host id .poll h
    fun socket' hsocket' => by rw [hsocket] at hsocket'; cases hsocket'; exact hopen
  refine Prog.wp_mono hensured (fun _ s₁ h₁ => ?_) (fun _ _ h₁ => h₁.1)
  obtain ⟨hkept₁, hsockets₁, ⟨entry, hentry⟩, hsame₁, hfresh₁⟩ := h₁
  rw [Prog.wp_bind, Prog.wp_get]
  simp only [hentry]
  rw [Prog.wp_bind]
  refine wp_withHandle (fun hnone => by rw [hentry] at hnone; cases hnone) fun entry' hentry' => ?_
  rw [hentry] at hentry'
  cases hentry'
  have hdrain := @drainReadinessCompletions_took σ ω host entry.readinessToken ⟨entry.handle, s₁.host⟩
  rw [Prog.wp_iff] at hdrain ⊢
  constructor
  · intro completions t hrun
    obtain ⟨htoken, htook⟩ := hdrain.1 completions t hrun
    rw [Prog.wp_bind, wp_setTable, Prog.wp_bind, Prog.wp_get]
    have hkept : PollKept s ⟨{ s₁.table with
        hostHandles := s₁.table.hostHandles.insert id { entry with handle := t.handle }
        readinessCache := s₁.table.readinessCache.applyAll entry.readinessToken completions }, t.host⟩ := by
      refine hkept₁.trans ⟨hkept₁.ready.put hentry (fun token hne => ?_) fun socket _ hready => ?_,
        Holds.put hentry htook.keeps htook.holds⟩
      · exact SocketReadinessCache.applyAll_other completions hne _
      · exact hready.took htoken htook
    have hget : (s₁.table.hostHandles.insert id { entry with handle := t.handle }).get? id =
        some { entry with handle := t.handle } := by rw [SortedMap.get?_insert, if_pos rfl]
    -- a buffering handle was there before the call, so no handle has been opened
    have hbuffered : Wanted s.table (id, interest) →
        (∃ r, (s₁.table.readinessCache.applyAll entry.readinessToken completions).readiness
          entry.readinessToken interest = some r ∧ r.readable = true) ∨
        ((s₁.table.readinessCache.applyAll entry.readinessToken completions).readiness
          entry.readinessToken interest = none ∧ t.handle.hasRecvReadiness) := by
      rintro ⟨hreadable, entry₀, hentry₀, hbuffered⟩
      obtain rfl := hsame₁ entry₀ hentry₀
      rw [hentry] at hentry₀
      cases hentry₀
      obtain ⟨_, _, _, _, hready⟩ := (h.entry id entry hentry).socket
      rcases hbuffered with haccepted | hrecv
      · exact Or.inl (SocketReadinessCache.readiness_readable
          (SocketReadinessCache.applyAll_readable _ _ (hready.accepted haccepted)) hreadable)
      · obtain ⟨hconnect, hcached⟩ := hspared.bytes entry hentry hrecv hreadable
        have hidle : entry.handle.pendingRecv = none := by
          by_contra hsome
          rw [hready.exclusive (Option.isSome_iff_ne_none.mpr hsome)] at hrecv
          cases hrecv
        by_cases hnil : completions = []
        · subst hnil
          cases hanswer : s₁.table.readinessCache.readiness entry.readinessToken interest with
          | some r => exact Or.inl ⟨r, hanswer, hcached r hanswer⟩
          | none => exact Or.inr ⟨hanswer, htook.holds hrecv⟩
        · exact Or.inl (SocketReadinessCache.readiness_readable
            (SocketReadinessCache.applyAll_accept htoken
              (htook.onlyAccepts hidle hconnect (by simpa using hnil)) _) hreadable)
    refine wp_cachedAnswer ((s₁.table.readinessCache.applyAll entry.readinessToken completions).readiness
      entry.readinessToken interest) (fun hanswer => ?_) fun readiness hanswer => ?_
    · refine ⟨hkept, ⟨_, hget⟩, fun _ r hr => (by cases hr), fun hwanted _ => ?_⟩
      rcases hbuffered hwanted with ⟨r, hr, _⟩ | ⟨_, hrecv⟩
      · rw [hanswer] at hr
        cases hr
      · exact ⟨_, hget, hrecv⟩
    · refine Prog.wp_mono (finishPolledReadiness_kept hkept.ready) (fun _ s₂ h₂ => ?_)
        (fun _ _ h₂ => hkept.trans h₂)
      obtain ⟨entry₂, hentry₂, _⟩ := h₂.holds id _ hget
      refine ⟨hkept.trans h₂, ⟨entry₂, hentry₂⟩, fun hwanted r hr => ?_, fun _ hr => (by cases hr)⟩
      cases hr
      rcases hbuffered hwanted with ⟨r, hr, hreadable⟩ | ⟨hnone, _⟩
      · rw [hanswer] at hr
        cases hr
        exact hreadable
      · rw [hanswer] at hnone
        cases hnone
  · intro error t hrun
    obtain ⟨kinds, htook⟩ := hdrain.2 error t hrun
    have hlost : t.handle.acceptedFastPath.isSome → entry.handle.acceptedFastPath.isSome := by
      intro haccepted
      cases hold : s.table.hostHandles.get? id with
      | some entry₀ =>
          obtain rfl := hsame₁ entry₀ hold
          rw [hentry] at hold
          cases hold
          exact hspared.drain entry hentry error t hrun haccepted
      | none =>
          obtain ⟨raw, spec, port, hfresh⟩ := hfresh₁ hold entry hentry
          rcases htook.accepted haccepted with h1 | ⟨h1, _⟩
          · exact h1
          · rw [hfresh] at h1
            cases h1
    exact hkept₁.trans ⟨hkept₁.ready.put hentry (fun _ _ => rfl) fun socket _ hready => hready.lost htook hlost,
      Holds.put hentry htook.keeps htook.holds⟩

theorem polledHandle_reports {interest : SocketEvents} {timeout : Option Nat} (h : TableReady s.table) :
    (withHandle id .poll (handlePoll host interest timeout)).wp
      (fun events s' => PollKept s s' ∧ (interest.readable = true →
        ∀ entry, s.table.hostHandles.get? id = some entry → entry.handle.hasRecvReadiness →
          events.readable = true))
      (fun _ s' => PollKept s s') s := by
  refine wp_withHandle (fun _ => .refl h) fun entry hentry => ?_
  obtain ⟨_, _, _, _, hready⟩ := (h.entry id entry hentry).socket
  have hput : ∀ t : HandleState σ ω, Polled entry.handle t.handle → PollKept s (s.putHandle id entry t) := by
    intro t hpolled
    refine ⟨h.put hentry (fun _ _ => rfl) fun _ _ hready => hready.polled hpolled, Holds.put hentry ?_ hpolled.holds⟩
    rw [hpolled.accepted]
    exact fun h => h
  refine Prog.wp_mono handlePoll_polled (fun events t ht => ⟨hput t ht.1, fun hreadable entry' hentry' hrecv => ?_⟩)
    (fun _ t ht => hput t ht)
  rw [hentry] at hentry'
  cases hentry'
  exact ht.2 hreadable (hready.receiving (Or.inl hrecv)) hrecv

theorem poll_reports {interest : SocketEvents} {timeout : Option Nat} (h : TableReady s.table)
    (hspared : PollSpared host s (id, interest)) :
    (poll host id interest timeout).wp
      (fun events s' => PollKept s s' ∧ (Wanted s.table (id, interest) → events.readable = true))
      (fun _ s' => PollKept s s') s := by
  unfold poll
  rw [Prog.wp_bind]
  refine wp_requireOpen (fun _ _ _ => ?_) (.refl h)
  rw [Prog.wp_bind]
  refine wp_socketUsesHostTransport (fun socket hsocket => ?_) (fun _ => .refl h)
  rw [Prog.wp_ite]
  split
  · rename_i huses
    rw [Prog.wp_pure]
    refine ⟨.refl h, fun ⟨_, entry, hentry, _⟩ => ?_⟩
    obtain ⟨socket', hsocket', _, hdomain, _⟩ := (h.entry id entry hentry).socket
    rw [hsocket] at hsocket'
    cases hsocket'
    simp [hdomain, show s.table.hostHandles.get? id = some entry from hentry] at huses
  rw [Prog.wp_bind]
  refine Prog.wp_mono (cachedPollReadiness_reports h hspared) (fun cached s₁ h₁ => ?_) (fun _ _ h₁ => h₁)
  cases cached with
  | some readiness =>
      simp only
      rw [Prog.wp_pure]
      exact ⟨h₁.kept, fun hwanted => h₁.answered hwanted readiness rfl⟩
  | none =>
      simp only
      rw [Prog.wp_bind]
      refine Prog.wp_mono (polledHandle_reports h₁.kept.ready) (fun readiness s₂ h₂ => ?_)
        (fun _ _ h₂ => h₁.kept.trans h₂)
      have hkept := h₁.kept.trans h₂.1
      rw [Prog.wp_bind]
      refine Prog.wp_mono (finishPolledReadiness_kept hkept.ready) (fun _ s₃ h₃ => ?_)
        (fun _ _ h₃ => hkept.trans h₃)
      rw [Prog.wp_pure]
      refine ⟨hkept.trans h₃, fun hwanted => ?_⟩
      obtain ⟨entry, hentry, hrecv⟩ := h₁.passed hwanted rfl
      exact h₂.2 hwanted.1 entry hentry hrecv

/-! ### Polling many sockets -/

/-- Implications between the elements of three lists, one after the other. -/
theorem forall₂_imp_trans {α β γ : Type} {P : α → Prop} {Q : β → Prop} {R : γ → Prop} {as : List α}
    {bs : List β} {cs : List γ} (h : List.Forall₂ (fun a b => P a → Q b) as bs)
    (h' : List.Forall₂ (fun b c => Q b → R c) bs cs) : List.Forall₂ (fun a c => P a → R c) as cs := by
  induction h generalizing cs with
  | nil =>
      cases h'
      exact .nil
  | cons hab _ ih =>
      cases h' with
      | cons hbc hrest => exact .cons (hbc ∘ hab) (ih hrest)

/-- In state `s` the slot of a wanted request will end up readable. -/
def SlotReports (s : NetState σ ω) : PollSlot σ → Prop
  | .answered readiness | .cached readiness => readiness.readable = true
  | .batch _ _ => False
  | .fallback id interest => interest.readable = true ∧
      ∃ entry, s.table.hostHandles.get? id = some entry ∧ entry.handle.hasRecvReadiness

theorem SlotReports.kept {s s' : NetState σ ω} {slot : PollSlot σ} (h : SlotReports s slot)
    (hkept : PollKept s s') : SlotReports s' slot := by
  cases slot with
  | answered readiness => exact h
  | cached readiness => exact h
  | batch id request => exact h
  | fallback id interest =>
      obtain ⟨hreadable, entry, hentry, hrecv⟩ := h
      obtain ⟨entry', hentry', _, hrecv'⟩ := hkept.holds id entry hentry
      exact ⟨hreadable, entry', hentry', hrecv' hrecv⟩

theorem placeRequest_reports {request : SocketId × SocketEvents} (h : TableReady s.table)
    (hspared : PollSpared host s request) :
    (placeRequest host request).wp
      (fun slot s' => PollKept s s' ∧ (Wanted s.table request → SlotReports s' slot))
      (fun _ s' => PollKept s s') s := by
  obtain ⟨id, interest⟩ := request
  unfold placeRequest
  rw [Prog.wp_bind]
  refine wp_requireOpen (fun _ _ _ => ?_) (.refl h)
  rw [Prog.wp_bind]
  refine wp_socketUsesHostTransport (fun socket hsocket => ?_) (fun _ => .refl h)
  rw [Prog.wp_ite]
  split
  · rename_i huses
    rw [Prog.wp_pure]
    refine ⟨.refl h, fun ⟨_, entry, hentry, _⟩ => ?_⟩
    obtain ⟨socket', hsocket', _, hdomain, _⟩ := (h.entry id entry hentry).socket
    rw [hsocket] at hsocket'
    cases hsocket'
    simp [hdomain, show s.table.hostHandles.get? id = some entry from hentry] at huses
  rw [Prog.wp_bind]
  refine Prog.wp_mono (cachedPollReadiness_reports h hspared) (fun cached s₁ h₁ => ?_) (fun _ _ h₁ => h₁)
  cases cached with
  | some readiness =>
      simp only
      rw [Prog.wp_pure]
      exact ⟨h₁.kept, fun hwanted => h₁.answered hwanted readiness rfl⟩
  | none =>
      obtain ⟨entry, hentry⟩ := h₁.entry
      simp only
      rw [Prog.wp_bind, Prog.wp_get]
      simp only [hentry]
      cases hprepare : entry.handle.prepareBatchPoll interest with
      | none =>
          simp only
          rw [Prog.wp_pure]
          exact ⟨h₁.kept, fun hwanted => ⟨hwanted.1, h₁.passed hwanted rfl⟩⟩
      | some polled =>
          simp only
          rw [Prog.wp_pure]
          refine ⟨h₁.kept, fun hwanted => ?_⟩
          -- bytes in the handle keep its socket out of the batch
          obtain ⟨entry', hentry', hrecv⟩ := h₁.passed hwanted rfl
          rw [hentry] at hentry'
          cases hentry'
          obtain ⟨_, _, _, _, hready⟩ := (h₁.kept.ready.entry id entry hentry).socket
          have hcan := hready.receiving (Or.inl hrecv)
          rw [WinHostSocketHandle.prepareBatchPoll, hcan, show interest.readable = true from hwanted.1] at hprepare
          nomatch hprepare

def AllPollsSpared (host : HostNet σ ω) : NetState σ ω → List (SocketId × SocketEvents) → Prop
  | _, [] => True
  | s, request :: rest => PollSpared host s request ∧ AllPollsSpared host (placeRequest host request s).2 rest

theorem placeRequests_report (requests : List (SocketId × SocketEvents)) :
    ∀ {s : NetState σ ω}, TableReady s.table → AllPollsSpared host s requests →
      (Prog.collect requests (placeRequest host)).wp
        (fun slots s' => PollKept s s' ∧
          List.Forall₂ (fun request slot => Wanted s.table request → SlotReports s' slot) requests slots)
        (fun _ s' => PollKept s s') s := by
  induction requests with
  | nil =>
      intro s h _
      rw [Prog.collect, Prog.wp_pure]
      exact ⟨.refl h, .nil⟩
  | cons request rest ih =>
      rintro s h ⟨hspared, hrest⟩
      rw [Prog.collect, Prog.wp_bind]
      have hplace := Prog.wp_iff.mp (placeRequest_reports h hspared)
      rw [Prog.wp_iff]
      refine ⟨fun slot s₁ hrun => ?_, fun e s₁ hrun => hplace.2 e s₁ hrun⟩
      obtain ⟨hkept, hslot⟩ := hplace.1 slot s₁ hrun
      rw [hrun] at hrest
      rw [Prog.wp_bind]
      refine Prog.wp_mono (ih hkept.ready hrest) (fun slots s₂ h₂ => ?_) (fun _ _ h₂ => hkept.trans h₂)
      rw [Prog.wp_pure]
      refine ⟨hkept.trans h₂.1, .cons (fun hwanted => (hslot hwanted).kept h₂.1) ?_⟩
      exact h₂.2.imp fun _ _ himp hwanted => himp (hwanted.holds hkept.holds)

theorem finishBatch_reports (slots : List (PollSlot σ)) :
    ∀ {s : NetState σ ω} {polled : List SocketEvents}, TableReady s.table →
      (finishBatch host slots polled).wp
        (fun finished s' => PollKept s s' ∧
          List.Forall₂ (fun slot slot' => SlotReports s slot → SlotReports s' slot') slots finished)
        (fun _ s' => PollKept s s') s := by
  induction slots with
  | nil =>
      intro s polled h
      rw [finishBatch, Prog.wp_pure]
      exact ⟨.refl h, .nil⟩
  | cons slot rest ih =>
      intro s polled h
      have hothers : ∀ slot' : PollSlot σ, (SlotReports s slot → ∀ s', PollKept s s' → SlotReports s' slot') →
          ∀ {s₁ : NetState σ ω} {polled' : List SocketEvents}, PollKept s s₁ →
          Prog.wp (do
            let slots ← finishBatch host rest polled'
            pure (slot' :: slots))
            (fun finished s' => PollKept s s' ∧
              List.Forall₂ (fun slot slot' => SlotReports s slot → SlotReports s' slot') (slot :: rest) finished)
            (fun _ s' => PollKept s s') s₁ := by
        intro slot' hslot s₁ polled' hkept
        rw [Prog.wp_bind]
        refine Prog.wp_mono (ih hkept.ready) (fun slots s₂ h₂ => ?_) (fun _ _ h₂ => hkept.trans h₂)
        rw [Prog.wp_pure]
        have hkept₂ := hkept.trans h₂.1
        exact ⟨hkept₂, .cons (fun hreports => hslot hreports _ hkept₂)
          (h₂.2.imp fun _ _ himp hreports => himp (hreports.kept hkept))⟩
      cases slot with
      | batch id request =>
          rw [finishBatch, Prog.wp_bind, Prog.wp_get, Prog.wp_bind, Prog.wp_when, Prog.wp_throw]
          split
          · exact .refl h
          rw [Prog.wp_bind]
          refine Prog.wp_mono (finishPolledReadiness_kept h) (fun _ s₁ h₁ => ?_) (fun _ _ h₁ => h₁)
          exact hothers _ (fun hreports => hreports.elim) h₁
      | answered readiness =>
          exact hothers (.answered readiness) (fun hreports _ hkept => hreports.kept hkept) (.refl h)
      | cached readiness =>
          exact hothers (.cached readiness) (fun hreports _ hkept => hreports.kept hkept) (.refl h)
      | fallback id interest =>
          exact hothers (.fallback id interest) (fun hreports _ hkept => hreports.kept hkept) (.refl h)

theorem pollFallback_reports (slots : List (PollSlot σ)) :
    ∀ {s : NetState σ ω} {timeout : Option Nat}, TableReady s.table →
      (pollFallback host timeout slots).wp
        (fun events s' => PollKept s s' ∧
          List.Forall₂ (fun slot r => SlotReports s slot → r.readable = true) slots events)
        (fun _ s' => PollKept s s') s := by
  induction slots with
  | nil =>
      intro s timeout h
      rw [pollFallback, Prog.wp_pure]
      exact ⟨.refl h, .nil⟩
  | cons slot rest ih =>
      intro s timeout h
      have hothers : ∀ r : SocketEvents, (SlotReports s slot → r.readable = true) →
          ∀ {s₁ : NetState σ ω} {timeout' : Option Nat}, PollKept s s₁ →
          Prog.wp (do
            let events ← pollFallback host timeout' rest
            pure (r :: events))
            (fun events s' => PollKept s s' ∧
              List.Forall₂ (fun slot r => SlotReports s slot → r.readable = true) (slot :: rest) events)
            (fun _ s' => PollKept s s') s₁ := by
        intro r hr s₁ timeout' hkept
        rw [Prog.wp_bind]
        refine Prog.wp_mono (ih hkept.ready) (fun events s₂ h₂ => ?_) (fun _ _ h₂ => hkept.trans h₂)
        rw [Prog.wp_pure]
        exact ⟨hkept.trans h₂.1, .cons hr (h₂.2.imp fun _ _ himp hreports => himp (hreports.kept hkept))⟩
      cases slot with
      | batch id request => exact hothers .none (fun hreports => hreports.elim) (.refl h)
      | answered readiness => exact hothers readiness (fun hreports => hreports) (.refl h)
      | cached readiness => exact hothers readiness (fun hreports => hreports) (.refl h)
      | fallback id interest =>
          rw [pollFallback, Prog.wp_bind]
          refine Prog.wp_mono (polledHandle_reports h) (fun polled s₁ h₁ => ?_) (fun _ _ h₁ => h₁)
          rw [Prog.wp_bind]
          refine Prog.wp_mono (finishPolledReadiness_kept h₁.1.ready) (fun _ s₂ h₂ => ?_)
            (fun _ _ h₂ => h₁.1.trans h₂)
          refine hothers polled (fun hreports => ?_) (h₁.1.trans h₂)
          obtain ⟨hreadable, entry, hentry, hrecv⟩ := hreports
          exact h₁.2 hreadable entry hentry hrecv

theorem pollMany_reports {requests : List (SocketId × SocketEvents)} {timeout : Option Nat}
    (h : TableReady s.table) (hspared : AllPollsSpared host s requests) :
    (pollMany host requests timeout).wp
      (fun events s' => PollKept s s' ∧
        List.Forall₂ (fun request r => Wanted s.table request → r.readable = true) requests events)
      (fun _ s' => PollKept s s') s := by
  unfold pollMany
  rw [Prog.wp_bind]
  refine Prog.wp_mono (placeRequests_report requests h hspared) (fun slots s₁ h₁ => ?_) (fun _ _ h₁ => h₁)
  obtain ⟨hkept₁, hplaced⟩ := h₁
  have hbatch : ∀ wait : Option Nat, (pollBatchRequests host slots wait).wp
      (fun finished s' => PollKept s₁ s' ∧
        List.Forall₂ (fun slot slot' => SlotReports s₁ slot → SlotReports s' slot') slots finished)
      (fun _ s' => PollKept s₁ s') s₁ := by
    intro wait
    unfold pollBatchRequests
    rw [Prog.wp_ite]
    split
    · rw [Prog.wp_pure]
      exact ⟨.refl hkept₁.ready, List.forall₂_same.mpr fun _ _ h => h⟩
    · rw [Prog.wp_bind]
      refine wp_tableHostCall (wp_anyCall (fun polled w => ?_) (fun _ w => ⟨hkept₁.ready, .refl _⟩))
      exact Prog.wp_mono (finishBatch_reports slots hkept₁.ready)
        (fun _ _ h => ⟨⟨h.1.ready, h.1.holds⟩, h.2⟩) (fun _ _ h => ⟨h.ready, h.holds⟩)
  simp only
  rw [Prog.wp_bind]
  refine Prog.wp_mono (hbatch _) (fun finished s₂ h₂ => ?_) (fun _ _ h₂ => hkept₁.trans h₂)
  refine Prog.wp_mono (pollFallback_reports finished h₂.1.ready) (fun events s₃ h₃ => ?_)
    (fun _ _ h₃ => (hkept₁.trans h₂.1).trans h₃)
  exact ⟨(hkept₁.trans h₂.1).trans h₃.1, forall₂_imp_trans (forall₂_imp_trans hplaced h₂.2) h₃.2⟩

end Mcr.Net
