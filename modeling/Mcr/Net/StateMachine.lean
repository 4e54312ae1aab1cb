import Mcr.Net.Settling

/-!
# The state machine of a socket

What each call of the table can do to the state of a socket, for every host. The states change by calls that ask for
it, and in passing where a connect in progress ends; the identities of sockets and the flags of shutdowns only grow.
-/

namespace Mcr.Net

open Prog (Keeps)

variable {σ ω : Type} {host : HostNet σ ω} {s s' : NetState σ ω} {id : SocketId}

/-! ### One socket is put -/

/-- One socket changes, and nothing else among sockets and identities. -/
def Puts (s s' : NetState σ ω) (id : SocketId) (socket' : GuestSocket) : Prop :=
  identities s' = (s.table.sockets.insert id socket', s.table.nextId)

theorem updateSocket_puts {t : NetState σ ω} {socket : GuestSocket} {f : GuestSocket → GuestSocket}
    {Q : Unit → NetState σ ω → Prop} {E : SocketError → NetState σ ω → Prop} (ht : identities t = identities s)
    (hsocket : s.table.sockets.get? id = some socket) (h : ∀ s', Puts s s' id (f socket) → Q () s') :
    Prog.wp (updateSocket id f) Q E t := by
  have hfound : t.table.sockets.get? id = some socket := (get?_of_identities ht id).trans hsocket
  refine wp_updateSocket (fun found hget => ?_) fun hnone => ?_
  · obtain rfl := Option.some.inj (hget.symm.trans hfound)
    obtain ⟨hsockets, hnext⟩ := Prod.mk.inj ht
    apply h
    unfold Puts identities
    rw [← hsockets, ← hnext]
    rfl
  · nomatch hnone.symm.trans hfound

theorem wp_found {α : Type} {t : NetState σ ω} {f : GuestSocket → TableProg σ ω α}
    {Q : α → NetState σ ω → Prop} {E : SocketError → NetState σ ω → Prop} (ht : identities t = identities s)
    (hf : ∀ socket, s.table.sockets.get? id = some socket → Prog.wp (f socket) Q E t)
    (he : E (.badSocket id) t) : Prog.wp (getSocket id >>= f) Q E t := by
  rw [Prog.wp_bind]
  exact wp_getSocket (fun socket hsocket => hf socket ((get?_of_identities ht id).symm.trans hsocket)) fun _ => he

/-! ### What the calls do -/

theorem bind_spec (address : SocketAddress) : Prog.wp (bind host id address)
    (fun _ s' => ∃ socket bound, s.table.sockets.get? id = some socket ∧ socket.state = .created ∧
      Puts s s' id { socket with state := .bound bound })
    (fun _ s' => identities s' = identities s) s := by
  unfold bind
  refine wp_found rfl (fun socket hsocket => ?_) rfl
  rw [Prog.wp_bind]
  refine Prog.wp_check (fun _ _ => rfl) fun _ _ => ?_
  by_cases hcreated : socket.state = .created
  · rw [socketUsesHostTransportWhen, if_pos (decide_eq_true hcreated)]
    refine wp_look socketUsesHostTransport_keeps rfl (fun usesHost t ht => ?_) fun _ _ h => h
    rw [Prog.wp_ite]
    split
    · refine wp_look ensureHostEntry_keeps ht (fun _ t₁ h₁ => ?_) fun _ _ h => h
      refine wp_look withHandle_keeps h₁ (fun bound t₂ h₂ => ?_) fun _ _ h => h
      exact updateSocket_puts h₂ hsocket fun s' hputs => ⟨socket, bound, hsocket, hcreated, hputs⟩
    · simp only [hcreated]
      exact updateSocket_puts ht hsocket fun s' hputs => ⟨socket, address, hsocket, hcreated, hputs⟩
  · rw [socketUsesHostTransportWhen, if_neg (by simpa using hcreated), Prog.wp_bind, Prog.wp_pure, if_neg nofun]
    cases hstate : socket.state with
    | created => exact absurd hstate hcreated
    | _ => exact (Prog.wp_throw _).mpr rfl

theorem listen_spec (backlog : Nat) : Prog.wp (listen host id backlog)
    (fun _ s' => ∃ socket address, s.table.sockets.get? id = some socket ∧
      (socket.state = .bound address ∧ Puts s s' id { socket with state := .listening address } ∨
        identities s' = identities s))
    (fun _ s' => identities s' = identities s) s := by
  unfold listen
  refine wp_found rfl (fun socket hsocket => ?_) rfl
  rw [Prog.wp_ite]
  split
  · exact (Prog.wp_throw _).mpr rfl
  have husesHost : ∀ condition, Keeps identities
      (socketUsesHostTransportWhen condition id : TableProg σ ω Bool) :=
    fun _ => .ite socketUsesHostTransport_keeps (.pure _)
  refine wp_look (husesHost _) rfl (fun usesHost t ht => ?_) fun _ _ h => h
  have hprepare : Keeps identities (Prog.when (usesHost = true) do
      ensureHostEntry host id .listen
      withHandle id .listen (handleListen host backlog) : TableProg σ ω Unit) :=
    .ite (.bind ensureHostEntry_keeps fun _ => withHandle_keeps) (.pure _)
  refine wp_look hprepare ht (fun _ t₁ h₁ => ?_) fun _ _ h => h
  cases hstate : socket.state with
  | bound address =>
      exact updateSocket_puts h₁ hsocket fun s' hputs => ⟨socket, address, hsocket, Or.inl ⟨hstate, hputs⟩⟩
  | listening address => exact (Prog.wp_pure _).mpr ⟨socket, address, hsocket, Or.inr h₁⟩
  | _ => exact (Prog.wp_throw _).mpr h₁

theorem setNonblocking_spec (nonblocking : Bool) : Prog.wp (setNonblocking host id nonblocking)
    (fun _ s' => ∃ socket, s.table.sockets.get? id = some socket ∧
      (Puts s s' id { socket with flags := { socket.flags with nonblocking := nonblocking } } ∨
        identities s' = identities s))
    (fun _ s' => identities s' = identities s) s := by
  unfold setNonblocking
  refine wp_found rfl (fun socket hsocket => ?_) rfl
  rw [Prog.wp_ite]
  split
  · exact (Prog.wp_pure _).mpr ⟨socket, hsocket, Or.inr rfl⟩
  refine wp_look .get rfl (fun found t ht => ?_) fun _ _ h => h
  refine wp_look (.ite withHandle_keeps (.pure _)) ht (fun _ t₁ h₁ => ?_) fun _ _ h => h
  exact updateSocket_puts h₁ hsocket fun s' hputs => ⟨socket, hsocket, Or.inl hputs⟩

theorem shutdown_spec (how : ShutdownHow) : Prog.wp (shutdown host id how)
    (fun _ s' => ∃ socket, s.table.sockets.get? id = some socket ∧
      Puts s s' id { socket with shutdown := socket.shutdown.apply how })
    (fun _ s' => identities s' = identities s) s := by
  unfold shutdown
  refine wp_found rfl (fun socket hsocket => ?_) rfl
  cases hstate : socket.state with
  | connected localAddress peer =>
      refine wp_look .get rfl (fun found t ht => ?_) fun _ _ h => h
      refine wp_look (.ite withHandle_keeps (.pure _)) ht (fun _ t₁ h₁ => ?_) fun _ _ h => h
      exact updateSocket_puts h₁ hsocket fun s' hputs => ⟨socket, hsocket, hputs⟩
  | _ => exact (Prog.wp_throw _).mpr rfl

theorem setOption_spec (option : SocketOptionName) (value : Nat) :
    Prog.wp (setOption id option value : TableProg σ ω Unit)
      (fun _ s' => ∃ socket options, s.table.sockets.get? id = some socket ∧
        Puts s s' id { socket with options := options })
      (fun _ s' => identities s' = identities s) s := by
  unfold setOption
  rw [Prog.wp_ite]
  split
  · exact (Prog.wp_throw _).mpr rfl
  refine wp_found rfl (fun socket hsocket => ?_) rfl
  rw [Prog.wp_bind]
  refine Prog.wp_check (fun _ _ => rfl) fun options _ => ?_
  exact updateSocket_puts rfl hsocket fun s' hputs => ⟨socket, options, hsocket, hputs⟩

theorem close_spec : Prog.wp (close host id)
    (fun _ s' => ∃ socket, s.table.sockets.get? id = some socket ∧ socket.state ≠ .closed ∧
      Puts s s' id { socket with state := .closed, shutdown := ⟨true, true⟩ })
    (fun _ s' => identities s' = identities s) s := by
  unfold close
  refine wp_found rfl (fun socket hsocket => ?_) rfl
  rw [Prog.wp_ite]
  split
  · exact (Prog.wp_throw _).mpr rfl
  · rw [Prog.wp_modify]
    exact ⟨socket, hsocket, ‹_›, rfl⟩

/-! ### Connecting -/

/-- An answer of the host that the guest sees as a would-block. -/
def Blocks {α : Type} : Except HostError α → Prop
  | .ok _ => False
  | .error error => hostErrorErrno error.kind = .wouldBlock

/-- The host takes the `ConnectEx`, or answers that it would block. -/
def SubmitWaits (host : HostNet σ ω) (socket : σ) (address : SocketAddress) (w : ω) : Prop :=
  match (host.submitConnectEx socket address w).1 with
  | .ok _ => True
  | .error error => hostErrorErrno error.kind = .wouldBlock

/-- A handle that connects by `ConnectEx`: one with a completion port, of a TCP stream, with no connect pending. -/
def WinHostSocketHandle.connectsByPort (handle : WinHostSocketHandle σ) : Bool :=
  handle.pendingConnect.isNone && handle.completionPort && decide (handle.spec.socketType = .stream) &&
    decide (handle.spec.effectiveProtocol = .tcp)

/-- What the host answers for the handle leaves a connect waiting: it names the socket, or binds it, and takes the
`ConnectEx`; or one of the calls would block. -/
def HandleWaits (host : HostNet σ ω) (handle : WinHostSocketHandle σ) (isUdp : Prop) (address : SocketAddress)
    (w : ω) : Prop :=
  if handle.connectsByPort then
    match host.localAddr handle.socket w with
    | (.ok _, w) => SubmitWaits host handle.socket address w
    | (.error _, w) =>
      match host.bind handle.socket (.unspecifiedForDomain address.domain) w with
      | (.ok _, w) => SubmitWaits host handle.socket address w
      | (.error error, _) => hostErrorErrno error.kind = .wouldBlock
  else
    match host.connect handle.socket address w with
    | (.error error, _) => hostErrorErrno error.kind = .wouldBlock
    | (.ok _, w) =>
      match host.localAddr handle.socket w with
      | (.error error, _) => hostErrorErrno error.kind = .wouldBlock
      | (.ok _, w) => ¬isUdp ∧ Blocks (host.peerAddr handle.socket w).1

/-- The host leaves a connect waiting, on the handle of the socket or on the one that it opens for it. -/
def TransportWaits (host : HostNet σ ω) (s : NetState σ ω) (id : SocketId) (address : SocketAddress)
    (socket : GuestSocket) : Prop :=
  let isUdp := socket.socketType = .datagram ∧ socket.effectiveProtocol = .udp
  match s.table.hostHandles.get? id with
  | some entry => HandleWaits host entry.handle isUdp address s.host
  | none =>
    match openHostSocket host ⟨socket.domain, socket.socketType, socket.protocol, socket.flags⟩ socket.options s.host with
    | (.error error, _) => hostErrorErrno error.kind = .wouldBlock
    | (.ok handle, w) => HandleWaits host handle isUdp address w

def SocketState.CanConnect (state : SocketState) : Prop := state = .created ∨ ∃ address, state = .bound address

/-- The connect of a socket gets as far as the host transport, which leaves it waiting. -/
structure ConnectWaits (host : HostNet σ ω) (s : NetState σ ω) (id : SocketId) (address : SocketAddress)
    (socket : GuestSocket) : Prop where
  domain : socket.domain = address.domain
  state : socket.state.CanConnect
  usesHost : (decide (socket.domain ≠ .unix) && (s.table.transport || (s.table.hostHandles.get? id).isSome)) = true
  waits : TransportWaits host s id address socket

theorem connectHostSocket_keeps {address : SocketAddress} : Keeps identities (connectHostSocket host id address) := by
  refine .bind getSocket_keeps fun socket => .bind ensureHostEntry_keeps fun _ =>
    .bind withHandle_keeps fun fastPath => ?_
  have hends : Keeps identities (do
      let localAddress ← withHandle id .connect (handleLocalAddr host)
      if socket.socketType = .datagram ∧ socket.effectiveProtocol = .udp then pure (localAddress, address)
      else do
        let peer ← withHandle id .connect (handlePeerAddr host)
        pure (localAddress, peer) : TableProg σ ω (SocketAddress × SocketAddress)) :=
    .bind withHandle_keeps fun _ => .ite (.pure _) (.bind withHandle_keeps fun _ => .pure _)
  cases fastPath with
  | connected => exact hends
  | pending => exact .bind (.throw _) fun _ => hends
  | unsupported => exact .bind withHandle_keeps fun _ => hends

theorem submitConnect_waits {handle : WinHostSocketHandle σ} {address : SocketAddress} {w : ω} :
    Prog.wp (do
        let pending ← hostCall (host.submitConnectEx handle.socket address)
        setHandle fun handle => { handle with pendingConnect := some pending }
        pure .pending : HandleProg σ ω SocketConnectFastPath)
      (fun fastPath _ => fastPath = .pending ∧ SubmitWaits host handle.socket address w)
      (fun error _ => error.errno = .wouldBlock → SubmitWaits host handle.socket address w) ⟨handle, w⟩ := by
  rw [Prog.wp_bind, wp_hostCall]
  unfold SubmitWaits
  refine Prog.wp_iff.mpr ⟨fun pending w' hrun => ?_, fun error w' hrun => ?_⟩
  · rw [Prog.wp_bind, wp_setHandle, Prog.wp_pure, hrun]
    exact ⟨rfl, trivial⟩
  · rw [hrun]
    exact id

/-- The fast path of a connect submits a `ConnectEx`, or leaves the handle and the host alone. -/
theorem connectFastPath_waits {handle : WinHostSocketHandle σ} {address : SocketAddress} (isUdp : Prop) {w : ω} :
    Prog.wp (connectFastPath host address)
      (fun fastPath t => (fastPath = .pending ∧ HandleWaits host handle isUdp address w) ∨
        fastPath = .unsupported ∧ handle.connectsByPort = false ∧ t = ⟨handle, w⟩)
      (fun error _ => error.errno = .wouldBlock → HandleWaits host handle isUdp address w) ⟨handle, w⟩ := by
  unfold connectFastPath
  rw [Prog.wp_bind, Prog.wp_get, Prog.wp_ite]
  split
  · rename_i hunsupported
    rw [Prog.wp_pure]
    refine Or.inr ⟨rfl, ?_, rfl⟩
    unfold WinHostSocketHandle.connectsByPort
    simp only [Bool.or_eq_true, Bool.not_eq_true', decide_eq_true_eq] at hunsupported
    rcases hunsupported with ((hpending | hport) | htype) | hprotocol
    · rw [Option.isNone_eq_false_iff.mpr hpending]
      rfl
    · rw [hport, Bool.and_false]
      rfl
    · rw [decide_eq_false htype, Bool.and_false, Bool.false_and]
    · rw [decide_eq_false hprotocol, Bool.and_false]
  · rename_i hsupported
    have hbyPort : handle.connectsByPort = true := by
      simp only [Bool.or_eq_true, not_or, Bool.not_eq_true, Bool.not_eq_false', decide_eq_true_eq, not_not,
        Option.isSome_eq_false_iff] at hsupported
      obtain ⟨⟨⟨hpending, hport⟩, htype⟩, hprotocol⟩ := hsupported
      rw [WinHostSocketHandle.connectsByPort, hpending, hport, decide_eq_true htype, decide_eq_true hprotocol]
      rfl
    unfold HandleWaits
    rw [if_pos hbyPort, Prog.wp_bind, Prog.wp_tryCatch, Prog.wp_bind, wp_hostCall]
    refine Prog.wp_iff.mpr ⟨fun _ w' hnamed => ?_, fun _ w' hnamed => ?_⟩
    · rw [Prog.wp_pure, hnamed]
      exact Prog.wp_mono submitConnect_waits (fun _ _ h => Or.inl h) fun _ _ h => h
    · rw [wp_hostCall, hnamed]
      refine Prog.wp_iff.mpr ⟨fun _ w'' hbound => ?_, fun error w'' hbound => ?_⟩
      · dsimp only
        rw [hbound]
        exact Prog.wp_mono submitConnect_waits (fun _ _ h => Or.inl h) fun _ _ h => h
      · dsimp only
        rw [hbound]
        exact fun h => h

/-- A method that only calls the host leaves the handle as it is. -/
theorem wp_withHandle_hostCall {α : Type} {operation : SocketOperation} (call : σ → Prog ω HostError α)
    {entry : HostSocketEntry σ} (hentry : s.table.hostHandles.get? id = some entry)
    {Q : α → NetState σ ω → Prop} {E : SocketError → NetState σ ω → Prop}
    (hok : ∀ a w, call entry.handle.socket s.host = (.ok a, w) →
      ∀ s', s'.table.hostHandles.get? id = some entry → s'.host = w → Q a s')
    (herror : ∀ e w s', call entry.handle.socket s.host = (.error e, w) → E (.fromHost (.ofHost e)) s') :
    Prog.wp (withHandle id operation (do
      let t ← .get
      hostCall (call t.handle.socket))) Q E s := by
  refine wp_withHandle (fun hnone => absurd (hentry.symm.trans hnone) (by simp)) fun entry' hentry' => ?_
  obtain rfl := Option.some.inj (hentry.symm.trans hentry')
  rw [Prog.wp_bind, Prog.wp_get, wp_hostCall]
  refine Prog.wp_iff.mpr ⟨fun a w hrun => hok a w hrun _ ?_ rfl, fun e w hrun => herror e w _ hrun⟩
  exact (SortedMap.get?_insert _ _ _ _).trans (if_pos rfl)

/-- What follows the opening of a handle waits only as the host answers for it. -/
theorem connectOn_waits {address : SocketAddress} (isUdp : Prop) [Decidable isUdp] {entry : HostSocketEntry σ}
    (hentry : s.table.hostHandles.get? id = some entry) :
    Prog.wp (do
        let fastPath ← withHandle id .connect (connectFastPath host address)
        match fastPath with
        | .connected => pure ()
        | .pending => .throw (.wouldBlock .connect .wouldBlock "ConnectEx operation is pending")
        | .unsupported => withHandle id .connect (handleConnect host address)
        let localAddress ← withHandle id .connect (handleLocalAddr host)
        if isUdp then pure (localAddress, address)
        else do
          let peer ← withHandle id .connect (handlePeerAddr host)
          pure (localAddress, peer) : TableProg σ ω (SocketAddress × SocketAddress))
      (fun _ _ => True)
      (fun error _ => error.linuxErrno = .wouldBlock → HandleWaits host entry.handle isUdp address s.host) s := by
  rw [Prog.wp_bind]
  refine wp_withHandle (fun hnone => absurd (hentry.symm.trans hnone) (by simp)) fun entry' hentry' => ?_
  obtain rfl := Option.some.inj (hentry.symm.trans hentry')
  refine Prog.wp_mono (connectFastPath_waits isUdp) (fun fastPath t h => ?_) fun _ _ h => h
  rcases h with ⟨rfl, hwaits⟩ | ⟨rfl, hdirect, rfl⟩
  · rw [Prog.wp_bind]
    exact (Prog.wp_throw _).mpr fun _ => hwaits
  · have hputs : (s.putHandle id entry ⟨entry.handle, s.host⟩).table.hostHandles.get? id = some entry :=
      (SortedMap.get?_insert _ _ _ _).trans (if_pos rfl)
    unfold HandleWaits
    rw [if_neg (by rw [hdirect]; exact Bool.false_ne_true), Prog.wp_bind]
    refine wp_withHandle_hostCall (fun socket => host.connect socket address) hputs
      (fun _ w₁ hconnected s₁ hentry₁ hhost₁ => ?_) fun error w₁ _ hconnected => ?_
    · rw [show host.connect entry.handle.socket address s.host = _ from hconnected]
      dsimp only
      rw [Prog.wp_bind]
      refine wp_withHandle_hostCall (fun socket => host.localAddr socket) hentry₁
        (fun localAddress w₂ hnamed s₂ hentry₂ hhost₂ => ?_) fun error w₂ _ hnamed => ?_
      · rw [hhost₁] at hnamed
        rw [hnamed, Prog.wp_ite]
        dsimp only
        split
        · rw [Prog.wp_pure]
          trivial
        · rename_i hudp
          rw [Prog.wp_bind]
          refine wp_withHandle_hostCall (fun socket => host.peerAddr socket) hentry₂
            (fun _ _ _ _ _ _ => (Prog.wp_pure _).mpr trivial) fun error w₃ _ hpeer hblocks => ⟨hudp, ?_⟩
          rw [hhost₂] at hpeer
          rw [hpeer]
          exact hblocks
      · rw [hhost₁] at hnamed
        rw [hnamed]
        exact fun h => h
    · rw [show host.connect entry.handle.socket address s.host = _ from hconnected]
      exact fun h => h

theorem opened_entry (table : GuestSocketTable σ) (id : SocketId) (entry : HostSocketEntry σ) (w : ω) :
    (⟨{ table with hostHandles := table.hostHandles.insert id entry }, w⟩ : NetState σ ω).table.hostHandles.get? id =
      some entry :=
  (SortedMap.get?_insert _ _ _ _).trans (if_pos rfl)

theorem connectHostSocket_waits {address : SocketAddress} {socket : GuestSocket}
    (hsocket : s.table.sockets.get? id = some socket) :
    Prog.wp (connectHostSocket host id address) (fun _ _ => True)
      (fun error _ => error.linuxErrno = .wouldBlock → TransportWaits host s id address socket) s := by
  unfold connectHostSocket
  rw [Prog.wp_bind]
  refine wp_getSocket (fun found hfound => ?_) fun hnone => absurd (hsocket.symm.trans hnone) (by simp)
  obtain rfl := Option.some.inj (hsocket.symm.trans hfound)
  rw [Prog.wp_bind]
  unfold ensureHostEntry TransportWaits
  rw [Prog.wp_bind, Prog.wp_get]
  cases hentry : s.table.hostHandles.get? id with
  | some entry =>
      dsimp only
      rw [Prog.wp_pure]
      exact connectOn_waits _ hentry
  | none =>
      dsimp only
      unfold socketSpec
      rw [Prog.wp_bind, Prog.wp_bind]
      refine wp_getSocket (fun found hfound => ?_) fun hnone => absurd (hsocket.symm.trans hnone) (by simp)
      obtain rfl := Option.some.inj (hsocket.symm.trans hfound)
      rw [Prog.wp_bind]
      refine Prog.wp_check (fun error hinvalid => ?_) fun _ _ => ?_
      · unfold validateSocketProtocol at hinvalid
        split at hinvalid <;> cases hinvalid
        all_goals
          intro hblocks
          cases hblocks
      rw [Prog.wp_pure, Prog.wp_ite]
      split
      · rw [Prog.wp_throw]
        intro hblocks
        cases hblocks
      rw [Prog.wp_bind]
      refine wp_getSocket (fun found hfound => ?_) fun hnone => absurd (hsocket.symm.trans hnone) (by simp)
      obtain rfl := Option.some.inj (hsocket.symm.trans hfound)
      rw [Prog.wp_ite]
      split
      · rw [Prog.wp_throw]
        intro hblocks
        cases hblocks
      rw [Prog.wp_bind]
      refine wp_tableHostCall (Prog.wp_iff.mpr ⟨fun handle w hopened => ?_, fun error w hopened => ?_⟩)
      · rw [hopened, Prog.wp_bind]
        unfold allocateReadinessToken
        rw [Prog.wp_bind, Prog.wp_get, Prog.wp_ite]
        split
        · rw [Prog.wp_throw]
          intro hblocks
          cases hblocks
        · rw [Prog.wp_bind, wp_setTable, Prog.wp_pure, wp_setTable]
          exact connectOn_waits _ (opened_entry s.table.bumpGeneration id ⟨handle, .new id s.table.nextReadinessGeneration⟩ w)
      · rw [hopened]
        exact fun h => h

theorem validateConnect_ok {socket : GuestSocket} (h : validateConnect socket id = .ok ()) : socket.state.CanConnect := by
  unfold validateConnect at h
  cases hstate : socket.state with
  | created => exact Or.inl rfl
  | bound address => exact Or.inr ⟨address, rfl⟩
  | _ =>
      rw [hstate] at h
      nomatch h

theorem validateAddressDomain_ok {domain : SocketDomain} {address : SocketAddress}
    (h : validateAddressDomain domain address = .ok ()) : domain = address.domain := by
  unfold validateAddressDomain at h
  split at h
  · assumption
  · nomatch h

theorem connect_spec (address : SocketAddress) : Prog.wp (connect host id address)
    (fun _ s' => ∃ socket localAddress peer, s.table.sockets.get? id = some socket ∧ socket.state.CanConnect ∧
      Puts s s' id { socket with state := .connected localAddress peer })
    (fun error s' => identities s' = identities s ∨
      error.linuxErrno = .operationInProgress ∧
        ∃ socket, s.table.sockets.get? id = some socket ∧ ConnectWaits host s id address socket ∧
          Puts s s' id { socket with state := .connecting address, lastError := some .operationInProgress }) s := by
  unfold connect
  refine wp_found rfl (fun socket hsocket => ?_) (Or.inl rfl)
  rw [Prog.wp_bind]
  refine Prog.wp_check (fun _ _ => Or.inl rfl) fun _ haddress => ?_
  rw [Prog.wp_bind]
  refine Prog.wp_check (fun _ _ => Or.inl rfl) fun _ hvalid => ?_
  have hdomain := validateAddressDomain_ok haddress
  have hfrom := validateConnect_ok hvalid
  rw [Prog.wp_bind]
  refine wp_socketUsesHostTransport (fun found hfound => ?_) fun _ => Or.inl rfl
  obtain rfl := Option.some.inj (hfound.symm.trans hsocket)
  rw [Prog.wp_ite]
  split
  · rename_i husesHost
    rw [Prog.wp_bind, Prog.wp_attempt]
    refine Prog.wp_iff.mpr ⟨fun addresses t hrun => ?_, fun error t hrun => ?_⟩
    · have ht : identities t = identities s := (congrArg (identities ∘ Prod.snd) hrun).symm.trans (connectHostSocket_keeps s)
      obtain ⟨localAddress, peer⟩ := addresses
      exact updateSocket_puts ht hsocket fun s' hputs => ⟨found, localAddress, peer, hsocket, hfrom, hputs⟩
    · have ht : identities t = identities s := (congrArg (identities ∘ Prod.snd) hrun).symm.trans (connectHostSocket_keeps s)
      simp only
      rw [Prog.wp_ite]
      split
      · rw [Prog.wp_bind]
        refine updateSocket_puts ht hsocket fun s' hputs => ?_
        rw [Prog.wp_throw]
        have hwaits : TransportWaits host s id address found :=
          Prog.wp_error (connectHostSocket_waits hsocket) hrun ‹_›
        exact Or.inr ⟨rfl, found, hsocket, ⟨hdomain, hfrom, husesHost, hwaits⟩, hputs⟩
      · exact (Prog.wp_throw _).mpr (Or.inl ht)
  · exact updateSocket_puts rfl hsocket fun s' hputs => ⟨found, _, address, hsocket, hfrom, hputs⟩

theorem connect_settled {address : SocketAddress}
    (hanswered : ∀ socket, s.table.sockets.get? id = some socket → socket.flags.nonblocking = false →
      (∀ address', socket.state ≠ .connecting address') ∧ ¬ConnectWaits host s id address socket) :
    ∀ socket', (connect host id address s).2.table.sockets.get? id = some socket' →
      socket'.flags.nonblocking = false → ∀ address', socket'.state ≠ .connecting address' := by
  have hput : ∀ (s' : NetState σ ω) (socket : GuestSocket), Puts s s' id socket →
      s'.table.sockets.get? id = some socket := by
    intro s' socket hputs
    rw [(Prod.mk.inj hputs).1, SortedMap.get?_insert, if_pos rfl]
  refine Prog.wp_state (P := fun s' : NetState σ ω => ∀ socket', s'.table.sockets.get? id = some socket' →
    socket'.flags.nonblocking = false → ∀ address', socket'.state ≠ .connecting address') ?_
  refine Prog.wp_mono (connect_spec address) (fun _ s' h => ?_) fun _ s' h => ?_
  · obtain ⟨socket, localAddress, peer, _, _, hputs⟩ := h
    intro socket' hsocket' _ address' hstate
    obtain rfl := Option.some.inj (hsocket'.symm.trans (hput s' _ hputs))
    nomatch hstate
  · intro socket' hsocket' hflag
    rcases h with hkept | ⟨_, socket, hsocket, hwaiting, hputs⟩
    · exact (hanswered socket' ((get?_of_identities hkept id).symm.trans hsocket') hflag).1
    · obtain rfl := Option.some.inj (hsocket'.symm.trans (hput s' _ hputs))
      exact absurd hwaiting (hanswered socket hsocket hflag).2

/-! ### New sockets -/

structure Makes (s s' : NetState σ ω) (id : SocketId) (state : SocketState) : Prop where
  left : s.table.nextId ≠ 0
  next : id = s.table.nextId
  put : ∃ socket, identities s' = (s.table.sockets.insert id socket, s.table.bumpId.nextId) ∧
    socket.id = id ∧ socket.state = state ∧ socket.shutdown = ⟨false, false⟩

/-- No socket is made, but an identity may be used up. -/
def MakesNone (s s' : NetState σ ω) : Prop :=
  s'.table.sockets = s.table.sockets ∧
    (s'.table.nextId = s.table.nextId ∨ s.table.nextId ≠ 0 ∧ s'.table.nextId = s.table.bumpId.nextId)

theorem createSocketFromSpec_makes (spec : SocketSpec) : Prog.wp (createSocketFromSpec spec)
    (fun id s' => Makes s s' id .created) (fun _ s' => MakesNone s s') s := by
  unfold createSocketFromSpec
  rw [Prog.wp_bind]
  refine Prog.wp_check (fun _ _ => ⟨rfl, Or.inl rfl⟩) fun _ _ => ?_
  rw [Prog.wp_bind]
  refine wp_allocateId (fun hleft => ?_) fun _ => ⟨rfl, Or.inl rfl⟩
  rw [Prog.wp_bind, wp_setTable, Prog.wp_pure]
  exact ⟨hleft, rfl, _, rfl, rfl, rfl, rfl⟩

theorem createSocketWithHandle_makes (spec : SocketSpec) (handle : WinHostSocketHandle σ) :
    Prog.wp (createSocketWithHandle spec handle) (fun id s' => Makes s s' id .created)
      (fun _ s' => MakesNone s s') s := by
  unfold createSocketWithHandle
  rw [Prog.wp_bind]
  refine Prog.wp_check (fun _ _ => ⟨rfl, Or.inl rfl⟩) fun _ _ => ?_
  rw [Prog.wp_bind]
  refine wp_allocateId (fun hleft => ?_) fun _ => ⟨rfl, Or.inl rfl⟩
  rw [Prog.wp_bind]
  refine wp_allocateReadinessToken ?_ fun _ => ⟨rfl, Or.inr ⟨hleft, rfl⟩⟩
  rw [Prog.wp_bind, wp_setTable, Prog.wp_pure]
  exact ⟨hleft, rfl, _, rfl, rfl, rfl, rfl⟩

theorem registerTaken_makes (taken : TakenConnection σ) :
    Prog.wp (registerTaken taken)
      (fun accepted s' => Makes s s' accepted.1 (.connected taken.localAddress taken.peer))
      (fun _ s' => MakesNone s s') s := by
  unfold registerTaken registerAcceptedSocket
  rw [Prog.wp_bind]
  refine Prog.wp_mono (createSocketWithHandle_makes taken.spec taken.handle) (fun id t hmakes => ?_) fun _ _ h => h
  obtain ⟨socket, hput, hid, hstate, hshutdown⟩ := hmakes.put
  have hsocket : t.table.sockets.get? id = some socket := by
    have hsockets := congrArg (fun view : SortedMap SocketId GuestSocket × SocketId => view.1.get? id) hput
    exact hsockets.trans (by rw [SortedMap.get?_insert, if_pos rfl])
  rw [Prog.wp_bind]
  refine updateSocket_puts rfl hsocket fun s' hputs => ?_
  rw [Prog.wp_pure]
  obtain ⟨hsockets, hnext⟩ := Prod.mk.inj hput
  refine ⟨hmakes.left, hmakes.next, { socket with state := .connected taken.localAddress taken.peer }, ?_, hid, rfl,
    hshutdown⟩
  refine hputs.trans (Prod.ext ?_ hnext)
  rw [hsockets]
  exact SortedMap.insert_insert _ _ _ _

theorem Makes.of_identities {t : NetState σ ω} {state : SocketState} (ht : identities t = identities s)
    (h : Makes t s' id state) : Makes s s' id state := by
  obtain ⟨hsockets, hnext⟩ := Prod.mk.inj ht
  have hbump : t.table.bumpId.nextId = s.table.bumpId.nextId := by
    unfold GuestSocketTable.bumpId
    rw [hnext]
  obtain ⟨socket, hput, hsocket⟩ := h.put
  rw [hsockets, hbump] at hput
  exact ⟨hnext ▸ h.left, hnext ▸ h.next, socket, hput, hsocket⟩

theorem MakesNone.of_identities {t : NetState σ ω} (ht : identities t = identities s) (h : MakesNone t s') :
    MakesNone s s' := by
  obtain ⟨hsockets, hnext⟩ := Prod.mk.inj ht
  have hbump : t.table.bumpId.nextId = s.table.bumpId.nextId := by
    unfold GuestSocketTable.bumpId
    rw [hnext]
  refine ⟨h.1.trans hsockets, ?_⟩
  rw [← hnext, ← hbump]
  exact h.2

theorem accept_makes : Prog.wp (accept host id)
    (fun accepted s' => ∃ localAddress peer, Makes s s' accepted.1 (.connected localAddress peer))
    (fun _ s' => MakesNone s s') s := by
  rw [accept_eq, Prog.wp_bind]
  refine Prog.wp_mono takeConnection_spec (fun taken t ht => ?_) fun _ t ht => ?_
  · refine Prog.wp_mono (registerTaken_makes taken) (fun accepted s' h => ?_) fun _ _ h => h.of_identities ht.1
    exact ⟨_, _, h.of_identities ht.1⟩
  · exact MakesNone.of_identities ht ⟨rfl, Or.inl rfl⟩

end Mcr.Net
