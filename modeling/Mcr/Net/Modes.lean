import Mcr.Net.Rules

/-!
# The blocking mode of a socket

A socket's mode is kept by the guest socket and again by its host handle. Every call of the table leaves the
two equal, and only `set_nonblocking` changes them; a new socket gets an identity nothing else has, and an
accepted one the mode of its listener.
-/

namespace Mcr.Net

variable {σ ω : Type} {host : HostNet σ ω} {s s' : NetState σ ω} {id : SocketId}

/-- Handles have the modes of their sockets, and the identities to come are unused. -/
structure Modes (table : GuestSocketTable σ) : Prop where
  handle : ∀ id entry, table.hostHandles.get? id = some entry → ∃ socket, table.sockets.get? id = some socket ∧
    entry.handle.spec.flags.nonblocking = socket.flags.nonblocking
  unused : table.nextId ≠ 0 → ∀ id, table.nextId ≤ id → table.sockets.get? id = none
  zero : table.sockets.get? 0 = none

def ModesKept (table table' : GuestSocketTable σ) : Prop :=
  ∀ id socket, table.sockets.get? id = some socket → ∃ socket', table'.sockets.get? id = some socket' ∧
    socket'.flags.nonblocking = socket.flags.nonblocking

theorem ModesKept.of_sockets {table table' : GuestSocketTable σ} (h : table'.sockets = table.sockets) :
    ModesKept table table' := fun _ socket hsocket => ⟨socket, h ▸ hsocket, rfl⟩

theorem ModesKept.trans {table table' table'' : GuestSocketTable σ} (h : ModesKept table table')
    (h' : ModesKept table' table'') : ModesKept table table'' := by
  intro id socket hsocket
  obtain ⟨socket', hsocket', hflags⟩ := h id socket hsocket
  obtain ⟨socket'', hsocket'', hflags'⟩ := h' id socket' hsocket'
  exact ⟨socket'', hsocket'', hflags'.trans hflags⟩

/-- From a table whose modes agree, one whose modes agree and which keeps them. -/
def SameModes (s s' : NetState σ ω) : Prop := Modes s.table → Modes s'.table ∧ ModesKept s.table s'.table

instance : @Std.Refl (NetState σ ω) SameModes := ⟨fun _ h => ⟨h, .of_sockets rfl⟩⟩

instance : IsTrans (NetState σ ω) SameModes :=
  ⟨fun _ _ _ h h' hmodes => ⟨(h' (h hmodes).1).1, (h hmodes).2.trans (h' (h hmodes).1).2⟩⟩

namespace SameModes

theorem putSocket {socket socket' : GuestSocket} (hsocket : s.table.sockets.get? id = some socket)
    (hflags : socket'.flags = socket.flags) :
    SameModes s { s with table := s.table.putSocket id socket' } := by
  intro h
  have hkept : ModesKept s.table (s.table.putSocket id socket') := by
    intro i found hfound
    by_cases hid : i = id
    · subst hid
      rw [hsocket] at hfound
      cases hfound
      exact ⟨socket', by simp [GuestSocketTable.putSocket], by rw [hflags]⟩
    · exact ⟨found, by simpa [GuestSocketTable.putSocket, SortedMap.get?_insert, hid] using hfound, rfl⟩
  have hother : ∀ i, s.table.sockets.get? i = none → (s.table.putSocket id socket').sockets.get? i = none := by
    intro i hnone
    have hid : i ≠ id := by
      rintro rfl
      rw [hsocket] at hnone
      nomatch hnone
    simpa [GuestSocketTable.putSocket, SortedMap.get?_insert, hid] using hnone
  refine ⟨⟨fun i entry hentry => ?_, fun hids i hi => ?_, ?_⟩, hkept⟩
  · obtain ⟨found, hfound, hmode⟩ := h.handle i entry hentry
    obtain ⟨found', hfound', hmode'⟩ := hkept i found hfound
    exact ⟨found', hfound', hmode.trans hmode'.symm⟩
  · exact hother i (h.unused hids i hi)
  · exact hother 0 h.zero

theorem putHandle {socket : GuestSocket} {entry : HostSocketEntry σ} {table' : GuestSocketTable σ} {w : ω}
    (hsockets : table'.sockets = s.table.sockets) (hids : table'.nextId = s.table.nextId)
    (hhandles : table'.hostHandles = s.table.hostHandles.insert id entry)
    (hsocket : s.table.sockets.get? id = some socket)
    (hmode : entry.handle.spec.flags.nonblocking = socket.flags.nonblocking) : SameModes s ⟨table', w⟩ := by
  intro h
  refine ⟨⟨fun i found hfound => ?_, ?_, ?_⟩, .of_sockets hsockets⟩
  · rw [hsockets]
    by_cases hid : i = id
    · subst hid
      rw [hhandles, SortedMap.get?_insert, if_pos rfl] at hfound
      cases hfound
      exact ⟨socket, hsocket, hmode⟩
    · rw [hhandles, SortedMap.get?_insert, if_neg hid] at hfound
      exact h.handle i found hfound
  · rw [hsockets, hids]
    exact h.unused
  · rw [hsockets]
    exact h.zero

theorem of_tables (hsockets : s'.table.sockets = s.table.sockets) (hhandles : s'.table.hostHandles = s.table.hostHandles)
    (hids : s'.table.nextId = s.table.nextId) : SameModes s s' := by
  intro h
  refine ⟨⟨?_, ?_, ?_⟩, .of_sockets hsockets⟩
  · rw [hsockets, hhandles]
    exact h.handle
  · rw [hsockets, hids]
    exact h.unused
  · rw [hsockets]
    exact h.zero

end SameModes

/-! ### Programs that keep the modes -/

open Prog (Along Keeps)

def modeOf (t : HandleState σ ω) : Bool := t.handle.spec.flags.nonblocking

theorem hostCall_keepsMode {α : Type} (call : Prog ω HostError α) : Keeps modeOf (hostCall call : HandleProg σ ω α) := by
  intro t
  unfold hostCall
  rcases call t.host with ⟨r, w⟩
  cases r <;> rfl

theorem getSocket_along {α : Type} {f : GuestSocket → TableProg σ ω α} (hf : ∀ socket, Along SameModes (f socket)) :
    Along SameModes (getSocket id >>= f) := by
  refine .bind (.of_wp fun s => ?_) hf
  exact wp_getSocket (fun _ _ => Std.Refl.refl _) fun _ => Std.Refl.refl _

theorem updateSocket_along {f : GuestSocket → GuestSocket} (hf : ∀ socket, (f socket).flags = socket.flags) :
    Along SameModes (updateSocket id f : TableProg σ ω Unit) :=
  .of_wp fun _ => wp_updateSocket (fun _ hsocket => .putSocket hsocket (hf _)) fun _ => Std.Refl.refl _

theorem socketUsesHostTransport_along : Along SameModes (socketUsesHostTransport id : TableProg σ ω Bool) :=
  .of_wp fun _ => wp_socketUsesHostTransport (fun _ _ => Std.Refl.refl _) fun _ => Std.Refl.refl _

theorem clearReadiness_along : Along SameModes (clearReadiness id : TableProg σ ω Unit) :=
  .modify fun _ => .of_tables rfl rfl rfl

theorem ensureHostEntry_along {operation : SocketOperation} : Along SameModes (ensureHostEntry host id operation) :=
  .of_wp fun _ => wp_ensureHostEntry (fun _ _ => Std.Refl.refl _)
    (fun _ _ _ _ _ hsocket _ => .putHandle rfl rfl rfl hsocket rfl) fun _ _ => .of_tables rfl rfl rfl

theorem onHandle_along {α : Type} {operation : SocketOperation} {method : HandleProg σ ω α}
    (hmethod : Keeps modeOf method) : Along SameModes (onHandle id operation method) := by
  refine .of_wp fun s => wp_onHandle (fun _ => Std.Refl.refl _) fun entry hentry => ?_
  refine Prog.wp_mono (hmethod.wp _) (fun _ t hmode => ?_) fun _ t hmode => ?_
  all_goals
    intro h
    obtain ⟨socket, hsocket, hsame⟩ := h.handle id entry hentry
    exact SameModes.putHandle rfl rfl rfl hsocket (hmode.trans hsame) h

theorem withHandle_along {α : Type} {operation : SocketOperation} {method : HandleProg σ ω α}
    (hmethod : Keeps modeOf method) : Along SameModes (withHandle id operation method) := by
  refine .bind (onHandle_along hmethod) fun result => ?_
  cases result with
  | ok a => exact .pure a
  | error e => exact .throw _

theorem handleBind_keepsMode {address : SocketAddress} : Keeps modeOf (handleBind host address) :=
  .bind .get fun _ => .bind (hostCall_keepsMode _) fun _ => hostCall_keepsMode _

theorem handleListen_keepsMode {backlog : Nat} : Keeps modeOf (handleListen host backlog) :=
  .bind .get fun _ => .ite (.throw _) (.bind (hostCall_keepsMode _) fun _ => .modify fun _ => rfl)

theorem connectFastPath_keepsMode {address : SocketAddress} : Keeps modeOf (connectFastPath host address) := by
  refine .bind .get fun _ => .ite (.pure _) (.bind (.tryCatch ?_ fun _ => hostCall_keepsMode _) fun _ => ?_)
  · exact .bind (hostCall_keepsMode _) fun _ => .pure _
  · exact .bind (hostCall_keepsMode _) fun _ => .bind (.modify fun _ => rfl) fun _ => .pure _

theorem acceptFastPath_keepsMode {spec : SocketSpec} : Keeps modeOf (acceptFastPath host spec) := by
  refine .bind .get fun t => ?_
  split
  · exact .bind (.modify fun _ => rfl) fun _ => .throw _
  split
  · exact .bind (.modify fun _ => rfl) fun _ => .pure _
  refine .ite (.pure _) (.ite (.pure _) (.bind (fun _ => rfl) fun submission => ?_))
  cases submission with
  | ok pending => exact .bind (.modify fun _ => rfl) fun _ => .pure _
  | error error => exact .ite (.pure _) (.throw _)

/-! ### The calls -/

theorem bind_along {address : SocketAddress} : Along SameModes (bind host id address) := by
  refine getSocket_along fun socket => .bind (.ofExcept _) fun _ => .bind ?_ fun _ => .ite ?_ ?_
  · exact .ite socketUsesHostTransport_along (.pure _)
  · exact .bind ensureHostEntry_along fun _ => .bind (withHandle_along handleBind_keepsMode) fun _ =>
      updateSocket_along fun _ => rfl
  · cases socket.state with
    | created => exact updateSocket_along fun _ => rfl
    | _ => exact .throw _

theorem listen_along {backlog : Nat} : Along SameModes (listen host id backlog) := by
  refine getSocket_along fun socket => .ite (.throw _) (.bind (.ite socketUsesHostTransport_along (.pure _)) fun _ => ?_)
  refine .bind (.when (.bind ensureHostEntry_along fun _ => withHandle_along handleListen_keepsMode)) fun _ => ?_
  cases socket.state with
  | bound address => exact updateSocket_along fun _ => rfl
  | listening address => exact .pure _
  | _ => exact .throw _

theorem connectHostSocket_along {address : SocketAddress} : Along SameModes (connectHostSocket host id address) := by
  have hcall : ∀ {α : Type} (call : σ → Prog ω HostError α),
      Keeps modeOf (Prog.get >>= fun s : HandleState σ ω => hostCall (call s.handle.socket)) :=
    fun call => .bind .get fun _ => hostCall_keepsMode _
  have hends : ∀ socket : GuestSocket, Along SameModes (do
      let localAddress ← withHandle id .connect (handleLocalAddr host)
      if socket.socketType = .datagram ∧ socket.effectiveProtocol = .udp then pure (localAddress, address)
      else do
        let peer ← withHandle id .connect (handlePeerAddr host)
        pure (localAddress, peer) : TableProg σ ω (SocketAddress × SocketAddress)) := by
    intro socket
    refine .bind (withHandle_along (hcall _)) fun _ => .ite (.pure _) ?_
    exact .bind (withHandle_along (hcall _)) fun _ => .pure _
  refine getSocket_along fun socket => .bind ensureHostEntry_along fun _ =>
    .bind (withHandle_along connectFastPath_keepsMode) fun fastPath => ?_
  cases fastPath with
  | connected => exact hends socket
  | pending => exact .bind (.throw _) fun _ => hends socket
  | unsupported => exact .bind (withHandle_along (hcall (host.connect · address))) fun _ => hends socket

theorem connect_along {address : SocketAddress} : Along SameModes (connect host id address) := by
  refine getSocket_along fun socket => .bind (.ofExcept _) fun _ => .bind (.ofExcept _) fun _ =>
    .bind socketUsesHostTransport_along fun _ => .ite ?_ (updateSocket_along fun _ => rfl)
  refine .bind connectHostSocket_along.attempt fun connected => ?_
  match connected with
  | .ok (localAddress, peer) => exact updateSocket_along fun _ => rfl
  | .error error => exact .ite (.bind (updateSocket_along fun _ => rfl) fun _ => .throw _) (.throw _)

/-! ### New sockets -/

structure Created (s s' : NetState σ ω) (id : SocketId) (nonblocking : Bool) : Prop where
  modes : Modes s'.table
  kept : ModesKept s.table s'.table
  new : s.table.sockets.get? id = none
  made : ∃ socket, s'.table.sockets.get? id = some socket ∧ socket.flags.nonblocking = nonblocking

theorem Created.after {s₀ : NetState σ ω} {nonblocking : Bool} (hkept : ModesKept s₀.table s.table)
    (h : Created s s' id nonblocking) : Created s₀ s' id nonblocking := by
  refine ⟨h.modes, hkept.trans h.kept, ?_, h.made⟩
  cases hold : s₀.table.sockets.get? id with
  | none => rfl
  | some socket =>
      obtain ⟨socket', hsocket', _⟩ := hkept id socket hold
      rw [h.new] at hsocket'
      nomatch hsocket'

theorem Created.before {s'' : NetState σ ω} {nonblocking : Bool} (h : Created s s' id nonblocking)
    (hsame : SameModes s' s'') : Created s s'' id nonblocking := by
  obtain ⟨hmodes, hkept⟩ := hsame h.modes
  obtain ⟨socket, hsocket, hflag⟩ := h.made
  obtain ⟨socket', hsocket', hflag'⟩ := hkept id socket hsocket
  exact ⟨hmodes, h.kept.trans hkept, h.new, socket', hsocket', hflag'.trans hflag⟩

theorem Modes.created {spec : SocketSpec} {table' : GuestSocketTable σ} {w : ω} (h : Modes s.table)
    (hids : s.table.nextId ≠ 0)
    (hnext : table'.nextId = s.table.bumpId.nextId)
    (hsockets : table'.sockets = s.table.sockets.insert s.table.nextId (.new s.table.nextId spec))
    (hhandles : ∀ i entry, table'.hostHandles.get? i = some entry →
      s.table.hostHandles.get? i = some entry ∨
        i = s.table.nextId ∧ entry.handle.spec.flags.nonblocking = spec.flags.nonblocking) :
    Created s ⟨table', w⟩ s.table.nextId spec.flags.nonblocking := by
  have hnew : s.table.sockets.get? s.table.nextId = none := h.unused hids _ le_rfl
  have hmade : table'.sockets.get? s.table.nextId = some (.new s.table.nextId spec) := by
    rw [hsockets, SortedMap.get?_insert, if_pos rfl]
  have hother : ∀ i, i ≠ s.table.nextId → table'.sockets.get? i = s.table.sockets.get? i := by
    intro i hi
    rw [hsockets, SortedMap.get?_insert, if_neg hi]
  have hkept : ModesKept s.table table' := by
    intro i socket hsocket
    have hi : i ≠ s.table.nextId := by
      rintro rfl
      rw [hnew] at hsocket
      nomatch hsocket
    exact ⟨socket, (hother i hi).trans hsocket, rfl⟩
  refine ⟨⟨fun i entry hentry => ?_, fun hids' i hi => ?_, ?_⟩, hkept, hnew, _, hmade, rfl⟩
  · rcases hhandles i entry hentry with hold | ⟨rfl, hmode⟩
    · obtain ⟨socket, hsocket, hmode⟩ := h.handle i entry hold
      obtain ⟨socket', hsocket', hmode'⟩ := hkept i socket hsocket
      exact ⟨socket', hsocket', hmode.trans hmode'.symm⟩
    · exact ⟨_, hmade, hmode⟩
  · rw [hnext, GuestSocketTable.bumpId] at hids' hi
    simp only at hids' hi
    split at hi
    · rw [hother i (by omega)]
      exact h.unused hids i (by omega)
    · rename_i hlimit
      rw [if_neg hlimit] at hids'
      exact absurd rfl hids'
  · rw [hother 0 (Ne.symm hids)]
    exact h.zero

theorem createSocketFromSpec_creates {spec : SocketSpec} (h : Modes s.table) :
    Prog.wp (createSocketFromSpec spec) (fun id s' => Created s s' id spec.flags.nonblocking)
      (fun _ s' => SameModes s s') s := by
  unfold createSocketFromSpec
  rw [Prog.wp_bind]
  refine Prog.wp_check (fun _ _ => Std.Refl.refl _) fun _ _ => ?_
  rw [Prog.wp_bind]
  refine wp_allocateId (fun hids => ?_) fun _ => Std.Refl.refl _
  rw [Prog.wp_bind, wp_setTable, Prog.wp_pure]
  exact h.created hids rfl rfl fun _ _ hentry => .inl hentry

theorem SameModes.bumped (hids : s.table.nextId ≠ 0) :
    SameModes s { s with table := s.table.bumpId } := by
  intro h
  refine ⟨⟨h.handle, fun hids' i hi => ?_, h.zero⟩, .of_sockets rfl⟩
  simp only [GuestSocketTable.bumpId] at hids' hi
  split at hi
  · exact h.unused hids i (by omega)
  · rename_i hlimit
    rw [if_neg hlimit] at hids'
    exact absurd rfl hids'

theorem registerAcceptedSocket_creates {spec : SocketSpec} {handle : WinHostSocketHandle σ}
    {localAddress peer : SocketAddress} (h : Modes s.table)
    (hhandle : handle.spec.flags.nonblocking = spec.flags.nonblocking) :
    Prog.wp (registerAcceptedSocket spec handle localAddress peer)
      (fun accepted s' => Created s s' accepted.1 spec.flags.nonblocking) (fun _ s' => SameModes s s') s := by
  unfold registerAcceptedSocket createSocketWithHandle
  rw [Prog.wp_bind, Prog.wp_bind]
  refine Prog.wp_check (fun _ _ => Std.Refl.refl _) fun _ _ => ?_
  rw [Prog.wp_bind]
  refine wp_allocateId (fun hids => ?_) fun _ => Std.Refl.refl _
  rw [Prog.wp_bind]
  refine wp_allocateReadinessToken ?_ fun _ => .bumped hids
  rw [Prog.wp_bind, wp_setTable, Prog.wp_pure, Prog.wp_bind]
  have hcreated : Created s ⟨{ s.table.bumpId.bumpGeneration with
      sockets := s.table.sockets.insert s.table.nextId (.new s.table.nextId spec)
      hostHandles := s.table.hostHandles.insert s.table.nextId
        ⟨handle, .new s.table.nextId s.table.nextReadinessGeneration⟩ }, s.host⟩ s.table.nextId
      spec.flags.nonblocking := by
    refine h.created hids rfl rfl fun i entry hentry => ?_
    by_cases hi : i = s.table.nextId
    · subst hi
      rw [SortedMap.get?_insert, if_pos rfl] at hentry
      cases hentry
      exact .inr ⟨rfl, hhandle⟩
    · rw [SortedMap.get?_insert, if_neg hi] at hentry
      exact .inl hentry
  refine wp_updateSocket (fun socket hsocket => ?_) fun _ _ => ⟨hcreated.modes, hcreated.kept⟩
  rw [Prog.wp_pure]
  exact hcreated.before (.putSocket hsocket rfl)

/-! ### Accepting -/

/-- The listener has a connection to hand out, unless it has no handle yet. -/
def ConnectionWaits (host : HostNet σ ω) (s : NetState σ ω) (id : SocketId) : Prop :=
  ∀ entry, s.table.hostHandles.get? id = some entry →
    entry.handle.acceptedFastPath.isSome ∨ (host.accept entry.handle.socket s.host).1.isOk

/-- What `accept` returns: a new socket, with the mode of the listener. -/
def Accepted (host : HostNet σ ω) (s : NetState σ ω) (id : SocketId) (accepted : SocketId) (s' : NetState σ ω) : Prop :=
  ConnectionWaits host s id ∧ ∃ listener, s.table.sockets.get? id = some listener ∧
    Created s s' accepted listener.flags.nonblocking

theorem handleAccept_spec {t : HandleState σ ω} : (handleAccept host).wp
    (fun accepted t' => t'.handle = t.handle ∧ (host.accept t.handle.socket t.host).1.isOk ∧
      accepted.1.spec = t.handle.spec)
    (fun _ t' => t'.handle = t.handle) t := by
  unfold handleAccept
  rw [Prog.wp_bind, Prog.wp_get, Prog.wp_bind, wp_hostCall, Prog.wp_iff]
  refine ⟨fun accepted w hrun => ?_, fun _ _ _ => rfl⟩
  rw [Prog.wp_pure]
  exact ⟨rfl, by rw [hrun]; rfl, rfl⟩

theorem acceptFastPath_spec {spec : SocketSpec} {t : HandleState σ ω} : (acceptFastPath host spec).wp
    (fun result t' => modeOf t' = modeOf t ∧ ∀ handle peer, result = .accepted handle peer →
      t.handle.acceptedFastPath.isSome ∧ handle.spec = spec)
    (fun _ t' => modeOf t' = modeOf t) t := by
  have hresult : (acceptFastPath host spec).wp (fun result _ => ∀ handle peer, result = .accepted handle peer →
      t.handle.acceptedFastPath.isSome ∧ handle.spec = spec) (fun _ _ => True) t := by
    unfold acceptFastPath
    rw [Prog.wp_bind, Prog.wp_get]
    split
    · rw [Prog.wp_bind, wp_setHandle, Prog.wp_throw]
      trivial
    split
    · rename_i _ hready
      rw [Prog.wp_bind, wp_setHandle, Prog.wp_pure]
      rintro _ _ ⟨⟩
      exact ⟨by rw [hready]; rfl, rfl⟩
    have hno : ∀ (handle : WinHostSocketHandle σ) (peer : SocketAddress) (P : Prop),
        SocketAcceptFastPath.unsupported = .accepted handle peer ∨
          SocketAcceptFastPath.pending = .accepted handle peer → P := by
      rintro _ _ _ (h | h) <;> cases h
    rw [Prog.wp_ite]
    split
    · rw [Prog.wp_pure]
      exact fun _ _ h => hno _ _ _ (.inr h)
    rw [Prog.wp_ite]
    split
    · rw [Prog.wp_pure]
      exact fun _ _ h => hno _ _ _ (.inl h)
    rw [Prog.wp_bind]
    refine wp_anyCall (fun submission t' => ?_) fun _ _ => trivial
    cases submission with
    | ok pending =>
        simp only
        rw [Prog.wp_bind, wp_setHandle, Prog.wp_pure]
        exact fun _ _ h => hno _ _ _ (.inr h)
    | error error =>
        simp only
        rw [Prog.wp_ite]
        split
        · rw [Prog.wp_pure]
          exact fun _ _ h => hno _ _ _ (.inl h)
        · rw [Prog.wp_throw]
          trivial
  exact Prog.wp_mono (Prog.wp_and (acceptFastPath_keepsMode.wp t) hresult) (fun _ _ h => h) fun _ _ h => h.1

theorem register_creates {spec : SocketSpec} {handle : WinHostSocketHandle σ} {localAddress peer : SocketAddress}
    (h : Modes s.table) (hhandle : handle.spec.flags.nonblocking = spec.flags.nonblocking) :
    Prog.wp (do clearReadiness id; registerAcceptedSocket spec handle localAddress peer)
      (fun accepted s' => Created s s' accepted.1 spec.flags.nonblocking) (fun _ s' => SameModes s s') s := by
  rw [Prog.wp_bind]
  refine Prog.wp_mono (clearReadiness_along.wp s) (fun _ s₁ h₁ => ?_) fun _ _ h₁ => h₁
  obtain ⟨hmodes, hkept⟩ := h₁ h
  exact Prog.wp_mono (registerAcceptedSocket_creates hmodes hhandle) (fun _ _ h₂ => h₂.after hkept)
    fun _ _ h₂ => IsTrans.trans _ _ _ h₁ h₂

theorem takeConnection_creates {spec : SocketSpec} {localAddress : SocketAddress} {listener : GuestSocket}
    (h : Modes s.table) (hlistener : s.table.sockets.get? id = some listener)
    (hspec : spec.flags = listener.flags) :
    Prog.wp (do
      let accepted ← onHandle id .accept (handleAccept host)
      match accepted with
      | .ok (handle, peer) => do
        clearReadiness id
        registerAcceptedSocket spec handle localAddress peer
      | .error error =>
        if error.errno ≠ .wouldBlock then .throw (.fromHost error)
        else do
          let fastPath ← withHandle id .accept (acceptFastPath host spec)
          match fastPath with
          | .accepted handle peer => do
            clearReadiness id
            registerAcceptedSocket spec handle localAddress peer
          | .pending | .unsupported =>
            .throw (.wouldBlock .accept .wouldBlock "no pending socket connection is available"))
      (fun accepted s' => ConnectionWaits host s id ∧ Created s s' accepted.1 listener.flags.nonblocking)
      (fun _ s' => SameModes s s') s := by
  rw [Prog.wp_bind, ← hspec]
  refine wp_onHandle (fun _ => Std.Refl.refl _) fun entry hentry => ?_
  obtain ⟨socket, hsocket, hmode⟩ := h.handle id entry hentry
  obtain rfl : listener = socket := Option.some.inj (hlistener.symm.trans hsocket)
  have hput : ∀ t : HandleState σ ω, modeOf t = entry.handle.spec.flags.nonblocking →
      SameModes s (s.putHandle id entry t) :=
    fun t ht => .putHandle rfl rfl rfl hsocket (ht.trans hmode)
  refine Prog.wp_mono handleAccept_spec ?_ fun error t ht => ?_
  · rintro ⟨handle, peer⟩ t ⟨ht, hok, hhandle⟩
    have hsame := hput t (by rw [modeOf, ht])
    obtain ⟨hmodes, hkept⟩ := hsame h
    refine Prog.wp_mono (register_creates hmodes ?_) (fun _ _ h' => ⟨?_, h'.after hkept⟩)
      fun _ _ h' => IsTrans.trans _ _ _ hsame h'
    · simp only at hhandle
      rw [hhandle, hspec]
      exact hmode
    · intro entry' hentry'
      obtain rfl : entry = entry' := Option.some.inj (hentry.symm.trans hentry')
      exact .inr hok
  · have hsame := hput t (by rw [modeOf, ht])
    obtain ⟨hmodes, hkept⟩ := hsame h
    simp only
    rw [Prog.wp_ite]
    split
    · rw [Prog.wp_throw]
      exact hsame
    rw [Prog.wp_bind]
    refine wp_withHandle (fun _ => hsame) fun entry' hentry' => ?_
    rw [NetState.putHandle, SortedMap.get?_insert, if_pos rfl] at hentry'
    cases hentry'
    have hput' : ∀ t' : HandleState σ ω, modeOf t' = t.handle.spec.flags.nonblocking →
        SameModes s ((s.putHandle id entry t).putHandle id { entry with handle := t.handle } t') := by
      intro t' ht'
      refine IsTrans.trans _ _ _ hsame (.putHandle rfl rfl rfl hsocket ?_)
      rw [ht] at ht'
      exact ht'.trans hmode
    refine Prog.wp_mono acceptFastPath_spec (fun result t' ht' => ?_) fun _ t' ht' => hput' t' ht'
    have hsame' := hput' t' ht'.1
    obtain ⟨hmodes', hkept'⟩ := hsame' h
    cases result with
    | accepted handle peer =>
        obtain ⟨hready, hhandle⟩ := ht'.2 handle peer rfl
        refine Prog.wp_mono (register_creates hmodes' (by rw [hhandle])) (fun _ _ h' => ⟨?_, h'.after hkept'⟩)
          fun _ _ h' => IsTrans.trans _ _ _ hsame' h'
        intro entry' hentry'
        obtain rfl : entry = entry' := Option.some.inj (hentry.symm.trans hentry')
        rw [ht] at hready
        exact .inl hready
    | pending => exact (Prog.wp_throw _).mpr hsame'
    | unsupported => exact (Prog.wp_throw _).mpr hsame'

theorem accept_creates (h : Modes s.table) :
    Prog.wp (accept host id) (fun accepted s' => Accepted host s id accepted.1 s')
      (fun _ s' => SameModes s s') s := by
  unfold accept
  rw [Prog.wp_bind]
  have hlooks : Prog.wp (requireListening id) (fun _ s' => s' = s) (fun _ s' => SameModes s s') s := by
    unfold requireListening
    rw [Prog.wp_bind]
    refine wp_getSocket (fun listener _ => ?_) fun _ => Std.Refl.refl _
    cases listener.state with
    | listening address => exact (Prog.wp_pure _).mpr rfl
    | _ => exact (Prog.wp_throw _).mpr (Std.Refl.refl _)
  refine Prog.wp_mono hlooks ?_ fun _ _ h' => h'
  rintro localAddress s' hs'
  subst hs'
  rw [Prog.wp_bind, Prog.wp_get, Prog.wp_ite]
  split
  · rw [Prog.wp_throw]
    exact Std.Refl.refl _
  rw [Prog.wp_bind]
  refine wp_socketSpec (fun listener hlistener => ?_) fun _ => Std.Refl.refl _
  rw [Prog.wp_bind]
  refine wp_ensureHostEntry (fun entry hentry => ?_) (fun socket raw port w hnone hsocket _ => ?_)
    fun _ _ => .of_tables rfl rfl rfl
  · exact Prog.wp_mono (takeConnection_creates h hlistener rfl) (fun _ _ h' => ⟨h'.1, listener, hlistener, h'.2⟩)
      fun _ _ h' => h'
  · have hsame : SameModes s' ⟨{ s'.table.bumpGeneration with
        hostHandles := s'.table.hostHandles.insert id
          ⟨.fresh raw ⟨socket.domain, socket.socketType, socket.protocol, socket.flags⟩ port,
            .new id s'.table.nextReadinessGeneration⟩ }, w⟩ := .putHandle rfl rfl rfl hsocket rfl
    obtain ⟨hmodes, hkept⟩ := hsame h
    refine Prog.wp_mono (takeConnection_creates hmodes hlistener rfl)
      (fun _ _ h' => ⟨fun entry hentry => ?_, listener, hlistener, h'.2.after hkept⟩) fun _ _ h' => ?_
    · rw [hnone] at hentry
      nomatch hentry
    · exact IsTrans.trans _ _ _ hsame h'

/-! ### Setting the mode -/

structure ModeSet (s s' : NetState σ ω) (id : SocketId) (nonblocking : Bool) : Prop where
  modes : Modes s'.table
  others : ∀ i, i ≠ id → s'.table.sockets.get? i = s.table.sockets.get? i
  set : ∃ socket, s'.table.sockets.get? id = some socket ∧ socket.flags.nonblocking = nonblocking

theorem Modes.setMode {socket : GuestSocket} {nonblocking : Bool} {table' : GuestSocketTable σ} {w : ω}
    (h : Modes s.table) (hsocket : s.table.sockets.get? id = some socket)
    (hids : table'.nextId = s.table.nextId)
    (hsockets : table'.sockets = s.table.sockets.insert id
      { socket with flags := { socket.flags with nonblocking := nonblocking } })
    (hhandles : ∀ i entry, table'.hostHandles.get? i = some entry →
      i ≠ id ∧ s.table.hostHandles.get? i = some entry ∨
        i = id ∧ entry.handle.spec.flags.nonblocking = nonblocking) :
    ModeSet s ⟨table', w⟩ id nonblocking := by
  have hset : table'.sockets.get? id =
      some { socket with flags := { socket.flags with nonblocking := nonblocking } } := by
    rw [hsockets, SortedMap.get?_insert, if_pos rfl]
  have hother : ∀ i, i ≠ id → table'.sockets.get? i = s.table.sockets.get? i := by
    intro i hi
    rw [hsockets, SortedMap.get?_insert, if_neg hi]
  have hnone : ∀ i, s.table.sockets.get? i = none → table'.sockets.get? i = none := by
    intro i hi
    rw [hother i (by rintro rfl; rw [hsocket] at hi; nomatch hi)]
    exact hi
  refine ⟨⟨fun i entry hentry => ?_, fun hne i hi => ?_, hnone 0 h.zero⟩, hother, _, hset, rfl⟩
  · rcases hhandles i entry hentry with ⟨hi, hold⟩ | ⟨rfl, hmode⟩
    · obtain ⟨found, hfound, hmode⟩ := h.handle i entry hold
      exact ⟨found, (hother i hi).trans hfound, hmode⟩
    · exact ⟨_, hset, hmode⟩
  · rw [hids] at hne hi
    exact hnone i (h.unused hne i hi)

theorem handleSetNonblocking_spec {nonblocking : Bool} {t : HandleState σ ω} : (handleSetNonblocking host nonblocking).wp
    (fun _ t' => modeOf t' = nonblocking) (fun _ t' => modeOf t' = modeOf t) t := by
  unfold handleSetNonblocking
  rw [Prog.wp_bind, Prog.wp_get, Prog.wp_bind, wp_hostCall]
  refine wp_anyCall (fun _ w => ?_) fun _ _ => rfl
  rw [wp_setHandle]
  rfl

theorem setNonblocking_sets {nonblocking : Bool} (h : Modes s.table) :
    Prog.wp (setNonblocking host id nonblocking) (fun _ s' => ModeSet s s' id nonblocking)
      (fun _ s' => SameModes s s') s := by
  unfold setNonblocking
  rw [Prog.wp_bind]
  refine wp_getSocket (fun socket hsocket => ?_) fun _ => Std.Refl.refl _
  rw [Prog.wp_ite]
  split
  · rename_i hflag
    rw [Prog.wp_pure]
    exact ⟨h, fun _ _ => rfl, socket, hsocket, hflag⟩
  rw [Prog.wp_bind, Prog.wp_get, Prog.wp_bind, Prog.wp_when]
  split
  · refine wp_withHandle (fun _ => Std.Refl.refl _) fun entry hentry => ?_
    obtain ⟨found, hfound, hmode⟩ := h.handle id entry hentry
    refine Prog.wp_mono handleSetNonblocking_spec (fun _ t ht => ?_) fun _ t ht => ?_
    · refine wp_updateSocket (fun socket' hsocket' => ?_) fun hnone => ?_
      · refine h.setMode hsocket' rfl rfl fun i entry' hentry' => ?_
        by_cases hi : i = id
        · subst hi
          rw [NetState.putHandle, GuestSocketTable.putSocket, SortedMap.get?_insert, if_pos rfl] at hentry'
          cases hentry'
          exact .inr ⟨rfl, ht⟩
        · rw [NetState.putHandle, GuestSocketTable.putSocket, SortedMap.get?_insert, if_neg hi] at hentry'
          exact .inl ⟨hi, hentry'⟩
      · exact absurd (hnone.symm.trans hsocket) (by simp)
    · exact .putHandle rfl rfl rfl hfound (ht.trans hmode)
  · rename_i hnone
    rw [Option.not_isSome_iff_eq_none] at hnone
    refine wp_updateSocket (fun socket' hsocket' => ?_) fun _ => Std.Refl.refl _
    refine h.setMode hsocket' rfl rfl fun i entry hentry => .inl ⟨?_, hentry⟩
    rintro rfl
    exact absurd (hnone.symm.trans hentry) (by simp)

end Mcr.Net
