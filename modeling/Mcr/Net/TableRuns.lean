import Mcr.Net.Closed
import Mcr.Net.ReadyRuns
import Mcr.Net.StateMachine

/-!
# Runs of the socket table

Every call lets the sockets advance along the state machine and makes at most one socket, under an identity that no
socket had. A run is a list of calls, and what holds for each call from each state holds along the run.
-/

namespace Mcr.Net

open Prog (Along)

variable {σ ω ρ : Type} {host : HostNet σ ω} {methods : HandleMethods σ ω ρ} {s s' : NetState σ ω} {id : SocketId}

/-! ### Advancing -/

/-- What a call makes of the state of a socket. A connect in progress may end in passing. -/
inductive SocketCall.Moves : SocketCall σ → SocketId → SocketState → SocketState → Prop
  | finished (call : SocketCall σ) (id : SocketId) {state state' : SocketState} (h : state.Finishes state') :
      Moves call id state state'
  | bound (id : SocketId) (address address' : SocketAddress) : Moves (.bind id address) id .created (.bound address')
  | listening (id : SocketId) (backlog : Nat) (address : SocketAddress) :
      Moves (.listen id backlog) id (.bound address) (.listening address)
  | connected (id : SocketId) (address : SocketAddress) {state : SocketState} (h : state.CanConnect)
      (localAddress peer : SocketAddress) : Moves (.connect id address) id state (.connected localAddress peer)
  | connecting (id : SocketId) (address : SocketAddress) {state : SocketState} (h : state.CanConnect) :
      Moves (.connect id address) id state (.connecting address)
  | closed (id : SocketId) {state : SocketState} (h : state ≠ .closed) : Moves (.close id) id state .closed

def SocketCall.Gives : SocketCall σ → SocketState → Prop
  | .createSocket _, state | .createSocketWithHandle _ _, state => state = .created
  | .accept _, state => ∃ localAddress peer, state = .connected localAddress peer
  | _, _ => False

theorem SocketCall.Gives.not_listening {call : SocketCall σ} {state : SocketState} (h : call.Gives state)
    (address : SocketAddress) : state ≠ .listening address := by
  rintro rfl
  cases call with
  | createSocket | createSocketWithHandle => nomatch h
  | accept =>
      obtain ⟨_, _, hstate⟩ := h
      nomatch hstate
  | _ => exact h.elim

theorem SocketCall.Gives.accepts {call : SocketCall σ} {localAddress peer : SocketAddress}
    (h : call.Gives (.connected localAddress peer)) : ∃ listener, call = .accept listener := by
  cases call with
  | createSocket | createSocketWithHandle => nomatch h
  | accept listener => exact ⟨listener, rfl⟩
  | _ => exact h.elim

/-- What was shut down stays so. -/
structure ShutdownFlags.Grows (flags flags' : ShutdownFlags) : Prop where
  read : flags.read = true → flags'.read = true
  write : flags.write = true → flags'.write = true

theorem ShutdownFlags.Grows.refl (flags : ShutdownFlags) : flags.Grows flags := ⟨id, id⟩

theorem ShutdownFlags.apply_grows (flags : ShutdownFlags) (how : ShutdownHow) : flags.Grows (flags.apply how) := by
  cases how with
  | read => exact ⟨fun _ => rfl, id⟩
  | write => exact ⟨id, fun _ => rfl⟩
  | readWrite => exact ⟨fun _ => rfl, fun _ => rfl⟩

/-- The socket after a call: the same one, at most a step further. -/
structure GuestSocket.Advances (call : SocketCall σ) (id : SocketId) (socket socket' : GuestSocket) : Prop where
  own : socket'.id = socket.id
  shutdown : socket.shutdown.Grows socket'.shutdown
  state : socket'.state = socket.state ∨ call.Moves id socket.state socket'.state

theorem GuestSocket.Advances.refl (call : SocketCall σ) (id : SocketId) (socket : GuestSocket) :
    socket.Advances call id socket := ⟨rfl, .refl _, Or.inl rfl⟩

theorem GuestSocket.Settles.advances {socket socket' : GuestSocket} (h : socket.Settles socket') (call : SocketCall σ)
    (id : SocketId) : socket.Advances call id socket' := by
  have hid := congrArg GuestSocket.id h.same
  have hshutdown := congrArg GuestSocket.shutdown h.same
  refine ⟨hid, ?_, h.state.imp_right fun hfinishes => .finished call id hfinishes⟩
  rw [← hshutdown]
  exact .refl _

namespace GuestSocket.Advances

variable {call : SocketCall σ} {socket socket' : GuestSocket}

theorem closed (h : socket.Advances call id socket') (hclosed : socket.state = .closed) : socket'.state = .closed := by
  rcases h.state with hkept | hmoves
  · exact hkept.trans hclosed
  rw [hclosed] at hmoves
  generalize socket'.state = state' at hmoves
  cases hmoves with
  | finished _ _ hfinishes => nomatch hfinishes
  | connected _ _ hfrom => exact absurd hfrom (by rintro (h | ⟨_, h⟩) <;> nomatch h)
  | connecting _ _ hfrom => exact absurd hfrom (by rintro (h | ⟨_, h⟩) <;> nomatch h)
  | closed => rfl

theorem listening (h : socket.Advances call id socket') {address : SocketAddress}
    (hstate : socket'.state = .listening address) :
    socket.state = .listening address ∨ ∃ address', socket.state = .bound address' := by
  rcases h.state with hkept | hmoves
  · exact Or.inl (hkept.symm.trans hstate)
  rw [hstate] at hmoves
  generalize socket.state = state at hmoves
  cases hmoves with
  | finished _ _ hfinishes => nomatch hfinishes
  | listening => exact Or.inr ⟨address, rfl⟩

theorem connected (h : socket.Advances call id socket') {localAddress peer : SocketAddress}
    (hstate : socket'.state = .connected localAddress peer) :
    socket.state = .connected localAddress peer ∨ (∃ address, call = .connect id address) ∨
      ∃ address, socket.state = .connecting address := by
  rcases h.state with hkept | hmoves
  · exact Or.inl (hkept.symm.trans hstate)
  right
  rw [hstate] at hmoves
  generalize socket.state = state at hmoves
  cases hmoves with
  | finished _ _ hfinishes =>
      cases hfinishes with
      | connected address => exact Or.inr ⟨address, rfl⟩
  | connected _ address => exact Or.inl ⟨address, rfl⟩

end GuestSocket.Advances

structure Advance (call : SocketCall σ) (s s' : NetState σ ω) (made : Option SocketId) : Prop where
  socket : ∀ id socket, s.table.sockets.get? id = some socket →
    ∃ socket', s'.table.sockets.get? id = some socket' ∧ socket.Advances call id socket'
  fresh : ∀ id socket', s.table.sockets.get? id = none → s'.table.sockets.get? id = some socket' →
    made = some id ∧ socket'.id = id ∧ call.Gives socket'.state
  made : ∀ id, made = some id → s.table.sockets.get? id = none ∧ ∃ socket', s'.table.sockets.get? id = some socket'
  unused : ∀ id, s'.table.nextId ≠ 0 → s'.table.nextId ≤ id → s'.table.sockets.get? id = none

/-- Sockets know their identities, and the identities to come are unused. -/
structure TableIds (s : NetState σ ω) : Prop where
  own : ∀ id socket, s.table.sockets.get? id = some socket → socket.id = id
  unused : ∀ id, s.table.nextId ≠ 0 → s.table.nextId ≤ id → s.table.sockets.get? id = none

theorem bumpId_lt {table : GuestSocketTable σ} (h : table.bumpId.nextId ≠ 0) : table.nextId < table.bumpId.nextId := by
  unfold GuestSocketTable.bumpId at h ⊢
  simp only at h ⊢
  split at h
  · rw [if_pos ‹_›]
    omega
  · exact absurd rfl h

namespace Advance

variable {call : SocketCall σ}

theorem ids {made : Option SocketId} (h : Advance call s s' made) (hids : TableIds s) : TableIds s' := by
  refine ⟨fun id socket' hsocket' => ?_, h.unused⟩
  cases hsocket : s.table.sockets.get? id with
  | none => exact (h.fresh id socket' hsocket hsocket').2.1
  | some socket =>
      obtain ⟨found, hfound, hadvances⟩ := h.socket id socket hsocket
      rw [Option.some.inj (hsocket'.symm.trans hfound), hadvances.own]
      exact hids.own id socket hsocket

theorem of_settles (hids : TableIds s) (h : Settles s s') : Advance call s s' none := by
  refine ⟨fun id socket hsocket => ?_, fun id socket' hnone hsome => ?_, fun id hmade => (nomatch hmade),
    fun id hne hle => h.absent id (hids.unused id (h.next ▸ hne) (h.next ▸ hle))⟩
  · obtain ⟨socket', hsocket', hsettles⟩ := h.socket id socket hsocket
    exact ⟨socket', hsocket', hsettles.advances call id⟩
  · rw [h.absent id hnone] at hsome
    nomatch hsome

theorem of_identities (hids : TableIds s) (h : identities s' = identities s) : Advance call s s' none :=
  .of_settles hids (.of_identities h)

theorem of_makesNone (hids : TableIds s) (h : MakesNone s s') : Advance call s s' none := by
  obtain ⟨hsockets, hnext⟩ := h
  refine ⟨fun id socket hsocket => ⟨socket, hsockets ▸ hsocket, .refl call id socket⟩, fun id socket' hnone hsome => ?_,
    fun id hmade => (nomatch hmade), fun id hne hle => ?_⟩
  · rw [hsockets, hnone] at hsome
    nomatch hsome
  · rw [hsockets]
    rcases hnext with hkept | ⟨hleft, hbump⟩
    · rw [hkept] at hne hle
      exact hids.unused id hne hle
    · rw [hbump] at hne hle
      exact hids.unused id hleft (le_trans (le_of_lt (bumpId_lt hne)) hle)

theorem of_puts {socket socket' : GuestSocket} (hids : TableIds s) (hsocket : s.table.sockets.get? id = some socket)
    (hputs : Puts s s' id socket') (hadvances : socket.Advances call id socket') : Advance call s s' none := by
  obtain ⟨hsockets, hnext⟩ := Prod.mk.inj hputs
  have hget : ∀ i, s'.table.sockets.get? i = if i = id then some socket' else s.table.sockets.get? i := by
    intro i
    rw [hsockets, SortedMap.get?_insert]
  refine ⟨fun i found hfound => ?_, fun i found hnone hsome => ?_, fun i hmade => (nomatch hmade), fun i hne hle => ?_⟩
  · rw [hget]
    split
    · rename_i hi
      rw [hi, hsocket] at hfound
      obtain rfl := Option.some.inj hfound
      exact ⟨socket', rfl, hi ▸ hadvances⟩
    · exact ⟨found, hfound, .refl call i found⟩
  · rw [hget] at hsome
    split at hsome
    · rename_i hi
      rw [hi, hsocket] at hnone
      nomatch hnone
    · rw [hnone] at hsome
      nomatch hsome
  · rw [hnext] at hne hle
    have hunused := hids.unused i hne hle
    rw [hget, if_neg]
    · exact hunused
    · rintro rfl
      nomatch hunused.symm.trans hsocket

theorem of_makes {state : SocketState} (hids : TableIds s) (h : Makes s s' id state) (hgives : call.Gives state) :
    Advance call s s' (some id) := by
  obtain ⟨socket, hput, hid, hstate, _⟩ := h.put
  obtain ⟨hsockets, hnext⟩ := Prod.mk.inj hput
  have hget : ∀ i, s'.table.sockets.get? i = if i = id then some socket else s.table.sockets.get? i := by
    intro i
    rw [hsockets, SortedMap.get?_insert]
  have hunused : s.table.sockets.get? id = none := hids.unused id h.left (le_of_eq h.next.symm)
  refine ⟨fun i found hfound => ?_, fun i found hnone hsome => ?_, fun i hmade => ?_, fun i hne hle => ?_⟩
  · have hi : i ≠ id := by
      rintro rfl
      nomatch hunused.symm.trans hfound
    rw [hget, if_neg hi]
    exact ⟨found, hfound, .refl call i found⟩
  · rw [hget] at hsome
    split at hsome
    · rename_i hi
      obtain rfl := Option.some.inj hsome
      exact ⟨congrArg some hi.symm, hid.trans hi.symm, hstate ▸ hgives⟩
    · rw [hnone] at hsome
      nomatch hsome
  · obtain rfl := Option.some.inj hmade
    exact ⟨hunused, socket, by rw [hget, if_pos rfl]⟩
  · rw [hnext] at hne hle
    have hlt : s.table.nextId < i := lt_of_lt_of_le (bumpId_lt hne) hle
    rw [hget, if_neg (ne_of_gt (h.next ▸ hlt))]
    exact hids.unused i h.left (le_of_lt hlt)

end Advance

/-! ### Every call -/

theorem wp_noSocket {α : Type} {m : TableProg σ ω α} {Q : Option SocketId → NetState σ ω → Prop}
    {E : SocketError → NetState σ ω → Prop} :
    Prog.wp (noSocket m) Q E s ↔ Prog.wp m (fun _ s' => Q none s') E s := by
  rw [noSocket, Prog.wp_bind]
  simp only [Prog.wp_pure]

theorem noSocket_error {α : Type} {m : TableProg σ ω α} {s : NetState σ ω} {error : SocketError}
    (h : (m s).1 = .error error) : (noSocket m s).1 = .error error :=
  congrArg Prod.fst (Prog.run_bind_error (Prog.run_eq h))

theorem noSocket_state {α : Type} (m : TableProg σ ω α) (s : NetState σ ω) : (noSocket m s).2 = (m s).2 := by
  simp only [noSocket, Bind.bind]
  rcases m s with ⟨_ | _, _⟩ <;> rfl

theorem Advance.of_settling {α : Type} {call : SocketCall σ} {m : TableProg σ ω α} (hids : TableIds s)
    (h : Along Settles m) :
    Prog.wp (noSocket m) (fun made s' => Advance call s s' made) (fun _ s' => Advance call s s' none) s := by
  rw [wp_noSocket]
  exact Prog.wp_mono (h.wp s) (fun _ _ h => .of_settles hids h) fun _ _ h => .of_settles hids h

namespace SocketCall

theorem exec_advances (call : SocketCall σ) (hids : TableIds s) : Prog.wp (call.exec host methods)
    (fun made s' => Advance call s s' made) (fun _ s' => Advance call s s' none) s := by
  have hfailed : ∀ (_ : SocketError) (s' : NetState σ ω), identities s' = identities s → Advance call s s' none :=
    fun _ _ => .of_identities hids
  cases call with
  | createSocket spec =>
      rw [exec, Prog.wp_bind]
      refine Prog.wp_mono (createSocketFromSpec_makes spec) (fun id s' h => ?_) fun _ _ h => .of_makesNone hids h
      exact (Prog.wp_pure _).mpr (.of_makes hids h rfl)
  | createSocketWithHandle spec handle =>
      rw [exec, Prog.wp_bind]
      refine Prog.wp_mono (createSocketWithHandle_makes spec handle) (fun id s' h => ?_) fun _ _ h =>
        .of_makesNone hids h
      exact (Prog.wp_pure _).mpr (.of_makes hids h rfl)
  | accept id =>
      rw [exec, Prog.wp_bind]
      refine Prog.wp_mono accept_makes (fun accepted s' h => ?_) fun _ _ h => .of_makesNone hids h
      obtain ⟨localAddress, peer, hmakes⟩ := h
      exact (Prog.wp_pure _).mpr (.of_makes hids hmakes ⟨localAddress, peer, rfl⟩)
  | setOption id option value =>
      rw [exec, wp_noSocket]
      refine Prog.wp_mono (setOption_spec option value) (fun _ s' h => ?_) hfailed
      obtain ⟨socket, options, hsocket, hputs⟩ := h
      exact .of_puts hids hsocket hputs ⟨rfl, .refl _, Or.inl rfl⟩
  | bind id address =>
      rw [exec, wp_noSocket]
      refine Prog.wp_mono (bind_spec address) (fun _ s' h => ?_) hfailed
      obtain ⟨socket, bound, hsocket, hcreated, hputs⟩ := h
      refine .of_puts hids hsocket hputs ⟨rfl, .refl _, Or.inr ?_⟩
      rw [hcreated]
      exact .bound id address bound
  | listen id backlog =>
      rw [exec, wp_noSocket]
      refine Prog.wp_mono (listen_spec backlog) (fun _ s' h => ?_) hfailed
      obtain ⟨socket, address, hsocket, ⟨hbound, hputs⟩ | hkept⟩ := h
      · refine .of_puts hids hsocket hputs ⟨rfl, .refl _, Or.inr ?_⟩
        rw [hbound]
        exact .listening id backlog address
      · exact .of_identities hids hkept
  | setNonblocking id nonblocking =>
      rw [exec, wp_noSocket]
      refine Prog.wp_mono (setNonblocking_spec nonblocking) (fun _ s' h => ?_) hfailed
      obtain ⟨socket, hsocket, hputs | hkept⟩ := h
      · exact .of_puts hids hsocket hputs ⟨rfl, .refl _, Or.inl rfl⟩
      · exact .of_identities hids hkept
  | connect id address =>
      rw [exec, wp_noSocket]
      refine Prog.wp_mono (connect_spec address) (fun _ s' h => ?_) fun _ s' h => ?_
      · obtain ⟨socket, localAddress, peer, hsocket, hfrom, hputs⟩ := h
        exact .of_puts hids hsocket hputs ⟨rfl, .refl _, Or.inr (.connected id address hfrom localAddress peer)⟩
      · rcases h with hkept | ⟨_, socket, hsocket, hwaits, hputs⟩
        · exact .of_identities hids hkept
        · exact .of_puts hids hsocket hputs ⟨rfl, .refl _, Or.inr (.connecting id address hwaits.state)⟩
  | shutdown id how =>
      rw [exec, wp_noSocket]
      refine Prog.wp_mono (shutdown_spec how) (fun _ s' h => ?_) hfailed
      obtain ⟨socket, hsocket, hputs⟩ := h
      exact .of_puts hids hsocket hputs ⟨rfl, socket.shutdown.apply_grows how, Or.inl rfl⟩
  | close id =>
      rw [exec, wp_noSocket]
      refine Prog.wp_mono close_spec (fun _ s' h => ?_) hfailed
      obtain ⟨socket, hsocket, hopen, hputs⟩ := h
      exact .of_puts hids hsocket hputs ⟨rfl, ⟨fun _ => rfl, fun _ => rfl⟩, Or.inr (.closed id hopen)⟩
  | getOption id option => exact Advance.of_settling hids getOption_settles
  | localAddress | peerAddress => exact Advance.of_settling hids addressOf_settles
  | sendConnected | sendConnectedVectored => exact Advance.of_settling hids sendWith_settles
  | recvConnected | recvConnectedVectored => exact Advance.of_settling hids (receiveWith_settles (.pure ()))
  | sendTo | sendToVectored => exact Advance.of_settling hids sendToWith_settles
  | recvFrom | recvFromVectored => exact Advance.of_settling hids (receiveWith_settles ensureHostEntry_keeps)
  | poll => exact Advance.of_settling hids poll_settles
  | pollMany => exact Advance.of_settling hids pollMany_settles
  | requireConnectedStream =>
      exact Advance.of_settling hids (.bind (along_of_keeps getSocket_keeps) fun _ => .ofExcept _)
  | rioCapability =>
      exact Advance.of_settling hids (.bind (along_of_keeps ensureHostEntry_keeps) fun _ => along_of_keeps withHandle_keeps)

def made (host : HostNet σ ω) (methods : HandleMethods σ ω ρ) (s : NetState σ ω) (call : SocketCall σ) :
    Option SocketId :=
  match (call.exec host methods s).1 with
  | .ok made => made
  | .error _ => none

theorem exec_advance (call : SocketCall σ) (hids : TableIds s) :
    Advance call s (call.exec host methods s).2 (call.made host methods s) := by
  have hadvances : Prog.wp (call.exec host methods) (fun made s' => Advance call s s' made)
      (fun _ s' => Advance call s s' none) s := call.exec_advances hids
  unfold made
  rcases hrun : call.exec host methods s with ⟨_ | made, s'⟩
  · have hfailed := Prog.wp_error hadvances hrun
    exact hfailed
  · have hmakes := Prog.wp_ok hadvances hrun
    exact hmakes

/-! ### One call -/

def SetsUp : SocketCall σ → Prop
  | bind _ _ | listen _ _ | connect _ _ | accept _ | setNonblocking _ _ => True
  | _ => False

/-- A connect that the host has not answered yet, on a socket that does not wait for it. -/
def InProgress (s : NetState σ ω) (call : SocketCall σ) (error : SocketError) : Prop :=
  error.linuxErrno = .operationInProgress ∧ ∃ id address socket, call = .connect id address ∧
    s.table.sockets.get? id = some socket ∧ socket.flags.nonblocking = true

structure Holds (host : HostNet σ ω) (methods : HandleMethods σ ω ρ) (s : NetState σ ω) (call : SocketCall σ) :
    Prop where
  fresh : ∀ id, call.made host methods s = some id → s.table.sockets.get? id = none
  closed : ∀ id socket, IsClosed s id socket → ∃ socket', IsClosed (call.exec host methods s).2 id socket'
  refused : ∀ id socket, IsClosed s id socket → call.target = some id →
    (call.exec host methods s).1 = .error (.badSocket id)
  refusedMany : ∀ id socket before interest after timeout, IsClosed s id socket →
    call = .pollMany (before ++ (id, interest) :: after) timeout →
      (call.exec host methods s).1 = .error (.badSocket id) ∨
        ∃ error, (Prog.collect before (placeRequest host) s).1 = .error error ∧
          (call.exec host methods s).1 = .error error
  shutdown : ∀ id socket, s.table.sockets.get? id = some socket → ∃ socket',
    (call.exec host methods s).2.table.sockets.get? id = some socket' ∧ socket.shutdown.Grows socket'.shutdown
  listening : ∀ id socket' address, (call.exec host methods s).2.table.sockets.get? id = some socket' →
    socket'.state = .listening address → ∃ socket, s.table.sockets.get? id = some socket ∧
      (socket.state = .listening address ∨ ∃ address', socket.state = .bound address')
  connected : ∀ id socket' localAddress peer, (call.exec host methods s).2.table.sockets.get? id = some socket' →
    socket'.state = .connected localAddress peer →
      (∃ socket, s.table.sockets.get? id = some socket ∧ (socket.state = .connected localAddress peer ∨
        (∃ address, call = .connect id address) ∨ ∃ address, socket.state = .connecting address)) ∨
      ∃ listener, call = .accept listener ∧ call.made host methods s = some id
  failed : ∀ error, (call.exec host methods s).1 = .error error → call.SetsUp →
    (call.exec host methods s).2.table.sockets = s.table.sockets ∨ InProgress s call error
  connecting : ∀ id address socket' address', call = .connect id address →
    (call.exec host methods s).2.table.sockets.get? id = some socket' → socket'.flags.nonblocking = false →
      socket'.state ≠ .connecting address'

/-- A call on a closed socket gets to look at the state, and a connect of a socket that waits for it neither finds a
connect in progress nor is left waiting by the host transport. -/
structure Meets (host : HostNet σ ω) (s : NetState σ ω) (call : SocketCall σ) : Prop where
  looks : ∀ id socket, IsClosed s id socket → call.target = some id → call.LooksAt socket
  answered : ∀ id address socket, call = .connect id address → s.table.sockets.get? id = some socket →
    socket.flags.nonblocking = false →
      (∀ address', socket.state ≠ .connecting address') ∧ ¬ConnectWaits host s id address socket

theorem exec_fails {call : SocketCall σ} (hcall : call.SetsUp)
    (hwaits : ∀ id address socket, call = .connect id address → s.table.sockets.get? id = some socket →
      socket.flags.nonblocking = false → ¬ConnectWaits host s id address socket) :
    Prog.wp (call.exec host methods) (fun _ _ => True)
      (fun error s' => s'.table.sockets = s.table.sockets ∨ InProgress s call error) s := by
  have hkept : ∀ (error : SocketError) (s' : NetState σ ω), identities s' = identities s →
      s'.table.sockets = s.table.sockets ∨ InProgress s call error :=
    fun _ _ h => Or.inl (congrArg Prod.fst h)
  cases call with
  | bind id address => exact wp_noSocket.mpr (Prog.wp_mono (bind_spec address) (fun _ _ _ => trivial) hkept)
  | listen id backlog => exact wp_noSocket.mpr (Prog.wp_mono (listen_spec backlog) (fun _ _ _ => trivial) hkept)
  | setNonblocking id nonblocking =>
      exact wp_noSocket.mpr (Prog.wp_mono (setNonblocking_spec nonblocking) (fun _ _ _ => trivial) hkept)
  | accept id =>
      rw [exec, Prog.wp_bind]
      refine Prog.wp_mono accept_makes (fun _ _ _ => ?_) fun _ _ h => Or.inl h.1
      rw [Prog.wp_pure]
      trivial
  | connect id address =>
      refine wp_noSocket.mpr (Prog.wp_mono (connect_spec address) (fun _ _ _ => trivial) fun error s' h => ?_)
      rcases h with h | ⟨herrno, socket, hsocket, hwaiting, _⟩
      · exact hkept error s' h
      · refine Or.inr ⟨herrno, id, address, socket, rfl, hsocket, ?_⟩
        cases hflag : socket.flags.nonblocking with
        | true => rfl
        | false => exact absurd hwaiting (hwaits id address socket rfl hsocket hflag)
  | _ => exact hcall.elim

theorem holds {call : SocketCall σ} (hids : TableIds s) (hmeets : call.Meets host s) :
    call.Holds host methods s := by
  have hstep : Advance call s (call.exec host methods s).2 (call.made host methods s) := call.exec_advance hids
  refine ⟨fun id hmade => (hstep.made id hmade).1, fun id socket hclosed => ?_, fun id socket hclosed htarget => ?_,
    fun id socket before interest after timeout hclosed hcall => ?_, fun id socket hsocket => ?_,
    fun id socket' address hsocket' hstate => ?_, fun id socket' localAddress peer hsocket' hstate => ?_,
    fun error hresult hcall => ?_, fun id address socket' address' hcall hsocket' hflag => ?_⟩
  · obtain ⟨socket', hsocket', hadvances⟩ := hstep.socket id socket hclosed.1
    exact ⟨socket', hsocket', hadvances.closed hclosed.2⟩
  · exact congrArg Prod.fst
      (exec_closed hclosed (hids.own id socket hclosed.1) htarget (hmeets.looks id socket hclosed htarget))
  · subst hcall
    rcases pollMany_closed hclosed with hrefused | ⟨error, hbefore, hall⟩
    · exact Or.inl (noSocket_error hrefused)
    · exact Or.inr ⟨error, hbefore, noSocket_error hall⟩
  · obtain ⟨socket', hsocket', hadvances⟩ := hstep.socket id socket hsocket
    exact ⟨socket', hsocket', hadvances.shutdown⟩
  · cases hsocket : s.table.sockets.get? id with
    | none =>
        obtain ⟨_, _, hgives⟩ := hstep.fresh id socket' hsocket hsocket'
        exact absurd hstate (hgives.not_listening address)
    | some socket =>
        obtain ⟨found, hfound, hadvances⟩ := hstep.socket id socket hsocket
        obtain rfl := Option.some.inj (hsocket'.symm.trans hfound)
        exact ⟨socket, rfl, hadvances.listening hstate⟩
  · cases hsocket : s.table.sockets.get? id with
    | none =>
        obtain ⟨hmade, _, hgives⟩ := hstep.fresh id socket' hsocket hsocket'
        rw [hstate] at hgives
        obtain ⟨listener, hcall⟩ := hgives.accepts
        exact Or.inr ⟨listener, hcall, hmade⟩
    | some socket =>
        obtain ⟨found, hfound, hadvances⟩ := hstep.socket id socket hsocket
        obtain rfl := Option.some.inj (hsocket'.symm.trans hfound)
        exact Or.inl ⟨socket, rfl, hadvances.connected hstate⟩
  · have hfails : Prog.wp (call.exec host methods) (fun _ _ => True)
        (fun error s' => s'.table.sockets = s.table.sockets ∨ InProgress s call error) s :=
      exec_fails hcall fun id address socket hconnect hsocket hflag =>
        (hmeets.answered id address socket hconnect hsocket hflag).2
    have hfailed := Prog.wp_error hfails (Prog.run_eq hresult)
    exact hfailed
  · subst hcall
    have hafter : (exec host methods (.connect id address) s).2 = (Net.connect host id address s).2 :=
      noSocket_state _ _
    rw [hafter] at hsocket'
    exact connect_settled (fun socket => hmeets.answered id address socket rfl) socket' hsocket' hflag address'

/-! ### Runs -/

def run (host : HostNet σ ω) (methods : HandleMethods σ ω ρ) (s : NetState σ ω) (calls : List (SocketCall σ)) :
    NetState σ ω :=
  calls.foldl (fun s call => (call.exec host methods s).2) s

/-- The identities a run hands out, in order. -/
def issued (host : HostNet σ ω) (methods : HandleMethods σ ω ρ) : NetState σ ω → List (SocketCall σ) → List SocketId
  | _, [] => []
  | s, call :: rest => (call.made host methods s).toList ++ issued host methods (call.exec host methods s).2 rest

def AllMeet (host : HostNet σ ω) (methods : HandleMethods σ ω ρ) : NetState σ ω → List (SocketCall σ) → Prop
  | _, [] => True
  | s, call :: rest => call.Meets host s ∧ AllMeet host methods (call.exec host methods s).2 rest

theorem run_ids {calls : List (SocketCall σ)} : ∀ {s : NetState σ ω}, TableIds s →
    TableIds (run host methods s calls) := by
  induction calls with
  | nil => exact fun h => h
  | cons call rest ih => exact fun h => ih ((call.exec_advance h).ids h)

theorem AllMeet.meets {before : List (SocketCall σ)} {call : SocketCall σ} {after : List (SocketCall σ)} :
    ∀ {s : NetState σ ω}, AllMeet host methods s (before ++ call :: after) →
      call.Meets host (run host methods s before) := by
  induction before with
  | nil => exact fun h => h.1
  | cons first rest ih => exact fun h => ih h.2

theorem issued_fresh {calls : List (SocketCall σ)} : ∀ {s : NetState σ ω}, TableIds s →
    ∀ id ∈ issued host methods s calls, s.table.sockets.get? id = none := by
  induction calls with
  | nil => exact fun _ _ hid => nomatch hid
  | cons call rest ih =>
      intro s hids id hid
      have hstep : Advance call s (call.exec host methods s).2 (call.made host methods s) := call.exec_advance hids
      rcases List.mem_append.mp hid with hmade | hlater
      · exact (hstep.made id (Option.mem_toList.mp hmade)).1
      · have hnone := ih (hstep.ids hids) id hlater
        cases hsocket : s.table.sockets.get? id with
        | none => rfl
        | some socket =>
            obtain ⟨socket', hsocket', _⟩ := hstep.socket id socket hsocket
            nomatch hnone.symm.trans hsocket'

theorem issued_nodup {calls : List (SocketCall σ)} : ∀ {s : NetState σ ω}, TableIds s →
    (issued host methods s calls).Nodup := by
  induction calls with
  | nil => exact fun _ => .nil
  | cons call rest ih =>
      intro s hids
      have hstep : Advance call s (call.exec host methods s).2 (call.made host methods s) := call.exec_advance hids
      refine List.nodup_append.mpr ⟨?_, ih (hstep.ids hids), fun id hmade other hlater => ?_⟩
      · cases call.made host methods s with
        | none => exact .nil
        | some id => exact List.nodup_singleton id
      · rintro rfl
        obtain ⟨_, socket', hsocket'⟩ := hstep.made id (Option.mem_toList.mp hmade)
        nomatch (issued_fresh (hstep.ids hids) id hlater).symm.trans hsocket'

end SocketCall

theorem start_ids (transport : Bool) (w : ω) : TableIds (NetState.start transport w : NetState σ ω) :=
  ⟨fun _ _ h => (nomatch h), fun _ _ _ => rfl⟩

/-- Sends that take everything. -/
def listenerMethods : HandleMethods Unit ListenerWorld Unit where
  send bytes := pure bytes.length
  sendVectored buffers := pure (buffers.map List.length).sum
  sendTo bytes _ := pure bytes.length
  sendToVectored buffers _ := pure (buffers.map List.length).sum
  rioCapability := pure ()

def connectorCalls (nonblocking : Bool) : List (SocketCall Unit) :=
  [.createSocket ⟨.inet, .stream, .tcp, ⟨nonblocking, false⟩⟩, .connect 1 (.inet 1 9), .close 1, .close 1]

end Mcr.Net
