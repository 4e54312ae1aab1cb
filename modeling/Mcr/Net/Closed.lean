import Mcr.Net.Settling

/-!
# Calls on closed sockets

A closed socket stays in the table, and a call on it is refused as a bad socket where the call gets to look at the
state. Some calls never look, and some check the family, the type or the protocol of the socket first.
-/

namespace Mcr.Net

variable {σ ω ρ : Type} {host : HostNet σ ω} {methods : HandleMethods σ ω ρ} {s s' : NetState σ ω} {id : SocketId}

def IsClosed (s : NetState σ ω) (id : SocketId) (socket : GuestSocket) : Prop :=
  s.table.sockets.get? id = some socket ∧ socket.state = .closed

theorem GuestSocket.Settles.closed {socket socket' : GuestSocket} (h : socket.Settles socket')
    (hclosed : socket.state = .closed) : socket'.state = .closed := by
  rcases h.state with hkept | hfinishes
  · exact hkept.trans hclosed
  · rw [hclosed] at hfinishes
    nomatch hfinishes

/-- A call that stops with one error and changes nothing. -/
def StopsWith {α : Type} (m : TableProg σ ω α) (s : NetState σ ω) (error : SocketError) : Prop :=
  m s = (.error error, s)

namespace StopsWith

variable {α β : Type} {error : SocketError}

theorem found {socket : GuestSocket} {f : GuestSocket → TableProg σ ω α}
    (hsocket : s.table.sockets.get? id = some socket) (h : StopsWith (f socket) s error) :
    StopsWith (getSocket id >>= f) s error := by
  have hget : getSocket id s = (.ok socket, s) := by
    simp only [getSocket, Bind.bind, Prog.get, hsocket]
    rfl
  rw [StopsWith, Prog.run_bind_ok hget]
  exact h

theorem passed {x : Except SocketError β} {b : β} {f : β → TableProg σ ω α} (hx : x = .ok b)
    (h : StopsWith (f b) s error) : StopsWith (Prog.ofExcept x >>= f) s error := by
  rw [hx]
  exact h

theorem checked {x : Except SocketError β} {f : β → TableProg σ ω α} (hx : x = .error error) :
    StopsWith (Prog.ofExcept x >>= f) s error := by
  rw [hx]
  rfl

theorem bind {m : TableProg σ ω β} {f : β → TableProg σ ω α} (h : StopsWith m s error) :
    StopsWith (m >>= f) s error := Prog.run_bind_error h

theorem when_first {c : Prop} [Decidable c] {m n : TableProg σ ω α} (hc : c) (h : StopsWith m s error) :
    StopsWith (if c then m else n) s error := by
  rw [if_pos hc]
  exact h

theorem otherwise {c : Prop} [Decidable c] {m n : TableProg σ ω α} (hc : ¬c) (h : StopsWith n s error) :
    StopsWith (if c then m else n) s error := by
  rw [if_neg hc]
  exact h

theorem thrown : StopsWith (Prog.throw error : TableProg σ ω α) s error := rfl

end StopsWith

variable {socket : GuestSocket}

/-! ### Calls that change the state -/

theorem bind_closed (h : IsClosed s id socket) {address : SocketAddress} (hdomain : socket.domain = address.domain) :
    StopsWith (bind host id address) s (.badSocket id) := by
  refine .found h.1 (.passed (if_pos hdomain) ?_)
  rw [socketUsesHostTransportWhen, h.2]
  exact .thrown

theorem listen_closed (h : IsClosed s id socket) {backlog : Nat} (htype : socket.socketType = .stream) :
    StopsWith (listen host id backlog) s (.badSocket id) := by
  refine .found h.1 (.otherwise (not_not.mpr htype) ?_)
  rw [h.2]
  exact .thrown

theorem connect_closed (h : IsClosed s id socket) {address : SocketAddress}
    (hdomain : socket.domain = address.domain) : StopsWith (connect host id address) s (.badSocket id) := by
  refine .found h.1 (.passed (if_pos hdomain) (.checked ?_))
  rw [validateConnect, h.2]

theorem accept_closed (h : IsClosed s id socket) : StopsWith (accept host id) s (.badSocket id) := by
  refine .bind (.found h.1 ?_)
  rw [h.2]
  exact .thrown

theorem shutdown_closed (h : IsClosed s id socket) {how : ShutdownHow} :
    StopsWith (shutdown host id how) s (.badSocket id) := by
  refine .found h.1 ?_
  rw [h.2]
  exact .thrown

theorem close_closed (h : IsClosed s id socket) : StopsWith (close host id) s (.badSocket id) :=
  .found h.1 (.when_first h.2 .thrown)

/-! ### Transfers -/

def GuestSocket.IsTcp (socket : GuestSocket) : Prop := socket.socketType = .stream ∧ socket.effectiveProtocol = .tcp

def GuestSocket.IsUdp (socket : GuestSocket) : Prop := socket.socketType = .datagram ∧ socket.effectiveProtocol = .udp

theorem validateConnectedStreamIo_closed (h : socket.state = .closed) (htcp : socket.IsTcp) (operation : SocketOperation) :
    validateConnectedStreamIo socket operation = .error (.badSocket socket.id) := by
  have hsupported : ¬(socket.socketType ≠ .stream ∨ socket.effectiveProtocol ≠ .tcp) :=
    not_or.mpr ⟨not_not.mpr htcp.1, not_not.mpr htcp.2⟩
  rw [validateConnectedStreamIo, if_neg hsupported, h]

theorem validateDatagramIo_closed (h : socket.state = .closed) (hudp : socket.IsUdp) (operation : SocketOperation) :
    validateDatagramIo socket operation = .error (.badSocket socket.id) := by
  have hsupported : ¬(socket.socketType ≠ .datagram ∨ socket.effectiveProtocol ≠ .udp) :=
    not_or.mpr ⟨not_not.mpr hudp.1, not_not.mpr hudp.2⟩
  rw [validateDatagramIo, if_neg hsupported, h]

theorem validateConnectedIo_closed (h : socket.state = .closed) (hio : socket.IsTcp ∨ socket.IsUdp)
    (operation : SocketOperation) : validateConnectedIo socket operation = .error (.badSocket socket.id) := by
  unfold validateConnectedIo
  rcases hio with htcp | hudp
  · have hstream : socket.socketType = .stream ∧ socket.effectiveProtocol = .tcp := htcp
    rw [if_pos hstream]
    exact validateConnectedStreamIo_closed h htcp operation
  · have hdatagram : ¬(socket.socketType = .stream ∧ socket.effectiveProtocol = .tcp) := by
      rintro ⟨hstream, _⟩
      rw [hudp.1] at hstream
      nomatch hstream
    have hsupported : ¬(socket.socketType ≠ .datagram ∨ socket.effectiveProtocol ≠ .udp) :=
      not_or.mpr ⟨not_not.mpr hudp.1, not_not.mpr hudp.2⟩
    rw [if_neg hdatagram, if_neg hsupported, h]

theorem requireConnectedStream_closed (h : IsClosed s socket.id socket) (htcp : socket.IsTcp) :
    StopsWith (requireConnectedStream socket.id : TableProg σ ω Unit) s (.badSocket socket.id) := by
  refine .found h.1 ?_
  rw [validateConnectedStreamIo_closed h.2 htcp]
  exact .thrown

theorem receiveWith_closed {α : Type} (h : IsClosed s id socket) {operation : SocketOperation}
    {validate : GuestSocket → SocketOperation → Except SocketError Unit} {prepare : TableProg σ ω Unit}
    {method : HandleProg σ ω α} (hvalidate : validate socket operation = .error (.badSocket id)) :
    StopsWith (receiveWith id operation validate prepare method) s (.badSocket id) :=
  .found h.1 (.checked hvalidate)

theorem sendWith_closed (h : IsClosed s id socket) {operation : SocketOperation} {method : HandleProg σ ω Nat}
    (hvalidate : validateConnectedIo socket operation = .error (.badSocket id)) :
    StopsWith (sendWith id operation method) s (.badSocket id) :=
  .found h.1 (.checked hvalidate)

theorem sendToWith_closed (h : IsClosed s id socket) {operation : SocketOperation} {address : SocketAddress}
    {method : HandleProg σ ω Nat} (hdomain : socket.domain = address.domain)
    (hvalidate : validateDatagramIo socket operation = .error (.badSocket id)) :
    StopsWith (sendToWith host id operation address method) s (.badSocket id) :=
  .found h.1 (.passed (if_pos hdomain) (.checked hvalidate))

/-! ### Polls -/

theorem requireOpen_closed (h : IsClosed s id socket) :
    StopsWith (requireOpen id : TableProg σ ω Unit) s (.badSocket id) :=
  .found h.1 (.when_first h.2 .thrown)

theorem poll_closed (h : IsClosed s id socket) {interest : SocketEvents} {timeout : Option Nat} :
    StopsWith (poll host id interest timeout) s (.badSocket id) := .bind (requireOpen_closed h)

theorem collect_closed (host : HostNet σ ω) (interest : SocketEvents)
    (before after : List (SocketId × SocketEvents)) :
    ∀ {s : NetState σ ω} {socket : GuestSocket}, IsClosed s id socket →
      (Prog.collect (before ++ (id, interest) :: after) (placeRequest host) s).1 = .error (.badSocket id) ∨
        ∃ error, (Prog.collect before (placeRequest host) s).1 = .error error ∧
          (Prog.collect (before ++ (id, interest) :: after) (placeRequest host) s).1 = .error error := by
  induction before with
  | nil =>
      intro s socket h
      have hplace : StopsWith (placeRequest host (id, interest)) s (.badSocket id) := .bind (requireOpen_closed h)
      left
      rw [List.nil_append, Prog.collect, Prog.run_bind_error hplace]
  | cons request rest ih =>
      intro s socket h
      rw [List.cons_append, Prog.collect, Prog.collect]
      rcases hplace : placeRequest host request s with ⟨_ | slot, t⟩
      · rename_i error
        rw [Prog.run_bind_error hplace, Prog.run_bind_error hplace]
        exact Or.inr ⟨error, rfl, rfl⟩
      · have hsettles : Settles s t := by
          have hstep : Settles s (placeRequest host request s).2 := placeRequest_settles s
          rwa [hplace] at hstep
        obtain ⟨socket', hsocket', hkept⟩ := hsettles.socket id socket h.1
        rw [Prog.run_bind_ok hplace, Prog.run_bind_ok hplace]
        rcases ih ⟨hsocket', hkept.closed h.2⟩ with hrefused | ⟨error, hbefore, hall⟩
        · left
          rw [Prog.run_bind_error (Prog.run_eq hrefused)]
        · right
          refine ⟨error, ?_, ?_⟩
          · rw [Prog.run_bind_error (Prog.run_eq hbefore)]
          · rw [Prog.run_bind_error (Prog.run_eq hall)]

theorem pollMany_closed (h : IsClosed s id socket) {before after : List (SocketId × SocketEvents)}
    {interest : SocketEvents} {timeout : Option Nat} :
    (pollMany host (before ++ (id, interest) :: after) timeout s).1 = .error (.badSocket id) ∨
      ∃ error, (Prog.collect before (placeRequest host) s).1 = .error error ∧
        (pollMany host (before ++ (id, interest) :: after) timeout s).1 = .error error := by
  unfold pollMany
  rcases collect_closed host interest before after h with hrefused | ⟨error, hbefore, hall⟩
  · left
    rw [Prog.run_bind_error (Prog.run_eq hrefused)]
  · right
    refine ⟨error, hbefore, ?_⟩
    rw [Prog.run_bind_error (Prog.run_eq hall)]

/-! ### Every call -/

namespace SocketCall

/-- The socket a call is on; `poll_many` asks about several. -/
def target : SocketCall σ → Option SocketId
  | createSocket _ | createSocketWithHandle _ _ | pollMany _ _ => none
  | getOption id _ | setOption id _ _ | localAddress id | peerAddress id | bind id _ | listen id _
  | setNonblocking id _ | connect id _ | accept id | shutdown id _ | sendConnected id _
  | sendConnectedVectored id _ | recvConnected id _ | recvConnectedVectored id _ | sendTo id _ _
  | sendToVectored id _ _ | recvFrom id _ | recvFromVectored id _ | poll id _ _ | requireConnectedStream id
  | rioCapability id | close id => some id

/-- Nothing but its state can stop the call before the state is looked at. -/
def LooksAt (socket : GuestSocket) : SocketCall σ → Prop
  | getOption _ _ | setOption _ _ _ | localAddress _ | peerAddress _ | setNonblocking _ _ | rioCapability _ => False
  | bind _ address | connect _ address => socket.domain = address.domain
  | listen _ _ => socket.socketType = .stream
  | sendConnected _ _ | sendConnectedVectored _ _ | recvConnected _ _ | recvConnectedVectored _ _ =>
    socket.IsTcp ∨ socket.IsUdp
  | sendTo _ _ address | sendToVectored _ _ address => socket.domain = address.domain ∧ socket.IsUdp
  | recvFrom _ _ | recvFromVectored _ _ => socket.IsUdp
  | requireConnectedStream _ => socket.IsTcp
  | _ => True

theorem noSocket_closed {α : Type} {m : TableProg σ ω α} {error : SocketError} (h : StopsWith m s error) :
    StopsWith (noSocket m) s error := h.bind

theorem exec_closed {call : SocketCall σ} (h : IsClosed s id socket) (hid : socket.id = id)
    (htarget : call.target = some id) (hlooks : call.LooksAt socket) :
    StopsWith (call.exec host methods) s (.badSocket id) := by
  subst hid
  cases call with
  | createSocket | createSocketWithHandle | pollMany => nomatch htarget
  | getOption | setOption | localAddress | peerAddress | setNonblocking | rioCapability => exact hlooks.elim
  | bind => cases htarget; exact noSocket_closed (bind_closed h hlooks)
  | listen => cases htarget; exact noSocket_closed (listen_closed h hlooks)
  | connect => cases htarget; exact noSocket_closed (connect_closed h hlooks)
  | accept => cases htarget; exact (accept_closed h).bind
  | shutdown => cases htarget; exact noSocket_closed (shutdown_closed h)
  | sendConnected | sendConnectedVectored =>
      cases htarget
      exact noSocket_closed (sendWith_closed h (validateConnectedIo_closed h.2 hlooks _))
  | recvConnected | recvConnectedVectored =>
      cases htarget
      exact noSocket_closed (receiveWith_closed h (validateConnectedIo_closed h.2 hlooks _))
  | sendTo | sendToVectored =>
      cases htarget
      exact noSocket_closed (sendToWith_closed h hlooks.1 (validateDatagramIo_closed h.2 hlooks.2 _))
  | recvFrom | recvFromVectored =>
      cases htarget
      exact noSocket_closed (receiveWith_closed h (validateDatagramIo_closed h.2 hlooks _))
  | poll => cases htarget; exact noSocket_closed (poll_closed h)
  | requireConnectedStream =>
      cases htarget
      exact noSocket_closed (requireConnectedStream_closed h hlooks)
  | close => cases htarget; exact noSocket_closed (close_closed h)

end SocketCall

end Mcr.Net
