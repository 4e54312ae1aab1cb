import Mcr.Net.Types

/-!
# The host network stack

Everything the transport asks of Winsock and of a completion port, as one record of programs over the
host's own state `ω`. A host socket is an element of `σ`; its completion port is addressed through it,
because every socket is opened with a port of its own. Nothing is assumed here about the answers.
-/

namespace Mcr.Net

/-- A completion packet. The error is what `windows_error` makes of its code, and the bytes are those the
kernel left in the buffer of the operation. -/
structure HostIoCompletionPacket where
  overlapped : Nat
  error : Option HostError
  bytes : List UInt8
deriving DecidableEq, Repr

inductive HostSocketIoDirection
  | receive | send
deriving DecidableEq, Repr

/-- `HostError::invalid_input` of the operation behind the direction. -/
def HostError.invalidInput : HostSocketIoDirection → HostError
  | .receive => ⟨.invalidInput, "receive socket failed: invalid input"⟩
  | .send => ⟨.invalidInput, "send socket failed: invalid input"⟩

structure PendingHostSocketIo where
  direction : HostSocketIoDirection
  bufferLen : Nat
  overlappedToken : Nat
deriving DecidableEq, Repr

/-- The transferred count and the buffer of a completion are kept together, as the bytes it transferred. -/
inductive HostSocketIoSubmission
  | completed (direction : HostSocketIoDirection) (bytes : List UInt8)
  | failed (direction : HostSocketIoDirection) (error : HostError)
  | pending (pending : PendingHostSocketIo)
deriving DecidableEq, Repr

structure PendingHostAcceptEx (σ : Type) where
  overlappedToken : Nat
  accepted : σ
deriving DecidableEq, Repr

structure PendingHostConnectEx where
  overlappedToken : Nat
deriving DecidableEq, Repr

inductive HostSocketOption
  | reuseAddress (value : Bool)
  | keepAlive (value : Bool)
  | sendBufferSize (value : Nat)
  | receiveBufferSize (value : Nat)
  | tcpNoDelay (value : Bool)
deriving DecidableEq, Repr

structure HostNet (σ ω : Type) where
  newCompletionPort : Prog ω HostError Unit
  openSocketWithIocp : SocketDomain → SocketType → SocketProtocol → Prog ω HostError σ
  openSocket : SocketDomain → SocketType → SocketProtocol → Prog ω HostError σ
  setOption : σ → HostSocketOption → Prog ω HostError Unit
  setNonblocking : σ → Bool → Prog ω HostError Unit
  bind : σ → SocketAddress → Prog ω HostError Unit
  listen : σ → Nat → Prog ω HostError Unit
  accept : σ → Prog ω HostError (σ × SocketAddress)
  connect : σ → SocketAddress → Prog ω HostError Unit
  shutdown : σ → ShutdownHow → Prog ω HostError Unit
  localAddr : σ → Prog ω HostError SocketAddress
  peerAddr : σ → Prog ω HostError SocketAddress
  takeError : σ → Prog ω HostError (Option HostError)
  recv : σ → Nat → Prog ω HostError (List UInt8)
  recvVectored : σ → List Nat → Prog ω HostError (List UInt8)
  recvFrom : σ → Nat → Prog ω HostError (List UInt8 × SocketAddress)
  recvFromVectored : σ → List Nat → Prog ω HostError (List UInt8 × SocketAddress)
  /-- `poll_sockets`: one answer for each entry, in order. -/
  pollSockets : List (σ × SocketEvents) → Option Nat → Prog ω HostError (List SocketEvents)
  submitOverlappedRecv : σ → Nat → ω → HostSocketIoSubmission × ω
  submitAcceptEx : σ → Prog ω HostError (PendingHostAcceptEx σ)
  submitConnectEx : σ → SocketAddress → Prog ω HostError PendingHostConnectEx
  updateAcceptContext : σ → σ → Prog ω HostError Unit
  updateConnectContext : σ → Prog ω HostError Unit
  /-- `HostIoCompletionPort::get` on the port of the socket. -/
  portGet : σ → Option Nat → Prog ω HostError (Option HostIoCompletionPacket)
  /-- The packets a loop of zero-timeout gets can take before the port is dry. -/
  queued : σ → ω → Nat
  /-- Dropping the last reference to a socket. -/
  closeSocket : σ → ω → ω

/-! ### Overlapped operations -/

/-- `PendingHostSocketIo::complete_from_packet`. -/
def PendingHostSocketIo.completeFromPacket (pending : PendingHostSocketIo)
    (packet : HostIoCompletionPacket) : HostSocketIoSubmission :=
  if pending.overlappedToken ≠ packet.overlapped then .pending pending
  else
    match packet.error with
    | some error => .failed pending.direction error
    | none =>
      if pending.bufferLen < packet.bytes.length then
        .failed pending.direction (.invalidInput pending.direction)
      else .completed pending.direction packet.bytes

variable {σ ω : Type}

/-- `PendingHostAcceptEx::complete_from_packet`. -/
def PendingHostAcceptEx.completeFromPacket (host : HostNet σ ω) (listener : σ)
    (pending : PendingHostAcceptEx σ) (packet : HostIoCompletionPacket) :
    Prog ω HostError (σ × SocketAddress) :=
  match packet.error with
  | some error => .throw error
  | none => do
    host.updateAcceptContext pending.accepted listener
    let peer ← host.peerAddr pending.accepted
    pure (pending.accepted, peer)

/-- `PendingHostConnectEx::complete_from_packet`. -/
def PendingHostConnectEx.completeFromPacket (host : HostNet σ ω) (socket : σ)
    (packet : HostIoCompletionPacket) : Prog ω HostError Unit :=
  match packet.error with
  | some error => .throw error
  | none => host.updateConnectContext socket

/-! ### A host with one listener -/

/-- A listener: what its plain accepts answer, and the packets on its port. -/
structure ListenerWorld where
  accepts : List Bool
  packets : List HostIoCompletionPacket

def ListenerWorld.answer {α : Type} (a : α) : Prog ListenerWorld HostError α := pure a

open ListenerWorld in
/-- A connection arrives as soon as an `AcceptEx` waits for one; the others queue for plain accepts. -/
def listenerHost : HostNet Unit ListenerWorld where
  newCompletionPort := answer ()
  openSocketWithIocp _ _ _ := answer ()
  openSocket _ _ _ := answer ()
  setOption _ _ := answer ()
  setNonblocking _ _ := answer ()
  bind _ _ := answer ()
  listen _ _ := answer ()
  accept _ := do
    let w ← .get
    .modify fun w => { w with accepts := w.accepts.tail }
    if w.accepts.headD false then pure ((), .inet 1 9) else .throw ⟨.wouldBlock, "would block"⟩
  connect _ _ := answer ()
  shutdown _ _ := answer ()
  localAddr _ := answer (.inet 0 80)
  peerAddr _ := answer (.inet 1 9)
  takeError _ := answer none
  recv _ _ := answer []
  recvVectored _ _ := answer []
  recvFrom _ _ := answer ([], .inet 0 0)
  recvFromVectored _ _ := answer ([], .inet 0 0)
  pollSockets entries _ := answer (entries.map fun _ => .none)
  submitOverlappedRecv _ _ w := (.completed .receive [], w)
  submitAcceptEx _ := do
    .modify fun w => { w with packets := w.packets ++ [⟨1, none, []⟩] }
    pure ⟨1, ()⟩
  submitConnectEx _ _ := answer ⟨2⟩
  updateAcceptContext _ _ := answer ()
  updateConnectContext _ := answer ()
  portGet _ _ := do
    let w ← .get
    .modify fun w => { w with packets := w.packets.tail }
    pure w.packets.head?
  queued _ w := w.packets.length
  closeSocket _ w := w

end Mcr.Net
