import Mcr.Vfs.Node

/-!
# Guest sockets: identities, specifications and errors

The data the socket table and the host transport pass around. Socket and readiness identities are `u64`
counters, so they are `Nat` here and their `checked_add` is a comparison with `u64Limit`.
-/

namespace Mcr.Net

open Vfs (HostErrorKind)

structure LinuxErrno where
  raw : Nat
deriving DecidableEq, Repr

namespace LinuxErrno

def badFileDescriptor : LinuxErrno := ⟨9⟩
def wouldBlock : LinuxErrno := ⟨11⟩
def invalidArgument : LinuxErrno := ⟨22⟩
def brokenPipe : LinuxErrno := ⟨32⟩
def functionNotImplemented : LinuxErrno := ⟨38⟩
def protocolWrongTypeForSocket : LinuxErrno := ⟨91⟩
def protocolNotSupported : LinuxErrno := ⟨93⟩
def socketTypeNotSupported : LinuxErrno := ⟨94⟩
def operationNotSupported : LinuxErrno := ⟨95⟩
def addressFamilyNotSupported : LinuxErrno := ⟨97⟩
def connectionReset : LinuxErrno := ⟨104⟩
def alreadyConnected : LinuxErrno := ⟨106⟩
def notConnected : LinuxErrno := ⟨107⟩
def shutdown : LinuxErrno := ⟨108⟩
def timedOut : LinuxErrno := ⟨110⟩
def connectionRefused : LinuxErrno := ⟨111⟩
def operationAlreadyInProgress : LinuxErrno := ⟨114⟩
def operationInProgress : LinuxErrno := ⟨115⟩

end LinuxErrno

/-! ### Errors -/

/-- A failure of the host adapter: its kind and the text it is displayed as. -/
structure HostError where
  kind : HostErrorKind
  text : String
deriving DecidableEq, Repr

def hostErrorErrno : HostErrorKind → LinuxErrno
  | .invalidInput => .invalidArgument
  | .interrupted | .wouldBlock => .wouldBlock
  | .timedOut => .timedOut
  | .brokenPipe => .brokenPipe
  | .unsupported => .functionNotImplemented
  | .unavailable => .connectionRefused
  | .accessDenied | .notFound | .alreadyExists | .outOfMemory | .poisoned | .other => .connectionReset

structure HostIoError where
  errno : LinuxErrno
  reason : String
deriving DecidableEq, Repr

def HostIoError.ofHost (error : HostError) : HostIoError := ⟨hostErrorErrno error.kind, error.text⟩

inductive SocketOperation
  | accept | allocateSocketId | bind | close | connect | createSocket | getSocketOption | listen
  | poll | recv | recvMsg | send | sendMsg | setSocketOption | shutdown
deriving DecidableEq, Repr

abbrev SocketId := Nat

inductive SocketError
  | invalidInput (operation : SocketOperation) (errno : LinuxErrno) (reason : String)
  | unsupported (operation : SocketOperation) (errno : LinuxErrno) (reason : String)
  | invalidState (operation : SocketOperation) (errno : LinuxErrno) (reason : String)
  | wouldBlock (operation : SocketOperation) (errno : LinuxErrno) (reason : String)
  | hostIo (errno : LinuxErrno) (reason : String)
  | badSocket (id : SocketId)
deriving DecidableEq, Repr

namespace SocketError

def fromHost (error : HostIoError) : SocketError := .hostIo error.errno error.reason

def linuxErrno : SocketError → LinuxErrno
  | .invalidInput _ errno _ | .unsupported _ errno _ | .invalidState _ errno _
  | .wouldBlock _ errno _ | .hostIo errno _ => errno
  | .badSocket _ => .badFileDescriptor

end SocketError

/-! ### Specifications -/

inductive SocketDomain
  | unix | inet | inet6
deriving DecidableEq, Repr

inductive SocketType
  | stream | datagram
deriving DecidableEq, Repr

inductive SocketProtocol
  | default | tcp | udp
deriving DecidableEq, Repr

structure SocketCreationFlags where
  nonblocking : Bool
  cloexec : Bool
deriving DecidableEq, Repr

structure SocketSpec where
  domain : SocketDomain
  socketType : SocketType
  protocol : SocketProtocol
  flags : SocketCreationFlags
deriving DecidableEq, Repr

def effectiveProtocol (domain : SocketDomain) (socketType : SocketType) (protocol : SocketProtocol) :
    SocketProtocol :=
  match domain, socketType, protocol with
  | .unix, _, .default => .default
  | _, .stream, .default => .tcp
  | _, .datagram, .default => .udp
  | _, _, protocol => protocol

def SocketSpec.effectiveProtocol (spec : SocketSpec) : SocketProtocol :=
  Net.effectiveProtocol spec.domain spec.socketType spec.protocol

def validateSocketProtocol (socketType : SocketType) (protocol : SocketProtocol) :
    Except SocketError Unit :=
  match socketType, protocol with
  | .stream, .default | .stream, .tcp | .datagram, .default | .datagram, .udp => .ok ()
  | .stream, .udp | .datagram, .tcp =>
    .error (.unsupported .createSocket .protocolWrongTypeForSocket
      "socket protocol does not match socket type")

inductive SocketAddress
  | unix (path : List UInt8)
  | inet (address : BitVec 32) (port : UInt16)
  | inet6 (address : BitVec 128) (port : UInt16) (flowinfo scopeId : UInt32)
deriving DecidableEq, Repr

namespace SocketAddress

def domain : SocketAddress → SocketDomain
  | .unix _ => .unix
  | .inet _ _ => .inet
  | .inet6 _ _ _ _ => .inet6

def unspecifiedForDomain : SocketDomain → SocketAddress
  | .unix => .unix []
  | .inet => .inet 0 0
  | .inet6 => .inet6 0 0 0 0

end SocketAddress

/-! ### Readiness -/

structure SocketEvents where
  readable : Bool
  writable : Bool
  priority : Bool
  error : Bool
  hangUp : Bool
  invalid : Bool
deriving DecidableEq, Repr

namespace SocketEvents

def none : SocketEvents := ⟨false, false, false, false, false, false⟩

def read : SocketEvents := { none with readable := true }
def write : SocketEvents := { none with writable := true }

def isEmpty (events : SocketEvents) : Bool :=
  !events.readable && !events.writable && !events.priority && !events.error && !events.hangUp &&
    !events.invalid

def merge (target update : SocketEvents) : SocketEvents where
  readable := target.readable || update.readable
  writable := target.writable || update.writable
  priority := target.priority || update.priority
  error := target.error || update.error
  hangUp := target.hangUp || update.hangUp
  invalid := target.invalid || update.invalid

def forInterest (readiness interest : SocketEvents) : SocketEvents where
  readable := readiness.readable && interest.readable
  writable := readiness.writable && interest.writable
  priority := readiness.priority && interest.priority
  error := readiness.error
  hangUp := readiness.hangUp
  invalid := readiness.invalid

theorem not_isEmpty_of_readable {events : SocketEvents} (h : events.readable = true) :
    events.isEmpty = false := by
  simp [isEmpty, h]

end SocketEvents

inductive SocketCompletionKind
  | accept | connect | receive | send | peerClosed | closed | error
deriving DecidableEq, Repr

def SocketCompletionKind.readiness : SocketCompletionKind → SocketEvents
  | .accept | .receive => .read
  | .connect | .send => .write
  | .peerClosed => { SocketEvents.none with readable := true, hangUp := true }
  | .closed => { SocketEvents.none with error := true, hangUp := true }
  | .error => { SocketEvents.none with error := true }

/-- A readiness token is ordered by socket first and generation second. -/
abbrev SocketReadinessToken := SocketId ×ₗ Nat

namespace SocketReadinessToken

def new (socket : SocketId) (generation : Nat) : SocketReadinessToken := toLex (socket, generation)

def socket (token : SocketReadinessToken) : SocketId := (ofLex token).1

@[simp] theorem socket_new (socket : SocketId) (generation : Nat) :
    (new socket generation).socket = socket := rfl

end SocketReadinessToken

structure HostSocketCompletion where
  token : SocketReadinessToken
  kind : SocketCompletionKind
deriving DecidableEq

/-! ### Guest sockets -/

inductive SocketState
  | created
  | bound (address : SocketAddress)
  | connecting (address : SocketAddress)
  | listening (address : SocketAddress)
  | connected (local_ peer : SocketAddress)
  | closed
deriving DecidableEq, Repr

def SocketState.localAddress : SocketState → Option SocketAddress
  | .bound address | .listening address => some address
  | .connected address _ => some address
  | .created | .connecting _ | .closed => none

inductive ShutdownHow
  | read | write | readWrite
deriving DecidableEq, Repr

structure ShutdownFlags where
  read : Bool
  write : Bool
deriving DecidableEq, Repr

def ShutdownFlags.apply (flags : ShutdownFlags) : ShutdownHow → ShutdownFlags
  | .read => { flags with read := true }
  | .write => { flags with write := true }
  | .readWrite => ⟨true, true⟩

structure SocketOptions where
  reuseAddr : Bool
  keepAlive : Bool
  sendBufferSize : Nat
  receiveBufferSize : Nat
  tcpNoDelay : Bool
deriving DecidableEq, Repr

def defaultSocketBufferSize : Nat := 212992

def SocketOptions.default : SocketOptions :=
  ⟨false, false, defaultSocketBufferSize, defaultSocketBufferSize, false⟩

structure GuestSocket where
  id : SocketId
  domain : SocketDomain
  socketType : SocketType
  protocol : SocketProtocol
  flags : SocketCreationFlags
  state : SocketState
  shutdown : ShutdownFlags
  options : SocketOptions
  lastError : Option LinuxErrno
deriving DecidableEq, Repr

namespace GuestSocket

def new (id : SocketId) (spec : SocketSpec) : GuestSocket where
  id := id
  domain := spec.domain
  socketType := spec.socketType
  protocol := spec.protocol
  flags := spec.flags
  state := .created
  shutdown := ⟨false, false⟩
  options := .default
  lastError := none

def effectiveProtocol (socket : GuestSocket) : SocketProtocol :=
  Net.effectiveProtocol socket.domain socket.socketType socket.protocol

end GuestSocket

end Mcr.Net
