import Mcr.Net.Accepting

/-!
# Every call of the socket table

The calls of the table that the readiness of sockets does not depend on: options, addresses, sends with an address
and two queries. With the others they make one type of calls, so that a run of the table is a list of them.
-/

namespace Mcr.Net

variable {σ ω ρ : Type}

/-! ### Options -/

inductive SocketOptionName
  | socketType | socketError | reuseAddr | keepAlive | sendBuffer | receiveBuffer | tcpNoDelay
deriving DecidableEq, Repr

namespace SocketOptionName

def isReadOnly : SocketOptionName → Bool
  | .socketType | .socketError => true
  | _ => false

end SocketOptionName

/-- `SocketType::to_linux`. -/
def SocketType.toLinux : SocketType → Nat
  | .stream => 1
  | .datagram => 2

def boolToSocketOption (value : Bool) : Nat := if value then 1 else 0

def socketOptionToBool (value : Nat) : Bool := value ≠ 0

def validateBufferSize (value : Nat) : Except SocketError Nat :=
  if value = 0 then
    .error (.invalidInput .setSocketOption .invalidArgument "socket buffer size must be greater than zero")
  else .ok value

def getOption (host : HostNet σ ω) (id : SocketId) (option : SocketOptionName) : TableProg σ ω Nat :=
  match option with
  | .socketError => getSocketErrorOption host id
  | .socketType => do pure (← getSocket id).socketType.toLinux
  | .reuseAddr => do pure (boolToSocketOption (← getSocket id).options.reuseAddr)
  | .keepAlive => do pure (boolToSocketOption (← getSocket id).options.keepAlive)
  | .sendBuffer => do pure (← getSocket id).options.sendBufferSize
  | .receiveBuffer => do pure (← getSocket id).options.receiveBufferSize
  | .tcpNoDelay => do pure (boolToSocketOption (← getSocket id).options.tcpNoDelay)

def GuestSocket.withOption (socket : GuestSocket) (option : SocketOptionName) (value : Nat) :
    Except SocketError SocketOptions :=
  match option with
  | .reuseAddr => .ok { socket.options with reuseAddr := socketOptionToBool value }
  | .keepAlive => .ok { socket.options with keepAlive := socketOptionToBool value }
  | .sendBuffer => (validateBufferSize value).map fun size => { socket.options with sendBufferSize := size }
  | .receiveBuffer => (validateBufferSize value).map fun size => { socket.options with receiveBufferSize := size }
  | .tcpNoDelay =>
    if socket.effectiveProtocol ≠ .tcp then
      .error (.invalidInput .setSocketOption .invalidArgument "TCP_NODELAY is only valid for TCP sockets")
    else .ok { socket.options with tcpNoDelay := socketOptionToBool value }
  | .socketType | .socketError => .ok socket.options

def setOption (id : SocketId) (option : SocketOptionName) (value : Nat) : TableProg σ ω Unit :=
  if option.isReadOnly then .throw (.invalidInput .setSocketOption .invalidArgument "socket option is read-only")
  else do
    let socket ← getSocket id
    let options ← .ofExcept (socket.withOption option value)
    updateSocket id fun socket => { socket with options := options }

/-! ### Addresses -/

def SocketState.peerAddress : SocketState → Option SocketAddress
  | .connected _ peer => some peer
  | _ => none

/-- `local_address` and `peer_address` by the address they read, once a connect in progress has been looked at. -/
def addressOf (host : HostNet σ ω) (id : SocketId) (address : SocketState → Option SocketAddress) :
    TableProg σ ω (Option SocketAddress) := do
  let socket ← getSocket id
  Prog.when (isConnecting socket.state)
    (do let _ ← Prog.attempt (finishNonblockingConnect host id); pure ())
  let socket ← getSocket id
  pure (address socket.state)

def localAddress (host : HostNet σ ω) (id : SocketId) : TableProg σ ω (Option SocketAddress) :=
  addressOf host id SocketState.localAddress

def peerAddress (host : HostNet σ ω) (id : SocketId) : TableProg σ ω (Option SocketAddress) :=
  addressOf host id SocketState.peerAddress

/-! ### Sends with an address -/

structure HandleMethods (σ ω ρ : Type) extends HandleSends σ ω where
  sendTo : List UInt8 → SocketAddress → HandleProg σ ω Nat
  sendToVectored : List (List UInt8) → SocketAddress → HandleProg σ ω Nat
  rioCapability : HandleProg σ ω ρ

/-- The checks of a send with an address, and what it does with the handle's answer. -/
def sendToWith (host : HostNet σ ω) (id : SocketId) (operation : SocketOperation) (address : SocketAddress)
    (method : HandleProg σ ω Nat) : TableProg σ ω Nat := do
  let socket ← getSocket id
  .ofExcept (validateAddressDomain socket.domain address)
  .ofExcept (validateDatagramIo socket operation)
  if socket.shutdown.write then
    .throw (.invalidState operation .shutdown "socket write side is shut down")
  else do
    ensureHostEntry host id operation
    let sent ← onHandle id operation method
    recordHostError id sent

def sendTo (host : HostNet σ ω) (methods : HandleMethods σ ω ρ) (id : SocketId) (bytes : List UInt8)
    (address : SocketAddress) : TableProg σ ω Nat :=
  sendToWith host id .send address (methods.sendTo bytes address)

def sendToVectored (host : HostNet σ ω) (methods : HandleMethods σ ω ρ) (id : SocketId)
    (buffers : List (List UInt8)) (address : SocketAddress) : TableProg σ ω Nat :=
  sendToWith host id .sendMsg address (methods.sendToVectored buffers address)

/-! ### Queries -/

def requireConnectedStream (id : SocketId) : TableProg σ ω Unit := do
  let socket ← getSocket id
  .ofExcept (validateConnectedStreamIo socket .send)

def rioCapability (host : HostNet σ ω) (methods : HandleMethods σ ω ρ) (id : SocketId) : TableProg σ ω ρ := do
  ensureHostEntry host id .poll
  withHandle id .poll methods.rioCapability

/-! ### Calls -/

inductive SocketCall (σ : Type)
  | createSocket (spec : SocketSpec)
  | createSocketWithHandle (spec : SocketSpec) (handle : WinHostSocketHandle σ)
  | getOption (id : SocketId) (option : SocketOptionName)
  | setOption (id : SocketId) (option : SocketOptionName) (value : Nat)
  | localAddress (id : SocketId)
  | peerAddress (id : SocketId)
  | bind (id : SocketId) (address : SocketAddress)
  | listen (id : SocketId) (backlog : Nat)
  | setNonblocking (id : SocketId) (nonblocking : Bool)
  | connect (id : SocketId) (address : SocketAddress)
  | accept (id : SocketId)
  | shutdown (id : SocketId) (how : ShutdownHow)
  | sendConnected (id : SocketId) (bytes : List UInt8)
  | sendConnectedVectored (id : SocketId) (buffers : List (List UInt8))
  | recvConnected (id : SocketId) (len : Nat)
  | recvConnectedVectored (id : SocketId) (lens : List Nat)
  | sendTo (id : SocketId) (bytes : List UInt8) (address : SocketAddress)
  | sendToVectored (id : SocketId) (buffers : List (List UInt8)) (address : SocketAddress)
  | recvFrom (id : SocketId) (len : Nat)
  | recvFromVectored (id : SocketId) (lens : List Nat)
  | poll (id : SocketId) (interest : SocketEvents) (timeout : Option Nat)
  | pollMany (requests : List (SocketId × SocketEvents)) (timeout : Option Nat)
  | requireConnectedStream (id : SocketId)
  | rioCapability (id : SocketId)
  | close (id : SocketId)

/-- A program whose result does not matter here. -/
def noSocket {α : Type} (m : TableProg σ ω α) : TableProg σ ω (Option SocketId) := do
  let _ ← m
  pure none

namespace SocketCall

/-- Run a call; the result is the identity of the socket it makes, if it makes one. -/
def exec (host : HostNet σ ω) (methods : HandleMethods σ ω ρ) : SocketCall σ → TableProg σ ω (Option SocketId)
  | .createSocket spec => do pure (some (← createSocketFromSpec spec))
  | .createSocketWithHandle spec handle => do pure (some (← Net.createSocketWithHandle spec handle))
  | .getOption id option => noSocket (Net.getOption host id option)
  | .setOption id option value => noSocket (Net.setOption id option value)
  | .localAddress id => noSocket (Net.localAddress host id)
  | .peerAddress id => noSocket (Net.peerAddress host id)
  | .bind id address => noSocket (Net.bind host id address)
  | .listen id backlog => noSocket (Net.listen host id backlog)
  | .setNonblocking id nonblocking => noSocket (Net.setNonblocking host id nonblocking)
  | .connect id address => noSocket (Net.connect host id address)
  | .accept id => do pure (some (← Net.accept host id).1)
  | .shutdown id how => noSocket (Net.shutdown host id how)
  | .sendConnected id bytes => noSocket (Net.sendConnected methods.toHandleSends id bytes)
  | .sendConnectedVectored id buffers => noSocket (Net.sendConnectedVectored methods.toHandleSends id buffers)
  | .recvConnected id len => noSocket (Net.recvConnected host id len)
  | .recvConnectedVectored id lens => noSocket (Net.recvConnectedVectored host id lens)
  | .sendTo id bytes address => noSocket (Net.sendTo host methods id bytes address)
  | .sendToVectored id buffers address => noSocket (Net.sendToVectored host methods id buffers address)
  | .recvFrom id len => noSocket (Net.recvFrom host id len)
  | .recvFromVectored id lens => noSocket (Net.recvFromVectored host id lens)
  | .poll id interest timeout => noSocket (Net.poll host id interest timeout)
  | .pollMany requests timeout => noSocket (Net.pollMany host requests timeout)
  | .requireConnectedStream id => noSocket (Net.requireConnectedStream id)
  | .rioCapability id => noSocket (Net.rioCapability host methods id)
  | .close id => noSocket (Net.close host id)

end SocketCall

end Mcr.Net
