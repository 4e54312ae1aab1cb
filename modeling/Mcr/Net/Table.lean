import Mcr.Net.Handle

/-!
# The guest socket table

The table holds a guest socket for every identity ever handed out, a host handle for those that talk to
the host, and the readiness that completed host operations have been remembered to imply. A call is a
program over the table and the host.
-/

namespace Mcr.Net

open Vfs (u64Limit)

variable {σ ω : Type}

structure HostSocketEntry (σ : Type) where
  handle : WinHostSocketHandle σ
  readinessToken : SocketReadinessToken

abbrev SocketReadinessCache : Type := SortedMap SocketReadinessToken SocketEvents

namespace SocketReadinessCache

def applyCompletion (cache : SocketReadinessCache) (activeToken : SocketReadinessToken)
    (completion : HostSocketCompletion) : SocketReadinessCache :=
  if completion.token ≠ activeToken then cache
  else
    cache.insert activeToken
      (((cache.get? activeToken).getD .none).merge completion.kind.readiness)

def readiness (cache : SocketReadinessCache) (activeToken : SocketReadinessToken)
    (interest : SocketEvents) : Option SocketEvents :=
  ((cache.get? activeToken).map fun ready => ready.forInterest interest).filter
    fun events => !events.isEmpty

def clearSocket (cache : SocketReadinessCache) (id : SocketId) : SocketReadinessCache :=
  cache.filter fun token _ => decide (token.socket ≠ id)

end SocketReadinessCache

structure GuestSocketTable (σ : Type) where
  nextId : Nat
  nextReadinessGeneration : Nat
  sockets : SortedMap SocketId GuestSocket
  hostHandles : SortedMap SocketId (HostSocketEntry σ)
  readinessCache : SocketReadinessCache
  transport : Bool

def GuestSocketTable.new (transport : Bool) : GuestSocketTable σ where
  nextId := 1
  nextReadinessGeneration := 1
  sockets := .empty
  hostHandles := .empty
  readinessCache := SortedMap.empty
  transport := transport

structure NetState (σ ω : Type) where
  table : GuestSocketTable σ
  host : ω

abbrev TableProg (σ ω α : Type) : Type := Prog (NetState σ ω) SocketError α

/-! ### Access to the tables -/

def setTable (f : GuestSocketTable σ → GuestSocketTable σ) : TableProg σ ω Unit :=
  .modify fun s => { s with table := f s.table }

def getSocket (id : SocketId) : TableProg σ ω GuestSocket := do
  let s ← .get
  match s.table.sockets.get? id with
  | some socket => pure socket
  | none => .throw (.badSocket id)

/-- `socket_mut(id)?` followed by an assignment. -/
def updateSocket (id : SocketId) (f : GuestSocket → GuestSocket) : TableProg σ ω Unit := do
  let socket ← getSocket id
  setTable fun table => { table with sockets := table.sockets.insert id (f socket) }

def clearReadiness (id : SocketId) : TableProg σ ω Unit :=
  setTable fun table => { table with readinessCache := table.readinessCache.clearSocket id }

def NetState.putHandle (s : NetState σ ω) (id : SocketId) (entry : HostSocketEntry σ)
    (t : HandleState σ ω) : NetState σ ω where
  table := { s.table with hostHandles := s.table.hostHandles.insert id { entry with handle := t.handle } }
  host := t.host

def noHostHandle (operation : SocketOperation) : SocketError :=
  .unsupported operation .functionNotImplemented "socket has no host transport handle"

/-- `host_entry_mut(id, operation)?.handle.method()`, with the method's own result. -/
def onHandle {α : Type} (id : SocketId) (operation : SocketOperation) (method : HandleProg σ ω α) :
    TableProg σ ω (Except HostIoError α) := fun s =>
  match s.table.hostHandles.get? id with
  | none => (.error (noHostHandle operation), s)
  | some entry =>
    match method ⟨entry.handle, s.host⟩ with
    | (result, t) => (.ok result, s.putHandle id entry t)

/-- The same with `.map_err(SocketError::from_host)?`. -/
def withHandle {α : Type} (id : SocketId) (operation : SocketOperation) (method : HandleProg σ ω α) :
    TableProg σ ω α := do
  let result ← onHandle id operation method
  match result with
  | .ok a => pure a
  | .error error => .throw (.fromHost error)

def tableHostCall {α : Type} (call : Prog ω HostError α) : TableProg σ ω α := fun s =>
  match call s.host with
  | (.ok a, w) => (.ok a, { s with host := w })
  | (.error e, w) => (.error (.fromHost (.ofHost e)), { s with host := w })

def allocateId : TableProg σ ω SocketId := do
  let s ← .get
  if s.table.nextId = 0 then
    .throw (.invalidInput .allocateSocketId .invalidArgument "socket id space is exhausted")
  else do
    setTable fun table =>
      { table with nextId := if table.nextId + 1 < u64Limit then table.nextId + 1 else 0 }
    pure s.table.nextId

def allocateReadinessToken (id : SocketId) : TableProg σ ω SocketReadinessToken := do
  let s ← .get
  if u64Limit ≤ s.table.nextReadinessGeneration + 1 then
    .throw (.invalidInput .allocateSocketId .invalidArgument
      "socket readiness generation space is exhausted")
  else do
    setTable fun table => { table with nextReadinessGeneration := table.nextReadinessGeneration + 1 }
    pure (.new id s.table.nextReadinessGeneration)

/-! ### Creation -/

def createSocketFromSpec (spec : SocketSpec) : TableProg σ ω SocketId := do
  .ofExcept (validateSocketProtocol spec.socketType spec.protocol)
  let id ← allocateId
  setTable fun table => { table with sockets := table.sockets.insert id (.new id spec) }
  pure id

def createSocketWithHandle (spec : SocketSpec) (handle : WinHostSocketHandle σ) :
    TableProg σ ω SocketId := do
  .ofExcept (validateSocketProtocol spec.socketType spec.protocol)
  let id ← allocateId
  let token ← allocateReadinessToken id
  setTable fun table =>
    { table with
      sockets := table.sockets.insert id (.new id spec)
      hostHandles := table.hostHandles.insert id ⟨handle, token⟩ }
  pure id

def socketSpec (id : SocketId) : TableProg σ ω SocketSpec := do
  let socket ← getSocket id
  .ofExcept (validateSocketProtocol socket.socketType socket.protocol)
  pure ⟨socket.domain, socket.socketType, socket.protocol, socket.flags⟩

def applySocketOptions (host : HostNet σ ω) (socket : σ) (spec : SocketSpec) (options : SocketOptions) :
    Prog ω HostError Unit := do
  host.setOption socket (.reuseAddress options.reuseAddr)
  Prog.when (spec.effectiveProtocol = .tcp) (host.setOption socket (.keepAlive options.keepAlive))
  host.setOption socket (.sendBufferSize options.sendBufferSize)
  host.setOption socket (.receiveBufferSize options.receiveBufferSize)
  Prog.when (spec.effectiveProtocol = .tcp) (host.setOption socket (.tcpNoDelay options.tcpNoDelay))

/-- `WinHostSocketTransport::open_socket`. -/
def openHostSocket (host : HostNet σ ω) (spec : SocketSpec) (options : SocketOptions) :
    Prog ω HostError (WinHostSocketHandle σ) := do
  let port ← Prog.tryCatch (do host.newCompletionPort; pure true) fun _ => pure false
  let socket ← (if port then host.openSocketWithIocp else host.openSocket)
    spec.domain spec.socketType spec.effectiveProtocol
  applySocketOptions host socket spec options
  Prog.when (spec.flags.nonblocking) (host.setNonblocking socket true)
  pure (.fresh socket spec port)

def ensureHostEntry (host : HostNet σ ω) (id : SocketId) (operation : SocketOperation) :
    TableProg σ ω Unit := do
  let s ← .get
  match s.table.hostHandles.get? id with
  | some _ => pure ()
  | none => do
    let spec ← socketSpec id
    if spec.domain = .unix then
      .throw (.unsupported operation .functionNotImplemented
        "AF_UNIX sockets do not use host socket transport")
    else do
      let socket ← getSocket id
      if !s.table.transport then
        .throw (.unsupported operation .functionNotImplemented
          "host socket transport is not configured")
      else do
        let handle ← tableHostCall (openHostSocket host spec socket.options)
        let token ← allocateReadinessToken id
        setTable fun table => { table with hostHandles := table.hostHandles.insert id ⟨handle, token⟩ }

def socketUsesHostTransport (id : SocketId) : TableProg σ ω Bool := do
  let socket ← getSocket id
  let s ← .get
  pure (decide (socket.domain ≠ .unix) &&
    (s.table.transport || (s.table.hostHandles.get? id).isSome))

def socketUsesHostTransportWhen (condition : Bool) (id : SocketId) : TableProg σ ω Bool :=
  if condition then socketUsesHostTransport id else pure false

def recordHostError {α : Type} (id : SocketId) (result : Except HostIoError α) : TableProg σ ω α := do
  match result with
  | .ok a => pure a
  | .error error => do
    .tryCatch (updateSocket id fun socket => { socket with lastError := some error.errno }) fun _ => pure ()
    .throw (.fromHost error)

/-! ### Connecting -/

def finishNonblockingConnect (host : HostNet σ ω) (id : SocketId) : TableProg σ ω Unit := do
  let socket ← getSocket id
  match socket.state with
  | .connecting address => do
    let s ← .get
    if (s.table.hostHandles.get? id).isSome then do
      let completion ← withHandle id .connect completeConnectFastPath
      if completion = .pending then pure ()
      else do
        let error ← withHandle id .connect (handleTakeError host)
        match error with
        | some error => do
          updateSocket id fun socket => { socket with state := .created, lastError := some error.errno }
          .throw (.fromHost error)
        | none => do
          let localAddress ← withHandle id .connect (handleLocalAddr host)
          let peer ← withHandle id .connect (handlePeerAddr host)
          updateSocket id fun socket =>
            { socket with state := .connected localAddress peer, lastError := none }
    else
      updateSocket id fun socket =>
        { socket with
          state := .connected (.unspecifiedForDomain address.domain) address
          lastError := none }
  | _ => pure ()

def isConnecting : SocketState → Bool
  | .connecting _ => true
  | _ => false

def finishPolledReadiness (host : HostNet σ ω) (id : SocketId) (readiness : SocketEvents) :
    TableProg σ ω Unit := do
  if readiness.writable then do
    let socket ← getSocket id
    Prog.when (isConnecting socket.state) (finishNonblockingConnect host id)
  else pure ()

/-- The value of `SO_ERROR`. -/
def getSocketErrorOption (host : HostNet σ ω) (id : SocketId) : TableProg σ ω Nat := do
  let socket ← getSocket id
  let taken : TableProg σ ω Nat := do
    let socket ← getSocket id
    updateSocket id fun socket => { socket with lastError := none }
    pure ((socket.lastError.map LinuxErrno.raw).getD 0)
  if isConnecting socket.state then do
    let finished ← Prog.attempt (finishNonblockingConnect host id)
    match finished with
    | .ok () => taken
    | .error error => do
      .tryCatch (updateSocket id fun socket => { socket with lastError := none }) fun _ => pure ()
      pure error.linuxErrno.raw
  else taken

def validateConnect (socket : GuestSocket) (id : SocketId) : Except SocketError Unit :=
  match socket.state with
  | .created | .bound _ => .ok ()
  | .connecting _ => .error (.invalidState .connect .operationAlreadyInProgress
      "socket connect is already in progress")
  | .connected _ _ => .error (.invalidState .connect .alreadyConnected "socket is already connected")
  | .listening _ => .error (.invalidState .connect .invalidArgument "listening socket cannot connect")
  | .closed => .error (.badSocket id)

def validateAddressDomain (domain : SocketDomain) (address : SocketAddress) : Except SocketError Unit :=
  if domain = address.domain then .ok ()
  else .error (.invalidInput .bind .addressFamilyNotSupported
    "socket address family does not match socket domain")

def connectHostSocket (host : HostNet σ ω) (id : SocketId) (address : SocketAddress) :
    TableProg σ ω (SocketAddress × SocketAddress) := do
  let socket ← getSocket id
  ensureHostEntry host id .connect
  let fastPath ← withHandle id .connect (connectFastPath host address)
  match fastPath with
  | .connected => pure ()
  | .pending => .throw (.wouldBlock .connect .wouldBlock "ConnectEx operation is pending")
  | .unsupported => withHandle id .connect (handleConnect host address)
  let localAddress ← withHandle id .connect (handleLocalAddr host)
  if socket.socketType = .datagram ∧ socket.effectiveProtocol = .udp then pure (localAddress, address)
  else do
    let peer ← withHandle id .connect (handlePeerAddr host)
    pure (localAddress, peer)

def connect (host : HostNet σ ω) (id : SocketId) (address : SocketAddress) : TableProg σ ω Unit := do
  let socket ← getSocket id
  .ofExcept (validateAddressDomain socket.domain address)
  .ofExcept (validateConnect socket id)
  let usesHost ← socketUsesHostTransport id
  if usesHost then do
    let connected ← Prog.attempt (connectHostSocket host id address)
    match connected with
    | .ok (localAddress, peer) =>
      updateSocket id fun socket => { socket with state := .connected localAddress peer }
    | .error error =>
      if error.linuxErrno = .wouldBlock then do
        updateSocket id fun socket =>
          { socket with state := .connecting address, lastError := some .operationInProgress }
        .throw (.wouldBlock .connect .operationInProgress "nonblocking connect is in progress")
      else .throw error
  else
    updateSocket id fun socket =>
      { socket with
        state := .connected
          ((socket.state.localAddress).getD (.unspecifiedForDomain address.domain)) address }

/-! ### Other state changes -/

def bind (host : HostNet σ ω) (id : SocketId) (address : SocketAddress) : TableProg σ ω Unit := do
  let socket ← getSocket id
  .ofExcept (validateAddressDomain socket.domain address)
  let usesHost ← socketUsesHostTransportWhen (decide (socket.state = .created)) id
  if usesHost then do
    ensureHostEntry host id .bind
    let bound ← withHandle id .bind (handleBind host address)
    updateSocket id fun socket => { socket with state := .bound bound }
  else
    match socket.state with
    | .created => updateSocket id fun socket => { socket with state := .bound address }
    | .bound _ | .listening _ =>
      .throw (.invalidState .bind .invalidArgument "socket is already bound")
    | .connecting _ => .throw (.invalidState .bind .invalidArgument "connecting socket cannot be bound")
    | .connected _ _ => .throw (.invalidState .bind .invalidArgument "connected socket cannot be bound")
    | .closed => .throw (.badSocket id)

def listen (host : HostNet σ ω) (id : SocketId) (backlog : Nat) : TableProg σ ω Unit := do
  let socket ← getSocket id
  if socket.socketType ≠ .stream then
    .throw (.invalidState .listen .operationNotSupported "only stream sockets can listen")
  else do
    let canListen := match socket.state with
      | .bound _ | .listening _ => true
      | _ => false
    let usesHost ← socketUsesHostTransportWhen canListen id
    Prog.when (usesHost = true) do
      ensureHostEntry host id .listen
      withHandle id .listen (handleListen host backlog)
    match socket.state with
    | .created =>
      .throw (.invalidState .listen .invalidArgument "socket must be bound before listen")
    | .bound address => updateSocket id fun socket => { socket with state := .listening address }
    | .listening _ => pure ()
    | .connecting _ => .throw (.invalidState .listen .invalidArgument "connecting socket cannot listen")
    | .connected _ _ => .throw (.invalidState .listen .invalidArgument "connected socket cannot listen")
    | .closed => .throw (.badSocket id)

def setNonblocking (host : HostNet σ ω) (id : SocketId) (nonblocking : Bool) : TableProg σ ω Unit := do
  let socket ← getSocket id
  if socket.flags.nonblocking = nonblocking then pure ()
  else do
    let s ← .get
    Prog.when ((s.table.hostHandles.get? id).isSome)
      (withHandle id .setSocketOption (handleSetNonblocking host nonblocking))
    updateSocket id fun socket => { socket with flags := { socket.flags with nonblocking := nonblocking } }

def shutdown (host : HostNet σ ω) (id : SocketId) (how : ShutdownHow) : TableProg σ ω Unit := do
  let socket ← getSocket id
  match socket.state with
  | .connected _ _ => do
    let s ← .get
    Prog.when ((s.table.hostHandles.get? id).isSome)
      (withHandle id .shutdown (handleShutdown host how))
    updateSocket id fun socket => { socket with shutdown := socket.shutdown.apply how }
  | .closed => .throw (.badSocket id)
  | _ => .throw (.invalidState .shutdown .notConnected "socket is not connected")

def close (host : HostNet σ ω) (id : SocketId) : TableProg σ ω Unit := do
  let socket ← getSocket id
  if socket.state = .closed then .throw (.badSocket id)
  else .modify fun s =>
    { table :=
        { s.table with
          sockets := s.table.sockets.insert id { socket with state := .closed, shutdown := ⟨true, true⟩ }
          hostHandles := s.table.hostHandles.erase id
          readinessCache := s.table.readinessCache.clearSocket id }
      host := match s.table.hostHandles.get? id with
        | some entry => host.closeSocket entry.handle.socket s.host
        | none => s.host }

/-! ### Accepting -/

def registerAcceptedSocket (spec : SocketSpec) (handle : WinHostSocketHandle σ)
    (localAddress peer : SocketAddress) : TableProg σ ω (SocketId × SocketAddress) := do
  let accepted ← createSocketWithHandle spec handle
  updateSocket accepted fun socket => { socket with state := .connected localAddress peer }
  pure (accepted, peer)

def requireListening (id : SocketId) : TableProg σ ω SocketAddress := do
  let socket ← getSocket id
  match socket.state with
  | .listening address => pure address
  | .closed => .throw (.badSocket id)
  | _ => .throw (.invalidState .accept .invalidArgument "socket is not listening")

def accept (host : HostNet σ ω) (id : SocketId) : TableProg σ ω (SocketId × SocketAddress) := do
  let localAddress ← requireListening id
  let s ← .get
  if !s.table.transport && (s.table.hostHandles.get? id).isNone then
    .throw (.wouldBlock .accept .wouldBlock "no pending guest socket connection is available")
  else do
    let spec ← socketSpec id
    ensureHostEntry host id .accept
    let accepted ← onHandle id .accept (handleAccept host)
    match accepted with
    | .ok (handle, peer) => do
      clearReadiness id
      registerAcceptedSocket spec handle localAddress peer
    | .error error =>
      if error.errno ≠ .wouldBlock then .throw (.fromHost error)
      else do
        let fastPath ← withHandle id .accept (acceptFastPath host spec)
        match fastPath with
        | .accepted handle peer => do
          clearReadiness id
          registerAcceptedSocket spec handle localAddress peer
        | .pending | .unsupported =>
          .throw (.wouldBlock .accept .wouldBlock "no pending socket connection is available")

/-! ### Receiving -/

def validateConnectedStreamIo (socket : GuestSocket) (operation : SocketOperation) :
    Except SocketError Unit :=
  if socket.socketType ≠ .stream ∨ socket.effectiveProtocol ≠ .tcp then
    .error (.unsupported operation .functionNotImplemented
      "only connected TCP stream socket I/O is implemented")
  else
    match socket.state with
    | .connected _ _ => .ok ()
    | .closed => .error (.badSocket socket.id)
    | _ => .error (.invalidState operation .notConnected "socket is not connected")

def validateConnectedIo (socket : GuestSocket) (operation : SocketOperation) : Except SocketError Unit :=
  if socket.socketType = .stream ∧ socket.effectiveProtocol = .tcp then
    validateConnectedStreamIo socket operation
  else if socket.socketType ≠ .datagram ∨ socket.effectiveProtocol ≠ .udp then
    .error (.unsupported operation .functionNotImplemented
      "only connected TCP stream and UDP datagram socket I/O is implemented")
  else
    match socket.state with
    | .connected _ _ => .ok ()
    | .closed => .error (.badSocket socket.id)
    | _ => .error (.invalidState operation .notConnected "socket is not connected")

def validateDatagramIo (socket : GuestSocket) (operation : SocketOperation) : Except SocketError Unit :=
  if socket.socketType ≠ .datagram ∨ socket.effectiveProtocol ≠ .udp then
    .error (.unsupported operation .functionNotImplemented "only UDP datagram socket I/O is implemented")
  else
    match socket.state with
    | .listening _ =>
      .error (.invalidState operation .invalidArgument "listening socket cannot use datagram I/O")
    | .closed => .error (.badSocket socket.id)
    | _ => .ok ()

/-- The checks of a receive, and what a receive does with the handle's answer: a received count clears the
remembered readiness, an error is recorded on the socket. -/
def receiveWith {α : Type} (id : SocketId) (operation : SocketOperation)
    (validate : GuestSocket → SocketOperation → Except SocketError Unit) (prepare : TableProg σ ω Unit)
    (method : HandleProg σ ω α) : TableProg σ ω α := do
  let socket ← getSocket id
  .ofExcept (validate socket operation)
  if socket.shutdown.read then
    .throw (.invalidState operation .shutdown "socket read side is shut down")
  else do
    prepare
    let received ← onHandle id operation method
    Prog.when received.isOk (clearReadiness id)
    recordHostError id received

def recvConnected (host : HostNet σ ω) (id : SocketId) (len : Nat) : TableProg σ ω (List UInt8) :=
  receiveWith id .recv validateConnectedIo (pure ()) (handleRecv host len)

def recvConnectedVectored (host : HostNet σ ω) (id : SocketId) (lens : List Nat) :
    TableProg σ ω (List UInt8) :=
  receiveWith id .recvMsg validateConnectedIo (pure ()) (handleRecvVectored host lens)

def recvFrom (host : HostNet σ ω) (id : SocketId) (len : Nat) :
    TableProg σ ω (List UInt8 × SocketAddress) :=
  receiveWith id .recv validateDatagramIo (ensureHostEntry host id .recv) (handleRecvFrom host len)

def recvFromVectored (host : HostNet σ ω) (id : SocketId) (lens : List Nat) :
    TableProg σ ω (List UInt8 × SocketAddress) :=
  receiveWith id .recvMsg validateDatagramIo (ensureHostEntry host id .recvMsg)
    (handleRecvFromVectored host lens)

/-! ### Sending -/

/-- The sends of a host handle, each answering with the number of bytes it took. -/
structure HandleSends (σ ω : Type) where
  send : List UInt8 → HandleProg σ ω Nat
  sendVectored : List (List UInt8) → HandleProg σ ω Nat

/-- The checks of a send, and what a send does with the handle's answer. -/
def sendWith (id : SocketId) (operation : SocketOperation) (method : HandleProg σ ω Nat) : TableProg σ ω Nat := do
  let socket ← getSocket id
  .ofExcept (validateConnectedIo socket operation)
  if socket.shutdown.write then
    .throw (.invalidState operation .shutdown "socket write side is shut down")
  else do
    let sent ← onHandle id operation method
    recordHostError id sent

def sendConnected (sends : HandleSends σ ω) (id : SocketId) (bytes : List UInt8) : TableProg σ ω Nat :=
  sendWith id .send (sends.send bytes)

def sendConnectedVectored (sends : HandleSends σ ω) (id : SocketId) (buffers : List (List UInt8)) :
    TableProg σ ω Nat :=
  sendWith id .sendMsg (sends.sendVectored buffers)

/-! ### Polling -/

def requireOpen (id : SocketId) : TableProg σ ω Unit := do
  let socket ← getSocket id
  if socket.state = .closed then .throw (.badSocket id) else pure ()

def cachedPollReadiness (host : HostNet σ ω) (id : SocketId) (interest : SocketEvents) :
    TableProg σ ω (Option SocketEvents) := do
  requireOpen id
  ensureHostEntry host id .poll
  let s ← .get
  match s.table.hostHandles.get? id with
  | none => .throw (noHostHandle .poll)
  | some entry => do
    let token := entry.readinessToken
    let completions ← withHandle id .poll (drainReadinessCompletions host token)
    setTable fun table =>
      { table with
        readinessCache := completions.foldl (fun cache c => cache.applyCompletion token c)
          table.readinessCache }
    let s ← .get
    match s.table.readinessCache.readiness token interest with
    | none => pure none
    | some readiness => do
      finishPolledReadiness host id readiness
      pure (some readiness)

def poll (host : HostNet σ ω) (id : SocketId) (interest : SocketEvents) (timeout : Option Nat) :
    TableProg σ ω SocketEvents := do
  requireOpen id
  let usesHost ← socketUsesHostTransport id
  if !usesHost then pure .none
  else do
    let cached ← cachedPollReadiness host id interest
    match cached with
    | some readiness => pure readiness
    | none => do
      let readiness ← withHandle id .poll (handlePoll host interest timeout)
      finishPolledReadiness host id readiness
      pure readiness

/-- Where `poll_many` has put one of its requests: answered already, into the batch, or into the list of
sockets polled one by one. -/
inductive PollSlot (σ : Type)
  | answered (readiness : SocketEvents)
  | cached (readiness : SocketEvents)
  | batch (id : SocketId) (request : σ × SocketEvents)
  | fallback (id : SocketId) (interest : SocketEvents)

namespace PollSlot

def isCached : PollSlot σ → Bool
  | cached _ => true
  | _ => false

def isBatch : PollSlot σ → Bool
  | batch _ _ => true
  | _ => false

def request? : PollSlot σ → Option (σ × SocketEvents)
  | batch _ request => some request
  | _ => none

end PollSlot

/-- The first loop of `poll_many`, for one request. -/
def placeRequest (host : HostNet σ ω) (request : SocketId × SocketEvents) :
    TableProg σ ω (PollSlot σ) := do
  let (id, interest) := request
  requireOpen id
  let usesHost ← socketUsesHostTransport id
  if !usesHost then pure (.answered .none)
  else do
    let cached ← cachedPollReadiness host id interest
    match cached with
    | some readiness => pure (.cached readiness)
    | none => do
      let s ← .get
      match s.table.hostHandles.get? id with
      | none => .throw (noHostHandle .poll)
      | some entry =>
        match entry.handle.prepareBatchPoll interest with
        | some polled => pure (.batch id polled)
        | none => pure (.fallback id interest)

/-- `poll_batch_requests` after the host has answered: each answer is finished and put in its slot. -/
def finishBatch (host : HostNet σ ω) : List (PollSlot σ) → List SocketEvents →
    TableProg σ ω (List (PollSlot σ))
  | [], _ => pure []
  | .batch id _ :: rest, polled => do
    let s ← .get
    Prog.when ((s.table.hostHandles.get? id).isNone) (.throw (noHostHandle .poll))
    finishPolledReadiness host id (polled.headD .none)
    let slots ← finishBatch host rest polled.tail
    pure (.answered (polled.headD .none) :: slots)
  | slot :: rest, polled => do
    let slots ← finishBatch host rest polled
    pure (slot :: slots)

/-- The last loop of `poll_many`: the first socket polled by itself may wait, the others may not. -/
def pollFallback (host : HostNet σ ω) : Option Nat → List (PollSlot σ) → TableProg σ ω (List SocketEvents)
  | _, [] => pure []
  | timeout, .fallback id interest :: rest => do
    let polled ← withHandle id .poll (handlePoll host interest timeout)
    finishPolledReadiness host id polled
    let events ← pollFallback host (some 0) rest
    pure (polled :: events)
  | timeout, .answered readiness :: rest | timeout, .cached readiness :: rest => do
    let events ← pollFallback host timeout rest
    pure (readiness :: events)
  | timeout, .batch _ _ :: rest => do
    let events ← pollFallback host timeout rest
    pure (.none :: events)

def pollBatchRequests (host : HostNet σ ω) (slots : List (PollSlot σ)) (timeout : Option Nat) :
    TableProg σ ω (List (PollSlot σ)) :=
  if (slots.filterMap PollSlot.request?).isEmpty then pure slots
  else do
    let polled ← tableHostCall (host.pollSockets (slots.filterMap PollSlot.request?) timeout)
    finishBatch host slots polled

def pollMany (host : HostNet σ ω) (requests : List (SocketId × SocketEvents)) (timeout : Option Nat) :
    TableProg σ ω (List SocketEvents) := do
  let slots ← Prog.collect requests (placeRequest host)
  let hasReady := slots.any PollSlot.isCached
  let finished ← pollBatchRequests host slots (if hasReady then some 0 else timeout)
  pollFallback host (if hasReady || slots.any PollSlot.isBatch then some 0 else timeout) finished

end Mcr.Net
