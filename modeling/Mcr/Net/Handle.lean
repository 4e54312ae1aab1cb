import Mcr.Net.Host

/-!
# The host socket handle

`WinHostSocketHandle` keeps, beside the host socket, what its completion port has already answered: a
receive in flight and the bytes, end of file or error it brought, an accept in flight and the connection
it brought, and the same for a connect. A method is a program over the handle and the host.
-/

namespace Mcr.Net

structure WinHostSocketHandle (σ : Type) where
  socket : σ
  spec : SocketSpec
  completionPort : Bool
  pendingAccept : Option (PendingHostAcceptEx σ)
  acceptedFastPath : Option (σ × SocketAddress)
  acceptError : Option HostIoError
  listening : Bool
  pendingRecv : Option PendingHostSocketIo
  recvReady : List UInt8
  recvEof : Bool
  recvError : Option HostIoError
  pendingConnect : Option PendingHostConnectEx
  connectCompleted : Bool
  connectError : Option HostIoError

variable {σ ω : Type}

namespace WinHostSocketHandle

/-- A handle around a socket on which nothing has been started. -/
def fresh (socket : σ) (spec : SocketSpec) (completionPort : Bool) : WinHostSocketHandle σ where
  socket := socket
  spec := spec
  completionPort := completionPort
  pendingAccept := none
  acceptedFastPath := none
  acceptError := none
  listening := false
  pendingRecv := none
  recvReady := []
  recvEof := false
  recvError := none
  pendingConnect := none
  connectCompleted := false
  connectError := none

def canUseIocpRecv (handle : WinHostSocketHandle σ) : Bool :=
  !handle.listening && handle.completionPort && decide (handle.spec.socketType = .stream) &&
    decide (handle.spec.effectiveProtocol = .tcp)

def hasRecvReadiness (handle : WinHostSocketHandle σ) : Bool :=
  !handle.recvReady.isEmpty || handle.recvEof

end WinHostSocketHandle

structure HandleState (σ ω : Type) where
  handle : WinHostSocketHandle σ
  host : ω

abbrev HandleProg (σ ω α : Type) : Type := Prog (HandleState σ ω) HostIoError α

/-- A host call made by the handle, its error converted by `HostIoError::from`. -/
def hostCall {α : Type} (call : Prog ω HostError α) : HandleProg σ ω α := fun s =>
  match call s.host with
  | (.ok a, w) => (.ok a, { s with host := w })
  | (.error e, w) => (.error (.ofHost e), { s with host := w })

/-- A host call that answers with a submission and has no error of its own. -/
def hostSubmit {α : Type} (call : ω → α × ω) : HandleProg σ ω α := fun s =>
  (.ok (call s.host).1, { s with host := (call s.host).2 })

def hostAttempt {α : Type} (call : Prog ω HostError α) : HandleProg σ ω (Except HostError α) :=
  .zoom (fun s => s.host) (fun w s => { s with host := w }) (.attempt call)

def setHandle (f : WinHostSocketHandle σ → WinHostSocketHandle σ) : HandleProg σ ω Unit :=
  .modify fun s => { s with handle := f s.handle }

@[simp] theorem wp_hostCall {α : Type} {call : Prog ω HostError α} {Q : α → HandleState σ ω → Prop}
    {E : HostIoError → HandleState σ ω → Prop} {s : HandleState σ ω} :
    Prog.wp (hostCall call) Q E s ↔
      call.wp (fun a w => Q a { s with host := w }) (fun e w => E (.ofHost e) { s with host := w })
        s.host := by
  unfold Prog.wp hostCall
  rcases call s.host with ⟨r, w⟩
  cases r <;> rfl

@[simp] theorem wp_hostSubmit {α : Type} {call : ω → α × ω} {Q : α → HandleState σ ω → Prop}
    {E : HostIoError → HandleState σ ω → Prop} {s : HandleState σ ω} :
    Prog.wp (hostSubmit call) Q E s ↔ Q (call s.host).1 { s with host := (call s.host).2 } := by
  unfold Prog.wp hostSubmit
  rfl

@[simp] theorem wp_setHandle {f : WinHostSocketHandle σ → WinHostSocketHandle σ}
    {Q : Unit → HandleState σ ω → Prop} {E : HostIoError → HandleState σ ω → Prop}
    {s : HandleState σ ω} :
    Prog.wp (setHandle f) Q E s ↔ Q () { s with handle := f s.handle } :=
  Prog.wp_modify _

/-! ### Receives -/

def winIocpRecvBufferSize : Nat := 16 * 1024

def cacheRecvCompletion (bytes : List UInt8) : HandleProg σ ω Unit :=
  if bytes.isEmpty then setHandle fun handle => { handle with recvEof := true }
  else setHandle fun handle => { handle with recvReady := handle.recvReady ++ bytes }

def directionMismatch (what : String) : HostIoError :=
  ⟨.invalidArgument, "overlapped socket " ++ what ++ " direction mismatch"⟩

def applyRecvSubmission : HostSocketIoSubmission → HandleProg σ ω Unit
  | .completed direction bytes =>
    if direction ≠ .receive then .throw (directionMismatch "completion") else cacheRecvCompletion bytes
  | .failed direction error =>
    if direction ≠ .receive then .throw (directionMismatch "failure")
    else setHandle fun handle => { handle with recvError := some (.ofHost error) }
  | .pending pending =>
    if pending.direction ≠ .receive then .throw (directionMismatch "pending")
    else setHandle fun handle => { handle with pendingRecv := some pending }

@[simp] theorem applyRecvSubmission_completed (bytes : List UInt8) :
    applyRecvSubmission (.completed .receive bytes) = (cacheRecvCompletion bytes : HandleProg σ ω Unit) := rfl

@[simp] theorem applyRecvSubmission_failed (error : HostError) :
    applyRecvSubmission (.failed .receive error) =
      (setHandle fun handle => { handle with recvError := some (.ofHost error) } : HandleProg σ ω Unit) := rfl

@[simp] theorem applyRecvSubmission_pending (len token : Nat) :
    applyRecvSubmission (.pending ⟨.receive, len, token⟩) =
      (setHandle fun handle => { handle with pendingRecv := some ⟨.receive, len, token⟩ } :
        HandleProg σ ω Unit) := rfl

def submitRecvFastPath (host : HostNet σ ω) : HandleProg σ ω Unit := do
  let s ← .get
  if s.handle.pendingRecv.isSome || s.handle.hasRecvReadiness || s.handle.recvError.isSome then pure ()
  else do
    let submission ← hostSubmit (host.submitOverlappedRecv s.handle.socket winIocpRecvBufferSize)
    applyRecvSubmission submission

def completeRecvPacket (packet : HostIoCompletionPacket) : HandleProg σ ω Unit := do
  let s ← .get
  match s.handle.pendingRecv with
  | none => pure ()
  | some pending =>
    if pending.overlappedToken = packet.overlapped then do
      setHandle fun handle => { handle with pendingRecv := none }
      applyRecvSubmission (pending.completeFromPacket packet)
    else pure ()

def WinHostSocketHandle.recvCompletionKind (handle : WinHostSocketHandle σ) : SocketCompletionKind :=
  if handle.recvError.isSome then .error else if handle.recvEof then .peerClosed else .receive

/-- `WinHostSocketHandle::recv` into a buffer of `len` bytes: the bytes it put there. -/
def handleRecv (host : HostNet σ ω) (len : Nat) : HandleProg σ ω (List UInt8) := do
  let s ← .get
  if len = 0 then pure []
  else if !s.handle.recvReady.isEmpty then do
    setHandle fun handle => { handle with recvReady := handle.recvReady.drop len }
    pure (s.handle.recvReady.take len)
  else if s.handle.recvEof then pure []
  else
    match s.handle.recvError with
    | some error => do
      setHandle fun handle => { handle with recvError := none }
      .throw error
    | none =>
      if s.handle.pendingRecv.isSome then .throw ⟨.wouldBlock, "overlapped receive is pending"⟩
      else hostCall (host.recv s.handle.socket len)

def handleRecvVectored (host : HostNet σ ω) (lens : List Nat) : HandleProg σ ω (List UInt8) := do
  let s ← .get
  hostCall (host.recvVectored s.handle.socket lens)

def handleRecvFrom (host : HostNet σ ω) (len : Nat) :
    HandleProg σ ω (List UInt8 × SocketAddress) := do
  let s ← .get
  hostCall (host.recvFrom s.handle.socket len)

def handleRecvFromVectored (host : HostNet σ ω) (lens : List Nat) :
    HandleProg σ ω (List UInt8 × SocketAddress) := do
  let s ← .get
  hostCall (host.recvFromVectored s.handle.socket lens)

/-! ### Polling -/

/-- The part of `poll` that asks the completion port for readable sockets that can use it. -/
def pollRecvPort (host : HostNet σ ω) (timeout : Option Nat) : HandleProg σ ω SocketEvents := do
  submitRecvFastPath host
  let s ← .get
  Prog.when (!s.handle.hasRecvReadiness && s.handle.completionPort && s.handle.pendingRecv.isSome) do
    let packet ← hostCall (host.portGet s.handle.socket timeout)
    match packet with
    | some packet => completeRecvPacket packet
    | none => pure ()
  let s ← .get
  pure { SocketEvents.none with
    readable := s.handle.hasRecvReadiness
    error := s.handle.recvError.isSome }

def pollReadable (host : HostNet σ ω) (viaPort : Bool) (timeout : Option Nat) :
    HandleProg σ ω SocketEvents :=
  if viaPort then pollRecvPort host timeout else pure .none

/-- What is left to ask the host for once the port has answered for readability. -/
def fallbackInterest (viaPort : Bool) (interest : SocketEvents) : SocketEvents :=
  if viaPort then { interest with readable := false } else interest

def handlePoll (host : HostNet σ ω) (interest : SocketEvents) (timeout : Option Nat) :
    HandleProg σ ω SocketEvents := do
  let s ← .get
  let viaPort := interest.readable && s.handle.canUseIocpRecv
  let readiness ← pollReadable host viaPort timeout
  if (fallbackInterest viaPort interest).isEmpty then pure readiness
  else do
    let fallbackTimeout := if readiness.isEmpty then timeout else some 0
    let polled ← hostCall
      (host.pollSockets [(s.handle.socket, fallbackInterest viaPort interest)] fallbackTimeout)
    pure (readiness.merge (polled.headD .none))

/-- `prepare_batch_poll`: the socket to poll in the batch, unless the completion port has to be asked. -/
def WinHostSocketHandle.prepareBatchPoll (handle : WinHostSocketHandle σ) (interest : SocketEvents) :
    Option (σ × SocketEvents) :=
  if interest.readable && handle.canUseIocpRecv then none else some (handle.socket, interest)

/-! ### Completion packets -/

def drainAcceptPacket (host : HostNet σ ω) (token : SocketReadinessToken)
    (pending : PendingHostAcceptEx σ) (packet : HostIoCompletionPacket) :
    HandleProg σ ω (List HostSocketCompletion) := do
  let s ← .get
  setHandle fun handle => { handle with pendingAccept := none }
  .tryCatch
    (do
      let accepted ← hostCall (pending.completeFromPacket host s.handle.socket packet)
      setHandle fun handle => { handle with acceptedFastPath := some accepted }
      pure [⟨token, .accept⟩])
    fun error => do
      setHandle fun handle => { handle with acceptError := some error }
      pure [⟨token, .accept⟩, ⟨token, .error⟩]

def drainRecvPacket (token : SocketReadinessToken) (pending : PendingHostSocketIo)
    (packet : HostIoCompletionPacket) : HandleProg σ ω (List HostSocketCompletion) := do
  setHandle fun handle => { handle with pendingRecv := none }
  applyRecvSubmission (pending.completeFromPacket packet)
  let s ← .get
  pure [⟨token, s.handle.recvCompletionKind⟩]

def drainConnectPacket (host : HostNet σ ω) (token : SocketReadinessToken)
    (packet : HostIoCompletionPacket) : HandleProg σ ω (List HostSocketCompletion) := do
  let s ← .get
  setHandle fun handle => { handle with pendingConnect := none }
  .tryCatch
    (do
      hostCall (PendingHostConnectEx.completeFromPacket host s.handle.socket packet)
      setHandle fun handle => { handle with connectCompleted := true }
      pure [⟨token, .connect⟩])
    fun error => do
      setHandle fun handle => { handle with connectError := some error }
      pure [⟨token, .connect⟩, ⟨token, .error⟩]

/-- One turn of the drain loop: the packet goes to the operation in flight it belongs to. -/
def drainPacket (host : HostNet σ ω) (token : SocketReadinessToken) (packet : HostIoCompletionPacket) :
    HandleProg σ ω (List HostSocketCompletion) := do
  let s ← .get
  match s.handle.pendingAccept.filter (fun pending => pending.overlappedToken = packet.overlapped),
      s.handle.pendingRecv.filter (fun pending => pending.overlappedToken = packet.overlapped),
      s.handle.pendingConnect.filter (fun pending => pending.overlappedToken = packet.overlapped) with
  | some pending, _, _ => drainAcceptPacket host token pending packet
  | none, some pending, _ => drainRecvPacket token pending packet
  | none, none, some _ => drainConnectPacket host token packet
  | none, none, none => pure []

/-- The drain loop, over at most as many packets as the port holds. -/
def drainLoop (host : HostNet σ ω) (token : SocketReadinessToken) :
    Nat → HandleProg σ ω (List HostSocketCompletion)
  | 0 => pure []
  | fuel + 1 => do
    let s ← .get
    let packet ← hostCall (host.portGet s.handle.socket (some 0))
    match packet with
    | none => pure []
    | some packet => do
      let completions ← drainPacket host token packet
      let rest ← drainLoop host token fuel
      pure (completions ++ rest)

def drainReadinessCompletions (host : HostNet σ ω) (token : SocketReadinessToken) :
    HandleProg σ ω (List HostSocketCompletion) := do
  let s ← .get
  if s.handle.completionPort then drainLoop host token (host.queued s.handle.socket s.host) else pure []

/-! ### Connections -/

inductive SocketAcceptFastPath (σ : Type)
  | unsupported
  | pending
  | accepted (handle : WinHostSocketHandle σ) (peer : SocketAddress)

def acceptFastPath (host : HostNet σ ω) (spec : SocketSpec) :
    HandleProg σ ω (SocketAcceptFastPath σ) := do
  let s ← .get
  match s.handle.acceptError with
  | some error => do
    setHandle fun handle => { handle with acceptError := none }
    .throw error
  | none =>
    match s.handle.acceptedFastPath with
    | some (socket, peer) => do
      setHandle fun handle => { handle with acceptedFastPath := none }
      pure (.accepted (.fresh socket spec false) peer)
    | none =>
      if s.handle.pendingAccept.isSome then pure .pending
      else if !s.handle.completionPort || decide (s.handle.spec.socketType ≠ .stream) ||
          decide (s.handle.spec.effectiveProtocol ≠ .tcp) then pure .unsupported
      else do
        let submission ← hostAttempt (host.submitAcceptEx s.handle.socket)
        match submission with
        | .ok pending => do
          setHandle fun handle => { handle with pendingAccept := some pending }
          pure .pending
        | .error error =>
          if error.kind = .unsupported then pure .unsupported else .throw (.ofHost error)

def handleAccept (host : HostNet σ ω) : HandleProg σ ω (WinHostSocketHandle σ × SocketAddress) := do
  let s ← .get
  let (socket, peer) ← hostCall (host.accept s.handle.socket)
  pure (.fresh socket s.handle.spec false, peer)

def handleSetNonblocking (host : HostNet σ ω) (nonblocking : Bool) : HandleProg σ ω Unit := do
  let s ← .get
  hostCall (host.setNonblocking s.handle.socket nonblocking)
  setHandle fun handle =>
    { handle with spec := { handle.spec with flags := { handle.spec.flags with nonblocking := nonblocking } } }

def handleBind (host : HostNet σ ω) (address : SocketAddress) : HandleProg σ ω SocketAddress := do
  let s ← .get
  hostCall (host.bind s.handle.socket address)
  hostCall (host.localAddr s.handle.socket)

def i32Limit : Nat := 2 ^ 31

def handleListen (host : HostNet σ ω) (backlog : Nat) : HandleProg σ ω Unit := do
  let s ← .get
  if i32Limit ≤ backlog then .throw ⟨.invalidArgument, "listen backlog too large"⟩
  else do
    hostCall (host.listen s.handle.socket backlog)
    setHandle fun handle => { handle with listening := true }

inductive SocketConnectFastPath
  | unsupported | pending | connected
deriving DecidableEq, Repr

def connectFastPath (host : HostNet σ ω) (address : SocketAddress) :
    HandleProg σ ω SocketConnectFastPath := do
  let s ← .get
  if s.handle.pendingConnect.isSome || !s.handle.completionPort ||
      decide (s.handle.spec.socketType ≠ .stream) || decide (s.handle.spec.effectiveProtocol ≠ .tcp) then
    pure .unsupported
  else do
    .tryCatch (do let _ ← hostCall (host.localAddr s.handle.socket); pure ())
      fun _ => hostCall (host.bind s.handle.socket (.unspecifiedForDomain address.domain))
    let pending ← hostCall (host.submitConnectEx s.handle.socket address)
    setHandle fun handle => { handle with pendingConnect := some pending }
    pure .pending

def handleConnect (host : HostNet σ ω) (address : SocketAddress) : HandleProg σ ω Unit := do
  let s ← .get
  hostCall (host.connect s.handle.socket address)

inductive SocketConnectFastPathCompletion
  | inactive | pending | completed
deriving DecidableEq, Repr

def completeConnectFastPath : HandleProg σ ω SocketConnectFastPathCompletion := do
  let s ← .get
  if s.handle.connectCompleted then do
    setHandle fun handle => { handle with connectCompleted := false }
    pure .completed
  else if s.handle.connectError.isSome then pure .completed
  else if s.handle.pendingConnect.isSome then pure .pending
  else pure .inactive

def handleTakeError (host : HostNet σ ω) : HandleProg σ ω (Option HostIoError) := do
  let s ← .get
  if s.handle.connectError.isSome then do
    setHandle fun handle => { handle with connectError := none }
    pure s.handle.connectError
  else do
    let error ← hostCall (host.takeError s.handle.socket)
    pure (error.map .ofHost)

def handleLocalAddr (host : HostNet σ ω) : HandleProg σ ω SocketAddress := do
  let s ← .get
  hostCall (host.localAddr s.handle.socket)

def handlePeerAddr (host : HostNet σ ω) : HandleProg σ ω SocketAddress := do
  let s ← .get
  hostCall (host.peerAddr s.handle.socket)

def handleShutdown (host : HostNet σ ω) (how : ShutdownHow) : HandleProg σ ω Unit := do
  let s ← .get
  hostCall (host.shutdown s.handle.socket how)

end Mcr.Net
