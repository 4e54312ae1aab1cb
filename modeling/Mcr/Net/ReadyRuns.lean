import Mcr.Net.ReadyCalls

/-!
# Runs of the socket table

Every call of the table keeps `TableReady` on both exits, so it holds all along a run that starts from an
empty table, and a poll anywhere in the run reports what is buffered. A connection is lost sight of when
an accept that was served by the host forgets the readiness of one that waits in the handle.
-/

namespace Mcr.Net

open Vfs (u64Limit)

variable {σ ω : Type} {host : HostNet σ ω} {s : NetState σ ω} {id : SocketId}

def KeepsReady {α : Type} (m : TableProg σ ω α) (s : NetState σ ω) : Prop :=
  m.wp (fun _ s' => TableReady s'.table) (fun _ s' => TableReady s'.table) s

theorem KeepsReady.bind {α β : Type} {m : TableProg σ ω α} {f : α → TableProg σ ω β}
    {P : α → NetState σ ω → Prop} (hm : m.wp P (fun _ s' => TableReady s'.table) s)
    (hf : ∀ a s', P a s' → KeepsReady (f a) s') : KeepsReady (m >>= f) s := by
  unfold KeepsReady
  rw [Prog.wp_bind]
  exact Prog.wp_mono hm hf fun _ _ h => h

theorem KeepsReady.pure {α : Type} {a : α} (h : TableReady s.table) :
    KeepsReady (pure a : TableProg σ ω α) s := by
  rw [KeepsReady, Prog.wp_pure]
  exact h

theorem KeepsReady.throw {α : Type} {e : SocketError} (h : TableReady s.table) :
    KeepsReady (.throw e : TableProg σ ω α) s := by
  rw [KeepsReady, Prog.wp_throw]
  exact h

theorem KeepsReady.ite {α : Type} {c : Prop} [Decidable c] {m n : TableProg σ ω α}
    (hm : c → KeepsReady m s) (hn : ¬ c → KeepsReady n s) : KeepsReady (if c then m else n) s := by
  split
  · exact hm ‹_›
  · exact hn ‹_›

theorem KeepsReady.getSocket {α : Type} {f : GuestSocket → TableProg σ ω α} (h : TableReady s.table)
    (hf : ∀ socket, s.table.sockets.get? id = some socket → KeepsReady (f socket) s) :
    KeepsReady (getSocket id >>= f) s := by
  rw [KeepsReady, Prog.wp_bind]
  exact wp_getSocket hf fun _ => h

theorem KeepsReady.check {α β : Type} {x : Except SocketError β} {f : β → TableProg σ ω α}
    (h : TableReady s.table) (hf : ∀ a, x = .ok a → KeepsReady (f a) s) :
    KeepsReady (.ofExcept x >>= f) s := by
  rw [KeepsReady, Prog.wp_bind]
  exact Prog.wp_check (fun _ _ => h) hf

theorem KeepsReady.get {α : Type} {f : NetState σ ω → TableProg σ ω α} (hf : KeepsReady (f s) s) :
    KeepsReady (Prog.get >>= f) s := by
  rw [KeepsReady, Prog.wp_bind, Prog.wp_get]
  exact hf

/-! ### Setting sockets up -/

theorem updateSocket_ready {f : GuestSocket → GuestSocket} (h : TableReady s.table)
    (hopen : ∀ socket, s.table.sockets.get? id = some socket → socket.state ≠ .closed → (f socket).state ≠ .closed)
    (hdomain : ∀ socket, (f socket).domain = socket.domain)
    (hlistening : ∀ socket, s.table.sockets.get? id = some socket → (∃ a, socket.state = .listening a) →
      ∃ a, (f socket).state = .listening a) :
    KeepsReady (updateSocket id f) s :=
  wp_updateSocket
    (fun socket hsocket =>
      h.putSocket hsocket (hopen socket hsocket) (hdomain socket) (hlistening socket hsocket))
    fun _ => h

namespace TableReady

variable {table : GuestSocketTable σ}

theorem bumpId (h : TableReady table) (hids : table.nextId ≠ 0) : TableReady table.bumpId := by
  refine ⟨fun hne id' hid' => ?_, fun id' entry hget => ?_, h.cache⟩
  · have hnext : table.bumpId.nextId = if table.nextId + 1 < u64Limit then table.nextId + 1 else 0 := rfl
    rw [hnext] at hne hid'
    split at hne
    · rename_i hlimit
      rw [if_pos hlimit] at hid'
      exact h.unused hids id' (by omega)
    · exact absurd rfl hne
  · obtain ⟨htoken, hsocket⟩ := h.entry id' entry hget
    exact ⟨htoken, hsocket⟩

theorem unused_handle (h : TableReady table) (hids : table.nextId ≠ 0) :
    table.hostHandles.get? table.nextId = none := by
  cases hget : table.hostHandles.get? table.nextId with
  | none => rfl
  | some entry =>
      obtain ⟨socket, hsocket, _⟩ := (h.entry _ entry hget).socket
      rw [h.unused hids _ le_rfl] at hsocket
      nomatch hsocket

theorem addSocket (h : TableReady table) (hids : table.nextId ≠ 0) (socket : GuestSocket) :
    TableReady (table.bumpId.putSocket table.nextId socket) := by
  have hbump := h.bumpId hids
  refine ⟨fun hne id' hid' => ?_, fun id' entry hget => ?_, h.cache⟩
  · show (table.sockets.insert table.nextId socket).get? id' = none
    have hlt : table.nextId < id' := by
      have hnext : table.bumpId.nextId = if table.nextId + 1 < u64Limit then table.nextId + 1 else 0 := rfl
      have hid : table.bumpId.nextId ≤ id' := hid'
      have hne' : table.bumpId.nextId ≠ 0 := hne
      rw [hnext] at hid hne'
      split at hne'
      · rename_i hlimit
        rw [if_pos hlimit] at hid
        omega
      · exact absurd rfl hne'
    rw [SortedMap.get?_insert, if_neg hlt.ne']
    exact hbump.unused hne id' hid'
  · obtain ⟨htoken, socket', hsocket', hopen, hdomain, hready⟩ := hbump.entry id' entry hget
    refine ⟨htoken, socket', ?_, hopen, hdomain, hready⟩
    have hid : id' ≠ table.nextId := by
      intro heq
      rw [heq, show table.bumpId.sockets = table.sockets from rfl, h.unused hids _ le_rfl] at hsocket'
      nomatch hsocket'
    rw [GuestSocketTable.putSocket, SortedMap.get?_insert, if_neg hid]
    exact hsocket'

end TableReady

theorem createSocketFromSpec_ready {spec : SocketSpec} (h : TableReady s.table) :
    KeepsReady (createSocketFromSpec spec) s := by
  unfold createSocketFromSpec
  refine .check h fun _ _ => ?_
  unfold KeepsReady
  rw [Prog.wp_bind]
  refine wp_allocateId (fun hids => ?_) fun _ => h
  rw [Prog.wp_bind, wp_setTable, Prog.wp_pure]
  exact h.addSocket hids _

theorem registerAcceptedSocket_ready {spec : SocketSpec} {raw : σ} {handleSpec : SocketSpec} {port : Bool}
    {localAddress peer : SocketAddress} (h : TableReady s.table) (hdomain : spec.domain ≠ .unix) :
    KeepsReady (registerAcceptedSocket spec (.fresh raw handleSpec port) localAddress peer) s := by
  unfold registerAcceptedSocket
  refine .bind (P := fun accepted s' => TableReady s'.table ∧
    s'.table.sockets.get? accepted = some (.new accepted spec)) ?_ fun accepted s' h' => ?_
  · unfold createSocketWithHandle
    rw [Prog.wp_bind]
    refine Prog.wp_check (fun _ _ => h) fun _ _ => ?_
    rw [Prog.wp_bind]
    refine wp_allocateId (fun hids => ?_) fun _ => h
    rw [Prog.wp_bind]
    refine wp_allocateReadinessToken ?_ fun _ => h.bumpId hids
    rw [Prog.wp_bind, wp_setTable, Prog.wp_pure]
    have hsocket : (s.table.sockets.insert s.table.nextId (.new s.table.nextId spec)).get? s.table.nextId =
        some (.new s.table.nextId spec) := by rw [SortedMap.get?_insert, if_pos rfl]
    exact ⟨(h.addSocket hids (.new s.table.nextId spec)).addHandle (h.unused_handle hids) hsocket
      (by exact nofun) hdomain, hsocket⟩
  · refine .bind (P := fun _ s'' => TableReady s''.table) ?_ fun _ _ h'' => .pure h''
    refine updateSocket_ready h'.1 (fun _ _ _ => nofun) (fun _ => rfl) fun socket hsocket ⟨_, hlistening⟩ => ?_
    rw [h'.2] at hsocket
    cases hsocket
    nomatch hlistening

def ReadyWith (id : SocketId) (socket : GuestSocket) (s : NetState σ ω) : Prop :=
  TableReady s.table ∧ s.table.sockets.get? id = some socket

theorem ensureHostEntry_ready {operation : SocketOperation} {socket : GuestSocket}
    (h : ReadyWith id socket s) (hopen : socket.state ≠ .closed) :
    (ensureHostEntry host id operation).wp (fun _ => ReadyWith id socket) (fun _ => ReadyWith id socket) s := by
  have hensured := ensureHostEntry_kept host id operation h.1
    fun socket' hsocket' => by rw [h.2] at hsocket'; cases hsocket'; exact hopen
  exact Prog.wp_mono hensured (fun _ s' h' => ⟨h'.1.ready, by rw [h'.2.1]; exact h.2⟩)
    fun _ s' h' => ⟨h'.1.ready, by rw [h'.2]; exact h.2⟩

theorem withHandle_ready {α : Type} {operation : SocketOperation} {method : HandleProg σ ω α}
    {socket : GuestSocket} (hmethod : KeepsBuffers method) (h : ReadyWith id socket s) :
    (withHandle id operation method).wp (fun _ => ReadyWith id socket) (fun _ => ReadyWith id socket) s :=
  Prog.wp_mono (withHandle_kept hmethod h.1)
    (fun _ s' h' => ⟨h'.1.ready, by rw [h'.2]; exact h.2⟩) fun _ s' h' => ⟨h'.1.ready, by rw [h'.2]; exact h.2⟩

theorem KeepsReady.bind' {α β : Type} {m : TableProg σ ω α} {f : α → TableProg σ ω β} {socket : GuestSocket}
    (hm : m.wp (fun _ => ReadyWith id socket) (fun _ => ReadyWith id socket) s)
    (hf : ∀ a s', ReadyWith id socket s' → KeepsReady (f a) s') : KeepsReady (m >>= f) s :=
  .bind (Prog.wp_mono hm (fun _ _ h => h) fun _ _ h => h.1) hf

/-! ### Binding, listening and connecting -/

theorem handleBind_same {address : SocketAddress} : KeepsBuffers (handleBind host address) :=
  .get fun _ => .bind (.hostCall _) fun _ => .hostCall _

theorem handleConnect_same {address : SocketAddress} : KeepsBuffers (handleConnect host address) :=
  .get fun _ => .hostCall _

theorem handleShutdown_same {how : ShutdownHow} : KeepsBuffers (handleShutdown host how) :=
  .get fun _ => .hostCall _

theorem handleSetNonblocking_same {nonblocking : Bool} :
    KeepsBuffers (handleSetNonblocking host nonblocking) :=
  .get fun _ => .bind (.hostCall _) fun _ => .setHandle fun _ => ⟨rfl, rfl, rfl, rfl, rfl⟩

theorem connectFastPath_same {address : SocketAddress} : KeepsBuffers (connectFastPath host address) := by
  refine .get fun t => .ite (.pure _) (.bind ?_ fun _ => .bind (.hostCall _) fun _ => .bind ?_ fun _ => .pure _)
  · exact .tryCatch (.bind (.hostCall _) fun _ => .pure _) fun _ => .hostCall _
  · exact .setHandle fun _ => ⟨rfl, rfl, rfl, rfl, rfl⟩

theorem socketUsesHostTransportWhen_looks {condition : Bool} (h : TableReady s.table) :
    (socketUsesHostTransportWhen condition id).wp (fun uses s' => s' = s ∧ (uses = true → condition = true))
      (fun _ s' => TableReady s'.table) s := by
  unfold socketUsesHostTransportWhen
  cases condition with
  | true => exact wp_socketUsesHostTransport (fun _ _ => ⟨rfl, fun _ => rfl⟩) fun _ => h
  | false => exact (Prog.wp_pure false).mpr ⟨rfl, fun huses => huses⟩

theorem bind_ready {address : SocketAddress} (h : TableReady s.table) : KeepsReady (bind host id address) s := by
  unfold bind
  refine .getSocket h fun socket hsocket => .check h fun _ _ => ?_
  have hstate : ∀ {s' : NetState σ ω}, TableReady s'.table → s'.table.sockets.get? id = some socket →
      socket.state = .created → ∀ a, KeepsReady (updateSocket id fun socket => { socket with state := .bound a }) s' := by
    intro s' h' hsocket' hcreated a
    refine updateSocket_ready h' (fun _ _ _ => nofun) (fun _ => rfl) fun socket' hsocket'' ⟨_, hlistening⟩ => ?_
    rw [hsocket'] at hsocket''
    cases hsocket''
    rw [hcreated] at hlistening
    nomatch hlistening
  refine .bind (socketUsesHostTransportWhen_looks h) fun uses s' h' => ?_
  obtain ⟨rfl, huses⟩ := h'
  refine .ite (fun hhost => ?_) fun _ => ?_
  · have hcreated : socket.state = .created := by simpa using huses hhost
    refine .bind' (ensureHostEntry_ready ⟨h, hsocket⟩ (by rw [hcreated]; exact nofun)) fun _ s₁ h₁ => ?_
    refine .bind' (withHandle_ready handleBind_same h₁) fun bound s₂ h₂ => ?_
    exact hstate h₂.1 h₂.2 hcreated bound
  · cases hcase : socket.state with
    | created => exact hstate h hsocket hcase address
    | bound a => exact .throw h
    | connecting a => exact .throw h
    | listening a => exact .throw h
    | connected a b => exact .throw h
    | closed => exact .throw h

def NothingReceived (s : NetState σ ω) (id : SocketId) : Prop :=
  ∀ entry, s.table.hostHandles.get? id = some entry →
    entry.handle.hasRecvReadiness = false ∧ entry.handle.pendingRecv = none

/-- A handle that listens stops polling its own receive buffers, which therefore have to be empty. -/
theorem withHandleListen_ready {backlog : Nat} {socket : GuestSocket} (h : TableReady s.table)
    (hsocket : s.table.sockets.get? id = some socket) (hnothing : NothingReceived s id) :
    (withHandle id .listen (handleListen host backlog)).wp
      (fun _ s' => TableReady s'.table ∧ s'.table.sockets.get? id = some socket)
      (fun _ s' => TableReady s'.table) s := by
  refine wp_withHandle (fun _ => h) fun entry hentry => ?_
  obtain ⟨hready, hpending⟩ := hnothing entry hentry
  have hput : ∀ t : HandleState σ ω, (t.handle = entry.handle ∨ t.handle = { entry.handle with listening := true }) →
      TableReady (s.putHandle id entry t).table := by
    intro t ht
    refine h.put hentry (fun _ _ => rfl) fun socket _ hold => ?_
    rcases ht with heq | heq
    · rw [heq]
      exact hold
    · rw [heq]
      refine ⟨hold.accepted, hold.listening, fun hreceiving => ?_, hold.exclusive⟩
      rcases hreceiving with h1 | h1
      · exact absurd (h1.symm.trans hready) (by decide)
      · exact absurd (hpending ▸ h1 : (none : Option PendingHostSocketIo).isSome = true) (by decide)
  unfold handleListen
  rw [Prog.wp_bind, Prog.wp_get, Prog.wp_ite]
  split
  · rw [Prog.wp_throw]
    exact hput _ (Or.inl rfl)
  rw [Prog.wp_bind, wp_hostCall]
  refine wp_anyCall (fun _ w => ?_) fun _ w => hput _ (Or.inl rfl)
  rw [wp_setHandle]
  exact ⟨hput _ (Or.inr rfl), hsocket⟩

theorem moveToListening_ready (state : SocketState) (h : TableReady s.table) :
    KeepsReady (match state with
      | .created => .throw (.invalidState .listen .invalidArgument "socket must be bound before listen")
      | .bound address => updateSocket id fun socket => { socket with state := .listening address }
      | .listening _ => Pure.pure ()
      | .connecting _ => .throw (.invalidState .listen .invalidArgument "connecting socket cannot listen")
      | .connected _ _ => .throw (.invalidState .listen .invalidArgument "connected socket cannot listen")
      | .closed => .throw (.badSocket id) : TableProg σ ω Unit) s := by
  cases state with
  | created => exact .throw h
  | bound address =>
      exact updateSocket_ready h (fun _ _ _ => by rintro ⟨⟩) (fun _ => rfl) fun _ _ _ => ⟨address, rfl⟩
  | listening address => exact .pure h
  | connecting address => exact .throw h
  | connected a b => exact .throw h
  | closed => exact .throw h

theorem listen_ready {backlog : Nat} (h : TableReady s.table) (hnothing : NothingReceived s id) :
    KeepsReady (listen host id backlog) s := by
  unfold listen
  refine .getSocket h fun socket hsocket => .ite (fun _ => .throw h) fun _ => ?_
  simp only
  refine .bind (socketUsesHostTransportWhen_looks h) fun uses s' h' => ?_
  obtain ⟨rfl, huses⟩ := h'
  refine .bind (P := fun _ s' => TableReady s'.table ∧ s'.table.sockets.get? id = some socket) ?_
    fun _ s' h' => moveToListening_ready socket.state h'.1
  rw [Prog.wp_when]
  split
  · rename_i hhost
    have hopen : socket.state ≠ .closed := by
      intro hclosed
      rw [hclosed] at huses
      cases huses hhost
    have hensured := ensureHostEntry_kept host id .listen h
      fun socket' hsocket' => by rw [hsocket] at hsocket'; cases hsocket'; exact hopen
    rw [Prog.wp_bind]
    refine Prog.wp_mono hensured (fun _ s₁ h₁ => ?_) fun _ _ h₁ => h₁.1.ready
    obtain ⟨hkept, hsockets, _, hsame, hfresh⟩ := h₁
    refine withHandleListen_ready hkept.ready (by rw [hsockets]; exact hsocket) fun entry hentry => ?_
    cases hold : s'.table.hostHandles.get? id with
    | some entry₀ =>
        rw [hsame entry₀ hold] at hentry
        exact hnothing entry hentry
    | none =>
        obtain ⟨raw, spec, port, hhandle⟩ := hfresh hold entry hentry
        rw [hhandle]
        exact ⟨rfl, rfl⟩
  · exact ⟨h, hsocket⟩

theorem connectHostSocket_ready {address : SocketAddress} {socket : GuestSocket}
    (h : ReadyWith id socket s) (hopen : socket.state ≠ .closed) :
    (connectHostSocket host id address).wp (fun _ => ReadyWith id socket) (fun _ => ReadyWith id socket) s := by
  have haddresses : ∀ {s' : NetState σ ω}, ReadyWith id socket s' → Prog.wp (do
      let localAddress ← withHandle id .connect (handleLocalAddr host)
      if socket.socketType = .datagram ∧ socket.effectiveProtocol = .udp then pure (localAddress, address)
      else do
        let peer ← withHandle id .connect (handlePeerAddr host)
        pure (localAddress, peer)) (fun _ => ReadyWith id socket) (fun _ => ReadyWith id socket) s' := by
    intro s' h'
    rw [Prog.wp_bind]
    refine Prog.wp_mono (withHandle_ready handleLocalAddr_same h') (fun _ s₁ h₁ => ?_) fun _ _ h₁ => h₁
    rw [Prog.wp_ite, Prog.wp_pure, Prog.wp_bind]
    split
    · exact h₁
    · refine Prog.wp_mono (withHandle_ready handlePeerAddr_same h₁) (fun _ s₂ h₂ => ?_) fun _ _ h₂ => h₂
      rw [Prog.wp_pure]
      exact h₂
  unfold connectHostSocket
  rw [Prog.wp_bind]
  refine wp_getSocket (fun socket' hsocket' => ?_) fun _ => h
  obtain rfl : socket' = socket := Option.some.inj (hsocket'.symm.trans h.2)
  rw [Prog.wp_bind]
  refine Prog.wp_mono (ensureHostEntry_ready h hopen) (fun _ s₁ h₁ => ?_) fun _ _ h₁ => h₁
  rw [Prog.wp_bind]
  refine Prog.wp_mono (withHandle_ready connectFastPath_same h₁) (fun fastPath s₂ h₂ => ?_) fun _ _ h₂ => h₂
  cases fastPath with
  | connected => exact haddresses h₂
  | pending =>
      simp only
      rw [Prog.wp_bind, Prog.wp_throw]
      exact h₂
  | unsupported =>
      simp only
      rw [Prog.wp_bind]
      exact Prog.wp_mono (withHandle_ready handleConnect_same h₂) (fun _ _ h₃ => haddresses h₃) fun _ _ h₃ => h₃

theorem connect_ready {address : SocketAddress} (h : TableReady s.table) :
    KeepsReady (connect host id address) s := by
  unfold connect
  refine .getSocket h fun socket hsocket => .check h fun _ _ => .check h fun _ hvalid => ?_
  have hunbound : socket.state ≠ .closed ∧ ¬ ∃ a, socket.state = .listening a := by
    unfold validateConnect at hvalid
    cases hstate : socket.state <;> rw [hstate] at hvalid <;> simp at hvalid ⊢
  have hupdate : ∀ {s' : NetState σ ω} {f : GuestSocket → GuestSocket}, TableReady s'.table →
      s'.table.sockets.get? id = some socket → (f socket).state ≠ .closed →
      (∀ socket, (f socket).domain = socket.domain) → KeepsReady (updateSocket id f) s' := by
    intro s' f h' hsocket' hopen hdomain
    refine updateSocket_ready h' (fun socket' hs _ => ?_) hdomain fun socket' hs hlistening => ?_
    · rw [hsocket'] at hs
      cases hs
      exact hopen
    · rw [hsocket'] at hs
      cases hs
      exact absurd hlistening hunbound.2
  refine .bind (P := fun _ s' => s' = s) (wp_socketUsesHostTransport (fun _ _ => rfl) fun _ => h) fun uses s' h' => ?_
  subst h'
  refine .ite (fun _ => ?_) fun _ => hupdate h hsocket (by exact nofun) fun _ => rfl
  refine .bind (P := fun _ s₁ => TableReady s₁.table ∧ s₁.table.sockets.get? id = some socket) ?_ fun connected s₁ h₁ => ?_
  · rw [Prog.wp_attempt]
    exact connectHostSocket_ready ⟨h, hsocket⟩ hunbound.1
  cases connected with
  | ok addresses => exact hupdate h₁.1 h₁.2 (by exact nofun) fun _ => rfl
  | error error =>
      refine .ite (fun _ => ?_) fun _ => .throw h₁.1
      refine .bind (P := fun _ s₂ => TableReady s₂.table) ?_ fun _ _ h₂ => .throw h₂
      exact hupdate h₁.1 h₁.2 (by exact nofun) fun _ => rfl

theorem whenHandle_ready {operation : SocketOperation} {method : HandleProg σ ω Unit} {socket : GuestSocket}
    (hmethod : KeepsBuffers method) (h : ReadyWith id socket s) :
    (Prog.when ((s.table.hostHandles.get? id).isSome) (withHandle id operation method)).wp
      (fun _ => ReadyWith id socket) (fun _ => ReadyWith id socket) s := by
  rw [Prog.wp_when]
  split
  · exact withHandle_ready hmethod h
  · exact h

theorem updateSameState_ready {f : GuestSocket → GuestSocket} (h : TableReady s.table)
    (hstate : ∀ socket, (f socket).state = socket.state)
    (hdomain : ∀ socket, (f socket).domain = socket.domain) : KeepsReady (updateSocket id f) s := by
  refine updateSocket_ready h (fun socket _ hopen => ?_) hdomain fun socket _ hlistening => ?_
  · rw [hstate]
    exact hopen
  · rw [hstate]
    exact hlistening

theorem setNonblocking_ready {nonblocking : Bool} (h : TableReady s.table) :
    KeepsReady (setNonblocking host id nonblocking) s := by
  unfold setNonblocking
  refine .getSocket h fun socket hsocket => .ite (fun _ => .pure h) fun _ => .get ?_
  refine .bind' (whenHandle_ready handleSetNonblocking_same ⟨h, hsocket⟩) fun _ s' h' => ?_
  exact updateSameState_ready h'.1 (fun _ => rfl) fun _ => rfl

theorem shutdown_ready {how : ShutdownHow} (h : TableReady s.table) :
    KeepsReady (shutdown host id how) s := by
  unfold shutdown
  refine .getSocket h fun socket hsocket => ?_
  cases hstate : socket.state with
  | connected a b =>
      refine .get (.bind' (whenHandle_ready handleShutdown_same ⟨h, hsocket⟩) fun _ s' h' => ?_)
      exact updateSameState_ready h'.1 (fun _ => rfl) fun _ => rfl
  | created => exact .throw h
  | bound a => exact .throw h
  | connecting a => exact .throw h
  | listening a => exact .throw h
  | closed => exact .throw h

theorem getSocketErrorOption_ready (h : TableReady s.table) : KeepsReady (getSocketErrorOption host id) s := by
  have htaken : ∀ {s' : NetState σ ω}, TableReady s'.table → KeepsReady (do
      let socket ← getSocket id
      updateSocket id fun socket => { socket with lastError := none }
      pure ((socket.lastError.map LinuxErrno.raw).getD 0) : TableProg σ ω Nat) s' := by
    intro s' h'
    refine .getSocket h' fun socket _ => ?_
    exact .bind (updateSameState_ready h' (fun _ => rfl) fun _ => rfl) fun _ _ h'' => .pure h''
  unfold getSocketErrorOption
  refine .getSocket h fun socket _ => .ite (fun _ => ?_) fun _ => htaken h
  refine .bind (P := fun _ s₁ => TableReady s₁.table) ?_ fun finished s₁ h₁ => ?_
  · rw [Prog.wp_attempt]
    exact Prog.wp_mono (finishNonblockingConnect_kept h) (fun _ _ h => h.ready) fun _ _ h => h.ready
  cases finished with
  | ok _ => exact htaken h₁
  | error error =>
      refine .bind (P := fun _ s₂ => TableReady s₂.table) ?_ fun _ _ h₂ => .pure h₂
      rw [Prog.wp_tryCatch]
      exact Prog.wp_mono (updateSameState_ready h₁ (fun _ => rfl) fun _ => rfl) (fun _ _ h => h)
        fun _ _ h => by rw [Prog.wp_pure]; exact h

/-! ### Accepting -/

/-- The host has no connection to hand to an accept while the handle still holds one. -/
def AcceptSpared (host : HostNet σ ω) (s : NetState σ ω) (id : SocketId) : Prop :=
  ∀ entry, s.table.hostHandles.get? id = some entry → entry.handle.acceptedFastPath.isSome →
    ∀ accepted w, host.accept entry.handle.socket s.host ≠ (.ok accepted, w)

theorem HandleReady.tried {socket : GuestSocket} {events : SocketEvents} {h h' : WinHostSocketHandle σ}
    (hready : HandleReady socket events h) (htried : AcceptTried h h')
    (hlistening : ∃ a, socket.state = .listening a) : HandleReady socket events h' := by
  refine ⟨hready.accepted ∘ htried.accepted, fun _ => hlistening, ?_, ?_⟩
  · rw [htried.received, htried.receiving, WinHostSocketHandle.canUseIocpRecv_of_setup htried.setup]
    exact hready.receiving
  · rw [WinHostSocketHandle.Exclusive, htried.receiving, htried.received]
    exact hready.exclusive

theorem clearReadiness_ready (h : TableReady s.table)
    (hnone : ∀ entry, s.table.hostHandles.get? id = some entry → entry.handle.acceptedFastPath = none) :
    (clearReadiness id).wp (fun _ s' => TableReady s'.table) (fun _ s' => TableReady s'.table) s := by
  rw [clearReadiness, wp_setTable]
  exact h.clear hnone

theorem accept_ready (h : TableReady s.table) (hspared : AcceptSpared host s id) :
    KeepsReady (accept host id) s := by
  unfold accept
  refine .bind (P := fun _ s' => s' = s ∧ ∃ socket, s.table.sockets.get? id = some socket ∧
    ∃ a, socket.state = .listening a) ?_ fun localAddress s' h' => ?_
  · unfold requireListening
    rw [Prog.wp_bind]
    refine wp_getSocket (fun socket hsocket => ?_) fun _ => h
    cases hstate : socket.state with
    | listening a =>
        simp only
        rw [Prog.wp_pure]
        exact ⟨rfl, socket, hsocket, a, hstate⟩
    | created => exact (Prog.wp_throw _).mpr h
    | bound a => exact (Prog.wp_throw _).mpr h
    | connecting a => exact (Prog.wp_throw _).mpr h
    | connected a b => exact (Prog.wp_throw _).mpr h
    | closed => exact (Prog.wp_throw _).mpr h
  obtain ⟨rfl, socket, hsocket, hlistening⟩ := h'
  have hopen : socket.state ≠ .closed := by
    obtain ⟨a, ha⟩ := hlistening
    rw [ha]
    exact nofun
  refine .get (.ite (fun _ => .throw h) fun _ => ?_)
  refine .bind (P := fun spec s₁ => s₁ = s' ∧ spec.domain = socket.domain) ?_ fun spec s₁ h₁ => ?_
  · refine wp_socketSpec (fun socket' hsocket' => ⟨rfl, ?_⟩) fun _ => h
    rw [hsocket] at hsocket'
    cases hsocket'
    rfl
  obtain ⟨rfl, hspec⟩ := h₁
  have hensured := ensureHostEntry_kept host id .accept h
    fun socket' hsocket' => by rw [hsocket] at hsocket'; cases hsocket'; exact hopen
  refine .bind (Prog.wp_mono hensured (fun _ _ h => h) fun _ _ h => h.1.ready) fun _ s₂ h₂ => ?_
  obtain ⟨hkept, hsockets, ⟨entry, hentry⟩, hsame, hfresh⟩ := h₂
  have hsocket₂ : s₂.table.sockets.get? id = some socket := by rw [hsockets]; exact hsocket
  have hdomain : spec.domain ≠ .unix := by
    obtain ⟨socket', hsocket', _, hdomain, _⟩ := (hkept.ready.entry id entry hentry).socket
    rw [hsocket₂] at hsocket'
    cases hsocket'
    rw [hspec]
    exact hdomain
  have hnone : ∀ accepted w, host.accept entry.handle.socket s₂.host = (.ok accepted, w) →
      entry.handle.acceptedFastPath = none := by
    intro accepted w hrun
    cases hold : s₁.table.hostHandles.get? id with
    | some entry₀ =>
        obtain rfl := hsame entry₀ hold
        by_contra hsome
        exact hspared entry hentry (Option.isSome_iff_ne_none.mpr hsome) accepted w hrun
    | none =>
        obtain ⟨raw, handleSpec, port, hhandle⟩ := hfresh hold entry hentry
        rw [hhandle]
        rfl
  refine .bind (P := fun accepted s₃ => ReadyWith id socket s₃ ∧
    ∀ raw peer, accepted = .ok (raw, peer) → (∃ r handleSpec port, raw = .fresh r handleSpec port) ∧
      ∀ entry, s₃.table.hostHandles.get? id = some entry → entry.handle.acceptedFastPath = none) ?_
    fun accepted s₃ h₃ => ?_
  · refine wp_onHandle (fun _ => hkept.ready) fun entry' hentry' => ?_
    obtain rfl : entry = entry' := Option.some.inj (hentry.symm.trans hentry')
    have hput : ∀ t : HandleState σ ω, t.handle = entry.handle →
        ReadyWith id socket (s₂.putHandle id entry t) := by
      intro t ht
      refine ⟨hkept.ready.put hentry (fun _ _ => rfl) fun _ _ hold => ?_, hsocket₂⟩
      rw [ht]
      exact hold
    refine Prog.wp_mono handleAccept_same (fun result t ht => ⟨hput t ht.1, fun raw peer hresult => ?_⟩)
      fun _ t ht => ⟨hput t ht, fun _ _ hresult => (nomatch hresult)⟩
    obtain ⟨ht, ⟨w, accepted, hrun⟩, r, hfresh'⟩ := ht
    cases hresult
    refine ⟨⟨r, _, _, hfresh'⟩, fun entry' hget => ?_⟩
    rw [NetState.putHandle, SortedMap.get?_insert, if_pos rfl] at hget
    cases hget
    show t.handle.acceptedFastPath = none
    rw [ht]
    exact hnone accepted w hrun
  cases accepted with
  | ok connection =>
      obtain ⟨raw, peer⟩ := connection
      obtain ⟨⟨r, handleSpec, port, rfl⟩, hnone₃⟩ := h₃.2 raw peer rfl
      exact .bind (clearReadiness_ready h₃.1.1 hnone₃) fun _ _ h₄ => registerAcceptedSocket_ready h₄ hdomain
  | error error =>
      refine .ite (fun _ => .throw h₃.1.1) fun _ => ?_
      refine .bind (P := fun result s₄ => TableReady s₄.table ∧ ∀ raw peer, result = .accepted raw peer →
        (∃ r handleSpec port, raw = .fresh r handleSpec port) ∧
          ∀ entry, s₄.table.hostHandles.get? id = some entry → entry.handle.acceptedFastPath = none) ?_
        fun result s₄ h₄ => ?_
      · refine wp_withHandle (fun _ => h₃.1.1) fun entry hentry => ?_
        have hput : ∀ t : HandleState σ ω, AcceptTried entry.handle t.handle →
            TableReady (s₃.putHandle id entry t).table := by
          intro t ht
          refine h₃.1.1.put hentry (fun _ _ => rfl) fun socket' hsocket' hold => hold.tried ht ?_
          obtain rfl : socket' = socket := Option.some.inj (hsocket'.symm.trans h₃.1.2)
          exact hlistening
        refine Prog.wp_mono acceptFastPath_tried (fun result t ht => ⟨hput t ht.1, fun raw peer hresult => ?_⟩)
          fun _ t ht => hput t ht
        obtain ⟨hgone, r, hfresh'⟩ := ht.2 raw peer hresult
        refine ⟨⟨r, _, _, hfresh'⟩, fun entry' hget => ?_⟩
        rw [NetState.putHandle, SortedMap.get?_insert, if_pos rfl] at hget
        cases hget
        exact hgone
      · cases result with
        | unsupported => exact .throw h₄.1
        | pending => exact .throw h₄.1
        | accepted raw peer =>
            obtain ⟨⟨r, handleSpec, port, rfl⟩, hnone₄⟩ := h₄.2 raw peer rfl
            exact .bind (clearReadiness_ready h₄.1 hnone₄) fun _ _ h₅ => registerAcceptedSocket_ready h₅ hdomain

/-! ### Receiving and closing -/

theorem HandleReady.drew {socket : GuestSocket} {events : SocketEvents} {h h' : WinHostSocketHandle σ}
    (hready : HandleReady socket events h) (hdrew : Drew h h') : HandleReady socket events h' := by
  refine ⟨?_, ?_, fun hreceiving => ?_, fun hpending => ?_⟩
  · rw [hdrew.accepted]
    exact hready.accepted
  · rw [hdrew.accepted, hdrew.accepting]
    exact hready.listening
  · rw [WinHostSocketHandle.canUseIocpRecv_of_setup hdrew.setup]
    rw [hdrew.receiving] at hreceiving
    exact hready.receiving (hreceiving.imp_left hdrew.received)
  · rw [hdrew.receiving] at hpending
    rw [Bool.eq_false_iff]
    intro hrecv
    exact absurd (hdrew.received hrecv) (by rw [hready.exclusive hpending]; decide)

/-- A receive on an open socket that does not listen: no connection can be waiting behind the readiness
it forgets. -/
theorem receiveWith_ready {α : Type} {operation : SocketOperation}
    {validate : GuestSocket → SocketOperation → Except SocketError Unit} {prepare : TableProg σ ω Unit}
    {method : HandleProg σ ω α} (h : TableReady s.table)
    (hvalid : ∀ socket, validate socket operation = .ok () →
      socket.state ≠ .closed ∧ ¬ ∃ a, socket.state = .listening a)
    (hprepare : ∀ socket, ReadyWith id socket s → socket.state ≠ .closed →
      prepare.wp (fun _ => ReadyWith id socket) (fun _ => ReadyWith id socket) s)
    (hmethod : ∀ t, method.wp (fun _ t' => Drew t.handle t'.handle) (fun _ t' => Drew t.handle t'.handle) t) :
    KeepsReady (receiveWith id operation validate prepare method) s := by
  unfold receiveWith
  refine .getSocket h fun socket hsocket => .check h fun _ hok => .ite (fun _ => .throw h) fun _ => ?_
  obtain ⟨hopen, hidle⟩ := hvalid socket hok
  refine .bind' (hprepare socket ⟨h, hsocket⟩ hopen) fun _ s₁ h₁ => ?_
  refine .bind (P := fun _ s₂ => ReadyWith id socket s₂) ?_ fun received s₂ h₂ => ?_
  · refine wp_onHandle (fun _ => h₁.1) fun entry hentry => ?_
    have hput : ∀ t : HandleState σ ω, Drew entry.handle t.handle → ReadyWith id socket (s₁.putHandle id entry t) :=
      fun t ht => ⟨h₁.1.put hentry (fun _ _ => rfl) fun _ _ hold => hold.drew ht, h₁.2⟩
    exact Prog.wp_mono (hmethod _) (fun _ t ht => hput t ht) fun _ t ht => hput t ht
  have hnone : ∀ entry, s₂.table.hostHandles.get? id = some entry → entry.handle.acceptedFastPath = none := by
    intro entry hentry
    obtain ⟨socket', hsocket', _, _, hready⟩ := (h₂.1.entry id entry hentry).socket
    obtain rfl : socket' = socket := Option.some.inj (hsocket'.symm.trans h₂.2)
    by_contra hsome
    exact hidle (hready.listening (Or.inl (Option.isSome_iff_ne_none.mpr hsome)))
  refine .bind (P := fun _ s₃ => TableReady s₃.table) ?_ fun _ s₃ h₃ => ?_
  · rw [Prog.wp_when]
    split
    · exact clearReadiness_ready h₂.1 hnone
    · exact h₂.1
  cases received with
  | ok a => exact .pure h₃
  | error error =>
      refine .bind (P := fun _ s₄ => TableReady s₄.table) ?_ fun _ _ h₄ => .throw h₄
      rw [Prog.wp_tryCatch]
      exact Prog.wp_mono (updateSameState_ready h₃ (fun _ => rfl) fun _ => rfl) (fun _ _ h => h)
        fun _ _ h => by rw [Prog.wp_pure]; exact h

theorem validateConnectedIo_ok {socket : GuestSocket} {operation : SocketOperation}
    (h : validateConnectedIo socket operation = .ok ()) :
    socket.state ≠ .closed ∧ ¬ ∃ a, socket.state = .listening a := by
  unfold validateConnectedIo validateConnectedStreamIo at h
  cases hstate : socket.state <;> rw [hstate] at h <;> simp only at h <;> simp
  all_goals split at h <;> split at h <;> nomatch h

theorem validateDatagramIo_ok {socket : GuestSocket} {operation : SocketOperation}
    (h : validateDatagramIo socket operation = .ok ()) :
    socket.state ≠ .closed ∧ ¬ ∃ a, socket.state = .listening a := by
  unfold validateDatagramIo at h
  cases hstate : socket.state <;> rw [hstate] at h <;> simp only at h <;> simp
  all_goals split at h <;> nomatch h

theorem hostCall_drew {α : Type} (call : σ → Prog ω HostError α) (t : HandleState σ ω) :
    Prog.wp (do
      let s ← Prog.get
      hostCall (call s.handle.socket) : HandleProg σ ω α)
      (fun _ t' => Drew t.handle t'.handle) (fun _ t' => Drew t.handle t'.handle) t := by
  refine Prog.wp_mono hostCall_same (fun _ t' ht => ?_) fun _ t' ht => ?_
  · rw [ht]
    exact .refl _
  · rw [ht]
    exact .refl _

theorem recvConnected_ready {len : Nat} (h : TableReady s.table) : KeepsReady (recvConnected host id len) s :=
  receiveWith_ready h (fun _ => validateConnectedIo_ok) (fun _ hwith _ => (Prog.wp_pure ()).mpr hwith)
    fun _ => handleRecv_drew

theorem recvConnectedVectored_ready {lens : List Nat} (h : TableReady s.table) :
    KeepsReady (recvConnectedVectored host id lens) s :=
  receiveWith_ready h (fun _ => validateConnectedIo_ok) (fun _ hwith _ => (Prog.wp_pure ()).mpr hwith)
    (hostCall_drew (fun socket => host.recvVectored socket lens))

theorem recvFrom_ready {len : Nat} (h : TableReady s.table) : KeepsReady (recvFrom host id len) s :=
  receiveWith_ready h (fun _ => validateDatagramIo_ok) (fun _ hwith hopen => ensureHostEntry_ready hwith hopen)
    (hostCall_drew (fun socket => host.recvFrom socket len))

theorem recvFromVectored_ready {lens : List Nat} (h : TableReady s.table) :
    KeepsReady (recvFromVectored host id lens) s :=
  receiveWith_ready h (fun _ => validateDatagramIo_ok) (fun _ hwith hopen => ensureHostEntry_ready hwith hopen)
    (hostCall_drew (fun socket => host.recvFromVectored socket lens))

theorem close_ready (h : TableReady s.table) : KeepsReady (close host id) s := by
  unfold close
  refine .getSocket h fun socket hsocket => .ite (fun _ => .throw h) fun _ => ?_
  rw [KeepsReady, Prog.wp_modify]
  exact h.erase (by rw [hsocket]; rfl)

/-! ### One socket polled alone -/

theorem putHandle_same {entry : HostSocketEntry σ} (hentry : s.table.hostHandles.get? id = some entry) (w : ω) :
    s.putHandle id entry ⟨entry.handle, w⟩ = { s with host := w } := by
  have hinsert : s.table.hostHandles.insert id entry = s.table.hostHandles :=
    SortedMap.ext_get? fun id' => by
      rw [SortedMap.get?_insert]
      split
      · rename_i hid
        rw [hid, hentry]
      · rfl
  rw [NetState.putHandle, hinsert]

theorem withHandlePoll_batch {entry : HostSocketEntry σ} {interest : SocketEvents} {timeout : Option Nat}
    {request : σ × SocketEvents} (hentry : s.table.hostHandles.get? id = some entry)
    (hbatch : entry.handle.prepareBatchPoll interest = some request) (hinterest : interest.isEmpty = false) :
    withHandle id .poll (handlePoll host interest timeout) s =
      (do
        let polled ← tableHostCall (host.pollSockets [request] timeout)
        pure (polled.headD .none) : TableProg σ ω SocketEvents) s := by
  unfold WinHostSocketHandle.prepareBatchPoll at hbatch
  split at hbatch
  · nomatch hbatch
  rename_i hport
  cases hbatch
  have hpoll : handlePoll host interest timeout ⟨entry.handle, s.host⟩ =
      (do
        let polled ← hostCall (host.pollSockets [(entry.handle.socket, interest)] timeout)
        pure (SocketEvents.none.merge (polled.headD .none)) : HandleProg σ ω SocketEvents)
        ⟨entry.handle, s.host⟩ := by
    rw [Bool.not_eq_true] at hport
    show (pollReadable host (interest.readable && entry.handle.canUseIocpRecv) timeout >>= _ :
      HandleProg σ ω SocketEvents) _ = _
    rw [hport]
    show (if interest.isEmpty = true then (pure .none : HandleProg σ ω SocketEvents) else _) _ = _
    rw [if_neg (by rw [hinterest]; decide)]
    rfl
  have hmethod : ∀ {r : Except HostIoError SocketEvents} {t : HandleState σ ω},
      handlePoll host interest timeout ⟨entry.handle, s.host⟩ = (r, t) →
      onHandle id .poll (handlePoll host interest timeout) s = (.ok r, s.putHandle id entry t) := by
    intro r t hrun
    simp only [onHandle, hentry, hrun]
  rcases hcall : host.pollSockets [(entry.handle.socket, interest)] timeout s.host with ⟨r, w⟩
  cases r with
  | ok polled =>
      have hrun : handlePoll host interest timeout ⟨entry.handle, s.host⟩ =
          (.ok (SocketEvents.none.merge (polled.headD .none)), ⟨entry.handle, w⟩) := by
        rw [hpoll]
        exact Prog.run_bind_ok (by simp only [hostCall, hcall])
      refine (Prog.run_bind_ok (hmethod hrun)).trans ?_
      rw [putHandle_same hentry w]
      refine Eq.trans ?_ (Prog.run_bind_ok (by simp only [tableHostCall, hcall]; rfl)).symm
      rfl
  | error error =>
      have hrun : handlePoll host interest timeout ⟨entry.handle, s.host⟩ =
          (.error (.ofHost error), ⟨entry.handle, w⟩) := by
        rw [hpoll]
        exact Prog.run_bind_error (by simp only [hostCall, hcall])
      refine (Prog.run_bind_ok (hmethod hrun)).trans ?_
      rw [putHandle_same hentry w]
      refine Eq.trans ?_ (Prog.run_bind_error (by simp only [tableHostCall, hcall]; rfl)).symm
      rfl

/-- What is left of `poll_many` once its only request has been placed. -/
def finishPlaced (host : HostNet σ ω) (timeout : Option Nat) (slot : PollSlot σ) :
    TableProg σ ω (List SocketEvents) := do
  let finished ← pollBatchRequests host [slot] (if slot.isCached then some 0 else timeout)
  pollFallback host (if slot.isCached || slot.isBatch then some 0 else timeout) finished

theorem pollMany_of_placed {request : SocketId × SocketEvents} {timeout : Option Nat} {slot : PollSlot σ}
    {t : NetState σ ω} (h : placeRequest host request s = (.ok slot, t)) :
    pollMany host [request] timeout s = finishPlaced host timeout slot t := by
  have hcollect : Prog.collect [request] (placeRequest host) s = (.ok [slot], t) :=
    Prog.run_bind_ok h
  refine (Prog.run_bind_ok hcollect).trans ?_
  cases slot <;> rfl

theorem pollMany_of_failed {request : SocketId × SocketEvents} {timeout : Option Nat} {e : SocketError}
    {t : NetState σ ω} (h : placeRequest host request s = (.error e, t)) :
    pollMany host [request] timeout s = (.error e, t) := by
  have hcollect : Prog.collect [request] (placeRequest host) s = (.error e, t) := Prog.run_bind_error h
  exact Prog.run_bind_error hcollect

/-- The end of `poll` for a socket that nothing was remembered of. -/
def pollThrough (host : HostNet σ ω) (id : SocketId) (interest : SocketEvents) (timeout : Option Nat) :
    TableProg σ ω SocketEvents := do
  let readiness ← withHandle id .poll (handlePoll host interest timeout)
  finishPolledReadiness host id readiness
  pure readiness

theorem finishPlaced_fallback {interest : SocketEvents} {timeout : Option Nat} :
    finishPlaced host timeout (.fallback id interest) s =
      ((pollThrough host id interest timeout s).1.map fun events => [events],
        (pollThrough host id interest timeout s).2) := by
  have hfinish : finishPlaced host timeout (.fallback id interest) s = (do
      let polled ← withHandle id .poll (handlePoll host interest timeout)
      finishPolledReadiness host id polled
      pure [polled] : TableProg σ ω (List SocketEvents)) s := rfl
  rw [hfinish, pollThrough]
  rcases hpolled : withHandle id .poll (handlePoll host interest timeout) s with ⟨r, t⟩
  cases r with
  | error e =>
      rw [Prog.run_bind_error hpolled, Prog.run_bind_error hpolled]
      rfl
  | ok polled =>
      rw [Prog.run_bind_ok hpolled, Prog.run_bind_ok hpolled]
      rcases hfinished : finishPolledReadiness host id polled t with ⟨r, t'⟩
      cases r with
      | error e =>
          rw [Prog.run_bind_error hfinished, Prog.run_bind_error hfinished]
          rfl
      | ok _ =>
          rw [Prog.run_bind_ok hfinished, Prog.run_bind_ok hfinished]
          rfl

theorem finishPlaced_batch {entry : HostSocketEntry σ} {interest : SocketEvents} {timeout : Option Nat}
    {request : σ × SocketEvents} (hentry : s.table.hostHandles.get? id = some entry)
    (hbatch : entry.handle.prepareBatchPoll interest = some request) (hinterest : interest.isEmpty = false) :
    finishPlaced host timeout (.batch id request) s =
      ((pollThrough host id interest timeout s).1.map fun events => [events],
        (pollThrough host id interest timeout s).2) := by
  have hthrough : withHandle id .poll (handlePoll host interest timeout) s = _ :=
    withHandlePoll_batch hentry hbatch hinterest
  have hkeeps : Prog.Keeps (fun s : NetState σ ω => s.table)
      (tableHostCall (host.pollSockets [request] timeout) : TableProg σ ω (List SocketEvents)) := by
    intro s
    unfold tableHostCall
    rcases host.pollSockets [request] timeout s.host with ⟨r, w⟩
    cases r <;> rfl
  rcases hcall : (tableHostCall (host.pollSockets [request] timeout) : TableProg σ ω (List SocketEvents)) s with ⟨r, t⟩
  cases r with
  | error e =>
      rw [Prog.run_bind_error hcall] at hthrough
      rw [pollThrough, Prog.run_bind_error hthrough]
      exact Prog.run_bind_error (Prog.run_bind_error hcall)
  | ok polled =>
      rw [Prog.run_bind_ok hcall] at hthrough
      rw [pollThrough, Prog.run_bind_ok hthrough]
      have htable : t.table = s.table := by
        have hkept := hkeeps s
        rw [hcall] at hkept
        exact hkept
      have hsome : ¬ (t.table.hostHandles.get? id).isNone := by
        rw [htable, hentry]
        exact nofun
      have hbatched : finishBatch host [.batch id request] polled t = (do
          finishPolledReadiness host id (polled.headD .none)
          pure [PollSlot.answered (polled.headD .none)] : TableProg σ ω (List (PollSlot σ))) t := by
        show ((Prog.when _ _ >>= fun _ => _) : TableProg σ ω (List (PollSlot σ))) t = _
        rw [Prog.when, if_neg hsome]
        rfl
      have hpolled : pollBatchRequests host [.batch id request] timeout s = _ :=
        (Prog.run_bind_ok hcall).trans hbatched
      rcases hfinished : finishPolledReadiness host id (polled.headD .none) t with ⟨r, t'⟩
      cases r with
      | error e =>
          rw [Prog.run_bind_error hfinished] at hpolled ⊢
          exact Prog.run_bind_error hpolled
      | ok _ =>
          rw [Prog.run_bind_ok hfinished] at hpolled ⊢
          exact Prog.run_bind_ok hpolled

theorem placeRequest_uncached {interest : SocketEvents} {s₁ s₂ s₃ : NetState σ ω} {u : Unit}
    (hopen : requireOpen id s = (.ok u, s₁)) (huses : socketUsesHostTransport id s₁ = (.ok true, s₂))
    (hcached : cachedPollReadiness host id interest s₂ = (.ok none, s₃)) :
    placeRequest host (id, interest) s = (do
        let s ← Prog.get
        match s.table.hostHandles.get? id with
        | none => .throw (noHostHandle .poll)
        | some entry =>
          match entry.handle.prepareBatchPoll interest with
          | some polled => pure (.batch id polled)
          | none => pure (.fallback id interest) : TableProg σ ω (PollSlot σ)) s₃ :=
  (Prog.run_bind_ok hopen).trans ((Prog.run_bind_ok huses).trans (Prog.run_bind_ok hcached))

theorem pollMany_singleton {interest : SocketEvents} {timeout : Option Nat} (hinterest : interest.isEmpty = false) :
    pollMany host [(id, interest)] timeout s =
      ((poll host id interest timeout s).1.map fun events => [events], (poll host id interest timeout s).2) := by
  rcases hopen : requireOpen id s with ⟨r, s₁⟩
  cases r with
  | error e =>
      rw [show poll host id interest timeout s = (.error e, s₁) from Prog.run_bind_error hopen]
      exact pollMany_of_failed (Prog.run_bind_error hopen)
  | ok _ =>
  rcases huses : socketUsesHostTransport id s₁ with ⟨r, s₂⟩
  cases r with
  | error e =>
      rw [show poll host id interest timeout s = (.error e, s₂) from
        (Prog.run_bind_ok hopen).trans (Prog.run_bind_error huses)]
      exact pollMany_of_failed ((Prog.run_bind_ok hopen).trans (Prog.run_bind_error huses))
  | ok uses =>
  cases uses with
  | false =>
      rw [show poll host id interest timeout s = (.ok .none, s₂) from
        (Prog.run_bind_ok hopen).trans (Prog.run_bind_ok huses)]
      have hplaced : placeRequest host (id, interest) s = (.ok (.answered .none), s₂) :=
        (Prog.run_bind_ok hopen).trans (Prog.run_bind_ok huses)
      rw [pollMany_of_placed hplaced]
      rfl
  | true =>
  rcases hcached : cachedPollReadiness host id interest s₂ with ⟨r, s₃⟩
  cases r with
  | error e =>
      rw [show poll host id interest timeout s = (.error e, s₃) from
        (Prog.run_bind_ok hopen).trans ((Prog.run_bind_ok huses).trans (Prog.run_bind_error hcached))]
      exact pollMany_of_failed
        ((Prog.run_bind_ok hopen).trans ((Prog.run_bind_ok huses).trans (Prog.run_bind_error hcached)))
  | ok cached =>
  cases cached with
  | some readiness =>
      rw [show poll host id interest timeout s = (.ok readiness, s₃) from
        (Prog.run_bind_ok hopen).trans ((Prog.run_bind_ok huses).trans (Prog.run_bind_ok hcached))]
      have hplaced : placeRequest host (id, interest) s = (.ok (.cached readiness), s₃) :=
        (Prog.run_bind_ok hopen).trans ((Prog.run_bind_ok huses).trans (Prog.run_bind_ok hcached))
      rw [pollMany_of_placed hplaced]
      rfl
  | none =>
      have hrest : poll host id interest timeout s = pollThrough host id interest timeout s₃ :=
        (Prog.run_bind_ok hopen).trans ((Prog.run_bind_ok huses).trans (Prog.run_bind_ok hcached))
      have hplace := placeRequest_uncached hopen huses hcached
      rw [hrest]
      cases hentry : s₃.table.hostHandles.get? id with
      | none =>
          have hfailed : placeRequest host (id, interest) s = (.error (noHostHandle .poll), s₃) := by
            rw [hplace]
            simp only [Bind.bind, Prog.get, hentry, Prog.throw]
          have hno : withHandle id .poll (handlePoll host interest timeout) s₃ =
              (.error (noHostHandle .poll), s₃) := Prog.run_bind_error (by simp only [onHandle, hentry])
          rw [pollMany_of_failed hfailed, pollThrough, Prog.run_bind_error hno]
          rfl
      | some entry =>
          cases hbatch : entry.handle.prepareBatchPoll interest with
          | some request =>
              have hplaced : placeRequest host (id, interest) s = (.ok (.batch id request), s₃) := by
                rw [hplace]
                simp only [Bind.bind, Prog.get, hentry, hbatch]
                rfl
              rw [pollMany_of_placed hplaced]
              exact finishPlaced_batch hentry hbatch hinterest
          | none =>
              have hplaced : placeRequest host (id, interest) s = (.ok (.fallback id interest), s₃) := by
                rw [hplace]
                simp only [Bind.bind, Prog.get, hentry, hbatch]
                rfl
              rw [pollMany_of_placed hplaced]
              exact finishPlaced_fallback

/-! ### Runs -/

inductive TableCall
  | createSocket (spec : SocketSpec)
  | bind (id : SocketId) (address : SocketAddress)
  | listen (id : SocketId) (backlog : Nat)
  | connect (id : SocketId) (address : SocketAddress)
  | setNonblocking (id : SocketId) (nonblocking : Bool)
  | shutdown (id : SocketId) (how : ShutdownHow)
  | socketError (id : SocketId)
  | accept (id : SocketId)
  | recv (id : SocketId) (len : Nat)
  | recvVectored (id : SocketId) (lens : List Nat)
  | recvFrom (id : SocketId) (len : Nat)
  | recvFromVectored (id : SocketId) (lens : List Nat)
  | close (id : SocketId)
  | poll (id : SocketId) (interest : SocketEvents) (timeout : Option Nat)
  | pollMany (requests : List (SocketId × SocketEvents)) (timeout : Option Nat)

namespace TableCall

/-- The state a call leaves, whether it returns or stops. -/
def after (host : HostNet σ ω) (s : NetState σ ω) : TableCall → NetState σ ω
  | createSocket spec => (createSocketFromSpec spec s).2
  | bind id address => (Net.bind host id address s).2
  | listen id backlog => (Net.listen host id backlog s).2
  | connect id address => (Net.connect host id address s).2
  | setNonblocking id nonblocking => (Net.setNonblocking host id nonblocking s).2
  | shutdown id how => (Net.shutdown host id how s).2
  | socketError id => (getSocketErrorOption host id s).2
  | accept id => (Net.accept host id s).2
  | recv id len => (recvConnected host id len s).2
  | recvVectored id lens => (recvConnectedVectored host id lens s).2
  | recvFrom id len => (Net.recvFrom host id len s).2
  | recvFromVectored id lens => (Net.recvFromVectored host id lens s).2
  | close id => (Net.close host id s).2
  | poll id interest timeout => (Net.poll host id interest timeout s).2
  | pollMany requests timeout => (Net.pollMany host requests timeout s).2

/-- The condition under which a call cannot lose sight of what a handle buffers. -/
def Spared (host : HostNet σ ω) (s : NetState σ ω) : TableCall → Prop
  | listen id _ => NothingReceived s id
  | accept id => AcceptSpared host s id
  | poll id interest _ => PollSpared host s (id, interest)
  | pollMany requests _ => AllPollsSpared host s requests
  | _ => True

def run (host : HostNet σ ω) (s : NetState σ ω) (calls : List TableCall) : NetState σ ω :=
  calls.foldl (fun s call => call.after host s) s

def AllSpared (host : HostNet σ ω) : NetState σ ω → List TableCall → Prop
  | _, [] => True
  | s, call :: rest => call.Spared host s ∧ AllSpared host (call.after host s) rest

theorem after_ready {call : TableCall} (h : TableReady s.table) (hspared : call.Spared host s) :
    TableReady (call.after host s).table := by
  cases call with
  | createSocket spec => exact Prog.wp_state (createSocketFromSpec_ready h)
  | bind id address => exact Prog.wp_state (bind_ready h)
  | listen id backlog => exact Prog.wp_state (listen_ready h hspared)
  | connect id address => exact Prog.wp_state (connect_ready h)
  | setNonblocking id nonblocking => exact Prog.wp_state (setNonblocking_ready h)
  | shutdown id how => exact Prog.wp_state (shutdown_ready h)
  | socketError id => exact Prog.wp_state (getSocketErrorOption_ready h)
  | accept id => exact Prog.wp_state (accept_ready h hspared)
  | recv id len => exact Prog.wp_state (recvConnected_ready h)
  | recvVectored id lens => exact Prog.wp_state (recvConnectedVectored_ready h)
  | recvFrom id len => exact Prog.wp_state (recvFrom_ready h)
  | recvFromVectored id lens => exact Prog.wp_state (recvFromVectored_ready h)
  | close id => exact Prog.wp_state (close_ready h)
  | poll id interest timeout =>
      exact Prog.wp_state (Prog.wp_mono (poll_reports h hspared) (fun _ _ h => h.1.ready) fun _ _ h => h.ready)
  | pollMany requests timeout =>
      exact Prog.wp_state (Prog.wp_mono (pollMany_reports h hspared) (fun _ _ h => h.1.ready) fun _ _ h => h.ready)

theorem run_ready {calls : List TableCall} : ∀ {s : NetState σ ω}, TableReady s.table →
    AllSpared host s calls → TableReady (run host s calls).table := by
  induction calls with
  | nil => exact fun h _ => h
  | cons call rest ih => exact fun h hspared => ih (after_ready h hspared.1) hspared.2

end TableCall

def NetState.start (transport : Bool) (host : ω) : NetState σ ω := ⟨.new transport, host⟩

theorem start_ready (transport : Bool) (w : ω) : TableReady (NetState.start transport w : NetState σ ω).table :=
  ⟨fun _ _ _ => rfl, fun _ _ h => (nomatch h), fun _ _ h => (nomatch h)⟩

def listenerCalls : List TableCall :=
  [.createSocket ⟨.inet, .stream, .tcp, ⟨true, false⟩⟩, .bind 1 (.inet 0 80), .listen 1 5, .accept 1,
    .poll 1 .read (some 0)]

def secondAccept : List TableCall := listenerCalls ++ [.accept 1]

def listenerStart (accepts : List Bool) : NetState Unit ListenerWorld := .start true ⟨accepts, []⟩

/-- Nothing of the handle is buffered for receives, and its drain goes through. -/
theorem PollSpared.of_listener {s : NetState Unit ListenerWorld} {request : SocketId × SocketEvents}
    (hrecv : (s.table.hostHandles.get? request.1).map (fun e => e.handle.hasRecvReadiness) = some false)
    (hdrain : (s.table.hostHandles.get? request.1).map (fun e =>
      (drainReadinessCompletions listenerHost e.readinessToken ⟨e.handle, s.host⟩).1.isOk) = some true) :
    PollSpared listenerHost s request := by
  refine ⟨fun entry hentry hready => ?_, fun entry hentry error t hrun => ?_⟩
  · have hnone := eq_of_map_eq_some hrecv hentry
    rw [hready] at hnone
    nomatch hnone
  · have hok := eq_of_map_eq_some hdrain hentry
    simp only [hrun] at hok
    nomatch hok

end Mcr.Net
