import Mcr.Net.TableCalls

/-!
# What calls change in passing

Options, addresses and polls look at a connect in progress and may finish it, transfers record the error of the
host, and every call may open a handle. Apart from that, none of them changes a socket.
-/

namespace Mcr.Net

open Prog (Along Keeps)

variable {σ ω : Type} {host : HostNet σ ω} {s s' : NetState σ ω} {id : SocketId}

/-! ### Settling -/

inductive SocketState.Finishes : SocketState → SocketState → Prop
  | connected (address localAddress peer : SocketAddress) : Finishes (.connecting address) (.connected localAddress peer)
  | failed (address : SocketAddress) : Finishes (.connecting address) .created

theorem SocketState.Finishes.final {state state' state'' : SocketState} (h : state.Finishes state') :
    ¬state'.Finishes state'' := by
  intro h'
  cases h <;> nomatch h'

/-- The socket is the same, up to the end of its connect and the error it remembers. -/
structure GuestSocket.Settles (socket socket' : GuestSocket) : Prop where
  same : { socket' with state := socket.state, lastError := socket.lastError } = socket
  state : socket'.state = socket.state ∨ socket.state.Finishes socket'.state

theorem GuestSocket.Settles.refl (socket : GuestSocket) : socket.Settles socket := ⟨rfl, Or.inl rfl⟩

theorem GuestSocket.Settles.trans {socket socket' socket'' : GuestSocket} (h : socket.Settles socket')
    (h' : socket'.Settles socket'') : socket.Settles socket'' := by
  refine ⟨?_, ?_⟩
  · have hsame := congrArg (fun found : GuestSocket => { found with state := socket.state, lastError := socket.lastError })
      h'.same
    exact hsame.trans h.same
  · rcases h'.state with hkept | hfinishes
    · rw [hkept]
      exact h.state
    · rcases h.state with hkept | hfinished
      · rw [← hkept]
        exact Or.inr hfinishes
      · exact absurd hfinishes hfinished.final

/-- Every socket is still there and at most settles, there is no new one, and no identity is used up. -/
structure Settles (s s' : NetState σ ω) : Prop where
  socket : ∀ id socket, s.table.sockets.get? id = some socket →
    ∃ socket', s'.table.sockets.get? id = some socket' ∧ socket.Settles socket'
  absent : ∀ id, s.table.sockets.get? id = none → s'.table.sockets.get? id = none
  next : s'.table.nextId = s.table.nextId

theorem Settles.of_identities (h : identities s' = identities s) : Settles s s' := by
  obtain ⟨hsockets, hnext⟩ := Prod.mk.inj h
  refine ⟨fun id socket hsocket => ⟨socket, hsockets ▸ hsocket, .refl socket⟩, fun id hnone => ?_, hnext⟩
  rw [hsockets]
  exact hnone

instance : @Std.Refl (NetState σ ω) Settles := ⟨fun _ => .of_identities rfl⟩

instance : IsTrans (NetState σ ω) Settles where
  trans _ _ _ h h' := by
    refine ⟨fun id socket hsocket => ?_, fun id hnone => h'.absent id (h.absent id hnone), h'.next.trans h.next⟩
    obtain ⟨socket', hsocket', hsettles⟩ := h.socket id socket hsocket
    obtain ⟨socket'', hsocket'', hsettles'⟩ := h'.socket id socket' hsocket'
    exact ⟨socket'', hsocket'', hsettles.trans hsettles'⟩

theorem Settles.putSocket {socket socket' : GuestSocket} (hsocket : s.table.sockets.get? id = some socket)
    (h : socket.Settles socket') : Settles s { s with table := s.table.putSocket id socket' } := by
  refine ⟨fun i found hfound => ?_, fun i hnone => ?_, rfl⟩
  · by_cases hi : i = id
    · rw [hi, hsocket] at hfound
      cases hfound
      refine ⟨socket', ?_, h⟩
      rw [hi, GuestSocketTable.putSocket, SortedMap.get?_insert, if_pos rfl]
    · refine ⟨found, ?_, .refl found⟩
      rw [GuestSocketTable.putSocket, SortedMap.get?_insert, if_neg hi]
      exact hfound
  · have hi : i ≠ id := by
      rintro rfl
      cases hnone.symm.trans hsocket
    rw [GuestSocketTable.putSocket, SortedMap.get?_insert, if_neg hi]
    exact hnone

theorem along_of_keeps {α : Type} {m : TableProg σ ω α} (h : Keeps identities m) : Along Settles m :=
  fun s => .of_identities (h s)

/-! ### Programs that keep the sockets -/

theorem getSocket_keeps : Keeps identities (getSocket id : TableProg σ ω GuestSocket) := by
  intro s
  unfold getSocket
  refine Prog.wp_state (P := fun s' => identities s' = identities s) ?_
  exact wp_getSocket (fun _ _ => rfl) fun _ => rfl

theorem socketUsesHostTransport_keeps : Keeps identities (socketUsesHostTransport id : TableProg σ ω Bool) := by
  intro s
  refine Prog.wp_state (P := fun s' => identities s' = identities s) ?_
  exact wp_socketUsesHostTransport (fun _ _ => rfl) fun _ => rfl

theorem ensureHostEntry_keeps {operation : SocketOperation} : Keeps identities (ensureHostEntry host id operation) := by
  intro s
  refine Prog.wp_state (P := fun s' => identities s' = identities s) ?_
  exact wp_ensureHostEntry (fun _ _ => rfl) (fun _ _ _ _ _ _ _ => rfl) fun _ _ => rfl

theorem requireOpen_keeps : Keeps identities (requireOpen id : TableProg σ ω Unit) :=
  .bind getSocket_keeps fun _ => .ite (.throw _) (.pure _)

theorem tableHostCall_keeps {α : Type} {call : Prog ω HostError α} :
    Keeps identities (tableHostCall call : TableProg σ ω α) := by
  intro s
  unfold tableHostCall
  rcases call s.host with ⟨_ | _, _⟩ <;> rfl

theorem clearReadiness_keeps : Keeps identities (clearReadiness id : TableProg σ ω Unit) := .modify fun _ => rfl

theorem wp_look {α β : Type} {m : TableProg σ ω α} {f : α → TableProg σ ω β} {Q : β → NetState σ ω → Prop}
    {E : SocketError → NetState σ ω → Prop} {t : NetState σ ω} (hm : Keeps identities m)
    (ht : identities t = identities s) (hf : ∀ a t', identities t' = identities s → Prog.wp (f a) Q E t')
    (he : ∀ e t', identities t' = identities s → E e t') : Prog.wp (m >>= f) Q E t := by
  rw [Prog.wp_bind]
  exact Prog.wp_mono (hm.wp t) (fun a t' h => hf a t' (h.trans ht)) fun e t' h => he e t' (h.trans ht)

theorem get?_of_identities (h : identities s' = identities s) (id : SocketId) :
    s'.table.sockets.get? id = s.table.sockets.get? id :=
  congrArg (fun view : SortedMap SocketId GuestSocket × SocketId => view.1.get? id) h

theorem updateSocket_settles {f : GuestSocket → GuestSocket} (hf : ∀ socket : GuestSocket, socket.Settles (f socket)) :
    Along Settles (updateSocket id f : TableProg σ ω Unit) :=
  .of_wp fun _ => wp_updateSocket (fun _ hsocket => .putSocket hsocket (hf _)) fun _ => Std.Refl.refl _

theorem recordHostError_settles {α : Type} {result : Except HostIoError α} :
    Along Settles (recordHostError id result : TableProg σ ω α) := by
  unfold recordHostError
  cases result with
  | ok a => exact .pure a
  | error error =>
      exact .bind (.tryCatch (updateSocket_settles fun socket => ⟨rfl, Or.inl rfl⟩) fun _ => .pure _) fun _ => .throw _

/-! ### The end of a connect -/

theorem finishNonblockingConnect_settles : Along Settles (finishNonblockingConnect host id) := by
  refine .of_wp fun s => ?_
  unfold finishNonblockingConnect
  rw [Prog.wp_bind]
  refine wp_getSocket (fun socket hsocket => ?_) fun _ => Std.Refl.refl _
  cases hstate : socket.state with
  | connecting address =>
      have hupdate : ∀ (t : NetState σ ω) (f : GuestSocket → GuestSocket), identities t = identities s →
          socket.Settles (f socket) →
          Prog.wp (updateSocket id f) (fun _ s' => Settles s s') (fun _ s' => Settles s s') t := by
        intro t f ht hf
        have hfound : t.table.sockets.get? id = some socket := (get?_of_identities ht id).trans hsocket
        refine wp_updateSocket (fun found hget => ?_) fun hnone => ?_
        · obtain rfl := Option.some.inj (hget.symm.trans hfound)
          exact IsTrans.trans _ _ _ (Settles.of_identities ht) (Settles.putSocket hget hf)
        · nomatch hnone.symm.trans hfound
      have hconnected : ∀ localAddress peer, socket.Settles
          { socket with state := .connected localAddress peer, lastError := none } := by
        intro localAddress peer
        refine ⟨rfl, Or.inr ?_⟩
        rw [hstate]
        exact .connected address localAddress peer
      have hstops : ∀ (e : SocketError) (t : NetState σ ω), identities t = identities s → Settles s t :=
        fun _ _ => .of_identities
      simp only
      refine wp_look .get rfl (fun t _ _ => ?_) hstops
      rw [Prog.wp_ite]
      split
      · refine wp_look withHandle_keeps ‹_› (fun completion t₁ h₁ => ?_) hstops
        rw [Prog.wp_ite]
        split
        · exact (Prog.wp_pure _).mpr (.of_identities h₁)
        refine wp_look withHandle_keeps h₁ (fun error t₂ h₂ => ?_) hstops
        cases error with
        | some error =>
            simp only
            rw [Prog.wp_bind]
            refine Prog.wp_mono (hupdate t₂ _ h₂ ⟨rfl, Or.inr ?_⟩) (fun _ t₃ h₃ => (Prog.wp_throw _).mpr h₃)
              fun _ _ h₃ => h₃
            rw [hstate]
            exact .failed address
        | none =>
            refine wp_look withHandle_keeps h₂ (fun localAddress t₃ h₃ => ?_) hstops
            refine wp_look withHandle_keeps h₃ (fun peer t₄ h₄ => ?_) hstops
            exact hupdate t₄ _ h₄ (hconnected localAddress peer)
      · exact hupdate _ _ ‹_› (hconnected _ _)
  | _ => exact (Prog.wp_pure _).mpr (Std.Refl.refl _)

theorem finishPolledReadiness_settles {readiness : SocketEvents} :
    Along Settles (finishPolledReadiness host id readiness) :=
  .ite (.bind (along_of_keeps getSocket_keeps) fun _ => .when finishNonblockingConnect_settles) (.pure _)

theorem getSocketErrorOption_settles : Along Settles (getSocketErrorOption host id) := by
  have hforget : ∀ {α : Type} (a : α), Along Settles (do
      updateSocket id fun socket => { socket with lastError := none }
      pure a : TableProg σ ω α) :=
    fun a => .bind (updateSocket_settles fun socket => ⟨rfl, Or.inl rfl⟩) fun _ => .pure a
  have htaken : Along Settles (do
      let socket ← getSocket id
      updateSocket id fun socket => { socket with lastError := none }
      pure ((socket.lastError.map LinuxErrno.raw).getD 0) : TableProg σ ω Nat) :=
    .bind (along_of_keeps getSocket_keeps) fun socket => hforget _
  refine .bind (along_of_keeps getSocket_keeps) fun socket => .ite ?_ htaken
  refine .bind finishNonblockingConnect_settles.attempt fun finished => ?_
  cases finished with
  | ok u => exact htaken
  | error error =>
      refine .bind (.tryCatch ?_ fun _ => .pure _) fun _ => .pure _
      exact updateSocket_settles fun socket => ⟨rfl, Or.inl rfl⟩

theorem getOption_settles {option : SocketOptionName} : Along Settles (getOption host id option) := by
  unfold getOption
  cases option with
  | socketError => exact getSocketErrorOption_settles
  | _ => exact .bind (along_of_keeps getSocket_keeps) fun _ => .pure _

theorem addressOf_settles {address : SocketState → Option SocketAddress} :
    Along Settles (addressOf host id address) :=
  .bind (along_of_keeps getSocket_keeps) fun _ =>
    .bind (.when (.bind finishNonblockingConnect_settles.attempt fun _ => .pure _)) fun _ =>
      .bind (along_of_keeps getSocket_keeps) fun _ => .pure _

/-! ### Transfers -/

theorem receiveWith_settles {α : Type} {operation : SocketOperation}
    {validate : GuestSocket → SocketOperation → Except SocketError Unit} {prepare : TableProg σ ω Unit}
    {method : HandleProg σ ω α} (hprepare : Keeps identities prepare) :
    Along Settles (receiveWith id operation validate prepare method) :=
  .bind (along_of_keeps getSocket_keeps) fun _ => .bind (.ofExcept _) fun _ => .ite (.throw _) <|
    .bind (along_of_keeps hprepare) fun _ => .bind (along_of_keeps onHandle_keeps) fun _ =>
      .bind (.when (along_of_keeps clearReadiness_keeps)) fun _ => recordHostError_settles

theorem sendWith_settles {operation : SocketOperation} {method : HandleProg σ ω Nat} :
    Along Settles (sendWith id operation method) :=
  .bind (along_of_keeps getSocket_keeps) fun _ => .bind (.ofExcept _) fun _ => .ite (.throw _) <|
    .bind (along_of_keeps onHandle_keeps) fun _ => recordHostError_settles

theorem sendToWith_settles {operation : SocketOperation} {address : SocketAddress} {method : HandleProg σ ω Nat} :
    Along Settles (sendToWith host id operation address method) :=
  .bind (along_of_keeps getSocket_keeps) fun _ => .bind (.ofExcept _) fun _ => .bind (.ofExcept _) fun _ =>
    .ite (.throw _) <| .bind (along_of_keeps ensureHostEntry_keeps) fun _ =>
      .bind (along_of_keeps onHandle_keeps) fun _ => recordHostError_settles

/-! ### Polls -/

theorem cachedPollReadiness_settles {interest : SocketEvents} : Along Settles (cachedPollReadiness host id interest) := by
  refine .bind (along_of_keeps requireOpen_keeps) fun _ => .bind (along_of_keeps ensureHostEntry_keeps) fun _ =>
    .get fun s => ?_
  cases s.table.hostHandles.get? id with
  | none => exact .throw _
  | some entry =>
      refine .bind (along_of_keeps withHandle_keeps) fun completions =>
        .bind (along_of_keeps (.modify fun _ => rfl)) fun _ => .get fun s' => ?_
      cases s'.table.readinessCache.readiness entry.readinessToken interest with
      | none => exact .pure _
      | some readiness => exact .bind finishPolledReadiness_settles fun _ => .pure _

theorem poll_settles {interest : SocketEvents} {timeout : Option Nat} : Along Settles (poll host id interest timeout) := by
  refine .bind (along_of_keeps requireOpen_keeps) fun _ =>
    .bind (along_of_keeps socketUsesHostTransport_keeps) fun _ => .ite (.pure _) <|
      .bind cachedPollReadiness_settles fun cached => ?_
  cases cached with
  | some readiness => exact .pure _
  | none =>
      exact .bind (along_of_keeps withHandle_keeps) fun _ => .bind finishPolledReadiness_settles fun _ => .pure _

theorem placeRequest_settles {request : SocketId × SocketEvents} : Along Settles (placeRequest host request) := by
  refine .bind (along_of_keeps requireOpen_keeps) fun _ =>
    .bind (along_of_keeps socketUsesHostTransport_keeps) fun _ => .ite (.pure _) <|
      .bind cachedPollReadiness_settles fun cached => ?_
  cases cached with
  | some readiness => exact .pure _
  | none =>
      refine .get fun s => ?_
      cases s.table.hostHandles.get? request.1 with
      | none => exact .throw _
      | some entry =>
          simp only
          cases entry.handle.prepareBatchPoll request.2 <;> exact .pure _

theorem finishBatch_settles (slots : List (PollSlot σ)) :
    ∀ polled : List SocketEvents, Along Settles (finishBatch host slots polled) := by
  induction slots with
  | nil => exact fun _ => .pure _
  | cons slot rest ih =>
      intro polled
      cases slot with
      | batch id request =>
          exact .get fun s => .bind (.when (.throw _)) fun _ => .bind finishPolledReadiness_settles fun _ =>
            .bind (ih _) fun _ => .pure _
      | _ => exact .bind (ih _) fun _ => .pure _

theorem pollFallback_settles (slots : List (PollSlot σ)) :
    ∀ timeout : Option Nat, Along Settles (pollFallback host timeout slots) := by
  induction slots with
  | nil => exact fun _ => .pure _
  | cons slot rest ih =>
      intro timeout
      cases slot with
      | fallback id interest =>
          exact .bind (along_of_keeps withHandle_keeps) fun _ => .bind finishPolledReadiness_settles fun _ =>
            .bind (ih _) fun _ => .pure _
      | _ => exact .bind (ih _) fun _ => .pure _

theorem pollMany_settles {requests : List (SocketId × SocketEvents)} {timeout : Option Nat} :
    Along Settles (pollMany host requests timeout) :=
  .bind (.collect (fun _ => placeRequest_settles) requests) fun slots =>
    .bind (.ite (.pure _) (.bind (along_of_keeps tableHostCall_keeps) fun _ => finishBatch_settles slots _)) fun _ =>
      pollFallback_settles _ _

end Mcr.Net
