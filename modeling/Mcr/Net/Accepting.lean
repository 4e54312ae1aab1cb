import Mcr.Net.Modes

/-!
# Taking a connection

`accept` first takes a connection, from the host or from the one that was accepted ahead of time, and then
makes a socket for it. A connection that is taken is lost when there are no more identities for sockets.
-/

namespace Mcr.Net

open Prog (Keeps)

variable {σ ω : Type} {host : HostNet σ ω} {s s' : NetState σ ω} {id : SocketId}

structure TakenConnection (σ : Type) where
  spec : SocketSpec
  handle : WinHostSocketHandle σ
  localAddress : SocketAddress
  peer : SocketAddress

/-- `accept` until it has a connection. -/
def takeConnection (host : HostNet σ ω) (id : SocketId) : TableProg σ ω (TakenConnection σ) := do
  let localAddress ← requireListening id
  let s ← .get
  if !s.table.transport && (s.table.hostHandles.get? id).isNone then
    .throw (.wouldBlock .accept .wouldBlock "no pending guest socket connection is available")
  else do
    let spec ← socketSpec id
    ensureHostEntry host id .accept
    let accepted ← onHandle id .accept (handleAccept host)
    match accepted with
    | .ok (handle, peer) => do
      clearReadiness id
      pure ⟨spec, handle, localAddress, peer⟩
    | .error error =>
      if error.errno ≠ .wouldBlock then .throw (.fromHost error)
      else do
        let fastPath ← withHandle id .accept (acceptFastPath host spec)
        match fastPath with
        | .accepted handle peer => do
          clearReadiness id
          pure ⟨spec, handle, localAddress, peer⟩
        | .pending | .unsupported =>
          .throw (.wouldBlock .accept .wouldBlock "no pending socket connection is available")

def registerTaken (taken : TakenConnection σ) : TableProg σ ω (SocketId × SocketAddress) :=
  registerAcceptedSocket taken.spec taken.handle taken.localAddress taken.peer

theorem accept_eq : accept host id = takeConnection host id >>= registerTaken := by
  unfold accept takeConnection
  rw [Prog.bind_assoc]
  congr 1
  funext localAddress
  rw [Prog.bind_assoc]
  congr 1
  funext s
  split
  · rfl
  rw [Prog.bind_assoc]
  congr 1
  funext spec
  rw [Prog.bind_assoc]
  congr 1
  funext _
  rw [Prog.bind_assoc]
  congr 1
  funext accepted
  cases accepted with
  | ok accepted => rfl
  | error error =>
      simp only
      split
      · rfl
      rw [Prog.bind_assoc]
      congr 1
      funext fastPath
      cases fastPath <;> rfl

def identities (s : NetState σ ω) : SortedMap SocketId GuestSocket × SocketId := (s.table.sockets, s.table.nextId)

theorem onHandle_keeps {α : Type} {operation : SocketOperation} {method : HandleProg σ ω α} :
    Keeps identities (onHandle id operation method) := by
  intro s
  unfold onHandle
  cases s.table.hostHandles.get? id <;> rfl

theorem withHandle_keeps {α : Type} {operation : SocketOperation} {method : HandleProg σ ω α} :
    Keeps identities (withHandle id operation method) := by
  refine .bind onHandle_keeps fun result => ?_
  cases result with
  | ok a => exact .pure a
  | error e => exact .throw _

theorem socketSpec_valid : Prog.wp (socketSpec id)
    (fun spec s' => s' = s ∧ validateSocketProtocol spec.socketType spec.protocol = .ok ()) (fun _ s' => s' = s) s := by
  unfold socketSpec
  rw [Prog.wp_bind]
  refine wp_getSocket (fun socket _ => ?_) fun _ => rfl
  rw [Prog.wp_bind]
  refine Prog.wp_check (fun _ _ => rfl) fun _ hvalid => ?_
  rw [Prog.wp_pure]
  exact ⟨rfl, hvalid⟩

theorem requireListening_looks : Prog.wp (requireListening id) (fun _ s' => s' = s) (fun _ s' => s' = s) s := by
  unfold requireListening
  rw [Prog.wp_bind]
  refine wp_getSocket (fun listener _ => ?_) fun _ => rfl
  cases listener.state with
  | listening address => exact (Prog.wp_pure _).mpr rfl
  | _ => exact (Prog.wp_throw _).mpr rfl

/-- Taking a connection spends no identity and leaves the sockets alone. -/
theorem takeConnection_spec : Prog.wp (takeConnection host id)
    (fun taken s' => identities s' = identities s ∧
      validateSocketProtocol taken.spec.socketType taken.spec.protocol = .ok ())
    (fun _ s' => identities s' = identities s) s := by
  unfold takeConnection
  rw [Prog.wp_bind]
  apply Prog.wp_mono requireListening_looks
  swap
  · rintro _ _ rfl
    rfl
  rintro localAddress s' rfl
  rw [Prog.wp_bind, Prog.wp_get, Prog.wp_ite]
  split
  · exact (Prog.wp_throw _).mpr rfl
  rw [Prog.wp_bind]
  apply Prog.wp_mono socketSpec_valid
  swap
  · rintro _ _ rfl
    rfl
  rintro spec s' ⟨rfl, hvalid⟩
  have htake : ∀ s₁ : NetState σ ω, identities s₁ = identities s' →
      Prog.wp (do
        let accepted ← onHandle id .accept (handleAccept host)
        match accepted with
        | .ok (handle, peer) => do
          clearReadiness id
          pure (⟨spec, handle, localAddress, peer⟩ : TakenConnection σ)
        | .error error =>
          if error.errno ≠ .wouldBlock then .throw (.fromHost error)
          else do
            let fastPath ← withHandle id .accept (acceptFastPath host spec)
            match fastPath with
            | .accepted handle peer => do
              clearReadiness id
              pure ⟨spec, handle, localAddress, peer⟩
            | .pending | .unsupported =>
              .throw (.wouldBlock .accept .wouldBlock "no pending socket connection is available"))
        (fun taken s₂ => identities s₂ = identities s' ∧
          validateSocketProtocol taken.spec.socketType taken.spec.protocol = .ok ())
        (fun _ s₂ => identities s₂ = identities s') s₁ := by
    intro s₁ hs₁
    rw [Prog.wp_bind]
    apply Prog.wp_mono (onHandle_keeps.wp s₁) _ (fun _ _ h => h.trans hs₁)
    intro accepted s₂ hs₂
    cases accepted with
    | ok accepted =>
        simp only
        rw [Prog.wp_bind, clearReadiness, wp_setTable, Prog.wp_pure]
        exact ⟨hs₂.trans hs₁, hvalid⟩
    | error error =>
        simp only
        rw [Prog.wp_ite]
        split
        · exact (Prog.wp_throw _).mpr (hs₂.trans hs₁)
        rw [Prog.wp_bind]
        apply Prog.wp_mono (withHandle_keeps.wp s₂) _ (fun _ _ h => h.trans (hs₂.trans hs₁))
        intro fastPath s₃ hs₃
        cases fastPath with
        | accepted handle peer =>
            simp only
            rw [Prog.wp_bind, clearReadiness, wp_setTable, Prog.wp_pure]
            exact ⟨hs₃.trans (hs₂.trans hs₁), hvalid⟩
        | pending => exact (Prog.wp_throw _).mpr (hs₃.trans (hs₂.trans hs₁))
        | unsupported => exact (Prog.wp_throw _).mpr (hs₃.trans (hs₂.trans hs₁))
  rw [Prog.wp_bind]
  refine wp_ensureHostEntry (fun _ _ => htake _ rfl) (fun _ _ _ _ _ _ _ => htake _ rfl) fun _ _ => rfl

end Mcr.Net
