import Mcr.Net.Rules

/-!
# What the methods of a handle do to its buffers

A handle buffers a connection its completion port has brought, and the bytes or the end of file of a
receive. For any host whatever: polling and draining only ever add to the buffers, a drain says what it
has added, and only the receive and accept methods take something out.
-/

namespace Mcr.Net

variable {σ ω : Type}

/-- The part of a handle that decides whether its receives go through the completion port. -/
def WinHostSocketHandle.setup (handle : WinHostSocketHandle σ) : σ × SocketSpec × Bool × Bool :=
  (handle.socket, handle.spec, handle.completionPort, handle.listening)

theorem WinHostSocketHandle.canUseIocpRecv_of_setup {h h' : WinHostSocketHandle σ}
    (hsetup : h'.setup = h.setup) : h'.canUseIocpRecv = h.canUseIocpRecv := by
  simp only [setup, Prod.mk.injEq] at hsetup
  obtain ⟨_, hspec, hport, hlistening⟩ := hsetup
  simp only [canUseIocpRecv, hspec, hport, hlistening]

/-- A receive in flight and a full receive buffer exclude each other. -/
def WinHostSocketHandle.Exclusive (handle : WinHostSocketHandle σ) : Prop :=
  handle.pendingRecv.isSome → handle.hasRecvReadiness = false

/-- From `h` to `h'` the completions `kinds` were taken from the port and put where they belong. -/
structure Took (h h' : WinHostSocketHandle σ) (kinds : List SocketCompletionKind) : Prop where
  setup : h'.setup = h.setup
  keeps : h.acceptedFastPath.isSome → h'.acceptedFastPath.isSome
  accepted : h'.acceptedFastPath.isSome → h.acceptedFastPath.isSome ∨
    h.pendingAccept.isSome ∧ .accept ∈ kinds
  accepting : h'.pendingAccept.isSome → h.pendingAccept.isSome
  holds : h.hasRecvReadiness → h'.hasRecvReadiness
  received : h'.hasRecvReadiness → h.hasRecvReadiness ∨ h.pendingRecv.isSome
  receiving : h'.pendingRecv.isSome → h.pendingRecv.isSome
  exclusive : h.Exclusive → h'.Exclusive
  connecting : h'.pendingConnect.isSome → h.pendingConnect.isSome
  /-- With neither a receive nor a connect in flight, only an accept can have completed. -/
  onlyAccepts : h.pendingRecv = none → h.pendingConnect = none → kinds ≠ [] → .accept ∈ kinds

namespace Took

variable {h h' h'' : WinHostSocketHandle σ} {kinds kinds' : List SocketCompletionKind}

theorem refl (h : WinHostSocketHandle σ) : Took h h [] :=
  ⟨rfl, id, Or.inl, id, id, Or.inl, id, id, id, fun _ _ hne => absurd rfl hne⟩

theorem trans (hfirst : Took h h' kinds) (hsecond : Took h' h'' kinds') :
    Took h h'' (kinds ++ kinds') := by
  constructor
  · exact hsecond.setup.trans hfirst.setup
  · exact hsecond.keeps ∘ hfirst.keeps
  · intro haccepted
    rcases hsecond.accepted haccepted with h1 | ⟨h1, hmem⟩
    · exact (hfirst.accepted h1).imp_right fun ⟨hp, hmem⟩ => ⟨hp, List.mem_append_left _ hmem⟩
    · exact Or.inr ⟨hfirst.accepting h1, List.mem_append_right _ hmem⟩
  · exact hfirst.accepting ∘ hsecond.accepting
  · exact hsecond.holds ∘ hfirst.holds
  · intro hreceived
    rcases hsecond.received hreceived with h1 | h1
    · exact hfirst.received h1
    · exact Or.inr (hfirst.receiving h1)
  · exact hfirst.receiving ∘ hsecond.receiving
  · exact hsecond.exclusive ∘ hfirst.exclusive
  · exact hfirst.connecting ∘ hsecond.connecting
  · intro hrecv hconnect hne
    by_cases hkinds : kinds = []
    · subst hkinds
      have hrecv' : h'.pendingRecv = none := by
        by_contra hsome
        have := hfirst.receiving (Option.isSome_iff_ne_none.mpr hsome)
        rw [hrecv] at this
        nomatch this
      have hconnect' : h'.pendingConnect = none := by
        by_contra hsome
        have := hfirst.connecting (Option.isSome_iff_ne_none.mpr hsome)
        rw [hconnect] at this
        nomatch this
      exact List.mem_append_right _ (hsecond.onlyAccepts hrecv' hconnect' (by simpa using hne))
    · exact List.mem_append_left _ (hfirst.onlyAccepts hrecv hconnect hkinds)

end Took

/-! ### Receives -/

/-- What applying a submission can do to a handle that has nothing in flight and nothing buffered. -/
structure Submitted (h h' : WinHostSocketHandle σ) : Prop where
  setup : h'.setup = h.setup
  accepted : h'.acceptedFastPath = h.acceptedFastPath
  accepting : h'.pendingAccept = h.pendingAccept
  connecting : h'.pendingConnect = h.pendingConnect
  holds : h.hasRecvReadiness → h'.hasRecvReadiness
  exclusive : h.pendingRecv = none → h.hasRecvReadiness = false → h'.Exclusive

theorem Submitted.refl (h : WinHostSocketHandle σ) : Submitted h h :=
  ⟨rfl, rfl, rfl, rfl, id, fun hnone _ hsome => by rw [hnone] at hsome; nomatch hsome⟩

theorem cacheRecvCompletion_submitted (bytes : List UInt8) (s : HandleState σ ω) :
    (cacheRecvCompletion bytes).wp (fun _ s' => Submitted s.handle s'.handle)
      (fun _ s' => Submitted s.handle s'.handle) s := by
  unfold cacheRecvCompletion
  rw [Prog.wp_ite]
  split
  · rw [wp_setHandle]
    refine ⟨rfl, rfl, rfl, rfl, fun _ => ?_, fun hnone _ hsome => ?_⟩
    · simp [WinHostSocketHandle.hasRecvReadiness]
    · rw [show s.handle.pendingRecv = none from hnone] at hsome
      nomatch hsome
  · rename_i hempty
    rw [wp_setHandle]
    refine ⟨rfl, rfl, rfl, rfl, fun _ => ?_, fun hnone _ hsome => ?_⟩
    · simp [WinHostSocketHandle.hasRecvReadiness, List.isEmpty_iff.not.mp hempty]
    · rw [show s.handle.pendingRecv = none from hnone] at hsome
      nomatch hsome

theorem applyRecvSubmission_submitted (submission : HostSocketIoSubmission) (s : HandleState σ ω) :
    (applyRecvSubmission submission).wp (fun _ s' => Submitted s.handle s'.handle)
      (fun _ s' => Submitted s.handle s'.handle) s := by
  cases submission with
  | completed direction bytes =>
      rw [applyRecvSubmission, Prog.wp_ite]
      split
      · rw [Prog.wp_throw]
        exact .refl _
      · exact cacheRecvCompletion_submitted bytes s
  | failed direction error =>
      rw [applyRecvSubmission, Prog.wp_ite]
      split
      · rw [Prog.wp_throw]
        exact .refl _
      · rw [wp_setHandle]
        refine ⟨rfl, rfl, rfl, rfl, id, fun hnone _ hsome => ?_⟩
        rw [show s.handle.pendingRecv = none from hnone] at hsome
        nomatch hsome
  | pending pending =>
      rw [applyRecvSubmission, Prog.wp_ite]
      split
      · rw [Prog.wp_throw]
        exact .refl _
      · rw [wp_setHandle]
        exact ⟨rfl, rfl, rfl, rfl, id, fun _ hfalse _ => hfalse⟩

/-- A packet ends the receive in flight it belongs to; the buffers it fills were empty. -/
theorem settleRecv_took {p : PendingHostSocketIo} {packet : HostIoCompletionPacket} {s : HandleState σ ω}
    {Q : Unit → HandleState σ ω → Prop} {E : HostIoError → HandleState σ ω → Prop}
    (hp : s.handle.pendingRecv = some p) (hmatch : p.overlappedToken = packet.overlapped)
    (hok : ∀ s', (∀ kind, Took s.handle s'.handle [kind]) → Q () s')
    (herror : ∀ e s', (∀ kind, Took s.handle s'.handle [kind]) → E e s') :
    Prog.wp (do
      setHandle fun handle => { handle with pendingRecv := none }
      applyRecvSubmission (p.completeFromPacket packet)) Q E s := by
  have hsettled : ∀ h' : WinHostSocketHandle σ,
      Submitted { s.handle with pendingRecv := none } h' → h'.pendingRecv = none →
      ∀ kind, Took s.handle h' [kind] := by
    intro h' hsub hnone kind
    constructor
    · exact hsub.setup
    · rw [hsub.accepted]
      exact id
    · rw [hsub.accepted]
      exact Or.inl
    · rw [hsub.accepting]
      exact id
    · exact hsub.holds
    · exact fun _ => Or.inr (by rw [hp]; rfl)
    · intro hsome
      rw [hnone] at hsome
      nomatch hsome
    · intro _ hsome
      rw [hnone] at hsome
      nomatch hsome
    · rw [hsub.connecting]
      exact id
    · intro hidle
      rw [hp] at hidle
      nomatch hidle
  rw [Prog.wp_bind, wp_setHandle]
  have hsub := applyRecvSubmission_submitted (p.completeFromPacket packet)
    { s with handle := { s.handle with pendingRecv := none } }
  -- a matching packet completes or fails the receive, so none is in flight afterwards
  have hidle : (applyRecvSubmission (p.completeFromPacket packet)).wp
      (fun _ (s' : HandleState σ ω) => s'.handle.pendingRecv = none)
      (fun _ s' => s'.handle.pendingRecv = none)
      { s with handle := { s.handle with pendingRecv := none } } := by
    unfold PendingHostSocketIo.completeFromPacket
    rw [if_neg (not_not.mpr hmatch)]
    cases packet.error with
    | some error =>
        simp only
        rw [applyRecvSubmission, Prog.wp_ite, wp_setHandle, Prog.wp_throw]
        split <;> rfl
    | none =>
        simp only
        split
        · rw [applyRecvSubmission, Prog.wp_ite, wp_setHandle, Prog.wp_throw]
          split <;> rfl
        · rw [applyRecvSubmission, Prog.wp_ite, Prog.wp_throw, cacheRecvCompletion, Prog.wp_ite,
            wp_setHandle, wp_setHandle]
          split
          · rfl
          · split <;> rfl
  refine Prog.wp_mono (Prog.wp_and hsub hidle) (fun _ s' h => ?_) (fun e s' h => ?_)
  · exact hok s' (hsettled s'.handle h.1 h.2)
  · exact herror e s' (hsettled s'.handle h.1 h.2)

/-! ### Draining -/

theorem drainAcceptPacket_took {host : HostNet σ ω} {token : SocketReadinessToken}
    {pending : PendingHostAcceptEx σ} {packet : HostIoCompletionPacket} {s : HandleState σ ω}
    (hpending : s.handle.pendingAccept.isSome) :
    (drainAcceptPacket host token pending packet).wp
      (fun cs s' => (∀ c ∈ cs, c.token = token) ∧ Took s.handle s'.handle (cs.map (·.kind)))
      (fun _ _ => False) s := by
  unfold drainAcceptPacket
  rw [Prog.wp_bind, Prog.wp_get, Prog.wp_bind, wp_setHandle, Prog.wp_tryCatch, Prog.wp_bind, wp_hostCall]
  refine wp_anyCall (fun accepted w => ?_) (fun error w => ?_)
  · rw [Prog.wp_bind, wp_setHandle, Prog.wp_pure]
    refine ⟨by simp, rfl, fun _ => rfl, fun _ => Or.inr ⟨hpending, by simp⟩, fun h => (nomatch h), id, Or.inl,
      id, id, id, fun _ _ _ => by simp⟩
  · rw [Prog.wp_bind, wp_setHandle, Prog.wp_pure]
    refine ⟨by simp, rfl, id, Or.inl, fun h => (nomatch h), id, Or.inl, id, id, id, fun _ _ _ => by simp⟩

theorem drainConnectPacket_took {host : HostNet σ ω} {token : SocketReadinessToken}
    {packet : HostIoCompletionPacket} {s : HandleState σ ω} (hpending : s.handle.pendingConnect ≠ none) :
    (drainConnectPacket host token packet).wp
      (fun cs s' => (∀ c ∈ cs, c.token = token) ∧ Took s.handle s'.handle (cs.map (·.kind)))
      (fun _ _ => False) s := by
  unfold drainConnectPacket
  rw [Prog.wp_bind, Prog.wp_get, Prog.wp_bind, wp_setHandle, Prog.wp_tryCatch, Prog.wp_bind, wp_hostCall]
  refine wp_anyCall (fun _ w => ?_) (fun error w => ?_)
  · rw [Prog.wp_bind, wp_setHandle, Prog.wp_pure]
    exact ⟨by simp, rfl, id, Or.inl, id, id, Or.inl, id, id, fun h => (nomatch h),
      fun _ hnone _ => absurd hnone hpending⟩
  · rw [Prog.wp_bind, wp_setHandle, Prog.wp_pure]
    exact ⟨by simp, rfl, id, Or.inl, id, id, Or.inl, id, id, fun h => (nomatch h),
      fun _ hnone _ => absurd hnone hpending⟩

theorem drainRecvPacket_took {token : SocketReadinessToken} {p : PendingHostSocketIo}
    {packet : HostIoCompletionPacket} {s : HandleState σ ω} (hp : s.handle.pendingRecv = some p)
    (hmatch : p.overlappedToken = packet.overlapped) :
    (drainRecvPacket token p packet).wp
      (fun cs s' => (∀ c ∈ cs, c.token = token) ∧ Took s.handle s'.handle (cs.map (·.kind)))
      (fun _ s' => ∃ kinds, Took s.handle s'.handle kinds) s := by
  have hassoc : (drainRecvPacket token p packet : HandleProg σ ω (List HostSocketCompletion)) = (do
      (do
        setHandle fun handle => { handle with pendingRecv := none }
        applyRecvSubmission (p.completeFromPacket packet))
      let s ← Prog.get
      pure [⟨token, s.handle.recvCompletionKind⟩]) := rfl
  rw [hassoc, Prog.wp_bind]
  refine settleRecv_took hp hmatch (fun s' htook => ?_) (fun e s' htook => ⟨[.receive], htook _⟩)
  rw [Prog.wp_bind, Prog.wp_get, Prog.wp_pure]
  exact ⟨by simp, htook _⟩

theorem drainPacket_took {host : HostNet σ ω} {token : SocketReadinessToken}
    {packet : HostIoCompletionPacket} {s : HandleState σ ω} :
    (drainPacket host token packet).wp
      (fun cs s' => (∀ c ∈ cs, c.token = token) ∧ Took s.handle s'.handle (cs.map (·.kind)))
      (fun _ s' => ∃ kinds, Took s.handle s'.handle kinds) s := by
  unfold drainPacket
  rw [Prog.wp_bind, Prog.wp_get]
  cases haccept : s.handle.pendingAccept.filter fun p => p.overlappedToken = packet.overlapped with
  | some pending =>
      have hpending : s.handle.pendingAccept.isSome := by
        rw [(Option.filter_eq_some_iff.mp haccept).1]
        rfl
      exact Prog.wp_mono (drainAcceptPacket_took hpending) (fun _ _ h => h) fun _ _ h => h.elim
  | none =>
      cases hrecv : s.handle.pendingRecv.filter fun p => p.overlappedToken = packet.overlapped with
      | some pending =>
          obtain ⟨hp, hmatch⟩ := Option.filter_eq_some_iff.mp hrecv
          exact drainRecvPacket_took hp (by simpa using hmatch)
      | none =>
          cases hconnect : s.handle.pendingConnect.filter fun p => p.overlappedToken = packet.overlapped with
          | some pending =>
              have hpending : s.handle.pendingConnect ≠ none := by
                rw [(Option.filter_eq_some_iff.mp hconnect).1]
                exact nofun
              exact Prog.wp_mono (drainConnectPacket_took hpending) (fun _ _ h => h) fun _ _ h => h.elim
          | none =>
              simp only
              rw [Prog.wp_pure]
              exact ⟨by simp, .refl _⟩

theorem drainLoop_took {host : HostNet σ ω} {token : SocketReadinessToken} (fuel : Nat) :
    ∀ {s : HandleState σ ω}, (drainLoop host token fuel).wp
      (fun cs s' => (∀ c ∈ cs, c.token = token) ∧ Took s.handle s'.handle (cs.map (·.kind)))
      (fun _ s' => ∃ kinds, Took s.handle s'.handle kinds) s := by
  induction fuel with
  | zero =>
      intro s
      rw [drainLoop, Prog.wp_pure]
      exact ⟨by simp, .refl _⟩
  | succ fuel ih =>
      intro s
      rw [drainLoop, Prog.wp_bind, Prog.wp_get, Prog.wp_bind, wp_hostCall]
      refine wp_anyCall (fun packet w => ?_) (fun _ w => ⟨[], .refl _⟩)
      cases packet with
      | none =>
          simp only
          rw [Prog.wp_pure]
          exact ⟨by simp, .refl _⟩
      | some packet =>
          simp only
          rw [Prog.wp_bind]
          refine Prog.wp_mono drainPacket_took (fun cs s' h => ?_) (fun _ _ h => h)
          rw [Prog.wp_bind]
          refine Prog.wp_mono ih (fun cs' s'' h' => ?_) (fun _ _ h' => ?_)
          · rw [Prog.wp_pure]
            refine ⟨fun c hc => ?_, ?_⟩
            · rcases List.mem_append.mp hc with hc | hc
              · exact h.1 c hc
              · exact h'.1 c hc
            · rw [List.map_append]
              exact h.2.trans h'.2
          · obtain ⟨kinds, htook⟩ := h'
            exact ⟨_, h.2.trans htook⟩

theorem drainReadinessCompletions_took {host : HostNet σ ω} {token : SocketReadinessToken}
    {s : HandleState σ ω} :
    (drainReadinessCompletions host token).wp
      (fun cs s' => (∀ c ∈ cs, c.token = token) ∧ Took s.handle s'.handle (cs.map (·.kind)))
      (fun _ s' => ∃ kinds, Took s.handle s'.handle kinds) s := by
  unfold drainReadinessCompletions
  rw [Prog.wp_bind, Prog.wp_get, Prog.wp_ite]
  split
  · exact drainLoop_took _
  · rw [Prog.wp_pure]
    exact ⟨by simp, .refl _⟩

/-! ### Polling -/

/-- A poll leaves accepts alone and only adds to the receive buffers. -/
structure Polled (h h' : WinHostSocketHandle σ) : Prop where
  setup : h'.setup = h.setup
  accepted : h'.acceptedFastPath.isSome = h.acceptedFastPath.isSome
  accepting : h'.pendingAccept.isSome → h.pendingAccept.isSome
  holds : h.hasRecvReadiness → h'.hasRecvReadiness
  exclusive : h.Exclusive → h'.Exclusive
  /-- Only a handle whose receives go through its port comes to hold one. -/
  received : h'.hasRecvReadiness ∨ h'.pendingRecv.isSome →
    h.hasRecvReadiness ∨ h.pendingRecv.isSome ∨ h.canUseIocpRecv

namespace Polled

variable {h h' h'' : WinHostSocketHandle σ}

theorem refl (h : WinHostSocketHandle σ) : Polled h h :=
  ⟨rfl, rfl, id, id, id, fun hr => hr.imp_right Or.inl⟩

theorem trans (hfirst : Polled h h') (hsecond : Polled h' h'') : Polled h h'' := by
  refine ⟨hsecond.setup.trans hfirst.setup, hsecond.accepted.trans hfirst.accepted,
    hfirst.accepting ∘ hsecond.accepting, hsecond.holds ∘ hfirst.holds,
    hsecond.exclusive ∘ hfirst.exclusive, fun hr => ?_⟩
  rcases hsecond.received hr with h1 | h1 | h1
  · exact hfirst.received (Or.inl h1)
  · exact hfirst.received (Or.inr h1)
  · rw [WinHostSocketHandle.canUseIocpRecv_of_setup hfirst.setup] at h1
    exact Or.inr (Or.inr h1)

theorem of_took (htook : Took h h' [.receive]) : Polled h h' := by
  constructor
  · exact htook.setup
  · rw [Bool.eq_iff_iff]
    constructor
    · intro haccepted
      rcases htook.accepted haccepted with h1 | ⟨_, hmem⟩
      · exact h1
      · simp at hmem
    · exact htook.keeps
  · exact htook.accepting
  · exact htook.holds
  · exact htook.exclusive
  · rintro (hr | hr)
    · exact (htook.received hr).imp_right Or.inl
    · exact Or.inr (Or.inl (htook.receiving hr))

end Polled

theorem submitRecvFastPath_polled {host : HostNet σ ω} {s : HandleState σ ω}
    (hcan : s.handle.canUseIocpRecv) :
    (submitRecvFastPath host).wp (fun _ s' => Polled s.handle s'.handle)
      (fun _ s' => Polled s.handle s'.handle) s := by
  unfold submitRecvFastPath
  rw [Prog.wp_bind, Prog.wp_get, Prog.wp_ite]
  split
  · rw [Prog.wp_pure]
    exact .refl _
  · rename_i hfree
    simp only [Bool.or_eq_true, not_or, Bool.not_eq_true, Option.isSome_eq_false_iff,
      Option.isNone_iff_eq_none] at hfree
    rw [Prog.wp_bind, wp_hostSubmit]
    have hpolled : ∀ h' : WinHostSocketHandle σ, Submitted s.handle h' → Polled s.handle h' := by
      intro h' hsub
      refine ⟨hsub.setup, by rw [hsub.accepted], by rw [hsub.accepting]; exact id, hsub.holds,
        fun _ => hsub.exclusive hfree.1.1 hfree.1.2, fun _ => Or.inr (Or.inr hcan)⟩
    exact Prog.wp_mono (applyRecvSubmission_submitted _ _) (fun _ s' h => hpolled _ h)
      (fun _ s' h => hpolled _ h)

theorem completeRecvPacket_polled {packet : HostIoCompletionPacket} {s : HandleState σ ω} :
    (completeRecvPacket packet).wp (fun _ s' => Polled s.handle s'.handle)
      (fun _ s' => Polled s.handle s'.handle) s := by
  unfold completeRecvPacket
  rw [Prog.wp_bind, Prog.wp_get]
  cases hp : s.handle.pendingRecv with
  | none =>
      simp only
      rw [Prog.wp_pure]
      exact .refl _
  | some p =>
      simp only
      rw [Prog.wp_ite]
      split
      · rename_i hmatch
        exact settleRecv_took hp hmatch (fun s' htook => .of_took (htook _))
          (fun e s' htook => .of_took (htook _))
      · rw [Prog.wp_pure]
        exact .refl _

theorem pollRecvPort_polled {host : HostNet σ ω} {timeout : Option Nat} {s : HandleState σ ω}
    (hcan : s.handle.canUseIocpRecv) :
    (pollRecvPort host timeout).wp
      (fun events s' => Polled s.handle s'.handle ∧ (s.handle.hasRecvReadiness → events.readable))
      (fun _ s' => Polled s.handle s'.handle) s := by
  unfold pollRecvPort
  rw [Prog.wp_bind]
  refine Prog.wp_mono (submitRecvFastPath_polled hcan) (fun _ s' h => ?_) (fun _ _ h => h)
  rw [Prog.wp_bind, Prog.wp_get, Prog.wp_bind, Prog.wp_when]
  have hread : ∀ t : HandleState σ ω, Polled s.handle t.handle →
      Prog.wp (do
        let s ← Prog.get
        pure { SocketEvents.none with
          readable := s.handle.hasRecvReadiness
          error := s.handle.recvError.isSome } : HandleProg σ ω SocketEvents)
        (fun events s' => Polled s.handle s'.handle ∧ (s.handle.hasRecvReadiness → events.readable))
        (fun _ s' => Polled s.handle s'.handle) t := by
    intro t ht
    rw [Prog.wp_bind, Prog.wp_get, Prog.wp_pure]
    exact ⟨ht, ht.holds⟩
  split
  · rw [Prog.wp_bind, wp_hostCall]
    refine wp_anyCall (fun packet w => ?_) (fun _ w => h)
    cases packet with
    | none =>
        simp only
        rw [Prog.wp_pure]
        exact hread _ h
    | some packet =>
        refine Prog.wp_mono completeRecvPacket_polled (fun _ t ht => hread t (h.trans ht))
          (fun _ t ht => h.trans ht)
  · exact hread s' h

theorem handlePoll_polled {host : HostNet σ ω} {interest : SocketEvents} {timeout : Option Nat}
    {s : HandleState σ ω} :
    (handlePoll host interest timeout).wp
      (fun events s' => Polled s.handle s'.handle ∧
        (interest.readable → s.handle.canUseIocpRecv → s.handle.hasRecvReadiness → events.readable))
      (fun _ s' => Polled s.handle s'.handle) s := by
  unfold handlePoll
  rw [Prog.wp_bind, Prog.wp_get]
  simp only
  rw [Prog.wp_bind]
  have hreadable : Prog.wp (pollReadable host (interest.readable && s.handle.canUseIocpRecv) timeout)
      (fun events s' => Polled s.handle s'.handle ∧
        (interest.readable → s.handle.canUseIocpRecv → s.handle.hasRecvReadiness → events.readable))
      (fun _ s' => Polled s.handle s'.handle) s := by
    rw [pollReadable, Prog.wp_ite]
    split
    · rename_i hport
      rw [Bool.and_eq_true] at hport
      exact Prog.wp_mono (pollRecvPort_polled hport.2) (fun _ _ h => ⟨h.1, fun _ _ => h.2⟩) (fun _ _ h => h)
    · rename_i hport
      rw [Prog.wp_pure]
      exact ⟨.refl _, fun hr hcan => absurd (by rw [hr, hcan]; rfl) hport⟩
  refine Prog.wp_mono hreadable (fun readiness t ht => ?_) (fun _ _ h => h)
  rw [Prog.wp_ite]
  split
  · rw [Prog.wp_pure]
    exact ht
  · rw [Prog.wp_bind, wp_hostCall]
    refine wp_anyCall (fun polled w => ?_) (fun _ w => ht.1)
    rw [Prog.wp_pure]
    refine ⟨ht.1, fun hr hcan hhas => ?_⟩
    rw [SocketEvents.merge, ht.2 hr hcan hhas, Bool.true_or]

/-! ### Receiving and accepting -/

/-- A method that takes received bytes out of the buffers, or leaves them. -/
structure Drew (h h' : WinHostSocketHandle σ) : Prop where
  setup : h'.setup = h.setup
  accepted : h'.acceptedFastPath = h.acceptedFastPath
  accepting : h'.pendingAccept = h.pendingAccept
  received : h'.hasRecvReadiness → h.hasRecvReadiness
  receiving : h'.pendingRecv = h.pendingRecv

theorem Drew.refl (h : WinHostSocketHandle σ) : Drew h h := ⟨rfl, rfl, rfl, id, rfl⟩

theorem handleRecv_drew {host : HostNet σ ω} {len : Nat} {s : HandleState σ ω} :
    (handleRecv host len).wp (fun _ s' => Drew s.handle s'.handle)
      (fun _ s' => Drew s.handle s'.handle) s := by
  unfold handleRecv
  rw [Prog.wp_bind, Prog.wp_get, Prog.wp_ite]
  split
  · rw [Prog.wp_pure]
    exact .refl _
  rw [Prog.wp_ite]
  split
  · rename_i hready
    rw [Prog.wp_bind, wp_setHandle, Prog.wp_pure]
    refine ⟨rfl, rfl, rfl, fun _ => ?_, rfl⟩
    rw [WinHostSocketHandle.hasRecvReadiness, hready, Bool.true_or]
  rw [Prog.wp_ite]
  split
  · rw [Prog.wp_pure]
    exact .refl _
  cases s.handle.recvError with
  | some error =>
      simp only
      rw [Prog.wp_bind, wp_setHandle, Prog.wp_throw]
      exact ⟨rfl, rfl, rfl, id, rfl⟩
  | none =>
      simp only
      rw [Prog.wp_ite, Prog.wp_throw, wp_hostCall]
      split
      · exact .refl _
      · exact wp_anyCall (fun _ _ => .refl _) (fun _ _ => .refl _)

theorem hostCall_same {α : Type} {call : σ → Prog ω HostError α} {s : HandleState σ ω} :
    Prog.wp (do
      let s ← Prog.get
      hostCall (call s.handle.socket) : HandleProg σ ω α)
      (fun _ s' => s'.handle = s.handle) (fun _ s' => s'.handle = s.handle) s := by
  rw [Prog.wp_bind, Prog.wp_get, wp_hostCall]
  exact wp_anyCall (fun _ _ => rfl) (fun _ _ => rfl)

structure AcceptTried (h h' : WinHostSocketHandle σ) : Prop where
  setup : h'.setup = h.setup
  accepted : h'.acceptedFastPath.isSome → h.acceptedFastPath.isSome
  received : h'.hasRecvReadiness = h.hasRecvReadiness
  receiving : h'.pendingRecv = h.pendingRecv

theorem acceptFastPath_tried {host : HostNet σ ω} {spec : SocketSpec} {s : HandleState σ ω} :
    (acceptFastPath host spec).wp
      (fun result s' => AcceptTried s.handle s'.handle ∧
        (∀ handle peer, result = .accepted handle peer → s'.handle.acceptedFastPath = none ∧
          ∃ raw, handle = .fresh raw spec false))
      (fun _ s' => AcceptTried s.handle s'.handle) s := by
  unfold acceptFastPath
  rw [Prog.wp_bind, Prog.wp_get]
  cases s.handle.acceptError with
  | some error =>
      simp only
      rw [Prog.wp_bind, wp_setHandle, Prog.wp_throw]
      exact ⟨rfl, id, rfl, rfl⟩
  | none =>
      simp only
      cases haccepted : s.handle.acceptedFastPath with
      | some accepted =>
          simp only
          rw [Prog.wp_bind, wp_setHandle, Prog.wp_pure]
          refine ⟨⟨rfl, fun h => (nomatch h), rfl, rfl⟩, fun handle peer h => ⟨rfl, accepted.1, ?_⟩⟩
          cases h
          rfl
      | none =>
          simp only
          rw [Prog.wp_ite]
          split
          · rw [Prog.wp_pure]
            exact ⟨⟨rfl, id, rfl, rfl⟩, fun _ _ h => (nomatch h)⟩
          rw [Prog.wp_ite]
          split
          · rw [Prog.wp_pure]
            exact ⟨⟨rfl, id, rfl, rfl⟩, fun _ _ h => (nomatch h)⟩
          rw [Prog.wp_bind, hostAttempt, Prog.wp_zoom, Prog.wp_attempt]
          refine wp_anyCall (fun pending w => ?_) (fun error w => ?_)
          · simp only
            rw [Prog.wp_bind, wp_setHandle, Prog.wp_pure]
            exact ⟨⟨rfl, id, rfl, rfl⟩, fun _ _ h => (nomatch h)⟩
          · simp only
            rw [Prog.wp_ite, Prog.wp_pure, Prog.wp_throw]
            split
            · exact ⟨⟨rfl, id, rfl, rfl⟩, fun _ _ h => (nomatch h)⟩
            · exact ⟨rfl, id, rfl, rfl⟩

theorem handleAccept_same {host : HostNet σ ω} {s : HandleState σ ω} :
    (handleAccept host).wp
      (fun result s' => s'.handle = s.handle ∧
        (∃ w accepted, host.accept s.handle.socket s.host = (.ok accepted, w)) ∧
        ∃ raw, result.1 = .fresh raw s.handle.spec false)
      (fun _ s' => s'.handle = s.handle) s := by
  unfold handleAccept
  rw [Prog.wp_bind, Prog.wp_get, Prog.wp_bind, wp_hostCall, Prog.wp_iff]
  refine ⟨fun accepted w hrun => ?_, fun _ _ _ => rfl⟩
  rw [Prog.wp_pure]
  exact ⟨rfl, ⟨w, accepted, hrun⟩, accepted.1, rfl⟩

end Mcr.Net
