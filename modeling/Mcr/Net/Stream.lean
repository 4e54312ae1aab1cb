import Mcr.Net.Handle

/-!
# One byte stream behind a handle

The host socket as a single stream: every receive is given its bytes when it is issued, in the order of
issue, and an overlapped receive learns of them when its packet leaves the port. A script of choices
decides how much each call is given, which calls fail, which receives stay in flight and when packets
reach the port, so that a statement over all scripts is one over every such host. What carries the module
is `Accounts`: the bytes returned, those prefetched and those in flight are the bytes given out.
-/

namespace Mcr.Net

/-- What the host decides about one call. -/
structure HostChoice where
  error : Option HostError
  /-- One less than the bytes the call is given, when it asks for as many and the stream holds them. -/
  count : Nat
  /-- An overlapped receive stays in flight. -/
  pend : Bool
  /-- How many of the receives in flight have their packets queued before the call. -/
  arrive : Nat
  events : SocketEvents

structure StreamWorld where
  given : List UInt8
  input : List UInt8
  inFlight : List HostIoCompletionPacket
  packets : List HostIoCompletionPacket
  nextToken : Nat
  clock : Nat
  choices : Nat → HostChoice

namespace StreamWorld

/-- The packets that have not left the port yet, queued or not. -/
def outstanding (w : StreamWorld) : List HostIoCompletionPacket := w.packets ++ w.inFlight

def choice (w : StreamWorld) : HostChoice := w.choices w.clock

def tick (w : StreamWorld) : StreamWorld :=
  { w with
    clock := w.clock + 1
    packets := w.packets ++ w.inFlight.take w.choice.arrive
    inFlight := w.inFlight.drop w.choice.arrive }

/-- What a receive into `len` bytes is given. A stream that has run dry has been closed by its peer. -/
def portion (w : StreamWorld) (len : Nat) : List UInt8 := w.input.take (min len (w.choice.count + 1))

def give (w : StreamWorld) (bytes : List UInt8) : StreamWorld :=
  { w with given := w.given ++ bytes, input := w.input.drop bytes.length }

@[simp] theorem outstanding_tick (w : StreamWorld) : w.tick.outstanding = w.outstanding := by
  simp [outstanding, tick]

theorem portion_prefix (w : StreamWorld) (len : Nat) : w.portion len <+: w.input := List.take_prefix _ _

theorem input_eq_nil_of_portion {w : StreamWorld} {len : Nat} (hlen : len ≠ 0)
    (h : w.portion len = []) : w.input = [] := by
  rcases List.take_eq_nil_iff.mp h with h | h
  · omega
  · exact h

theorem give_whole (w : StreamWorld) {bytes : List UInt8} (h : bytes <+: w.input) :
    (w.give bytes).given ++ (w.give bytes).input = w.given ++ w.input := by
  rw [give, List.append_assoc, List.prefix_iff_eq_append.mp h]

@[simp] theorem given_tick (w : StreamWorld) : w.tick.given = w.given := rfl
@[simp] theorem input_tick (w : StreamWorld) : w.tick.input = w.input := rfl
@[simp] theorem nextToken_tick (w : StreamWorld) : w.tick.nextToken = w.nextToken := rfl

end StreamWorld

/-! ### The host -/

namespace StreamHost

/-- A call that brings no data: it fails or it answers. -/
def answer {α : Type} (a : StreamWorld → α) : Prog StreamWorld HostError α := fun w =>
  match w.choice.error with
  | some error => (.error error, w.tick)
  | none => (.ok (a w), w.tick)

def receive (len : Nat) : Prog StreamWorld HostError (List UInt8) := fun w =>
  match w.choice.error with
  | some error => (.error error, w.tick)
  | none => (.ok (w.portion len), w.tick.give (w.portion len))

def submitRecv (len : Nat) (w : StreamWorld) : HostSocketIoSubmission × StreamWorld :=
  let bytes := if w.choice.error.isSome then [] else w.portion len
  let t := w.tick.give bytes
  if w.choice.pend then
    (.pending ⟨.receive, len, w.nextToken⟩,
      { t with
        nextToken := w.nextToken + 1
        inFlight := t.inFlight ++ [⟨w.nextToken, w.choice.error, bytes⟩] })
  else
    match w.choice.error with
    | some error => (.failed .receive error, t)
    | none => (.completed .receive bytes, t)

def portGet : Prog StreamWorld HostError (Option HostIoCompletionPacket) := fun w =>
  match w.choice.error with
  | some error => (.error error, w.tick)
  | none => (.ok w.tick.packets.head?, { w.tick with packets := w.tick.packets.tail })

end StreamHost

open StreamHost in
def streamHost : HostNet Unit StreamWorld where
  newCompletionPort := answer fun _ => ()
  openSocketWithIocp _ _ _ := answer fun _ => ()
  openSocket _ _ _ := answer fun _ => ()
  setOption _ _ := answer fun _ => ()
  setNonblocking _ _ := answer fun _ => ()
  bind _ _ := answer fun _ => ()
  listen _ _ := answer fun _ => ()
  accept _ := answer fun _ => ((), .inet 0 0)
  connect _ _ := answer fun _ => ()
  shutdown _ _ := answer fun _ => ()
  localAddr _ := answer fun _ => .inet 0 0
  peerAddr _ := answer fun _ => .inet 0 0
  takeError _ := answer fun _ => none
  recv _ len := receive len
  recvVectored _ lens := receive lens.sum
  recvFrom _ len := do let bytes ← receive len; pure (bytes, .inet 0 0)
  recvFromVectored _ lens := do let bytes ← receive lens.sum; pure (bytes, .inet 0 0)
  pollSockets entries _ := answer fun w => entries.map fun _ => w.choice.events
  submitOverlappedRecv _ len := submitRecv len
  submitAcceptEx _ := do
    let pending ← answer fun w => ⟨w.nextToken, ()⟩
    .modify fun w => { w with nextToken := w.nextToken + 1 }
    pure pending
  submitConnectEx _ _ := do
    let pending ← answer fun w => ⟨w.nextToken⟩
    .modify fun w => { w with nextToken := w.nextToken + 1 }
    pure pending
  updateAcceptContext _ _ := answer fun _ => ()
  updateConnectContext _ := answer fun _ => ()
  portGet _ _ := portGet
  queued _ w := w.outstanding.length
  closeSocket _ w := w

/-! ### The accounts -/

abbrev StreamState := HandleState Unit StreamWorld

structure Brings (input : List UInt8) (pending : PendingHostSocketIo) (claim : List UInt8)
    (packet : HostIoCompletionPacket) : Prop where
  bytes : packet.bytes = claim
  fits : claim.length ≤ pending.bufferLen
  failed : ∀ error, packet.error = some error → claim = []
  ended : packet.error = none → claim = [] → input = []

/-- The receive in flight, if there is one, has been given `claim`, and its packet is still to come. -/
structure InFlight (input : List UInt8) (outstanding : List HostIoCompletionPacket)
    (pending : Option PendingHostSocketIo) (claim : List UInt8) : Prop where
  idle : pending = none → claim = []
  receive : ∀ p, pending = some p → p.direction = .receive
  exists_packet : ∀ p, pending = some p → ∃ q ∈ outstanding, q.overlapped = p.overlappedToken
  packet : ∀ p, pending = some p → ∀ q ∈ outstanding, q.overlapped = p.overlappedToken →
    Brings input p claim q

theorem InFlight.none {input : List UInt8} {outstanding : List HostIoCompletionPacket} :
    InFlight input outstanding none [] :=
  ⟨fun _ => rfl, fun _ h => (nomatch h), fun _ h => (nomatch h), fun _ h => (nomatch h)⟩

/-- The accounts while the packets in `hand` have left the port and are not dealt with yet. -/
structure Accounts (stream returned claim : List UInt8) (hand : List HostIoCompletionPacket)
    (s : StreamState) : Prop where
  whole : s.host.given ++ s.host.input = stream
  given : returned ++ s.handle.recvReady ++ claim = s.host.given
  inFlight : InFlight s.host.input (hand ++ s.host.outstanding) s.handle.pendingRecv claim
  busy : s.handle.pendingRecv.isSome →
    s.handle.recvReady = [] ∧ s.handle.recvEof = false ∧ s.handle.recvError = none
  ended : s.handle.recvEof = true → s.handle.recvReady = [] ∧ s.host.input = []
  tokens : ∀ q ∈ hand ++ s.host.outstanding, q.overlapped < s.host.nextToken
  accept : s.handle.pendingAccept = none

def StreamInv (stream returned : List UInt8) (s : StreamState) : Prop :=
  ∃ claim, Accounts stream returned claim [] s

variable {stream returned claim : List UInt8} {hand : List HostIoCompletionPacket} {s : StreamState}

namespace Accounts

theorem tick (h : Accounts stream returned claim hand s) :
    Accounts stream returned claim hand { s with host := s.host.tick } := by
  constructor
  · exact h.whole
  · exact h.given
  · simpa using h.inFlight
  · exact h.busy
  · exact h.ended
  · simpa using h.tokens
  · exact h.accept

theorem discard {q : HostIoCompletionPacket} (h : Accounts stream returned claim [q] s)
    (hq : ∀ p, s.handle.pendingRecv = some p → q.overlapped ≠ p.overlappedToken) :
    Accounts stream returned claim [] s := by
  refine ⟨h.whole, h.given, ⟨h.inFlight.idle, h.inFlight.receive, fun p hp => ?_, fun p hp q' hq' => ?_⟩,
    h.busy, h.ended, fun q' hq' => h.tokens q' (List.mem_cons_of_mem _ hq'), h.accept⟩
  · obtain ⟨q', hq', htoken⟩ := h.inFlight.exists_packet p hp
    rcases List.mem_cons.mp hq' with rfl | hq'
    · exact absurd htoken (hq p hp)
    · exact ⟨q', hq', htoken⟩
  · exact h.inFlight.packet p hp q' (List.mem_cons_of_mem _ hq')

theorem of_handle {handle : WinHostSocketHandle Unit} (h : Accounts stream returned claim hand s)
    (hready : handle.recvReady = s.handle.recvReady) (heof : handle.recvEof = s.handle.recvEof)
    (herror : handle.recvError = s.handle.recvError)
    (hpending : handle.pendingRecv = s.handle.pendingRecv)
    (haccept : handle.pendingAccept = s.handle.pendingAccept) :
    Accounts stream returned claim hand { s with handle := handle } := by
  constructor
  · exact h.whole
  · simpa [hready] using h.given
  · simpa [hpending] using h.inFlight
  · simpa [hpending, hready, heof, herror] using h.busy
  · simpa [hready, heof] using h.ended
  · exact h.tokens
  · exact haccept.trans h.accept

end Accounts

/-! ### Calls that bring no data -/

theorem StreamHost.wp_answer {α : Type} {a : StreamWorld → α} {w : StreamWorld}
    {Q : α → StreamWorld → Prop} {E : HostError → StreamWorld → Prop} (hok : Q (a w) w.tick) (herror : ∀ error, E error w.tick) :
    (StreamHost.answer a).wp Q E w := by
  cases hchoice : w.choice.error with
  | none => exact Prog.wp_of_run (by rw [StreamHost.answer, hchoice]) hok
  | some error => exact Prog.wp_of_error (by rw [StreamHost.answer, hchoice]) (herror error)

theorem wp_portGet (h : Accounts stream returned claim [] s) :
    (hostCall StreamHost.portGet).wp
      (fun packet s' => s'.handle = s.handle ∧ Accounts stream returned claim packet.toList s')
      (fun _ s' => s'.handle = s.handle ∧ Accounts stream returned claim [] s') s := by
  rw [wp_hostCall]
  cases hchoice : s.host.choice.error with
  | some error =>
      exact Prog.wp_of_error (t := s.host.tick) (by rw [StreamHost.portGet, hchoice]) ⟨rfl, h.tick⟩
  | none =>
      refine Prog.wp_of_run (a := s.host.tick.packets.head?)
        (t := { s.host.tick with packets := s.host.tick.packets.tail })
        (by rw [StreamHost.portGet, hchoice]) ⟨rfl, ?_⟩
      have htick := h.tick
      cases hpackets : s.host.tick.packets with
      | nil =>
          have hsame : ({ s.host.tick with packets := s.host.tick.packets.tail } : StreamWorld) =
              s.host.tick := by rw [hpackets, List.tail_nil, ← hpackets]
          rw [hpackets] at hsame
          rw [List.head?_nil, hsame]
          exact htick
      | cons q rest =>
          have hout : s.host.tick.outstanding = q :: (rest ++ s.host.tick.inFlight) := by
            rw [StreamWorld.outstanding, hpackets, List.cons_append]
          refine ⟨htick.whole, htick.given, ?_, htick.busy, htick.ended, ?_, htick.accept⟩
          · have := htick.inFlight
            rw [List.nil_append, hout] at this
            exact this
          · have := htick.tokens
            rw [List.nil_append, hout] at this
            exact this

/-! ### Receives started and finished -/

def KeepsAccounts {α : Type} (stream returned : List UInt8) (m : HandleProg Unit StreamWorld α)
    (s : StreamState) : Prop :=
  m.wp (fun _ => StreamInv stream returned) (fun _ => StreamInv stream returned) s

theorem cacheRecvCompletion_keeps {bytes : List UInt8} (hnone : s.handle.pendingRecv = none)
    (hready : s.handle.recvReady = []) (hended : bytes = [] → s.host.input = [])
    (haccounts : ∀ handle : WinHostSocketHandle Unit, handle.pendingRecv = none →
      handle.pendingAccept = s.handle.pendingAccept → handle.recvReady = bytes →
      (handle.recvEof = true → handle.recvReady = [] ∧ s.host.input = []) →
      Accounts stream returned [] [] { s with handle := handle })
    (heof : s.handle.recvEof = true → bytes = [] ∧ s.host.input = []) :
    KeepsAccounts stream returned (cacheRecvCompletion bytes) s := by
  unfold KeepsAccounts cacheRecvCompletion
  rw [Prog.wp_ite]
  split
  · rename_i hempty
    have hbytes : bytes = [] := List.isEmpty_iff.mp hempty
    rw [wp_setHandle]
    refine ⟨[], haccounts _ hnone rfl (by rw [hbytes]; exact hready) fun _ => ⟨hready, hended hbytes⟩⟩
  · rename_i hempty
    rw [wp_setHandle]
    refine ⟨[], haccounts _ hnone rfl (by simp [hready]) fun h => ?_⟩
    exact absurd (List.isEmpty_iff.mpr (heof h).1) hempty

/-- A receive whose packet is in hand ends: its bytes become the prefetched ones. -/
theorem settle_keeps {p : PendingHostSocketIo} {q : HostIoCompletionPacket}
    (h : Accounts stream returned claim [q] s) (hp : s.handle.pendingRecv = some p)
    (hq : p.overlappedToken = q.overlapped) :
    KeepsAccounts stream returned (applyRecvSubmission (p.completeFromPacket q))
      { s with handle := { s.handle with pendingRecv := none } } := by
  have hbrings := h.inFlight.packet p hp q List.mem_cons_self hq.symm
  have hreceive := h.inFlight.receive p hp
  obtain ⟨hready, heof, _⟩ := h.busy (by rw [hp]; rfl)
  have hgiven := h.given
  rw [hready, List.append_nil] at hgiven
  have htokens := fun q' hq' => h.tokens q' (List.mem_cons_of_mem q hq')
  have hidle : InFlight s.host.input ([] ++ s.host.outstanding) none [] := .none
  unfold PendingHostSocketIo.completeFromPacket
  rw [if_neg (not_not.mpr hq)]
  cases herror : q.error with
  | some error =>
      have hclaim := hbrings.failed error herror
      simp only
      rw [KeepsAccounts, hreceive, applyRecvSubmission_failed, wp_setHandle]
      refine ⟨[], h.whole, ?_, hidle, fun hsome => (nomatch hsome), h.ended, htokens, h.accept⟩
      rw [← hgiven, hclaim, hready, List.append_nil]
  | none =>
      have hbytes := hbrings.bytes
      simp only
      rw [if_neg (by rw [hbytes]; exact Nat.not_lt.mpr hbrings.fits)]
      rw [hreceive, applyRecvSubmission_completed, hbytes]
      refine cacheRecvCompletion_keeps rfl hready (hbrings.ended herror) ?_ ?_
      · intro handle hpending haccept hrecv hended
        refine ⟨h.whole, ?_, ?_, ?_, hended, htokens, haccept.trans h.accept⟩
        · rw [hrecv, List.append_nil]
          exact hgiven
        · rw [hpending]
          exact hidle
        · rw [hpending]
          exact fun hsome => nomatch hsome
      · intro htrue
        rw [heof] at htrue
        nomatch htrue

theorem completeRecvPacket_keeps {q : HostIoCompletionPacket}
    (h : Accounts stream returned claim [q] s) :
    KeepsAccounts stream returned (completeRecvPacket q) s := by
  unfold KeepsAccounts completeRecvPacket
  rw [Prog.wp_bind, Prog.wp_get]
  cases hp : s.handle.pendingRecv with
  | none =>
      simp only
      rw [Prog.wp_pure]
      exact ⟨claim, h.discard fun p hp' => by rw [hp] at hp'; nomatch hp'⟩
  | some p =>
      simp only
      rw [Prog.wp_ite]
      split
      · rename_i htoken
        rw [Prog.wp_bind, wp_setHandle]
        exact settle_keeps h hp htoken
      · rename_i htoken
        rw [Prog.wp_pure]
        refine ⟨claim, h.discard fun p' hp' => ?_⟩
        rw [hp] at hp'
        cases hp'
        exact Ne.symm htoken

/-- A fresh receive is given the next bytes, and nothing else is in flight or prefetched then. -/
theorem submitRecv_keeps (h : Accounts stream returned [] [] s) (hnone : s.handle.pendingRecv = none)
    (hready : s.handle.recvReady = []) (heof : s.handle.recvEof = false)
    (herror : s.handle.recvError = none) {len : Nat} (hlen : len ≠ 0) :
    KeepsAccounts stream returned (applyRecvSubmission (StreamHost.submitRecv len s.host).1)
      { s with host := (StreamHost.submitRecv len s.host).2 } := by
  have hgiven : returned = s.host.given := by simpa [hready] using h.given
  set bytes := if s.host.choice.error.isSome then [] else s.host.portion len with hbytes
  have hprefix : bytes <+: s.host.input := by
    rw [hbytes]
    split
    · exact List.nil_prefix
    · exact s.host.portion_prefix len
  have hwhole := (s.host.give_whole hprefix).trans h.whole
  have hdry : s.host.choice.error = none → bytes = [] → s.host.input = [] := by
    intro hchoice hnil
    rw [hbytes, hchoice] at hnil
    exact StreamWorld.input_eq_nil_of_portion hlen hnil
  have hdropped : s.host.input = [] → s.host.input.drop bytes.length = [] := by
    intro hinput
    rw [hinput, List.drop_nil]
  have htokens : ∀ q ∈ s.host.tick.outstanding, q.overlapped < s.host.nextToken := by
    rw [StreamWorld.outstanding_tick]
    exact h.tokens
  unfold StreamHost.submitRecv
  simp only [← hbytes]
  by_cases hpend : s.host.choice.pend
  · rw [if_pos hpend]
    rw [KeepsAccounts, applyRecvSubmission_pending, wp_setHandle]
    have hout : ([] : List HostIoCompletionPacket) ++ (s.host.tick.packets ++
        (s.host.tick.inFlight ++ [⟨s.host.nextToken, s.host.choice.error, bytes⟩])) =
        s.host.tick.outstanding ++ [⟨s.host.nextToken, s.host.choice.error, bytes⟩] := by
      rw [List.nil_append, StreamWorld.outstanding, List.append_assoc]
    refine ⟨bytes, hwhole, ?_, ⟨fun hp => (nomatch hp), fun p hp => ?_, fun p hp => ?_, fun p hp q hq => ?_⟩,
      fun _ => ⟨hready, heof, herror⟩, fun htrue => ?_, fun q hq => ?_, h.accept⟩
    · show returned ++ s.handle.recvReady ++ bytes = s.host.given ++ bytes
      rw [hready, List.append_nil, hgiven]
    · cases hp
      rfl
    · cases hp
      exact ⟨_, hout ▸ List.mem_append_right _ List.mem_cons_self, rfl⟩
    · cases hp
      intro htoken
      rcases List.mem_append.mp (hout ▸ hq) with hq | hq
      · exact absurd htoken (Nat.ne_of_lt (htokens q hq))
      · rw [List.mem_singleton.mp hq]
        refine ⟨rfl, ?_, fun error hchoice => ?_, fun hchoice hnil => hdropped (hdry hchoice hnil)⟩
        · rw [hbytes]
          split
          · exact Nat.zero_le _
          · exact (List.length_take_le _ _).trans (Nat.min_le_left _ _)
        · rw [hbytes, show s.host.choice.error = some error from hchoice]
          rfl
    · rw [show s.handle.recvEof = true from htrue] at heof
      nomatch heof
    · rcases List.mem_append.mp (hout ▸ hq) with hq | hq
      · exact Nat.lt_succ_of_lt (htokens q hq)
      · rw [List.mem_singleton.mp hq]
        exact Nat.lt_succ_self _
  · rw [if_neg hpend]
    cases hchoice : s.host.choice.error with
    | some error =>
        have hnil : bytes = [] := by rw [hbytes, hchoice]; rfl
        simp only
        rw [KeepsAccounts, applyRecvSubmission_failed, wp_setHandle]
        refine ⟨[], hwhole, ?_, ?_, fun hsome => ?_, fun htrue => ?_, fun q hq => htokens q hq, h.accept⟩
        · show returned ++ s.handle.recvReady ++ [] = s.host.given ++ bytes
          rw [hready, hnil, hgiven, List.append_nil]
        · rw [show s.handle.pendingRecv = none from hnone]
          exact .none
        · rw [show s.handle.pendingRecv = none from hnone] at hsome
          nomatch hsome
        · rw [show s.handle.recvEof = true from htrue] at heof
          nomatch heof
    | none =>
        simp only
        rw [applyRecvSubmission_completed]
        refine cacheRecvCompletion_keeps hnone hready (fun hnil => hdropped (hdry hchoice hnil)) ?_ ?_
        · intro handle hpending haccept hrecv hended
          refine ⟨hwhole, ?_, ?_, fun hsome => ?_, hended, fun q hq => htokens q hq, haccept.trans h.accept⟩
          · show returned ++ handle.recvReady ++ [] = s.host.given ++ bytes
            rw [hrecv, List.append_nil, hgiven]
          · rw [hpending]
            exact .none
          · rw [hpending] at hsome
            nomatch hsome
        · intro htrue
          rw [show s.handle.recvEof = true from htrue] at heof
          nomatch heof

theorem submitRecvFastPath_keeps (h : StreamInv stream returned s) :
    KeepsAccounts stream returned (submitRecvFastPath streamHost) s := by
  obtain ⟨claim, h⟩ := h
  unfold KeepsAccounts submitRecvFastPath
  rw [Prog.wp_bind, Prog.wp_get, Prog.wp_ite]
  split
  · rw [Prog.wp_pure]
    exact ⟨claim, h⟩
  · rename_i hfree
    simp only [Bool.or_eq_true, not_or, Bool.not_eq_true, Option.isSome_eq_false_iff,
      Option.isNone_iff_eq_none, WinHostSocketHandle.hasRecvReadiness,
      Bool.not_eq_false', List.isEmpty_iff] at hfree
    obtain ⟨⟨hnone, hready, heof⟩, herror⟩ := hfree
    have hclaim := h.inFlight.idle hnone
    subst hclaim
    rw [Prog.wp_bind, wp_hostSubmit]
    exact submitRecv_keeps h hnone hready heof herror (by decide)

/-! ### Polling -/

theorem pollRecvPort_keeps {timeout : Option Nat} (h : StreamInv stream returned s) :
    KeepsAccounts stream returned (pollRecvPort streamHost timeout) s := by
  unfold KeepsAccounts pollRecvPort
  rw [Prog.wp_bind]
  refine Prog.wp_mono (submitRecvFastPath_keeps h) (fun _ s' h' => ?_) (fun _ _ h' => h')
  rw [Prog.wp_bind, Prog.wp_get, Prog.wp_bind, Prog.wp_when]
  have hrest : ∀ t, StreamInv stream returned t →
      Prog.wp (do
        let s ← Prog.get
        pure { SocketEvents.none with
          readable := s.handle.hasRecvReadiness
          error := s.handle.recvError.isSome } : HandleProg Unit StreamWorld SocketEvents)
        (fun _ => StreamInv stream returned) (fun _ => StreamInv stream returned) t := by
    intro t ht
    rw [Prog.wp_bind, Prog.wp_get, Prog.wp_pure]
    exact ht
  split
  · obtain ⟨claim, h'⟩ := h'
    rw [Prog.wp_bind]
    refine Prog.wp_mono (wp_portGet h') (fun packet t ht => ?_) (fun _ t ht => ⟨claim, ht.2⟩)
    cases packet with
    | none =>
        simp only
        rw [Prog.wp_pure]
        exact hrest t ⟨claim, ht.2⟩
    | some packet => exact Prog.wp_mono (completeRecvPacket_keeps ht.2) (fun _ t' ht' => hrest t' ht') (fun _ _ h => h)
  · exact hrest s' h'

theorem pollSockets_keeps {entries : List (Unit × SocketEvents)} {timeout : Option Nat}
    (h : StreamInv stream returned s) :
    KeepsAccounts stream returned (hostCall (streamHost.pollSockets entries timeout)) s := by
  obtain ⟨claim, h⟩ := h
  rw [KeepsAccounts, wp_hostCall]
  exact StreamHost.wp_answer ⟨claim, h.tick⟩ fun _ => ⟨claim, h.tick⟩

theorem handlePoll_keeps {interest : SocketEvents} {timeout : Option Nat}
    (h : StreamInv stream returned s) :
    KeepsAccounts stream returned (handlePoll streamHost interest timeout) s := by
  unfold KeepsAccounts handlePoll
  rw [Prog.wp_bind, Prog.wp_get]
  simp only
  rw [Prog.wp_bind]
  have hport : ∀ viaPort, KeepsAccounts stream returned (pollReadable streamHost viaPort timeout) s := by
    intro viaPort
    rw [KeepsAccounts, pollReadable, Prog.wp_ite]
    split
    · exact pollRecvPort_keeps h
    · rw [Prog.wp_pure]
      exact h
  refine Prog.wp_mono (hport _) (fun readiness t ht => ?_) (fun _ _ h => h)
  rw [Prog.wp_ite]
  split
  · rw [Prog.wp_pure]
    exact ht
  · rw [Prog.wp_bind]
    refine Prog.wp_mono (pollSockets_keeps ht) (fun polled t' ht' => ?_) (fun _ _ h => h)
    rw [Prog.wp_pure]
    exact ht'

/-! ### Draining -/

theorem drainRecvPacket_keeps {token : SocketReadinessToken} {p : PendingHostSocketIo}
    {q : HostIoCompletionPacket} (h : Accounts stream returned claim [q] s)
    (hp : s.handle.pendingRecv = some p) (hq : p.overlappedToken = q.overlapped) :
    KeepsAccounts stream returned (drainRecvPacket token p q) s := by
  unfold KeepsAccounts drainRecvPacket
  rw [Prog.wp_bind, wp_setHandle, Prog.wp_bind]
  refine Prog.wp_mono (settle_keeps h hp hq) (fun _ t ht => ?_) (fun _ _ h => h)
  rw [Prog.wp_bind, Prog.wp_get, Prog.wp_pure]
  exact ht

theorem drainConnectPacket_keeps {token : SocketReadinessToken} {q : HostIoCompletionPacket}
    (h : Accounts stream returned claim [] s) :
    KeepsAccounts stream returned (drainConnectPacket streamHost token q) s := by
  unfold KeepsAccounts drainConnectPacket
  rw [Prog.wp_bind, Prog.wp_get, Prog.wp_bind, wp_setHandle, Prog.wp_tryCatch, Prog.wp_bind, wp_hostCall]
  have hfailed : ∀ error : HostIoError, ∀ t : StreamState, Accounts stream returned claim [] t →
      Prog.wp (do
        setHandle fun handle => { handle with connectError := some error }
        pure [⟨token, .connect⟩, ⟨token, .error⟩] : HandleProg Unit StreamWorld (List HostSocketCompletion))
        (fun _ => StreamInv stream returned) (fun _ => StreamInv stream returned) t := by
    intro error t ht
    rw [Prog.wp_bind, wp_setHandle, Prog.wp_pure]
    exact ⟨claim, ht.of_handle rfl rfl rfl rfl rfl⟩
  have hbase : Accounts stream returned claim []
      { s with handle := { s.handle with pendingConnect := none } } := h.of_handle rfl rfl rfl rfl rfl
  unfold PendingHostConnectEx.completeFromPacket
  cases q.error with
  | some error =>
      simp only
      rw [Prog.wp_throw]
      exact hfailed _ _ hbase
  | none =>
      refine StreamHost.wp_answer ?_ fun error => hfailed _ _ hbase.tick
      rw [Prog.wp_bind, wp_setHandle, Prog.wp_pure]
      exact ⟨claim, hbase.tick.of_handle rfl rfl rfl rfl rfl⟩

theorem drainPacket_keeps {token : SocketReadinessToken} {q : HostIoCompletionPacket}
    (h : Accounts stream returned claim [q] s) :
    KeepsAccounts stream returned (drainPacket streamHost token q) s := by
  unfold KeepsAccounts drainPacket
  rw [Prog.wp_bind, Prog.wp_get, h.accept, Option.filter_none]
  cases hrecv : s.handle.pendingRecv.filter fun p => p.overlappedToken = q.overlapped with
  | some p =>
      obtain ⟨hp, htoken⟩ := Option.filter_eq_some_iff.mp hrecv
      exact drainRecvPacket_keeps h hp (by simpa using htoken)
  | none =>
      have hdiscard : Accounts stream returned claim [] s := by
        refine h.discard fun p hp htoken => ?_
        rw [hp, Option.filter_some, if_pos (by simpa using htoken.symm)] at hrecv
        nomatch hrecv
      cases s.handle.pendingConnect.filter fun p => p.overlappedToken = q.overlapped with
      | some p => exact drainConnectPacket_keeps hdiscard
      | none =>
          simp only
          rw [Prog.wp_pure]
          exact ⟨claim, hdiscard⟩

theorem drainLoop_keeps {token : SocketReadinessToken} (fuel : Nat) :
    ∀ {s : StreamState}, StreamInv stream returned s →
      KeepsAccounts stream returned (drainLoop streamHost token fuel) s := by
  induction fuel with
  | zero =>
      intro s h
      rw [KeepsAccounts, drainLoop, Prog.wp_pure]
      exact h
  | succ fuel ih =>
      rintro s ⟨claim, h⟩
      rw [KeepsAccounts, drainLoop, Prog.wp_bind, Prog.wp_get, Prog.wp_bind]
      refine Prog.wp_mono (wp_portGet h) (fun packet t ht => ?_) (fun _ t ht => ⟨claim, ht.2⟩)
      cases packet with
      | none =>
          simp only
          rw [Prog.wp_pure]
          exact ⟨claim, ht.2⟩
      | some packet =>
          simp only
          rw [Prog.wp_bind]
          refine Prog.wp_mono (drainPacket_keeps ht.2) (fun completions t' ht' => ?_) (fun _ _ h => h)
          rw [Prog.wp_bind]
          refine Prog.wp_mono (ih ht') (fun rest t'' ht'' => ?_) (fun _ _ h => h)
          rw [Prog.wp_pure]
          exact ht''

theorem drainReadinessCompletions_keeps {token : SocketReadinessToken} (h : StreamInv stream returned s) :
    KeepsAccounts stream returned (drainReadinessCompletions streamHost token) s := by
  unfold KeepsAccounts drainReadinessCompletions
  rw [Prog.wp_bind, Prog.wp_get, Prog.wp_ite]
  split
  · exact drainLoop_keeps _ h
  · rw [Prog.wp_pure]
    exact h

/-! ### Receiving -/

/-- A receive that reads the host socket while nothing is prefetched and nothing given out is in flight. -/
theorem wp_receive (h : Accounts stream returned [] [] s) (hready : s.handle.recvReady = []) {len : Nat} :
    (hostCall (StreamHost.receive len)).wp
      (fun bytes s' => StreamInv stream (returned ++ bytes) s' ∧ (len ≠ 0 → bytes = [] → returned = stream))
      (fun _ s' => StreamInv stream returned s' ∧ returned = s'.host.given) s := by
  have hgiven : returned = s.host.given := by simpa [hready] using h.given
  rw [wp_hostCall]
  cases hchoice : s.host.choice.error with
  | some error =>
      exact Prog.wp_of_error (t := s.host.tick) (by rw [StreamHost.receive, hchoice])
        ⟨⟨[], h.tick⟩, hgiven⟩
  | none =>
      refine Prog.wp_of_run (t := s.host.tick.give (s.host.portion len))
        (by rw [StreamHost.receive, hchoice]) ⟨⟨[], ?_⟩, fun hlen hnil => ?_⟩
      · have hprefix := s.host.portion_prefix len
        have htick := h.tick
        refine ⟨(s.host.give_whole hprefix).trans h.whole, ?_, ?_, h.busy, fun heof => ?_, htick.tokens, h.accept⟩
        · show returned ++ s.host.portion len ++ s.handle.recvReady ++ [] =
            s.host.given ++ s.host.portion len
          rw [hready, List.append_nil, List.append_nil, hgiven]
        · refine ⟨fun _ => rfl, htick.inFlight.receive, htick.inFlight.exists_packet, fun p hp q hq htoken => ?_⟩
          have hbrings := htick.inFlight.packet p hp q hq htoken
          refine ⟨hbrings.bytes, hbrings.fits, hbrings.failed, fun herror hclaim => ?_⟩
          show s.host.input.drop _ = []
          rw [show s.host.input = [] from hbrings.ended herror hclaim, List.drop_nil]
        · obtain ⟨hr, hinput⟩ := h.ended heof
          exact ⟨hr, by show s.host.input.drop _ = []; rw [hinput, List.drop_nil]⟩
      · have hinput := StreamWorld.input_eq_nil_of_portion hlen hnil
        rw [← h.whole, hinput, List.append_nil, hgiven]

/-- What a receive may answer with: the next bytes of the stream, or its end once all of it has been
returned. -/
def Answers (stream returned : List UInt8) (wanted : Nat) (bytes : List UInt8) (after : StreamState) : Prop :=
  StreamInv stream (returned ++ bytes) after ∧ (wanted ≠ 0 → bytes = [] → returned = stream)

/-- A receive fails only once nothing is prefetched, and unless it asks to be called again everything given
out has been returned by then. -/
def Fails (stream returned : List UInt8) (before : StreamState) (error : HostIoError)
    (after : StreamState) : Prop :=
  StreamInv stream returned after ∧ before.handle.recvReady = [] ∧
    (error.errno ≠ .wouldBlock → returned = after.host.given)

theorem handleRecv_tells (h : StreamInv stream returned s) (len : Nat) :
    (handleRecv streamHost len).wp (Answers stream returned len) (Fails stream returned s) s := by
  obtain ⟨claim, h⟩ := h
  unfold handleRecv
  rw [Prog.wp_bind, Prog.wp_get, Prog.wp_ite]
  split
  · rename_i hlen
    rw [Prog.wp_pure]
    exact ⟨⟨claim, by rw [List.append_nil]; exact h⟩, fun hne => absurd hlen hne⟩
  rename_i hlen
  rw [Prog.wp_ite]
  split
  · rename_i hready
    have hne : s.handle.recvReady ≠ [] := by simpa using hready
    have hidle : s.handle.pendingRecv = none := by
      by_contra hsome
      exact hne (h.busy (Option.isSome_iff_ne_none.mpr hsome)).1
    rw [Prog.wp_bind, wp_setHandle, Prog.wp_pure]
    refine ⟨⟨claim, h.whole, ?_, h.inFlight, fun hsome => ?_, fun heof => ?_, h.tokens, h.accept⟩,
      fun _ hnil => ?_⟩
    · show returned ++ s.handle.recvReady.take len ++ s.handle.recvReady.drop len ++ claim = s.host.given
      rw [List.append_assoc returned, List.take_append_drop]
      exact h.given
    · rw [show s.handle.pendingRecv = none from hidle] at hsome
      nomatch hsome
    · exact absurd (h.ended heof).1 hne
    · rcases List.take_eq_nil_iff.mp hnil with hzero | hnil
      · exact absurd hzero hlen
      · exact absurd hnil hne
  rename_i hready
  have hempty : s.handle.recvReady = [] := by simpa using hready
  rw [Prog.wp_ite]
  split
  · rename_i heof
    rw [Prog.wp_pure]
    refine ⟨⟨claim, by rw [List.append_nil]; exact h⟩, fun _ _ => ?_⟩
    have hidle : s.handle.pendingRecv = none := by
      by_contra hsome
      have := (h.busy (Option.isSome_iff_ne_none.mpr hsome)).2.1
      rw [heof] at this
      nomatch this
    have hgiven := h.given
    rw [h.inFlight.idle hidle, hempty, List.append_nil, List.append_nil] at hgiven
    rw [← h.whole, (h.ended heof).2, List.append_nil, hgiven]
  cases herror : s.handle.recvError with
  | some error =>
      have hidle : s.handle.pendingRecv = none := by
        by_contra hsome
        have := (h.busy (Option.isSome_iff_ne_none.mpr hsome)).2.2
        rw [herror] at this
        nomatch this
      have hclaim := h.inFlight.idle hidle
      have hgiven := h.given
      rw [hclaim, hempty, List.append_nil, List.append_nil] at hgiven
      simp only
      rw [Prog.wp_bind, wp_setHandle, Prog.wp_throw]
      refine ⟨⟨claim, h.whole, h.given, h.inFlight, fun hsome => ?_, h.ended, h.tokens, h.accept⟩, hempty,
        fun _ => hgiven⟩
      obtain ⟨hr, heof, _⟩ := h.busy hsome
      exact ⟨hr, heof, rfl⟩
  | none =>
      simp only
      rw [Prog.wp_ite]
      split
      · rw [Prog.wp_throw]
        exact ⟨⟨claim, h⟩, hempty, fun hblock => absurd rfl hblock⟩
      · rename_i hidle
        have hclaim := h.inFlight.idle (by simpa using hidle)
        subst hclaim
        refine Prog.wp_mono (wp_receive h hempty) (fun _ _ h' => h') (fun _ _ h' => ?_)
        exact ⟨h'.1, hempty, fun _ => h'.2⟩

/-- No byte has been taken from the stream that the guest has not been given: nothing is prefetched, and
the packet of a receive in flight brings nothing. -/
def NothingHeld (s : StreamState) : Prop :=
  s.handle.recvReady = [] ∧ ∀ p, s.handle.pendingRecv = some p →
    ∀ q ∈ s.host.outstanding, q.overlapped = p.overlappedToken → q.bytes = []

theorem handleRecvVectored_tells (h : StreamInv stream returned s) (hheld : NothingHeld s)
    (lens : List Nat) :
    (handleRecvVectored streamHost lens).wp (Answers stream returned lens.sum) (Fails stream returned s) s := by
  obtain ⟨claim, h⟩ := h
  obtain ⟨hready, hpacket⟩ := hheld
  have hclaim : claim = [] := by
    cases hp : s.handle.pendingRecv with
    | none => exact h.inFlight.idle hp
    | some p =>
        obtain ⟨q, hq, htoken⟩ := h.inFlight.exists_packet p hp
        rw [← (h.inFlight.packet p hp q hq htoken).bytes]
        exact hpacket p hp q hq htoken
  subst hclaim
  unfold handleRecvVectored
  rw [Prog.wp_bind, Prog.wp_get]
  refine Prog.wp_mono (wp_receive h hready) (fun _ _ h' => h') (fun _ _ h' => ?_)
  exact ⟨h'.1, hready, fun _ => h'.2⟩

/-! ### Runs -/

/-- The calls on a handle. `poll_many` drains the handle and, unless the completions it remembers answer
the request, polls it in the batch or by itself. -/
inductive HandleCall
  | poll (interest : SocketEvents) (timeout : Option Nat)
  | pollMany (interest : SocketEvents) (timeout : Option Nat) (remembered : Bool)
  | drain (token : SocketReadinessToken)
  | recv (len : Nat)
  | recvVectored (lens : List Nat)

def pollManyHandle (host : HostNet Unit StreamWorld) (interest : SocketEvents) (timeout : Option Nat)
    (remembered : Bool) : HandleProg Unit StreamWorld Unit := do
  let _ ← drainReadinessCompletions host (.new 1 1)
  let s ← .get
  if remembered then pure ()
  else
    match s.handle.prepareBatchPoll interest with
    | some request => do
      let _ ← hostCall (host.pollSockets [request] timeout)
      pure ()
    | none => do
      let _ ← handlePoll host interest timeout
      pure ()

namespace HandleCall

/-- What the caller asks for: a call that asks for nothing is not told of an end of file. -/
def wanted : HandleCall → Nat
  | recv len => len
  | recvVectored lens => lens.sum
  | _ => 0

def isReceive : HandleCall → Bool
  | recv _ | recvVectored _ => true
  | _ => false

/-- The bytes a call returns to the guest. -/
def exec : HandleCall → HandleProg Unit StreamWorld (List UInt8)
  | poll interest timeout => do
    let _ ← handlePoll streamHost interest timeout
    pure []
  | pollMany interest timeout remembered => do
    pollManyHandle streamHost interest timeout remembered
    pure []
  | drain token => do
    let _ ← drainReadinessCompletions streamHost token
    pure []
  | recv len => handleRecv streamHost len
  | recvVectored lens => handleRecvVectored streamHost lens

end HandleCall

/-- The bytes returned so far, and the handle. -/
structure StreamRun where
  returned : List UInt8
  state : StreamState

namespace StreamRun

def step (r : StreamRun) (call : HandleCall) : StreamRun :=
  match call.exec r.state with
  | (.ok bytes, s) => ⟨r.returned ++ bytes, s⟩
  | (.error _, s) => ⟨r.returned, s⟩

def run (r : StreamRun) (calls : List HandleCall) : StreamRun := calls.foldl step r

/-- A handle as `open_socket` or `accept` makes it, in front of a stream nobody has read from. -/
def start (spec : SocketSpec) (completionPort : Bool) (stream : List UInt8) (choices : Nat → HostChoice) :
    StreamRun where
  returned := []
  state :=
    { handle := .fresh () spec completionPort
      host := ⟨[], stream, [], [], 0, 0, choices⟩ }

/-- A vectored receive, which goes to the host socket whatever the handle holds, is called only while the
handle holds nothing. -/
def Spared (r : StreamRun) : HandleCall → Prop
  | .recvVectored _ => NothingHeld r.state
  | _ => True

def AllSpared : StreamRun → List HandleCall → Prop
  | _, [] => True
  | r, call :: rest => r.Spared call ∧ AllSpared (r.step call) rest

end StreamRun

theorem keepsAccounts_then {α : Type} {m : HandleProg Unit StreamWorld α}
    (h : KeepsAccounts stream returned m s) {wanted : Nat} (hwanted : wanted = 0) :
    (m >>= fun _ => pure []).wp (Answers stream returned wanted)
      (fun _ => StreamInv stream returned) s := by
  rw [Prog.wp_bind]
  refine Prog.wp_mono h (fun _ t ht => ?_) (fun _ _ h => h)
  rw [Prog.wp_pure]
  exact ⟨by rw [List.append_nil]; exact ht, fun hne => absurd hwanted hne⟩

theorem pollManyHandle_keeps (h : StreamInv stream returned s) {interest : SocketEvents}
    {timeout : Option Nat} {remembered : Bool} :
    KeepsAccounts stream returned (pollManyHandle streamHost interest timeout remembered) s := by
  unfold KeepsAccounts pollManyHandle
  rw [Prog.wp_bind]
  refine Prog.wp_mono (drainReadinessCompletions_keeps h) (fun _ t ht => ?_) (fun _ _ h => h)
  rw [Prog.wp_bind, Prog.wp_get, Prog.wp_ite]
  split
  · rw [Prog.wp_pure]
    exact ht
  · cases t.handle.prepareBatchPoll interest with
    | some request =>
        simp only
        rw [Prog.wp_bind]
        refine Prog.wp_mono (pollSockets_keeps ht) (fun _ t' ht' => ?_) (fun _ _ h => h)
        rw [Prog.wp_pure]
        exact ht'
    | none =>
        simp only
        rw [Prog.wp_bind]
        refine Prog.wp_mono (handlePoll_keeps ht) (fun _ t' ht' => ?_) (fun _ _ h => h)
        rw [Prog.wp_pure]
        exact ht'

def HandleCall.Truthful (stream : List UInt8) (r : StreamRun) (call : HandleCall) : Prop :=
  match call.exec r.state with
  | (.ok bytes, _) => call.wanted ≠ 0 → bytes = [] → r.returned = stream
  | (.error error, after) => call.isReceive → r.state.handle.recvReady = [] ∧
      (error.errno ≠ .wouldBlock → r.returned = after.host.given)

theorem HandleCall.exec_tells {r : StreamRun} (h : StreamInv stream r.returned r.state) (call : HandleCall)
    (hspared : r.Spared call) :
    call.exec.wp (Answers stream r.returned call.wanted)
      (fun error after => StreamInv stream r.returned after ∧
        (call.isReceive → Fails stream r.returned r.state error after)) r.state := by
  cases call with
  | poll interest timeout =>
      exact Prog.wp_mono (keepsAccounts_then (handlePoll_keeps h) rfl) (fun _ _ h => h)
        fun _ _ h => ⟨h, fun hr => (nomatch hr)⟩
  | pollMany interest timeout remembered =>
      exact Prog.wp_mono (keepsAccounts_then (pollManyHandle_keeps h) rfl) (fun _ _ h => h)
        fun _ _ h => ⟨h, fun hr => (nomatch hr)⟩
  | drain token =>
      exact Prog.wp_mono (keepsAccounts_then (drainReadinessCompletions_keeps h) rfl) (fun _ _ h => h)
        fun _ _ h => ⟨h, fun hr => (nomatch hr)⟩
  | recv len => exact Prog.wp_mono (handleRecv_tells h len) (fun _ _ h => h) fun _ _ h => ⟨h.1, fun _ => h⟩
  | recvVectored lens =>
      exact Prog.wp_mono (handleRecvVectored_tells h hspared lens) (fun _ _ h => h)
        fun _ _ h => ⟨h.1, fun _ => h⟩

theorem StreamRun.step_truthful {r : StreamRun} {call : HandleCall}
    (h : StreamInv stream r.returned r.state) (hspared : r.Spared call) :
    StreamInv stream (r.step call).returned (r.step call).state ∧ call.Truthful stream r := by
  obtain ⟨hok, herror⟩ := Prog.wp_iff.mp (call.exec_tells h hspared)
  unfold StreamRun.step HandleCall.Truthful
  rcases hrun : call.exec r.state with ⟨result, after⟩
  cases result with
  | ok bytes =>
      obtain ⟨hinv, hended⟩ := hok bytes after hrun
      exact ⟨hinv, hended⟩
  | error error =>
      obtain ⟨hinv, hfails⟩ := herror error after hrun
      exact ⟨hinv, fun hreceive => (hfails hreceive).2⟩

theorem StreamRun.run_truthful {calls : List HandleCall} :
    ∀ {r : StreamRun}, StreamInv stream r.returned r.state → r.AllSpared calls →
      StreamInv stream (r.run calls).returned (r.run calls).state ∧
        ∀ earlier call later, calls = earlier ++ call :: later → call.Truthful stream (r.run earlier) := by
  induction calls with
  | nil =>
      intro r h _
      refine ⟨h, fun earlier call later hsplit => ?_⟩
      exact absurd hsplit.symm (by simp)
  | cons first rest ih =>
      rintro r h ⟨hspared, hrest⟩
      obtain ⟨hstep, htruthful⟩ := step_truthful h hspared
      obtain ⟨hfinal, hcalls⟩ := ih hstep hrest
      refine ⟨hfinal, fun earlier call later hsplit => ?_⟩
      cases earlier with
      | nil =>
          obtain ⟨rfl, rfl⟩ := List.cons.inj hsplit
          exact htruthful
      | cons _ earlier =>
          obtain ⟨rfl, htail⟩ := List.cons.inj hsplit
          exact hcalls earlier call later htail

theorem StreamRun.start_inv (spec : SocketSpec) (completionPort : Bool) (stream : List UInt8)
    (choices : Nat → HostChoice) :
    StreamInv stream (start spec completionPort stream choices).returned
      (start spec completionPort stream choices).state :=
  ⟨[], rfl, rfl, .none, fun h => (nomatch h), fun h => (nomatch h), fun _ hq => (nomatch hq), rfl⟩

theorem StreamInv.isPrefix (h : StreamInv stream returned s) :
    returned ++ s.handle.recvReady <+: stream := by
  obtain ⟨claim, h⟩ := h
  rw [← h.whole, ← h.given]
  exact ⟨claim ++ s.host.input, by simp⟩

/-- Calls on a handle return the stream in order, prefetched bytes first, as long as no vectored receive is
made while the handle holds bytes the guest has not been given. -/
theorem returned_isPrefix_stream (spec : SocketSpec) (completionPort : Bool) (stream : List UInt8)
    (choices : Nat → HostChoice) (calls : List HandleCall)
    (h : (StreamRun.start spec completionPort stream choices).AllSpared calls) :
    let r := StreamRun.start spec completionPort stream choices
    (r.run calls).returned <+: stream ∧
      (r.run calls).returned ++ (r.run calls).state.handle.recvReady <+: stream ∧
      ∀ earlier call later, calls = earlier ++ call :: later → call.Truthful stream (r.run earlier) := by
  intro r
  obtain ⟨hinv, hcalls⟩ := StreamRun.run_truthful (StreamRun.start_inv spec completionPort stream choices) h
  exact ⟨(List.prefix_append _ _).trans hinv.isPrefix, hinv.isPrefix, hcalls⟩

def tcpSpec : SocketSpec := ⟨.inet, .stream, .tcp, ⟨false, false⟩⟩

/-- The host answers every call with success, and a receive is given at most two bytes. -/
def twoBytesAtATime (_ : Nat) : HostChoice := ⟨none, 1, false, 0, .none⟩

theorem returned_isPrefix_stream_polled :
    ((StreamRun.start tcpSpec true [97, 98, 99] twoBytesAtATime).run
      [.poll .read none, .recv 4, .recvVectored [1, 2]]).returned <+: [97, 98, 99] :=
  (returned_isPrefix_stream tcpSpec true [97, 98, 99] twoBytesAtATime
    [.poll .read none, .recv 4, .recvVectored [1, 2]]
    ⟨trivial, trivial, ⟨by decide +kernel, fun _ hp => (nomatch hp)⟩, trivial⟩).1

/-- A poll prefetches `ab`, and the vectored receive after it returns the `c` behind them. -/
theorem vectored_receive_skips_prefetched :
    ¬ ∀ (spec : SocketSpec) (completionPort : Bool) (stream : List UInt8) (choices : Nat → HostChoice)
      (calls : List HandleCall),
      ((StreamRun.start spec completionPort stream choices).run calls).returned <+: stream := by
  intro h
  have hrun : ((StreamRun.start tcpSpec true [97, 98, 99] twoBytesAtATime).run
      [.poll .read none, .recvVectored [1]]).returned = [99] := by decide +kernel
  have := h tcpSpec true [97, 98, 99] twoBytesAtATime [.poll .read none, .recvVectored [1]]
  rw [hrun] at this
  exact absurd this (by decide)

end Mcr.Net
