import Mcr.Net.Table

/-!
# Rules for the socket table

One weakest-precondition rule for each way a table call touches its tables, so that the proofs about the
calls go from lookup to lookup and never open a program of the table by hand.
-/

namespace Mcr.Net

open Vfs (u64Limit)

variable {σ ω : Type} {α : Type} {s : NetState σ ω} {id : SocketId}

theorem eq_of_map_eq_some {α β : Type} {o : Option α} {f : α → β} {b : β} (h : o.map f = some b) {a : α}
    (ha : o = some a) : f a = b := by
  rw [ha] at h
  exact Option.some.inj h

@[simp] theorem wp_setTable {f : GuestSocketTable σ → GuestSocketTable σ}
    {Q : Unit → NetState σ ω → Prop} {E : SocketError → NetState σ ω → Prop} :
    Prog.wp (setTable f) Q E s ↔ Q () { s with table := f s.table } :=
  Prog.wp_modify _

theorem wp_getSocket {Q : GuestSocket → NetState σ ω → Prop} {E : SocketError → NetState σ ω → Prop}
    (hok : ∀ socket, s.table.sockets.get? id = some socket → Q socket s)
    (herror : s.table.sockets.get? id = none → E (.badSocket id) s) :
    Prog.wp (getSocket id) Q E s := by
  unfold getSocket
  rw [Prog.wp_bind, Prog.wp_get]
  cases hsocket : s.table.sockets.get? id with
  | none =>
      simp only
      rw [Prog.wp_throw]
      exact herror hsocket
  | some socket =>
      simp only
      rw [Prog.wp_pure]
      exact hok socket hsocket

def GuestSocketTable.putSocket (table : GuestSocketTable σ) (id : SocketId) (socket : GuestSocket) :
    GuestSocketTable σ :=
  { table with sockets := table.sockets.insert id socket }

theorem wp_updateSocket {f : GuestSocket → GuestSocket} {Q : Unit → NetState σ ω → Prop}
    {E : SocketError → NetState σ ω → Prop}
    (hok : ∀ socket, s.table.sockets.get? id = some socket →
      Q () { s with table := s.table.putSocket id (f socket) })
    (herror : s.table.sockets.get? id = none → E (.badSocket id) s) :
    Prog.wp (updateSocket id f) Q E s := by
  unfold updateSocket
  rw [Prog.wp_bind]
  refine wp_getSocket (fun socket hsocket => ?_) herror
  rw [wp_setTable]
  exact hok socket hsocket

theorem wp_onHandle {operation : SocketOperation} {method : HandleProg σ ω α}
    {Q : Except HostIoError α → NetState σ ω → Prop} {E : SocketError → NetState σ ω → Prop}
    (hnone : s.table.hostHandles.get? id = none → E (noHostHandle operation) s)
    (hsome : ∀ entry, s.table.hostHandles.get? id = some entry →
      method.wp (fun a t => Q (.ok a) (s.putHandle id entry t))
        (fun e t => Q (.error e) (s.putHandle id entry t)) ⟨entry.handle, s.host⟩) :
    Prog.wp (onHandle id operation method) Q E s := by
  cases hentry : s.table.hostHandles.get? id with
  | none => exact Prog.wp_of_error (by rw [onHandle, hentry]) (hnone hentry)
  | some entry =>
      have hmethod := Prog.wp_iff.mp (hsome entry hentry)
      rcases hrun : method ⟨entry.handle, s.host⟩ with ⟨r, t⟩
      refine Prog.wp_of_run (a := r) (t := s.putHandle id entry t) (by simp only [onHandle, hentry, hrun]) ?_
      cases r with
      | ok a => exact hmethod.1 a t hrun
      | error e => exact hmethod.2 e t hrun

theorem wp_withHandle {operation : SocketOperation} {method : HandleProg σ ω α}
    {Q : α → NetState σ ω → Prop} {E : SocketError → NetState σ ω → Prop}
    (hnone : s.table.hostHandles.get? id = none → E (noHostHandle operation) s)
    (hsome : ∀ entry, s.table.hostHandles.get? id = some entry →
      method.wp (fun a t => Q a (s.putHandle id entry t))
        (fun e t => E (.fromHost e) (s.putHandle id entry t)) ⟨entry.handle, s.host⟩) :
    Prog.wp (withHandle id operation method) Q E s := by
  unfold withHandle
  rw [Prog.wp_bind]
  refine wp_onHandle hnone fun entry hentry => ?_
  refine Prog.wp_mono (hsome entry hentry) (fun a t h => ?_) (fun e t h => ?_)
  · simp only
    rw [Prog.wp_pure]
    exact h
  · simp only
    rw [Prog.wp_throw]
    exact h

theorem wp_tableHostCall {call : Prog ω HostError α} {Q : α → NetState σ ω → Prop}
    {E : SocketError → NetState σ ω → Prop}
    (h : call.wp (fun a w => Q a { s with host := w })
      (fun e w => E (.fromHost (.ofHost e)) { s with host := w }) s.host) :
    Prog.wp (tableHostCall call) Q E s := by
  have hcall := Prog.wp_iff.mp h
  rcases hrun : call s.host with ⟨r, w⟩
  cases r with
  | ok a =>
      exact Prog.wp_of_run (by simp only [tableHostCall, hrun]) (hcall.1 a w hrun)
  | error e =>
      exact Prog.wp_of_error (by simp only [tableHostCall, hrun]) (hcall.2 e w hrun)

theorem wp_anyCall {τ ε : Type} {call : Prog τ ε α} {Q : α → τ → Prop} {E : ε → τ → Prop} {w : τ}
    (hok : ∀ a w', Q a w') (herror : ∀ e w', E e w') : call.wp Q E w :=
  Prog.wp_iff.mpr ⟨fun a w' _ => hok a w', fun e w' _ => herror e w'⟩

theorem wp_requireOpen {Q : Unit → NetState σ ω → Prop} {E : SocketError → NetState σ ω → Prop}
    (hok : ∀ socket, s.table.sockets.get? id = some socket → socket.state ≠ .closed → Q () s)
    (herror : E (.badSocket id) s) : Prog.wp (requireOpen id) Q E s := by
  unfold requireOpen
  rw [Prog.wp_bind]
  refine wp_getSocket (fun socket hsocket => ?_) fun _ => herror
  rw [Prog.wp_ite]
  split
  · rw [Prog.wp_throw]
    exact herror
  · rename_i hopen
    rw [Prog.wp_pure]
    exact hok socket hsocket hopen

theorem wp_socketUsesHostTransport {Q : Bool → NetState σ ω → Prop}
    {E : SocketError → NetState σ ω → Prop}
    (hok : ∀ socket, s.table.sockets.get? id = some socket →
      Q (decide (socket.domain ≠ .unix) && (s.table.transport || (s.table.hostHandles.get? id).isSome)) s)
    (herror : s.table.sockets.get? id = none → E (.badSocket id) s) :
    Prog.wp (socketUsesHostTransport id) Q E s := by
  unfold socketUsesHostTransport
  rw [Prog.wp_bind]
  refine wp_getSocket (fun socket hsocket => ?_) herror
  rw [Prog.wp_bind, Prog.wp_get, Prog.wp_pure]
  exact hok socket hsocket

theorem wp_socketSpec {Q : SocketSpec → NetState σ ω → Prop} {E : SocketError → NetState σ ω → Prop}
    (hok : ∀ socket, s.table.sockets.get? id = some socket →
      Q ⟨socket.domain, socket.socketType, socket.protocol, socket.flags⟩ s)
    (herror : ∀ e, E e s) : Prog.wp (socketSpec id) Q E s := by
  unfold socketSpec
  rw [Prog.wp_bind]
  refine wp_getSocket (fun socket hsocket => ?_) fun _ => herror _
  rw [Prog.wp_bind]
  refine Prog.wp_check (fun e _ => herror e) fun _ _ => ?_
  rw [Prog.wp_pure]
  exact hok socket hsocket

/-- The table with an identity handed out. -/
def GuestSocketTable.bumpId (table : GuestSocketTable σ) : GuestSocketTable σ :=
  { table with nextId := if table.nextId + 1 < u64Limit then table.nextId + 1 else 0 }

theorem wp_allocateId {Q : SocketId → NetState σ ω → Prop} {E : SocketError → NetState σ ω → Prop}
    (hok : s.table.nextId ≠ 0 → Q s.table.nextId { s with table := s.table.bumpId })
    (herror : ∀ e, E e s) : Prog.wp allocateId Q E s := by
  unfold allocateId
  rw [Prog.wp_bind, Prog.wp_get, Prog.wp_ite]
  split
  · rw [Prog.wp_throw]
    exact herror _
  · rw [Prog.wp_bind, wp_setTable, Prog.wp_pure]
    exact hok ‹_›

/-- The table with a token handed out. -/
def GuestSocketTable.bumpGeneration (table : GuestSocketTable σ) : GuestSocketTable σ :=
  { table with nextReadinessGeneration := table.nextReadinessGeneration + 1 }

theorem wp_allocateReadinessToken {Q : SocketReadinessToken → NetState σ ω → Prop}
    {E : SocketError → NetState σ ω → Prop}
    (hok : Q (.new id s.table.nextReadinessGeneration) { s with table := s.table.bumpGeneration })
    (herror : ∀ e, E e s) : Prog.wp (allocateReadinessToken id) Q E s := by
  unfold allocateReadinessToken
  rw [Prog.wp_bind, Prog.wp_get, Prog.wp_ite]
  split
  · rw [Prog.wp_throw]
    exact herror _
  · rw [Prog.wp_bind, wp_setTable, Prog.wp_pure]
    exact hok

theorem wp_ensureHostEntry {host : HostNet σ ω} {operation : SocketOperation}
    {Q : Unit → NetState σ ω → Prop} {E : SocketError → NetState σ ω → Prop}
    (hsome : ∀ entry, s.table.hostHandles.get? id = some entry → Q () s)
    (hopened : ∀ socket raw port w, s.table.hostHandles.get? id = none →
      s.table.sockets.get? id = some socket → socket.domain ≠ .unix →
      Q () ⟨{ s.table.bumpGeneration with
        hostHandles := s.table.hostHandles.insert id
          ⟨.fresh raw ⟨socket.domain, socket.socketType, socket.protocol, socket.flags⟩ port,
            .new id s.table.nextReadinessGeneration⟩ }, w⟩)
    (herror : ∀ e w, E e { s with host := w }) :
    Prog.wp (ensureHostEntry host id operation) Q E s := by
  unfold ensureHostEntry
  rw [Prog.wp_bind, Prog.wp_get]
  cases hentry : s.table.hostHandles.get? id with
  | some entry =>
      simp only
      rw [Prog.wp_pure]
      exact hsome entry hentry
  | none =>
      simp only
      rw [Prog.wp_bind]
      refine wp_socketSpec (fun socket hsocket => ?_) (fun e => herror e s.host)
      rw [Prog.wp_ite]
      split
      · rw [Prog.wp_throw]
        exact herror _ s.host
      rename_i hdomain
      rw [Prog.wp_bind]
      refine wp_getSocket (fun socket' hsocket' => ?_) (fun _ => herror _ s.host)
      rw [Prog.wp_ite]
      split
      · rw [Prog.wp_throw]
        exact herror _ s.host
      rw [Prog.wp_bind]
      refine wp_tableHostCall ?_
      have hopen : ∀ spec options, Prog.wp (openHostSocket host spec options)
          (fun handle w => ∃ raw port, handle = .fresh raw spec port) (fun _ _ => True) s.host := by
        intro spec options
        unfold openHostSocket
        rw [Prog.wp_bind]
        refine wp_anyCall (fun port w => ?_) fun _ _ => trivial
        rw [Prog.wp_bind]
        refine wp_anyCall (fun raw w => ?_) fun _ _ => trivial
        rw [Prog.wp_bind]
        refine wp_anyCall (fun _ w => ?_) fun _ _ => trivial
        rw [Prog.wp_bind]
        refine wp_anyCall (fun _ w => ?_) fun _ _ => trivial
        rw [Prog.wp_pure]
        exact ⟨raw, port, rfl⟩
      refine Prog.wp_mono (hopen _ _) (fun handle w hfresh => ?_) (fun e w _ => herror _ w)
      obtain ⟨raw, port, rfl⟩ := hfresh
      rw [Prog.wp_bind]
      refine wp_allocateReadinessToken ?_ (fun e => herror e w)
      rw [wp_setTable]
      exact hopened socket raw port w hentry hsocket hdomain

end Mcr.Net
