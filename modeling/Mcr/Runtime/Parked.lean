import Mcr.Net.ReadyRuns
import Mcr.Runtime.Waiters
import Mcr.Task.Runs
import Mcr.Vfs.Enumeration

/-!
# When the waker and the calls agree

A parked task is woken when the waker finds its descriptor ready, and its call answers when it is executed
again. Both are compared for every socket table and every network: they agree where the virtual file system
sees an event, and where the call depends on no socket and has to wait.
-/

namespace Mcr.Task.GuestKernel

variable {k : GuestKernel} {ready : GuestPid → Int → Bool → Bool} {tid : GuestTid} {task : GuestTask}

theorem task_resumeFdEach_other : ∀ (tids : List GuestTid) (k : GuestKernel), tid ∉ tids →
    (resumeFdEach ready tids k).2.task tid = k.task tid := by
  intro tids
  induction tids with
  | nil =>
      intro k _
      rfl
  | cons j rest ih =>
      intro k hmem
      have hj : tid ≠ j := List.ne_of_not_mem_cons hmem
      have hrest : tid ∉ rest := List.not_mem_of_not_mem_cons hmem
      unfold resumeFdEach
      split
      · exact ih k hrest
      · split
        · split
          · exact (ih _ hrest).trans (by rw [task_setTaskState, if_neg hj])
          · exact ih k hrest
        · exact ih k hrest

/-- A waiting task among those looked at becomes runnable when its descriptor is ready, and stays as it is
otherwise. -/
theorem task_resumeFdEach {fd : Int} {write : Bool} (hstate : task.state = .waitingForFd fd write) :
    ∀ (tids : List GuestTid) (k : GuestKernel), tids.Nodup → tid ∈ tids → k.task tid = some task →
      (resumeFdEach ready tids k).2.task tid =
        some (if ready task.pid fd write then { task with state := .runnable } else task) := by
  intro tids
  induction tids with
  | nil =>
      intro k _ hmem
      cases hmem
  | cons j rest ih =>
      intro k hnodup hmem htask
      obtain ⟨hj, hrest⟩ := List.nodup_cons.mp hnodup
      by_cases heq : tid = j
      · subst heq
        unfold resumeFdEach
        simp only [htask, hstate]
        by_cases hready : ready task.pid fd write = true
        · rw [if_pos hready, if_pos hready, task_resumeFdEach_other rest _ hj, task_setTaskState, if_pos rfl, htask]
          rfl
        · rw [if_neg hready, if_neg hready, task_resumeFdEach_other rest _ hj, htask]
      · have htail : tid ∈ rest := (List.mem_cons.mp hmem).resolve_left heq
        have hkept : ∀ state, (k.setTaskState j state).task tid = some task := by
          intro state
          rw [task_setTaskState, if_neg heq, htask]
        unfold resumeFdEach
        split
        · exact ih k hrest htail htask
        · split
          · split
            · exact ih _ hrest htail (hkept _)
            · exact ih k hrest htail htask
          · exact ih k hrest htail htask

theorem Consistent.resumeFdWaiters {fd : Int} {write : Bool} (h : k.Consistent) (htask : k.task tid = some task)
    (hstate : task.state = .waitingForFd fd write) :
    (k.resumeFdWaiters ready).2.task tid =
      some (if ready task.pid fd write then { task with state := .runnable } else task) := by
  have hmem : tid ∈ k.fdWaitTids := (h.indexes.fdWait tid).mpr ⟨task, htask, by rw [hstate]; rfl⟩
  exact task_resumeFdEach hstate _ k k.fdWaitTids.toList_nodup (SortedSet.mem_toList.mpr hmem) htask

end Mcr.Task.GuestKernel

namespace Mcr.Runtime

open Prog
open Vfs (Fd FdTable Files FdEntry VirtualFileSystem)
open Vfs.Files (FdReadiness)
open Net (LinuxErrno NetState SocketId ListenerWorld listenerHost)
open Mcr.Task (GuestKernel GuestPid GuestTid GuestTask)

/-! ### Transfers on a socket the table has forgotten -/

section Forgotten

variable {σ ω μ : Type} [RuntimeMemoryAccess μ] {outside : Outside σ ω} {fd : Fd} {entry : FdEntry} {id : SocketId}
  {t : RuntimeFileSystem σ ω μ}

omit [RuntimeMemoryAccess μ] in
theorem ne_of_refuses {α : Type} {m : FsProg σ ω μ α} {Q : α → RuntimeFileSystem σ ω μ → Prop}
    (h : wp m Q (fun error _ => error ≠ .wouldBlock) t) : (m t).1 ≠ .error .wouldBlock := by
  intro hrun
  exact wp_error h (run_eq hrun) rfl

theorem borrowedBytesMut_refuses (addr len : Nat) (t : RuntimeFileSystem σ ω μ) :
    wp (borrowedBytesMut addr len) (fun _ _ => True) (fun error _ => error ≠ .wouldBlock) t := by
  unfold borrowedBytesMut
  rw [wp_mapError, wp_zoom]
  exact wp_iff.mpr ⟨fun _ _ _ => trivial, fun _ _ _ => by decide⟩

theorem writeBytes_refuses (addr : Nat) (bytes : List UInt8) (t : RuntimeFileSystem σ ω μ) :
    wp (writeBytes addr bytes) (fun _ _ => True) (fun error _ => error ≠ .wouldBlock) t := by
  unfold writeBytes
  rw [wp_mapError, wp_zoom]
  exact wp_iff.mpr ⟨fun _ _ _ => trivial, fun _ _ _ => by decide⟩

theorem tryBorrowedBytesMut_keeps (addr len : Nat) (t : RuntimeFileSystem σ ω μ) :
    wp (tryBorrowedBytesMut addr len) (fun _ t' => t'.net = t.net) (fun error _ => error ≠ .wouldBlock) t := by
  unfold tryBorrowedBytesMut borrowedBytesMut
  rw [wp_tryCatch, wp_mapError, wp_zoom]
  exact wp_iff.mpr ⟨fun _ _ _ => rfl, fun _ _ _ => (wp_pure _).mpr rfl⟩

theorem readInto_refuses {receive : Nat → FsProg σ ω μ (List UInt8)} (len : Nat)
    (hreceive : ∀ t', t'.net = t.net → wp (receive len) (fun _ _ => True) (fun error _ => error ≠ .wouldBlock) t')
    (addr : Nat) : wp (readInto receive addr len) (fun _ _ => True) (fun error _ => error ≠ .wouldBlock) t := by
  unfold readInto
  rw [wp_bind]
  refine wp_mono (tryBorrowedBytesMut_keeps addr len t) (fun slice t' hnet => ?_) fun _ _ he => he
  cases slice with
  | none =>
      rw [wp_bind]
      refine wp_mono (hreceive t' hnet) (fun bytes t'' _ => ?_) fun _ _ he => he
      rw [wp_bind]
      exact wp_mono (writeBytes_refuses addr bytes t'') (fun _ _ _ => (wp_pure _).mpr trivial) fun _ _ he => he
  | some put =>
      rw [wp_bind]
      refine wp_mono (hreceive t' hnet) (fun bytes t'' _ => ?_) fun _ _ he => he
      rw [wp_bind]
      exact (wp_modify _).mpr ((wp_pure _).mpr trivial)

theorem writeFrom_refuses {send : List UInt8 → FsProg σ ω μ Nat}
    (hsend : ∀ bytes, wp (send bytes) (fun _ _ => True) (fun error _ => error ≠ .wouldBlock) t) (addr len : Nat) :
    wp (writeFrom send addr len) (fun _ _ => True) (fun error _ => error ≠ .wouldBlock) t := by
  unfold writeFrom
  rw [wp_bind]
  refine wp_mono (borrowedBytes_refuses addr len t) (fun slice t' ht => ?_) fun _ _ he => he
  subst ht
  cases slice with
  | none =>
      rw [wp_bind]
      refine wp_mono (readBytes_refuses addr len t') (fun bytes t'' ht => ?_) fun _ _ he => he
      subst ht
      exact hsend bytes
  | some bytes => exact hsend bytes

omit [RuntimeMemoryAccess μ] in
theorem moveIovecs_refuses {move : LinuxIovec → FsProg σ ω μ Nat}
    (hmove : ∀ iovec t, wp (move iovec) (fun _ _ => True) (fun error _ => error ≠ .wouldBlock) t) :
    ∀ (iov : List LinuxIovec) (total : Nat) (t : RuntimeFileSystem σ ω μ),
      wp (moveIovecs move iov total) (fun _ _ => True) (fun error _ => error ≠ .wouldBlock) t := by
  intro iov
  induction iov with
  | nil =>
      intro total t
      exact (wp_pure _).mpr trivial
  | cons iovec rest ih =>
      intro total t
      unfold moveIovecs
      rw [wp_bind]
      refine wp_mono (hmove iovec t) (fun count t' _ => ?_) fun _ _ he => he
      by_cases hlimit : Vfs.u64Limit ≤ total + count
      · rw [if_pos hlimit]
        exact (wp_throw _).mpr (by decide)
      · rw [if_neg hlimit]
        by_cases hshort : count < iovec.iovLen
        · rw [if_pos hshort]
          exact (wp_pure _).mpr trivial
        · rw [if_neg hshort]
          exact ih _ t'

theorem iovecsAreBorrowableMut_refuses : ∀ (iov : List LinuxIovec) (t : RuntimeFileSystem σ ω μ),
    wp (iovecsAreBorrowableMut iov) (fun _ _ => True) (fun error _ => error ≠ .wouldBlock) t := by
  intro iov
  induction iov with
  | nil =>
      intro t
      exact (wp_pure _).mpr trivial
  | cons iovec rest ih =>
      intro t
      unfold iovecsAreBorrowableMut
      rw [wp_bind]
      refine wp_mono (tryBorrowedBytesMut_keeps _ _ t) (fun slice t' _ => ?_) fun _ _ he => he
      cases slice with
      | none => exact (wp_pure _).mpr trivial
      | some put => exact ih t'

theorem readvInto_refuses {receive : Nat → FsProg σ ω μ (List UInt8)}
    (hreceive : ∀ len t, wp (receive len) (fun _ _ => True) (fun error _ => error ≠ .wouldBlock) t)
    (whole : List Nat → FsProg σ ω μ (Option (List UInt8))) (iov : List LinuxIovec) (t : RuntimeFileSystem σ ω μ) :
    wp (readvInto receive false whole iov) (fun _ _ => True) (fun error _ => error ≠ .wouldBlock) t := by
  unfold readvInto
  rw [wp_bind]
  refine wp_mono (iovecsAreBorrowableMut_refuses iov t) (fun borrowable t' _ => ?_) fun _ _ he => he
  cases borrowable with
  | true =>
      refine moveIovecs_refuses (fun iovec t => ?_) iov 0 t'
      rw [wp_bind]
      refine wp_mono (borrowedBytesMut_refuses _ _ t) (fun slice t₁ _ => ?_) fun _ _ he => he
      cases slice with
      | none => exact (wp_throw _).mpr (by decide)
      | some put =>
          rw [wp_bind]
          refine wp_mono (hreceive _ t₁) (fun bytes t₂ _ => ?_) fun _ _ he => he
          rw [wp_bind]
          exact (wp_modify _).mpr ((wp_pure _).mpr trivial)
  | false =>
      refine moveIovecs_refuses (fun iovec t => ?_) iov 0 t'
      rw [wp_bind]
      refine wp_mono (hreceive _ t) (fun bytes t₁ _ => ?_) fun _ _ he => he
      rw [wp_bind]
      exact wp_mono (writeBytes_refuses _ bytes t₁) (fun _ _ _ => (wp_pure _).mpr trivial) fun _ _ he => he

theorem writevFrom_refuses {send : List UInt8 → FsProg σ ω μ Nat}
    (hsend : ∀ bytes t, wp (send bytes) (fun _ _ => True) (fun error _ => error ≠ .wouldBlock) t)
    (whole : List (List UInt8) → FsProg σ ω μ (Option Nat)) (iov : List LinuxIovec) (t : RuntimeFileSystem σ ω μ) :
    wp (writevFrom send false whole iov) (fun _ _ => True) (fun error _ => error ≠ .wouldBlock) t := by
  unfold writevFrom iovecsAreBorrowable
  rw [wp_bind, wp_bind, wp_get, wp_pure]
  split
  · refine moveIovecs_refuses (fun iovec t => ?_) iov 0 t
    rw [wp_bind]
    refine wp_mono (borrowedBytes_refuses _ _ t) (fun slice t' _ => ?_) fun _ _ he => he
    cases slice with
    | none => exact (wp_throw _).mpr (by decide)
    | some bytes => exact hsend bytes t'
  · refine moveIovecs_refuses (fun iovec t => ?_) iov 0 t
    rw [wp_bind]
    exact wp_mono (readBytes_refuses _ _ t) (fun bytes t' _ => hsend bytes t') fun _ _ he => he

theorem sysRead_unknown (h : t.net.table.sockets.get? id = none) (hentry : t.vfs.fds.entries.get? fd = some entry)
    (hsocket : socketOf entry.file = some id) (addr len : Nat) :
    (sysRead outside fd addr len t).1 ≠ .error .wouldBlock := by
  refine ne_of_refuses (Q := fun _ _ => True) ?_
  unfold sysRead
  rw [wp_bind]
  refine wp_of_run (socketIdForFdOrNone_run hentry) ?_
  rw [hsocket]
  refine readInto_refuses len (fun t' hnet => ?_) addr
  have hunknown : t'.net.table.sockets.get? id = none := by rw [hnet, h]
  exact wp_of_error ((onSocket_unknown outside hunknown).1 len) (by decide)

theorem sysWrite_unknown (h : t.net.table.sockets.get? id = none) (hentry : t.vfs.fds.entries.get? fd = some entry)
    (hsocket : socketOf entry.file = some id) (addr len : Nat) :
    (sysWrite outside fd addr len t).1 ≠ .error .wouldBlock := by
  refine ne_of_refuses (Q := fun _ _ => True) (writeFrom_refuses (fun bytes => ?_) addr len)
  rw [wp_bind]
  refine wp_of_run (socketIdForFdOrNone_run hentry) ?_
  rw [hsocket]
  exact wp_of_error ((onSocket_unknown outside h).2.2.1 bytes) (by decide)

theorem sysReadv_unknown (h : t.net.table.sockets.get? id = none) (hentry : t.vfs.fds.entries.get? fd = some entry)
    (hsocket : socketOf entry.file = some id) (addr count : Nat) :
    (sysReadv outside fd addr count t).1 ≠ .error .wouldBlock := by
  refine ne_of_refuses (Q := fun _ _ => True) ?_
  unfold sysReadv
  rw [wp_bind]
  refine wp_mono (readIovecs_refuses addr count t) (fun iov t' ht => ?_) fun _ _ he => he
  subst ht
  rw [wp_bind]
  refine wp_of_run (socketIdForFdOrNone_run hentry) ?_
  rw [hsocket]
  simp only
  rw [wp_bind]
  exact wp_of_error ((onSocket_unknown outside h).2.1 _) (by decide)

theorem sysWritev_unknown (h : t.net.table.sockets.get? id = none) (hentry : t.vfs.fds.entries.get? fd = some entry)
    (hsocket : socketOf entry.file = some id) (addr count : Nat) :
    (sysWritev outside fd addr count t).1 ≠ .error .wouldBlock := by
  have hsend := (onSocket_unknown outside h).2.2.2
  refine ne_of_refuses (Q := fun _ _ => True) ?_
  unfold sysWritev
  rw [wp_bind]
  refine wp_mono (readIovecs_refuses addr count t) (fun iov t' ht => ?_) fun _ _ he => he
  subst ht
  rw [wp_bind]
  refine wp_of_run (socketIdForFdOrNone_run hentry) ?_
  rw [hsocket]
  simp only
  rw [wp_bind]
  refine wp_mono (borrowedIovecSlices_refuses iov t') (fun slices t'' ht => ?_) fun _ _ he => he
  subst ht
  cases slices with
  | some slices => exact wp_of_error (hsend slices) (by decide)
  | none =>
      simp only
      rw [wp_bind]
      refine wp_mono (readIovecBuffers_refuses iov t'') (fun buffers t''' ht => ?_) fun _ _ he => he
      subst ht
      exact wp_of_error (hsend buffers) (by decide)

theorem exec_unknown {s : EventState σ ω μ} (h : NoSockets s) (hentry : s.files.vfs.fds.entries.get? fd = some entry)
    (hsocket : socketOf entry.file = some id) {call : WaitingCall} (hcall : call.transfers = true) :
    (call.exec outside fd s).1 ≠ .error .wouldBlock := by
  cases call with
  | read addr len => exact sysRead_unknown (h id) hentry hsocket addr len
  | readv addr count => exact sysReadv_unknown (h id) hentry hsocket addr count
  | write addr len => exact sysWrite_unknown (h id) hentry hsocket addr len
  | writev addr count => exact sysWritev_unknown (h id) hentry hsocket addr count
  | epollWait _ _ _ => cases hcall

theorem onStalled_refused {flags : Vfs.OpenFlags} {kind : Vfs.FileKind} (hkind : kind = .socket ∨ kind = .epoll)
    (counter : Vfs.EventfdState) (call : WaitingCall) (t : RuntimeFileSystem σ ω μ) :
    (call.onStalled flags kind counter t).1 ≠ .error .wouldBlock := by
  have hrefused : ebadf ≠ LinuxErrno.wouldBlock := by decide
  have hread : ∀ len (t : RuntimeFileSystem σ ω μ),
      wp (.mapError vfsErrno (.ofExcept (Vfs.stalledRead flags kind len))) (fun _ _ => True)
        (fun error _ => error ≠ .wouldBlock) t := by
    intro len t
    have hanswer : Vfs.stalledRead flags kind len = .error .badFd := by
      rcases hkind with rfl | rfl <;> simp [Vfs.stalledRead]
    rw [hanswer]
    exact wp_of_error rfl hrefused
  have hwrite : ∀ bytes (t : RuntimeFileSystem σ ω μ),
      wp (.mapError vfsErrno (.ofExcept (Vfs.stalledWrite flags kind counter bytes))) (fun _ _ => True)
        (fun error _ => error ≠ .wouldBlock) t := by
    intro bytes t
    have hanswer : Vfs.stalledWrite flags kind counter bytes = .error .badFd := by
      rcases hkind with rfl | rfl <;> simp [Vfs.stalledWrite]
    rw [hanswer]
    exact wp_of_error rfl hrefused
  have hmode : ∀ flag (t : RuntimeFileSystem σ ω μ),
      wp (.mapError vfsErrno (.ofExcept (Vfs.failIf (flag = false) .badFd))) (fun _ _ => True)
        (fun error _ => error ≠ .wouldBlock) t := by
    intro flag t
    cases flag with
    | false => exact wp_of_error rfl hrefused
    | true => exact wp_of_run rfl trivial
  refine ne_of_refuses (Q := fun _ _ => True) ?_
  cases call with
  | read addr len =>
      unfold WaitingCall.onStalled
      exact readInto_refuses len (fun t' _ => hread len t') addr
  | readv addr count =>
      unfold WaitingCall.onStalled
      rw [wp_bind]
      refine wp_mono (readIovecs_refuses addr count t) (fun iov t' _ => ?_) fun _ _ he => he
      rw [wp_bind]
      refine wp_mono (hmode flags.canRead t') (fun _ t'' _ => ?_) fun _ _ he => he
      exact readvInto_refuses hread _ iov t''
  | write addr len =>
      unfold WaitingCall.onStalled
      exact writeFrom_refuses (fun bytes => hwrite bytes t) addr len
  | writev addr count =>
      unfold WaitingCall.onStalled
      rw [wp_bind]
      refine wp_mono (readIovecs_refuses addr count t) (fun iov t' _ => ?_) fun _ _ he => he
      rw [wp_bind]
      refine wp_mono (hmode flags.canWrite t') (fun _ t'' _ => ?_) fun _ _ he => he
      exact writevFrom_refuses hwrite _ iov t''
  | epollWait _ _ _ => exact wp_of_error rfl hrefused

end Forgotten

/-! ### What the waker sees, and what a call waits for -/

/-- The virtual file system sees an event: on the descriptor, or on one that its epoll instance watches. -/
def ReadyNow (files : Files) (epolls : EpollRegistry) (fd : Fd) (write : Bool) : Prop :=
  match write, epollIdForFd files.fds fd with
  | false, .ok id => ∀ epoll, epolls.instances.get? id = some epoll →
    ∃ watch ∈ epoll.watches.values, watchReady files watch = true
  | _, _ => ∀ readiness, files.pollReadiness fd = .ok readiness → readiness.ready write = true

variable {μ : Type} [RuntimeMemoryAccess μ]

/-- The call asks no socket, and has to wait when there is nothing for it. -/
def CanWait (vfs : VirtualFileSystem) (memory : μ) (epolls : EpollRegistry) (fd : Fd) (call : WaitingCall) : Prop :=
  match call with
  | .epollWait _ maxevents timeout => 0 < maxevents ∧ maxevents ≤ maxEpollEvents ∧ timeout = none ∧
    ∃ id epoll, epollIdForFd vfs.fds fd = .ok id ∧ epolls.instances.get? id = some epoll ∧
      ∀ watch ∈ epoll.watches.values, ¬AsksSocket vfs.fds watch
  | call => ∃ entry, vfs.fds.entries.get? fd = some entry ∧ socketOf entry.file = none ∧
    (call.onStalled (vfs.shared.description entry.description).flags entry.file.kind (vfs.files.counterOf entry.file)
      (⟨vfs, memory, ⟨.new false, ()⟩⟩ : RuntimeFileSystem Unit Unit μ)).1 = .error .wouldBlock

namespace WaiterSubsystems

variable {σ ω : Type}

/-- The state in which a call of a process with this table is executed. -/
def within (rt : WaiterSubsystems μ) (net : NetState σ ω) (fds : FdTable) : EventState σ ω μ :=
  ⟨⟨{ rt.vfs with fds := fds }, rt.memory, net⟩, rt.epolls⟩

/-- What the call answers when it is executed again; a process without a table is gone. -/
def rerun (rt : WaiterSubsystems μ) (outside : Outside σ ω) (net : NetState σ ω) (pid : GuestPid) (fd : Fd)
    (call : WaitingCall) : Except LinuxErrno Nat :=
  match rt.fdTable pid with
  | none => .error ⟨3⟩
  | some fds => (call.exec outside fd (rt.within net fds)).1

/-- The event asked for in a direction. -/
def interest (write : Bool) : UInt16 := if write then pollout else pollin

/-- Polling the descriptor, without waiting, finds an event or fails. -/
def Polled (rt : WaiterSubsystems μ) (outside : Outside σ ω) (net : NetState σ ω) (fds : FdTable) (fd : Fd)
    (write : Bool) : Prop :=
  match write, epollIdForFd fds fd with
  | false, .ok id => ∀ watches, rt.epolls.watches id = .ok watches →
    (epollReadyEvents outside watches maxEpollEvents (some 0) (rt.within net fds)).1 ≠ .ok []
  | _, _ => (pollFdRevents outside fd (interest write) (some 0) (rt.within net fds)).1 ≠ .ok 0

/-- A task parked on a descriptor is woken when its call would not wait any more, and the waker's verdict is the
one that polling gives. -/
structure Agrees (rt : WaiterSubsystems μ) (outside : Outside σ ω) (net : NetState σ ω) (tid : GuestTid)
    (pid : GuestPid) (fd : Fd) (call : WaitingCall) : Prop where
  woken : rt.rerun outside net pid fd call ≠ .error .wouldBlock →
    (rt.resumeFdWaiters.2.tasks.task tid).map GuestTask.state = some .runnable
  verdict : ∀ fds, rt.fdTable pid = some fds → 0 ≤ fd →
    (rt.waiterReady pid fd call.direction = true ↔ rt.Polled outside net fds fd call.direction)

/-- What the operations on tables and pipes keep. -/
structure Sound (rt : WaiterSubsystems μ) : Prop where
  tasks : rt.tasks.Consistent
  fits : ∀ pid fds, rt.fdTable pid = some fds → ∀ fd entry, fds.entries.get? fd = some entry → entry.file.FitsBackend
  bounded : ∀ ref, (rt.vfs.shared.pipe ref).state.available ≤ (rt.vfs.shared.pipe ref).state.capacity

end WaiterSubsystems

/-! ### The waker's verdict -/

theorem epollIdForFd_ok {fds : FdTable} {fd : Fd} {id : Nat} (h : epollIdForFd fds fd = .ok id) :
    ∃ entry, fds.entries.get? fd = some entry ∧ entry.file.inode.backend = .epoll id := by
  unfold epollIdForFd FdTable.get Vfs.okOr at h
  cases hentry : fds.entries.get? fd with
  | none =>
      rw [hentry] at h
      cases h
  | some entry =>
      rw [hentry] at h
      simp only [bind, Except.bind] at h
      cases hbackend : entry.file.inode.backend with
      | epoll found =>
          rw [hbackend] at h
          cases h
          exact ⟨entry, rfl, hbackend⟩
      | _ =>
          rw [hbackend] at h
          cases h

theorem fdWaitReady_iff (files : Files) (fd : Fd) (write : Bool) :
    (fdWaitReady files fd write).toOption.getD true = true ↔
      ∀ readiness, files.pollReadiness fd = .ok readiness → readiness.ready write = true := by
  unfold fdWaitReady
  cases files.pollReadiness fd with
  | error error => simp [Except.toOption]
  | ok readiness => cases write <;> simp [Except.toOption, FdReadiness.ready]

theorem fdWaitReadyOrEpoll_iff (files : Files) (epolls : EpollRegistry) (fd : Fd) (write : Bool) :
    (fdWaitReadyOrEpoll files epolls fd write).toOption.getD true = true ↔ ReadyNow files epolls fd write := by
  unfold fdWaitReadyOrEpoll ReadyNow
  cases write with
  | true => exact fdWaitReady_iff files fd true
  | false =>
      cases hid : epollIdForFd files.fds fd with
      | error error => exact fdWaitReady_iff files fd false
      | ok id =>
          simp only
          unfold epollFdWaitReady EpollRegistry.watches
          cases hepoll : epolls.instances.get? id with
          | none => simp [bind, Except.bind, Except.toOption]
          | some epoll => simp [bind, Except.bind, anyWatchReady_eq, Except.toOption]

theorem unready_of_not_readyNow {files : Files} {epolls : EpollRegistry} {fd : Fd} {write : Bool}
    (hfits : ∀ entry, files.fds.entries.get? fd = some entry → entry.file.FitsBackend)
    (h : ¬ReadyNow files epolls fd write) :
    ∃ entry readiness, files.fds.entries.get? fd = some entry ∧ files.pollReadiness fd = .ok readiness ∧
      readiness.ready write = false := by
  have hplain : (¬∀ readiness, files.pollReadiness fd = .ok readiness → readiness.ready write = true) →
      ∃ entry readiness, files.fds.entries.get? fd = some entry ∧ files.pollReadiness fd = .ok readiness ∧
        readiness.ready write = false := by
    intro hready
    simp only [not_forall, Bool.not_eq_true] at hready
    obtain ⟨readiness, hpoll, hunready⟩ := hready
    cases hentry : files.fds.entries.get? fd with
    | none =>
        have hget : files.fds.get fd = .error .badFd := by simp [FdTable.get, hentry, Vfs.okOr]
        rw [Files.pollReadiness, hget] at hpoll
        cases hpoll
    | some entry => exact ⟨entry, readiness, rfl, hpoll, hunready⟩
  unfold ReadyNow at h
  cases write with
  | true => exact hplain h
  | false =>
      cases hid : epollIdForFd files.fds fd with
      | error error =>
          rw [hid] at h
          exact hplain h
      | ok id =>
          obtain ⟨entry, hentry, hbackend⟩ := epollIdForFd_ok hid
          have hkind : entry.file.kind = .epoll := by
            have hfile := hfits entry hentry
            rwa [Vfs.FileRef.FitsBackend, hbackend] at hfile
          have hpoll := Files.pollReadiness_eq hentry
          rw [hkind] at hpoll
          exact ⟨entry, _, hentry, hpoll, rfl⟩

/-! ### The call executed again -/

section Rerun

variable {σ ω : Type} {outside : Outside σ ω} {s : EventState σ ω μ} {fd : Fd} {call : WaitingCall}

theorem exec_stalled {entry : FdEntry} {readiness : FdReadiness}
    (hbounded : ∀ ref, (s.files.vfs.shared.pipe ref).state.available ≤ (s.files.vfs.shared.pipe ref).state.capacity)
    (hentry : s.files.vfs.fds.entries.get? fd = some entry)
    (hpoll : s.files.vfs.files.pollReadiness fd = .ok readiness) (hunready : readiness.ready call.direction = false)
    (hsocket : socketOf entry.file = none) (hcall : call.transfers = true) :
    (call.exec outside fd s).1 =
      (call.onStalled (s.files.vfs.shared.description entry.description).flags entry.file.kind
        (s.files.vfs.files.counterOf entry.file)
        (⟨s.files.vfs, s.files.memory, ⟨.new false, ()⟩⟩ : RuntimeFileSystem Unit Unit μ)).1 := by
  have hsame : SameMemory s.files.vfs s.files
      (⟨s.files.vfs, s.files.memory, ⟨.new false, ()⟩⟩ : RuntimeFileSystem Unit Unit μ) := ⟨rfl, rfl⟩
  cases call with
  | read addr len => exact (sysRead_stalled outside hentry hsocket hpoll hunready _ addr len hsame).1
  | readv addr count => exact (sysReadv_stalled outside hentry hsocket hpoll hunready _ addr count hsame).1
  | write addr len => exact (sysWrite_stalled outside hentry hsocket hbounded hpoll hunready addr len hsame).1
  | writev addr count => exact (sysWritev_stalled outside hentry hsocket hbounded hpoll hunready addr count hsame).1
  | epollWait _ _ _ => cases hcall

theorem unready_watches {id : Nat} {epoll : EpollInstance} {files : Files} {epolls : EpollRegistry}
    (hid : epollIdForFd files.fds fd = .ok id) (hepoll : epolls.instances.get? id = some epoll)
    (h : ¬ReadyNow files epolls fd false) : ∀ watch ∈ epoll.watches.values, watchReady files watch = false := by
  intro watch hwatch
  by_contra hready
  apply h
  unfold ReadyNow
  rw [hid]
  intro found hfound
  rw [hepoll] at hfound
  cases hfound
  exact ⟨watch, hwatch, by simpa using hready⟩

theorem exec_waits
    (hfits : ∀ entry, s.files.vfs.fds.entries.get? fd = some entry → entry.file.FitsBackend)
    (hbounded : ∀ ref, (s.files.vfs.shared.pipe ref).state.available ≤ (s.files.vfs.shared.pipe ref).state.capacity)
    (hready : ¬ReadyNow s.files.vfs.files s.epolls fd call.direction)
    (hwait : CanWait s.files.vfs s.files.memory s.epolls fd call) :
    (call.exec outside fd s).1 = .error .wouldBlock := by
  have htransfer : call.transfers = true → (∃ entry, s.files.vfs.fds.entries.get? fd = some entry ∧
      socketOf entry.file = none ∧ (call.onStalled (s.files.vfs.shared.description entry.description).flags
        entry.file.kind (s.files.vfs.files.counterOf entry.file)
        (⟨s.files.vfs, s.files.memory, ⟨.new false, ()⟩⟩ : RuntimeFileSystem Unit Unit μ)).1 = .error .wouldBlock) →
      (call.exec outside fd s).1 = .error .wouldBlock := by
    intro hcall hstalled
    obtain ⟨entry, hentry, hsocket, hrun⟩ := hstalled
    obtain ⟨found, readiness, hfound, hpoll, hunready⟩ := unready_of_not_readyNow hfits hready
    rw [exec_stalled hbounded hentry hpoll hunready hsocket hcall]
    exact hrun
  cases call with
  | epollWait addr maxevents timeout =>
      obtain ⟨hpos, hmax, htimeout, id, epoll, hid, hepoll, hasks⟩ := hwait
      have hrange : ¬(maxevents = 0 ∨ maxEpollEvents < maxevents) := by omega
      have hrun : (epollWait outside fd addr maxevents timeout s).1 = _ :=
        epollWait_waits outside hrange hid hepoll (unready_watches hid hepoll hready) hasks
      rw [if_pos htimeout] at hrun
      exact hrun
  | _ => exact htransfer rfl hwait

/-- Where the file system sees no event and no socket is known, a call that cannot wait answers. -/
theorem exec_answers (h : NoSockets s)
    (hfits : ∀ entry, s.files.vfs.fds.entries.get? fd = some entry → entry.file.FitsBackend)
    (hbounded : ∀ ref, (s.files.vfs.shared.pipe ref).state.available ≤ (s.files.vfs.shared.pipe ref).state.capacity)
    (hready : ¬ReadyNow s.files.vfs.files s.epolls fd call.direction)
    (hwait : ¬CanWait s.files.vfs s.files.memory s.epolls fd call) :
    (call.exec outside fd s).1 ≠ .error .wouldBlock := by
  have htransfer : call.transfers = true → (¬∃ entry, s.files.vfs.fds.entries.get? fd = some entry ∧
      socketOf entry.file = none ∧ (call.onStalled (s.files.vfs.shared.description entry.description).flags
        entry.file.kind (s.files.vfs.files.counterOf entry.file)
        (⟨s.files.vfs, s.files.memory, ⟨.new false, ()⟩⟩ : RuntimeFileSystem Unit Unit μ)).1 = .error .wouldBlock) →
      (call.exec outside fd s).1 ≠ .error .wouldBlock := by
    intro hcall hstalled
    obtain ⟨entry, readiness, hentry, hpoll, hunready⟩ := unready_of_not_readyNow hfits hready
    cases hsocket : socketOf entry.file with
    | some id => exact exec_unknown h hentry hsocket hcall
    | none =>
        rw [exec_stalled hbounded hentry hpoll hunready hsocket hcall]
        exact fun hrun => hstalled ⟨entry, hentry, hsocket, hrun⟩
  cases call with
  | epollWait addr maxevents timeout =>
      by_cases hrefused : maxevents = 0 ∨ maxEpollEvents < maxevents ∨
          ∀ id, epollIdForFd s.files.vfs.fds fd ≠ .ok id
      · exact epollWait_refused outside hrefused
      · simp only [not_or, not_forall, not_not] at hrefused
        obtain ⟨hpos, hmax, id, hid⟩ := hrefused
        have hrange : ¬(maxevents = 0 ∨ maxEpollEvents < maxevents) := by omega
        cases hepoll : s.epolls.instances.get? id with
        | none =>
            have hrun : (epollWait outside fd addr maxevents timeout s).1 = _ :=
              epollWait_missing outside hrange hid hepoll
            intro hblock
            rw [WaitingCall.exec, hrun] at hblock
            cases hblock
        | some epoll =>
            have hunready := unready_watches hid hepoll hready
            by_cases hasks : ∀ watch ∈ epoll.watches.values, ¬AsksSocket s.files.vfs.fds watch
            · have hrun : (epollWait outside fd addr maxevents timeout s).1 = _ :=
                epollWait_waits outside hrange hid hepoll hunready hasks
              intro hblock
              rw [WaitingCall.exec, hrun] at hblock
              by_cases htimeout : timeout = none
              · exact hwait ⟨by omega, by omega, htimeout, id, epoll, hid, hepoll, hasks⟩
              · rw [if_neg htimeout] at hblock
                cases hblock
            · simp only [not_forall, not_not] at hasks
              obtain ⟨watch, hmem, hasks⟩ := hasks
              have hrun : (epollWait outside fd addr maxevents timeout s).1 = _ :=
                epollWait_unknown outside h hrange hid hepoll hunready hmem hasks
              intro hblock
              rw [WaitingCall.exec, hrun] at hblock
              cases hblock
  | _ => exact htransfer rfl hwait

end Rerun

/-! ### Polling -/

section Polling

variable {σ ω : Type} {outside : Outside σ ω} {s : EventState σ ω μ} {fd : Fd} {write : Bool}

open WaiterSubsystems (interest)

omit [RuntimeMemoryAccess μ] in
theorem interest_iff (readiness : FdReadiness) (write : Bool) :
    pollReventsFromVfs readiness (interest write) ≠ 0 ↔ readiness.ready write = true := by
  obtain ⟨readable, writable, hangUp, error⟩ := readiness
  revert readable writable hangUp error write
  decide

omit [RuntimeMemoryAccess μ] in
theorem or_ne_zero {revents : UInt16} (extra : UInt16) (h : revents ≠ 0) : revents ||| extra ≠ 0 := by
  intro hzero
  have hall : revents &&& revents ≠ 0 := by rwa [UInt16.and_self]
  exact and_ne_zero_of_or extra hall (by rw [hzero, UInt16.zero_and])

omit [RuntimeMemoryAccess μ] in
theorem pollFdRevents_ready (hfd : 0 ≤ fd) (timeout : Option Nat)
    (hready : ∀ readiness, s.files.vfs.files.pollReadiness fd = .ok readiness → readiness.ready write = true) :
    (pollFdRevents outside fd (interest write) timeout s).1 ≠ .ok 0 := by
  have hwp : wp (pollFdRevents outside fd (interest write) timeout) (fun revents _ => revents ≠ 0) (fun _ _ => True) s := by
    unfold pollFdRevents
    rw [wp_bind]
    refine wp_mono (base_spec hfd) (fun answer s' h => ?_) fun _ _ _ => trivial
    obtain ⟨revents, socket⟩ := answer
    obtain ⟨rfl, hrevents, _⟩ := h
    have hevent : revents ≠ 0 := by
      simp only at hrevents
      cases hpoll : s'.files.vfs.files.pollReadiness fd with
      | error error =>
          rw [hpoll] at hrevents
          rw [hrevents]
          exact (show pollnval ≠ 0 by decide)
      | ok readiness =>
          rw [hpoll] at hrevents
          rw [hrevents]
          exact (interest_iff readiness write).mpr (hready readiness hpoll)
    cases socket with
    | none => exact (wp_pure _).mpr hevent
    | some asked =>
        simp only
        rw [wp_bind]
        exact wp_iff.mpr ⟨fun readiness s'' _ => (wp_pure _).mpr (or_ne_zero _ hevent), fun _ _ _ => trivial⟩
  intro hrun
  exact wp_ok hwp (run_eq hrun) rfl

omit [RuntimeMemoryAccess μ] in
theorem pollFdRevents_unready {entry : FdEntry} {readiness : FdReadiness} (hfd : 0 ≤ fd) (timeout : Option Nat)
    (hentry : s.files.vfs.fds.entries.get? fd = some entry)
    (hplain : ∀ id, entry.file.inode.backend ≠ .socket id)
    (hpoll : s.files.vfs.files.pollReadiness fd = .ok readiness) (hunready : readiness.ready write = false) :
    (pollFdRevents outside fd (interest write) timeout s).1 = .ok 0 := by
  have hbase : pollFdBaseReventsAndSocket fd (interest write) s = _ := base_of_unasked hfd (by
    intro h
    obtain ⟨found, id, hfound, hbackend, _⟩ := h
    rw [hentry] at hfound
    cases hfound
    exact hplain id hbackend)
  have hzero : pollReventsFromVfs readiness (interest write) = 0 := by
    by_contra hne
    rw [(interest_iff readiness write).mp hne] at hunready
    cases hunready
  rw [hpoll] at hbase
  simp only [hzero] at hbase
  unfold pollFdRevents
  rw [run_bind_ok hbase]
  rfl

end Polling

namespace WaiterSubsystems

variable {σ ω : Type} {rt : WaiterSubsystems μ} {outside : Outside σ ω} {net : NetState σ ω} {fds : FdTable} {fd : Fd}
  {call : WaitingCall}

omit [RuntimeMemoryAccess μ] in
theorem polled_of_readyNow {write : Bool} (hfd : 0 ≤ fd) (h : ReadyNow ⟨fds, rt.vfs.shared⟩ rt.epolls fd write) :
    rt.Polled outside net fds fd write := by
  unfold ReadyNow at h
  unfold Polled
  cases write with
  | true => exact pollFdRevents_ready hfd _ h
  | false =>
      simp only at h ⊢
      cases hid : epollIdForFd fds fd with
      | error error =>
          rw [hid] at h
          exact pollFdRevents_ready hfd _ h
      | ok id =>
          rw [hid] at h
          intro watches hwatches
          unfold EpollRegistry.watches at hwatches
          cases hepoll : rt.epolls.instances.get? id with
          | none =>
              rw [hepoll] at hwatches
              cases hwatches
          | some epoll =>
              rw [hepoll] at hwatches
              cases hwatches
              obtain ⟨watch, hmem, hready⟩ := h epoll hepoll
              have hwp := epollReadyEvents_ready outside (s := rt.within net fds)
                (fun _ hwatch => EpollInstance.fd_nonneg hwatch) maxEpollEvents (some 0) (by decide) hmem hready
              intro hrun
              exact wp_ok hwp (run_eq hrun) rfl

theorem not_polled_of_canWait (hfd : 0 ≤ fd)
    (hfits : ∀ entry, fds.entries.get? fd = some entry → entry.file.FitsBackend)
    (hready : ¬ReadyNow ⟨fds, rt.vfs.shared⟩ rt.epolls fd call.direction)
    (hwait : CanWait { rt.vfs with fds := fds } rt.memory rt.epolls fd call) :
    ¬rt.Polled outside net fds fd call.direction := by
  have htransfer : (∃ entry, fds.entries.get? fd = some entry ∧ socketOf entry.file = none ∧
      (call.onStalled (rt.vfs.shared.description entry.description).flags entry.file.kind
        (Files.counterOf ⟨fds, rt.vfs.shared⟩ entry.file)
        (⟨{ rt.vfs with fds := fds }, rt.memory, ⟨.new false, ()⟩⟩ : RuntimeFileSystem Unit Unit μ)).1 =
          .error .wouldBlock) → ¬rt.Polled outside net fds fd call.direction := by
    intro hstalled hpolled
    obtain ⟨entry, hentry, _, hrun⟩ := hstalled
    obtain ⟨found, readiness, hfound, hpoll, hunready⟩ := unready_of_not_readyNow hfits hready
    have hfile := hfits entry hentry
    have hsocket : ∀ id, entry.file.inode.backend ≠ .socket id := by
      intro id hbackend
      rw [Vfs.FileRef.FitsBackend, hbackend] at hfile
      exact onStalled_refused (Or.inl hfile) _ call _ hrun
    have hepoll : ∀ id, epollIdForFd fds fd ≠ .ok id := by
      intro id hid
      obtain ⟨other, hother, hbackend⟩ := epollIdForFd_ok hid
      rw [hentry] at hother
      cases hother
      rw [Vfs.FileRef.FitsBackend, hbackend] at hfile
      exact onStalled_refused (Or.inr hfile) _ call _ hrun
    have hquiet : (pollFdRevents outside fd (interest call.direction) (some 0) (rt.within net fds)).1 = .ok 0 :=
      pollFdRevents_unready hfd (some 0) hentry hsocket hpoll hunready
    unfold Polled at hpolled
    split at hpolled
    · exact absurd ‹_› (hepoll _)
    · exact hpolled hquiet
  cases call with
  | epollWait addr maxevents timeout =>
      obtain ⟨_, _, _, id, epoll, hid, hepoll, hasks⟩ := hwait
      intro hpolled
      have hwatches : rt.epolls.watches id = .ok epoll.watches.values := by rw [EpollRegistry.watches, hepoll]
      have hquiet := epollReadyEvents_quiet outside (s := rt.within net fds)
        (fun _ hwatch => EpollInstance.fd_nonneg hwatch) (unready_watches hid hepoll hready) hasks maxEpollEvents (some 0)
        (by decide)
      unfold Polled WaitingCall.direction at hpolled
      simp only [show epollIdForFd fds fd = .ok id from hid] at hpolled
      apply hpolled _ hwatches
      rw [hquiet]
  | _ => exact htransfer hwait

omit [RuntimeMemoryAccess μ] in
theorem waiterReady_iff {pid : GuestPid} {write : Bool} (htable : rt.fdTable pid = some fds) :
    rt.waiterReady pid fd write = true ↔ ReadyNow ⟨fds, rt.vfs.shared⟩ rt.epolls fd write := by
  unfold waiterReady
  rw [htable]
  exact fdWaitReadyOrEpoll_iff _ _ _ _

omit [RuntimeMemoryAccess μ] in
/-- A parked task becomes runnable exactly when the waker finds its descriptor ready. -/
theorem woken_iff {tid : GuestTid} {task : GuestTask} {write : Bool} (hsound : rt.Sound)
    (htask : rt.tasks.task tid = some task) (hstate : task.state = .waitingForFd fd write) :
    (rt.resumeFdWaiters.2.tasks.task tid).map GuestTask.state = some .runnable ↔
      rt.waiterReady task.pid fd write = true := by
  have hwoken : rt.resumeFdWaiters.2.tasks.task tid = _ := hsound.tasks.resumeFdWaiters htask hstate
  rw [hwoken]
  by_cases hready : rt.waiterReady task.pid fd write = true
  · simp [hready]
  · simp [hready, hstate]

/-- The waker can tell: the process has no table, the file system sees an event, or the call asks no socket and
waits when there is nothing for it. -/
def WakerCanTell (rt : WaiterSubsystems μ) (pid : GuestPid) (fd : Fd) (call : WaitingCall) : Prop :=
  ∀ fds, rt.fdTable pid = some fds → ReadyNow ⟨fds, rt.vfs.shared⟩ rt.epolls fd call.direction ∨
    CanWait { rt.vfs with fds := fds } rt.memory rt.epolls fd call

theorem agrees_of_canTell {tid : GuestTid} {task : GuestTask} (hsound : rt.Sound)
    (htask : rt.tasks.task tid = some task) (hstate : task.state = .waitingForFd fd call.direction)
    (h : rt.WakerCanTell task.pid fd call) : rt.Agrees outside net tid task.pid fd call where
  woken hrerun := by
    rw [woken_iff hsound htask hstate]
    cases htable : rt.fdTable task.pid with
    | none => rw [waiterReady, htable]
    | some fds =>
        rw [waiterReady_iff htable]
        by_contra hready
        apply hrerun
        rw [rerun, htable]
        exact exec_waits (hsound.fits task.pid fds htable fd) hsound.bounded hready ((h fds htable).resolve_left hready)
  verdict fds htable hfd := by
    rw [waiterReady_iff htable]
    constructor
    · exact polled_of_readyNow hfd
    · intro hpolled
      by_contra hready
      exact not_polled_of_canWait hfd (hsound.fits task.pid fds htable fd) hready ((h fds htable).resolve_left hready)
        hpolled

end WaiterSubsystems

/-- A world with no file, no network and no socket. -/
def emptyOutside : Outside Unit ListenerWorld := ⟨.empty, listenerHost, ⟨fun _ => pure 0, fun _ => pure 0⟩⟩

/-- The first task of a process waits to read from a descriptor. -/
def parkedAt (vfs : VirtualFileSystem) (memory : FlatMemory) (epolls : EpollRegistry) (fd : Fd) :
    WaiterSubsystems FlatMemory where
  tasks := (GuestKernel.initial Mcr.Task.sampleImage).setTaskState Mcr.Task.initialGuestTid (.waitingForFd fd false)
  selectedFdsPid := Mcr.Task.initialGuestPid
  fds := .empty
  vfs := vfs
  memory := memory
  epolls := epolls

theorem parkedAt_sound {vfs : VirtualFileSystem} {memory : FlatMemory} {epolls : EpollRegistry} {fd : Fd}
    (hfits : ∀ entry ∈ vfs.fds.entries.values, entry.file.FitsBackend)
    (hpipes : vfs.shared.pipe = Vfs.Shared.empty.pipe) : (parkedAt vfs memory epolls fd).Sound where
  tasks := (Mcr.Task.GuestKernel.consistent_initial Mcr.Task.sampleImage).setTaskState Mcr.Task.initialGuestTid
    (.waitingForFd fd false)
  fits pid fds htable other entry hentry := by
    unfold WaiterSubsystems.fdTable at htable
    by_cases hpid : pid = (parkedAt vfs memory epolls fd).selectedFdsPid
    · rw [if_pos hpid] at htable
      cases htable
      exact hfits entry (SortedMap.mem_values.mpr ⟨other, hentry⟩)
    · rw [if_neg hpid] at htable
      simp [parkedAt] at htable
  bounded ref := by
    have hpipe : (parkedAt vfs memory epolls fd).vfs.shared.pipe ref = Vfs.Shared.empty.pipe ref := congrFun hpipes ref
    rw [hpipe]
    exact Nat.zero_le _

/-- A socket under descriptor 3 and an epoll instance under descriptor 4, or an eventfd under descriptor 3. -/
def watchingFiles : VirtualFileSystem :=
  (VirtualFileSystem.onFiles (do
    let _ ← Files.insertSocket 1 ⟨0⟩
    Files.insertEpoll 1 ⟨0⟩) (.bare "/")).2

def countingFiles : VirtualFileSystem := (VirtualFileSystem.onFiles (Files.eventfd 0 ⟨2⟩) (.bare "/")).2

def watchingEpolls : EpollRegistry :=
  ⟨1, .insert .empty 1 (EpollInstance.empty.changed (.insert .empty 3 ⟨3, epollin, 7⟩) fun fd watch h => by
    rw [SortedMap.get?_insert] at h
    split at h
    · rename_i heq
      cases h
      exact ⟨heq.symm, heq ▸ (by decide : (0 : Fd) ≤ 3)⟩
    · simp at h)⟩

/-- A listener that has been asked for a connection, and one has come. -/
def listeningNet : NetState Unit ListenerWorld :=
  Net.TableCall.run listenerHost (Net.listenerStart [false]) (Net.listenerCalls.take 4)

theorem watchingFiles_sound : (parkedAt watchingFiles ⟨List.replicate 16 0⟩ watchingEpolls 4).Sound :=
  parkedAt_sound (by decide +kernel) rfl

end Mcr.Runtime
