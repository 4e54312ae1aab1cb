import Mcr.Runtime.Epoll
import Mcr.Task.Indexes
import Mcr.Vfs.Stalled

/-!
# Tasks parked on a descriptor

A call that has to wait parks its task on a descriptor and a direction, and is executed again once the task
is woken. Whether to wake it is decided by a second reading of readiness, which sees the descriptor tables
and the epoll registry but not the socket table. The calls and that reading agree on every file that is not
a socket; so a task is woken whenever its call can go on, unless a socket decides it.
-/

namespace Mcr.Runtime

open Vfs (Fd FdTable Files OpenFlags FileKind EventfdState FdEntry VfsError VirtualFileSystem stalledRead stalledWrite)
open Vfs.Files (FdReadiness)
open Net (LinuxErrno NetState SocketEvents SocketId)
open Mcr.Task (GuestKernel GuestPid)

/-! ### The reading of the waker -/

def fdWaitReady (files : Files) (fd : Fd) (write : Bool) : Except LinuxErrno Bool :=
  match files.pollReadiness fd with
  | .error error => .error (vfsErrno error)
  | .ok readiness =>
    .ok (if write then readiness.writable || readiness.hangUp || readiness.error
      else readiness.readable || readiness.hangUp || readiness.error)

def anyWatchReady (files : Files) : List EpollWatch → Except LinuxErrno Bool
  | [] => .ok false
  | watch :: rest => do
    let revents ← match files.pollReadiness watch.fd with
      | .ok readiness => .ok (pollReventsFromVfs readiness (epollEventsToPollEvents watch.events))
      | .error .badFd => .ok (pollerr ||| pollhup)
      | .error error => .error (vfsErrno error)
    if pollReventsToEpollEvents revents watch.events ≠ 0 then .ok true else anyWatchReady files rest

def epollFdWaitReady (files : Files) (epolls : EpollRegistry) (id : Nat) : Except LinuxErrno Bool := do
  let watches ← epolls.watches id
  anyWatchReady files watches

def fdWaitReadyOrEpoll (files : Files) (epolls : EpollRegistry) (fd : Fd) (write : Bool) : Except LinuxErrno Bool :=
  match write, epollIdForFd files.fds fd with
  | false, .ok id => epollFdWaitReady files epolls id
  | _, _ => fdWaitReady files fd write

/-- The parts of `RuntimeSubsystems` that waking looks at. -/
structure WaiterSubsystems (μ : Type) where
  tasks : GuestKernel
  selectedFdsPid : GuestPid
  fds : SortedMap GuestPid FdTable
  vfs : VirtualFileSystem
  memory : μ
  epolls : EpollRegistry

namespace WaiterSubsystems

variable {μ : Type}

/-- The table of a process is the one in use or one of those put aside. -/
def fdTable (rt : WaiterSubsystems μ) (pid : GuestPid) : Option FdTable :=
  if pid = rt.selectedFdsPid then some rt.vfs.fds else rt.fds.get? pid

/-- What decides whether a waiter is woken; an error wakes it. -/
def waiterReady (rt : WaiterSubsystems μ) (pid : GuestPid) (fd : Fd) (write : Bool) : Bool :=
  match rt.fdTable pid with
  | none => true
  | some fds => (fdWaitReadyOrEpoll ⟨fds, rt.vfs.shared⟩ rt.epolls fd write).toOption.getD true

def resumeFdWaiters (rt : WaiterSubsystems μ) : Nat × WaiterSubsystems μ :=
  let (resumed, tasks) := rt.tasks.resumeFdWaiters rt.waiterReady
  (resumed, { rt with tasks := tasks })

end WaiterSubsystems

/-! ### The calls that park -/

/-- The calls whose `EAGAIN` parks the task, with their arguments after the descriptor. -/
inductive WaitingCall
  | read (addr len : Nat)
  | readv (addr count : Nat)
  | write (addr len : Nat)
  | writev (addr count : Nat)
  | epollWait (addr maxevents : Nat) (timeout : Option Nat)

namespace WaitingCall

/-- The direction `blocking_fd_wait` parks the task on. -/
def direction : WaitingCall → Bool
  | .write _ _ | .writev _ _ => true
  | .read _ _ | .readv _ _ | .epollWait _ _ _ => false

/-- The call moves bytes through the descriptor itself. -/
def transfers : WaitingCall → Bool
  | .epollWait _ _ _ => false
  | .read _ _ | .readv _ _ | .write _ _ | .writev _ _ => true

variable {σ ω μ : Type} [RuntimeMemoryAccess μ]

def exec (outside : Outside σ ω) (fd : Fd) : WaitingCall → EventProg σ ω μ Nat
  | .read addr len => onFiles (sysRead outside fd addr len)
  | .readv addr count => onFiles (sysReadv outside fd addr count)
  | .write addr len => onFiles (sysWrite outside fd addr len)
  | .writev addr count => onFiles (sysWritev outside fd addr count)
  | .epollWait addr maxevents timeout => Runtime.epollWait outside fd addr maxevents timeout

/-- The call on a file that is not a socket and has nothing to read or no room, where only the guest's memory
and what is asked for decide. -/
def onStalled (flags : OpenFlags) (kind : FileKind) (counter : EventfdState) : WaitingCall → FsProg σ ω μ Nat
  | .read addr len => readInto (fun len => .mapError vfsErrno (.ofExcept (stalledRead flags kind len))) addr len
  | .readv addr count => do
    let iov ← readIovecs addr count
    .mapError vfsErrno (.ofExcept (Vfs.failIf (flags.canRead = false) .badFd))
    readvInto (fun len => .mapError vfsErrno (.ofExcept (stalledRead flags kind len))) false (fun _ => pure none) iov
  | .write addr len =>
    writeFrom (fun bytes => .mapError vfsErrno (.ofExcept (stalledWrite flags kind counter bytes))) addr len
  | .writev addr count => do
    let iov ← readIovecs addr count
    .mapError vfsErrno (.ofExcept (Vfs.failIf (flags.canWrite = false) .badFd))
    writevFrom (fun bytes => .mapError vfsErrno (.ofExcept (stalledWrite flags kind counter bytes))) false
      (fun _ => pure none) iov
  | .epollWait _ _ _ => .throw ebadf

end WaitingCall

/-! ### Calls that only meet a stalled file -/

section Simulation

variable {σ ω σ' ω' μ : Type} [RuntimeMemoryAccess μ]

def SameMemory (vfs : VirtualFileSystem) (s : RuntimeFileSystem σ ω μ) (t : RuntimeFileSystem σ' ω' μ) : Prop :=
  s.vfs = vfs ∧ s.memory = t.memory

variable {vfs : VirtualFileSystem} {s : RuntimeFileSystem σ ω μ} {t : RuntimeFileSystem σ' ω' μ}

open Prog

theorem readBytes_simulates (addr len : Nat) (h : SameMemory vfs s t) :
    Simulates (SameMemory vfs) (readBytes addr len : FsProg σ ω μ _) (readBytes addr len) s t := by
  refine .get ?_
  rw [h.2]
  split
  · exact .pure _ h
  · exact .throw _ h

theorem writeBytes_simulates (addr : Nat) (bytes : List UInt8) (h : SameMemory vfs s t) :
    Simulates (SameMemory vfs) (writeBytes addr bytes : FsProg σ ω μ _) (writeBytes addr bytes) s t := by
  unfold writeBytes Simulates Prog.mapError Prog.zoom
  rw [h.2]
  rcases GuestMemoryAccess.writeBytes addr bytes t.memory with ⟨r, memory⟩
  cases r with
  | ok _ => exact ⟨rfl, h.1, rfl⟩
  | error _ => exact ⟨rfl, h.1, rfl⟩

theorem borrowedBytes_simulates (addr len : Nat) (h : SameMemory vfs s t) :
    Simulates (SameMemory vfs) (borrowedBytes addr len : FsProg σ ω μ _) (borrowedBytes addr len) s t := by
  refine .get ?_
  rw [h.2]
  split
  · exact .pure _ h
  · exact .throw _ h

theorem borrowedBytesMut_simulates (addr len : Nat) (h : SameMemory vfs s t) :
    Simulates (SameMemory vfs) (borrowedBytesMut addr len : FsProg σ ω μ _) (borrowedBytesMut addr len) s t := by
  unfold borrowedBytesMut Simulates Prog.mapError Prog.zoom
  rw [h.2]
  rcases RuntimeMemoryAccess.borrowedBytesMut addr len t.memory with ⟨r, memory⟩
  cases r with
  | ok _ => exact ⟨rfl, h.1, rfl⟩
  | error _ => exact ⟨rfl, h.1, rfl⟩

theorem tryBorrowedBytesMut_simulates (addr len : Nat) (h : SameMemory vfs s t) :
    Simulates (SameMemory vfs) (tryBorrowedBytesMut addr len : FsProg σ ω μ _) (tryBorrowedBytesMut addr len) s t :=
  .tryCatch (borrowedBytesMut_simulates addr len h) fun _ _ _ h => .pure _ h

omit [RuntimeMemoryAccess μ] in
theorem fill_simulates (put : List UInt8 → μ → μ) (bytes : List UInt8) (h : SameMemory vfs s t) :
    Simulates (SameMemory vfs) (fill put bytes : FsProg σ ω μ _) (fill put bytes) s t :=
  .modify ⟨h.1, congrArg (put bytes) h.2⟩

omit [RuntimeMemoryAccess μ] in
theorem collect_simulates {α β : Type} {f : β → FsProg σ ω μ α} {g : β → FsProg σ' ω' μ α}
    (hf : ∀ b s t, SameMemory vfs s t → Simulates (SameMemory vfs) (f b) (g b) s t) :
    ∀ (l : List β) {s : RuntimeFileSystem σ ω μ} {t : RuntimeFileSystem σ' ω' μ}, SameMemory vfs s t →
      Simulates (SameMemory vfs) (.collect l f) (.collect l g) s t := by
  intro l
  induction l with
  | nil =>
      intro s t h
      exact .pure _ h
  | cons b rest ih =>
      intro s t h
      refine .bind (hf b s t h) fun a s' t' h' => ?_
      exact .bind (ih h') fun as s'' t'' h'' => .pure _ h''

theorem readIovecs_simulates (addr count : Nat) (h : SameMemory vfs s t) :
    Simulates (SameMemory vfs) (readIovecs addr count : FsProg σ ω μ _) (readIovecs addr count) s t := by
  refine .ite (fun _ => .throw _ h) fun _ => collect_simulates (fun index s t h => ?_) _ h
  refine .ite (fun _ => .throw _ h) fun _ => ?_
  exact .bind (readBytes_simulates _ _ h) fun _ _ _ h' => .pure _ h'

theorem iovecsAreBorrowable_simulates (iov : List LinuxIovec) (h : SameMemory vfs s t) :
    Simulates (SameMemory vfs) (iovecsAreBorrowable iov : FsProg σ ω μ _) (iovecsAreBorrowable iov) s t := by
  refine .get ?_
  rw [h.2]
  exact .pure _ h

theorem iovecsAreBorrowableMut_simulates : ∀ (iov : List LinuxIovec) {s : RuntimeFileSystem σ ω μ}
    {t : RuntimeFileSystem σ' ω' μ}, SameMemory vfs s t →
    Simulates (SameMemory vfs) (iovecsAreBorrowableMut iov : FsProg σ ω μ _) (iovecsAreBorrowableMut iov) s t := by
  intro iov
  induction iov with
  | nil =>
      intro s t h
      exact .pure _ h
  | cons iovec rest ih =>
      intro s t h
      refine .bind (tryBorrowedBytesMut_simulates _ _ h) fun slice s' t' h' => ?_
      cases slice with
      | none => exact .pure _ h'
      | some put => exact ih h'

omit [RuntimeMemoryAccess μ] in
theorem moveIovecs_simulates {move : LinuxIovec → FsProg σ ω μ Nat} {move' : LinuxIovec → FsProg σ' ω' μ Nat}
    (hmove : ∀ iovec s t, SameMemory vfs s t → Simulates (SameMemory vfs) (move iovec) (move' iovec) s t) :
    ∀ (iov : List LinuxIovec) (total : Nat) {s : RuntimeFileSystem σ ω μ} {t : RuntimeFileSystem σ' ω' μ},
      SameMemory vfs s t → Simulates (SameMemory vfs) (moveIovecs move iov total) (moveIovecs move' iov total) s t := by
  intro iov
  induction iov with
  | nil =>
      intro total s t h
      exact .pure _ h
  | cons iovec rest ih =>
      intro total s t h
      refine .bind (hmove iovec s t h) fun count s' t' h' => ?_
      refine .ite (fun _ => .throw _ h') fun _ => .ite (fun _ => .pure _ h') fun _ => ih _ h'

/-- The ways both programs read a descriptor answer alike. -/
def ReceiveAlike (vfs : VirtualFileSystem) (receive : Nat → FsProg σ ω μ (List UInt8))
    (receive' : Nat → FsProg σ' ω' μ (List UInt8)) : Prop :=
  ∀ len s t, SameMemory vfs s t → Simulates (SameMemory vfs) (receive len) (receive' len) s t

def SendAlike (vfs : VirtualFileSystem) (send : List UInt8 → FsProg σ ω μ Nat)
    (send' : List UInt8 → FsProg σ' ω' μ Nat) : Prop :=
  ∀ bytes s t, SameMemory vfs s t → Simulates (SameMemory vfs) (send bytes) (send' bytes) s t

variable {receive : Nat → FsProg σ ω μ (List UInt8)} {receive' : Nat → FsProg σ' ω' μ (List UInt8)}
  {send : List UInt8 → FsProg σ ω μ Nat} {send' : List UInt8 → FsProg σ' ω' μ Nat}

theorem readInto_simulates (hreceive : ReceiveAlike vfs receive receive') (addr len : Nat) (h : SameMemory vfs s t) :
    Simulates (SameMemory vfs) (readInto receive addr len) (readInto receive' addr len) s t := by
  refine .bind (tryBorrowedBytesMut_simulates addr len h) fun slice s' t' h' => ?_
  cases slice with
  | none =>
      refine .bind (hreceive len s' t' h') fun bytes s'' t'' h'' => ?_
      exact .bind (writeBytes_simulates addr bytes h'') fun _ _ _ h''' => .pure _ h'''
  | some put =>
      refine .bind (hreceive len s' t' h') fun bytes s'' t'' h'' => ?_
      exact .bind (fill_simulates put bytes h'') fun _ _ _ h''' => .pure _ h'''

theorem writeFrom_simulates (hsend : SendAlike vfs send send') (addr len : Nat) (h : SameMemory vfs s t) :
    Simulates (SameMemory vfs) (writeFrom send addr len) (writeFrom send' addr len) s t := by
  refine .bind (borrowedBytes_simulates addr len h) fun slice s' t' h' => ?_
  cases slice with
  | none => exact .bind (readBytes_simulates addr len h') fun bytes s'' t'' h'' => hsend bytes s'' t'' h''
  | some bytes => exact hsend bytes s' t' h'

theorem readvInto_simulates (hreceive : ReceiveAlike vfs receive receive')
    {whole : List Nat → FsProg σ ω μ (Option (List UInt8))} {whole' : List Nat → FsProg σ' ω' μ (Option (List UInt8))}
    (iov : List LinuxIovec) (h : SameMemory vfs s t) :
    Simulates (SameMemory vfs) (readvInto receive false whole iov) (readvInto receive' false whole' iov) s t := by
  refine .bind (iovecsAreBorrowableMut_simulates iov h) fun borrowable s' t' h' => ?_
  refine .ite (fun _ => moveIovecs_simulates (fun iovec s t h => ?_) iov 0 h') fun _ =>
    moveIovecs_simulates (fun iovec s t h => ?_) iov 0 h'
  · refine .bind (borrowedBytesMut_simulates _ _ h) fun slice s' t' h' => ?_
    cases slice with
    | none => exact .throw _ h'
    | some put =>
        refine .bind (hreceive _ s' t' h') fun bytes s'' t'' h'' => ?_
        exact .bind (fill_simulates put bytes h'') fun _ _ _ h''' => .pure _ h'''
  · refine .bind (hreceive _ s t h) fun bytes s'' t'' h'' => ?_
    exact .bind (writeBytes_simulates _ bytes h'') fun _ _ _ h''' => .pure _ h'''

theorem writevFrom_simulates (hsend : SendAlike vfs send send')
    {whole : List (List UInt8) → FsProg σ ω μ (Option Nat)} {whole' : List (List UInt8) → FsProg σ' ω' μ (Option Nat)}
    (iov : List LinuxIovec) (h : SameMemory vfs s t) :
    Simulates (SameMemory vfs) (writevFrom send false whole iov) (writevFrom send' false whole' iov) s t := by
  refine .bind (iovecsAreBorrowable_simulates iov h) fun borrowable s' t' h' => ?_
  refine .ite (fun _ => moveIovecs_simulates (fun iovec s t h => ?_) iov 0 h') fun _ =>
    moveIovecs_simulates (fun iovec s t h => ?_) iov 0 h'
  · refine .bind (borrowedBytes_simulates _ _ h) fun slice s' t' h' => ?_
    cases slice with
    | none => exact .throw _ h'
    | some bytes => exact hsend bytes s' t' h'
  · exact .bind (readBytes_simulates _ _ h) fun bytes s' t' h' => hsend bytes s' t' h'

omit [RuntimeMemoryAccess μ] in
theorem onVfs_simulates {α : Type} {call : VirtualFileSystem.Call α} {r : Except VfsError α}
    (hrun : call vfs = (r, vfs)) (h : SameMemory vfs s t) :
    Simulates (SameMemory vfs) (onVfs call : FsProg σ ω μ α)
      (.mapError vfsErrno (.ofExcept r) : FsProg σ' ω' μ α) s t := by
  unfold onVfs Simulates Prog.mapError Prog.zoom
  rw [h.1, hrun]
  cases r with
  | ok a => exact ⟨rfl, rfl, h.2⟩
  | error error => exact ⟨rfl, rfl, h.2⟩

def socketOf (file : Vfs.FileRef) : Option SocketId :=
  match file.inode.backend with
  | .socket id => if id = 0 then none else some id
  | _ => none

variable {fd : Fd} {entry : FdEntry}

theorem vfsSocketIdForFd_run {vfs : VirtualFileSystem} (hentry : vfs.fds.entries.get? fd = some entry) :
    vfsSocketIdForFd fd vfs = (match entry.file.inode.backend with
      | .socket id => .ok id
      | _ => .error .notSocket, vfs) := by
  have hok : vfs.fds.get fd = .ok entry := by simp [FdTable.get, hentry, Vfs.okOr]
  unfold vfsSocketIdForFd
  simp only [bind, Prog.get, hok, Prog.ofExcept, pure]
  cases entry.file.inode.backend <;> rfl

omit [RuntimeMemoryAccess μ] in
theorem socketIdForFdOrNone_run (hentry : s.vfs.fds.entries.get? fd = some entry) :
    socketIdForFdOrNone fd s = (.ok (socketOf entry.file), s) := by
  unfold socketIdForFdOrNone socketOf
  simp only [bind, Prog.get, vfsSocketIdForFd_run hentry]
  cases entry.file.inode.backend <;> rfl

variable (outside : Outside σ ω) {readiness : FdReadiness}

omit [RuntimeMemoryAccess μ] in
theorem receiveFrom_alike (hentry : vfs.fds.entries.get? fd = some entry)
    (hpoll : vfs.files.pollReadiness fd = .ok readiness) (hunready : readiness.ready false = false) :
    ReceiveAlike vfs (receiveFrom outside none fd : Nat → FsProg σ ω μ _) (fun len =>
      (.mapError vfsErrno (.ofExcept (stalledRead (vfs.shared.description entry.description).flags
        entry.file.kind len)) : FsProg σ' ω' μ _)) := by
  intro len s t h
  exact onVfs_simulates (VirtualFileSystem.read_stalled hentry hpoll hunready len) h

omit [RuntimeMemoryAccess μ] in
theorem sendTo_alike (hentry : vfs.fds.entries.get? fd = some entry)
    (hbounded : ∀ ref, (vfs.shared.pipe ref).state.available ≤ (vfs.shared.pipe ref).state.capacity)
    (hpoll : vfs.files.pollReadiness fd = .ok readiness) (hunready : readiness.ready true = false) :
    SendAlike vfs (sendTo outside none fd : List UInt8 → FsProg σ ω μ _) (fun bytes =>
      (.mapError vfsErrno (.ofExcept (stalledWrite (vfs.shared.description entry.description).flags
        entry.file.kind (vfs.files.counterOf entry.file) bytes)) : FsProg σ' ω' μ _)) := by
  intro bytes s t h
  exact onVfs_simulates (VirtualFileSystem.write_stalled hentry hbounded hpoll hunready bytes) h

theorem sysRead_stalled (hentry : vfs.fds.entries.get? fd = some entry) (hsocket : socketOf entry.file = none)
    (hpoll : vfs.files.pollReadiness fd = .ok readiness) (hunready : readiness.ready false = false)
    (counter : EventfdState) (addr len : Nat) (h : SameMemory vfs s t) :
    Simulates (SameMemory vfs) (sysRead outside fd addr len) (WaitingCall.onStalled
      (vfs.shared.description entry.description).flags entry.file.kind counter (.read addr len)) s t := by
  have hentry' : s.vfs.fds.entries.get? fd = some entry := by rw [h.1, hentry]
  refine .look (socketIdForFdOrNone_run hentry') ?_
  rw [hsocket]
  exact readInto_simulates (receiveFrom_alike outside hentry hpoll hunready) addr len h

theorem sysWrite_stalled (hentry : vfs.fds.entries.get? fd = some entry) (hsocket : socketOf entry.file = none)
    (hbounded : ∀ ref, (vfs.shared.pipe ref).state.available ≤ (vfs.shared.pipe ref).state.capacity)
    (hpoll : vfs.files.pollReadiness fd = .ok readiness) (hunready : readiness.ready true = false)
    (addr len : Nat) (h : SameMemory vfs s t) :
    Simulates (SameMemory vfs) (sysWrite outside fd addr len) (WaitingCall.onStalled
      (vfs.shared.description entry.description).flags entry.file.kind (vfs.files.counterOf entry.file)
      (.write addr len)) s t := by
  refine writeFrom_simulates (fun bytes s t h => ?_) addr len h
  have hentry' : s.vfs.fds.entries.get? fd = some entry := by rw [h.1, hentry]
  refine .look (socketIdForFdOrNone_run hentry') ?_
  rw [hsocket]
  exact sendTo_alike outside hentry hbounded hpoll hunready bytes s t h

theorem canRegularReadvFastPath_run (hentry : vfs.fds.entries.get? fd = some entry)
    (hpoll : vfs.files.pollReadiness fd = .ok readiness) (hunready : readiness.ready false = false) :
    canRegularReadvFastPath fd vfs = (if (vfs.shared.description entry.description).flags.canRead = false
      then .error .badFd else .ok false, vfs) := by
  have hok : vfs.fds.get fd = .ok entry := by simp [FdTable.get, hentry, Vfs.okOr]
  obtain ⟨hregular, hsymlink⟩ := VirtualFileSystem.unready_kind hentry hpoll hunready
  unfold canRegularReadvFastPath
  by_cases hread : (vfs.shared.description entry.description).flags.canRead = false
  · simp [bind, Prog.get, hok, Prog.ofExcept, pure, Vfs.failIf, hread, Prog.throw]
  · simp [bind, Prog.get, hok, Prog.ofExcept, pure, Vfs.failIf, hread, hregular, hsymlink]

theorem canRegularWritevFastPath_run (hentry : vfs.fds.entries.get? fd = some entry)
    (hpoll : vfs.files.pollReadiness fd = .ok readiness) (hunready : readiness.ready true = false) :
    canRegularWritevFastPath fd vfs = (if (vfs.shared.description entry.description).flags.canWrite = false
      then .error .badFd else .ok false, vfs) := by
  have hok : vfs.fds.get fd = .ok entry := by simp [FdTable.get, hentry, Vfs.okOr]
  rw [@Files.pollReadiness_eq vfs.files fd entry hentry] at hpoll
  unfold canRegularWritevFastPath
  by_cases hwrite : (vfs.shared.description entry.description).flags.canWrite = false
  · simp [bind, Prog.get, hok, Prog.ofExcept, pure, Vfs.failIf, hwrite, Prog.throw]
  · have hregular : entry.file.kind ≠ .regular := by
      intro hkind
      rw [hkind] at hpoll
      cases hpoll
      exact hwrite (by simpa [FdReadiness.ready, Files.description, VirtualFileSystem.files] using hunready)
    simp [bind, Prog.get, hok, Prog.ofExcept, pure, Vfs.failIf, hwrite, hregular]

omit [RuntimeMemoryAccess μ] in
theorem onVfs_run {α : Type} {call : VirtualFileSystem.Call α} {r : Except VfsError α}
    (hrun : call s.vfs = (r, s.vfs)) : onVfs call s = (r.mapError vfsErrno, s) := by
  unfold onVfs Prog.mapError Prog.zoom
  rw [hrun]
  cases r <;> rfl

omit [RuntimeMemoryAccess μ] in
/-- The check of the mode that the vectored calls make first, and what follows when it holds. -/
theorem checkMode_simulates {α : Type} {call : VirtualFileSystem.Call Bool} {flag : Bool}
    (hcall : call vfs = (if flag = false then .error .badFd else .ok false, vfs))
    {f : Bool → FsProg σ ω μ α} {g : Unit → FsProg σ' ω' μ α} (h : SameMemory vfs s t)
    (hrest : Simulates (SameMemory vfs) (f false) (g ()) s t) :
    Simulates (SameMemory vfs) (onVfs call >>= f)
      (.mapError vfsErrno (.ofExcept (Vfs.failIf (flag = false) .badFd)) >>= g) s t := by
  have hcall' : call s.vfs = (if flag = false then .error .badFd else .ok false, s.vfs) := by
    rw [h.1]
    exact hcall
  have hrun : onVfs call s = _ := onVfs_run hcall'
  by_cases hflag : flag = false
  · rw [if_pos hflag] at hrun
    have hstop : (Prog.mapError vfsErrno (.ofExcept (Vfs.failIf (flag = false) .badFd)) : FsProg σ' ω' μ Unit) t =
        (.error ebadf, t) := by
      rw [Vfs.failIf, if_pos hflag]
      rfl
    exact .stop hrun hstop h
  · rw [if_neg hflag] at hrun
    have hpass : (Prog.mapError vfsErrno (.ofExcept (Vfs.failIf (flag = false) .badFd)) : FsProg σ' ω' μ Unit) t =
        (.ok (), t) := by
      rw [Vfs.failIf, if_neg hflag]
      rfl
    exact .look hrun (.look_right hpass hrest)

theorem sysReadv_stalled (hentry : vfs.fds.entries.get? fd = some entry) (hsocket : socketOf entry.file = none)
    (hpoll : vfs.files.pollReadiness fd = .ok readiness) (hunready : readiness.ready false = false)
    (counter : EventfdState) (addr count : Nat) (h : SameMemory vfs s t) :
    Simulates (SameMemory vfs) (sysReadv outside fd addr count) (WaitingCall.onStalled
      (vfs.shared.description entry.description).flags entry.file.kind counter (.readv addr count)) s t := by
  refine .bind (readIovecs_simulates addr count h) fun iov s' t' h' => ?_
  have hentry' : s'.vfs.fds.entries.get? fd = some entry := by rw [h'.1, hentry]
  refine .look (socketIdForFdOrNone_run hentry') ?_
  rw [hsocket]
  exact checkMode_simulates (canRegularReadvFastPath_run hentry hpoll hunready) h'
    (readvInto_simulates (receiveFrom_alike outside hentry hpoll hunready) iov h')

theorem sysWritev_stalled (hentry : vfs.fds.entries.get? fd = some entry) (hsocket : socketOf entry.file = none)
    (hbounded : ∀ ref, (vfs.shared.pipe ref).state.available ≤ (vfs.shared.pipe ref).state.capacity)
    (hpoll : vfs.files.pollReadiness fd = .ok readiness) (hunready : readiness.ready true = false)
    (addr count : Nat) (h : SameMemory vfs s t) :
    Simulates (SameMemory vfs) (sysWritev outside fd addr count) (WaitingCall.onStalled
      (vfs.shared.description entry.description).flags entry.file.kind (vfs.files.counterOf entry.file)
      (.writev addr count)) s t := by
  refine .bind (readIovecs_simulates addr count h) fun iov s' t' h' => ?_
  have hentry' : s'.vfs.fds.entries.get? fd = some entry := by rw [h'.1, hentry]
  refine .look (socketIdForFdOrNone_run hentry') ?_
  rw [hsocket]
  exact checkMode_simulates (canRegularWritevFastPath_run hentry hpoll hunready) h'
    (writevFrom_simulates (sendTo_alike outside hentry hbounded hpoll hunready) iov h')

end Simulation

/-! ### Watches -/

section Watches

open Prog

/-- A watch has an event of its own: a number that is not open counts as hung up. -/
def watchReady (files : Files) (watch : EpollWatch) : Bool :=
  match files.pollReadiness watch.fd with
  | .error _ => true
  | .ok readiness =>
    readiness.readable && decide (watch.events &&& epollin ≠ 0) ||
    readiness.writable && decide (watch.events &&& epollout ≠ 0) || readiness.error || readiness.hangUp

def watchBase (files : Files) (watch : EpollWatch) : UInt16 :=
  match files.pollReadiness watch.fd with
  | .error _ => pollerr ||| pollhup
  | .ok readiness => pollReventsFromVfs readiness (epollEventsToPollEvents watch.events)

theorem pollReadiness_badFd {files : Files} {fd : Fd} {error : VfsError} (h : files.pollReadiness fd = .error error) :
    error = .badFd := by
  cases hentry : files.fds.entries.get? fd with
  | none =>
      have hget : files.fds.get fd = .error .badFd := by simp [FdTable.get, hentry, Vfs.okOr]
      rw [Files.pollReadiness, hget] at h
      cases h
      rfl
  | some entry =>
      have hpipe : ∀ e, Files.pipeRefOf entry.file = .error e → e = .badFd := by
        intro e he
        unfold Files.pipeRefOf at he
        split at he <;> cases he
        rfl
      have hevent : ∀ e, Files.eventfdRefOf entry.file = .error e → e = .badFd := by
        intro e he
        unfold Files.eventfdRefOf at he
        split at he <;> cases he
        rfl
      rw [Files.pollReadiness_eq hentry] at h
      cases hkind : entry.file.kind with
      | pipeRead | pipeWrite =>
          rw [hkind] at h
          simp only at h
          cases href : Files.pipeRefOf entry.file with
          | ok ref => rw [href] at h; cases h
          | error e => rw [href] at h; cases h; exact hpipe _ href
      | eventfd =>
          rw [hkind] at h
          simp only at h
          cases href : Files.eventfdRefOf entry.file with
          | ok ref => rw [href] at h; cases h
          | error e => rw [href] at h; cases h; exact hevent _ href
      | dev kind => rw [hkind] at h; cases kind <;> cases h
      | _ => rw [hkind] at h; cases h

theorem vfs_event_iff (readiness : FdReadiness) (events : UInt32) :
    pollReventsToEpollEvents (pollReventsFromVfs readiness (epollEventsToPollEvents events)) events ≠ 0 ↔
      (readiness.readable && decide (events &&& epollin ≠ 0) ||
        readiness.writable && decide (events &&& epollout ≠ 0) || readiness.error || readiness.hangUp) = true := by
  obtain ⟨readable, writable, hangUp, error⟩ := readiness
  unfold pollReventsToEpollEvents epollEventsToPollEvents
  by_cases hin : events &&& epollin = 0 <;> by_cases hout : events &&& epollout = 0 <;>
    by_cases hpri : events &&& epollpri = 0 <;>
    simp only [ne_eq, hin, hout, hpri, not_true_eq_false, not_false_eq_true] <;>
    revert readable writable hangUp error <;> decide

theorem vfs_revents_valid (readiness : FdReadiness) (events : UInt32) :
    pollReventsFromVfs readiness (epollEventsToPollEvents events) &&& pollnval = 0 := by
  obtain ⟨readable, writable, hangUp, error⟩ := readiness
  unfold epollEventsToPollEvents
  by_cases hin : events &&& epollin = 0 <;> by_cases hout : events &&& epollout = 0 <;>
    by_cases hpri : events &&& epollpri = 0 <;>
    simp only [ne_eq, hin, hout, hpri, not_true_eq_false, not_false_eq_true] <;>
    revert readable writable hangUp error <;> decide

theorem watchBase_event (files : Files) (watch : EpollWatch) :
    (epollEvent watch (watchBase files watch)).isSome = watchReady files watch := by
  unfold epollEvent watchBase watchReady
  cases hpoll : files.pollReadiness watch.fd with
  | error error =>
      have hhup : pollReventsToEpollEvents (pollerr ||| pollhup) watch.events ≠ 0 := by
        unfold pollReventsToEpollEvents
        simp only [show ¬((pollerr ||| pollhup) &&& pollin ≠ 0) by decide,
          show ¬((pollerr ||| pollhup) &&& pollout ≠ 0) by decide, show ¬((pollerr ||| pollhup) &&& pollpri ≠ 0) by decide,
          false_and, if_false]
        decide
      simp [hhup]
  | ok readiness =>
      have hiff := vfs_event_iff readiness watch.events
      by_cases hevents : pollReventsToEpollEvents
          (pollReventsFromVfs readiness (epollEventsToPollEvents watch.events)) watch.events = 0
      · have hfalse := mt hiff.mpr (not_not.mpr hevents)
        simp only [hevents, if_true]
        exact (Bool.eq_false_iff.mpr hfalse).symm
      · simp only [hevents, if_false]
        exact (hiff.mp hevents).symm

theorem anyWatchReady_eq (files : Files) (watches : List EpollWatch) :
    anyWatchReady files watches = .ok (watches.any (watchReady files)) := by
  induction watches with
  | nil => rfl
  | cons watch rest ih =>
      have hevent := watchBase_event files watch
      unfold anyWatchReady
      rw [ih, List.any_cons, ← hevent]
      unfold watchBase epollEvent
      cases hpoll : files.pollReadiness watch.fd with
      | error error =>
          rw [pollReadiness_badFd hpoll]
          simp only [bind, Except.bind]
          split <;> simp_all
      | ok readiness =>
          simp only [bind, Except.bind]
          split <;> simp_all

variable {σ ω μ : Type} {s : EventState σ ω μ} {watch : EpollWatch}

theorem onFiles_run {α : Type} {call : FsProg σ ω μ α} {r : Except LinuxErrno α}
    (hrun : call s.files = (r, s.files)) : onFiles call s = (r, s) := by
  unfold onFiles Prog.zoom
  rw [hrun]

/-- The socket a watch has the socket table asked about, for a watch that asks for something a socket can do. -/
def AsksSocket (fds : FdTable) (watch : EpollWatch) : Prop :=
  ∃ entry id, fds.entries.get? watch.fd = some entry ∧ entry.file.inode.backend = .socket id ∧
    (id = 0 ∨ (pollInterestToSocketEvents (epollEventsToPollEvents watch.events)).isEmpty = false)

theorem base_of_unasked {fd : Fd} {events : UInt16} (hfd : 0 ≤ fd)
    (hasks : ¬∃ entry id, s.files.vfs.fds.entries.get? fd = some entry ∧ entry.file.inode.backend = .socket id ∧
      (id = 0 ∨ (pollInterestToSocketEvents events).isEmpty = false)) :
    pollFdBaseReventsAndSocket fd events s =
      (.ok (match s.files.vfs.files.pollReadiness fd with
        | .error _ => pollnval
        | .ok readiness => pollReventsFromVfs readiness events, none), s) := by
  unfold pollFdBaseReventsAndSocket
  rw [if_neg (Int.not_lt.mpr hfd)]
  simp only [bind, Prog.get]
  cases hpoll : s.files.vfs.files.pollReadiness fd with
  | error error =>
      rw [pollReadiness_badFd hpoll]
      rfl
  | ok readiness =>
      simp only
      cases hentry : s.files.vfs.fds.entries.get? fd with
      | none =>
          have hget : s.files.vfs.files.fds.get fd = .error .badFd := by
            simp [FdTable.get, VirtualFileSystem.files, hentry, Vfs.okOr]
          rw [Files.pollReadiness, hget] at hpoll
          cases hpoll
      | some entry =>
          rw [vfsSocketIdForFd_run hentry]
          cases hbackend : entry.file.inode.backend with
          | socket id =>
              have hnone : ¬(id = 0 ∨ (pollInterestToSocketEvents events).isEmpty = false) := fun h =>
                hasks ⟨entry, id, hentry, hbackend, h⟩
              rw [not_or, Bool.not_eq_false] at hnone
              have hid : onFiles (socketIdForFd fd) s = (.ok id, s) := by
                apply onFiles_run
                have hfound : vfsSocketIdForFd fd s.files.vfs = (.ok id, s.files.vfs) := by
                  rw [vfsSocketIdForFd_run hentry, hbackend]
                have hraw : onVfs (vfsSocketIdForFd fd) s.files = _ := onVfs_run hfound
                unfold socketIdForFd
                rw [run_bind_ok hraw, if_neg hnone.1]
                rfl
              simp only [hid, hnone.2, if_true]
              rfl
          | _ => rfl

theorem watchBaseRevents_run (hfd : 0 ≤ watch.fd) (hasks : ¬AsksSocket s.files.vfs.fds watch) :
    watchBaseRevents watch s = (.ok (watchBase s.files.vfs.files watch, none), s) := by
  have hinvalid : pollnval &&& pollnval ≠ 0 := by decide
  unfold watchBaseRevents
  rw [run_bind_ok (base_of_unasked hfd hasks)]
  unfold watchBase
  cases s.files.vfs.files.pollReadiness watch.fd with
  | error error =>
      simp only
      rw [if_pos hinvalid]
      rfl
  | ok readiness =>
      simp only
      rw [if_neg (not_not.mpr (vfs_revents_valid readiness watch.events))]
      rfl

theorem collect_watchBase : ∀ {watches : List EpollWatch}, (∀ watch ∈ watches, 0 ≤ watch.fd) →
    (∀ watch ∈ watches, ¬AsksSocket s.files.vfs.fds watch) →
    Prog.collect watches watchBaseRevents s =
      (.ok (watches.map fun watch => (watchBase s.files.vfs.files watch, none)), s) := by
  intro watches
  induction watches with
  | nil =>
      intro _ _
      rfl
  | cons watch rest ih =>
      intro hfds hasks
      unfold Prog.collect
      rw [run_bind_ok (watchBaseRevents_run (hfds _ List.mem_cons_self) (hasks _ List.mem_cons_self)),
        run_bind_ok (ih (fun w hw => hfds w (List.mem_cons_of_mem _ hw)) fun w hw => hasks w (List.mem_cons_of_mem _ hw))]
      rfl

theorem socketSlots_unasked (watches : List EpollWatch) (bases : List UInt16) :
    socketSlots watches (bases.map fun revents => (revents, none)) = [] := by
  unfold socketSlots
  rw [List.filterMap_eq_nil_iff]
  rintro ⟨⟨watch, revents, socket⟩, index⟩ hmem
  have hpair := (List.of_mem_zip (List.fst_mem_of_mem_zipIdx hmem)).2
  obtain ⟨base, _, heq⟩ := List.mem_map.mp hpair
  cases heq
  rfl

variable (outside : Outside σ ω)

theorem epollWatchRevents_unasked (hfd : 0 ≤ watch.fd) (hasks : ¬AsksSocket s.files.vfs.fds watch)
    (timeout : Option Nat) :
    epollWatchRevents outside watch.fd (epollEventsToPollEvents watch.events) timeout s =
      (.ok (watchBase s.files.vfs.files watch), s) := by
  have hinvalid : pollnval &&& pollnval ≠ 0 := by decide
  unfold epollWatchRevents pollFdRevents
  rw [bind_assoc, run_bind_ok (base_of_unasked hfd hasks)]
  unfold watchBase
  cases s.files.vfs.files.pollReadiness watch.fd with
  | error error =>
      simp only [bind, pure]
      rw [if_pos hinvalid]
  | ok readiness =>
      simp only [bind, pure]
      rw [if_neg (not_not.mpr (vfs_revents_valid readiness watch.events))]

theorem epollReadyEvents_unasked {watches : List EpollWatch} (hfds : ∀ watch ∈ watches, 0 ≤ watch.fd)
    (hasks : ∀ watch ∈ watches, ¬AsksSocket s.files.vfs.fds watch) (maxevents : Nat) (timeout : Option Nat)
    (hmax : 0 < maxevents) :
    epollReadyEvents outside watches maxevents timeout s =
      (.ok ((watches.filterMap fun watch => epollEvent watch (watchBase s.files.vfs.files watch)).take maxevents), s) := by
  unfold epollReadyEvents
  split
  · rename_i watch
    rw [run_bind_ok (epollWatchRevents_unasked outside (hfds _ List.mem_cons_self) (hasks _ List.mem_cons_self) timeout)]
    cases hevent : epollEvent watch (watchBase s.files.vfs.files watch) with
    | none => simp [hevent, pure]
    | some event =>
        obtain ⟨n, rfl⟩ := Nat.exists_eq_succ_of_ne_zero (Nat.ne_of_gt hmax)
        simp [hevent, pure]
  · rw [run_bind_ok (collect_watchBase hfds hasks)]
    have hslots := socketSlots_unasked watches (watches.map (watchBase s.files.vfs.files))
    rw [List.map_map] at hslots
    have hslots' : socketSlots watches (watches.map fun watch => (watchBase s.files.vfs.files watch, none)) = [] := hslots
    have hpoll : ∀ hasReady revents, pollSocketSlots outside [] timeout hasReady revents s = (.ok revents, s) :=
      fun _ _ => rfl
    rw [hslots', run_bind_ok (hpoll _ _), List.map_map]
    have hzip : watches.zip (watches.map (Prod.fst ∘ fun watch =>
        (watchBase s.files.vfs.files watch, (none : Option (SocketId × SocketEvents))))) =
        watches.map fun watch => (watch, watchBase s.files.vfs.files watch) :=
      List.map_prod_left_eq_zip.symm
    rw [hzip, List.filterMap_map]
    rfl

theorem epollReadyEvents_quiet {watches : List EpollWatch} (hfds : ∀ watch ∈ watches, 0 ≤ watch.fd)
    (hunready : ∀ watch ∈ watches, watchReady s.files.vfs.files watch = false)
    (hasks : ∀ watch ∈ watches, ¬AsksSocket s.files.vfs.fds watch) (maxevents : Nat) (timeout : Option Nat)
    (hmax : 0 < maxevents) : epollReadyEvents outside watches maxevents timeout s = (.ok [], s) := by
  have hnone : (watches.filterMap fun watch => epollEvent watch (watchBase s.files.vfs.files watch)) = [] := by
    rw [List.filterMap_eq_nil_iff]
    intro watch hwatch
    have hevent := watchBase_event s.files.vfs.files watch
    rw [hunready watch hwatch] at hevent
    exact Option.not_isSome_iff_eq_none.mp (by rw [hevent]; decide)
  rw [epollReadyEvents_unasked outside hfds hasks maxevents timeout hmax, hnone, List.take_nil]

/-! ### Watches on sockets -/

theorem base_of_asked {fd : Fd} {events : UInt16} {entry : FdEntry} {id : Nat} (hfd : 0 ≤ fd)
    (hentry : s.files.vfs.fds.entries.get? fd = some entry) (hbackend : entry.file.inode.backend = .socket id)
    {readiness : FdReadiness} (hpoll : s.files.vfs.files.pollReadiness fd = .ok readiness)
    (hasked : id = 0 ∨ (pollInterestToSocketEvents events).isEmpty = false) :
    pollFdBaseReventsAndSocket fd events s =
      (if id = 0 then .error ebadf
        else .ok (pollReventsFromVfs readiness events, some (id, pollInterestToSocketEvents events)), s) := by
  have hfound : vfsSocketIdForFd fd s.files.vfs = (.ok id, s.files.vfs) := by
    rw [vfsSocketIdForFd_run hentry, hbackend]
  have hraw : onVfs (vfsSocketIdForFd fd) s.files = _ := onVfs_run hfound
  unfold pollFdBaseReventsAndSocket
  rw [if_neg (Int.not_lt.mpr hfd)]
  simp only [bind, Prog.get, hpoll]
  rw [vfsSocketIdForFd_run hentry, hbackend]
  by_cases hzero : id = 0
  · have hid : onFiles (socketIdForFd fd) s = (.error ebadf, s) := by
      apply onFiles_run
      unfold socketIdForFd
      rw [run_bind_ok hraw, if_pos hzero]
      rfl
    simp only [hid]
    rw [if_pos hzero]
  · have hid : onFiles (socketIdForFd fd) s = (.ok id, s) := by
      apply onFiles_run
      unfold socketIdForFd
      rw [run_bind_ok hraw, if_neg hzero]
      rfl
    have hevents := hasked.resolve_left hzero
    simp only [hid, hevents]
    rw [if_neg hzero]
    rfl

theorem epollBits_iff {p q r e h : Prop} [Decidable p] [Decidable q] [Decidable r] [Decidable e] [Decidable h] :
    (if p then epollin else 0) ||| (if q then epollout else 0) ||| (if r then epollpri else 0) |||
      (if e then epollerr else 0) ||| (if h then epollhup else 0) ≠ 0 ↔ p ∨ q ∨ r ∨ e ∨ h := by
  by_cases hp : p <;> by_cases hq : q <;> by_cases hr : r <;> by_cases he : e <;> by_cases hh : h <;>
    simp only [hp, hq, hr, he, hh, if_true, if_false] <;> decide

theorem and_ne_zero_of_or {revents bit : UInt16} (extra : UInt16) (h : revents &&& bit ≠ 0) :
    (revents ||| extra) &&& bit ≠ 0 := by
  intro hzero
  apply h
  rw [← UInt16.toBitVec_inj] at hzero ⊢
  ext i hi
  have hbit := congrArg (·.getLsbD i) hzero
  simp only [UInt16.toBitVec_and, UInt16.toBitVec_or, BitVec.getLsbD_and, BitVec.getLsbD_or] at hbit
  simp only [UInt16.toBitVec_and, ← BitVec.getLsbD_eq_getElem]
  cases hr : revents.toBitVec.getLsbD i <;> cases hb : bit.toBitVec.getLsbD i <;> simp_all

theorem epollEvent_or {revents : UInt16} (extra : UInt16) (h : (epollEvent watch revents).isSome = true) :
    (epollEvent watch (revents ||| extra)).isSome = true := by
  have hsome : ∀ revents, (epollEvent watch revents).isSome = true ↔
      pollReventsToEpollEvents revents watch.events ≠ 0 := by
    intro revents
    unfold epollEvent
    by_cases hevents : pollReventsToEpollEvents revents watch.events = 0 <;> simp [hevents]
  rw [hsome, pollReventsToEpollEvents, epollBits_iff] at h ⊢
  rcases h with ⟨h, hi⟩ | ⟨h, hi⟩ | ⟨h, hi⟩ | h | h
  · exact Or.inl ⟨and_ne_zero_of_or extra h, hi⟩
  · exact Or.inr (Or.inl ⟨and_ne_zero_of_or extra h, hi⟩)
  · exact Or.inr (Or.inr (Or.inl ⟨and_ne_zero_of_or extra h, hi⟩))
  · exact Or.inr (Or.inr (Or.inr (Or.inl (and_ne_zero_of_or extra h))))
  · exact Or.inr (Or.inr (Or.inr (Or.inr (and_ne_zero_of_or extra h))))

theorem base_spec {fd : Fd} {events : UInt16} (hfd : 0 ≤ fd) :
    wp (pollFdBaseReventsAndSocket fd events)
      (fun answer s' => s' = s ∧ answer.1 = (match s.files.vfs.files.pollReadiness fd with
        | .error _ => pollnval
        | .ok readiness => pollReventsFromVfs readiness events) ∧
        ((∃ entry id, s.files.vfs.fds.entries.get? fd = some entry ∧ entry.file.inode.backend = .socket id ∧
          (id = 0 ∨ (pollInterestToSocketEvents events).isEmpty = false)) →
          s.files.vfs.files.pollReadiness fd ≠ .error .badFd → answer.2.isSome = true))
      (fun error _ => error = ebadf) s := by
  by_cases hasks : ∃ entry id, s.files.vfs.fds.entries.get? fd = some entry ∧ entry.file.inode.backend = .socket id ∧
      (id = 0 ∨ (pollInterestToSocketEvents events).isEmpty = false)
  · cases hpoll : s.files.vfs.files.pollReadiness fd with
    | error error =>
        have hrun : pollFdBaseReventsAndSocket fd events s = (.ok (pollnval, none), s) := by
          unfold pollFdBaseReventsAndSocket
          rw [if_neg (Int.not_lt.mpr hfd)]
          simp only [bind, Prog.get, hpoll]
          rw [pollReadiness_badFd hpoll]
          rfl
        refine wp_of_run hrun ⟨rfl, rfl, fun _ hne => ?_⟩
        rw [pollReadiness_badFd hpoll] at hne
        exact absurd rfl hne
    | ok readiness =>
        obtain ⟨entry, id, hentry, hbackend, hasked⟩ := hasks
        have hrun := base_of_asked hfd hentry hbackend hpoll hasked
        by_cases hzero : id = 0
        · rw [if_pos hzero] at hrun
          exact wp_of_error hrun rfl
        · rw [if_neg hzero] at hrun
          exact wp_of_run hrun ⟨rfl, rfl, fun _ _ => rfl⟩
  · exact wp_of_run (base_of_unasked hfd hasks) ⟨rfl, rfl, fun h => absurd h hasks⟩

theorem watchBaseRevents_spec (hfd : 0 ≤ watch.fd) :
    wp (watchBaseRevents watch)
      (fun answer s' => s' = s ∧ answer.1 = watchBase s.files.vfs.files watch ∧
        (AsksSocket s.files.vfs.fds watch → s.files.vfs.files.pollReadiness watch.fd ≠ .error .badFd →
          answer.2.isSome = true))
      (fun error _ => error = ebadf) s := by
  have hinvalid : pollnval &&& pollnval ≠ 0 := by decide
  unfold watchBaseRevents
  rw [wp_bind]
  refine wp_mono (base_spec hfd) (fun answer s' h => ?_) fun _ _ h => h
  obtain ⟨rfl, hrevents, hasked⟩ := h
  rw [wp_pure]
  refine ⟨rfl, ?_, hasked⟩
  unfold watchBase
  simp only
  rw [hrevents]
  cases s'.files.vfs.files.pollReadiness watch.fd with
  | error error => exact if_pos hinvalid
  | ok readiness => exact if_neg (not_not.mpr (vfs_revents_valid readiness watch.events))

/-- Every entry of a list of returned events has at least its old bits. -/
def GrownRevents (revents revents' : List UInt16) : Prop :=
  ∀ (i : Nat) (old : UInt16), revents[i]? = some old → ∃ extra, revents'[i]? = some (old ||| extra)

theorem grown_foldl (answers : List (SocketPollSlot × SocketEvents)) : ∀ revents, GrownRevents revents
    (answers.foldl (fun revents answer =>
      revents.modify answer.1.index (· ||| pollReventsFromSocketEvents answer.2 answer.1.pollEvents)) revents) := by
  induction answers with
  | nil =>
      intro revents i old hold
      exact ⟨0, by simpa using hold⟩
  | cons answer rest ih =>
      intro revents i old hold
      rw [List.foldl_cons]
      by_cases hi : answer.1.index = i
      · have hmodified : (revents.modify answer.1.index
            (· ||| pollReventsFromSocketEvents answer.2 answer.1.pollEvents))[i]? =
            some (old ||| pollReventsFromSocketEvents answer.2 answer.1.pollEvents) := by
          rw [List.getElem?_modify, hold, Option.map_eq_map, Option.map_some, if_pos hi]
        obtain ⟨extra, hextra⟩ := ih _ i _ hmodified
        exact ⟨_, by rw [hextra, UInt16.or_assoc]⟩
      · have hsame : (revents.modify answer.1.index
            (· ||| pollReventsFromSocketEvents answer.2 answer.1.pollEvents))[i]? = some old := by
          rw [List.getElem?_modify, hold, Option.map_eq_map, Option.map_some, if_neg hi]
        exact ih _ i old hsame

theorem pollSocketSlots_grows (slots : List SocketPollSlot) (timeout : Option Nat) (hasReady : Bool)
    (revents : List UInt16) :
    wp (pollSocketSlots outside slots timeout hasReady revents) (fun revents' _ => GrownRevents revents revents')
      (fun _ _ => True) s := by
  unfold pollSocketSlots
  by_cases hslots : slots.isEmpty = true
  · rw [if_pos hslots, wp_pure]
    exact grown_foldl [] revents
  · rw [if_neg hslots, wp_bind]
    refine wp_iff.mpr ⟨fun readiness s' _ => ?_, fun _ _ _ => trivial⟩
    rw [wp_pure]
    exact grown_foldl (slots.zip readiness) revents

theorem event_of_ready {watches : List EpollWatch} {polled : List (UInt16 × Option (SocketId × SocketEvents))}
    {revents : List UInt16} {files : Files} {P : EpollWatch → UInt16 × Option (SocketId × SocketEvents) → Prop}
    (hpolled : List.Forall₂ (fun watch answer => answer.1 = watchBase files watch ∧ P watch answer) watches polled)
    (hgrown : GrownRevents (polled.map Prod.fst) revents) (hmem : watch ∈ watches)
    (hready : watchReady files watch = true) :
    (watches.zip revents).filterMap (fun (watch, revents) => epollEvent watch revents) ≠ [] := by
  obtain ⟨i, hi, hwatch⟩ := List.getElem_of_mem hmem
  have hlength := hpolled.length_eq
  have hi' : i < polled.length := hlength ▸ hi
  have hbase := (hpolled.get hi hi').1
  obtain ⟨extra, hextra⟩ := hgrown i (watchBase files watch) (by
    rw [List.getElem?_map, List.getElem?_eq_getElem hi']
    simpa [hwatch] using hbase)
  obtain ⟨hi'', hvalue⟩ := List.getElem?_eq_some_iff.mp hextra
  have hsome : (epollEvent watch (watchBase files watch ||| extra)).isSome = true :=
    epollEvent_or extra ((watchBase_event files watch).trans hready)
  obtain ⟨event, hevent⟩ := Option.isSome_iff_exists.mp hsome
  have hpair : (watch, watchBase files watch ||| extra) ∈ watches.zip revents := by
    rw [List.mem_iff_getElem]
    refine ⟨i, by rw [List.length_zip]; omega, ?_⟩
    rw [List.getElem_zip, hwatch, hvalue]
  intro hnil
  have hevents : event ∈ (watches.zip revents).filterMap fun (watch, revents) => epollEvent watch revents :=
    List.mem_filterMap.mpr ⟨_, hpair, hevent⟩
  rw [hnil] at hevents
  exact nomatch hevents

theorem hangUp_event (watch : EpollWatch) : (epollEvent watch (pollerr ||| pollhup)).isSome = true := by
  have hbits : pollReventsToEpollEvents (pollerr ||| pollhup) watch.events ≠ 0 := by
    rw [pollReventsToEpollEvents, epollBits_iff]
    exact Or.inr (Or.inr (Or.inr (Or.inl (by decide))))
  simp [epollEvent, hbits]

theorem event_of_polled {files : Files} {revents : UInt16} (extra : UInt16)
    (hrevents : revents = (match files.pollReadiness watch.fd with
      | .error _ => pollnval
      | .ok readiness => pollReventsFromVfs readiness (epollEventsToPollEvents watch.events)))
    (hready : watchReady files watch = true) :
    (epollEvent watch (if (revents ||| extra) &&& pollnval ≠ 0 then pollerr ||| pollhup
      else revents ||| extra)).isSome = true := by
  by_cases hinvalid : (revents ||| extra) &&& pollnval ≠ 0
  · rw [if_pos hinvalid]
    exact hangUp_event watch
  · rw [if_neg hinvalid]
    apply epollEvent_or
    rw [← hready, ← watchBase_event]
    unfold watchBase
    cases hpoll : files.pollReadiness watch.fd with
    | ok readiness =>
        rw [hpoll] at hrevents
        rw [hrevents]
    | error error =>
        rw [hpoll] at hrevents
        exact absurd (and_ne_zero_of_or extra (hrevents ▸ (by decide : pollnval &&& pollnval ≠ 0))) hinvalid

/-- A watch that the file system finds ready is reported, unless asking the sockets fails. -/
theorem epollReadyEvents_ready {watches : List EpollWatch} (hfds : ∀ watch ∈ watches, 0 ≤ watch.fd)
    (maxevents : Nat) (timeout : Option Nat) (hmax : 0 < maxevents) (hmem : watch ∈ watches)
    (hready : watchReady s.files.vfs.files watch = true) :
    wp (epollReadyEvents outside watches maxevents timeout) (fun ready _ => ready ≠ []) (fun _ _ => True) s := by
  unfold epollReadyEvents
  split
  · rename_i only
    cases List.mem_singleton.mp hmem
    unfold epollWatchRevents pollFdRevents
    rw [wp_bind, wp_bind, wp_bind]
    refine wp_mono (base_spec (hfds _ List.mem_cons_self)) (fun answer s' h => ?_) fun _ _ _ => trivial
    obtain ⟨revents, socket⟩ := answer
    obtain ⟨rfl, hrevents, _⟩ := h
    have hevent := fun extra => Option.isSome_iff_exists.mp (event_of_polled extra hrevents hready)
    cases socket with
    | none =>
        obtain ⟨event, hevent⟩ := hevent 0
        rw [UInt16.or_zero] at hevent
        simp only at hevent ⊢
        rw [wp_pure, wp_pure, wp_pure, hevent]
        exact List.cons_ne_nil _ _
    | some asked =>
        simp only
        rw [wp_bind]
        refine wp_iff.mpr ⟨fun readiness s'' _ => ?_, fun _ _ _ => trivial⟩
        obtain ⟨event, hevent⟩ := hevent (pollReventsFromSocketEvents readiness (epollEventsToPollEvents watch.events))
        rw [wp_pure, wp_pure, wp_pure, hevent]
        exact List.cons_ne_nil _ _
  · rw [wp_bind]
    refine wp_mono (wp_collect_looks watches fun w hw => watchBaseRevents_spec (hfds w hw)) (fun polled s' h => ?_)
      fun _ _ _ => trivial
    obtain ⟨rfl, hpolled⟩ := h
    simp only
    rw [wp_bind]
    refine wp_mono (pollSocketSlots_grows outside _ _ _ _) (fun revents _ hgrown => ?_) fun _ _ h => h
    rw [wp_pure]
    have hevents := event_of_ready hpolled hgrown hmem hready
    intro hnil
    rw [List.take_eq_nil_iff] at hnil
    exact hnil.elim (fun h => absurd h (Nat.ne_of_gt hmax)) hevents

/-! ### Sockets the table has forgotten -/

def NoSockets (s : EventState σ ω μ) : Prop := ∀ id, s.files.net.table.sockets.get? id = none

theorem requireOpen_unknown {net : NetState σ ω} {id : SocketId} (h : net.table.sockets.get? id = none) :
    Net.requireOpen id net = (.error (.badSocket id), net) := by
  unfold Net.requireOpen Net.getSocket
  simp only [bind, Prog.get, h, Prog.throw]

theorem poll_unknown (h : NoSockets s) (id : SocketId) (interest : SocketEvents) (timeout : Option Nat) :
    onFiles (onNet (Net.poll outside.net id interest timeout)) s = (.error ebadf, s) := by
  have hrun : Net.poll outside.net id interest timeout s.files.net = (.error (.badSocket id), s.files.net) := by
    unfold Net.poll
    exact run_bind_error (requireOpen_unknown (h id))
  unfold onFiles onNet Prog.zoom Prog.mapError
  simp only [hrun]
  rfl

theorem pollMany_unknown (h : NoSockets s) {requests : List (SocketId × SocketEvents)} (hrequests : requests ≠ [])
    (timeout : Option Nat) :
    onFiles (onNet (Net.pollMany outside.net requests timeout)) s = (.error ebadf, s) := by
  obtain ⟨⟨id, interest⟩, rest, rfl⟩ := List.exists_cons_of_ne_nil hrequests
  have hplace : Net.placeRequest outside.net (id, interest) s.files.net = (.error (.badSocket id), s.files.net) := by
    unfold Net.placeRequest
    exact run_bind_error (requireOpen_unknown (h id))
  have hrun : Net.pollMany outside.net ((id, interest) :: rest) timeout s.files.net =
      (.error (.badSocket id), s.files.net) := by
    unfold Net.pollMany Prog.collect
    exact run_bind_error (run_bind_error hplace)
  unfold onFiles onNet Prog.zoom Prog.mapError
  simp only [hrun]
  rfl

theorem socketSlots_ne_nil {watches : List EpollWatch} {polled : List (UInt16 × Option (SocketId × SocketEvents))}
    {P : EpollWatch → UInt16 × Option (SocketId × SocketEvents) → Prop} (hpolled : List.Forall₂ P watches polled)
    (hmem : watch ∈ watches) (hsome : ∀ answer, P watch answer → answer.2.isSome = true) :
    socketSlots watches polled ≠ [] := by
  obtain ⟨i, hi, hwatch⟩ := List.getElem_of_mem hmem
  have hi' : i < polled.length := hpolled.length_eq ▸ hi
  have hP := hpolled.get hi hi'
  obtain ⟨asked, hasked⟩ := Option.isSome_iff_exists.mp (hsome polled[i] (by simpa [hwatch] using hP))
  have hpair : ((watch, polled[i]), i) ∈ (watches.zip polled).zipIdx := by
    rw [List.mem_zipIdx_iff_getElem?, List.getElem?_eq_getElem (by rw [List.length_zip]; omega), List.getElem_zip, hwatch]
  intro hnil
  have hnone := List.filterMap_eq_nil_iff.mp hnil _ hpair
  simp [hasked] at hnone

/-- Where nothing is ready, a watch on a socket that the table has forgotten makes the call fail. -/
theorem epollReadyEvents_unknown (h : NoSockets s) {watches : List EpollWatch} (hfds : ∀ watch ∈ watches, 0 ≤ watch.fd)
    (hunready : ∀ watch ∈ watches, watchReady s.files.vfs.files watch = false) (hmem : watch ∈ watches)
    (hasks : AsksSocket s.files.vfs.fds watch) (maxevents : Nat) (timeout : Option Nat) :
    (epollReadyEvents outside watches maxevents timeout s).1 = .error ebadf := by
  have hopen : s.files.vfs.files.pollReadiness watch.fd ≠ .error .badFd := by
    intro hpoll
    have hready := hunready watch hmem
    rw [watchReady, hpoll] at hready
    cases hready
  have hwp : wp (epollReadyEvents outside watches maxevents timeout) (fun _ _ => False) (fun error _ => error = ebadf) s := by
    unfold epollReadyEvents
    split
    · rename_i only
      cases List.mem_singleton.mp hmem
      unfold epollWatchRevents pollFdRevents
      rw [wp_bind, wp_bind, wp_bind]
      refine wp_mono (base_spec (hfds _ List.mem_cons_self)) (fun answer s' hanswer => ?_) fun _ _ he => he
      obtain ⟨revents, socket⟩ := answer
      obtain ⟨rfl, _, hsocket⟩ := hanswer
      obtain ⟨asked, rfl⟩ := Option.isSome_iff_exists.mp (hsocket hasks hopen)
      simp only
      rw [wp_bind]
      exact wp_of_error (poll_unknown outside h _ _ _) rfl
    · rw [wp_bind]
      refine wp_mono (wp_collect_looks watches fun w hw => watchBaseRevents_spec (hfds w hw)) (fun polled s' hanswer => ?_)
        fun _ _ he => he
      obtain ⟨rfl, hpolled⟩ := hanswer
      simp only
      have hslots := socketSlots_ne_nil hpolled hmem fun answer hP => hP.2 hasks hopen
      have hempty : (socketSlots watches polled).isEmpty = false := by
        simpa [List.isEmpty_iff] using hslots
      rw [wp_bind]
      unfold pollSocketSlots
      rw [hempty, if_neg (by decide), wp_bind]
      exact wp_of_error (pollMany_unknown outside h (by simpa using hslots) _) rfl
  rcases hrun : epollReadyEvents outside watches maxevents timeout s with ⟨r, s'⟩
  cases r with
  | ok ready => exact (wp_ok hwp hrun).elim
  | error error =>
      have herror := wp_error hwp hrun
      rw [herror]

/-! ### `epoll_wait` -/

variable [RuntimeMemoryAccess μ] {epfd : Fd} {id : Nat} {epoll : EpollInstance} {addr maxevents : Nat}
  {timeout : Option Nat}

/-- The state in which `epoll_wait` polls: the instance has remembered its list. -/
def afterCachedWatches (s : EventState σ ω μ) (id : Nat) (epoll : EpollInstance) : EventState σ ω μ :=
  { s with epolls := { s.epolls with instances := s.epolls.instances.insert id epoll.takeCachedWatches.2 } }

theorem epollWait_run (hmax : ¬(maxevents = 0 ∨ maxEpollEvents < maxevents))
    (hid : epollIdForFd s.files.vfs.fds epfd = .ok id) (hepoll : s.epolls.instances.get? id = some epoll) :
    epollWait outside epfd addr maxevents timeout s = (do
      let probed ← epollReadyEvents outside epoll.watches.values maxevents (some 0)
      if probed.isEmpty ∧ timeout = none then .throw .wouldBlock
      else do
        let ready ← if probed.isEmpty ∧ timeout ≠ some 0 then
            epollReadyEvents outside epoll.watches.values maxevents timeout
          else pure probed
        onFiles (writeEpollEvents addr ready)
        pure ready.length : EventProg σ ω μ Nat) (afterCachedWatches s id epoll) := by
  have hcached : s.epolls.cachedWatches id = .ok (epoll.watches.values,
      { s.epolls with instances := s.epolls.instances.insert id epoll.takeCachedWatches.2 }) := by
    unfold EpollRegistry.cachedWatches
    rw [hepoll, ← EpollInstance.takeCachedWatches_fst]
  unfold epollWait
  rw [if_neg hmax]
  simp only [bind, Prog.get, hid, hcached, Prog.mapError, Prog.ofExcept, pure, Prog.modify]
  rfl

theorem epollWait_refused (h : maxevents = 0 ∨ maxEpollEvents < maxevents ∨
    (∀ id, epollIdForFd s.files.vfs.fds epfd ≠ .ok id)) :
    (epollWait outside epfd addr maxevents timeout s).1 ≠ .error .wouldBlock := by
  unfold epollWait
  by_cases hmax : maxevents = 0 ∨ maxEpollEvents < maxevents
  · rw [if_pos hmax]
    intro heq
    cases heq
  · rw [if_neg hmax]
    cases hid : epollIdForFd s.files.vfs.fds epfd with
    | ok id =>
        rw [not_or] at hmax
        exact absurd hid ((h.resolve_left hmax.1).resolve_left hmax.2 id)
    | error error =>
        have herror : error = .badFd := by
          unfold epollIdForFd FdTable.get Vfs.okOr at hid
          cases hentry : s.files.vfs.fds.entries.get? epfd with
          | none =>
              rw [hentry] at hid
              cases hid
              rfl
          | some entry =>
              rw [hentry] at hid
              simp only [bind, Except.bind] at hid
              split at hid <;> cases hid
              rfl
        simp only [bind, Prog.get, hid, Prog.mapError, Prog.ofExcept, Prog.throw, herror]
        intro heq
        cases heq

theorem epollWait_waits (hmax : ¬(maxevents = 0 ∨ maxEpollEvents < maxevents))
    (hid : epollIdForFd s.files.vfs.fds epfd = .ok id) (hepoll : s.epolls.instances.get? id = some epoll)
    (hunready : ∀ watch ∈ epoll.watches.values, watchReady s.files.vfs.files watch = false)
    (hasks : ∀ watch ∈ epoll.watches.values, ¬AsksSocket s.files.vfs.fds watch) :
    (epollWait outside epfd addr maxevents timeout s).1 =
      if timeout = none then .error .wouldBlock else .ok 0 := by
  have hfds : ∀ watch ∈ epoll.watches.values, 0 ≤ watch.fd := fun _ h => EpollInstance.fd_nonneg h
  have hpoll : ∀ timeout, epollReadyEvents outside epoll.watches.values maxevents timeout (afterCachedWatches s id epoll) =
      (.ok [], afterCachedWatches s id epoll) := fun timeout =>
    epollReadyEvents_quiet outside (s := afterCachedWatches s id epoll) hfds hunready hasks maxevents timeout (by omega)
  rw [epollWait_run outside hmax hid hepoll, run_bind_ok (hpoll _)]
  by_cases htimeout : timeout = none
  · rw [if_pos htimeout, if_pos ⟨rfl, htimeout⟩]
    rfl
  · rw [if_neg htimeout, if_neg fun h => htimeout h.2]
    by_cases hzero : timeout ≠ some 0
    · rw [if_pos ⟨rfl, hzero⟩, run_bind_ok (hpoll _)]
      rfl
    · rw [if_neg fun h => hzero h.2]
      rfl

theorem epollWait_missing (hmax : ¬(maxevents = 0 ∨ maxEpollEvents < maxevents))
    (hid : epollIdForFd s.files.vfs.fds epfd = .ok id) (hepoll : s.epolls.instances.get? id = none) :
    (epollWait outside epfd addr maxevents timeout s).1 = .error ebadf := by
  have hcached : s.epolls.cachedWatches id = .error ebadf := by
    unfold EpollRegistry.cachedWatches
    rw [hepoll]
  unfold epollWait
  rw [if_neg hmax]
  simp only [bind, Prog.get, hid, hcached, Prog.mapError, Prog.ofExcept, pure, Prog.throw]

theorem epollWait_unknown (h : NoSockets s) (hmax : ¬(maxevents = 0 ∨ maxEpollEvents < maxevents))
    (hid : epollIdForFd s.files.vfs.fds epfd = .ok id) (hepoll : s.epolls.instances.get? id = some epoll)
    (hunready : ∀ watch ∈ epoll.watches.values, watchReady s.files.vfs.files watch = false)
    (hmem : watch ∈ epoll.watches.values) (hasks : AsksSocket s.files.vfs.fds watch) :
    (epollWait outside epfd addr maxevents timeout s).1 = .error ebadf := by
  have hfds : ∀ watch ∈ epoll.watches.values, 0 ≤ watch.fd := fun _ h => EpollInstance.fd_nonneg h
  have hpoll := epollReadyEvents_unknown outside (s := afterCachedWatches s id epoll) h hfds hunready hmem hasks
    maxevents (some 0)
  rw [epollWait_run outside hmax hid hepoll, run_bind_error (run_eq hpoll)]

/-! ### Transfers on a socket the table has forgotten -/

theorem readBytes_refuses (addr len : Nat) (t : RuntimeFileSystem σ ω μ) :
    wp (readBytes addr len) (fun _ t' => t' = t) (fun error _ => error ≠ .wouldBlock) t := by
  unfold readBytes
  rw [wp_bind, wp_get]
  split
  · exact (wp_pure _).mpr rfl
  · exact (wp_throw _).mpr (by decide)

theorem borrowedBytes_refuses (addr len : Nat) (t : RuntimeFileSystem σ ω μ) :
    wp (borrowedBytes addr len) (fun _ t' => t' = t) (fun error _ => error ≠ .wouldBlock) t := by
  unfold borrowedBytes
  rw [wp_bind, wp_get]
  split
  · exact (wp_pure _).mpr rfl
  · exact (wp_throw _).mpr (by decide)

theorem readIovecs_refuses (addr count : Nat) (t : RuntimeFileSystem σ ω μ) :
    wp (readIovecs addr count) (fun _ t' => t' = t) (fun error _ => error ≠ .wouldBlock) t := by
  unfold readIovecs
  by_cases hcount : linuxIovMax < count
  · rw [if_pos hcount]
    exact (wp_throw _).mpr (by decide)
  · rw [if_neg hcount]
    refine wp_mono (wp_collect_looks (P := fun _ _ => True) _ fun index _ => ?_) (fun _ _ h => h.1) fun _ _ h => h
    by_cases haddr : Vfs.u64Limit ≤ addr + index * 16
    · rw [if_pos haddr]
      exact (wp_throw _).mpr (by decide)
    · rw [if_neg haddr, wp_bind]
      exact wp_mono (readBytes_refuses _ 16 t) (fun _ _ h => (wp_pure _).mpr ⟨h, trivial⟩) fun _ _ h => h

theorem borrowedIovecSlices_refuses (iov : List LinuxIovec) (t : RuntimeFileSystem σ ω μ) :
    wp (borrowedIovecSlices iov) (fun _ t' => t' = t) (fun error _ => error ≠ .wouldBlock) t := by
  induction iov with
  | nil => exact (wp_pure _).mpr rfl
  | cons iovec rest ih =>
      unfold borrowedIovecSlices
      rw [wp_bind]
      refine wp_mono (borrowedBytes_refuses _ _ t) (fun slice t' h => ?_) fun _ _ h => h
      subst h
      cases slice with
      | none => exact (wp_pure _).mpr rfl
      | some bytes =>
          simp only
          rw [wp_bind]
          refine wp_mono ih (fun slices t' h => ?_) fun _ _ h => h
          subst h
          cases slices <;> exact (wp_pure _).mpr rfl

theorem readIovecBuffers_refuses (iov : List LinuxIovec) (t : RuntimeFileSystem σ ω μ) :
    wp (readIovecBuffers iov) (fun _ t' => t' = t) (fun error _ => error ≠ .wouldBlock) t :=
  wp_mono (wp_collect_looks (P := fun _ _ => True) iov fun _ _ =>
    wp_mono (readBytes_refuses _ _ t) (fun _ _ h => ⟨h, trivial⟩) fun _ _ h => h) (fun _ _ h => h.1) fun _ _ h => h

omit [RuntimeMemoryAccess μ] in
theorem onNet_unknown {α : Type} {call : Net.TableProg σ ω α} {t : RuntimeFileSystem σ ω μ} {id : SocketId}
    (hrun : call t.net = (.error (.badSocket id), t.net)) : onNet call t = (.error ebadf, t) := by
  unfold onNet Prog.mapError Prog.zoom
  rw [hrun]
  rfl

omit [RuntimeMemoryAccess μ] in
theorem getSocket_unknown {net : NetState σ ω} {id : SocketId} (h : net.table.sockets.get? id = none) :
    Net.getSocket id net = (.error (.badSocket id), net) := by
  unfold Net.getSocket
  simp only [bind, Prog.get, h, Prog.throw]

omit [RuntimeMemoryAccess μ] in
theorem onSocket_unknown {t : RuntimeFileSystem σ ω μ} {id : SocketId} (h : t.net.table.sockets.get? id = none) :
    (∀ len, onNet (Net.recvConnected outside.net id len) t = (.error ebadf, t)) ∧
    (∀ lens, onNet (Net.recvConnectedVectored outside.net id lens) t = (.error ebadf, t)) ∧
    (∀ bytes, onNet (Net.sendConnected outside.sends id bytes) t = (.error ebadf, t)) ∧
    (∀ buffers, onNet (Net.sendConnectedVectored outside.sends id buffers) t = (.error ebadf, t)) :=
  ⟨fun _ => onNet_unknown (run_bind_error (getSocket_unknown h)),
    fun _ => onNet_unknown (run_bind_error (getSocket_unknown h)),
    fun _ => onNet_unknown (run_bind_error (getSocket_unknown h)),
    fun _ => onNet_unknown (run_bind_error (getSocket_unknown h))⟩

end Watches

end Mcr.Runtime
