import Mcr.Runtime.Transfers

/-!
# Epoll instances and readiness

An epoll instance is a map from descriptor numbers to watches; the registry of all instances is one for all
processes. A wait looks each watched number up in the descriptor table of the process that waits, asks the
virtual file system for the readiness of what it finds there, and the socket table when it is a socket.
-/

namespace Mcr.Runtime

open Vfs (Fd VfsError VirtualFileSystem u64Limit)
open Vfs.Files (FdReadiness)
open Net (LinuxErrno SocketEvents SocketId)

/-! ### The registry -/

structure EpollWatch where
  fd : Fd
  events : UInt32
  data : Nat
deriving DecidableEq, Repr

/-- A watch is filed under its own number, which is not negative, and the cached list is the list of the
watches. -/
structure EpollInstance where
  watches : SortedMap Fd EpollWatch
  cachedWatches : Option (List EpollWatch)
  watchGeneration : UInt64
  cachedWatchGeneration : UInt64
  keyed : ∀ fd watch, watches.get? fd = some watch → watch.fd = fd ∧ 0 ≤ fd
  cached : ∀ list, cachedWatches = some list → list = watches.values

namespace EpollInstance

def empty : EpollInstance where
  watches := .empty
  cachedWatches := none
  watchGeneration := 0
  cachedWatchGeneration := 0
  keyed _ _ h := by simp at h
  cached _ h := nomatch h

/-- `bump_watch_generation`, after the watches were changed. -/
def changed (epoll : EpollInstance) (watches : SortedMap Fd EpollWatch)
    (keyed : ∀ fd watch, watches.get? fd = some watch → watch.fd = fd ∧ 0 ≤ fd) : EpollInstance where
  watches := watches
  cachedWatches := none
  watchGeneration := epoll.watchGeneration + 1
  cachedWatchGeneration := epoll.cachedWatchGeneration
  keyed := keyed
  cached _ h := nomatch h

/-- `cached_watches`: the list, and the instance that remembers it. -/
def takeCachedWatches (epoll : EpollInstance) : List EpollWatch × EpollInstance :=
  match epoll.cachedWatches, decide (epoll.cachedWatchGeneration = epoll.watchGeneration) with
  | some watches, true => (watches, epoll)
  | _, _ =>
    (epoll.watches.values,
      { epoll with
        cachedWatches := some epoll.watches.values
        cachedWatchGeneration := epoll.watchGeneration
        cached := fun _ h => (Option.some.inj h).symm })

theorem takeCachedWatches_fst (epoll : EpollInstance) : epoll.takeCachedWatches.1 = epoll.watches.values := by
  unfold takeCachedWatches
  split
  · rename_i watches hcached _
    exact epoll.cached watches hcached
  · rfl

theorem fd_nonneg {epoll : EpollInstance} {watch : EpollWatch} (h : watch ∈ epoll.watches.values) : 0 ≤ watch.fd := by
  obtain ⟨fd, hget⟩ := SortedMap.mem_values.mp h
  obtain ⟨heq, hnonneg⟩ := epoll.keyed fd watch hget
  exact heq ▸ hnonneg

end EpollInstance

structure EpollRegistry where
  nextId : Nat
  instances : SortedMap Nat EpollInstance

namespace EpollRegistry

def new : EpollRegistry := ⟨0, .empty⟩

def cachedWatches (epolls : EpollRegistry) (id : Nat) : Except LinuxErrno (List EpollWatch × EpollRegistry) :=
  match epolls.instances.get? id with
  | none => .error ebadf
  | some epoll =>
    .ok (epoll.takeCachedWatches.1,
      { epolls with instances := epolls.instances.insert id epoll.takeCachedWatches.2 })

def watches (epolls : EpollRegistry) (id : Nat) : Except LinuxErrno (List EpollWatch) :=
  match epolls.instances.get? id with
  | none => .error ebadf
  | some epoll => .ok epoll.watches.values

end EpollRegistry

/-! ### Event bits -/

def pollin : UInt16 := 0x0001
def pollpri : UInt16 := 0x0002
def pollout : UInt16 := 0x0004
def pollerr : UInt16 := 0x0008
def pollhup : UInt16 := 0x0010
def pollnval : UInt16 := 0x0020
def pollrdnorm : UInt16 := 0x0040
def pollwrnorm : UInt16 := 0x0100
def pollReadNormal : UInt16 := pollin ||| pollrdnorm
def pollWriteNormal : UInt16 := pollout ||| pollwrnorm

def epollin : UInt32 := 0x0001
def epollpri : UInt32 := 0x0002
def epollout : UInt32 := 0x0004
def epollerr : UInt32 := 0x0008
def epollhup : UInt32 := 0x0010

def bitsWhen (condition : Prop) [Decidable condition] (bits : UInt16) : UInt16 := if condition then bits else 0

def epollEventsToPollEvents (events : UInt32) : UInt16 :=
  bitsWhen (events &&& epollin ≠ 0) pollin ||| bitsWhen (events &&& epollout ≠ 0) pollout |||
    bitsWhen (events &&& epollpri ≠ 0) pollpri

def pollReventsToEpollEvents (revents : UInt16) (interest : UInt32) : UInt32 :=
  (if revents &&& pollin ≠ 0 ∧ interest &&& epollin ≠ 0 then epollin else 0) |||
  (if revents &&& pollout ≠ 0 ∧ interest &&& epollout ≠ 0 then epollout else 0) |||
  (if revents &&& pollpri ≠ 0 ∧ interest &&& epollpri ≠ 0 then epollpri else 0) |||
  (if revents &&& pollerr ≠ 0 then epollerr else 0) |||
  (if revents &&& pollhup ≠ 0 then epollhup else 0)

def pollReventsFromVfs (readiness : FdReadiness) (events : UInt16) : UInt16 :=
  bitsWhen (readiness.readable ∧ events &&& pollReadNormal ≠ 0) (events &&& pollReadNormal) |||
  bitsWhen (readiness.writable ∧ events &&& pollWriteNormal ≠ 0) (events &&& pollWriteNormal) |||
  bitsWhen readiness.error pollerr ||| bitsWhen readiness.hangUp pollhup

def pollInterestToSocketEvents (events : UInt16) : SocketEvents where
  readable := decide (events &&& pollReadNormal ≠ 0)
  writable := decide (events &&& pollWriteNormal ≠ 0)
  priority := decide (events &&& pollpri ≠ 0)
  error := false
  hangUp := false
  invalid := false

def pollReventsFromSocketEvents (readiness : SocketEvents) (events : UInt16) : UInt16 :=
  bitsWhen (readiness.readable ∧ events &&& pollReadNormal ≠ 0) (events &&& pollReadNormal) |||
  bitsWhen (readiness.writable ∧ events &&& pollWriteNormal ≠ 0) (events &&& pollWriteNormal) |||
  bitsWhen (readiness.priority ∧ events &&& pollpri ≠ 0) pollpri |||
  bitsWhen readiness.error pollerr ||| bitsWhen readiness.hangUp pollhup |||
  bitsWhen readiness.invalid pollnval

/-! ### Polling a descriptor -/

structure EventState (σ ω μ : Type) where
  files : RuntimeFileSystem σ ω μ
  epolls : EpollRegistry

variable {σ ω μ : Type} [RuntimeMemoryAccess μ]

abbrev EventProg (σ ω μ α : Type) : Type := Prog (EventState σ ω μ) LinuxErrno α

def onFiles {α : Type} (call : FsProg σ ω μ α) : EventProg σ ω μ α :=
  .zoom EventState.files (fun files s => { s with files := files }) call

def pollFdBaseReventsAndSocket (fd : Fd) (events : UInt16) :
    EventProg σ ω μ (UInt16 × Option (SocketId × SocketEvents)) := do
  if fd < 0 then pure (0, none)
  else do
    let s ← .get
    match s.files.vfs.files.pollReadiness fd with
    | .error .badFd => pure (pollnval, none)
    | .error error => .throw (vfsErrno error)
    | .ok readiness =>
      match (vfsSocketIdForFd fd s.files.vfs).1 with
      | .error _ => pure (pollReventsFromVfs readiness events, none)
      | .ok _ => do
        let id ← onFiles (socketIdForFd fd)
        if (pollInterestToSocketEvents events).isEmpty then pure (pollReventsFromVfs readiness events, none)
        else pure (pollReventsFromVfs readiness events, some (id, pollInterestToSocketEvents events))

variable (outside : Outside σ ω)

def pollFdRevents (fd : Fd) (events : UInt16) (timeout : Option Nat) : EventProg σ ω μ UInt16 := do
  match ← pollFdBaseReventsAndSocket fd events with
  | (revents, none) => pure revents
  | (revents, some (id, socketEvents)) => do
    let readiness ← onFiles (onNet (Net.poll outside.net id socketEvents timeout))
    pure (revents ||| pollReventsFromSocketEvents readiness events)

structure SocketPollSlot where
  index : Nat
  socketId : SocketId
  socketEvents : SocketEvents
  pollEvents : UInt16

/-- `poll_socket_slots`: the list of returned events, with what the sockets add to it. -/
def pollSocketSlots (slots : List SocketPollSlot) (timeout : Option Nat) (hasReady : Bool)
    (revents : List UInt16) : EventProg σ ω μ (List UInt16) := do
  if slots.isEmpty then pure revents
  else do
    let readiness ← onFiles (onNet (Net.pollMany outside.net
      (slots.map fun slot => (slot.socketId, slot.socketEvents)) (if hasReady then some 0 else timeout)))
    pure ((slots.zip readiness).foldl (fun revents answer =>
      revents.modify answer.1.index (· ||| pollReventsFromSocketEvents answer.2 answer.1.pollEvents)) revents)

/-! ### The epoll calls -/

def epollEvent (watch : EpollWatch) (revents : UInt16) : Option (UInt32 × Nat) :=
  let events := pollReventsToEpollEvents revents watch.events
  if events = 0 then none else some (events, watch.data)

def epollWatchRevents (fd : Fd) (events : UInt16) (timeout : Option Nat) : EventProg σ ω μ UInt16 := do
  let revents ← pollFdRevents outside fd events timeout
  pure (if revents &&& pollnval ≠ 0 then pollerr ||| pollhup else revents)

/-- The first loop of `epoll_ready_events`, for one watch. -/
def watchBaseRevents (watch : EpollWatch) :
    EventProg σ ω μ (UInt16 × Option (SocketId × SocketEvents)) := do
  let (revents, socket) ← pollFdBaseReventsAndSocket watch.fd (epollEventsToPollEvents watch.events)
  pure (if revents &&& pollnval ≠ 0 then pollerr ||| pollhup else revents, socket)

def socketSlots (watches : List EpollWatch) (polled : List (UInt16 × Option (SocketId × SocketEvents))) :
    List SocketPollSlot :=
  (watches.zip polled).zipIdx.filterMap fun ((watch, _, socket), index) =>
    socket.map fun (id, events) => ⟨index, id, events, epollEventsToPollEvents watch.events⟩

def epollReadyEvents (watches : List EpollWatch) (maxevents : Nat) (timeout : Option Nat) :
    EventProg σ ω μ (List (UInt32 × Nat)) :=
  match watches with
  | [watch] => do
    let revents ← epollWatchRevents outside watch.fd (epollEventsToPollEvents watch.events) timeout
    pure (epollEvent watch revents).toList
  | _ => do
    let polled ← .collect watches watchBaseRevents
    let hasReady := (watches.zip polled).any fun (watch, revents, _) => (epollEvent watch revents).isSome
    let revents ← pollSocketSlots outside (socketSlots watches polled) timeout hasReady (polled.map Prod.fst)
    pure (((watches.zip revents).filterMap fun (watch, revents) => epollEvent watch revents).take maxevents)

/-- `VirtualFileSystem::epoll_id_for_fd`. -/
def epollIdForFd (fds : Vfs.FdTable) (fd : Fd) : Except VfsError Nat := do
  let entry ← fds.get fd
  match entry.file.inode.backend with
  | .epoll id => .ok id
  | _ => .error .badFd

def epollEventSize : Nat := 12

def leBytes64 (value : Nat) : List UInt8 := (List.range 8).map fun i => UInt8.ofNat (value / 256 ^ i)

def writeEpollEvent (addr : Nat) (event : UInt32 × Nat) : FsProg σ ω μ Unit := do
  writeBytes addr (leBytes32 event.1.toNat)
  if u64Limit ≤ addr + 4 then .throw efault else writeBytes (addr + 4) (leBytes64 event.2)

/-- The loop of `epoll_wait` that hands the events out. -/
def writeEpollEvents (addr : Nat) (ready : List (UInt32 × Nat)) : FsProg σ ω μ Unit :=
  .forEach ready.zipIdx fun (event, index) =>
    if u64Limit ≤ addr + index * epollEventSize then .throw efault
    else writeEpollEvent (addr + index * epollEventSize) event

def maxEpollEvents : Nat := 4096

def epollWait (epfd : Fd) (eventsAddr maxevents : Nat) (timeout : Option Nat) : EventProg σ ω μ Nat := do
  if maxevents = 0 ∨ maxEpollEvents < maxevents then .throw einval
  else do
    let s ← .get
    let id ← .mapError vfsErrno (.ofExcept (epollIdForFd s.files.vfs.fds epfd))
    let (watches, epolls) ← .ofExcept (s.epolls.cachedWatches id)
    .modify fun s => { s with epolls := epolls }
    let probed ← epollReadyEvents outside watches maxevents (some 0)
    if probed.isEmpty ∧ timeout = none then .throw .wouldBlock
    else do
      let ready ← if probed.isEmpty ∧ timeout ≠ some 0 then epollReadyEvents outside watches maxevents timeout
        else pure probed
      onFiles (writeEpollEvents eventsAddr ready)
      pure ready.length

end Mcr.Runtime
