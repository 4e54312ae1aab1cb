import Mcr.Vfs.Resolve

/-!
# File descriptors

A table maps descriptor numbers to entries. The description of an entry (its offset, flags and
directory position) is an `Arc` that `dup` shares, and so are the states of pipes and eventfds and the
captured output: these live in `Shared`, and an entry holds an identity into it. A call on
`&mut FdTable` is a program over the table and the shared objects.
-/

namespace Mcr.Vfs

/-- The identities of an `Arc<Mutex<FdDescription>>`, a `PipeInner` and an `EventfdState`. -/
abbrev DescriptionId := Nat
abbrev PipeRef := Nat
abbrev EventfdRef := Nat

inductive InodeBackend
  | hostPath (hostRoot : HostPath) (path : GuestPath)
  | procVirtual (name : String)
  | devVirtual (kind : DevNodeKind)
  | pipe (id : Nat) (inner : PipeRef)
  | socket (id : Nat)
  | epoll (id : Nat)
  | eventfd (id : Nat) (inner : EventfdRef)
deriving DecidableEq, Repr

structure Inode where
  id : InodeId
  backend : InodeBackend
deriving DecidableEq, Repr

structure FileRef where
  inode : Inode
  kind : FileKind
deriving DecidableEq, Repr

def FileRef.FitsBackend (file : FileRef) : Prop :=
  match file.inode.backend with
  | .socket _ => file.kind = .socket
  | .epoll _ => file.kind = .epoll
  | _ => True

instance (file : FileRef) : Decidable file.FitsBackend := by
  unfold FileRef.FitsBackend
  split <;> infer_instance

def FileRef.stdio (kind : StdioKind) : FileRef :=
  let id := match kind with
    | .stdin => 0
    | .stdout => 1
    | .stderr => 2
  ⟨⟨id, .devVirtual kind.toDevNodeKind⟩, .stdio kind⟩

structure FdDescription where
  offset : Nat
  flags : OpenFlags
  dirCursor : Nat
deriving DecidableEq, Repr

structure FdEntry where
  file : FileRef
  description : DescriptionId
  path : Option GuestPath
deriving DecidableEq, Repr

def FdEntry.inodeId (entry : FdEntry) : InodeId := entry.file.inode.id

def FdEntry.rebindPath (entry : FdEntry) (oldPath newPath : GuestPath) : FdEntry :=
  match entry.path with
  | none => entry
  | some path =>
    if path.startsWith oldPath then
      { entry with path := some (PathTree.replacePrefix path oldPath newPath) }
    else entry

/-! ### Pipes and eventfds -/

structure PipeState where
  buffer : List UInt8
  capacity : Nat
  readers : Nat
  writers : Nat
deriving DecidableEq, Repr

namespace PipeState

def available (state : PipeState) : Nat := state.buffer.length

def discardReadable (state : PipeState) (count : Nat) : PipeState :=
  { state with buffer := state.buffer.drop count }

def setCapacity (state : PipeState) (capacity : Nat) : Except VfsError PipeState :=
  let capacity := max capacity minPipeCapacity
  if capacity < state.buffer.length then .error .busy else .ok { state with capacity := capacity }

def write (state : PipeState) (bytes : List UInt8) : Except VfsError (Nat × PipeState) := do
  let available := state.capacity - state.buffer.length
  failIf (available = 0 ∧ bytes ≠ []) .wouldBlock
  let count := min available bytes.length
  pure (count, { state with buffer := state.buffer ++ bytes.take count })

def recordWritten (state : PipeState) (count : Nat) : Except VfsError (Nat × PipeState) := do
  failIf (state.capacity - state.buffer.length < count) .wouldBlock
  pure (count, { state with buffer := state.buffer ++ List.replicate count 0 })

def registerEndpoint (state : PipeState) : FileKind → PipeState
  | .pipeRead => { state with readers := state.readers + 1 }
  | .pipeWrite => { state with writers := state.writers + 1 }
  | _ => state

def unregisterEndpoint (state : PipeState) : FileKind → PipeState
  | .pipeRead => { state with readers := state.readers - 1 }
  | .pipeWrite => { state with writers := state.writers - 1 }
  | _ => state

end PipeState

/-- A pipe, and the bytes under way in its host pipe pair when it has one. -/
structure PipeInner where
  state : PipeState
  hostPair : Option (List UInt8)
deriving DecidableEq, Repr

structure EventfdState where
  counter : Nat
deriving DecidableEq, Repr

namespace EventfdState

def maxCounter : Nat := u64Limit - 2

def leBytes (value : Nat) : List UInt8 := (List.range 8).map fun i => UInt8.ofNat (value / 256 ^ i)

def ofLeBytes (bytes : List UInt8) : Nat := bytes.foldr (fun byte rest => byte.toNat + 256 * rest) 0

def readable (state : EventfdState) : Bool := 0 < state.counter

def writable (state : EventfdState) : Bool := state.counter < maxCounter

def read (state : EventfdState) (len : Nat) : Except VfsError (List UInt8 × EventfdState) := do
  failIf (len < 8) .invalidPath
  failIf (state.counter = 0) .wouldBlock
  pure (leBytes state.counter, ⟨0⟩)

def write (state : EventfdState) (bytes : List UInt8) : Except VfsError (Nat × EventfdState) := do
  failIf (bytes.length < 8) .invalidPath
  let value := ofLeBytes (bytes.take 8)
  failIf (value = u64Limit - 1) .invalidPath
  failIf (maxCounter < state.counter + value) .wouldBlock
  pure (8, ⟨state.counter + value⟩)

end EventfdState

/-! ### The table -/

/-- What the tables of all processes share behind their `Arc`s. -/
structure Shared where
  description : DescriptionId → FdDescription
  nextDescription : DescriptionId
  pipe : PipeRef → PipeInner
  nextPipe : PipeRef
  eventfd : EventfdRef → EventfdState
  nextEventfd : EventfdRef
  stdout : List UInt8
  stderr : List UInt8

def Shared.empty : Shared where
  description := fun _ => ⟨0, ⟨0⟩, 0⟩
  nextDescription := 0
  pipe := fun _ => ⟨⟨[], 0, 0, 0⟩, none⟩
  nextPipe := 0
  eventfd := fun _ => ⟨0⟩
  nextEventfd := 0
  stdout := []
  stderr := []

namespace Shared

def setDescription (shared : Shared) (id : DescriptionId) (description : FdDescription) : Shared :=
  { shared with description := fun i => if i = id then description else shared.description i }

def setPipe (shared : Shared) (ref : PipeRef) (inner : PipeInner) : Shared :=
  { shared with pipe := fun i => if i = ref then inner else shared.pipe i }

def setEventfd (shared : Shared) (ref : EventfdRef) (state : EventfdState) : Shared :=
  { shared with eventfd := fun i => if i = ref then state else shared.eventfd i }

def registerFdEndpoint (shared : Shared) (file : FileRef) : Shared :=
  match file.inode.backend with
  | .pipe _ ref =>
    let inner := shared.pipe ref
    shared.setPipe ref { inner with state := inner.state.registerEndpoint file.kind }
  | _ => shared

def unregisterFdEndpoint (shared : Shared) (file : FileRef) : Shared :=
  match file.inode.backend with
  | .pipe _ ref =>
    let inner := shared.pipe ref
    shared.setPipe ref { inner with state := inner.state.unregisterEndpoint file.kind }
  | _ => shared

end Shared

structure FdTable where
  entries : SortedMap Fd FdEntry
  cloexec : SortedMap Fd Unit
  nextPipeId : Nat
  nextEventfdId : Nat

namespace FdTable

def new : FdTable := ⟨.empty, .empty, 1, 1⟩

def get (table : FdTable) (fd : Fd) : Except VfsError FdEntry := okOr (table.entries.get? fd) .badFd

def openCount (table : FdTable) (inodeId : InodeId) : Nat :=
  table.entries.values.countP (·.inodeId = inodeId)

def rebindPaths (table : FdTable) (oldPath newPath : GuestPath) : FdTable :=
  { table with entries := table.entries.mapValues fun _ entry => entry.rebindPath oldPath newPath }

def setCloexec (table : FdTable) (fd : Fd) (cloexec : Bool) : Except VfsError FdTable := do
  failIf (table.entries.get? fd).isNone .badFd
  if cloexec then pure { table with cloexec := table.cloexec.insert fd () }
  else pure { table with cloexec := table.cloexec.erase fd }

/-- `Clone for FdTable`: the copy equals the table, and its entries count as further endpoints. -/
def clone (table : FdTable) (shared : Shared) : Shared :=
  table.entries.values.foldl (fun shared entry => shared.registerFdEndpoint entry.file) shared

/-- `Drop for FdTable`. -/
def drop (table : FdTable) (shared : Shared) : Shared :=
  table.entries.values.foldl (fun shared entry => shared.unregisterFdEndpoint entry.file) shared

/-- The first number from `fd` on that is not one of `keys`, which increase. -/
def firstFree : List Fd → Fd → Fd
  | [], fd => fd
  | key :: keys, fd =>
    if key < fd then firstFree keys fd
    else if key = fd then firstFree keys (fd + 1)
    else fd

def nextFdFrom (table : FdTable) (minFd : Fd) : Except VfsError Fd := do
  failIf (minFd < 0) .badFd
  let fd := firstFree table.entries.keys minFd
  failIf (i32Max < fd) .badFd
  pure fd

end FdTable

structure Files where
  fds : FdTable
  shared : Shared

namespace Files

/-- A call on `&mut FdTable`. -/
abbrev Call := Prog Files VfsError

def get (fd : Fd) : Call FdEntry := do
  let files ← .get
  .ofExcept (files.fds.get fd)

def description (files : Files) (entry : FdEntry) : FdDescription :=
  files.shared.description entry.description

def setDescription (entry : FdEntry) (description : FdDescription) : Call Unit :=
  .modify fun files => { files with shared := files.shared.setDescription entry.description description }

def update (change : FdTable → Except VfsError FdTable) : Call Unit := do
  let files ← .get
  let fds ← .ofExcept (change files.fds)
  .modify fun files => { files with fds := fds }

def share (change : Shared → Shared) : Call Unit :=
  .modify fun files => { files with shared := change files.shared }

def putEntry (fd : Fd) (entry : FdEntry) : Call Unit :=
  .modify fun files => { files with fds := { files.fds with entries := files.fds.entries.insert fd entry } }

def insertEntry (fd : Fd) (file : FileRef) (cloexec : Bool) (flags : OpenFlags)
    (path : Option GuestPath) : Call Fd := do
  let files ← .get
  .ofExcept (failIf (fd < 0) .badFd)
  .ofExcept (failIf (files.fds.entries.get? fd).isSome .badFd)
  share (·.registerFdEndpoint file)
  let description := files.shared.nextDescription
  share fun shared =>
    { shared.setDescription description ⟨0, flags, 0⟩ with nextDescription := description + 1 }
  putEntry fd ⟨file, description, path⟩
  update (·.setCloexec fd cloexec)
  pure fd

def insertExact (fd : Fd) (file : FileRef) (cloexec : Bool) : Call Unit := do
  let _ ← insertEntry fd file cloexec ⟨oRdwr⟩ none

/-- `FdTable::with_stdio`. -/
def withStdio : Files :=
  let call : Call Unit := do
    insertExact 0 (.stdio .stdin) false
    insertExact 1 (.stdio .stdout) false
    insertExact 2 (.stdio .stderr) false
  (call ⟨.new, .empty⟩).2

def nextFdFrom (minFd : Fd) : Call Fd := do
  let files ← .get
  .ofExcept (files.fds.nextFdFrom minFd)

def insertOpen (file : FileRef) (flags : OpenFlags) (path : Option GuestPath) : Call Fd := do
  let fd ← nextFdFrom firstAllocFd
  insertEntry fd file flags.cloexec flags path

def close (fd : Fd) : Call FileRef := do
  let entry ← get fd
  .modify fun files =>
    { files with fds := { files.fds with
        entries := files.fds.entries.erase fd
        cloexec := files.fds.cloexec.erase fd } }
  share (·.unregisterFdEndpoint entry.file)
  pure entry.file

def dup (oldfd minFd : Fd) (cloexec : Bool) : Call Fd := do
  .ofExcept (failIf (minFd < 0) .badFd)
  let entry ← get oldfd
  let newfd ← nextFdFrom minFd
  share (·.registerFdEndpoint entry.file)
  putEntry newfd entry
  update (·.setCloexec newfd cloexec)
  pure newfd

def dup2 (oldfd newfd : Fd) (cloexec : Bool) : Call Fd := do
  .ofExcept (failIf (newfd < 0) .badFd)
  let entry ← get oldfd
  if oldfd = newfd then pure newfd
  else do
    -- the result of this `close` is dropped
    .tryCatch (do let _ ← close newfd) (fun _ => pure ())
    share (·.registerFdEndpoint entry.file)
    putEntry newfd entry
    update (·.setCloexec newfd cloexec)
    pure newfd

def allocatePipeId : Call Nat := do
  let files ← .get
  let id := files.fds.nextPipeId
  .ofExcept (failIf (u64Limit ≤ id + 1) .badFd)
  .modify fun files => { files with fds := { files.fds with nextPipeId := id + 1 } }
  pure id

def allocateEventfdId : Call Nat := do
  let files ← .get
  let id := files.fds.nextEventfdId
  .ofExcept (failIf (u64Limit ≤ id + 1) .badFd)
  .modify fun files => { files with fds := { files.fds with nextEventfdId := id + 1 } }
  pure id

/-- `checked_add` of an id to the first inode id of its kind. -/
def inodeIdFrom (first id : Nat) : Except VfsError InodeId :=
  if first + id < u64Limit then .ok (first + id) else .error .badFd

def pipe (host : Host) (flags : OpenFlags) : Call (Fd × Fd) := do
  .ofExcept (failIf (flags.raw &&& ~~~(oCloexec ||| oNonblock) ≠ 0) .invalidPath)
  let readFd ← nextFdFrom firstAllocFd
  .ofExcept (failIf (readFd = i32Max) .badFd)
  let writeFd ← nextFdFrom (readFd + 1)
  let pipeId ← allocatePipeId
  let inodeId ← .ofExcept (inodeIdFrom firstPipeInodeId pipeId)
  let files ← .get
  let ref := files.shared.nextPipe
  share fun shared =>
    { shared.setPipe ref
        ⟨⟨[], defaultPipeCapacity, 0, 0⟩, if host.pipePair pipeId then some [] else none⟩ with
      nextPipe := ref + 1 }
  let inode : Inode := ⟨inodeId, .pipe pipeId ref⟩
  let nonblock := flags.raw &&& oNonblock
  let _ ← insertEntry readFd ⟨inode, .pipeRead⟩ flags.cloexec ⟨oRdonly ||| nonblock⟩ none
  .tryCatch
    (do let _ ← insertEntry writeFd ⟨inode, .pipeWrite⟩ flags.cloexec ⟨oWronly ||| nonblock⟩ none)
    (fun error => do
      .tryCatch (do let _ ← close readFd) (fun _ => pure ())
      .throw error)
  pure (readFd, writeFd)

def insertSocket (socketId : Nat) (flags : OpenFlags) : Call Fd := do
  .ofExcept (failIf (flags.raw &&& ~~~(oAccmode ||| oCloexec ||| oNonblock) ≠ 0 ∨
    flags.accessMode ≠ 0 ∧ flags.accessMode ≠ oRdwr) .invalidPath)
  let inodeId ← .ofExcept (inodeIdFrom firstSocketInodeId socketId)
  let fd ← nextFdFrom firstAllocFd
  insertEntry fd ⟨⟨inodeId, .socket socketId⟩, .socket⟩ flags.cloexec
    ⟨oRdwr ||| (flags.raw &&& oNonblock)⟩ none

def insertEpoll (epollId : Nat) (flags : OpenFlags) : Call Fd := do
  .ofExcept (failIf (flags.raw &&& ~~~(oAccmode ||| oCloexec) ≠ 0 ∨ flags.accessMode ≠ 0) .invalidPath)
  let inodeId ← .ofExcept (inodeIdFrom firstEpollInodeId epollId)
  let fd ← nextFdFrom firstAllocFd
  insertEntry fd ⟨⟨inodeId, .epoll epollId⟩, .epoll⟩ flags.cloexec
    ⟨oRdonly ||| (flags.raw &&& oCloexec)⟩ none

def eventfd (initial : Nat) (flags : OpenFlags) : Call Fd := do
  .ofExcept (failIf (flags.raw &&& ~~~(oAccmode ||| oCloexec ||| oNonblock) ≠ 0 ∨
    flags.accessMode ≠ 0 ∧ flags.accessMode ≠ oRdwr) .invalidPath)
  let eventfdId ← allocateEventfdId
  let inodeId ← .ofExcept (inodeIdFrom firstEventfdInodeId eventfdId)
  let files ← .get
  let ref := files.shared.nextEventfd
  share fun shared => { shared.setEventfd ref ⟨initial⟩ with nextEventfd := ref + 1 }
  let fd ← nextFdFrom firstAllocFd
  insertEntry fd ⟨⟨inodeId, .eventfd eventfdId ref⟩, .eventfd⟩ flags.cloexec
    ⟨oRdwr ||| (flags.raw &&& oNonblock)⟩ none

def setFdFlags (fd : Fd) (flags : UInt32) : Call Unit := update (·.setCloexec fd (flags &&& fdCloexec ≠ 0))

def fdFlags (fd : Fd) : Call UInt32 := do
  let _ ← get fd
  let files ← .get
  pure (if (files.fds.cloexec.get? fd).isSome then fdCloexec else 0)

def statusFlags (fd : Fd) : Call UInt32 := do
  let entry ← get fd
  let files ← .get
  pure (files.description entry).flags.raw

def setStatusFlags (fd : Fd) (flags : UInt32) : Call Unit := do
  let entry ← get fd
  let files ← .get
  let description := files.description entry
  setDescription entry { description with flags := description.flags.withStatusFlags flags }

def pipeRefOf (file : FileRef) : Except VfsError PipeRef :=
  match file.inode.backend with
  | .pipe _ ref => .ok ref
  | _ => .error .badFd

def eventfdRefOf (file : FileRef) : Except VfsError EventfdRef :=
  match file.inode.backend with
  | .eventfd _ ref => .ok ref
  | _ => .error .badFd

def pipeCapacity (fd : Fd) : Call Nat := do
  let entry ← get fd
  let ref ← .ofExcept (pipeRefOf entry.file)
  let files ← .get
  pure (files.shared.pipe ref).state.capacity

def setPipeCapacity (fd : Fd) (capacity : Nat) : Call Nat := do
  let entry ← get fd
  let ref ← .ofExcept (pipeRefOf entry.file)
  let files ← .get
  let inner := files.shared.pipe ref
  let state ← .ofExcept (inner.state.setCapacity capacity)
  share (·.setPipe ref { inner with state := state })
  pure state.capacity

structure FdReadiness where
  readable : Bool
  writable : Bool
  hangUp : Bool
  error : Bool
deriving DecidableEq, Repr

def pollReadiness (files : Files) (fd : Fd) : Except VfsError FdReadiness := do
  let entry ← files.fds.get fd
  let flags := (files.description entry).flags
  let kind := entry.file.kind
  match kind with
  | .regular | .symlink | .directory => pure ⟨true, flags.canWrite, false, false⟩
  | .dev .null | .dev .zero | .dev .urandom => pure ⟨flags.canRead, flags.canWrite, false, false⟩
  | .dev .stdin | .dev .stdout | .dev .stderr | .stdio _ => pure ⟨false, flags.canWrite, false, false⟩
  | .pipeRead | .pipeWrite =>
    let ref ← pipeRefOf entry.file
    let state := (files.shared.pipe ref).state
    pure
      { readable := kind = .pipeRead ∧ (0 < state.available ∨ state.writers = 0)
        writable := kind = .pipeWrite ∧ 0 < state.readers ∧ state.available < state.capacity
        hangUp := kind = .pipeRead ∧ state.writers = 0 ∨ kind = .pipeWrite ∧ state.readers = 0
        error := false }
  | .socket | .epoll => pure ⟨false, false, false, false⟩
  | .eventfd =>
    let ref ← eventfdRefOf entry.file
    let state := files.shared.eventfd ref
    pure ⟨state.readable, state.writable, false, false⟩

/-- `close_on_exec`, in increasing order where the source takes the order of a hash set. -/
def closeOnExec : Call Unit := do
  let files ← .get
  .modify fun files => { files with fds := { files.fds with cloexec := .empty } }
  .forEach files.fds.cloexec.keys fun fd => do
    let files ← .get
    match files.fds.entries.get? fd with
    | none => pure ()
    | some entry =>
      .modify fun files => { files with fds := { files.fds with entries := files.fds.entries.erase fd } }
      share (·.unregisterFdEndpoint entry.file)

/-! ### Transfers that do not reach the tree -/

/-- A transfer through the host's pipe, which may move fewer bytes than it was asked for. -/
def hostTransfer (host : Host) (count : Nat) : Except VfsError Nat :=
  match host.pipeTransfer count with
  | .ok moved => .ok (min moved count)
  | .error kind => .error (vfsErrorFromHost kind)

def pipeRead (host : Host) (entry : FdEntry) (len : Nat) : Call (List UInt8) := do
  let ref ← .ofExcept (pipeRefOf entry.file)
  let files ← .get
  let inner := files.shared.pipe ref
  let state := inner.state
  .ofExcept (failIf (state.available = 0 ∧ len ≠ 0 ∧ 0 < state.writers) .wouldBlock)
  let count := min state.available len
  match inner.hostPair with
  | some bytes =>
    if count = 0 then pure []
    else do
      let count ← .ofExcept (hostTransfer host count)
      share (·.setPipe ref ⟨state.discardReadable count, some (bytes.drop count)⟩)
      pure (bytes.take count)
  | none =>
    share (·.setPipe ref ⟨state.discardReadable count, none⟩)
    pure (state.buffer.take count)

def pipeWrite (host : Host) (entry : FdEntry) (bytes : List UInt8) : Call Nat := do
  let ref ← .ofExcept (pipeRefOf entry.file)
  let files ← .get
  let inner := files.shared.pipe ref
  let state := inner.state
  .ofExcept (failIf (state.readers = 0) .brokenPipe)
  .ofExcept (failIf (state.capacity = state.available ∧ bytes ≠ []) .wouldBlock)
  match inner.hostPair with
  | some underway =>
    let count := min (state.capacity - state.available) bytes.length
    if count = 0 then pure 0
    else do
      let moved ← .ofExcept (hostTransfer host count)
      let (count, state) ← .ofExcept (state.recordWritten moved)
      share (·.setPipe ref ⟨state, some (underway ++ bytes.take moved)⟩)
      pure count
  | none =>
    let (count, state) ← .ofExcept (state.write bytes)
    share (·.setPipe ref ⟨state, none⟩)
    pure count

def eventfdRead (entry : FdEntry) (len : Nat) : Call (List UInt8) := do
  let ref ← .ofExcept (eventfdRefOf entry.file)
  let files ← .get
  let (bytes, state) ← .ofExcept ((files.shared.eventfd ref).read len)
  share (·.setEventfd ref state)
  pure bytes

def eventfdWrite (entry : FdEntry) (bytes : List UInt8) : Call Nat := do
  let ref ← .ofExcept (eventfdRefOf entry.file)
  let files ← .get
  let (count, state) ← .ofExcept ((files.shared.eventfd ref).write bytes)
  share (·.setEventfd ref state)
  pure count

def stdioWrite (kind : StdioKind) (bytes : List UInt8) : Call Nat :=
  match kind with
  | .stdin => .throw .badFd
  | .stdout => do
    share fun shared => { shared with stdout := shared.stdout ++ bytes }
    pure bytes.length
  | .stderr => do
    share fun shared => { shared with stderr := shared.stderr ++ bytes }
    pure bytes.length

def fillUrandom (host : Host) (len : Nat) : Except VfsError (List UInt8) :=
  okOr (host.getrandom len) .invalidPath

end Files

end Mcr.Vfs
