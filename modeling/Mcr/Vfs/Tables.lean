import Mcr.Vfs.Pipes

/-!
# The tables of all processes

Each process has a table of descriptors, a copy of its parent's; what lies behind the descriptors is shared.
A run makes, copies, uses and drops tables in any order. In every state it reaches each pipe counts exactly
the descriptors of all live tables that are its ends, holds no more than its capacity, and gives its bytes
out in the order it took them; so readiness, end of file and broken pipes agree with the tables. A pipe that was made
wider than the buffer of its host pair is announced as writable when a write to it would not return.
-/

namespace Mcr.Vfs

open Prog

/-- The calls on one table. -/
inductive FdOp
  | pipe (flags : OpenFlags)
  | eventfd (initial : Nat) (flags : OpenFlags)
  | insertSocket (socketId : Nat) (flags : OpenFlags)
  | insertEpoll (epollId : Nat) (flags : OpenFlags)
  | insertStdio (fd : Fd) (kind : StdioKind) (cloexec : Bool)
  | dup (oldfd minFd : Fd) (cloexec : Bool)
  | dup2 (oldfd newfd : Fd) (cloexec : Bool)
  | close (fd : Fd)
  | closeOnExec
  | setFdFlags (fd : Fd) (flags : UInt32)
  | setStatusFlags (fd : Fd) (flags : UInt32)
  | setPipeCapacity (fd : Fd) (capacity : Nat)
  | read (fd : Fd) (len : Nat)
  | write (fd : Fd) (bytes : List UInt8)

namespace FdOp

open VirtualFileSystem in
def exec (host : Host) : FdOp → VirtualFileSystem.Call Unit
  | .pipe flags => do let _ ← onFiles (Files.pipe host flags)
  | .eventfd initial flags => do let _ ← onFiles (Files.eventfd initial flags)
  | .insertSocket socketId flags => do let _ ← onFiles (Files.insertSocket socketId flags)
  | .insertEpoll epollId flags => do let _ ← onFiles (Files.insertEpoll epollId flags)
  | .insertStdio fd kind cloexec => onFiles (Files.insertExact fd (.stdio kind) cloexec)
  | .dup oldfd minFd cloexec => do let _ ← onFiles (Files.dup oldfd minFd cloexec)
  | .dup2 oldfd newfd cloexec => do let _ ← onFiles (Files.dup2 oldfd newfd cloexec)
  | .close fd => do let _ ← onFiles (Files.close fd)
  | .closeOnExec => onFiles Files.closeOnExec
  | .setFdFlags fd flags => onFiles (Files.setFdFlags fd flags)
  | .setStatusFlags fd flags => onFiles (Files.setStatusFlags fd flags)
  | .setPipeCapacity fd capacity => do let _ ← onFiles (Files.setPipeCapacity fd capacity)
  | .read fd len => do let _ ← fdsRead host fd len
  | .write fd bytes => do let _ ← fdsWrite host fd bytes

def taken (host : Host) (ref : PipeRef) (vfs : VirtualFileSystem) : FdOp → List UInt8
  | .read fd len => match vfs.fds.entries.get? fd with
    | none => []
    | some entry =>
      if entry.file.weight .read ref = 1 then (VirtualFileSystem.fdsRead host fd len vfs).1.toOption.getD [] else []
  | _ => []

def given (host : Host) (ref : PipeRef) (vfs : VirtualFileSystem) : FdOp → List UInt8
  | .write fd bytes => match vfs.fds.entries.get? fd with
    | none => []
    | some entry =>
      if entry.file.weight .write ref = 1 then
        bytes.take ((VirtualFileSystem.fdsWrite host fd bytes vfs).1.toOption.getD 0)
      else []
  | _ => []

end FdOp

/-- The live tables, and the file system they are used with; its own table is the one used last. -/
structure Tables where
  vfs : VirtualFileSystem
  tables : SortedMap Nat FdTable

inductive TableOp
  | new (table : Nat)
  | call (table : Nat) (op : FdOp)
  | clone (table copy : Nat)
  | drop (table : Nat)

namespace Tables

def withTable (world : Tables) (table : FdTable) : VirtualFileSystem := { world.vfs with fds := table }

def step (host : Host) (world : Tables) : TableOp → Tables
  | .new t => match world.tables.get? t with
    | some _ => world
    | none => { world with tables := world.tables.insert t .new }
  | .call t op => match world.tables.get? t with
    | none => world
    | some table =>
      let vfs := (op.exec host (world.withTable table)).2
      ⟨vfs, world.tables.insert t vfs.fds⟩
  | .clone t copy => match world.tables.get? t, world.tables.get? copy with
    | some table, none =>
      ⟨{ world.vfs with shared := table.clone world.vfs.shared }, world.tables.insert copy table⟩
    | _, _ => world
  | .drop t => match world.tables.get? t with
    | none => world
    | some table => ⟨{ world.vfs with shared := table.drop world.vfs.shared }, world.tables.erase t⟩

def run (host : Host) (world : Tables) (ops : List TableOp) : Tables := ops.foldl (step host) world

def start (vfs : VirtualFileSystem) : Tables := ⟨{ vfs with shared := .empty }, .empty⟩

/-- The bytes the calls of a run read from the pipe. -/
def taken (host : Host) (ref : PipeRef) : Tables → List TableOp → List UInt8
  | _, [] => []
  | world, op :: ops =>
    (match op with
      | .call t call => match world.tables.get? t with
        | none => []
        | some table => call.taken host ref (world.withTable table)
      | _ => []) ++ taken host ref (world.step host op) ops

/-- The bytes the calls of a run write to the pipe. -/
def given (host : Host) (ref : PipeRef) : Tables → List TableOp → List UInt8
  | _, [] => []
  | world, op :: ops =>
    (match op with
      | .call t call => match world.tables.get? t with
        | none => []
        | some table => call.given host ref (world.withTable table)
      | _ => []) ++ given host ref (world.step host op) ops

/-- The number of descriptors of all live tables that are ends of the pipe. -/
def endpoints (world : Tables) (side : PipeEnd) (ref : PipeRef) : Nat :=
  world.tables.total fun table => table.endpoints side ref

structure Sound (world : Tables) : Prop where
  counted : ∀ side ref, (world.vfs.shared.pipe ref).state.ends side = world.endpoints side ref
  known : ∀ t table, world.tables.get? t = some table → ∀ fd entry, table.entries.get? fd = some entry →
    entry.Known world.vfs.shared
  bytes : ∀ ref, (world.vfs.shared.pipe ref).Sound
  fresh : ∀ ref, world.vfs.shared.nextPipe ≤ ref → (world.vfs.shared.pipe ref).content = []

end Tables

/-! ### Calls on one table -/

namespace Files

variable {others : PipeEnd → PipeRef → Nat} {files files' : Files} {host : Host}

/-- A call leaves the table sound, and moves these bytes. -/
structure Moved (others : PipeEnd → PipeRef → Nat) (files files' : Files) (taken given : PipeRef → List UInt8) :
    Prop where
  sound : Sound others files'
  grows : files.shared.Grows files'.shared
  content : ∀ ref, (files.shared.pipe ref).content ++ given ref = taken ref ++ (files'.shared.pipe ref).content

theorem Changes.moved (h : Changes host files files') (hsound : Sound others files) :
    Moved others files files' (fun _ => []) fun _ => [] :=
  ⟨h.sound hsound, h.grows, fun ref => by rw [h.content hsound ref, List.append_nil, List.nil_append]⟩

end Files

namespace VirtualFileSystem

variable {vfs : VirtualFileSystem} {host : Host} {fd : Fd} {entry : FdEntry}

@[simp] theorem files_setFiles (files : Files) (vfs : VirtualFileSystem) : (setFiles files vfs).files = files := rfl

theorem fdsRead_changes (hentry : vfs.fds.entries.get? fd = some entry) (hkind : entry.file.kind ≠ .pipeRead)
    (len : Nat) : Files.Changes host vfs.files (fdsRead host fd len vfs).2.files := by
  have hok : vfs.fds.get fd = .ok entry := okOr_eq_ok.mpr hentry
  have hrefl : Files.Changes host vfs.files vfs.files := .refl
  unfold fdsRead
  refine wp_state (P := fun vfs' : VirtualFileSystem => Files.Changes host vfs.files vfs'.files) ?_
  rw [wp_bind, wp_get, hok, wp_bind, show (Prog.ofExcept (.ok entry) : Call FdEntry) = pure entry from rfl, wp_pure,
    wp_bind]
  apply wp_check
  · intro _ _
    exact hrefl
  intro _ _
  have hregular : wp (do
      let node ← .ofExcept (okOr (vfs.tree.lookupInode entry.inodeId) .noEntry)
      .ofExcept (failIf (node.attr.isDirectory = true) .isDirectory)
      let bytes ← .ofExcept (readRegularNodeAt host node vfs.procSelf
        (vfs.shared.description entry.description).offset len none)
      onFiles (Files.setDescription entry { vfs.shared.description entry.description with
        offset := ((vfs.shared.description entry.description).offset + bytes.length) % u64Limit })
      pure bytes) (fun _ vfs' => Files.Changes host vfs.files vfs'.files)
      (fun _ vfs' => Files.Changes host vfs.files vfs'.files) vfs := by
    rw [wp_bind]
    apply wp_check
    · intro _ _
      exact hrefl
    intro node _
    rw [wp_bind]
    apply wp_check
    · intro _ _
      exact hrefl
    intro _ _
    rw [wp_bind]
    apply wp_check
    · intro _ _
      exact hrefl
    intro bytes _
    rw [wp_bind, onFiles, wp_zoom, Files.setDescription, wp_modify, wp_pure]
    exact .single (Files.setDescription_changes entry rfl)
  cases hcase : entry.file.kind with
  | regular => exact hregular
  | symlink => exact hregular
  | dev kind =>
      cases kind with
      | urandom =>
          apply wp_check
          · intro _ _
            exact hrefl
          · intro _ _
            exact hrefl
      | null => exact (wp_pure _).mpr hrefl
      | zero => exact (wp_pure _).mpr hrefl
      | stdin => exact (wp_pure _).mpr hrefl
      | stdout => exact (wp_throw _).mpr hrefl
      | stderr => exact (wp_throw _).mpr hrefl
  | pipeRead => exact absurd hcase hkind
  | eventfd =>
      simp only
      rw [onFiles, wp_zoom]
      exact wp_mono (wp_of_state (Files.eventfdRead_changes entry len)) (fun _ _ h => h) (fun _ _ h => h)
  | stdio kind =>
      cases kind with
      | stdin => exact (wp_pure _).mpr hrefl
      | stdout => exact (wp_throw _).mpr hrefl
      | stderr => exact (wp_throw _).mpr hrefl
  | _ => exact (wp_throw _).mpr hrefl

theorem fdsWrite_changes (hentry : vfs.fds.entries.get? fd = some entry) (hkind : entry.file.kind ≠ .pipeWrite)
    (bytes : List UInt8) : Files.Changes host vfs.files (fdsWrite host fd bytes vfs).2.files := by
  have hok : vfs.fds.get fd = .ok entry := okOr_eq_ok.mpr hentry
  have hrefl : Files.Changes host vfs.files vfs.files := .refl
  unfold fdsWrite
  refine wp_state (P := fun vfs' : VirtualFileSystem => Files.Changes host vfs.files vfs'.files) ?_
  rw [wp_bind, wp_get, hok, wp_bind, show (Prog.ofExcept (.ok entry) : Call FdEntry) = pure entry from rfl, wp_pure,
    wp_bind]
  apply wp_check
  · intro _ _
    exact hrefl
  intro _ _
  cases hcase : entry.file.kind with
  | regular =>
      simp only
      unfold writeRegular
      rw [wp_bind, wp_get, wp_bind]
      apply wp_check
      · intro _ _
        exact hrefl
      intro node _
      rw [wp_bind, onTree, wp_zoom]
      have hanything : ∀ {α : Type} (call : PathTree.Call α) tree, wp call (fun _ _ => True) (fun _ _ => True) tree :=
        fun call tree => wp_iff.mpr ⟨fun _ _ _ => trivial, fun _ _ _ => trivial⟩
      refine wp_mono (hanything _ _) (fun count tree _ => ?_) (fun _ tree _ => hrefl)
      rw [wp_bind, onFiles, wp_zoom, Files.setDescription, wp_modify, wp_pure]
      exact .single (Files.setDescription_changes entry rfl)
  | dev kind =>
      cases kind with
      | stdin => exact (wp_throw _).mpr hrefl
      | _ => exact (wp_pure _).mpr hrefl
  | pipeWrite => exact absurd hcase hkind
  | eventfd =>
      simp only
      rw [onFiles, wp_zoom]
      exact wp_mono (wp_of_state (Files.eventfdWrite_changes entry bytes)) (fun _ _ h => h) (fun _ _ h => h)
  | stdio kind =>
      simp only
      rw [onFiles, wp_zoom]
      exact wp_mono (wp_of_state (Files.stdioWrite_changes kind bytes)) (fun _ _ h => h) (fun _ _ h => h)
  | _ => exact (wp_throw _).mpr hrefl

theorem fdsRead_pipe (hentry : vfs.fds.entries.get? fd = some entry) (hknown : entry.Known vfs.shared)
    (hkind : entry.file.kind = .pipeRead) (len : Nat) :
    fdsRead host fd len vfs = onFiles (Files.pipeRead host entry len) vfs := by
  have hok : vfs.fds.get fd = .ok entry := okOr_eq_ok.mpr hentry
  have hread := (hknown.reads hkind).2
  unfold fdsRead
  simp [hok, hread, hkind, failIf, bind, Prog.get, Prog.ofExcept, pure]

theorem fdsWrite_pipe (hentry : vfs.fds.entries.get? fd = some entry) (hknown : entry.Known vfs.shared)
    (hkind : entry.file.kind = .pipeWrite) (bytes : List UInt8) :
    fdsWrite host fd bytes vfs = onFiles (Files.pipeWrite host entry bytes) vfs := by
  have hok : vfs.fds.get fd = .ok entry := okOr_eq_ok.mpr hentry
  have hwrite := (hknown.writes hkind).2
  unfold fdsWrite
  simp [hok, hwrite, hkind, failIf, bind, Prog.get, Prog.ofExcept, pure]

theorem fdsRead_eventfd (hentry : vfs.fds.entries.get? fd = some entry) (hknown : entry.Known vfs.shared)
    (hkind : entry.file.kind = .eventfd) (len : Nat) :
    fdsRead host fd len vfs = onFiles (Files.eventfdRead entry len) vfs := by
  have hok : vfs.fds.get fd = .ok entry := okOr_eq_ok.mpr hentry
  have hread := (hknown.counts hkind).2.1
  unfold fdsRead
  simp [hok, hread, hkind, failIf, bind, Prog.get, Prog.ofExcept, pure]

theorem fdsWrite_eventfd (hentry : vfs.fds.entries.get? fd = some entry) (hknown : entry.Known vfs.shared)
    (hkind : entry.file.kind = .eventfd) (bytes : List UInt8) :
    fdsWrite host fd bytes vfs = onFiles (Files.eventfdWrite entry bytes) vfs := by
  have hok : vfs.fds.get fd = .ok entry := okOr_eq_ok.mpr hentry
  have hwrite := (hknown.counts hkind).2.2
  unfold fdsWrite
  simp [hok, hwrite, hkind, failIf, bind, Prog.get, Prog.ofExcept, pure]

end VirtualFileSystem

theorem FileRef.weight_eq_one {file : FileRef} {side : PipeEnd} {ref : PipeRef} :
    file.weight side ref = 1 ↔ file.kind = side.kind ∧ Files.pipeRefOf file = .ok ref := by
  unfold weight Files.pipeRefOf
  cases file.inode.backend with
  | pipe id r =>
      simp only [Except.ok.injEq]
      split
      · rename_i h
        exact iff_of_true rfl ⟨h.2, h.1⟩
      · rename_i h
        exact iff_of_false Nat.zero_ne_one fun h' => h ⟨h'.2, h'.1⟩
  | _ => simp

namespace FdOp

variable {others : PipeEnd → PipeRef → Nat} {vfs : VirtualFileSystem} {host : Host}

theorem moved_of_transfer {files files' : Files} {ref : PipeRef} (bytes bytes' : List UInt8)
    (hsound : Files.Sound others files) (hmade : ref < files.shared.nextPipe)
    (h : Files.Transfer files files' ref bytes bytes') {taken given : PipeRef → List UInt8}
    (htaken : ∀ r, taken r = if r = ref then bytes else []) (hgiven : ∀ r, given r = if r = ref then bytes' else []) :
    Files.Moved others files files' taken given := by
  obtain ⟨hcontent, hother⟩ := h.content
  refine ⟨h.sound hsound hmade, h.grows, fun r => ?_⟩
  rw [htaken, hgiven]
  by_cases hr : r = ref
  · rw [if_pos hr, if_pos hr, hr, hcontent]
  · rw [if_neg hr, if_neg hr, hother r hr, List.append_nil, List.nil_append]

theorem read_moved (hsound : Files.Sound others vfs.files) (fd : Fd) (len : Nat) :
    Files.Moved others vfs.files (VirtualFileSystem.fdsRead host fd len vfs).2.files
      (fun ref => (FdOp.read fd len).taken host ref vfs) fun _ => [] := by
  cases hentry : vfs.fds.entries.get? fd with
  | none =>
      have hfails : VirtualFileSystem.fdsRead host fd len vfs = (.error .badFd, vfs) := by
        unfold VirtualFileSystem.fdsRead
        simp [FdTable.get, okOr, hentry, bind, Prog.get, Prog.ofExcept, Prog.throw]
      rw [hfails]
      have htaken : (fun ref => (FdOp.read fd len).taken host ref vfs) = fun _ => [] := by
        funext ref
        simp [taken, hentry]
      rw [htaken]
      exact Files.Changes.moved (show Files.Changes host vfs.files vfs.files from .refl) hsound
  | some entry =>
      by_cases hkind : entry.file.kind = .pipeRead
      · have hknown := hsound.known fd entry hentry
        obtain ⟨id, ref, hbackend⟩ := (hknown.reads hkind).1
        have href : Files.pipeRefOf entry.file = .ok ref := by simp [Files.pipeRefOf, hbackend]
        have htaken : ∀ r, (FdOp.read fd len).taken host r vfs =
            if r = ref then (VirtualFileSystem.fdsRead host fd len vfs).1.toOption.getD [] else [] := by
          intro r
          simp only [taken, hentry, FileRef.weight_eq_one, hkind, href, PipeEnd.kind, true_and, Except.ok.injEq]
          exact if_congr eq_comm rfl rfl
        rw [VirtualFileSystem.fdsRead_pipe hentry hknown hkind] at htaken ⊢
        have hspec := Files.pipeRead_spec host vfs.files hsound.bytes href len
        rcases hrun : Files.pipeRead host entry len vfs.files with ⟨r, files'⟩
        have hmade := hknown.pipe id ref hbackend
        cases r with
        | ok bytes =>
            refine moved_of_transfer bytes [] hsound hmade ?_ (fun r => ?_) (fun r => by simp)
            · simpa [VirtualFileSystem.onFiles, Prog.zoom, hrun] using (wp_ok hspec hrun).1
            · rw [htaken]
              simp [VirtualFileSystem.onFiles, Prog.zoom, hrun, Except.toOption]
        | error error =>
            refine moved_of_transfer [] [] hsound hmade ?_ (fun r => ?_) (fun r => by simp)
            · have hsame := (wp_error hspec hrun).1
              subst hsame
              simpa [VirtualFileSystem.onFiles, Prog.zoom, hrun] using Files.Transfer.refl (hsound.bytes ref)
            · rw [htaken]
              simp [VirtualFileSystem.onFiles, Prog.zoom, hrun, Except.toOption]
      · have htaken : (fun ref => (FdOp.read fd len).taken host ref vfs) = fun _ => [] := by
          funext ref
          simp [taken, hentry, FileRef.weight_eq_one, hkind, PipeEnd.kind]
        rw [htaken]
        exact (VirtualFileSystem.fdsRead_changes hentry hkind len).moved hsound

theorem write_moved (hsound : Files.Sound others vfs.files) (fd : Fd) (bytes : List UInt8) :
    Files.Moved others vfs.files (VirtualFileSystem.fdsWrite host fd bytes vfs).2.files (fun _ => [])
      fun ref => (FdOp.write fd bytes).given host ref vfs := by
  cases hentry : vfs.fds.entries.get? fd with
  | none =>
      have hfails : VirtualFileSystem.fdsWrite host fd bytes vfs = (.error .badFd, vfs) := by
        unfold VirtualFileSystem.fdsWrite
        simp [FdTable.get, okOr, hentry, bind, Prog.get, Prog.ofExcept, Prog.throw]
      rw [hfails]
      have hgiven : (fun ref => (FdOp.write fd bytes).given host ref vfs) = fun _ => [] := by
        funext ref
        simp [given, hentry]
      rw [hgiven]
      exact Files.Changes.moved (show Files.Changes host vfs.files vfs.files from .refl) hsound
  | some entry =>
      by_cases hkind : entry.file.kind = .pipeWrite
      · have hknown := hsound.known fd entry hentry
        obtain ⟨id, ref, hbackend⟩ := (hknown.writes hkind).1
        have href : Files.pipeRefOf entry.file = .ok ref := by simp [Files.pipeRefOf, hbackend]
        have hgiven : ∀ r, (FdOp.write fd bytes).given host r vfs =
            if r = ref then bytes.take ((VirtualFileSystem.fdsWrite host fd bytes vfs).1.toOption.getD 0) else [] := by
          intro r
          simp only [given, hentry, FileRef.weight_eq_one, hkind, href, PipeEnd.kind, true_and, Except.ok.injEq]
          exact if_congr eq_comm rfl rfl
        rw [VirtualFileSystem.fdsWrite_pipe hentry hknown hkind] at hgiven ⊢
        have hspec := Files.pipeWrite_spec host vfs.files hsound.bytes href bytes
        rcases hrun : Files.pipeWrite host entry bytes vfs.files with ⟨r, files'⟩
        have hmade := hknown.pipe id ref hbackend
        cases r with
        | ok count =>
            refine moved_of_transfer [] (bytes.take count) hsound hmade ?_ (fun r => by simp)
              (fun r => ?_)
            · simpa [VirtualFileSystem.onFiles, Prog.zoom, hrun] using (wp_ok hspec hrun).1
            · rw [hgiven]
              simp [VirtualFileSystem.onFiles, Prog.zoom, hrun, Except.toOption]
        | error error =>
            refine moved_of_transfer [] [] hsound hmade ?_ (fun r => by simp) (fun r => ?_)
            · have hsame := (wp_error hspec hrun).1
              subst hsame
              simpa [VirtualFileSystem.onFiles, Prog.zoom, hrun] using Files.Transfer.refl (hsound.bytes ref)
            · rw [hgiven]
              simp [VirtualFileSystem.onFiles, Prog.zoom, hrun, Except.toOption]
      · have hgiven : (fun ref => (FdOp.write fd bytes).given host ref vfs) = fun _ => [] := by
          funext ref
          simp [given, hentry, FileRef.weight_eq_one, hkind, PipeEnd.kind]
        rw [hgiven]
        exact (VirtualFileSystem.fdsWrite_changes hentry hkind bytes).moved hsound

theorem exec_moved (host : Host) (hsound : Files.Sound others vfs.files) (op : FdOp) :
    Files.Moved others vfs.files (op.exec host vfs).2.files (fun ref => op.taken host ref vfs)
      fun ref => op.given host ref vfs := by
  have hmoved : ∀ {vfs' : VirtualFileSystem}, Files.Changes host vfs.files vfs'.files →
      Files.Moved others vfs.files vfs'.files (fun _ => []) fun _ => [] := fun h => h.moved hsound
  cases op with
  | read fd len =>
      rw [show ((FdOp.read fd len).exec host vfs).2 = _ from discard_state _ _]
      exact read_moved hsound fd len
  | write fd bytes =>
      rw [show ((FdOp.write fd bytes).exec host vfs).2 = _ from discard_state _ _]
      exact write_moved hsound fd bytes
  | pipe flags =>
      rw [show ((FdOp.pipe flags).exec host vfs).2 = _ from discard_state _ _]
      exact hmoved (Files.pipe_changes flags)
  | eventfd initial flags =>
      rw [show ((FdOp.eventfd initial flags).exec host vfs).2 = _ from discard_state _ _]
      exact hmoved (Files.eventfd_changes initial flags)
  | insertSocket socketId flags =>
      rw [show ((FdOp.insertSocket socketId flags).exec host vfs).2 = _ from discard_state _ _]
      exact hmoved (Files.insertSocket_changes socketId flags)
  | insertEpoll epollId flags =>
      rw [show ((FdOp.insertEpoll epollId flags).exec host vfs).2 = _ from discard_state _ _]
      exact hmoved (Files.insertEpoll_changes epollId flags)
  | insertStdio fd kind cloexec => exact hmoved (Files.insertStdio_changes fd kind cloexec)
  | dup oldfd minFd cloexec =>
      rw [show ((FdOp.dup oldfd minFd cloexec).exec host vfs).2 = _ from discard_state _ _]
      exact hmoved (Files.dup_changes hsound oldfd minFd cloexec)
  | dup2 oldfd newfd cloexec =>
      rw [show ((FdOp.dup2 oldfd newfd cloexec).exec host vfs).2 = _ from discard_state _ _]
      exact hmoved (Files.dup2_changes hsound oldfd newfd cloexec)
  | close fd =>
      rw [show ((FdOp.close fd).exec host vfs).2 = _ from discard_state _ _]
      exact hmoved (Files.close_changes fd)
  | closeOnExec => exact hmoved Files.closeOnExec_changes
  | setFdFlags fd flags => exact hmoved (Files.setFdFlags_changes fd flags)
  | setStatusFlags fd flags => exact hmoved (Files.setStatusFlags_changes fd flags)
  | setPipeCapacity fd capacity =>
      rw [show ((FdOp.setPipeCapacity fd capacity).exec host vfs).2 = _ from discard_state _ _]
      exact hmoved (Files.setPipeCapacity_changes fd capacity)

end FdOp

/-! ### Steps and runs -/

namespace Tables

variable {world : Tables} {host : Host} {t : Nat} {table : FdTable}

theorem Sound.files (h : world.Sound) (htable : world.tables.get? t = some table) :
    Files.Sound (fun side ref => (world.tables.erase t).total fun other => other.endpoints side ref)
      (world.withTable table).files := by
  refine ⟨fun side ref => ?_, h.known t table htable, h.bytes, fun ref hfresh => ⟨h.fresh ref hfresh, fun side => ?_⟩⟩
  · show (world.vfs.shared.pipe ref).state.ends side = _
    rw [h.counted, endpoints, SortedMap.total_erase htable, Nat.add_comm]
    rfl
  · refine SortedMap.total_eq_zero_iff.mpr fun t' table' htable' => ?_
    rw [SortedMap.get?_erase] at htable'
    split at htable'
    · nomatch htable'
    · exact FdTable.endpoints_fresh (h.known t' table' htable') hfresh side

theorem Sound.put (h : world.Sound) {vfs' : VirtualFileSystem} {taken given : PipeRef → List UInt8}
    (hmoved : Files.Moved (fun side ref => (world.tables.erase t).total fun other => other.endpoints side ref)
      (world.withTable table).files vfs'.files taken given) : Sound ⟨vfs', world.tables.insert t vfs'.fds⟩ := by
  refine ⟨fun side ref => ?_, fun t' table' htable' fd entry hentry => ?_, hmoved.sound.bytes,
    fun ref hfresh => (hmoved.sound.fresh ref hfresh).1⟩
  · rw [endpoints, SortedMap.total_insert, Nat.add_comm]
    exact hmoved.sound.counted side ref
  · rw [SortedMap.get?_insert] at htable'
    split at htable'
    · cases htable'
      exact hmoved.sound.known fd entry hentry
    · exact (h.known t' table' htable' fd entry hentry).mono hmoved.grows

theorem Sound.clone (h : world.Sound) {copy : Nat} (htable : world.tables.get? t = some table)
    (hcopy : world.tables.get? copy = none) :
    Sound ⟨{ world.vfs with shared := table.clone world.vfs.shared }, world.tables.insert copy table⟩ := by
  obtain ⟨hends, hsame, hnext, hgrows⟩ := table.clone_spec world.vfs.shared
  refine ⟨fun side ref => ?_, fun t' table' htable' fd entry hentry => ?_, fun ref => (hsame ref).sound (h.bytes ref),
    fun ref hfresh => ?_⟩
  · rw [hends, h.counted, endpoints, endpoints, SortedMap.total_insert, SortedMap.erase_of_none hcopy, Nat.add_comm]
  · rw [SortedMap.get?_insert] at htable'
    split at htable'
    · cases htable'
      exact (h.known t table htable fd entry hentry).mono hgrows
    · exact (h.known t' table' htable' fd entry hentry).mono hgrows
  · rw [(hsame ref).content_eq]
    exact h.fresh ref (hnext ▸ hfresh)

theorem Sound.drop (h : world.Sound) (htable : world.tables.get? t = some table) :
    Sound ⟨{ world.vfs with shared := table.drop world.vfs.shared }, world.tables.erase t⟩ := by
  obtain ⟨hends, hsame, hnext, hgrows⟩ := table.drop_spec world.vfs.shared
  refine ⟨fun side ref => ?_, fun t' table' htable' fd entry hentry => ?_, fun ref => (hsame ref).sound (h.bytes ref),
    fun ref hfresh => ?_⟩
  · rw [hends, h.counted, endpoints, SortedMap.total_erase htable, Nat.add_sub_cancel_left, endpoints]
  · rw [SortedMap.get?_erase] at htable'
    split at htable'
    · nomatch htable'
    · exact (h.known t' table' htable' fd entry hentry).mono hgrows
  · rw [(hsame ref).content_eq]
    exact h.fresh ref (hnext ▸ hfresh)

theorem Sound.new (h : world.Sound) (hfree : world.tables.get? t = none) :
    Sound { world with tables := world.tables.insert t .new } := by
  refine ⟨fun side ref => ?_, fun t' table' htable' fd entry hentry => ?_, h.bytes, h.fresh⟩
  · rw [endpoints, SortedMap.total_insert, SortedMap.erase_of_none hfree, h.counted]
    exact (Nat.zero_add _).symm
  · rw [SortedMap.get?_insert] at htable'
    split at htable'
    · cases htable'
      nomatch hentry
    · exact h.known t' table' htable' fd entry hentry

theorem step_sound (host : Host) (h : world.Sound) (op : TableOp) : (world.step host op).Sound ∧ ∀ ref,
    (world.vfs.shared.pipe ref).content ++ given host ref world [op] =
      taken host ref world [op] ++ ((world.step host op).vfs.shared.pipe ref).content := by
  have hkept : world.Sound ∧ ∀ ref, (world.vfs.shared.pipe ref).content ++ [] =
      [] ++ (world.vfs.shared.pipe ref).content := ⟨h, fun ref => List.append_nil _⟩
  cases op with
  | new t =>
      cases htable : world.tables.get? t with
      | some table =>
          simp only [step, htable]
          exact hkept
      | none =>
          simp only [step, htable]
          exact ⟨h.new htable, hkept.2⟩
  | call t op =>
      cases htable : world.tables.get? t with
      | none =>
          simp only [step, given, taken, htable]
          exact hkept
      | some table =>
          have hmoved := FdOp.exec_moved host (h.files htable) op
          simp only [step, given, taken, htable, List.append_nil]
          exact ⟨h.put hmoved, hmoved.content⟩
  | clone t copy =>
      cases htable : world.tables.get? t with
      | none =>
          simp only [step, htable]
          exact hkept
      | some table =>
          cases hcopy : world.tables.get? copy with
          | some other =>
              simp only [step, htable, hcopy]
              exact hkept
          | none =>
              simp only [step, htable, hcopy]
              refine ⟨h.clone htable hcopy, fun ref => (hkept.2 ref).trans ?_⟩
              exact congrArg ([] ++ ·) ((table.clone_spec world.vfs.shared).2.1 ref).content_eq.symm
  | drop t =>
      cases htable : world.tables.get? t with
      | none =>
          simp only [step, htable]
          exact hkept
      | some table =>
          simp only [step, htable]
          refine ⟨h.drop htable, fun ref => (hkept.2 ref).trans ?_⟩
          exact congrArg ([] ++ ·) ((table.drop_spec world.vfs.shared).2.1 ref).content_eq.symm

theorem run_sound (host : Host) (ops : List TableOp) : ∀ {world : Tables}, world.Sound → (world.run host ops).Sound ∧ ∀ ref,
    (world.vfs.shared.pipe ref).content ++ given host ref world ops =
      taken host ref world ops ++ ((world.run host ops).vfs.shared.pipe ref).content := by
  induction ops with
  | nil => exact fun h => ⟨h, fun ref => List.append_nil _⟩
  | cons op ops ih =>
      intro world h
      obtain ⟨hstep, hcontent⟩ := step_sound host h op
      obtain ⟨hrun, hrest⟩ := ih hstep
      refine ⟨hrun, fun ref => ?_⟩
      have hgiven : given host ref world (op :: ops) =
          given host ref world [op] ++ given host ref (world.step host op) ops := by simp [given]
      have htaken : taken host ref world (op :: ops) =
          taken host ref world [op] ++ taken host ref (world.step host op) ops := by simp [taken]
      rw [hgiven, htaken, ← List.append_assoc, hcontent ref, List.append_assoc, hrest ref, List.append_assoc]
      rfl

theorem start_sound (vfs : VirtualFileSystem) : (start vfs).Sound :=
  ⟨fun side _ => by cases side <;> rfl, fun _ _ h => (nomatch h), fun _ => ⟨Nat.le_refl _, rfl⟩, fun _ _ => rfl⟩

/-! ### What readers and writers see -/

variable {fd : Fd} {entry : FdEntry} {ref : PipeRef}

/-- An empty pipe is at its end for a reader exactly if no descriptor of any table can still write to it. -/
theorem Sound.end_of_file (h : world.Sound) (htable : world.tables.get? t = some table)
    (hentry : table.entries.get? fd = some entry) (hkind : entry.file.kind = .pipeRead)
    (href : Files.pipeRefOf entry.file = .ok ref) (hempty : (world.vfs.shared.pipe ref).state.available = 0)
    {len : Nat} (hlen : len ≠ 0) :
    (VirtualFileSystem.fdsRead host fd len (world.withTable table)).1 = .ok [] ↔ world.endpoints .write ref = 0 := by
  have hentry' : (world.withTable table).fds.entries.get? fd = some entry := hentry
  have hknown : entry.Known (world.withTable table).shared := h.known t table htable fd entry hentry
  rw [VirtualFileSystem.fdsRead_pipe hentry' hknown hkind, ← h.counted]
  have hspec := Files.pipeRead_spec host (world.withTable table).files h.bytes href len
  rcases hrun : Files.pipeRead host entry len (world.withTable table).files with ⟨r, files'⟩
  simp only [VirtualFileSystem.onFiles, Prog.zoom, hrun]
  cases r with
  | ok bytes =>
      obtain ⟨_, hnothing, hready⟩ := wp_ok hspec hrun
      obtain rfl := hnothing hempty
      refine iff_of_true rfl ?_
      by_contra hwriters
      exact hready ⟨hempty, hlen, Nat.pos_of_ne_zero hwriters⟩
  | error error =>
      obtain ⟨_, _, hblocks⟩ := wp_error hspec hrun
      exact iff_of_false (fun h => by cases h) (hblocks hempty).2.2.ne'

/-- A pipe is broken for a writer exactly if no descriptor of any table can still read from it. -/
theorem Sound.broken_pipe (h : world.Sound) (hhost : host.PipesWait) (htable : world.tables.get? t = some table)
    (hentry : table.entries.get? fd = some entry) (hkind : entry.file.kind = .pipeWrite)
    (href : Files.pipeRefOf entry.file = .ok ref) (bytes : List UInt8) :
    (VirtualFileSystem.fdsWrite host fd bytes (world.withTable table)).1 = .error .brokenPipe ↔
      world.endpoints .read ref = 0 := by
  have hentry' : (world.withTable table).fds.entries.get? fd = some entry := hentry
  have hknown : entry.Known (world.withTable table).shared := h.known t table htable fd entry hentry
  rw [VirtualFileSystem.fdsWrite_pipe hentry' hknown hkind, ← h.counted]
  have hspec := Files.pipeWrite_spec host (world.withTable table).files h.bytes href bytes
  rcases hrun : Files.pipeWrite host entry bytes (world.withTable table).files with ⟨r, files'⟩
  simp only [VirtualFileSystem.onFiles, Prog.zoom, hrun]
  cases r with
  | ok count =>
      obtain ⟨_, hreaders, _⟩ := wp_ok hspec hrun
      exact iff_of_false (fun h => by cases h) hreaders
  | error error =>
      rw [Except.error.injEq]
      exact ((wp_error hspec hrun).2 hhost).2

/-- In every state a run of any tables reaches, a pipe counts exactly its ends in the live tables and holds no
more than its capacity, its readers have got a prefix of what its writers have given, and end of file and
broken pipes are seen exactly when the other ends are gone. -/
theorem pipes_exact (hhost : host.PipesWait) (vfs : VirtualFileSystem) (ops : List TableOp) (ref : PipeRef) :
    (∀ side, (((start vfs).run host ops).vfs.shared.pipe ref).state.ends side =
        ((start vfs).run host ops).endpoints side ref) ∧
      (((start vfs).run host ops).vfs.shared.pipe ref).state.buffer.length ≤
        (((start vfs).run host ops).vfs.shared.pipe ref).state.capacity ∧
      taken host ref (start vfs) ops <+: given host ref (start vfs) ops ∧
      ∀ t table fd entry, ((start vfs).run host ops).tables.get? t = some table →
        table.entries.get? fd = some entry → Files.pipeRefOf entry.file = .ok ref →
        (entry.file.kind = .pipeRead →
          (((start vfs).run host ops).vfs.shared.pipe ref).state.available = 0 → ∀ len, len ≠ 0 →
          ((VirtualFileSystem.fdsRead host fd len (((start vfs).run host ops).withTable table)).1 = .ok [] ↔
            ((start vfs).run host ops).endpoints .write ref = 0)) ∧
        (entry.file.kind = .pipeWrite → ∀ bytes,
          ((VirtualFileSystem.fdsWrite host fd bytes (((start vfs).run host ops).withTable table)).1 =
            .error .brokenPipe ↔ ((start vfs).run host ops).endpoints .read ref = 0)) := by
  obtain ⟨hsound, hcontent⟩ := run_sound host ops (start_sound vfs)
  refine ⟨fun side => hsound.counted side ref, (hsound.bytes ref).bounded, ⟨_, (hcontent ref).symm⟩, ?_⟩
  intro t table fd entry htable hentry href
  exact ⟨fun hkind hempty len hlen => hsound.end_of_file htable hentry hkind href hempty hlen,
    fun hkind bytes => hsound.broken_pipe hhost htable hentry hkind href bytes⟩

/-- A pipe in a table and its copy, written at one end and read at the other. -/
def sharedPipe : List TableOp :=
  [.new 0, .call 0 (.pipe ⟨0⟩), .clone 0 1, .call 0 (.write 1 [7, 8]), .call 1 (.read 0 1), .call 1 (.close 1)]

theorem empty_pipesWait : Host.empty.PipesWait := by
  intro count kind h
  cases h
  decide

theorem sharedPipe_exact : Host.empty.PipesWait ∧
    taken .empty 0 (start .blank) sharedPipe <+: given .empty 0 (start .blank) sharedPipe :=
  ⟨empty_pipesWait, (pipes_exact empty_pipesWait .blank sharedPipe 0).2.2.1⟩

def onePipe : Tables := (start .blank).run .empty [.new 0, .call 0 (.pipe ⟨0⟩)]

/-- A read of no bytes returns none from an empty pipe that can still be written to. -/
theorem empty_read_not_end_of_file :
    (onePipe.vfs.shared.pipe 0).state.available = 0 ∧ onePipe.endpoints .write 0 = 1 ∧
      ∃ table, onePipe.tables.get? 0 = some table ∧
        (VirtualFileSystem.fdsRead .empty 0 0 (onePipe.withTable table)).1 = .ok [] := by
  refine ⟨by decide +kernel, by decide +kernel, ?_⟩
  have hread : ((onePipe.tables.get? 0).map fun table =>
      (VirtualFileSystem.fdsRead .empty 0 0 (onePipe.withTable table)).1.toOption) = some (some []) := by
    decide +kernel
  obtain ⟨table, htable, hbytes⟩ := Option.map_eq_some_iff.mp hread
  exact ⟨table, htable, toOption_eq_some.mp hbytes⟩

/-! ### Readiness -/

theorem pollReadiness_pipeRead {files : Files} (hentry : files.fds.entries.get? fd = some entry)
    (hkind : entry.file.kind = .pipeRead) (href : Files.pipeRefOf entry.file = .ok ref) :
    files.pollReadiness fd = .ok
      { readable := 0 < (files.shared.pipe ref).state.available ∨ (files.shared.pipe ref).state.writers = 0
        writable := false
        hangUp := (files.shared.pipe ref).state.writers = 0
        error := false } := by
  have hget : files.fds.get fd = .ok entry := okOr_eq_ok.mpr hentry
  simp [Files.pollReadiness, hget, hkind, href, bind, Except.bind, pure, Except.pure]

theorem pollReadiness_pipeWrite {files : Files} (hentry : files.fds.entries.get? fd = some entry)
    (hkind : entry.file.kind = .pipeWrite) (href : Files.pipeRefOf entry.file = .ok ref) :
    files.pollReadiness fd = .ok
      { readable := false
        writable := 0 < (files.shared.pipe ref).state.readers ∧
          (files.shared.pipe ref).state.available < (files.shared.pipe ref).state.capacity
        hangUp := (files.shared.pipe ref).state.readers = 0
        error := false } := by
  have hget : files.fds.get fd = .ok entry := okOr_eq_ok.mpr hentry
  simp [Files.pollReadiness, hget, hkind, href, bind, Except.bind, pure, Except.pure]

theorem pollReadiness_eventfd {files : Files} (hentry : files.fds.entries.get? fd = some entry)
    (hkind : entry.file.kind = .eventfd) {event : EventfdRef} (href : Files.eventfdRefOf entry.file = .ok event) :
    files.pollReadiness fd = .ok ⟨(files.shared.eventfd event).readable, (files.shared.eventfd event).writable,
      false, false⟩ := by
  have hget : files.fds.get fd = .ok entry := okOr_eq_ok.mpr hentry
  simp [Files.pollReadiness, hget, hkind, href, bind, Except.bind, pure, Except.pure]

theorem eventfdRead_blocks {vfs : VirtualFileSystem} {event : EventfdRef}
    (href : Files.eventfdRefOf entry.file = .ok event) {len : Nat} (hlen : 8 ≤ len) :
    (VirtualFileSystem.onFiles (Files.eventfdRead entry len) vfs).1 = .error .wouldBlock ↔
      (vfs.shared.eventfd event).readable = false := by
  have hlong : ¬ len < 8 := by omega
  by_cases hzero : (vfs.shared.eventfd event).counter = 0
  · simp [VirtualFileSystem.onFiles, VirtualFileSystem.files, Prog.zoom, Files.eventfdRead, href, bind, Prog.get,
      Prog.ofExcept, Prog.throw, pure, EventfdState.read, EventfdState.readable, failIf, hlong, hzero, Except.bind]
  · simp [VirtualFileSystem.onFiles, VirtualFileSystem.files, Prog.zoom, Files.eventfdRead, href, bind, Prog.get,
      Prog.ofExcept, pure, Except.pure, EventfdState.read, EventfdState.readable, failIf, hlong, hzero, Except.bind,
      Files.share, Prog.modify]

theorem eventfdWrite_blocks {vfs : VirtualFileSystem} {event : EventfdRef}
    (href : Files.eventfdRefOf entry.file = .ok event) {bytes : List UInt8} (hlen : 8 ≤ bytes.length)
    (hone : EventfdState.ofLeBytes (bytes.take 8) = 1) :
    (VirtualFileSystem.onFiles (Files.eventfdWrite entry bytes) vfs).1 = .error .wouldBlock ↔
      (vfs.shared.eventfd event).writable = false := by
  have hlong : ¬ bytes.length < 8 := by omega
  have hvalue : ¬ 1 = u64Limit - 1 := by decide
  by_cases hfull : EventfdState.maxCounter < (vfs.shared.eventfd event).counter + 1
  · simp [VirtualFileSystem.onFiles, VirtualFileSystem.files, Prog.zoom, Files.eventfdWrite, href, bind, Prog.get,
      Prog.ofExcept, Prog.throw, pure, EventfdState.write, EventfdState.writable, failIf, hlong, hone, hvalue, hfull,
      Except.bind]
    omega
  · simp [VirtualFileSystem.onFiles, VirtualFileSystem.files, Prog.zoom, Files.eventfdWrite, href, bind, Prog.get,
      Prog.ofExcept, pure, Except.pure, EventfdState.write, EventfdState.writable, failIf, hlong, hone, hvalue, hfull,
      Except.bind, Files.share, Prog.modify]
    omega

/-- `FdTable::write` on a table, if it returns. Runs go on from a write that does not, as if the host had taken it. -/
def returnedWrite (host : Host) (fd : Fd) (bytes : List UInt8) (vfs : VirtualFileSystem) : Option (Except VfsError Nat) :=
  if pends then none else some (VirtualFileSystem.fdsWrite host fd bytes vfs).1
where
  pends : Bool :=
    match vfs.fds.entries.get? fd with
    | none => false
    | some entry =>
      match entry.file.kind, Files.pipeRefOf entry.file with
      | .pipeWrite, .ok ref =>
        (vfs.shared.description entry.description).flags.canWrite && (vfs.shared.pipe ref).writePends bytes
      | _, _ => false

theorem returnedWrite_pipe {vfs : VirtualFileSystem} (hentry : vfs.fds.entries.get? fd = some entry)
    (hknown : entry.Known vfs.shared) (hkind : entry.file.kind = .pipeWrite)
    (href : Files.pipeRefOf entry.file = .ok ref) (bytes : List UInt8) :
    returnedWrite host fd bytes vfs = if (vfs.shared.pipe ref).writePends bytes then none
      else some (VirtualFileSystem.fdsWrite host fd bytes vfs).1 := by
  unfold returnedWrite returnedWrite.pends
  simp only [hentry, hkind, href, (hknown.writes hkind).2, Bool.true_and]

theorem returnedWrite_eventfd {vfs : VirtualFileSystem} (hentry : vfs.fds.entries.get? fd = some entry)
    (hkind : entry.file.kind = .eventfd) (bytes : List UInt8) :
    returnedWrite host fd bytes vfs = some (VirtualFileSystem.fdsWrite host fd bytes vfs).1 := by
  unfold returnedWrite returnedWrite.pends
  simp [hentry, hkind]

/-- A read of a pipe waits exactly if the pipe is neither readable nor hung up. -/
theorem Sound.read_readiness (h : world.Sound) (hhost : host.PipesWait) (htable : world.tables.get? t = some table)
    (hentry : table.entries.get? fd = some entry) (hkind : entry.file.kind = .pipeRead) :
    ∃ readiness, (world.withTable table).files.pollReadiness fd = .ok readiness ∧ ∀ len, len ≠ 0 →
      ((VirtualFileSystem.fdsRead host fd len (world.withTable table)).1 = .error .wouldBlock ↔
        readiness.readable = false ∧ readiness.hangUp = false) := by
  have hentry' : (world.withTable table).fds.entries.get? fd = some entry := hentry
  have hknown : entry.Known (world.withTable table).shared := h.known t table htable fd entry hentry
  obtain ⟨id, ref, hbackend⟩ := (hknown.reads hkind).1
  have href : Files.pipeRefOf entry.file = .ok ref := by simp [Files.pipeRefOf, hbackend]
  refine ⟨_, pollReadiness_pipeRead hentry' hkind href, fun len hlen => ?_⟩
  rw [VirtualFileSystem.fdsRead_pipe hentry' hknown hkind]
  have hspec := Files.pipeRead_spec host (world.withTable table).files h.bytes href len
  have hblocks : ((world.withTable table).files.shared.pipe ref).state.ReadBlocks len ↔
      decide (0 < ((world.withTable table).files.shared.pipe ref).state.available ∨
        ((world.withTable table).files.shared.pipe ref).state.writers = 0) = false ∧
      decide (((world.withTable table).files.shared.pipe ref).state.writers = 0) = false := by
    rw [decide_eq_false_iff_not, decide_eq_false_iff_not, PipeState.ReadBlocks]
    omega
  rw [← hblocks]
  rcases hrun : Files.pipeRead host entry len (world.withTable table).files with ⟨r, files'⟩
  simp only [VirtualFileSystem.onFiles, Prog.zoom, hrun]
  cases r with
  | ok bytes => exact iff_of_false (fun h => by cases h) (wp_ok hspec hrun).2.2
  | error error =>
      rw [Except.error.injEq]
      exact (wp_error hspec hrun).2.1 hhost

/-- A write to a pipe that returns has to wait exactly if the pipe is neither writable nor hung up. -/
theorem Sound.write_readiness (h : world.Sound) (hhost : host.PipesWait) (htable : world.tables.get? t = some table)
    (hentry : table.entries.get? fd = some entry) (hkind : entry.file.kind = .pipeWrite) :
    ∃ readiness, (world.withTable table).files.pollReadiness fd = .ok readiness ∧ ∀ bytes, bytes ≠ [] →
      ((VirtualFileSystem.fdsWrite host fd bytes (world.withTable table)).1 = .error .wouldBlock ↔
        readiness.writable = false ∧ readiness.hangUp = false) := by
  have hentry' : (world.withTable table).fds.entries.get? fd = some entry := hentry
  have hknown : entry.Known (world.withTable table).shared := h.known t table htable fd entry hentry
  obtain ⟨id, ref, hbackend⟩ := (hknown.writes hkind).1
  have href : Files.pipeRefOf entry.file = .ok ref := by simp [Files.pipeRefOf, hbackend]
  refine ⟨_, pollReadiness_pipeWrite hentry' hkind href, fun bytes hbytes => ?_⟩
  rw [VirtualFileSystem.fdsWrite_pipe hentry' hknown hkind]
  have hspec := Files.pipeWrite_spec host (world.withTable table).files h.bytes href bytes
  have hbounded : ((world.withTable table).files.shared.pipe ref).state.available ≤
      ((world.withTable table).files.shared.pipe ref).state.capacity := (h.bytes ref).bounded
  have hblocks : ((world.withTable table).files.shared.pipe ref).state.WriteBlocks bytes ↔
      decide (0 < ((world.withTable table).files.shared.pipe ref).state.readers ∧
        ((world.withTable table).files.shared.pipe ref).state.available <
          ((world.withTable table).files.shared.pipe ref).state.capacity) = false ∧
      decide (((world.withTable table).files.shared.pipe ref).state.readers = 0) = false := by
    rw [decide_eq_false_iff_not, decide_eq_false_iff_not, PipeState.WriteBlocks]
    constructor
    · rintro ⟨hreaders, hfull, _⟩
      omega
    · rintro ⟨hfull, hreaders⟩
      exact ⟨hreaders, by omega, hbytes⟩
  rw [← hblocks]
  rcases hrun : Files.pipeWrite host entry bytes (world.withTable table).files with ⟨r, files'⟩
  simp only [VirtualFileSystem.onFiles, Prog.zoom, hrun]
  cases r with
  | ok count => exact iff_of_false (fun h => by cases h) (wp_ok hspec hrun).2.2
  | error error =>
      rw [Except.error.injEq]
      exact ((wp_error hspec hrun).2 hhost).1

/-- An eventfd makes a read wait exactly if it is not readable, and a write of one exactly if it is not writable. -/
theorem Sound.eventfd_readiness (host : Host) (h : world.Sound) (htable : world.tables.get? t = some table)
    (hentry : table.entries.get? fd = some entry) (hkind : entry.file.kind = .eventfd) :
    ∃ readiness, (world.withTable table).files.pollReadiness fd = .ok readiness ∧ readiness.hangUp = false ∧
      (∀ len, 8 ≤ len → ((VirtualFileSystem.fdsRead host fd len (world.withTable table)).1 = .error .wouldBlock ↔
        readiness.readable = false)) ∧
      ∀ bytes, 8 ≤ bytes.length → EventfdState.ofLeBytes (bytes.take 8) = 1 →
        ((VirtualFileSystem.fdsWrite host fd bytes (world.withTable table)).1 = .error .wouldBlock ↔
          readiness.writable = false) := by
  have hentry' : (world.withTable table).fds.entries.get? fd = some entry := hentry
  have hknown : entry.Known (world.withTable table).shared := h.known t table htable fd entry hentry
  obtain ⟨id, event, hbackend⟩ := (hknown.counts hkind).1
  have href : Files.eventfdRefOf entry.file = .ok event := by simp [Files.eventfdRefOf, hbackend]
  refine ⟨_, pollReadiness_eventfd hentry' hkind href, rfl, fun len hlen => ?_, fun bytes hlen hone => ?_⟩
  · rw [VirtualFileSystem.fdsRead_eventfd hentry' hknown hkind]
    exact eventfdRead_blocks href hlen
  · rw [VirtualFileSystem.fdsWrite_eventfd hentry' hknown hkind]
    exact eventfdWrite_blocks href hlen hone

/-- Each write of some bytes through the descriptor returns, as one that has to wait exactly if the readiness says so. -/
def WritesAgree (host : Host) (vfs : VirtualFileSystem) (fd : Fd) (readiness : Files.FdReadiness) : Prop :=
  ∀ bytes, bytes ≠ [] → ∃ answer, returnedWrite host fd bytes vfs = some answer ∧
    (answer = .error .wouldBlock ↔ readiness.writable = false ∧ readiness.hangUp = false)

theorem Sound.writesAgree_iff (h : world.Sound) (hhost : host.PipesWait) (htable : world.tables.get? t = some table)
    (hentry : table.entries.get? fd = some entry) (hkind : entry.file.kind = .pipeWrite)
    (href : Files.pipeRefOf entry.file = .ok ref) :
    ∃ readiness, (world.withTable table).files.pollReadiness fd = .ok readiness ∧
      (WritesAgree host (world.withTable table) fd readiness ↔ (world.vfs.shared.pipe ref).FitsPair) := by
  have hknown : entry.Known (world.withTable table).shared := h.known t table htable fd entry hentry
  obtain ⟨readiness, hpoll, hwrite⟩ := h.write_readiness hhost htable hentry hkind
  have hreturned : ∀ bytes, returnedWrite host fd bytes (world.withTable table) =
      if (world.vfs.shared.pipe ref).writePends bytes then none
      else some (VirtualFileSystem.fdsWrite host fd bytes (world.withTable table)).1 :=
    returnedWrite_pipe (show (world.withTable table).fds.entries.get? fd = some entry from hentry) hknown hkind href
  refine ⟨readiness, hpoll, ?_⟩
  rw [← (h.bytes ref).returns_iff]
  constructor
  · intro hagree bytes hbytes
    obtain ⟨answer, hanswer, _⟩ := hagree bytes hbytes
    rw [hreturned] at hanswer
    by_contra hpends
    rw [Bool.not_eq_false] at hpends
    rw [if_pos hpends] at hanswer
    cases hanswer
  · intro hreturns bytes hbytes
    refine ⟨_, ?_, hwrite bytes hbytes⟩
    rw [hreturned, if_neg]
    rw [Bool.not_eq_true]
    exact hreturns bytes hbytes

/-- In every state a run of any tables reaches, readiness says exactly when a read has to wait or a write to an eventfd,
and when a write to a pipe, exactly if the buffer of the pipe's host pair has room for what the pipe takes. -/
theorem readiness_agrees_iff (hhost : host.PipesWait) (vfs : VirtualFileSystem) (ops : List TableOp) (t : Nat)
    (table : FdTable) (fd : Fd) (entry : FdEntry) (htable : ((start vfs).run host ops).tables.get? t = some table)
    (hentry : table.entries.get? fd = some entry)
    (hkind : entry.file.kind = .pipeRead ∨ entry.file.kind = .pipeWrite ∨ entry.file.kind = .eventfd) :
    ∃ readiness, (((start vfs).run host ops).withTable table).files.pollReadiness fd = .ok readiness ∧
      (entry.file.kind ≠ .pipeWrite → ∀ len, 8 ≤ len →
        ((VirtualFileSystem.fdsRead host fd len (((start vfs).run host ops).withTable table)).1 =
          .error .wouldBlock ↔ readiness.readable = false ∧ readiness.hangUp = false)) ∧
      (entry.file.kind = .pipeWrite → ∃ ref, Files.pipeRefOf entry.file = .ok ref ∧
        (WritesAgree host (((start vfs).run host ops).withTable table) fd readiness ↔
          (((start vfs).run host ops).vfs.shared.pipe ref).FitsPair)) ∧
      (entry.file.kind = .eventfd → ∀ bytes, 8 ≤ bytes.length → EventfdState.ofLeBytes (bytes.take 8) = 1 →
        ∃ answer, returnedWrite host fd bytes (((start vfs).run host ops).withTable table) = some answer ∧
          (answer = .error .wouldBlock ↔ readiness.writable = false ∧ readiness.hangUp = false)) := by
  have hsound := (run_sound host ops (start_sound vfs)).1
  rcases hkind with hkind | hkind | hkind
  · obtain ⟨readiness, hpoll, hread⟩ := hsound.read_readiness hhost htable hentry hkind
    exact ⟨readiness, hpoll, fun _ len hlen => hread len (by omega), by simp [hkind], by simp [hkind]⟩
  · obtain ⟨id, ref, hbackend⟩ := ((hsound.known t table htable fd entry hentry).writes hkind).1
    have href : Files.pipeRefOf entry.file = .ok ref := by simp [Files.pipeRefOf, hbackend]
    obtain ⟨readiness, hpoll, hwrites⟩ := hsound.writesAgree_iff hhost htable hentry hkind href
    exact ⟨readiness, hpoll, by simp [hkind], fun _ => ⟨ref, href, hwrites⟩, by simp [hkind]⟩
  · obtain ⟨readiness, hpoll, hhangUp, hread, hwrite⟩ := hsound.eventfd_readiness host htable hentry hkind
    refine ⟨readiness, hpoll, fun _ len hlen => ?_, by simp [hkind], fun _ bytes hlen hone => ?_⟩
    · rw [hread len hlen]
      exact ⟨fun h => ⟨h, hhangUp⟩, fun h => h.1⟩
    · have hentry' : (((start vfs).run host ops).withTable table).fds.entries.get? fd = some entry := hentry
      refine ⟨_, returnedWrite_eventfd hentry' hkind bytes, ?_⟩
      rw [hwrite bytes hlen hone]
      exact ⟨fun h => ⟨h, hhangUp⟩, fun h => h.1⟩

/-- A host whose pipes have pairs, which take what they are given. -/
def pairedHost : Host := { Host.empty with pipePair := fun _ => true, pipeTransfer := .ok }

theorem pairedHost_pipesWait : pairedHost.PipesWait := by
  intro count kind h
  cases h

/-- A pipe with a pair, written at one end and copied. -/
def pairedPipe : List TableOp := [.new 0, .call 0 (.pipe ⟨0⟩), .clone 0 1, .call 0 (.write 1 [7, 8])]

/-- A process writes to the pipe that it got from another. -/
theorem paired_pipe_agrees : ∃ table readiness,
    ((start .blank).run pairedHost pairedPipe).tables.get? 1 = some table ∧
      (((start .blank).run pairedHost pairedPipe).withTable table).files.pollReadiness 1 = .ok readiness ∧
      WritesAgree pairedHost (((start .blank).run pairedHost pairedPipe).withTable table) 1 readiness := by
  have hfacts : (((start .blank).run pairedHost pairedPipe).tables.get? 1).map
      (fun table => (table.entries.get? 1).map fun entry =>
        (entry.file.kind, (Files.pipeRefOf entry.file).toOption)) = some (some (.pipeWrite, some 0)) := by
    decide +kernel
  obtain ⟨table, htable, hfacts⟩ := Option.map_eq_some_iff.mp hfacts
  obtain ⟨entry, hentry, hfacts⟩ := Option.map_eq_some_iff.mp hfacts
  obtain ⟨hkind, href⟩ := Prod.mk.inj hfacts
  obtain ⟨readiness, hpoll, _, hwrites, _⟩ :=
    readiness_agrees_iff pairedHost_pipesWait .blank pairedPipe 1 table 1 entry htable hentry (Or.inr (Or.inl hkind))
  obtain ⟨ref, href', hagree⟩ := hwrites hkind
  have hzero : ref = 0 := by
    rw [href'] at href
    exact Option.some.inj href
  refine ⟨table, readiness, htable, hpoll, hagree.mpr (Or.inr (Or.inr (Or.inr ?_)))⟩
  rw [hzero]
  decide +kernel

def widenedPipe : List TableOp := [.new 0, .call 0 (.pipe ⟨0⟩), .call 0 (.setPipeCapacity 1 (128 * 1024))]

/-- A pipe made wider than its pair is announced as writable, and a write of 64 KiB and one byte does not return. -/
theorem widened_pipe_pends :
    ¬∀ (host : Host) (vfs : VirtualFileSystem) (ops : List TableOp) (t : Nat) (table : FdTable) (fd : Fd)
      (entry : FdEntry), host.PipesWait → ((start vfs).run host ops).tables.get? t = some table →
      table.entries.get? fd = some entry → entry.file.kind = .pipeWrite →
      ∃ readiness, (((start vfs).run host ops).withTable table).files.pollReadiness fd = .ok readiness ∧
        WritesAgree host (((start vfs).run host ops).withTable table) fd readiness := by
  intro hagrees
  have hfacts : (((start .blank).run pairedHost widenedPipe).tables.get? 0).map
      (fun table => (table.entries.get? 1).map fun entry => entry.file.kind) = some (some .pipeWrite) := by
    decide +kernel
  obtain ⟨table, htable, hfacts⟩ := Option.map_eq_some_iff.mp hfacts
  obtain ⟨entry, hentry, hkind⟩ := Option.map_eq_some_iff.mp hfacts
  have hsound := (run_sound pairedHost widenedPipe (start_sound .blank)).1
  obtain ⟨id, ref, hbackend⟩ := ((hsound.known 0 table htable 1 entry hentry).writes hkind).1
  have href : Files.pipeRefOf entry.file = .ok ref := by simp [Files.pipeRefOf, hbackend]
  have hmade : ref < 1 := (hsound.known 0 table htable 1 entry hentry).pipe id ref hbackend
  obtain rfl : ref = 0 := Nat.lt_one_iff.mp hmade
  have hwide : ¬(((start .blank).run pairedHost widenedPipe).vfs.shared.pipe 0).FitsPair := by
    unfold PipeInner.FitsPair
    decide +kernel
  obtain ⟨readiness, hpoll, hwrites⟩ :=
    hagrees pairedHost .blank widenedPipe 0 table 1 entry pairedHost_pipesWait htable hentry hkind
  obtain ⟨readiness', hpoll', hiff⟩ := hsound.writesAgree_iff pairedHost_pipesWait htable hentry hkind href
  obtain rfl : readiness' = readiness := Except.ok.inj (hpoll'.symm.trans hpoll)
  exact hwide (hiff.mp hwrites)

end Tables

end Mcr.Vfs
