import Mcr.Vfs.FdCalls

/-!
# The laws of a descriptor table

Over whole runs of the calls that make, copy, flag and close descriptors. A close-on-exec flag is kept apart from the
entry it belongs to, so the invariant of the runs is that every flag belongs to an open descriptor.
-/

namespace Mcr.Vfs

open Prog

theorem FdTable.firstFree_least {keys : List Int} (hsorted : keys.Pairwise (· < ·)) {fd x : Int} (hle : fd ≤ x)
    (hlt : x < firstFree keys fd) : x ∈ keys := by
  induction keys generalizing fd with
  | nil => exact absurd hlt (not_lt.mpr hle)
  | cons key keys ih =>
      rw [List.pairwise_cons] at hsorted
      rw [firstFree] at hlt
      split at hlt
      · exact List.mem_cons_of_mem _ (ih hsorted.2 hle hlt)
      · split at hlt
        · rename_i heq
          rcases hle.eq_or_lt with rfl | hnext
          · exact heq ▸ List.mem_cons_self
          · exact List.mem_cons_of_mem _ (ih hsorted.2 hnext hlt)
        · exact absurd hlt (not_lt.mpr hle)

/-! ### Ids of closed descriptors -/

def socketIdForEntry (entry : FdEntry) : Option Nat :=
  match entry.file.kind, entry.file.inode.backend with
  | .socket, .socket id => some id
  | _, _ => none

def epollIdForEntry (entry : FdEntry) : Option Nat :=
  match entry.file.kind, entry.file.inode.backend with
  | .epoll, .epoll id => some id
  | _, _ => none

structure ClosedFdIds where
  socketIds : List Nat
  epollIds : List Nat

def ClosedFdIds.addEntry (closed : ClosedFdIds) (entry : FdEntry) : ClosedFdIds where
  socketIds := closed.socketIds ++ (socketIdForEntry entry).toList
  epollIds := closed.epollIds ++ (epollIdForEntry entry).toList

namespace Files

variable {files files' : Files}

def insertAtOrAbove (minFd : Fd) (file : FileRef) (cloexec : Bool) : Call Fd := do
  let fd ← nextFdFrom minFd
  insertEntry fd file cloexec ⟨oRdwr⟩ none

def insert (file : FileRef) (cloexec : Bool) : Call Fd := insertAtOrAbove firstAllocFd file cloexec

def closeEach : List Fd → ClosedFdIds → Call ClosedFdIds
  | [], closed => pure closed
  | fd :: rest, closed => do
    let files ← .get
    match files.fds.entries.get? fd with
    | none => closeEach rest closed
    | some entry =>
      .modify (·.dropEntry fd)
      closeEach rest (closed.addEntry entry)

/-- `close_on_exec` with the ids it reports: `order` is the order in which the hash set gives its members. -/
def closeOnExecIn (order : List Fd) : Call ClosedFdIds := do
  .modify fun files => { files with fds := { files.fds with cloexec := .empty } }
  closeEach order ⟨[], []⟩

theorem dropEntry_get? (fd x : Fd) :
    (files.dropEntry fd).fds.entries.get? x = if x = fd then none else files.fds.entries.get? x := by
  unfold dropEntry
  split
  · rename_i hnone
    split
    · rename_i heq
      rw [heq, hnone]
    · rfl
  · rw [SortedMap.get?_erase]

theorem dropEntries_get? (order : List Fd) (x : Fd) : (order.foldl dropEntry files).fds.entries.get? x =
    if x ∈ order then none else files.fds.entries.get? x := by
  induction order generalizing files with
  | nil => simp
  | cons fd order ih =>
      rw [List.foldl_cons, ih, dropEntry_get?]
      by_cases heq : x = fd <;> simp [heq]

theorem dropEntries_cloexec (order : List Fd) : (order.foldl dropEntry files).fds.cloexec = files.fds.cloexec := by
  induction order generalizing files with
  | nil => rfl
  | cons fd order ih =>
      rw [List.foldl_cons, ih]
      unfold dropEntry
      split <;> rfl

theorem closeEach_run {order : List Fd} (h : order.Nodup) (closed : ClosedFdIds) : ∃ closed',
    closeEach order closed files = (.ok closed', order.foldl dropEntry files) ∧
    closed'.socketIds = closed.socketIds ++
      order.filterMap (fun fd => (files.fds.entries.get? fd).bind socketIdForEntry) ∧
    closed'.epollIds = closed.epollIds ++
      order.filterMap (fun fd => (files.fds.entries.get? fd).bind epollIdForEntry) := by
  induction order generalizing files closed with
  | nil => exact ⟨closed, rfl, by simp, by simp⟩
  | cons fd order ih =>
      obtain ⟨hfd, horder⟩ := List.nodup_cons.mp h
      have hget : (Prog.get : Call Files) files = (.ok files, files) := rfl
      -- the entries still to come are those of the first state
      have hsame : ∀ (f : FdEntry → Option Nat),
          order.filterMap (fun x => ((files.dropEntry fd).fds.entries.get? x).bind f) =
            order.filterMap fun x => (files.fds.entries.get? x).bind f := fun f => List.filterMap_congr fun x hx => by
        rw [dropEntry_get?, if_neg (ne_of_mem_of_not_mem hx hfd)]
      rw [closeEach, run_bind_ok hget]
      cases hentry : files.fds.entries.get? fd with
      | none =>
          obtain ⟨closed', hrun, hids⟩ := @ih files horder closed
          have hdrop : files.dropEntry fd = files := by
            rw [dropEntry, hentry]
          exact ⟨closed', by rw [List.foldl_cons, hdrop]; exact hrun, by simpa [hentry] using hids⟩
      | some entry =>
          obtain ⟨closed', hrun, hsockets, hepolls⟩ := @ih (files.dropEntry fd) horder (closed.addEntry entry)
          refine ⟨closed', hrun, ?_, ?_⟩
          · rw [hsockets, hsame, ClosedFdIds.addEntry, List.append_assoc]
            cases hid : socketIdForEntry entry <;> simp [hentry, hid]
          · rw [hepolls, hsame, ClosedFdIds.addEntry, List.append_assoc]
            cases hid : epollIdForEntry entry <;> simp [hentry, hid]

/-! ### Free numbers and flags -/

/-- The numbers are the least free ones from `low` on, in order. -/
def LowestFree (files : Files) : Fd → List Fd → Prop
  | _, [] => True
  | low, fd :: rest =>
    IsLeast {x | low ≤ x ∧ files.fds.entries.get? x = none} fd ∧ LowestFree files (fd + 1) rest

/-- Every close-on-exec flag belongs to an open descriptor. -/
def FlagsOpen (files : Files) : Prop :=
  ∀ fd, (files.fds.cloexec.get? fd).isSome → (files.fds.entries.get? fd).isSome

/-- The entries and the flags of two tables are the same. -/
def SameTable (files files' : Files) : Prop :=
  files'.fds.entries = files.fds.entries ∧ files'.fds.cloexec = files.fds.cloexec

theorem lowestFree_of_next {low fd : Fd} (h : files.fds.nextFdFrom low = .ok fd) : files.LowestFree low [fd] := by
  obtain ⟨-, hle, hfree⟩ := FdTable.nextFdFrom_ok h
  refine ⟨⟨⟨hle, hfree⟩, fun x hx => ?_⟩, trivial⟩
  obtain ⟨_, -, h⟩ := except_bind_eq_ok.mp h
  obtain ⟨_, -, h⟩ := except_bind_eq_ok.mp h
  cases h
  by_contra hlt
  obtain ⟨entry, hentry⟩ := SortedMap.mem_keys.mp
    (FdTable.firstFree_least files.fds.entries.keys_sorted hx.1 (not_le.mp hlt))
  rw [hx.2] at hentry
  cases hentry

theorem FlagsOpen.of_same (h : files.FlagsOpen) (hsame : SameTable files files') : files'.FlagsOpen := by
  intro fd hfd
  rw [hsame.2] at hfd
  rw [hsame.1]
  exact h fd hfd

theorem FlagsOpen.bound (h : files.FlagsOpen) (fd : Fd) (entry : FdEntry) (cloexec : Bool) :
    (files.bound fd entry cloexec).FlagsOpen := by
  intro x hx
  show ((files.fds.entries.insert fd entry).get? x).isSome
  rw [SortedMap.get?_insert]
  split
  · rfl
  · rename_i hne
    refine h x ?_
    cases cloexec <;> simpa [Files.bound, FdTable.withCloexec, hne] using hx

theorem FlagsOpen.vacated (h : files.FlagsOpen) (fd : Fd) : (files.vacated fd).FlagsOpen := by
  unfold Files.vacated
  split
  · exact h
  · intro x hx
    simp only [closed, SortedMap.get?_erase] at hx ⊢
    split at hx
    · cases hx
    · rename_i hne
      rw [if_neg hne]
      exact h x hx

theorem FlagsOpen.inserted (h : files.FlagsOpen) (fd : Fd) (file : FileRef) (cloexec : Bool) (flags : OpenFlags)
    (path : Option GuestPath) : (files.inserted fd file cloexec flags path).FlagsOpen :=
  (h.bound fd _ cloexec).of_same ⟨rfl, rfl⟩

end Files

/-! ### The calls -/

namespace VirtualFileSystem

/-- The calls that make, copy, flag and close descriptors. -/
inductive DescriptorOp
  | insert (file : FileRef) (cloexec : Bool)
  | insertAtOrAbove (minFd : Fd) (file : FileRef) (cloexec : Bool)
  | insertOpen (file : FileRef) (flags : OpenFlags) (path : Option GuestPath)
  | pipe (flags : OpenFlags)
  | eventfd (initial : Nat) (flags : OpenFlags)
  | insertSocket (socketId : Nat) (flags : OpenFlags)
  | insertEpoll (epollId : Nat) (flags : OpenFlags)
  | dup (oldfd minFd : Fd) (cloexec : Bool)
  | dup2 (oldfd newfd : Fd) (cloexec : Bool)
  | dup3 (oldfd newfd : Fd) (flags : OpenFlags)
  | dupfd (fd : Fd) (arg : Nat) (cloexec : Bool)
  | setfd (fd : Fd) (arg : Nat)
  | close (fd : Fd)
  | closeOnExec (order : List Fd)

/-- The descriptors a call returns and the ids it reports. -/
structure DescriptorAnswer where
  fds : List Fd
  closed : ClosedFdIds

def answering {α : Type} (call : Call α) (answer : α → DescriptorAnswer) : Call DescriptorAnswer := do
  let a ← call
  pure (answer a)

def oneFd (fd : Fd) : DescriptorAnswer := ⟨[fd], [], []⟩

namespace DescriptorOp

def exec (host : Host) : DescriptorOp → Call DescriptorAnswer
  | .insert file cloexec => answering (onFiles (Files.insert file cloexec)) oneFd
  | .insertAtOrAbove minFd file cloexec => answering (onFiles (Files.insertAtOrAbove minFd file cloexec)) oneFd
  | .insertOpen file flags path => answering (onFiles (Files.insertOpen file flags path)) oneFd
  | .pipe flags => answering (onFiles (Files.pipe host flags)) fun fds => ⟨[fds.1, fds.2], [], []⟩
  | .eventfd initial flags => answering (onFiles (Files.eventfd initial flags)) oneFd
  | .insertSocket socketId flags => answering (onFiles (Files.insertSocket socketId flags)) oneFd
  | .insertEpoll epollId flags => answering (onFiles (Files.insertEpoll epollId flags)) oneFd
  | .dup oldfd minFd cloexec => answering (onFiles (Files.dup oldfd minFd cloexec)) oneFd
  | .dup2 oldfd newfd cloexec => answering (onFiles (Files.dup2 oldfd newfd cloexec)) oneFd
  | .dup3 oldfd newfd flags => answering (VirtualFileSystem.dup3 oldfd newfd flags) oneFd
  | .dupfd fd arg cloexec => answering (fcntl fd (if cloexec then fDupfdCloexec else fDupfd) arg) fun newfd => oneFd newfd
  | .setfd fd arg => answering (fcntl fd fSetfd arg) fun _ => ⟨[], [], []⟩
  | .close fd => answering (onFiles (Files.close fd)) fun _ => ⟨[], [], []⟩
  | .closeOnExec order => answering (onFiles (Files.closeOnExecIn order)) fun closed => ⟨[], closed⟩

/-- A hash set gives its members in some order. -/
def Possible (files : Files) : DescriptorOp → Prop
  | .closeOnExec order => order.Perm files.fds.cloexec.keys
  | _ => True

/-- `fd` is a copy of `oldfd`: the same open file description under a flag of its own. -/
structure Copied (files : Files) (oldfd : Fd) (cloexec : Bool) (fd : Fd) (files' : Files) : Prop where
  other : fd ≠ oldfd
  shares : ∃ entry, files.fds.entries.get? oldfd = some entry ∧ files'.fds.entries.get? oldfd = some entry ∧
    files'.fds.entries.get? fd = some entry
  flag : (files'.fds.cloexec.get? fd).isSome = cloexec
  oldFlag : files'.fds.cloexec.get? oldfd = files.fds.cloexec.get? oldfd

/-- What `close_on_exec` removes, in the order of the numbers. -/
def removed (files : Files) (id : FdEntry → Option Nat) : List Nat :=
  files.fds.cloexec.keys.filterMap fun fd => (files.fds.entries.get? fd).bind id

/-- What a call that returns has done to the table. -/
def Law (files files' : Files) : DescriptorOp → DescriptorAnswer → Prop
  | .insert _ _, a | .insertOpen _ _ _, a | .eventfd _ _, a | .insertSocket _ _, a | .insertEpoll _ _, a =>
    files.LowestFree firstAllocFd a.fds ∧ a.fds.length = 1
  | .pipe _, a => files.LowestFree firstAllocFd a.fds ∧ a.fds.length = 2
  | .insertAtOrAbove minFd _ _, a => files.LowestFree minFd a.fds ∧ a.fds.length = 1
  | .dup oldfd minFd cloexec, a => ∃ fd, a.fds = [fd] ∧ files.LowestFree minFd [fd] ∧ Copied files oldfd cloexec fd files'
  | .dupfd oldfd arg cloexec, a =>
    ∃ fd, a.fds = [fd] ∧ files.LowestFree arg [fd] ∧ Copied files oldfd cloexec fd files'
  | .dup2 oldfd newfd cloexec, _ => if oldfd = newfd then files' = files else Copied files oldfd cloexec newfd files'
  | .dup3 oldfd newfd flags, _ => Copied files oldfd flags.cloexec newfd files'
  | .setfd fd arg, _ => files'.fds.entries = files.fds.entries ∧
    ((files'.fds.cloexec.get? fd).isSome ↔ UInt32.ofNat arg &&& fdCloexec ≠ 0) ∧
    ∀ other, other ≠ fd → files'.fds.cloexec.get? other = files.fds.cloexec.get? other
  | .close fd, _ => ∀ x, files'.fds.entries.get? x = if x = fd then none else files.fds.entries.get? x
  | .closeOnExec _, a =>
    (∀ fd, files'.fds.entries.get? fd =
      if (files.fds.cloexec.get? fd).isSome then none else files.fds.entries.get? fd) ∧
    a.closed.socketIds.Perm (removed files socketIdForEntry) ∧ a.closed.epollIds.Perm (removed files epollIdForEntry)

def MayFail : DescriptorOp → Prop
  | .closeOnExec _ => False
  | _ => True

/-- Flags stay with open descriptors, and a call that fails changes no entry and no flag. -/
def Lawful (op : DescriptorOp) (files : Files) (result : Except VfsError DescriptorAnswer) (files' : Files) : Prop :=
  files'.FlagsOpen ∧ match result with
    | .ok answer => op.Law files files' answer
    | .error _ => op.MayFail ∧ files.SameTable files'

variable {op : DescriptorOp} {files files' : Files} {low oldfd fd : Fd} {cloexec : Bool} {entry : FdEntry}

theorem Copied.of_bound (h : files.fds.entries.get? oldfd = some entry) (hne : fd ≠ oldfd)
    (hentry : files'.fds.entries.get? oldfd = some entry)
    (hflag : files'.fds.cloexec.get? oldfd = files.fds.cloexec.get? oldfd) :
    Copied files oldfd cloexec fd (files'.bound fd entry cloexec) where
  other := hne
  shares := by
    refine ⟨entry, h, ?_, ?_⟩
    · show (files'.fds.entries.insert fd entry).get? oldfd = _
      rw [SortedMap.get?_insert, if_neg hne.symm, hentry]
    · show (files'.fds.entries.insert fd entry).get? fd = _
      rw [SortedMap.get?_insert, if_pos rfl]
  flag := by cases cloexec <;> simp [Files.bound, FdTable.withCloexec]
  oldFlag := by cases cloexec <;> simp [Files.bound, FdTable.withCloexec, hne.symm, hflag]

theorem Copied.of_free (hentry : files.fds.entries.get? oldfd = some entry) (hfd : files.fds.nextFdFrom low = .ok fd) :
    Copied files oldfd cloexec fd (files.bound fd entry cloexec) := by
  refine .of_bound hentry ?_ hentry rfl
  rintro rfl
  obtain ⟨-, -, hfree⟩ := FdTable.nextFdFrom_ok hfd
  rw [hfree] at hentry
  cases hentry

theorem Copied.of_vacated (hentry : files.fds.entries.get? oldfd = some entry) (hne : oldfd ≠ fd) :
    Copied files oldfd cloexec fd ((files.vacated fd).bound fd entry cloexec) := by
  refine .of_bound hentry hne.symm ?_ ?_ <;> unfold Files.vacated <;> split
  · exact hentry
  · simp [Files.closed, hne, hentry]
  · rfl
  · simp [Files.closed, hne]

theorem setfd_lawful {arg : Nat} (h : files.FlagsOpen) (hentry : files.fds.entries.get? fd = some entry)
    (hflag : cloexec ↔ UInt32.ofNat arg &&& fdCloexec ≠ 0) :
    (setfd fd arg).Lawful files (.ok ⟨[], [], []⟩) ⟨files.fds.withCloexec fd cloexec, files.shared⟩ := by
  refine ⟨fun x hx => ?_, rfl, .trans ?_ hflag, fun other hne => ?_⟩
  rotate_left
  · cases cloexec <;> simp [FdTable.withCloexec]
  · cases cloexec <;> simp [FdTable.withCloexec, hne]
  by_cases heq : x = fd
  · rw [heq]
    exact Option.isSome_iff_exists.mpr ⟨entry, hentry⟩
  · refine h x ?_
    cases cloexec <;> simpa [FdTable.withCloexec, heq] using hx

theorem closeOnExec_lawful {order : List Fd} (horder : order.Perm files.fds.cloexec.keys) :
    ∃ closed, Files.closeOnExecIn order files = (.ok closed, (Files.closeOnExecIn order files).2) ∧
      (closeOnExec order).Lawful files (.ok ⟨[], closed⟩) (Files.closeOnExecIn order files).2 := by
  have hnodup : order.Nodup := horder.nodup_iff.mpr (files.fds.cloexec.keys_sorted.imp ne_of_lt)
  obtain ⟨closed, hrun, hsockets, hepolls⟩ :=
    @Files.closeEach_run { files with fds := { files.fds with cloexec := .empty } } order hnodup ⟨[], []⟩
  have hexec : Files.closeOnExecIn order files = _ := hrun
  refine ⟨closed, by rw [hexec], ?_⟩
  rw [hexec]
  refine ⟨fun fd hfd => ?_, fun fd => ?_, ?_, ?_⟩
  · rw [Files.dropEntries_cloexec] at hfd
    cases hfd
  · have hmem : fd ∈ order ↔ (files.fds.cloexec.get? fd).isSome := by
      rw [horder.mem_iff, SortedMap.mem_keys, Option.isSome_iff_exists]
    simp only [Files.dropEntries_get?, hmem]
  · rw [hsockets]
    exact horder.filterMap _
  · rw [hepolls]
    exact horder.filterMap _

theorem wp_answering {α : Type} {call : Files.Call α} {answer : α → DescriptorAnswer} {vfs : VirtualFileSystem}
    (h : wp call (fun a files' => op.Lawful vfs.files (.ok (answer a)) files')
      (fun e files' => op.Lawful vfs.files (.error e) files') vfs.files) :
    wp (answering (onFiles call) answer) (fun answer vfs' => op.Lawful vfs.files (.ok answer) vfs'.files)
      (fun e vfs' => op.Lawful vfs.files (.error e) vfs'.files) vfs := by
  unfold answering onFiles
  rw [wp_bind, wp_zoom]
  exact wp_mono h (fun _ _ h => (wp_pure _).mpr h) (fun _ _ h => h)

theorem insertLowest_lawful {file : FileRef} {flags : OpenFlags} {path : Option GuestPath} (h : files.FlagsOpen)
    (hmay : op.MayFail) (hop : ∀ fd files', files.LowestFree low [fd] → op.Law files files' (oneFd fd)) :
    wp (do let fd ← Files.nextFdFrom low; Files.insertEntry fd file cloexec flags path)
      (fun fd files' => op.Lawful files (.ok (oneFd fd)) files')
      (fun e files' => op.Lawful files (.error e) files') files := by
  refine wp_mono (Files.insertLowest_spec _ _ _ _) ?_ ?_
  · rintro fd _ ⟨hfd, rfl⟩
    exact ⟨h.inserted _ _ _ _ _, hop _ _ (Files.lowestFree_of_next hfd)⟩
  · rintro _ _ ⟨rfl, -⟩
    exact ⟨h, hmay, rfl, rfl⟩

/-- Every call keeps the laws, whether it returns or fails. -/
theorem exec_lawful (host : Host) {vfs : VirtualFileSystem} (h : vfs.files.FlagsOpen) (hop : op.Possible vfs.files) :
    wp (op.exec host) (fun answer vfs' => op.Lawful vfs.files (.ok answer) vfs'.files)
      (fun e vfs' => op.Lawful vfs.files (.error e) vfs'.files) vfs := by
  have hkept : op.MayFail → ∀ e files', files' = vfs.files → op.Lawful vfs.files (.error e) files' := by
    rintro hmay e _ rfl
    exact ⟨h, hmay, rfl, rfl⟩
  have hopened : ∀ {fd : Fd} {file : FileRef} {flags : OpenFlags} {files : Files} {cloexec : Bool},
      vfs.files.SameTable files → (files.inserted fd file cloexec flags none).FlagsOpen := fun hsame =>
    (h.of_same hsame).inserted _ _ _ _ _
  cases op with
  | insert file cloexec => exact wp_answering (insertLowest_lawful h trivial fun _ _ hfd => ⟨hfd, rfl⟩)
  | insertAtOrAbove minFd file cloexec =>
      exact wp_answering (insertLowest_lawful h trivial fun _ _ hfd => ⟨hfd, rfl⟩)
  | insertOpen file flags path => exact wp_answering (insertLowest_lawful h trivial fun _ _ hfd => ⟨hfd, rfl⟩)
  | pipe flags =>
      refine wp_answering (wp_mono (Files.pipe_spec host flags) ?_ ?_)
      · rintro ⟨readFd, writeFd⟩ _ ⟨inodeId, hread, hwrite, rfl⟩
        have hflags : (vfs.files.withPipe host).FlagsOpen := h.of_same ⟨rfl, rfl⟩
        exact ⟨(hflags.inserted _ _ _ _ _).inserted _ _ _ _ _,
          ⟨(Files.lowestFree_of_next hread).1, Files.lowestFree_of_next hwrite⟩, rfl⟩
      · rintro _ _ (rfl | rfl) <;> exact ⟨h.of_same ⟨rfl, rfl⟩, trivial, rfl, rfl⟩
  | eventfd initial flags =>
      refine wp_answering (wp_mono (Files.eventfd_spec initial flags) ?_ ?_)
      · rintro fd _ ⟨inodeId, hfd, rfl⟩
        exact ⟨hopened ⟨rfl, rfl⟩, Files.lowestFree_of_next hfd, rfl⟩
      · rintro _ _ (rfl | rfl | rfl) <;> exact ⟨h.of_same ⟨rfl, rfl⟩, trivial, rfl, rfl⟩
  | insertSocket socketId flags =>
      refine wp_answering (wp_mono (Files.insertSocket_spec socketId flags) ?_ (hkept trivial))
      rintro fd _ ⟨inodeId, hfd, rfl⟩
      exact ⟨hopened ⟨rfl, rfl⟩, Files.lowestFree_of_next hfd, rfl⟩
  | insertEpoll epollId flags =>
      refine wp_answering (wp_mono (Files.insertEpoll_spec epollId flags) ?_ (hkept trivial))
      rintro fd _ ⟨inodeId, hfd, rfl⟩
      exact ⟨hopened ⟨rfl, rfl⟩, Files.lowestFree_of_next hfd, rfl⟩
  | dup oldfd minFd cloexec =>
      refine wp_answering (wp_mono (Files.dup_spec oldfd minFd cloexec) ?_ (hkept trivial))
      rintro fd _ ⟨entry, hentry, hfd, rfl⟩
      exact ⟨h.bound _ _ _, fd, rfl, Files.lowestFree_of_next hfd, .of_free hentry hfd⟩
  | dup2 oldfd newfd cloexec =>
      refine wp_answering (wp_mono (Files.dup2_spec oldfd newfd cloexec) ?_ (hkept trivial))
      rintro fd _ ⟨rfl, entry, hentry, ⟨heq, rfl⟩ | ⟨hne, rfl⟩⟩
      · exact ⟨h, (iff_of_eq (if_pos heq)).mpr rfl⟩
      · exact ⟨(h.vacated _).bound _ _ _, (iff_of_eq (if_neg hne)).mpr (.of_vacated hentry hne)⟩
  | dup3 oldfd newfd flags =>
      show wp (answering (VirtualFileSystem.dup3 oldfd newfd flags) oneFd) _ _ vfs
      unfold answering VirtualFileSystem.dup3 onFiles
      rw [wp_bind, wp_bind]
      refine wp_check (fun e _ => hkept trivial e _ rfl) fun _ hcheck => ?_
      have hne : oldfd ≠ newfd := fun heq => by simp [failIf, heq] at hcheck
      rw [wp_zoom]
      refine wp_mono (Files.dup2_spec oldfd newfd flags.cloexec) ?_ (hkept trivial)
      rintro fd _ ⟨rfl, entry, hentry, ⟨heq, -⟩ | ⟨-, rfl⟩⟩
      · exact absurd heq hne
      · exact (wp_pure _).mpr ⟨(h.vacated _).bound _ _ _, .of_vacated hentry hne⟩
  | dupfd fd arg cloexec =>
      show wp (answering (fcntl fd (if cloexec then fDupfdCloexec else fDupfd) arg) _) _ _ vfs
      have hcmd : fcntl fd (if cloexec then fDupfdCloexec else fDupfd) arg =
          Prog.ofExcept (fdOfArg arg) >>= fun minFd => onFiles (Files.dup fd minFd cloexec) >>= fun newfd =>
            pure newfd.toNat := by
        cases cloexec <;> rfl
      unfold answering
      rw [hcmd, wp_bind, wp_bind]
      refine wp_check (fun e _ => hkept trivial e _ rfl) fun minFd harg => ?_
      obtain rfl : minFd = arg := by
        unfold fdOfArg at harg
        split at harg
        · exact (Except.ok.inj harg).symm
        · cases harg
      unfold onFiles
      rw [wp_bind, wp_zoom]
      refine wp_mono (Files.dup_spec fd arg cloexec) ?_ (hkept trivial)
      rintro newfd _ ⟨entry, hentry, hnewfd, rfl⟩
      obtain ⟨hpos, -, -⟩ := FdTable.nextFdFrom_ok hnewfd
      rw [wp_pure, wp_pure]
      exact ⟨h.bound _ _ _, newfd, congrArg (fun fd => [fd]) (Int.toNat_of_nonneg hpos),
        Files.lowestFree_of_next hnewfd, .of_free hentry hnewfd⟩
  | setfd fd arg =>
      show wp (answering (do onFiles (Files.setFdFlags fd (UInt32.ofNat arg)); pure 0 : Call Nat) _) _ _ vfs
      unfold answering onFiles Files.setFdFlags Files.update
      rw [wp_bind, wp_bind, wp_zoom, wp_bind, wp_get, wp_bind]
      refine wp_check (fun e _ => hkept trivial e _ rfl) fun fds hfds => ?_
      dsimp only at hfds
      rw [FdTable.setCloexec_eq] at hfds
      split at hfds
      · rename_i hopen
        obtain ⟨entry, hentry⟩ := Option.isSome_iff_exists.mp hopen
        cases hfds
        rw [wp_modify, wp_pure, wp_pure]
        exact setfd_lawful h hentry decide_eq_true_iff
      · cases hfds
  | close fd =>
      refine wp_answering ?_
      rw [wp_iff, Files.close_eq]
      cases hentry : vfs.files.fds.entries.get? fd with
      | none =>
          refine ⟨by rintro _ _ ⟨⟩, ?_⟩
          rintro _ _ ⟨⟩
          exact hkept trivial _ _ rfl
      | some entry =>
          refine ⟨?_, by rintro _ _ ⟨⟩⟩
          rintro _ _ ⟨⟩
          have hflags := h.vacated fd
          rw [Files.vacated, hentry] at hflags
          exact ⟨hflags, fun x => by rw [Files.closed, SortedMap.get?_erase]⟩
  | closeOnExec order =>
      obtain ⟨closed, hrun, hlawful⟩ := closeOnExec_lawful hop
      exact wp_answering (wp_of_run hrun hlawful)

end DescriptorOp

/-- A file system whose table starts without flags, after any number of calls on it. -/
inductive DescriptorRun (host : Host) : VirtualFileSystem → Prop
  | start {vfs : VirtualFileSystem} (h : vfs.fds.cloexec = .empty) : DescriptorRun host vfs
  | step {vfs : VirtualFileSystem} (hrun : DescriptorRun host vfs) (op : DescriptorOp) (h : op.Possible vfs.files) :
      DescriptorRun host (op.exec host vfs).2

theorem lawful_step {host : Host} {vfs : VirtualFileSystem} (h : vfs.files.FlagsOpen) {op : DescriptorOp}
    (hop : op.Possible vfs.files) :
    op.Lawful vfs.files (op.exec host vfs).1 (op.exec host vfs).2.files := by
  have hspec := wp_iff.mp (DescriptorOp.exec_lawful host h hop)
  rcases hrun : op.exec host vfs with ⟨r | r, vfs'⟩
  · exact hspec.2 r vfs' hrun
  · exact hspec.1 r vfs' hrun

theorem DescriptorRun.flagsOpen {host : Host} {vfs : VirtualFileSystem} (hrun : DescriptorRun host vfs) :
    vfs.files.FlagsOpen := by
  induction hrun with
  | start h =>
      intro fd hfd
      have hnone : (SortedMap.empty : SortedMap Fd Unit).get? fd = none := rfl
      rw [VirtualFileSystem.files, h, hnone] at hfd
      cases hfd
  | step _ op hop ih => exact (lawful_step ih hop).1

/-- In every run every flag belongs to an open descriptor, and every call, returning or failing, keeps the laws. -/
theorem descriptor_laws {host : Host} {vfs : VirtualFileSystem} (hrun : DescriptorRun host vfs) :
    vfs.files.FlagsOpen ∧ ∀ op : DescriptorOp, op.Possible vfs.files →
      op.Lawful vfs.files (op.exec host vfs).1 (op.exec host vfs).2.files :=
  ⟨hrun.flagsOpen, fun _ hop => lawful_step hrun.flagsOpen hop⟩

theorem descriptor_laws_copied :
    let vfs := ((DescriptorOp.dup 1 0 true).exec .empty (bare "")).2
    (DescriptorOp.closeOnExec [3]).Lawful vfs.files ((DescriptorOp.closeOnExec [3]).exec .empty vfs).1
      ((DescriptorOp.closeOnExec [3]).exec .empty vfs).2.files :=
  (descriptor_laws (.step (.start rfl) (.dup 1 0 true) trivial)).2 (.closeOnExec [3]) (.refl [3])

end VirtualFileSystem

end Mcr.Vfs
