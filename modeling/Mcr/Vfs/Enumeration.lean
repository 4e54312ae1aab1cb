import Mcr.Vfs.CacheQueries
import Mcr.Vfs.Handles

/-!
# Listing a directory that changes

The position of `getdents64` is an index into the listing as it is at the time of the call. So a change
that removes an entry before the position, or adds one there, shifts the others across it: an entry is then
left out or returned again. When every change leaves the entries that stay on their side of the position,
the calls return each of them once.
-/

namespace Mcr.Vfs

open Prog

namespace VirtualFileSystem

variable {vfs vfs' : VirtualFileSystem} {host : Host} {fd : Fd}

/-- The entries `getdents64` has to return of a directory. -/
def entriesOf (vfs : VirtualFileSystem) (fd : Fd) : Except VfsError (List DirectoryEntry) := do
  let source ← vfs.directoryListingSource fd
  directoryEntries vfs.tree vfs.fds source.path

def namesOf (vfs : VirtualFileSystem) (fd : Fd) : List String :=
  ((vfs.entriesOf fd).toOption.getD []).map DirectoryEntry.name

/-- How many entries the calls on the descriptor have passed. -/
def cursorOf (vfs : VirtualFileSystem) (fd : Fd) : Nat :=
  ((vfs.fds.entries.get? fd).map fun entry => (vfs.shared.description entry.description).dirCursor).getD 0

def passed (vfs : VirtualFileSystem) (fd : Fd) : List String := (vfs.namesOf fd).take (vfs.cursorOf fd)

/-- The directory has one entry of this name. -/
def ListsOnce (vfs : VirtualFileSystem) (fd : Fd) (name : String) : Prop := (vfs.namesOf fd).count name = 1

def namesReturned (fd : Fd) (vfs : VirtualFileSystem) : Op → List String
  | .getdents64 fd' maxBytes =>
    if fd' = fd then ((getdents64 fd maxBytes vfs).1.toOption.getD []).map DirectoryEntry.name else []
  | _ => []

def listed (host : Host) (fd : Fd) : VirtualFileSystem → List Op → List String
  | _, [] => []
  | vfs, op :: ops => namesReturned fd vfs op ++ listed host fd (vfs.step host op) ops

/-- The directory has one entry of this name throughout the run. -/
def ListedAlong (host : Host) (fd : Fd) (name : String) : VirtualFileSystem → List Op → Prop
  | vfs, [] => vfs.ListsOnce fd name
  | vfs, op :: ops => vfs.ListsOnce fd name ∧ ListedAlong host fd name (vfs.step host op) ops

/-- The listing of the directory, and the changes of names. -/
def isListingCall (fd : Fd) : Op → Bool
  | .getdents64 fd' _ => fd' = fd
  | .unlinkat _ _ _ | .openat _ _ _ _ | .mkdirat _ _ _ | .renameat2 _ _ _ _ _ => true
  | _ => false

/-- Every entry that stays is passed after the step if and only if it was before. -/
def KeepsCut (host : Host) (fd : Fd) (vfs : VirtualFileSystem) (op : Op) : Prop :=
  ∀ name, vfs.ListsOnce fd name → (vfs.step host op).ListsOnce fd name →
    (name ∈ vfs.passed fd ↔ name ∈ ((vfs.step host op).namesOf fd).take (vfs.cursorOf fd))

structure ListingStep (host : Host) (fd : Fd) (vfs : VirtualFileSystem) (op : Op) : Prop where
  call : isListingCall fd op = true
  coherent : vfs.CoherentStep op
  cut : KeepsCut host fd vfs op

/-! ### The description of the descriptor -/

/-- The descriptor is there, with a description that was handed out. -/
def Described (vfs : VirtualFileSystem) (fd : Fd) : Prop :=
  ∃ entry, vfs.fds.entries.get? fd = some entry ∧ entry.description < vfs.shared.nextDescription

/-- The descriptor keeps its description, and the description its place. -/
structure KeepsPlace (vfs vfs' : VirtualFileSystem) : Prop where
  entries : ∀ fd entry, vfs.fds.entries.get? fd = some entry →
    ∃ entry', vfs'.fds.entries.get? fd = some entry' ∧ entry'.description = entry.description
  descriptions : ∀ id, id < vfs.shared.nextDescription → vfs'.shared.description id = vfs.shared.description id
  next : vfs.shared.nextDescription ≤ vfs'.shared.nextDescription

theorem KeepsPlace.of_files (h : vfs'.files = vfs.files) : KeepsPlace vfs vfs' := by
  have hfds : vfs'.fds = vfs.fds := congrArg Files.fds h
  have hshared : vfs'.shared = vfs.shared := congrArg Files.shared h
  exact ⟨fun fd entry hentry => ⟨entry, by rw [hfds]; exact hentry, rfl⟩, fun _ _ => by rw [hshared],
    by rw [hshared]⟩

theorem KeepsPlace.described (h : KeepsPlace vfs vfs') (hd : vfs.Described fd) : vfs'.Described fd := by
  obtain ⟨entry, hentry, hlt⟩ := hd
  obtain ⟨entry', hentry', heq⟩ := h.entries fd entry hentry
  exact ⟨entry', hentry', by rw [heq]; exact lt_of_lt_of_le hlt h.next⟩

theorem KeepsPlace.cursor (h : KeepsPlace vfs vfs') (hd : vfs.Described fd) : vfs'.cursorOf fd = vfs.cursorOf fd := by
  obtain ⟨entry, hentry, hlt⟩ := hd
  obtain ⟨entry', hentry', heq⟩ := h.entries fd entry hentry
  simp [cursorOf, hentry, hentry', heq, h.descriptions entry.description hlt]

theorem onTree_keeps_files {α : Type} (call : PathTree.Call α) : Keeps files (onTree call) := fun _ => rfl

theorem onCache_keeps_files (change : VfsCache → VfsCache) : Keeps files (onCache change) := fun _ => rfl

theorem invalidateParentCache_keeps_files (path : GuestPath) : Keeps files (invalidateParentCache path) := by
  refine .bind .get fun vfs => ?_
  cases vfs.parentInode path with
  | some parent => exact onCache_keeps_files _
  | none => exact .pure _

theorem invalidateIfSome_files (inodeId : Option InodeId) :
    wp (invalidateIfSome inodeId) (fun _ vfs' => vfs'.files = vfs.files ∧ vfs'.tree = vfs.tree) (fun _ _ => False)
      vfs := by
  cases inodeId with
  | some i => exact (wp_modify _).mpr ⟨rfl, rfl⟩
  | none => exact (wp_pure _).mpr ⟨rfl, rfl⟩

theorem mkdirat_keeps_files (dirfd : Fd) (path : String) (mode : UInt32) : Keeps files (mkdirat dirfd path mode) :=
  .bind .get fun _ => .bind (.ofExcept _) fun _ =>
    .bind (onTree_keeps_files _) fun _ => invalidateParentCache_keeps_files _

theorem unlinkat_keeps_files (dirfd : Fd) (path : String) (flags : UInt32) : Keeps files (unlinkat dirfd path flags) := by
  refine .bind .get fun _ => .bind (.ofExcept _) fun _ => .bind (onTree_keeps_files _) fun i =>
    .bind (.modify fun vfs => ?_) fun _ => onCache_keeps_files _
  obtain ⟨inodes, heq⟩ := dropLink_eq vfs i
  rw [heq]
  rfl

theorem openCreate_keeps_files (resolved : ResolvedPath) (flags : OpenFlags) (mode : UInt32) :
    Keeps files (openCreate resolved flags mode) :=
  .ite (.bind (.ofExcept _) fun _ => .bind .get fun _ => .bind (.ofExcept _) fun _ => .bind (.ofExcept _) fun _ =>
    .bind (.bind .get fun _ => .bind (.ofExcept _) fun _ => onTree_keeps_files _) fun _ => .bind .get fun _ => .pure _)
    (.bind (.ofExcept _) fun _ => .pure _)

def openedFile (node : PathNode) (hostRoot : HostPath) (path : GuestPath) : FileRef :=
  ⟨⟨node.inodeId, inodeBackendForPathNode node hostRoot path⟩, fileKindOf node.kind⟩

variable (vfs) in
theorem openat_files (host : Host) (dirfd : Fd) (path : String) (flags : OpenFlags) (mode : UInt32) :
    wp (openat host dirfd path flags mode)
      (fun fd vfs' => vfs.fds.entries.get? fd = none ∧
        ∃ node hostRoot place, vfs'.tree.lookupPath place = some node ∧
          vfs'.files = vfs.files.inserted fd (openedFile node hostRoot place) flags.cloexec flags (some place))
      (fun _ vfs' => vfs'.files = vfs.files) vfs := by
  unfold openat
  rw [wp_bind, wp_get, wp_bind]
  apply wp_check
  · intro _ _
    rfl
  intro resolved _
  rw [wp_bind]
  refine wp_mono ((openCreate_keeps_files resolved flags mode).wp vfs) ?_ (fun _ _ h => h)
  intro createdParent created hcreated
  rw [wp_bind, wp_get, wp_bind]
  apply wp_check
  · intro _ _
    exact hcreated
  intro node _
  rw [wp_bind]
  apply wp_check
  · intro _ _
    exact hcreated
  intro _ _
  rw [wp_bind, wp_when]
  have hinsert : ∀ opened : VirtualFileSystem, opened.files = vfs.files → ∀ truncated : PathNode → Option InodeId,
      wp (do
          let vfs ← .get
          let node ← .ofExcept (okOr (vfs.tree.lookupPath resolved.guestPath) .noEntry)
          let inode : Inode := ⟨node.inodeId, inodeBackendForPathNode node vfs.rootfs.hostRoot resolved.guestPath⟩
          let fd ← onFiles (Files.insertOpen ⟨inode, fileKindOf node.kind⟩ flags (some resolved.guestPath))
          invalidateIfSome createdParent
          invalidateIfSome (truncated node)
          pure fd)
        (fun fd vfs' => vfs.fds.entries.get? fd = none ∧
          ∃ node hostRoot place, vfs'.tree.lookupPath place = some node ∧
            vfs'.files = vfs.files.inserted fd (openedFile node hostRoot place) flags.cloexec flags (some place))
        (fun _ vfs' => vfs'.files = vfs.files) opened := by
    intro opened hopened truncated
    rw [wp_bind, wp_get, wp_bind]
    apply wp_check
    · intro _ _
      exact hopened
    intro node hnode
    rw [wp_bind, onFiles, wp_zoom, hopened]
    refine wp_mono (Files.insertLowest_spec _ flags.cloexec flags _) ?_ ?_
    · rintro fd files ⟨hfd, rfl⟩
      rw [wp_bind]
      refine wp_mono (invalidateIfSome_files createdParent) ?_ (fun _ _ h => h.elim)
      intro _ first hfirst
      rw [wp_bind]
      refine wp_mono (invalidateIfSome_files (truncated node)) ?_ (fun _ _ h => h.elim)
      intro _ second hsecond
      rw [wp_pure]
      have hfound : opened.tree.lookupPath resolved.guestPath = some node := okOr_eq_ok.mp hnode
      refine ⟨(FdTable.nextFdFrom_ok hfd).2.2, node, opened.rootfs.hostRoot, resolved.guestPath, ?_,
        hsecond.1.trans hfirst.1⟩
      rw [hsecond.2, hfirst.2]
      exact hfound
    · rintro _ files ⟨rfl, _⟩
      rfl
  split
  · refine wp_mono ((onTree_keeps_files _).wp created) (fun _ vfs' h => ?_) (fun _ _ h => h.trans hcreated)
    exact hinsert vfs' (h.trans hcreated) fun node => some node.inodeId
  · exact hinsert created hcreated fun _ => none

theorem KeepsPlace.inserted {fd : Fd} {file : FileRef} {cloexec : Bool} {flags : OpenFlags}
    {place : Option GuestPath} (hfree : vfs.fds.entries.get? fd = none)
    (h : vfs'.files = vfs.files.inserted fd file cloexec flags place) : KeepsPlace vfs vfs' := by
  have hfds : vfs'.fds.entries = vfs.fds.entries.insert fd ⟨file, vfs.shared.nextDescription, place⟩ :=
    congrArg (fun files => files.fds.entries) h
  have hshared : vfs'.shared = (vfs.shared.registerFdEndpoint file).withDescription flags :=
    congrArg Files.shared h
  refine ⟨fun fd' entry hentry => ⟨entry, ?_, rfl⟩, fun id hid => ?_, ?_⟩
  · rw [hfds, SortedMap.get?_insert, if_neg]
    · exact hentry
    · rintro rfl
      rw [hfree] at hentry
      nomatch hentry
  · simp [hshared, Shared.withDescription, Shared.setDescription, hid.ne]
  · simp [hshared, Shared.withDescription]

theorem openat_keepsPlace (host : Host) (dirfd : Fd) (path : String) (flags : OpenFlags) (mode : UInt32) :
    KeepsPlace vfs (openat host dirfd path flags mode vfs).2 := by
  refine wp_state (wp_mono (openat_files vfs host dirfd path flags mode) ?_ (fun _ _ h => .of_files h))
  rintro _ vfs' ⟨hfree, node, hostRoot, place, _, hfiles⟩
  exact .inserted hfree hfiles

theorem renameat2_keepsPlace (hwf : vfs.tree.Wf) (olddirfd : Fd) (oldpath : String) (newdirfd : Fd)
    (newpath : String) (flags : UInt32) :
    KeepsPlace vfs (renameat2 olddirfd oldpath newdirfd newpath flags vfs).2 := by
  have hrebind : ∀ (entry : FdEntry) old new, (entry.rebindPath old new).description = entry.description := by
    intro entry old new
    unfold FdEntry.rebindPath
    split
    · rfl
    · split <;> rfl
  refine wp_state (wp_mono (renameat2_spec hwf olddirfd oldpath newdirfd newpath flags) ?_ (fun _ _ h => h ▸ .of_files rfl))
  rintro _ vfs' ⟨ends, _, hrenamed⟩
  cases hrenamed with
  | same => exact .of_files rfl
  | @exchange old _ _ new =>
      refine ⟨fun fd entry hentry => ⟨(entry.rebindPath old new.guestPath).rebindPath new.guestPath old, ?_, ?_⟩,
        fun _ _ => rfl, le_rfl⟩
      · show ((vfs.fds.rebindPaths old new.guestPath).rebindPaths new.guestPath old).entries.get? fd = _
        rw [FdTable.rebindPaths_get, FdTable.rebindPaths_get, hentry]
        rfl
      · rw [hrebind, hrebind]
  | @move old _ new =>
      have hshared : (vfs.moved old new.guestPath new.inode).shared = vfs.shared := by
        show (vfs.withoutTarget new.guestPath new.inode).shared = vfs.shared
        cases new.inode with
        | none => rfl
        | some i =>
            obtain ⟨inodes, heq⟩ := dropLink_eq (setTree (vfs.tree.dropPath new.guestPath) vfs) i
            rw [withoutTarget, heq]
            rfl
      refine ⟨fun fd entry hentry => ⟨entry.rebindPath old new.guestPath, ?_, hrebind _ _ _⟩, fun _ _ => by rw [hshared],
        by rw [hshared]⟩
      rw [moved_fds, hentry]
      rfl

variable (host) in
theorem step_keepsPlace (hwf : vfs.tree.Wf) {op : Op} (hcall : isListingCall fd op = true)
    (hother : ∀ maxBytes, op ≠ .getdents64 fd maxBytes) : KeepsPlace vfs (vfs.step host op) := by
  cases op with
  | getdents64 fd' maxBytes =>
      have hfd : fd' = fd := by simpa [isListingCall] using hcall
      exact absurd (hfd ▸ rfl) (hother maxBytes)
  | unlinkat dirfd path flags => exact .of_files (unlinkat_keeps_files dirfd path flags vfs)
  | mkdirat dirfd path mode => exact .of_files (mkdirat_keeps_files dirfd path mode vfs)
  | openat dirfd path flags mode =>
      rw [show vfs.step host (.openat dirfd path flags mode) = _ from discard_state _ _]
      exact openat_keepsPlace host dirfd path flags mode
  | renameat2 olddirfd oldpath newdirfd newpath flags =>
      exact renameat2_keepsPlace hwf olddirfd oldpath newdirfd newpath flags
  | _ => nomatch hcall

/-! ### One call -/

theorem fittingRecords_prefix (maxBytes used : Nat) (entries : List DirectoryEntry) :
    fittingRecords maxBytes used entries <+: entries := by
  induction entries generalizing used with
  | nil => exact List.prefix_rfl
  | cons item rest ih =>
      rw [fittingRecords]
      split
      · exact List.nil_prefix
      · exact List.prefix_cons_inj item |>.mpr (ih _)

/-- A call leaves the tree and the table, and moves the place by what it returns. -/
structure Lists (vfs vfs' : VirtualFileSystem) (fd : Fd) (returned : List DirectoryEntry) : Prop where
  tree : vfs'.tree = vfs.tree
  fds : vfs'.fds = vfs.fds
  cursor : vfs'.cursorOf fd = vfs.cursorOf fd + returned.length
  next : vfs'.shared.nextDescription = vfs.shared.nextDescription

theorem Lists.refl (vfs : VirtualFileSystem) (fd : Fd) : Lists vfs vfs fd [] := ⟨rfl, rfl, rfl, rfl⟩

theorem Lists.names {returned : List DirectoryEntry} (h : Lists vfs vfs' fd returned) :
    vfs'.namesOf fd = vfs.namesOf fd := by
  simp only [namesOf, entriesOf, directoryListingSource, h.tree, h.fds]

theorem Lists.described {returned : List DirectoryEntry} (h : Lists vfs vfs' fd returned) (hd : vfs.Described fd) :
    vfs'.Described fd := by
  obtain ⟨entry, hentry, hlt⟩ := hd
  exact ⟨entry, by rw [h.fds]; exact hentry, by rw [h.next]; exact hlt⟩

theorem consumeDirectoryEntries_spec (maxBytes : Nat) (entries : List DirectoryEntry) :
    wp (consumeDirectoryEntries fd maxBytes entries)
      (fun returned vfs' => Lists vfs vfs' fd returned ∧ returned <+: entries.drop (vfs.cursorOf fd) ∧
        (returned = [] → entries.drop (vfs.cursorOf fd) = []))
      (fun _ vfs' => vfs' = vfs) vfs := by
  unfold consumeDirectoryEntries
  rw [wp_bind, wp_get, wp_bind]
  apply wp_check
  · intro _ _
    rfl
  intro entry hentry
  have hget : vfs.fds.entries.get? fd = some entry := okOr_eq_ok.mp hentry
  have hcursor : vfs.cursorOf fd = (vfs.shared.description entry.description).dirCursor := by
    simp [cursorOf, hget]
  rw [wp_bind]
  apply wp_check
  · intro _ _
    rfl
  intro _ hcheck
  rw [failIf_eq_ok, not_and_or, not_not] at hcheck
  rw [hcursor]
  split
  · rename_i hnone
    rw [wp_pure]
    refine ⟨.refl vfs fd, List.nil_prefix, fun _ => ?_⟩
    exact hcheck.resolve_left (fun h => h hnone)
  · rename_i hsome
    rw [wp_bind, onFiles, wp_zoom, Files.setDescription, wp_modify, wp_pure]
    refine ⟨⟨rfl, rfl, ?_, rfl⟩, fittingRecords_prefix _ _ _, fun h => absurd h hsome⟩
    rw [hcursor]
    simp [cursorOf, setFiles, files, hget, Shared.setDescription]

theorem directoryEntries_static {source : DirectoryListingSource} (hsource : vfs.directoryListingSource fd = .ok source)
    (hcacheable : source.cacheable = true) :
    directoryEntries vfs.tree vfs.fds source.path = staticDirectoryEntries vfs.tree source.path := by
  unfold directoryListingSource at hsource
  obtain ⟨entry, _, hsource⟩ := except_bind_eq_ok.mp hsource
  obtain ⟨_, _, hsource⟩ := except_bind_eq_ok.mp hsource
  obtain ⟨path, _, hsource⟩ := except_bind_eq_ok.mp hsource
  obtain ⟨node, _, hsource⟩ := except_bind_eq_ok.mp hsource
  cases hsource
  have hproc : isProcSelfFdDirectory vfs.tree path = false := by simpa using hcacheable
  simp [directoryEntries, staticDirectoryEntries, hproc]

variable (fd) in
theorem getdents64_spec (hwf : vfs.tree.Wf) (hcoherent : vfs.Coherent) (maxBytes : Nat) :
    wp (getdents64 fd maxBytes)
      (fun returned vfs' => Lists vfs vfs' fd returned ∧ ∃ entries, vfs.entriesOf fd = .ok entries ∧
        returned <+: entries.drop (vfs.cursorOf fd) ∧ (returned = [] → entries.drop (vfs.cursorOf fd) = []))
      (fun _ vfs' => Lists vfs vfs' fd []) vfs := by
  have hconsume : ∀ filled entries, FilledTo vfs filled → vfs.entriesOf fd = .ok entries →
      wp (consumeDirectoryEntries fd maxBytes entries)
        (fun returned vfs' => Lists vfs vfs' fd returned ∧ ∃ entries, vfs.entriesOf fd = .ok entries ∧
          returned <+: entries.drop (vfs.cursorOf fd) ∧ (returned = [] → entries.drop (vfs.cursorOf fd) = []))
        (fun _ vfs' => Lists vfs vfs' fd []) filled := by
    rintro filled entries ⟨cache, rfl, _⟩ hentries
    refine wp_mono (consumeDirectoryEntries_spec maxBytes entries) ?_ ?_
    · rintro returned vfs' ⟨hlists, hprefix, hend⟩
      exact ⟨⟨hlists.tree, hlists.fds, hlists.cursor, hlists.next⟩, entries, hentries, hprefix, hend⟩
    · rintro _ _ rfl
      exact ⟨rfl, rfl, rfl, rfl⟩
  unfold getdents64
  rw [wp_bind, wp_get, wp_bind]
  apply wp_check
  · intro _ _
    exact .refl vfs fd
  intro source hsource
  have hpath := directoryListingSource_path hwf hsource
  have hentriesOf : vfs.entriesOf fd = directoryEntries vfs.tree vfs.fds source.path := by
    rw [entriesOf, hsource, except_ok_bind]
  simp only
  split
  · rename_i hcacheable
    rw [directoryEntries_static hsource hcacheable] at hentriesOf
    rw [wp_bind]
    cases hentries : staticDirectoryEntries vfs.tree source.path with
    | ok entries =>
        obtain ⟨cache, hrun, hfilled, _⟩ := cachedDirectoryEntries_answer hcoherent hpath hentries
        exact wp_of_run hrun (hconsume _ entries ⟨cache, rfl, hfilled⟩ (hentriesOf.trans hentries))
    | error error => exact wp_of_error (cachedDirectoryEntries_fails hcoherent hpath hentries) (.refl vfs fd)
  · rw [wp_bind]
    apply wp_check
    · intro _ _
      exact .refl vfs fd
    · intro entries hentries
      exact hconsume vfs entries (.refl vfs) (hentriesOf.trans hentries)

theorem count_take_of_once {names : List String} {name : String} (h : names.count name = 1) (k : Nat) :
    (names.take k).count name = if name ∈ names.take k then 1 else 0 := by
  have hle : (names.take k).count name ≤ 1 := h ▸ (List.take_sublist k names).count_le name
  split
  · rename_i hmem
    have hpos := List.count_pos_iff.mpr hmem
    omega
  · rename_i hmem
    exact List.count_eq_zero.mpr hmem

theorem step_count (hwf : vfs.tree.Wf) (hcoherent : vfs.Coherent) (hd : vfs.Described fd) {op : Op}
    (hstep : ListingStep host fd vfs op) {name : String} (honce : vfs.ListsOnce fd name)
    (honce' : (vfs.step host op).ListsOnce fd name) :
    (namesReturned fd vfs op).count name + (vfs.passed fd).count name = ((vfs.step host op).passed fd).count name ∧
      (vfs.step host op).Described fd := by
  by_cases hlists : ∃ maxBytes, op = .getdents64 fd maxBytes
  · obtain ⟨maxBytes, rfl⟩ := hlists
    rw [show vfs.step host (.getdents64 fd maxBytes) = _ from discard_state _ _, namesReturned, if_pos rfl]
    have hspec := getdents64_spec fd hwf hcoherent maxBytes
    rcases hrun : getdents64 fd maxBytes vfs with ⟨r, vfs'⟩
    cases r with
    | ok returned =>
        obtain ⟨hlists, entries, hentries, hprefix, _⟩ := wp_ok hspec hrun
        refine ⟨?_, hlists.described hd⟩
        have hnames : vfs.namesOf fd = entries.map DirectoryEntry.name := by
          simp [namesOf, hentries, Except.toOption]
        obtain ⟨rest, hrest⟩ := hprefix
        have htake : vfs'.passed fd = vfs.passed fd ++ returned.map DirectoryEntry.name := by
          rw [passed, passed, hlists.names, hlists.cursor, hnames, List.take_add, ← List.map_drop, ← hrest,
            List.map_append, List.take_left' (List.length_map _)]
        rw [htake, List.count_append, Nat.add_comm]
        rfl
    | error e =>
        have hlists := wp_error hspec hrun
        refine ⟨?_, hlists.described hd⟩
        rw [passed, passed, hlists.names, hlists.cursor]
        simp [Except.toOption]
  · have hother : ∀ maxBytes, op ≠ .getdents64 fd maxBytes := fun maxBytes h => hlists ⟨maxBytes, h⟩
    have hplace := step_keepsPlace host hwf hstep.call hother
    refine ⟨?_, hplace.described hd⟩
    have hnone : namesReturned fd vfs op = [] := by
      cases op with
      | getdents64 fd' maxBytes =>
          rw [namesReturned, if_neg]
          rintro rfl
          exact hother maxBytes rfl
      | _ => rfl
    rw [hnone, List.count_nil, Nat.zero_add, passed, passed, hplace.cursor hd, count_take_of_once honce,
      count_take_of_once honce']
    exact if_congr (hstep.cut name honce honce') rfl rfl

/-! ### Whole listings -/

theorem ListedAlong.once {name : String} {ops : List Op} (h : ListedAlong host fd name vfs ops) :
    vfs.ListsOnce fd name := by
  cases ops with
  | nil => exact h
  | cons op ops => exact h.1

theorem run_count {name : String} (ops : List Op) : ∀ {vfs : VirtualFileSystem}, vfs.tree.Wf → vfs.Coherent →
    vfs.Described fd → Along host (ListingStep host fd) vfs ops → ListedAlong host fd name vfs ops →
    (listed host fd vfs ops).count name + (vfs.passed fd).count name =
      ((vfs.run host ops).passed fd).count name ∧ (vfs.run host ops).ListsOnce fd name := by
  induction ops with
  | nil =>
      intro vfs _ _ _ _ hlisted
      exact ⟨by rw [listed, List.count_nil, Nat.zero_add]; rfl, hlisted⟩
  | cons op ops ih =>
      intro vfs hwf hcoherent hd hrun hlisted
      have heffect := step_effect host hwf hrun.1.coherent.sane
      obtain ⟨hcount, hd'⟩ := step_count hwf hcoherent hd hrun.1 hlisted.1 hlisted.2.once
      obtain ⟨hrest, honce⟩ := ih (heffect.wf hwf) (heffect.coherent hwf hrun.1.coherent hcoherent) hd' hrun.2
        hlisted.2
      refine ⟨?_, honce⟩
      rw [listed, List.count_append]
      have hend : ((vfs.run host (op :: ops)).passed fd).count name =
          (((vfs.step host op).run host ops).passed fd).count name := rfl
      omega

/-- Nothing of the directory has been returned. -/
structure Unlisted (fd : Fd) (vfs : VirtualFileSystem) : Prop where
  wf : vfs.tree.Wf
  coherent : vfs.Coherent
  described : vfs.Described fd
  cursor : vfs.cursorOf fd = 0

/-- As long as no call lists the directory, nothing of it has been returned. -/
theorem Unlisted.run (ops : List Op) (hother : ∀ op ∈ ops, ∀ maxBytes, op ≠ .getdents64 fd maxBytes) :
    ∀ {vfs : VirtualFileSystem}, Unlisted fd vfs → Along host (ListingStep host fd) vfs ops →
      Unlisted fd (vfs.run host ops) := by
  induction ops with
  | nil => exact fun h _ => h
  | cons op ops ih =>
      intro vfs h hrun
      have heffect := step_effect host h.wf hrun.1.coherent.sane
      have hplace := step_keepsPlace host h.wf hrun.1.call (hother op List.mem_cons_self)
      refine ih (fun op' hop' => hother op' (List.mem_cons_of_mem _ hop')) ?_ hrun.2
      exact ⟨heffect.wf h.wf, heffect.coherent h.wf hrun.1.coherent h.coherent, hplace.described h.described,
        (hplace.cursor h.described).trans h.cursor⟩

theorem Unlisted.opened (hwf : vfs.tree.Wf) (hcoherent : vfs.Coherent) {dirfd : Fd} {path : String}
    {flags : OpenFlags} {mode : UInt32} (hstep : vfs.CoherentStep (.openat dirfd path flags mode))
    (hopen : (openat host dirfd path flags mode vfs).1 = .ok fd) :
    Unlisted fd (vfs.step host (.openat dirfd path flags mode)) := by
  have heffect := step_effect host hwf hstep.sane
  have hfiles := openat_files vfs host dirfd path flags mode
  rcases hrun : openat host dirfd path flags mode vfs with ⟨r, vfs'⟩
  rw [hrun] at hopen
  cases hopen
  obtain ⟨_, node, hostRoot, place, _, hinserted⟩ := wp_ok hfiles hrun
  generalize openedFile node hostRoot place = file at hinserted
  have hnext : vfs.step host (.openat dirfd path flags mode) = vfs' := by
    rw [show vfs.step host (.openat dirfd path flags mode) = _ from discard_state _ _, hrun]
  have hfds : vfs'.fds.entries = vfs.fds.entries.insert fd ⟨file, vfs.shared.nextDescription, some place⟩ :=
    congrArg (fun files => files.fds.entries) hinserted
  have hentry : vfs'.fds.entries.get? fd = some ⟨file, vfs.shared.nextDescription, some place⟩ := by
    simp [hfds]
  have hshared : vfs'.shared = (vfs.shared.registerFdEndpoint file).withDescription flags :=
    congrArg Files.shared hinserted
  refine ⟨heffect.wf hwf, heffect.coherent hwf hstep hcoherent, ?_, ?_⟩
  · rw [hnext]
    exact ⟨_, hentry, by simp [hshared, Shared.withDescription]⟩
  · rw [hnext]
    simp [cursorOf, hentry, hshared, Shared.withDescription, Shared.setDescription]

/-- Calls on a descriptor that had listed nothing, the last of which returns nothing, have returned every entry
that was there from the first to the last exactly once. -/
theorem Unlisted.listed_once (h : Unlisted fd vfs) (calls : List Op) {maxBytes : Nat} {name : String}
    (hrun : Along host (ListingStep host fd) vfs calls)
    (hend : (getdents64 fd maxBytes (vfs.run host calls)).1 = .ok []) (hlisted : ListedAlong host fd name vfs calls) :
    (listed host fd vfs calls).count name = 1 := by
  obtain ⟨hcount, honce⟩ := run_count calls h.wf h.coherent h.described hrun hlisted
  have hcoherentRun : ∀ {ops : List Op} {vfs : VirtualFileSystem}, Along host (ListingStep host fd) vfs ops →
      Along host CoherentStep vfs ops := by
    intro ops
    induction ops with
    | nil => exact fun _ => trivial
    | cons op ops ih => exact fun hrun => ⟨hrun.1.coherent, ih hrun.2⟩
  obtain ⟨hwf, hcoherent⟩ := run_coherent h.wf h.coherent calls (hcoherentRun hrun)
  rcases hlast : getdents64 fd maxBytes (vfs.run host calls) with ⟨r, vfs'⟩
  rw [hlast] at hend
  cases hend
  obtain ⟨_, entries, hentries, _, hnothing⟩ := wp_ok (getdents64_spec fd hwf hcoherent maxBytes) hlast
  have hnames : (vfs.run host calls).namesOf fd = entries.map DirectoryEntry.name := by
    simp [namesOf, hentries, Except.toOption]
  have hall : (vfs.run host calls).passed fd = (vfs.run host calls).namesOf fd := by
    rw [passed, List.take_of_length_le]
    rw [hnames, List.length_map]
    exact List.drop_eq_nil_iff.mp (hnothing rfl)
  have hnone : vfs.passed fd = [] := by rw [passed, h.cursor, List.take_zero]
  rw [hnone, List.count_nil, Nat.add_zero, hall] at hcount
  exact hcount.trans honce

/-- The root has a file; it is listed in two calls, and a directory is made between them. -/
def makeFile : List Op := [.openat atFdcwd "/f" ⟨oCreat⟩ 0o644]

def growBetween : List Op := [.getdents64 1 48, .mkdirat atFdcwd "/d" 0o755, .getdents64 1 1000]

theorem KeepsCut.of_eq {op : Op} (h : vfs.passed fd = ((vfs.step host op).namesOf fd).take (vfs.cursorOf fd)) :
    KeepsCut host fd vfs op := fun name _ _ => by rw [h]

/-- Two files, of which the first is removed after it was returned. -/
def twoFiles : List Op :=
  [.openat atFdcwd "/a" ⟨oCreat⟩ 0o644, .openat atFdcwd "/b" ⟨oCreat⟩ 0o644, .openat atFdcwd "/" ⟨oDirectory⟩ 0]

def removeReturned : List Op := [.getdents64 2 72, .unlinkat atFdcwd "/a" 0]

end VirtualFileSystem

end Mcr.Vfs
