import Mcr.Vfs.Effect
import Mcr.Vfs.FdCalls

/-!
# The calls that leave the tree alone

Queries fill the cache, and the calls on descriptors and their descriptions do not come near the tree.
Each of them is a quiet step.
-/

namespace Mcr.Vfs

open Prog

/-! ### Calls on descriptors -/

namespace VirtualFileSystem

theorem Inherits.of_entries {fds fds' : FdTable} (h : fds'.entries = fds.entries) : Inherits fds fds' := by
  intro fd entry hentry
  exact Or.inr ⟨fd, h ▸ hentry⟩

theorem Inherits.refl (fds : FdTable) : Inherits fds fds := .of_entries rfl

theorem Inherits.trans {fds fds' fds'' : FdTable} (h : Inherits fds fds') (h' : Inherits fds' fds'') :
    Inherits fds fds'' := by
  intro fd entry hentry
  rcases h' fd entry hentry with hanon | ⟨fd', hentry'⟩
  · exact Or.inl hanon
  · exact h fd' entry hentry'

theorem Inherits.erase {fds fds' : FdTable} {fd : Fd} (h : fds'.entries = fds.entries.erase fd) :
    Inherits fds fds' := by
  intro fd' entry hentry
  rw [h, SortedMap.get?_erase] at hentry
  split at hentry
  · nomatch hentry
  · exact Or.inr ⟨fd', hentry⟩

theorem Inherits.insert {fds fds' : FdTable} {fd : Fd} {entry : FdEntry}
    (h : fds'.entries = fds.entries.insert fd entry)
    (hentry : isAnonymous entry.file.kind = true ∨ ∃ fd', fds.entries.get? fd' = some entry) :
    Inherits fds fds' := by
  intro fd' entry' hget
  rw [h, SortedMap.get?_insert] at hget
  split at hget
  · cases hget
    exact hentry
  · exact Or.inr ⟨fd', hget⟩

end VirtualFileSystem

open VirtualFileSystem

namespace Files

variable {files : Files}

theorem setDescription_keeps (entry : FdEntry) (description : FdDescription) :
    Keeps Files.fds (setDescription entry description) := .modify fun _ => rfl

theorem share_keeps (change : Shared → Shared) : Keeps Files.fds (share change) := .modify fun _ => rfl

theorem get_keeps (fd : Fd) : Keeps Files.fds (get fd) := .bind .get fun _ => .ofExcept _

theorem statusFlags_keeps (fd : Fd) : Keeps Files.fds (statusFlags fd) :=
  .bind (get_keeps fd) fun _ => .bind .get fun _ => .pure _

theorem fdFlags_keeps (fd : Fd) : Keeps Files.fds (fdFlags fd) :=
  .bind (get_keeps fd) fun _ => .bind .get fun _ => .pure _

theorem setStatusFlags_keeps (fd : Fd) (flags : UInt32) : Keeps Files.fds (setStatusFlags fd flags) :=
  .bind (get_keeps fd) fun _ => .bind .get fun _ => setDescription_keeps _ _

theorem pipeCapacity_keeps (fd : Fd) : Keeps Files.fds (pipeCapacity fd) :=
  .bind (get_keeps fd) fun _ => .bind (.ofExcept _) fun _ => .bind .get fun _ => .pure _

theorem setPipeCapacity_keeps (fd : Fd) (capacity : Nat) : Keeps Files.fds (setPipeCapacity fd capacity) :=
  .bind (get_keeps fd) fun _ => .bind (.ofExcept _) fun _ => .bind .get fun _ =>
    .bind (.ofExcept _) fun _ => .bind (share_keeps _) fun _ => .pure _

theorem pipeRead_keeps (host : Host) (entry : FdEntry) (len : Nat) :
    Keeps Files.fds (pipeRead host entry len) := by
  refine .bind (.ofExcept _) fun ref => .bind .get fun files => .bind (.ofExcept _) fun _ => ?_
  cases (files.shared.pipe ref).hostPair with
  | none => exact .bind (share_keeps _) fun _ => .pure _
  | some bytes =>
      exact .ite (.pure _) (.bind (.ofExcept _) fun _ => .bind (share_keeps _) fun _ => .pure _)

theorem pipeWrite_keeps (host : Host) (entry : FdEntry) (bytes : List UInt8) :
    Keeps Files.fds (pipeWrite host entry bytes) := by
  refine .bind (.ofExcept _) fun ref => .bind .get fun files => .bind (.ofExcept _) fun _ =>
    .bind (.ofExcept _) fun _ => ?_
  cases (files.shared.pipe ref).hostPair with
  | none => exact .bind (.ofExcept _) fun _ => .bind (share_keeps _) fun _ => .pure _
  | some underway =>
      exact .ite (.pure _) (.bind (.ofExcept _) fun _ => .bind (.ofExcept _) fun _ =>
        .bind (share_keeps _) fun _ => .pure _)

theorem eventfdRead_keeps (entry : FdEntry) (len : Nat) : Keeps Files.fds (eventfdRead entry len) :=
  .bind (.ofExcept _) fun _ => .bind .get fun _ => .bind (.ofExcept _) fun _ =>
    .bind (share_keeps _) fun _ => .pure _

theorem eventfdWrite_keeps (entry : FdEntry) (bytes : List UInt8) : Keeps Files.fds (eventfdWrite entry bytes) :=
  .bind (.ofExcept _) fun _ => .bind .get fun _ => .bind (.ofExcept _) fun _ =>
    .bind (share_keeps _) fun _ => .pure _

theorem stdioWrite_keeps (kind : StdioKind) (bytes : List UInt8) : Keeps Files.fds (stdioWrite kind bytes) := by
  cases kind with
  | stdin => exact .throw _
  | stdout => exact .bind (share_keeps _) fun _ => .pure _
  | stderr => exact .bind (share_keeps _) fun _ => .pure _

/-- The entries after the call come from those before. -/
def Tame {α : Type} (call : Call α) : Prop :=
  ∀ files : Files, wp call (fun _ files' => Inherits files.fds files'.fds)
    (fun _ files' => Inherits files.fds files'.fds) files

theorem Tame.of_keeps {α : Type} {call : Call α} (h : Keeps Files.fds call) : Tame call := by
  intro files
  exact wp_mono (h.wp files) (fun _ _ heq => .of_entries (congrArg FdTable.entries heq))
    (fun _ _ heq => .of_entries (congrArg FdTable.entries heq))

theorem setFdFlags_tame (fd : Fd) (flags : UInt32) : Tame (setFdFlags fd flags) := by
  intro files
  unfold setFdFlags update
  rw [wp_bind, wp_get, wp_bind]
  apply wp_check
  · intro _ _
    exact .refl _
  intro fds hfds
  simp only [FdTable.setCloexec_eq] at hfds
  split at hfds
  · cases hfds
    rw [wp_modify]
    exact .of_entries rfl
  · nomatch hfds

theorem dup_tame (oldfd minFd : Fd) (cloexec : Bool) : Tame (dup oldfd minFd cloexec) := by
  intro files
  refine wp_mono (dup_spec oldfd minFd cloexec) ?_ ?_
  · rintro newfd _ ⟨entry, hentry, _, rfl⟩
    exact .insert rfl (Or.inr ⟨oldfd, hentry⟩)
  · rintro _ _ rfl
    exact .refl _

theorem vacated_inherits (files : Files) (fd : Fd) : Inherits files.fds (files.vacated fd).fds := by
  unfold vacated
  split
  · exact .refl _
  · exact .erase rfl

theorem dup2_tame (oldfd newfd : Fd) (cloexec : Bool) : Tame (dup2 oldfd newfd cloexec) := by
  intro files
  refine wp_mono (dup2_spec oldfd newfd cloexec) ?_ ?_
  · rintro fd _ ⟨_, entry, hentry, ⟨_, rfl⟩ | ⟨hne, rfl⟩⟩
    · exact .refl _
    · refine (vacated_inherits files newfd).trans (.insert rfl (Or.inr ⟨oldfd, ?_⟩))
      unfold vacated
      split
      · exact hentry
      · simp [closed, hne, hentry]
  · rintro _ _ rfl
    exact .refl _

theorem pipe_tame (host : Host) (flags : OpenFlags) : Tame (pipe host flags) := by
  intro files
  refine wp_mono (pipe_spec host flags) ?_ ?_
  · rintro fds _ ⟨inodeId, _, _, rfl⟩
    exact Inherits.trans (.insert rfl (Or.inl rfl)) (.insert (inserted_entries _ _ _ _ _) (Or.inl rfl))
  · rintro _ _ (rfl | rfl)
    · exact .refl _
    · exact .of_entries rfl

theorem insertSocket_tame (socketId : Nat) (flags : OpenFlags) : Tame (insertSocket socketId flags) := by
  intro files
  refine wp_mono (insertSocket_spec socketId flags) ?_ ?_
  · rintro fd _ ⟨inodeId, _, rfl⟩
    exact .insert rfl (Or.inl rfl)
  · rintro _ _ rfl
    exact .refl _

theorem insertEpoll_tame (epollId : Nat) (flags : OpenFlags) : Tame (insertEpoll epollId flags) := by
  intro files
  refine wp_mono (insertEpoll_spec epollId flags) ?_ ?_
  · rintro fd _ ⟨inodeId, _, rfl⟩
    exact .insert rfl (Or.inl rfl)
  · rintro _ _ rfl
    exact .refl _

theorem eventfd_tame (initial : Nat) (flags : OpenFlags) : Tame (eventfd initial flags) := by
  intro files
  refine wp_mono (eventfd_spec initial flags) ?_ ?_
  · rintro fd _ ⟨inodeId, _, rfl⟩
    exact .insert rfl (Or.inl rfl)
  · rintro _ _ (rfl | rfl | rfl)
    · exact .refl _
    · exact .of_entries rfl
    · exact .of_entries rfl

theorem closeOnExec_tame : Tame closeOnExec := by
  intro files
  refine wp_of_run closeOnExec_eq ?_
  have hfold : ∀ (keys : List Fd) (start : Files), Inherits files.fds start.fds →
      Inherits files.fds (keys.foldl dropEntry start).fds := by
    intro keys
    induction keys with
    | nil => intro start hstart; exact hstart
    | cons fd keys ih =>
        intro start hstart
        refine ih _ (hstart.trans ?_)
        unfold dropEntry
        split
        · exact .refl _
        · exact .erase rfl
  exact hfold _ _ (.of_entries rfl)

end Files

namespace VirtualFileSystem

/-- The tree is as it was, the cache at most fuller, and no descriptor stands for another node. -/
structure Quiet (vfs vfs' : VirtualFileSystem) : Prop where
  tree : vfs'.tree = vfs.tree
  cache : Filled vfs vfs'.cache
  fds : Inherits vfs.fds vfs'.fds

variable {vfs : VirtualFileSystem}

theorem Quiet.refl (vfs : VirtualFileSystem) : Quiet vfs vfs := ⟨rfl, .same, .refl _⟩

def IsQuiet {α : Type} (call : Call α) (vfs : VirtualFileSystem) : Prop :=
  wp call (fun _ => Quiet vfs) (fun _ => Quiet vfs) vfs

theorem IsQuiet.onFiles {α : Type} {call : Files.Call α} (h : Files.Tame call) (vfs : VirtualFileSystem) :
    IsQuiet (onFiles call) vfs := by
  unfold IsQuiet VirtualFileSystem.onFiles
  rw [wp_zoom]
  exact wp_mono (h vfs.files) (fun _ _ hfds => ⟨rfl, .same, hfds⟩) (fun _ _ hfds => ⟨rfl, .same, hfds⟩)

theorem IsQuiet.bind_pure {α β : Type} {call : Call α} (h : IsQuiet call vfs) (f : α → β) :
    IsQuiet (do let a ← call; pure (f a)) vfs := by
  unfold IsQuiet
  rw [wp_bind]
  exact wp_mono h (fun _ _ hquiet => (wp_pure _).mpr hquiet) (fun _ _ hquiet => hquiet)

theorem Quiet.of_core {vfs' vfs'' : VirtualFileSystem} (h : Quiet vfs vfs') (hcore : vfs''.core = vfs'.core) :
    Quiet vfs vfs'' := by
  obtain ⟨htree, hcache, hfds⟩ := core_eq hcore
  exact ⟨htree.trans h.tree, hcache ▸ h.cache, hfds ▸ h.fds⟩

theorem onFiles_keeps {α : Type} {call : Files.Call α} (h : Keeps Files.fds call) : Keeps core (onFiles call) := by
  intro vfs
  have hfds := h vfs.files
  unfold onFiles Prog.zoom
  rcases hrun : call vfs.files with ⟨r, files'⟩
  rw [hrun] at hfds
  simp only [core, setFiles, Prod.mk.injEq, true_and]
  exact hfds

theorem IsQuiet.of_keeps {α : Type} {call : Call α} (h : Keeps core call) (vfs : VirtualFileSystem) :
    IsQuiet call vfs :=
  wp_mono (h.wp vfs) (fun _ _ hcore => (Quiet.refl vfs).of_core hcore)
    (fun _ _ hcore => (Quiet.refl vfs).of_core hcore)

/-! ### The cached queries -/

/-- Nothing but the cache has changed, and only by what a query puts there. -/
def FilledTo (vfs vfs' : VirtualFileSystem) : Prop := ∃ cache, vfs' = { vfs with cache := cache } ∧ Filled vfs cache

theorem FilledTo.refl (vfs : VirtualFileSystem) : FilledTo vfs vfs := ⟨vfs.cache, rfl, .same⟩

theorem FilledTo.quiet {vfs' : VirtualFileSystem} (h : FilledTo vfs vfs') : Quiet vfs vfs' := by
  obtain ⟨cache, rfl, hfilled⟩ := h
  exact ⟨rfl, hfilled, .refl _⟩

theorem cachedMetadata_spec {node : PathNode} (hnode : vfs.tree.inodes.get? node.inodeId = some node) :
    wp (cachedMetadata node) (fun _ => FilledTo vfs) (fun _ _ => False) vfs := by
  unfold cachedMetadata
  rw [wp_bind, wp_get]
  cases vfs.cache.metadataOf node.inodeId with
  | some attr => exact (wp_pure attr).mpr (.refl vfs)
  | none =>
      rw [wp_bind, onCache, wp_modify, wp_pure]
      exact ⟨_, rfl, .metadata hnode⟩

variable (vfs) in
theorem cachedHostReadHandle_spec (host : Host) (i : InodeId) (path : HostPath) :
    wp (cachedHostReadHandle host i path) (fun _ => FilledTo vfs) (fun _ => FilledTo vfs) vfs := by
  have hcache : Filled vfs (vfs.cache.hostReadHandle host i path).2 := by
    unfold VfsCache.hostReadHandle
    simp only
    split
    · exact .handles _ _
    · split
      · exact .same
      · exact .handles _ _
  rw [wp_iff]
  constructor
  · intro a vfs' hrun
    exact ⟨_, (congrArg Prod.snd hrun).symm, hcache⟩
  · intro a vfs' hrun
    exact ⟨_, (congrArg Prod.snd hrun).symm, hcache⟩

theorem cachedDirectoryEntries_spec {path : GuestPath} {i : InodeId} (hi : vfs.tree.nodes.get? path = some i) :
    wp (cachedDirectoryEntries i path) (fun _ => FilledTo vfs) (fun _ => FilledTo vfs) vfs := by
  unfold cachedDirectoryEntries
  rw [wp_bind, wp_get]
  cases vfs.cache.directoryListing i with
  | some entries => exact (wp_pure entries).mpr (.refl vfs)
  | none =>
      rw [wp_bind]
      apply wp_check
      · intro _ _
        exact .refl vfs
      intro entries hentries
      rw [wp_bind, onCache, wp_modify, wp_pure]
      exact ⟨_, rfl, .listing hi hentries⟩

theorem cachedSmallReadForEntry_spec (entry : FdEntry) (offset len : Nat) :
    wp (cachedSmallReadForEntry entry offset len)
      (fun r vfs' => FilledTo vfs vfs' ∧ (r = none → vfs' = vfs)) (fun _ vfs' => vfs' = vfs) vfs := by
  unfold cachedSmallReadForEntry
  rw [wp_bind, wp_get, wp_bind]
  apply wp_check
  · intro _ _
    rfl
  intro _ _
  split
  · exact (wp_pure _).mpr ⟨.refl vfs, fun _ => rfl⟩
  split
  · exact (wp_pure _).mpr ⟨.refl vfs, fun _ => rfl⟩
  rw [wp_bind]
  apply wp_check
  · intro _ _
    rfl
  intro node hnode
  rw [okOr_eq_ok, PathTree.lookupInode] at hnode
  split
  · exact (wp_pure _).mpr ⟨.refl vfs, fun _ => rfl⟩
  rename_i hcacheable
  rw [wp_bind, cachedSmallReadData, wp_bind, wp_get]
  cases vfs.cache.smallRead entry.inodeId with
  | some cached =>
      rw [wp_pure, wp_pure]
      exact ⟨.refl vfs, fun h => by cases h⟩
  | none =>
      rw [wp_bind, onCache, wp_modify, wp_pure, wp_pure]
      have hdata : node.deferredHostPath = none := by
        by_contra hsome
        exact hcacheable (Or.inr (Or.inl (Option.isSome_iff_ne_none.mpr hsome)))
      exact ⟨⟨_, rfl, .smallRead hnode hdata⟩, fun h => by cases h⟩

/-! ### Attributes -/

theorem lookupPath_self (hwf : vfs.tree.Wf) {path : GuestPath} {node : PathNode}
    (h : vfs.tree.lookupPath path = some node) : vfs.tree.inodes.get? node.inodeId = some node := by
  obtain ⟨i, _, hnode⟩ := PathTree.lookupPath_eq_some.mp h
  rw [hwf.ids i node hnode]
  exact hnode

theorem fstat_spec (hwf : vfs.tree.Wf) (fd : Fd) :
    wp (fstat fd) (fun _ => FilledTo vfs) (fun _ => FilledTo vfs) vfs := by
  unfold fstat
  rw [wp_bind, wp_get, wp_bind]
  apply wp_check
  · intro _ _
    exact .refl vfs
  intro entry _
  split
  · exact (wp_pure _).mpr (.refl vfs)
  cases hnode : vfs.tree.lookupInode entry.inodeId with
  | none => exact (wp_pure _).mpr (.refl vfs)
  | some node =>
      have hself : vfs.tree.inodes.get? node.inodeId = some node := by
        rw [hwf.ids entry.inodeId node hnode]
        exact hnode
      exact wp_mono (cachedMetadata_spec hself) (fun _ _ h => h) (fun _ _ h => h.elim)

theorem fstat_quiet (hwf : vfs.tree.Wf) (fd : Fd) : IsQuiet (fstat fd) vfs :=
  wp_mono (fstat_spec hwf fd) (fun _ _ h => h.quiet) (fun _ _ h => h.quiet)

theorem statPath_quiet (hwf : vfs.tree.Wf) (path : GuestPath) : IsQuiet (statPath path) vfs := by
  unfold IsQuiet statPath
  rw [wp_bind, wp_get]
  cases procSelfFdPathFd path with
  | some fd =>
      apply wp_check
      · intro _ _
        exact .refl vfs
      · intro _ _
        exact .refl vfs
  | none =>
      simp only
      rw [wp_bind]
      apply wp_check
      · intro _ _
        exact .refl vfs
      intro node hnode
      rw [okOr_eq_ok] at hnode
      exact wp_mono (cachedMetadata_spec (lookupPath_self hwf hnode)) (fun _ _ h => h.quiet)
        (fun _ _ h => h.elim)

theorem newfstatat_quiet (hwf : vfs.tree.Wf) (dirfd : Fd) (path : String) (flags : UInt32) :
    IsQuiet (newfstatat dirfd path flags) vfs := by
  unfold newfstatat
  split
  · exact fstat_quiet hwf dirfd
  unfold IsQuiet
  rw [wp_bind, wp_get, wp_bind]
  apply wp_check
  · intro _ _
    exact .refl vfs
  intro resolved _
  exact statPath_quiet hwf resolved.guestPath

theorem checkAfter {call : Call LinuxFileAttr} (h : IsQuiet call vfs) (mode : UInt32) :
    IsQuiet (do let attr ← call; .ofExcept (attr.checkAccess mode)) vfs := by
  unfold IsQuiet
  rw [wp_bind]
  refine wp_mono h (fun attr vfs' hquiet => ?_) (fun _ _ hquiet => hquiet)
  apply wp_check
  · intro _ _
    exact hquiet
  · intro _ _
    exact hquiet

theorem access_quiet (hwf : vfs.tree.Wf) (path : String) (mode : UInt32) : IsQuiet (access path mode) vfs := by
  unfold IsQuiet access
  rw [wp_bind, wp_get, wp_bind]
  apply wp_check
  · intro _ _
    exact .refl vfs
  intro resolved _
  exact checkAfter (statPath_quiet hwf resolved.guestPath) mode

theorem faccessat2_quiet (hwf : vfs.tree.Wf) (dirfd : Fd) (path : String) (mode flags : UInt32) :
    IsQuiet (faccessat2 dirfd path mode flags) vfs := by
  unfold IsQuiet faccessat2
  rw [wp_bind]
  apply wp_check
  · intro _ _
    exact .refl vfs
  intro _ _
  simp only
  split
  · exact checkAfter (fstat_quiet hwf dirfd) mode
  rw [wp_bind]
  apply wp_check
  · intro _ _
    exact .refl vfs
  intro _ _
  rw [wp_bind, wp_get, wp_bind]
  apply wp_check
  · intro _ _
    exact .refl vfs
  intro resolved _
  exact checkAfter (statPath_quiet hwf resolved.guestPath) mode

/-! ### Reading -/

theorem advanceOffset_keeps (entry : FdEntry) (offset count : Nat) : Keeps core (advanceOffset entry offset count) :=
  .bind (.ofExcept _) fun _ => .bind .get fun _ => onFiles_keeps (Files.setDescription_keeps _ _)

theorem readFromSmallCache_spec (fd : Fd) (len : Nat) :
    wp (readFromSmallCache fd len) (fun r vfs' => Quiet vfs vfs' ∧ (r = none → vfs' = vfs))
      (fun _ => Quiet vfs) vfs := by
  unfold readFromSmallCache
  rw [wp_bind, wp_get, wp_bind]
  apply wp_check
  · intro _ _
    exact .refl vfs
  intro entry _
  rw [wp_bind]
  refine wp_mono (cachedSmallReadForEntry_spec entry _ len) ?_ ?_
  · rintro r vfs' ⟨hfilled, hnone⟩
    cases r with
    | none => exact (wp_pure _).mpr ⟨hfilled.quiet, hnone⟩
    | some bytes =>
        simp only
        rw [wp_bind]
        refine wp_mono ((advanceOffset_keeps entry _ _).wp vfs') ?_ ?_
        · intro _ vfs'' hcore
          exact (wp_pure _).mpr ⟨hfilled.quiet.of_core hcore, fun h => nomatch h⟩
        · intro _ vfs'' hcore
          exact hfilled.quiet.of_core hcore
  · rintro _ _ rfl
    exact .refl _

theorem readRegularInodeAt_spec (host : Host) (i : InodeId) (offset len : Nat) :
    wp (readRegularInodeAt host i offset len) (fun _ => FilledTo vfs) (fun _ => FilledTo vfs) vfs := by
  unfold readRegularInodeAt
  rw [wp_bind, wp_get, wp_bind]
  apply wp_check
  · intro _ _
    exact .refl vfs
  intro node _
  rw [wp_bind]
  apply wp_check
  · intro _ _
    exact .refl vfs
  intro _ _
  cases node.deferredHostPath with
  | none =>
      apply wp_check
      · intro _ _
        exact .refl vfs
      · intro _ _
        exact .refl vfs
  | some path =>
      simp only
      rw [wp_bind]
      refine wp_mono (cachedHostReadHandle_spec _ host i path) ?_ (fun _ _ h => h)
      intro file vfs' hfilled
      apply wp_check
      · intro _ _
        exact hfilled
      · intro _ _
        exact hfilled

theorem readAndAdvance {α : Type} (host : Host) (i : InodeId) (offset len : Nat) (entry : Except VfsError FdEntry)
    (f : List UInt8 → α) :
    IsQuiet (do
      let bytes ← readRegularInodeAt host i offset len
      let entry ← .ofExcept entry
      advanceOffset entry offset bytes.length
      pure (f bytes)) vfs := by
  unfold IsQuiet
  rw [wp_bind]
  refine wp_mono (readRegularInodeAt_spec host i offset len) ?_ (fun _ _ h => h.quiet)
  intro bytes vfs' hfilled
  rw [wp_bind]
  apply wp_check
  · intro _ _
    exact hfilled.quiet
  intro entry _
  rw [wp_bind]
  refine wp_mono ((advanceOffset_keeps entry offset bytes.length).wp vfs') ?_ ?_
  · intro _ vfs'' hcore
    exact (wp_pure _).mpr (hfilled.quiet.of_core hcore)
  · intro _ vfs'' hcore
    exact hfilled.quiet.of_core hcore

theorem fdsRead_keeps (host : Host) (fd : Fd) (len : Nat) : Keeps core (fdsRead host fd len) := by
  refine .bind .get fun vfs => .bind (.ofExcept _) fun entry => .bind (.ofExcept _) fun _ => ?_
  have hnode : Keeps core (do
      let node ← .ofExcept (okOr (vfs.tree.lookupInode entry.inodeId) .noEntry)
      .ofExcept (failIf (node.attr.isDirectory = true) .isDirectory)
      let bytes ← .ofExcept (readRegularNodeAt host node vfs.procSelf
        (vfs.shared.description entry.description).offset len none)
      onFiles (Files.setDescription entry { vfs.shared.description entry.description with
        offset := ((vfs.shared.description entry.description).offset + bytes.length) % u64Limit })
      pure bytes) :=
    .bind (.ofExcept _) fun _ => .bind (.ofExcept _) fun _ => .bind (.ofExcept _) fun _ =>
      .bind (onFiles_keeps (Files.setDescription_keeps _ _)) fun _ => .pure _
  rcases entry.file.kind with _ | _ | _ | kind | _ | _ | _ | _ | _ | kind
  · exact hnode
  · exact .throw _
  · exact hnode
  · cases kind with
    | null => exact .pure _
    | zero => exact .pure _
    | urandom => exact .ofExcept _
    | stdin => exact .pure _
    | stdout => exact .throw _
    | stderr => exact .throw _
  · exact onFiles_keeps (Files.pipeRead_keeps host entry len)
  · exact .throw _
  · exact .throw _
  · exact .throw _
  · exact onFiles_keeps (Files.eventfdRead_keeps entry len)
  · cases kind with
    | stdin => exact .pure _
    | stdout => exact .throw _
    | stderr => exact .throw _

theorem fdsPread_keeps (host : Host) (fd : Fd) (offset len : Nat) : Keeps id (fdsPread host fd offset len) := by
  refine .bind .get fun vfs => .bind (.ofExcept _) fun entry => .bind (.ofExcept _) fun _ => ?_
  have hnode : @Keeps VirtualFileSystem _ _ _ id (do
      let node ← .ofExcept (okOr (vfs.tree.lookupInode entry.inodeId) .noEntry)
      .ofExcept (failIf (node.attr.isDirectory = true) .isDirectory)
      .ofExcept (readRegularNodeAt host node vfs.procSelf offset len none)) :=
    .bind (.ofExcept _) fun _ => .bind (.ofExcept _) fun _ => .ofExcept _
  rcases entry.file.kind with _ | _ | _ | kind | _ | _ | _ | _ | _ | kind
  · exact hnode
  · exact .throw _
  · exact hnode
  · cases kind with
    | null => exact .pure _
    | zero => exact .pure _
    | urandom => exact .ofExcept _
    | stdin => exact .pure _
    | stdout => exact .throw _
    | stderr => exact .throw _
  all_goals exact .throw _

theorem read_quiet (host : Host) (fd : Fd) (len : Nat) : IsQuiet (read host fd len) vfs := by
  unfold IsQuiet read
  rw [wp_bind]
  refine wp_mono (readFromSmallCache_spec fd len) ?_ (fun _ _ h => h)
  rintro r vfs' ⟨hquiet, hnone⟩
  cases r with
  | some bytes => exact (wp_pure _).mpr hquiet
  | none =>
      rw [hnone rfl]
      simp only
      rw [wp_bind, wp_get, wp_bind]
      apply wp_check
      · intro _ _
        exact .refl vfs
      intro request _
      cases request with
      | none => exact IsQuiet.of_keeps (fdsRead_keeps host fd len) vfs
      | some request => exact readAndAdvance host request.1 request.2 len (vfs.fds.get fd) id

theorem pread_spec (host : Host) (fd : Fd) (offset len : Nat) :
    wp (pread host fd offset len) (fun _ => FilledTo vfs) (fun _ => FilledTo vfs) vfs := by
  unfold pread
  rw [wp_bind, wp_get, wp_bind]
  apply wp_check
  · intro _ _
    exact .refl vfs
  intro entry _
  rw [wp_bind]
  apply wp_mono (cachedSmallReadForEntry_spec entry offset len)
  · intro r vfs' h
    cases r with
    | some bytes => exact (wp_pure _).mpr h.1
    | none =>
        rw [h.2 rfl]
        simp only
        rw [wp_bind, wp_get, wp_bind]
        apply wp_check
        · intro _ _
          exact .refl vfs
        intro request _
        cases request with
        | none =>
            apply wp_mono ((fdsPread_keeps host fd offset len).wp vfs)
            · intro _ vfs'' hsame
              rw [show vfs'' = vfs from hsame]
              exact .refl vfs
            · intro _ vfs'' hsame
              rw [show vfs'' = vfs from hsame]
              exact .refl vfs
        | some request => exact readRegularInodeAt_spec host request.1 offset len
  · intro _ vfs' hsame
    rw [hsame]
    exact .refl vfs

theorem pread_quiet (host : Host) (fd : Fd) (offset len : Nat) : IsQuiet (pread host fd offset len) vfs :=
  wp_mono (pread_spec host fd offset len) (fun _ _ h => h.quiet) (fun _ _ h => h.quiet)

theorem readvRegular_quiet (host : Host) (fd : Fd) (lengths : List Nat) :
    IsQuiet (readvRegular host fd lengths) vfs := by
  unfold IsQuiet readvRegular
  rw [wp_bind, wp_get, wp_bind]
  apply wp_check
  · intro _ _
    exact .refl vfs
  intro request _
  cases request with
  | none => exact (wp_pure _).mpr (.refl vfs)
  | some request =>
      simp only
      rw [wp_bind]
      apply wp_check
      · intro _ _
        exact .refl vfs
      intro total _
      split
      · exact (wp_pure _).mpr (.refl vfs)
      · exact readAndAdvance host request.1 request.2 total (vfs.fds.get fd) some

theorem mapReadonlyRegularFileAt_spec (host : Host) (fd : Fd) (offset len : Nat) :
    wp (mapReadonlyRegularFileAt host fd offset len) (fun _ => FilledTo vfs) (fun _ => FilledTo vfs) vfs := by
  unfold mapReadonlyRegularFileAt
  split
  · exact (wp_pure _).mpr (.refl vfs)
  rw [wp_bind, wp_get, wp_bind]
  apply wp_check
  · intro _ _
    exact .refl vfs
  intro found _
  cases found with
  | none => exact (wp_pure _).mpr (.refl vfs)
  | some found =>
      simp only
      cases found.2.deferredHostPath with
      | none => exact (wp_pure _).mpr (.refl vfs)
      | some path =>
          simp only
          split
          · exact (wp_pure _).mpr (.refl vfs)
          rw [wp_bind]
          apply wp_mono (cachedHostReadHandle_spec _ host found.1 path) _ (fun _ _ h => h)
          intro file vfs' hfilled
          split
          · exact (wp_pure _).mpr hfilled
          · exact (wp_pure _).mpr hfilled
          · exact (wp_pure _).mpr hfilled
          · exact (wp_throw _).mpr hfilled

theorem mapReadonlyRegularFileAt_quiet (host : Host) (fd : Fd) (offset len : Nat) :
    IsQuiet (mapReadonlyRegularFileAt host fd offset len) vfs :=
  wp_mono (mapReadonlyRegularFileAt_spec host fd offset len) (fun _ _ h => h.quiet) (fun _ _ h => h.quiet)

/-! ### Listings -/

theorem consumeDirectoryEntries_keeps (fd : Fd) (maxBytes : Nat) (entries : List DirectoryEntry) :
    Keeps core (consumeDirectoryEntries fd maxBytes entries) :=
  .bind .get fun _ => .bind (.ofExcept _) fun _ => .bind (.ofExcept _) fun _ =>
    .ite (.pure _) (.bind (onFiles_keeps (Files.setDescription_keeps _ _)) fun _ => .pure _)

theorem directoryListingSource_path (hwf : vfs.tree.Wf) {fd : Fd} {source : DirectoryListingSource}
    (h : vfs.directoryListingSource fd = .ok source) : vfs.tree.nodes.get? source.path = some source.inode := by
  unfold directoryListingSource at h
  obtain ⟨entry, _, h⟩ := except_bind_eq_ok.mp h
  obtain ⟨_, _, h⟩ := except_bind_eq_ok.mp h
  obtain ⟨path, _, h⟩ := except_bind_eq_ok.mp h
  obtain ⟨node, hnode, h⟩ := except_bind_eq_ok.mp h
  cases h
  rw [okOr_eq_ok] at hnode
  rw [← lookupPath_inodeId hwf, hnode]
  rfl

theorem getdents64_quiet (hwf : vfs.tree.Wf) (fd : Fd) (maxBytes : Nat) : IsQuiet (getdents64 fd maxBytes) vfs := by
  unfold IsQuiet getdents64
  rw [wp_bind, wp_get, wp_bind]
  apply wp_check
  · intro _ _
    exact .refl vfs
  intro source hsource
  have hconsume : ∀ entries vfs', FilledTo vfs vfs' →
      wp (consumeDirectoryEntries fd maxBytes entries) (fun _ => Quiet vfs) (fun _ => Quiet vfs) vfs' := by
    intro entries vfs' hfilled
    exact wp_mono ((consumeDirectoryEntries_keeps fd maxBytes entries).wp vfs')
      (fun _ _ hcore => hfilled.quiet.of_core hcore) (fun _ _ hcore => hfilled.quiet.of_core hcore)
  have hnode := directoryListingSource_path hwf hsource
  simp only
  split
  · rw [wp_bind]
    exact wp_mono (cachedDirectoryEntries_spec hnode) hconsume (fun _ _ h => h.quiet)
  · rw [wp_bind]
    apply wp_check
    · intro _ _
      exact .refl vfs
    · intro entries _
      exact hconsume entries vfs (.refl vfs)

/-! ### The other calls -/

theorem lseek_keeps (fd : Fd) (offset : Int) (whence : SeekWhence) : Keeps core (lseek fd offset whence) := by
  refine .bind .get fun vfs => .bind (.ofExcept _) fun entry => .bind (.ofExcept _) fun _ => ?_
  refine .ite (.bind (.pure _) fun size => ?_) (.bind (.ofExcept _) fun _ => .bind (.pure _) fun size => ?_)
  · exact .bind (.ofExcept _) fun _ => .bind (onFiles_keeps (Files.setDescription_keeps _ _)) fun _ => .pure _
  · exact .bind (.ofExcept _) fun _ => .bind (onFiles_keeps (Files.setDescription_keeps _ _)) fun _ => .pure _

theorem chdir_keeps (path : String) : Keeps core (chdir path) :=
  .bind .get fun _ => .bind (.ofExcept _) fun _ => .modify fun _ => rfl

theorem dup3_quiet (oldfd newfd : Fd) (flags : OpenFlags) : IsQuiet (dup3 oldfd newfd flags) vfs := by
  unfold IsQuiet dup3
  rw [wp_bind]
  apply wp_check
  · intro _ _
    exact .refl vfs
  intro _ _
  exact IsQuiet.onFiles (Files.dup2_tame oldfd newfd flags.cloexec) vfs

theorem fcntl_quiet (fd : Fd) (cmd : UInt32) (arg : Nat) : IsQuiet (fcntl fd cmd arg) vfs := by
  unfold fcntl
  split
  · unfold IsQuiet
    rw [wp_bind]
    apply wp_check
    · intro _ _
      exact .refl vfs
    intro minFd _
    exact (IsQuiet.onFiles (Files.dup_tame fd minFd _) vfs).bind_pure Int.toNat
  split
  · exact (IsQuiet.onFiles (.of_keeps (Files.fdFlags_keeps fd)) vfs).bind_pure UInt32.toNat
  split
  · exact (IsQuiet.onFiles (Files.setFdFlags_tame fd _) vfs).bind_pure fun _ => 0
  split
  · exact (IsQuiet.onFiles (.of_keeps (Files.statusFlags_keeps fd)) vfs).bind_pure UInt32.toNat
  split
  · exact (IsQuiet.onFiles (.of_keeps (Files.setStatusFlags_keeps fd _)) vfs).bind_pure fun _ => 0
  split
  · exact (IsQuiet.onFiles (.of_keeps (Files.get_keeps fd)) vfs).bind_pure fun _ => 0
  split
  · exact IsQuiet.onFiles (.of_keeps (Files.pipeCapacity_keeps fd)) vfs
  split
  · exact IsQuiet.onFiles (.of_keeps (Files.setPipeCapacity_keeps fd arg)) vfs
  · exact (wp_throw _).mpr (.refl vfs)

theorem setProcSelf_quiet (procSelf : ProcSelfData) : IsQuiet (setProcSelf procSelf) vfs := by
  unfold IsQuiet setProcSelf invalidateProcCaches onCache
  rw [wp_bind, wp_modify, wp_modify]
  exact ⟨rfl, .emptied, .refl _⟩

theorem takeStdout_quiet : IsQuiet takeStdout vfs := by
  refine IsQuiet.of_keeps ?_ vfs
  exact .bind .get fun _ => .bind (onFiles_keeps (Files.share_keeps _)) fun _ => .pure _

theorem takeStderr_quiet : IsQuiet takeStderr vfs := by
  refine IsQuiet.of_keeps ?_ vfs
  exact .bind .get fun _ => .bind (onFiles_keeps (Files.share_keeps _)) fun _ => .pure _

theorem setUmask_quiet (mask : UInt32) : IsQuiet (setUmask mask) vfs := by
  refine IsQuiet.of_keeps ?_ vfs
  exact .bind .get fun _ => .bind (.modify fun _ => rfl) fun _ => .pure _

end VirtualFileSystem

end Mcr.Vfs
