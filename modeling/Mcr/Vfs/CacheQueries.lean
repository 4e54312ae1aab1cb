import Mcr.Vfs.Coherent
import Mcr.Vfs.Names

/-!
# Queries with and without the cache

A query that runs on a cache fitting the tree answers what it answers on an empty one. The two runs are
followed side by side: they read the same tree, and where one finds an answer in its cache the other makes
it anew and puts it there.
-/

namespace Mcr.Vfs

open Prog

def VfsCache.emptied (cache : VfsCache) : VfsCache :=
  { cache with directoryListings := .empty, metadata := .empty, smallReads := .empty }

namespace VirtualFileSystem

variable {vfs vfs' : VirtualFileSystem} {host : Host}

def withCache (vfs : VirtualFileSystem) (cache : VfsCache) : VirtualFileSystem := { vfs with cache := cache }

def uncached (vfs : VirtualFileSystem) : VirtualFileSystem := vfs.withCache vfs.cache.emptied

/-- Both caches fit the tree, and nothing else differs. -/
structure Twin (vfs vfs' : VirtualFileSystem) : Prop where
  wf : vfs.tree.Wf
  coherent : vfs.Coherent
  twin : vfs'.Coherent
  same : ∃ cache, vfs' = vfs.withCache cache ∧ cache.emptied = vfs.cache.emptied

theorem Coherent.uncached_twin (h : vfs.Coherent) (hwf : vfs.tree.Wf) : Twin vfs vfs.uncached where
  wf := hwf
  coherent := h
  twin := ⟨fun _ _ h => (nomatch h), fun _ _ h => (nomatch h), fun _ _ h => (nomatch h)⟩
  same := ⟨vfs.cache.emptied, rfl, rfl⟩

theorem Twin.filled {cache : VfsCache} (h : Twin vfs vfs') (hcache : Filled vfs cache)
    (hsame : cache.emptied = vfs.cache.emptied) : Twin (vfs.withCache cache) vfs' where
  wf := h.wf
  coherent := hcache.coherent h.wf h.coherent
  twin := h.twin
  same := by
    obtain ⟨cache', rfl, hsame'⟩ := h.same
    exact ⟨cache', rfl, hsame'.trans hsame.symm⟩

theorem Twin.symm (h : Twin vfs vfs') : Twin vfs' vfs := by
  obtain ⟨cache, rfl, hsame⟩ := h.same
  exact ⟨h.wf, h.twin, h.coherent, vfs.cache, rfl, hsame.symm⟩

theorem Twin.setFiles (h : Twin vfs vfs') (files : Files) : Twin (setFiles files vfs) (setFiles files vfs') := by
  obtain ⟨cache, rfl, hsame⟩ := h.same
  exact ⟨h.wf, ⟨h.coherent.1, h.coherent.2, h.coherent.3⟩, ⟨h.twin.1, h.twin.2, h.twin.3⟩, cache, rfl, hsame⟩

abbrev Agree {α : Type} (call call' : Call α) (vfs vfs' : VirtualFileSystem) : Prop :=
  Simulates Twin call call' vfs vfs'

theorem Agree.of_answer {α : Type} {call call' : Call α} {a : α} (h : Twin vfs vfs')
    (hleft : ∃ cache, call vfs = (.ok a, vfs.withCache cache) ∧ Filled vfs cache ∧ cache.emptied = vfs.cache.emptied)
    (hright : ∃ cache, call' vfs' = (.ok a, vfs'.withCache cache) ∧ Filled vfs' cache ∧
      cache.emptied = vfs'.cache.emptied) : Agree call call' vfs vfs' := by
  obtain ⟨cache, hrun, hfilled, hsame⟩ := hleft
  obtain ⟨cache', hrun', hfilled', hsame'⟩ := hright
  rw [Agree, Simulates, hrun, hrun']
  exact ⟨rfl, ((h.filled hfilled hsame).symm.filled hfilled' hsame').symm⟩

theorem onFiles_agree {α : Type} (h : Twin vfs vfs') (call : Files.Call α) :
    Agree (onFiles call) (onFiles call) vfs vfs' := by
  obtain ⟨cache, rfl, _⟩ := h.same
  exact ⟨rfl, h.setFiles _⟩

theorem cachedMetadata_answer (hcoherent : vfs.Coherent) {node : PathNode}
    (hnode : vfs.tree.inodes.get? node.inodeId = some node) :
    ∃ cache, cachedMetadata node vfs = (.ok node.attr, vfs.withCache cache) ∧ Filled vfs cache ∧
      cache.emptied = vfs.cache.emptied := by
  cases hattr : vfs.cache.metadataOf node.inodeId with
  | some attr =>
      obtain ⟨node', hnode', rfl⟩ := hcoherent.metadata _ _ hattr
      rw [hnode] at hnode'
      cases hnode'
      refine ⟨vfs.cache, ?_, .same, rfl⟩
      unfold cachedMetadata
      rw [run_bind_ok (show Prog.get vfs = (.ok vfs, vfs) from rfl), hattr]
      rfl
  | none =>
      refine ⟨vfs.cache.insertMetadata node.inodeId node.attr, ?_, .metadata hnode, rfl⟩
      unfold cachedMetadata
      rw [run_bind_ok (show Prog.get vfs = (.ok vfs, vfs) from rfl), hattr]
      rfl

theorem cachedMetadata_agree (h : Twin vfs vfs') {node : PathNode}
    (hnode : vfs.tree.inodes.get? node.inodeId = some node) :
    Agree (cachedMetadata node) (cachedMetadata node) vfs vfs' := by
  refine .of_answer h (cachedMetadata_answer h.coherent hnode) (cachedMetadata_answer h.twin ?_)
  obtain ⟨cache, rfl, _⟩ := h.same
  exact hnode

theorem fstat_agree (h : Twin vfs vfs') (fd : Fd) : Agree (fstat fd) (fstat fd) vfs vfs' := by
  obtain ⟨cache, rfl, _⟩ := h.same
  refine .get (.check h fun entry _ => ?_)
  split
  · exact .pure _ h
  · simp only [(show (vfs.withCache cache).tree = vfs.tree from rfl)]
    cases hnode : vfs.tree.lookupInode entry.inodeId with
    | none => exact .pure _ h
    | some node =>
        refine cachedMetadata_agree h ?_
        rw [h.wf.ids entry.inodeId node hnode]
        exact hnode

theorem statPath_agree (h : Twin vfs vfs') (path : GuestPath) : Agree (statPath path) (statPath path) vfs vfs' := by
  obtain ⟨cache, rfl, _⟩ := h.same
  refine .get ?_
  cases procSelfFdPathFd path with
  | some fd => exact .ofExcept _ h
  | none =>
      refine .check h fun node hnode => cachedMetadata_agree h ?_
      exact lookupPath_self h.wf (okOr_eq_ok.mp hnode)

theorem newfstatat_agree (h : Twin vfs vfs') (dirfd : Fd) (path : String) (flags : UInt32) :
    Agree (newfstatat dirfd path flags) (newfstatat dirfd path flags) vfs vfs' := by
  unfold newfstatat
  split
  · exact fstat_agree h dirfd
  · obtain ⟨cache, rfl, _⟩ := h.same
    exact .get (.check h fun resolved _ => statPath_agree h resolved.guestPath)

theorem access_agree (h : Twin vfs vfs') (path : String) (mode : UInt32) :
    Agree (access path mode) (access path mode) vfs vfs' := by
  obtain ⟨cache, rfl, _⟩ := h.same
  refine .get (.check h fun resolved _ => ?_)
  exact .bind (statPath_agree h resolved.guestPath) fun attr _ _ h' => .ofExcept _ h'

theorem faccessat2_agree (h : Twin vfs vfs') (dirfd : Fd) (path : String) (mode flags : UInt32) :
    Agree (faccessat2 dirfd path mode flags) (faccessat2 dirfd path mode flags) vfs vfs' := by
  obtain ⟨cache, rfl, _⟩ := h.same
  refine .check h fun _ _ => .ite (fun _ => ?_) (fun _ => ?_)
  · exact .bind (fstat_agree h dirfd) fun attr _ _ h' => .ofExcept _ h'
  · refine .check h fun _ _ => .get (.check h fun resolved _ => ?_)
    exact .bind (statPath_agree h resolved.guestPath) fun attr _ _ h' => .ofExcept _ h'

/-! ### Listings -/

theorem cachedDirectoryEntries_answer (hcoherent : vfs.Coherent) {i : InodeId} {path : GuestPath}
    (hpath : vfs.tree.nodes.get? path = some i) {entries : List DirectoryEntry}
    (hentries : staticDirectoryEntries vfs.tree path = .ok entries) :
    ∃ cache, cachedDirectoryEntries i path vfs = (.ok entries, vfs.withCache cache) ∧ Filled vfs cache ∧
      cache.emptied = vfs.cache.emptied := by
  cases hcached : vfs.cache.directoryListing i with
  | some cached =>
      have hsame := (hcoherent.listing i cached hcached).2 path hpath
      rw [hentries] at hsame
      cases hsame
      refine ⟨vfs.cache, ?_, .same, rfl⟩
      unfold cachedDirectoryEntries
      rw [run_bind_ok (show Prog.get vfs = (.ok vfs, vfs) from rfl), hcached]
      rfl
  | none =>
      refine ⟨vfs.cache.insertDirectoryListing i entries, ?_, .listing hpath hentries, rfl⟩
      unfold cachedDirectoryEntries
      rw [run_bind_ok (show Prog.get vfs = (.ok vfs, vfs) from rfl), hcached, hentries]
      rfl

theorem cachedDirectoryEntries_fails (hcoherent : vfs.Coherent) {i : InodeId} {path : GuestPath}
    (hpath : vfs.tree.nodes.get? path = some i) {error : VfsError}
    (herror : staticDirectoryEntries vfs.tree path = .error error) :
    cachedDirectoryEntries i path vfs = (.error error, vfs) := by
  unfold cachedDirectoryEntries
  cases hcached : vfs.cache.directoryListing i with
  | some cached =>
      have hsame := (hcoherent.listing i cached hcached).2 path hpath
      rw [herror] at hsame
      nomatch hsame
  | none =>
      rw [run_bind_ok (show Prog.get vfs = (.ok vfs, vfs) from rfl), hcached, herror]
      rfl

theorem cachedDirectoryEntries_agree (h : Twin vfs vfs') {i : InodeId} {path : GuestPath}
    (hpath : vfs.tree.nodes.get? path = some i) :
    Agree (cachedDirectoryEntries i path) (cachedDirectoryEntries i path) vfs vfs' := by
  obtain ⟨cache, rfl, _⟩ := h.same
  have hpath' : (vfs.withCache cache).tree.nodes.get? path = some i := hpath
  cases hentries : staticDirectoryEntries vfs.tree path with
  | ok entries =>
      have hentries' : staticDirectoryEntries (vfs.withCache cache).tree path = .ok entries := hentries
      exact .of_answer h (cachedDirectoryEntries_answer h.coherent hpath hentries)
        (cachedDirectoryEntries_answer h.twin hpath' hentries')
  | error error =>
      have herror' : staticDirectoryEntries (vfs.withCache cache).tree path = .error error := hentries
      rw [Agree, Simulates, cachedDirectoryEntries_fails h.coherent hpath hentries,
        cachedDirectoryEntries_fails h.twin hpath' herror']
      exact ⟨rfl, h⟩

theorem consumeDirectoryEntries_agree (h : Twin vfs vfs') (fd : Fd) (maxBytes : Nat) (entries : List DirectoryEntry) :
    Agree (consumeDirectoryEntries fd maxBytes entries) (consumeDirectoryEntries fd maxBytes entries) vfs vfs' := by
  obtain ⟨cache, rfl, _⟩ := h.same
  refine .get (.check h fun entry _ => .check h fun _ _ => .ite (fun _ => .pure _ h) fun _ => ?_)
  exact .bind (onFiles_agree h _) fun _ _ _ h' => .pure _ h'

theorem getdents64_agree (h : Twin vfs vfs') (fd : Fd) (maxBytes : Nat) :
    Agree (getdents64 fd maxBytes) (getdents64 fd maxBytes) vfs vfs' := by
  obtain ⟨cache, rfl, _⟩ := h.same
  refine .get (.check h fun source hsource => .ite (fun _ => ?_) (fun _ => ?_))
  · exact .bind (cachedDirectoryEntries_agree h (directoryListingSource_path h.wf hsource)) fun entries _ _ h' =>
      consumeDirectoryEntries_agree h' fd maxBytes entries
  · exact .check h fun entries _ => consumeDirectoryEntries_agree h fd maxBytes entries

/-! ### Reading -/

theorem cachedSmallReadData_answer (hcoherent : vfs.Coherent) {i : InodeId} {node : PathNode}
    (hnode : vfs.tree.inodes.get? i = some node) (hloaded : node.deferredHostPath = none) :
    ∃ cache, cachedSmallReadData i node.data vfs = (.ok node.data, vfs.withCache cache) ∧ Filled vfs cache ∧
      cache.emptied = vfs.cache.emptied := by
  cases hcached : vfs.cache.smallRead i with
  | some cached =>
      obtain ⟨node', hnode', _, rfl⟩ := hcoherent.smallRead _ _ hcached
      rw [hnode] at hnode'
      cases hnode'
      refine ⟨vfs.cache, ?_, .same, rfl⟩
      unfold cachedSmallReadData
      rw [run_bind_ok (show Prog.get vfs = (.ok vfs, vfs) from rfl), hcached]
      rfl
  | none =>
      refine ⟨vfs.cache.insertSmallRead i node.data, ?_, .smallRead hnode hloaded, rfl⟩
      unfold cachedSmallReadData
      rw [run_bind_ok (show Prog.get vfs = (.ok vfs, vfs) from rfl), hcached]
      rfl

theorem cachedSmallReadForEntry_agree (h : Twin vfs vfs') (entry : FdEntry) (offset len : Nat) :
    Agree (cachedSmallReadForEntry entry offset len) (cachedSmallReadForEntry entry offset len) vfs vfs' := by
  obtain ⟨cache, rfl, _⟩ := h.same
  refine .get (.check h fun _ _ => .ite (fun _ => .pure _ h) fun _ => .ite (fun _ => .pure _ h) fun _ => ?_)
  refine .check h fun node hnode => .ite (fun _ => .pure _ h) fun hcacheable => ?_
  have hlookup : vfs.tree.inodes.get? entry.inodeId = some node := okOr_eq_ok.mp hnode
  have hlookup' : (vfs.withCache cache).tree.inodes.get? entry.inodeId = some node := hlookup
  have hloaded : node.deferredHostPath = none := by
    by_contra hsome
    exact hcacheable (Or.inr (Or.inl (Option.isSome_iff_ne_none.mpr hsome)))
  exact .bind (Agree.of_answer h (cachedSmallReadData_answer h.coherent hlookup hloaded)
    (cachedSmallReadData_answer h.twin hlookup' hloaded)) fun _ _ _ h' => .pure _ h'

theorem advanceOffset_agree (h : Twin vfs vfs') (entry : FdEntry) (offset count : Nat) :
    Agree (advanceOffset entry offset count) (advanceOffset entry offset count) vfs vfs' := by
  obtain ⟨cache, rfl, _⟩ := h.same
  exact .check h fun _ _ => .get (onFiles_agree h _)

theorem hostReadHandle_emptied (host : Host) (cache : VfsCache) (i : InodeId) (path : HostPath) :
    cache.emptied.hostReadHandle host i path =
      ((cache.hostReadHandle host i path).1, (cache.hostReadHandle host i path).2.emptied) := by
  have hkey : cache.emptied.keyGeneration i = cache.keyGeneration i := rfl
  have hhandles : cache.emptied.hostReadHandles = cache.hostReadHandles := rfl
  unfold VfsCache.hostReadHandle
  simp only [hkey, hhandles]
  split
  · rfl
  · cases host.openRead path with
    | error kind => rfl
    | ok _ => rfl

theorem hostReadHandle_handles (host : Host) (cache : VfsCache) (i : InodeId) (path : HostPath) :
    ∃ handles lru, (cache.hostReadHandle host i path).2 =
      { cache with hostReadHandles := handles, hostReadLru := lru } := by
  unfold VfsCache.hostReadHandle
  simp only
  split
  · exact ⟨_, _, rfl⟩
  · cases host.openRead path with
    | error kind => exact ⟨cache.hostReadHandles, cache.hostReadLru, rfl⟩
    | ok _ => exact ⟨_, _, rfl⟩

theorem cachedHostReadHandle_agree (h : Twin vfs vfs') (i : InodeId) (path : HostPath) :
    Agree (cachedHostReadHandle host i path) (cachedHostReadHandle host i path) vfs vfs' := by
  have hcoherent : ∀ vfs : VirtualFileSystem, vfs.tree.Wf → vfs.Coherent →
      (vfs.withCache (vfs.cache.hostReadHandle host i path).2).Coherent := by
    intro vfs hwf hcoherent
    obtain ⟨handles, lru, heq⟩ := hostReadHandle_handles host vfs.cache i path
    rw [heq]
    exact (Filled.handles handles lru).coherent hwf hcoherent
  obtain ⟨cache, rfl, hsame⟩ := h.same
  have hleft := hostReadHandle_emptied host vfs.cache i path
  have hright := hostReadHandle_emptied host cache i path
  rw [hsame, hleft] at hright
  obtain ⟨hresult, hcache⟩ := Prod.mk.inj hright
  exact ⟨hresult, h.wf, hcoherent vfs h.wf h.coherent, hcoherent (vfs.withCache cache) h.wf h.twin, _, rfl,
    hcache.symm⟩

theorem readRegularInodeAt_agree (h : Twin vfs vfs') (i : InodeId) (offset len : Nat) :
    Agree (readRegularInodeAt host i offset len) (readRegularInodeAt host i offset len) vfs vfs' := by
  obtain ⟨cache, rfl, _⟩ := h.same
  refine .get (.check h fun node _ => .check h fun _ _ => ?_)
  cases node.deferredHostPath with
  | none => exact .ofExcept _ h
  | some path => exact .bind (cachedHostReadHandle_agree h i path) fun _ _ _ h' => .ofExcept _ h'

theorem readFromSmallCache_agree (h : Twin vfs vfs') (fd : Fd) (len : Nat) :
    Agree (readFromSmallCache fd len) (readFromSmallCache fd len) vfs vfs' := by
  obtain ⟨cache, rfl, _⟩ := h.same
  refine .get (.check h fun entry _ => .bind (cachedSmallReadForEntry_agree h entry _ len) fun bytes _ _ h' => ?_)
  cases bytes with
  | none => exact .pure _ h'
  | some bytes => exact .bind (advanceOffset_agree h' entry _ _) fun _ _ _ h'' => .pure _ h''

theorem fdsRead_agree (h : Twin vfs vfs') (fd : Fd) (len : Nat) :
    Agree (fdsRead host fd len) (fdsRead host fd len) vfs vfs' := by
  obtain ⟨cache, rfl, _⟩ := h.same
  refine .get (.check h fun entry _ => .check h fun _ _ => ?_)
  have hnode : ∀ shared : Shared, Agree (do
      let node ← .ofExcept (okOr (vfs.tree.lookupInode entry.inodeId) .noEntry)
      .ofExcept (failIf (node.attr.isDirectory = true) .isDirectory)
      let bytes ← .ofExcept (readRegularNodeAt host node vfs.procSelf
        (shared.description entry.description).offset len none)
      onFiles (Files.setDescription entry { shared.description entry.description with
        offset := ((shared.description entry.description).offset + bytes.length) % u64Limit })
      pure bytes) (do
      let node ← .ofExcept (okOr (vfs.tree.lookupInode entry.inodeId) .noEntry)
      .ofExcept (failIf (node.attr.isDirectory = true) .isDirectory)
      let bytes ← .ofExcept (readRegularNodeAt host node vfs.procSelf
        (shared.description entry.description).offset len none)
      onFiles (Files.setDescription entry { shared.description entry.description with
        offset := ((shared.description entry.description).offset + bytes.length) % u64Limit })
      pure bytes) vfs (vfs.withCache cache) := by
    intro shared
    exact .check h fun node _ => .check h fun _ _ => .check h fun bytes _ =>
      .bind (onFiles_agree h _) fun _ _ _ h' => .pure _ h'
  rcases entry.file.kind with _ | _ | _ | kind | _ | _ | _ | _ | _ | kind
  · exact hnode vfs.shared
  · exact .throw _ h
  · exact hnode vfs.shared
  · cases kind with
    | null => exact .pure _ h
    | zero => exact .pure _ h
    | urandom => exact .ofExcept _ h
    | stdin => exact .pure _ h
    | stdout => exact .throw _ h
    | stderr => exact .throw _ h
  · exact onFiles_agree h _
  · exact .throw _ h
  · exact .throw _ h
  · exact .throw _ h
  · exact onFiles_agree h _
  · cases kind with
    | stdin => exact .pure _ h
    | stdout => exact .throw _ h
    | stderr => exact .throw _ h

theorem fdsPread_agree (h : Twin vfs vfs') (fd : Fd) (offset len : Nat) :
    Agree (fdsPread host fd offset len) (fdsPread host fd offset len) vfs vfs' := by
  obtain ⟨cache, rfl, _⟩ := h.same
  refine .get (.check h fun entry _ => .check h fun _ _ => ?_)
  have hnode : Agree (do
      let node ← .ofExcept (okOr (vfs.tree.lookupInode entry.inodeId) .noEntry)
      .ofExcept (failIf (node.attr.isDirectory = true) .isDirectory)
      .ofExcept (readRegularNodeAt host node vfs.procSelf offset len none)) (do
      let node ← .ofExcept (okOr (vfs.tree.lookupInode entry.inodeId) .noEntry)
      .ofExcept (failIf (node.attr.isDirectory = true) .isDirectory)
      .ofExcept (readRegularNodeAt host node vfs.procSelf offset len none)) vfs (vfs.withCache cache) :=
    .check h fun node _ => .check h fun _ _ => .ofExcept _ h
  rcases entry.file.kind with _ | _ | _ | kind | _ | _ | _ | _ | _ | kind
  · exact hnode
  · exact .throw _ h
  · exact hnode
  · cases kind with
    | null => exact .pure _ h
    | zero => exact .pure _ h
    | urandom => exact .ofExcept _ h
    | stdin => exact .pure _ h
    | stdout => exact .throw _ h
    | stderr => exact .throw _ h
  all_goals exact .throw _ h

theorem read_agree (h : Twin vfs vfs') (fd : Fd) (len : Nat) :
    Agree (read host fd len) (read host fd len) vfs vfs' := by
  refine .bind (readFromSmallCache_agree h fd len) fun bytes vfs vfs' h => ?_
  cases bytes with
  | some bytes => exact .pure _ h
  | none =>
      obtain ⟨cache, rfl, _⟩ := h.same
      refine .get (.check h fun request _ => ?_)
      cases request with
      | none => exact fdsRead_agree h fd len
      | some request =>
          refine .bind (readRegularInodeAt_agree h request.1 request.2 len) fun bytes _ _ h' => ?_
          exact .check h' fun entry _ => .bind (advanceOffset_agree h' entry _ _) fun _ _ _ h'' => .pure _ h''

theorem pread_agree (h : Twin vfs vfs') (fd : Fd) (offset len : Nat) :
    Agree (pread host fd offset len) (pread host fd offset len) vfs vfs' := by
  obtain ⟨cache, rfl, _⟩ := h.same
  refine .get (.check h fun entry _ => .bind (cachedSmallReadForEntry_agree h entry offset len)
    fun bytes vfs vfs' h => ?_)
  cases bytes with
  | some bytes => exact .pure _ h
  | none =>
      obtain ⟨cache, rfl, _⟩ := h.same
      refine .get (.check h fun request _ => ?_)
      cases request with
      | none => exact fdsPread_agree h fd offset len
      | some request => exact readRegularInodeAt_agree h request.1 offset len

/-! ### Runs -/

/-- Every query answers what it would answer with the cache emptied first. -/
structure CacheFree (host : Host) (vfs : VirtualFileSystem) : Prop where
  fstat : ∀ fd, (fstat fd vfs).1 = (VirtualFileSystem.fstat fd vfs.uncached).1
  newfstatat : ∀ dirfd path flags,
    (newfstatat dirfd path flags vfs).1 = (VirtualFileSystem.newfstatat dirfd path flags vfs.uncached).1
  statx : ∀ dirfd path flags, (statx dirfd path flags vfs).1 = (VirtualFileSystem.statx dirfd path flags vfs.uncached).1
  access : ∀ path mode, (access path mode vfs).1 = (VirtualFileSystem.access path mode vfs.uncached).1
  faccessat2 : ∀ dirfd path mode flags,
    (faccessat2 dirfd path mode flags vfs).1 = (VirtualFileSystem.faccessat2 dirfd path mode flags vfs.uncached).1
  getdents64 : ∀ fd maxBytes, (getdents64 fd maxBytes vfs).1 = (VirtualFileSystem.getdents64 fd maxBytes vfs.uncached).1
  read : ∀ fd len, (read host fd len vfs).1 = (VirtualFileSystem.read host fd len vfs.uncached).1
  pread : ∀ fd offset len, (pread host fd offset len vfs).1 = (VirtualFileSystem.pread host fd offset len vfs.uncached).1

theorem Coherent.cacheFree (h : vfs.Coherent) (hwf : vfs.tree.Wf) : CacheFree host vfs := by
  have htwin := h.uncached_twin hwf
  exact ⟨fun fd => (fstat_agree htwin fd).1, fun dirfd path flags => (newfstatat_agree htwin dirfd path flags).1,
    fun dirfd path flags => (newfstatat_agree htwin dirfd path flags).1,
    fun path mode => (access_agree htwin path mode).1,
    fun dirfd path mode flags => (faccessat2_agree htwin dirfd path mode flags).1,
    fun fd maxBytes => (getdents64_agree htwin fd maxBytes).1, fun fd len => (read_agree htwin fd len).1,
    fun fd offset len => (pread_agree htwin fd offset len).1⟩

theorem run_coherent (hwf : vfs.tree.Wf) (hcoherent : vfs.Coherent) (ops : List Op)
    (hrun : Along host CoherentStep vfs ops) : (vfs.run host ops).tree.Wf ∧ (vfs.run host ops).Coherent :=
  run_invariant (I := fun vfs => vfs.tree.Wf ∧ vfs.Coherent)
    (fun _ _ hinv hstep => ⟨(step_effect host hinv.1 hstep.sane).wf hinv.1,
      (step_effect host hinv.1 hstep.sane).coherent hinv.1 hstep hinv.2⟩) ops vfs ⟨hwf, hcoherent⟩ hrun

/-- Over a run the generation of an inode never falls, and when it is the same at the end the bytes are. -/
theorem run_generation {i : InodeId} (ops : List Op) : ∀ {vfs : VirtualFileSystem}, vfs.tree.Wf →
    Along host CoherentStep vfs ops →
    vfs.cache.keyGeneration i ≤ (vfs.run host ops).cache.keyGeneration i ∧
      ((vfs.run host ops).cache.keyGeneration i = vfs.cache.keyGeneration i → ∀ node,
        vfs.tree.inodes.get? i = some node → ∃ node', (vfs.run host ops).tree.inodes.get? i = some node' ∧
          node'.content host = node.content host) := by
  induction ops with
  | nil =>
      intro vfs _ _
      exact ⟨Nat.le_refl _, fun _ node hnode => ⟨node, hnode, rfl⟩⟩
  | cons op ops ih =>
      intro vfs hwf hrun
      have heffect := step_effect host hwf hrun.1.sane
      obtain ⟨hle, hsame⟩ := heffect.generation hwf hrun.1 i
      obtain ⟨hle', hsame'⟩ := ih (heffect.wf hwf) hrun.2
      refine ⟨hle.trans hle', fun heq node hnode => ?_⟩
      -- the generation passes every step unchanged
      have hend : ((vfs.step host op).run host ops).cache.keyGeneration i = vfs.cache.keyGeneration i := heq
      obtain ⟨mid, hmid, huntouched⟩ := hsame (by omega) node hnode
      obtain ⟨last, hlast, hcontent⟩ := hsame' (by omega) mid hmid
      exact ⟨last, hlast, hcontent.trans huntouched.content⟩

theorem regularFileCacheKey_ok {fd : Fd} {key : RegularFileCacheKey}
    (h : vfs.regularFileCacheKey fd = .ok (some key)) :
    key.generation = vfs.cache.keyGeneration key.inode ∧ ∃ node, vfs.tree.inodes.get? key.inode = some node := by
  obtain ⟨file, hfile, h⟩ := except_bind_eq_ok.mp h
  cases file with
  | none => nomatch h
  | some file =>
      obtain ⟨i, node⟩ := file
      cases h
      obtain ⟨entry, _, hfile⟩ := except_bind_eq_ok.mp hfile
      obtain ⟨_, _, hfile⟩ := except_bind_eq_ok.mp hfile
      refine ⟨rfl, node, ?_⟩
      split at hfile
      · nomatch hfile
      cases hlookup : vfs.tree.lookupInode entry.inodeId with
      | none =>
          rw [hlookup] at hfile
          nomatch hfile
      | some found =>
          rw [hlookup] at hfile
          simp only at hfile
          split at hfile
          · nomatch hfile
          · cases hfile
            exact hlookup

/-- In a run whose calls leave no stale entry behind, queries answer as they would without the cache, and two
equal keys of a file stand for the same bytes. -/
theorem cache_stays_coherent (rootfs : Rootfs) {tree : PathTree} (fds : FdTable) (shared : Shared) (hwf : tree.Wf)
    (ops : List Op) (hrun : Along host CoherentStep (fromParts rootfs tree fds shared) ops) :
    CacheFree host ((fromParts rootfs tree fds shared).run host ops) ∧
      ∀ first second fd fd' key, ops = first ++ second →
        ((fromParts rootfs tree fds shared).run host first).regularFileCacheKey fd = .ok (some key) →
        ((fromParts rootfs tree fds shared).run host ops).regularFileCacheKey fd' = .ok (some key) →
        ∃ node node', ((fromParts rootfs tree fds shared).run host first).tree.inodes.get? key.inode = some node ∧
          ((fromParts rootfs tree fds shared).run host ops).tree.inodes.get? key.inode = some node' ∧
          node'.content host = node.content host := by
  have hstart : (fromParts rootfs tree fds shared).Coherent :=
    ⟨fun _ _ h => (nomatch h), fun _ _ h => (nomatch h), fun _ _ h => (nomatch h)⟩
  obtain ⟨hwf', hcoherent⟩ := run_coherent hwf hstart ops hrun
  refine ⟨hcoherent.cacheFree hwf', ?_⟩
  rintro first second fd fd' key rfl hkey hkey'
  obtain ⟨hfirst, hsecond⟩ := along_append first hrun
  obtain ⟨hgeneration, node, hnode⟩ := regularFileCacheKey_ok hkey
  obtain ⟨hgeneration', _⟩ := regularFileCacheKey_ok hkey'
  rw [run_append] at hgeneration' ⊢
  obtain ⟨node', hnode', hcontent⟩ := (run_generation second (run_coherent hwf hstart first hfirst).1 hsecond).2
    (hgeneration'.symm.trans hgeneration) node hnode
  exact ⟨node, node', hnode, hnode', hcontent⟩

/-- A file is made and written, the caches fill, and then the tree changes. -/
def fillAndChange : List Op :=
  [.openat atFdcwd "/f" ⟨oCreat ||| oRdwr⟩ 0o644, .write 0 [104, 105], .fstat 0, .openat atFdcwd "/" ⟨oDirectory⟩ 0,
    .getdents64 1 1000, .mkdirat atFdcwd "/d" 0o755]

theorem fillAndChange_coherent : Along .empty CoherentStep blank fillAndChange := by
  have hfresh : blank.tree.FreshId := by
    unfold PathTree.FreshId
    decide +kernel
  have hfresh' : (blank.run .empty (fillAndChange.take 5)).tree.FreshId := by
    unfold PathTree.FreshId
    decide +kernel
  have hmakes : ¬ blank.StopsOpening (.openat atFdcwd "/f" ⟨oCreat ||| oRdwr⟩ 0o644) := by
    rintro ⟨_, _, ⟨_, _, h | h⟩ | ⟨h, _⟩⟩
    · nomatch h
    · exact h 0 (by decide +kernel)
    · nomatch h
  have hopens : ∀ vfs : VirtualFileSystem, ¬ vfs.StopsOpening (.openat atFdcwd "/" ⟨oDirectory⟩ 0) := by
    rintro vfs ⟨_, _, ⟨h, _⟩ | ⟨h, _⟩⟩
    · nomatch h
    · nomatch h
  refine ⟨⟨fun _ => hfresh, id, hmakes, trivial, ?_⟩, ⟨trivial, ?_, id, trivial, ?_⟩, ⟨trivial, id, id, trivial, ?_⟩,
    ⟨fun h => (nomatch h), id, hopens _, trivial, ?_⟩, ⟨trivial, id, id, trivial, ?_⟩,
    ⟨hfresh', id, id, trivial, ?_⟩, trivial⟩
  · exact keyGeneration_room (by decide +kernel) (by decide +kernel)
  · rintro ⟨h, _⟩
    nomatch h
  all_goals exact keyGeneration_room (by decide +kernel) (by decide +kernel)

/-- The caches hold the attributes of the file and the listing of the root when the tree changes; the key of the file
stays, and so do its bytes. -/
theorem fillAndChange_cacheFree :
    CacheFree .empty (blank.run .empty fillAndChange) ∧
      ∃ node node', (blank.run .empty (fillAndChange.take 5)).tree.inodes.get? 2 = some node ∧
        (blank.run .empty fillAndChange).tree.inodes.get? 2 = some node' ∧
        node'.content .empty = node.content .empty := by
  have hcoherent := cache_stays_coherent (.new "/") .new .empty new_wf fillAndChange fillAndChange_coherent
  have hbefore : (blank.run .empty (fillAndChange.take 5)).regularFileCacheKey 0 = .ok (some ⟨2, 1⟩) :=
    toOption_eq_some.mp (by decide +kernel)
  have hafter : (blank.run .empty fillAndChange).regularFileCacheKey 0 = .ok (some ⟨2, 1⟩) :=
    toOption_eq_some.mp (by decide +kernel)
  exact ⟨hcoherent.1, hcoherent.2 (fillAndChange.take 5) (fillAndChange.drop 5) 0 0 ⟨2, 1⟩ rfl hbefore hafter⟩

/-- A file is made, looked at, and grown by a write of no bytes past its end. -/
def growByNothing : List Op := [.openat atFdcwd "/f" ⟨oCreat ||| oRdwr⟩ 0o644, .fstat 0, .pwrite 0 5 []]

/-- The root is listed, and then a file is made by an `openat` that fails. -/
def createAndFail : List Op :=
  [.openat atFdcwd "/" ⟨oDirectory⟩ 0, .getdents64 0 1000, .openat atFdcwd "/f" ⟨oCreat ||| oDirectory⟩ 0o644,
    .openat atFdcwd "/" ⟨oDirectory⟩ 0]

theorem cache_goes_stale :
    ¬ CacheFree .empty (blank.run .empty growByNothing) ∧ ¬ CacheFree .empty (blank.run .empty createAndFail) := by
  constructor
  · intro hfree
    have hsize := congrArg (fun result => result.toOption.map LinuxFileAttr.size) (hfree.fstat 0)
    have hdiffer : (fstat 0 (blank.run .empty growByNothing)).1.toOption.map LinuxFileAttr.size ≠
        (fstat 0 (blank.run .empty growByNothing).uncached).1.toOption.map LinuxFileAttr.size := by decide +kernel
    exact hdiffer hsize
  · intro hfree
    have hnames := congrArg (fun result => result.toOption.map (List.map DirectoryEntry.name)) (hfree.getdents64 1 1000)
    have hdiffer :
        (getdents64 1 1000 (blank.run .empty createAndFail)).1.toOption.map (List.map DirectoryEntry.name) ≠
          (getdents64 1 1000 (blank.run .empty createAndFail).uncached).1.toOption.map
            (List.map DirectoryEntry.name) := by decide +kernel
    exact hdiffer hnames

end VirtualFileSystem

end Mcr.Vfs
