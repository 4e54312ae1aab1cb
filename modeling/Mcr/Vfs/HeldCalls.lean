import Mcr.Vfs.Held

/-!
# Calls on a descriptor whose inode is there

`read`, `write`, `fstat` and `ftruncate` look the inode of a descriptor up, and only that lookup and the
host can answer `NoEntry`. So none of them does while the inode is there and the host still has the file
its bytes come from.
-/

namespace Mcr.Vfs

open Prog

structure Host.Serves (host : Host) (path : HostPath) : Prop where
  readFile : host.readFile path ≠ none
  openRead : host.openRead path ≠ .error .notFound
  readAt : ∀ offset len, host.readAt path offset len ≠ .error .notFound

theorem vfsErrorFromHost_ne_noEntry {kind : HostErrorKind} (h : kind ≠ .notFound) :
    vfsErrorFromHost kind ≠ .noEntry := by
  cases kind <;> first | exact absurd rfl h | decide

namespace VirtualFileSystem

variable {vfs : VirtualFileSystem} {host : Host} {α β : Type}

/-- The call does not end in `NoEntry`. -/
def Finds (call : Call α) (vfs : VirtualFileSystem) : Prop :=
  wp call (fun _ _ => True) (fun error _ => error ≠ .noEntry) vfs

theorem Finds.result {call : Call α} (h : Finds call vfs) : (call vfs).1 ≠ .error .noEntry := by
  intro herror
  exact wp_error h (run_eq herror) rfl

theorem Finds.pure (a : α) : Finds (Pure.pure a) vfs := (wp_pure a).mpr trivial

theorem Finds.throw {error : VfsError} (h : error ≠ .noEntry) : Finds (.throw error : Call α) vfs :=
  (wp_throw error).mpr h

theorem Finds.ofExcept {x : Except VfsError α} (h : x ≠ .error .noEntry) : Finds (.ofExcept x) vfs := by
  apply wp_check
  · rintro _ herror rfl
    exact h herror
  · intro _ _
    trivial

theorem Finds.get {f : VirtualFileSystem → Call β} (h : Finds (f vfs) vfs) : Finds (Prog.get >>= f) vfs := by
  unfold Finds
  rw [wp_bind, wp_get]
  exact h

theorem Finds.check {c : Prop} [Decidable c] {error : VfsError} {f : Unit → Call β} (herror : error ≠ .noEntry)
    (hf : ¬ c → Finds (f ()) vfs) : Finds (.ofExcept (failIf c error) >>= f) vfs := by
  unfold Finds
  rw [wp_bind]
  apply wp_check
  · intro error' h
    rw [failIf_eq_error h]
    exact herror
  · intro _ h
    exact hf (failIf_eq_ok.mp h)

theorem Finds.known {x : Except VfsError α} {a : α} {f : α → Call β} (hx : x = .ok a) (hf : Finds (f a) vfs) :
    Finds (.ofExcept x >>= f) vfs := by
  subst hx
  exact hf

theorem Finds.bind {call : Call α} {f : α → Call β} {Q : α → VirtualFileSystem → Prop}
    (h : wp call Q (fun error _ => error ≠ .noEntry) vfs) (hf : ∀ a vfs', Q a vfs' → Finds (f a) vfs') :
    Finds (call >>= f) vfs := by
  unfold Finds
  rw [wp_bind]
  exact wp_mono h hf (fun _ _ h => h)

theorem setDescription_finds (entry : FdEntry) (description : FdDescription) :
    Finds (onFiles (Files.setDescription entry description)) vfs := by
  unfold Finds
  rw [onFiles, wp_zoom, Files.setDescription, wp_modify]
  trivial

theorem advanceOffset_finds (entry : FdEntry) (offset count : Nat) : Finds (advanceOffset entry offset count) vfs :=
  .check (by decide) fun _ => .get (setDescription_finds entry _)

theorem Finds.advance {entry : FdEntry} {offset : Nat} {a : α} (count : Nat) :
    Finds (do advanceOffset entry offset count; Pure.pure a) vfs :=
  .bind (advanceOffset_finds entry offset count) fun _ _ _ => .pure a

section Descriptor

variable {fd : Fd} {entry : FdEntry} {node : PathNode} (hentry : vfs.fds.entries.get? fd = some entry)
  (hnode : vfs.tree.inodes.get? entry.inodeId = some node)
  (hserves : ∀ path, node.deferredHostPath = some path → host.Serves path)

include hentry in
theorem fds_get : vfs.fds.get fd = .ok entry := okOr_eq_ok.mpr hentry

include hnode in
theorem lookup_entry : okOr (vfs.tree.lookupInode entry.inodeId) .noEntry = .ok node := okOr_eq_ok.mpr hnode

include hserves in
theorem readRegularNodeAt_finds (procSelf : ProcSelfData) (offset len : Nat) {hostFile : Option HostPath}
    (hfile : ∀ file, hostFile = some file → node.deferredHostPath = some file) :
    readRegularNodeAt host node procSelf offset len hostFile ≠ .error .noEntry := by
  have hread : ∀ path, node.deferredHostPath = some path →
      readHostFileAt host path offset len ≠ .error .noEntry := by
    intro path hpath
    have hserve := (hserves path hpath).readAt offset len
    unfold readHostFileAt
    split
    · simp
    · cases hanswer : host.readAt path offset len with
      | ok bytes => simp
      | error kind =>
          rw [hanswer] at hserve
          simpa using vfsErrorFromHost_ne_noEntry fun hkind => hserve (congrArg Except.error hkind)
  unfold readRegularNodeAt
  split
  · simp
  split
  · simp
  cases hpath : node.deferredHostPath with
  | none => cases hostFile <;> simp
  | some path =>
      cases hostFile with
      | some file => exact hread file (hfile file rfl)
      | none =>
          have hserve := (hserves path hpath).openRead
          simp only
          unfold readHostPathAt
          cases hanswer : host.openRead path with
          | ok _ => exact hread path hpath
          | error kind =>
              rw [hanswer] at hserve
              simpa using vfsErrorFromHost_ne_noEntry fun hkind => hserve (congrArg Except.error hkind)

theorem cachedHostReadHandle_finds (i : InodeId) {path : HostPath} (hserve : host.Serves path) :
    wp (cachedHostReadHandle host i path) (fun file vfs' => file = path ∧ FilledTo vfs vfs')
      (fun error _ => error ≠ .noEntry) vfs := by
  have hresult : ∀ r cache, vfs.cache.hostReadHandle host i path = (r, cache) →
      r = .ok path ∨ ∃ error, r = .error error ∧ error ≠ .noEntry := by
    intro r cache h
    unfold VfsCache.hostReadHandle at h
    simp only at h
    split at h
    · exact Or.inl (congrArg Prod.fst h).symm
    · cases hanswer : host.openRead path with
      | ok _ =>
          rw [hanswer] at h
          exact Or.inl (congrArg Prod.fst h).symm
      | error kind =>
          rw [hanswer] at h
          refine Or.inr ⟨_, (congrArg Prod.fst h).symm, vfsErrorFromHost_ne_noEntry fun hkind => ?_⟩
          exact hserve.openRead (hanswer.trans (congrArg Except.error hkind))
  have hboth := wp_iff.mp (cachedHostReadHandle_spec vfs host i path)
  rw [wp_iff]
  constructor
  · intro file vfs' hrun
    refine ⟨?_, hboth.1 file vfs' hrun⟩
    rcases hresult _ _ rfl with hok | ⟨error, herror, _⟩
    · have hfile := (congrArg Prod.fst hrun).symm.trans hok
      exact Except.ok.inj hfile
    · nomatch (congrArg Prod.fst hrun).symm.trans herror
  · intro error vfs' hrun
    rcases hresult _ _ rfl with hok | ⟨error', herror, hne⟩
    · nomatch (congrArg Prod.fst hrun).symm.trans hok
    · rw [Except.error.inj ((congrArg Prod.fst hrun).symm.trans herror)]
      exact hne

theorem cachedSmallReadData_finds (i : InodeId) (data : List UInt8) : Finds (cachedSmallReadData i data) vfs := by
  refine .get ?_
  cases vfs.cache.smallRead i with
  | some cached => exact .pure _
  | none =>
      unfold Finds
      rw [wp_bind, onCache, wp_modify, wp_pure]
      trivial

include hnode in
theorem cachedSmallReadForEntry_finds (offset len : Nat) :
    wp (cachedSmallReadForEntry entry offset len) (fun r vfs' => r = none → vfs' = vfs)
      (fun error _ => error ≠ .noEntry) vfs := by
  have hfinds : Finds (cachedSmallReadForEntry entry offset len) vfs := by
    refine .get (.check (by decide) fun _ => ?_)
    split
    · exact .pure _
    split
    · exact .pure _
    refine .known (lookup_entry hnode) ?_
    split
    · exact .pure _
    · refine .bind (cachedSmallReadData_finds entry.inodeId node.data) fun _ _ _ => .pure _
  exact wp_mono (wp_and (cachedSmallReadForEntry_spec entry offset len) hfinds) (fun _ _ h => h.1.2)
    (fun _ _ h => h.2)

include hentry hnode in
theorem readFromSmallCache_finds (len : Nat) :
    wp (readFromSmallCache fd len) (fun r vfs' => r = none → vfs' = vfs) (fun error _ => error ≠ .noEntry) vfs := by
  have hfinds : Finds (readFromSmallCache fd len) vfs := by
    refine .get (.known (fds_get hentry) (.bind (cachedSmallReadForEntry_finds hnode _ len) fun r vfs' _ => ?_))
    cases r with
    | none => exact .pure _
    | some bytes => exact .advance bytes.length
  exact wp_mono (wp_and (readFromSmallCache_spec fd len) hfinds) (fun _ _ h => h.1.2) (fun _ _ h => h.2)

include hnode hserves in
theorem readRegularInodeAt_finds (offset len : Nat) :
    Finds (readRegularInodeAt host entry.inodeId offset len) vfs := by
  refine .get (.known (lookup_entry hnode) (.check (by decide) fun _ => ?_))
  cases hpath : node.deferredHostPath with
  | none => exact .ofExcept (readRegularNodeAt_finds hserves _ offset len fun _ h => nomatch h)
  | some path =>
      refine .bind (cachedHostReadHandle_finds entry.inodeId (hserves path hpath)) ?_
      rintro file vfs' ⟨rfl, _⟩
      refine .ofExcept (readRegularNodeAt_finds hserves _ offset len ?_)
      rintro _ ⟨⟩
      exact hpath

include hentry in
theorem regularReadRequest_cases :
    vfs.regularReadRequest fd = .error .badFd ∨
      (∃ offset, vfs.regularReadRequest fd = .ok (some (entry.inodeId, offset))) ∨
      vfs.regularReadRequest fd = .ok none ∧ entry.file.kind ≠ .regular ∧ entry.file.kind ≠ .symlink := by
  by_cases hread : (vfs.shared.description entry.description).flags.canRead = false
  · left
    simp [regularReadRequest, fds_get hentry, failIf, hread]
  · right
    by_cases hkind : entry.file.kind = .regular ∨ entry.file.kind = .symlink
    · left
      simp [regularReadRequest, fds_get hentry, failIf, hread, hkind, pure, Except.pure]
    · right
      refine ⟨?_, not_or.mp hkind⟩
      simp [regularReadRequest, fds_get hentry, failIf, hread, hkind, pure, Except.pure]

include hentry hnode hserves in
theorem read_finds (hkind : isAnonymous entry.file.kind = false) (len : Nat) : Finds (read host fd len) vfs := by
  refine .bind (readFromSmallCache_finds hentry hnode len) fun r vfs' hr => ?_
  cases r with
  | some bytes => exact .pure _
  | none =>
      rw [hr rfl]
      have hother : (entry.file.kind = .directory ∨ ∃ kind, entry.file.kind = .dev kind) →
          Finds (fdsRead host fd len) vfs := by
        intro hkind
        refine .get (.known (fds_get hentry) (.check (by decide) fun _ => ?_))
        rcases hkind with hkind | ⟨kind, hkind⟩
        · rw [hkind]
          exact .throw (by decide)
        · rw [hkind]
          cases kind with
          | null => exact .pure _
          | zero => exact .pure _
          | urandom =>
              refine .ofExcept ?_
              unfold Files.fillUrandom
              cases host.getrandom len <;> simp [okOr]
          | stdin => exact .pure _
          | stdout => exact .throw (by decide)
          | stderr => exact .throw (by decide)
      refine .get ?_
      rcases regularReadRequest_cases hentry with hrefused | ⟨offset, hregular⟩ | ⟨hnone, hregular, hlink⟩
      · rw [hrefused]
        exact .throw (by decide)
      · refine .known hregular (.bind (readRegularInodeAt_finds hnode hserves offset len) fun bytes _ _ => ?_)
        exact .known (fds_get hentry) (.advance bytes.length)
      · refine .known hnone (hother ?_)
        cases hfile : entry.file.kind with
        | directory => exact Or.inl rfl
        | dev kind => exact Or.inr ⟨kind, rfl⟩
        | regular => exact absurd hfile hregular
        | symlink => exact absurd hfile hlink
        | _ => rw [hfile] at hkind; cases hkind

include hnode in
theorem withInode_finds {change : PathNode.Change α}
    (h : wp change (fun _ _ => True) (fun error _ => error ≠ .noEntry) node) :
    Finds (onTree (PathTree.withInode entry.inodeId change)) vfs := by
  unfold Finds
  rw [onTree, wp_zoom, PathTree.wp_withInode hnode]
  exact h

include hnode hserves in
theorem writeRegular_finds (bytes : List UInt8) : Finds (writeRegular host entry bytes) vfs := by
  refine .get (.known (lookup_entry hnode) ?_)
  refine .bind (withInode_finds hnode (wp_mono (PathNode.writeAt_spec host _ bytes) (fun _ _ _ => trivial) ?_)) ?_
  · rintro error _ ⟨_, hlost⟩ rfl
    obtain ⟨path, hpath, hgone⟩ := hlost rfl
    exact (hserves path hpath).readFile hgone
  · intro _ vfs' _
    exact .bind (setDescription_finds entry _) fun _ _ _ => .pure _

include hentry hnode hserves in
theorem write_finds (hkind : isAnonymous entry.file.kind = false) (bytes : List UInt8) :
    Finds (write host fd bytes) vfs := by
  have hwrite : Finds (fdsWrite host fd bytes) vfs := by
    refine .get (.known (fds_get hentry) (.check (by decide) fun _ => ?_))
    cases hfile : entry.file.kind with
    | regular => exact writeRegular_finds hnode hserves bytes
    | directory => exact .throw (by decide)
    | symlink => exact .throw (by decide)
    | dev kind =>
        cases kind with
        | stdin => exact .throw (by decide)
        | _ => exact .pure _
    | _ => rw [hfile] at hkind; nomatch hkind
  refine .get (.bind hwrite fun count vfs' _ => ?_)
  rw [hentry]
  refine .bind (Q := fun _ _ => True) ?_ fun _ _ _ => .pure _
  rw [wp_when]
  split
  · rw [invalidateInodeCache, onCache, wp_modify]
    trivial
  · trivial

include hentry in
theorem fstat_finds : Finds (fstat fd) vfs := by
  refine .get (.known (fds_get hentry) ?_)
  split
  · exact .pure _
  cases hnode : vfs.tree.lookupInode entry.inodeId with
  | none => exact .pure _
  | some node =>
      refine .get ?_
      cases vfs.cache.metadataOf node.inodeId with
      | some attr => exact .pure _
      | none =>
          unfold Finds
          rw [wp_bind, onCache, wp_modify, wp_pure]
          trivial

include hentry hnode hserves in
theorem ftruncate_finds (length : Nat) : Finds (ftruncate host fd length) vfs := by
  refine .get ?_
  refine .bind (Q := fun i vfs' => i = entry.inodeId ∧ vfs' = vfs) ?_ ?_
  · unfold writableFile
    rw [fds_get hentry]
    apply wp_check
    · intro error herror
      rw [except_ok_bind, except_bind_eq_error] at herror
      rcases herror with hread | ⟨_, _, herror⟩
      · rw [failIf_eq_error hread]
        decide
      · rcases except_bind_eq_error.mp herror with hkind | ⟨_, _, hok⟩
        · rw [failIf_eq_error hkind]
          decide
        · nomatch hok
    · intro i hi
      obtain ⟨_, _, hi⟩ := except_bind_eq_ok.mp (except_ok_bind ▸ hi)
      obtain ⟨_, _, hi⟩ := except_bind_eq_ok.mp hi
      exact ⟨(Except.ok.inj hi).symm, rfl⟩
  · rintro i vfs' ⟨rfl, rfl⟩
    refine .bind (withInode_finds hnode (wp_mono (PathNode.setLen_spec host length) (fun _ _ _ => trivial) ?_)) ?_
    · rintro error _ ⟨_, hlost⟩ rfl
      rcases hlost with ⟨herror, _⟩ | ⟨_, path, hpath, hgone⟩
      · nomatch herror
      · exact (hserves path hpath).readFile hgone
    · intro _ vfs' _
      unfold Finds
      rw [invalidateInodeCache, onCache, wp_modify]
      trivial

end Descriptor

/-! ### Runs -/

theorem run_held (hwf : vfs.tree.Wf) (hheld : vfs.Held) (ops : List Op) (hrun : Along host HoldingStep vfs ops) :
    (vfs.run host ops).tree.Wf ∧ (vfs.run host ops).Held :=
  run_invariant (I := fun vfs => vfs.tree.Wf ∧ vfs.Held)
    (fun _ _ hinv hstep => ⟨(step_effect host hinv.1 hstep.sane).wf hinv.1,
      (step_effect host hinv.1 hstep.sane).held hinv.1 hstep hinv.2⟩) ops vfs ⟨hwf, hheld⟩ hrun

def HeldAlong (host : Host) (vfs : VirtualFileSystem) (i : InodeId) (ops : List Op) : Prop :=
  Along host (fun vfs op => (vfs.step host op).HeldBy i) vfs ops

def UnwrittenAlong (host : Host) (vfs : VirtualFileSystem) (i : InodeId) (ops : List Op) : Prop :=
  Along host (fun vfs op => ¬ vfs.Writes op i) vfs ops

/-- An inode stays as long as it is held, and keeps its bytes until a call writes to it. -/
theorem run_survives {i : InodeId} (ops : List Op) :
    ∀ {vfs : VirtualFileSystem} {node : PathNode}, vfs.tree.Wf → Along host HoldingStep vfs ops →
      vfs.tree.inodes.get? i = some node → HeldAlong host vfs i ops →
      ∃ node', (vfs.run host ops).tree.inodes.get? i = some node' ∧
        (UnwrittenAlong host vfs i ops → node'.content host = node.content host) := by
  induction ops with
  | nil =>
      intro vfs node _ _ hnode _
      exact ⟨node, hnode, fun _ => rfl⟩
  | cons op ops ih =>
      intro vfs node hwf hrun hnode hheld
      have heffect := step_effect host hwf hrun.1.sane
      obtain ⟨mid, hmid, hsame⟩ := heffect.survives hwf hrun.1 hnode hheld.1
      obtain ⟨last, hlast, hrest⟩ := ih (heffect.wf hwf) hrun.2 hmid hheld.2
      exact ⟨last, hlast, fun hunwritten => (hrest hunwritten.2).trans (hsame hunwritten.1)⟩

/-- In a run that closes no inode under another descriptor, an inode that was opened stays as long as it
has a name or a descriptor, with the bytes last written to it; and no call on a descriptor misses its
inode. -/
theorem openInodes_stay (hwf : vfs.tree.Wf) (hheld : vfs.Held) (ops : List Op)
    (hrun : Along host HoldingStep vfs ops) :
    (∀ first second i, ops = first ++ second → (vfs.run host first).OpenOn i →
        HeldAlong host (vfs.run host first) i second →
        ∃ node node', (vfs.run host first).tree.inodes.get? i = some node ∧
          (vfs.run host ops).tree.inodes.get? i = some node' ∧
          (UnwrittenAlong host (vfs.run host first) i second → node'.content host = node.content host)) ∧
      ∀ fd entry, (vfs.run host ops).fds.entries.get? fd = some entry → isAnonymous entry.file.kind = false →
        (∀ node path, (vfs.run host ops).tree.inodes.get? entry.inodeId = some node →
          node.deferredHostPath = some path → host.Serves path) →
        (∀ len, (read host fd len (vfs.run host ops)).1 ≠ .error .noEntry) ∧
        (∀ bytes, (write host fd bytes (vfs.run host ops)).1 ≠ .error .noEntry) ∧
        (fstat fd (vfs.run host ops)).1 ≠ .error .noEntry ∧
        ∀ length, (ftruncate host fd length (vfs.run host ops)).1 ≠ .error .noEntry := by
  constructor
  · rintro first second i rfl hopen hkept
    obtain ⟨hfirst, hsecond⟩ := along_append first hrun
    obtain ⟨hwf', hheld'⟩ := run_held hwf hheld first hfirst
    obtain ⟨node, hnode⟩ := hheld' i hopen
    obtain ⟨node', hnode', hcontent⟩ := run_survives second hwf' hsecond hnode hkept
    refine ⟨node, node', hnode, ?_, hcontent⟩
    rw [run_append]
    exact hnode'
  · intro fd entry hentry hkind hserves
    obtain ⟨node, hnode⟩ := (run_held hwf hheld ops hrun).2 entry.inodeId ⟨fd, entry, hentry, hkind, rfl⟩
    have hserved : ∀ path, node.deferredHostPath = some path → host.Serves path := fun path => hserves node path hnode
    exact ⟨fun len => (read_finds hentry hnode hserved hkind len).result,
      fun bytes => (write_finds hentry hnode hserved hkind bytes).result, (fstat_finds hentry).result,
      fun length => (ftruncate_finds hentry hnode hserved length).result⟩

theorem openOn_of_get (fd : Fd) {i : InodeId}
    (h : (vfs.fds.entries.get? fd).map (fun entry => (isAnonymous entry.file.kind, entry.inodeId)) =
      some (false, i)) : vfs.OpenOn i := by
  obtain ⟨entry, hentry, heq⟩ := Option.map_eq_some_iff.mp h
  exact ⟨fd, entry, hentry, congrArg Prod.fst heq, congrArg Prod.snd heq⟩

/-- A file is made, opened and written. -/
def writeFile : List Op := [.openat atFdcwd "/f" ⟨oCreat ||| oRdwr⟩ 0o644, .write 0 [7]]

theorem removedFile_stays :
    ∃ node node', (blank.run .empty writeFile).tree.inodes.get? 2 = some node ∧
      (blank.run .empty (writeFile ++ [.unlinkat atFdcwd "/f" 0])).tree.inodes.get? 2 = some node' ∧
      node'.content .empty = node.content .empty := by
  have hheld : blank.Held := by
    rintro i ⟨fd, entry, hentry, _⟩
    nomatch hentry
  have hfresh : blank.tree.FreshId := by
    unfold PathTree.FreshId
    decide +kernel
  have hrun : Along .empty HoldingStep blank (writeFile ++ [.unlinkat atFdcwd "/f" 0]) :=
    ⟨⟨rfl, fun _ => hfresh, trivial⟩, ⟨rfl, trivial, trivial⟩, ⟨rfl, trivial, trivial⟩, trivial⟩
  have hopen : (blank.run .empty writeFile).OpenOn 2 := openOn_of_get 0 (by decide +kernel)
  have hkept : HeldAlong .empty (blank.run .empty writeFile) 2 [.unlinkat atFdcwd "/f" 0] :=
    ⟨Or.inr (openOn_of_get 0 (by decide +kernel)), trivial⟩
  obtain ⟨node, node', hnode, hnode', hcontent⟩ :=
    (openInodes_stay new_wf hheld _ hrun).1 writeFile [.unlinkat atFdcwd "/f" 0] 2 rfl hopen hkept
  exact ⟨node, node', hnode, hnode', hcontent ⟨fun h => h, trivial⟩⟩

/-- The file is removed while two descriptors are open on it, and the first of them is closed. -/
def closeFirstCopy : List Op :=
  [.openat atFdcwd "/f" ⟨oCreat ||| oRdwr⟩ 0o644, .dup 0, .unlinkat atFdcwd "/f" 0, .close 0]

theorem closeFirstCopy_loses_inode :
    (blank.run .empty closeFirstCopy).OpenOn 2 ∧
      (blank.run .empty closeFirstCopy).tree.inodes.get? 2 = none ∧
      (read .empty 1 1 (blank.run .empty closeFirstCopy)).1 = .error .noEntry := by
  exact ⟨openOn_of_get 1 (by decide +kernel), by decide +kernel, failure_eq_some.mp (by decide +kernel)⟩

end VirtualFileSystem

end Mcr.Vfs
