import Mcr.Vfs.CacheQueries
import Mcr.Vfs.HeldCalls

/-!
# The bytes of a regular file

A regular file has its bytes in the tree, or on the host until someone changes them. On a cache that fits
the tree a read finds these bytes, wherever they lie and whichever cache answers. Reading puts entries into
the cache and does nothing else, so a read may be followed by any number of others.
-/

namespace Mcr.Vfs

open Prog

/-- The host answers for a file it can read at all with the bytes of that file. A mapping may be refused. -/
structure Host.Faithful (host : Host) : Prop where
  openRead : ∀ path data, host.readFile path = some data → host.openRead path = .ok ()
  readAt : ∀ path data offset len, host.readFile path = some data →
    host.readAt path offset len = .ok ((data.drop offset).take len)
  mapReadonlyAt : ∀ path data offset len mapping, host.readFile path = some data →
    host.mapReadonlyAt path offset len = .ok mapping → mapping = (data.drop offset).take len

/-- The node has the attributes of a file with these bytes. -/
structure PathNode.Holds (host : Host) (node : PathNode) (data : List UInt8) : Prop where
  content : node.content host = some data
  size : node.attr.size = data.length
  regular : node.attr.isDirectory = false
  bounded : data.length < u64Limit

theorem PathNode.Untouched.holds {host : Host} {node node' : PathNode} {data : List UInt8}
    (h : node.Untouched host node') : node'.Holds host data ↔ node.Holds host data := by
  constructor
  · intro hholds
    exact ⟨h.content ▸ hholds.content, h.attr ▸ hholds.size, h.attr ▸ hholds.regular, hholds.bounded⟩
  · intro hholds
    exact ⟨h.content.trans hholds.content, h.attr ▸ hholds.size, h.attr ▸ hholds.regular, hholds.bounded⟩

theorem PathNode.Holds.readFile {host : Host} {node : PathNode} {data : List UInt8} {path : HostPath}
    (h : node.Holds host data) (hpath : node.deferredHostPath = some path) : host.readFile path = some data := by
  have hcontent := h.content
  rw [PathNode.content, hpath] at hcontent
  exact hcontent

theorem PathNode.Holds.data {host : Host} {node : PathNode} {data : List UInt8} (h : node.Holds host data)
    (hloaded : node.deferredHostPath = none) : node.data = data := by
  have hcontent := h.content
  rw [PathNode.content, hloaded] at hcontent
  exact Option.some.inj hcontent

namespace VirtualFileSystem

variable {vfs vfs' : VirtualFileSystem} {host : Host}

/-! ### Any number of queries -/

/-- What any number of queries leaves. -/
abbrev Queried : VirtualFileSystem → VirtualFileSystem → Prop := Relation.ReflTransGen FilledTo

theorem FilledTo.queried (h : FilledTo vfs vfs') : Queried vfs vfs' := .single h

/-- Queries change the cache alone, move no generation, and leave a cache that fits. -/
theorem Queried.same (h : Queried vfs vfs') (hwf : vfs.tree.Wf) :
    (∃ cache, vfs' = vfs.withCache cache) ∧ (∀ i, vfs'.cache.keyGeneration i = vfs.cache.keyGeneration i) ∧
      (vfs.Coherent → vfs'.Coherent) := by
  induction h with
  | refl => exact ⟨⟨vfs.cache, rfl⟩, fun _ => rfl, id⟩
  | @tail mid last _ hlast ih =>
      obtain ⟨⟨cache, rfl⟩, hgeneration, hcoherent⟩ := ih
      obtain ⟨cache', rfl, hfilled⟩ := hlast
      constructor
      · exact ⟨cache', rfl⟩
      constructor
      · intro i
        exact (hfilled.keyGeneration i).trans (hgeneration i)
      · intro h
        exact hfilled.coherent hwf (hcoherent h)

/-! ### Reading a regular file -/

structure RegularFile (vfs : VirtualFileSystem) (fd : Fd) (i : InodeId) (node : PathNode) : Prop where
  open' : ∃ entry, vfs.fds.entries.get? fd = some entry ∧ entry.inodeId = i ∧ entry.file.kind = .regular
  there : vfs.tree.inodes.get? i = some node
  file : node.kind = .file

/-- The descriptor was opened for reading. -/
def Readable (vfs : VirtualFileSystem) (fd : Fd) : Prop :=
  ∃ entry, vfs.fds.entries.get? fd = some entry ∧ (vfs.shared.description entry.description).flags.canRead = true

theorem RegularFile.inode_eq {fd : Fd} {i j : InodeId} {node node' : PathNode} (h : RegularFile vfs fd i node)
    (h' : RegularFile vfs fd j node') : i = j := by
  obtain ⟨entry, hentry, rfl, _⟩ := h.open'
  obtain ⟨entry', hentry', rfl, _⟩ := h'.open'
  rw [Option.some.inj (hentry.symm.trans hentry')]

theorem RegularFile.queried {fd : Fd} {i : InodeId} {node : PathNode} (h : RegularFile vfs fd i node)
    (hwf : vfs.tree.Wf) (hqueried : Queried vfs vfs') : RegularFile vfs' fd i node := by
  obtain ⟨⟨cache, rfl⟩, _⟩ := hqueried.same hwf
  exact ⟨h.open', h.there, h.file⟩

theorem Readable.queried {fd : Fd} (h : Readable vfs fd) (hwf : vfs.tree.Wf) (hqueried : Queried vfs vfs') :
    Readable vfs' fd := by
  obtain ⟨⟨cache, rfl⟩, _⟩ := hqueried.same hwf
  exact h

theorem RegularFile.regularFileOf {fd : Fd} {i : InodeId} {node : PathNode} (h : RegularFile vfs fd i node)
    (hreadable : Readable vfs fd) : vfs.regularFileOf fd = .ok (some (i, node)) := by
  obtain ⟨entry, hentry, rfl, hkind⟩ := h.open'
  obtain ⟨entry', hentry', hread⟩ := hreadable
  obtain rfl := Option.some.inj (hentry.symm.trans hentry')
  have hnode : vfs.tree.lookupInode entry.inodeId = some node := h.there
  simp [VirtualFileSystem.regularFileOf, fds_get hentry, failIf, hread, hkind, hnode, h.file, pure, Except.pure]

theorem readable_of_regularFileOf {fd : Fd} {found : Option (InodeId × PathNode)}
    (h : vfs.regularFileOf fd = .ok found) : Readable vfs fd := by
  obtain ⟨entry, hentry, h⟩ := except_bind_eq_ok.mp h
  obtain ⟨_, hread, _⟩ := except_bind_eq_ok.mp h
  exact ⟨entry, okOr_eq_ok.mp hentry, by simpa using failIf_eq_ok.mp hread⟩

section Reads

variable {fd : Fd} {i : InodeId} {node : PathNode} {data : List UInt8}
  (hwf : vfs.tree.Wf) (hcoherent : vfs.Coherent) (hfaithful : host.Faithful)
  (hfile : RegularFile vfs fd i node) (hreadable : Readable vfs fd) (hholds : node.Holds host data)

include hfaithful in
theorem cachedHostReadHandle_opens (i : InodeId) {path : HostPath} (hpath : host.readFile path = some data) :
    wp (cachedHostReadHandle host i path) (fun file vfs' => file = path ∧ FilledTo vfs vfs') (fun _ _ => False)
      vfs := by
  have hresult : (vfs.cache.hostReadHandle host i path).1 = .ok path := by
    unfold VfsCache.hostReadHandle
    simp only
    split
    · rfl
    · rw [hfaithful.openRead path data hpath]
  have hboth := wp_iff.mp (cachedHostReadHandle_spec vfs host i path)
  rw [wp_iff]
  constructor
  · intro file vfs' hrun
    have hok : Except.ok file = .ok path := (congrArg Prod.fst hrun).symm.trans hresult
    exact ⟨Except.ok.inj hok, hboth.1 file vfs' hrun⟩
  · intro error vfs' hrun
    have hok : Except.error error = .ok path := (congrArg Prod.fst hrun).symm.trans hresult
    nomatch hok

include hfaithful in
theorem readHostFileAt_reads {path : HostPath} (hpath : host.readFile path = some data) (offset len : Nat) :
    readHostFileAt host path offset len = .ok (readMemoryAt data offset len) := by
  unfold readHostFileAt readMemoryAt
  by_cases hlen : len = 0
  · simp [hlen]
  · rw [if_neg hlen, hfaithful.readAt path data offset len hpath]
    simp

include hfaithful hfile hholds in
theorem readRegularNodeAt_reads (procSelf : ProcSelfData) (offset len : Nat) {hostFile : Option HostPath}
    (hopened : ∀ file, hostFile = some file → node.deferredHostPath = some file) :
    readRegularNodeAt host node procSelf offset len hostFile = .ok (readMemoryAt data offset len) := by
  have hkind : node.kind ≠ .proc .cmdline ∧ node.kind ≠ .proc .environ := by simp [hfile.file]
  unfold readRegularNodeAt
  rw [if_neg hkind.1, if_neg hkind.2]
  cases hpath : node.deferredHostPath with
  | none => rw [hholds.data hpath]
  | some path =>
      have hread := readHostFileAt_reads hfaithful (hholds.readFile hpath) offset len
      cases hostFile with
      | none =>
          simp only [readHostPathAt, hfaithful.openRead path data (hholds.readFile hpath)]
          exact hread
      | some file =>
          obtain rfl : path = file := Option.some.inj (hpath.symm.trans (hopened file rfl))
          exact hread

include hfaithful hfile hholds in
theorem readRegularInodeAt_reads (offset len : Nat) :
    wp (readRegularInodeAt host i offset len)
      (fun bytes vfs' => bytes = readMemoryAt data offset len ∧ FilledTo vfs vfs') (fun _ _ => False) vfs := by
  have hnode : okOr (vfs.tree.lookupInode i) .noEntry = .ok node := okOr_eq_ok.mpr hfile.there
  have hregular : failIf (node.attr.isDirectory = true) .isDirectory = .ok () := by
    simp [failIf, hholds.regular]
  unfold readRegularInodeAt
  rw [wp_bind, wp_get, wp_bind, hnode, wp_ofExcept]
  simp only
  rw [wp_bind, hregular, wp_ofExcept]
  simp only
  cases hpath : node.deferredHostPath with
  | none =>
      have hvalue : readRegularNodeAt host node vfs.procSelf offset len none = .ok (readMemoryAt data offset len) :=
        readRegularNodeAt_reads hfaithful hfile hholds _ _ _ fun _ h => (by cases h)
      rw [hvalue, wp_ofExcept]
      exact ⟨rfl, .refl vfs⟩
  | some path =>
      simp only
      rw [wp_bind]
      apply wp_mono (cachedHostReadHandle_opens hfaithful i (hholds.readFile hpath)) _ (fun _ _ h => h)
      intro file vfs' h
      obtain ⟨rfl, hfilled⟩ := h
      rw [wp_ofExcept, readRegularNodeAt_reads hfaithful hfile hholds _ _ _ fun _ h => Option.some.inj h ▸ hpath]
      exact ⟨rfl, hfilled⟩

include hcoherent hfile hreadable hholds in
theorem cachedSmallReadForEntry_reads {entry : FdEntry} (hentry : vfs.fds.entries.get? fd = some entry)
    (offset len : Nat) :
    wp (cachedSmallReadForEntry entry offset len)
      (fun r vfs' => FilledTo vfs vfs' ∧ (r = none → vfs' = vfs) ∧ ∀ bytes, r = some bytes →
        bytes = readMemoryAt data offset len) (fun _ _ => False) vfs := by
  obtain ⟨entry', hentry', rfl, hkind⟩ := hfile.open'
  obtain rfl := Option.some.inj (hentry.symm.trans hentry')
  obtain ⟨entry'', hentry'', hread⟩ := hreadable
  obtain rfl := Option.some.inj (hentry.symm.trans hentry'')
  have hnode : okOr (vfs.tree.lookupInode entry.inodeId) .noEntry = .ok node := okOr_eq_ok.mpr hfile.there
  have hopen : failIf ((vfs.shared.description entry.description).flags.canRead = false) .badFd = .ok () := by
    simp [failIf, hread]
  unfold cachedSmallReadForEntry
  rw [wp_bind, wp_get, wp_bind, hopen, wp_ofExcept]
  simp only
  rw [if_neg (not_not.mpr hkind)]
  by_cases hlen : len = 0
  · rw [if_pos hlen, wp_pure]
    refine ⟨.refl vfs, fun h => (by cases h), fun bytes h => ?_⟩
    rw [← Option.some.inj h, hlen, readMemoryAt, List.take_zero]
  rw [if_neg hlen, wp_bind, hnode, wp_ofExcept]
  simp only
  split
  · exact (wp_pure _).mpr ⟨.refl vfs, fun _ => rfl, fun _ h => (by cases h)⟩
  rename_i hcacheable
  have hloaded : node.deferredHostPath = none := by
    by_contra hsome
    exact hcacheable (Or.inr (Or.inl (Option.isSome_iff_ne_none.mpr hsome)))
  obtain ⟨cache, hrun, hfilled, _⟩ := cachedSmallReadData_answer hcoherent hfile.there hloaded
  rw [wp_bind]
  apply wp_of_run hrun
  rw [wp_pure]
  refine ⟨⟨cache, rfl, hfilled⟩, fun h => (by cases h), fun bytes h => ?_⟩
  rw [← Option.some.inj h, hholds.data hloaded]

include hcoherent hfaithful hfile hreadable hholds in
theorem pread_reads (offset len : Nat) :
    wp (pread host fd offset len)
      (fun bytes vfs' => bytes = readMemoryAt data offset len ∧ FilledTo vfs vfs') (fun _ _ => False) vfs := by
  obtain ⟨entry, hentry, hid, hkind⟩ := hfile.open'
  obtain ⟨entry', hentry', hread⟩ := hreadable
  obtain rfl := Option.some.inj (hentry.symm.trans hentry')
  have hrequest : vfs.regularReadRequest fd =
      .ok (some (i, (vfs.shared.description entry.description).offset)) := by
    simp [regularReadRequest, fds_get hentry, failIf, hread, hkind, hid, pure, Except.pure]
  unfold pread
  rw [wp_bind, wp_get, wp_bind, fds_get hentry, wp_ofExcept]
  simp only
  rw [wp_bind]
  apply wp_mono (cachedSmallReadForEntry_reads hcoherent hfile ⟨entry, hentry, hread⟩ hholds hentry offset len) _
    (fun _ _ h => h)
  intro r vfs' h
  obtain ⟨hfilled, hsame, hbytes⟩ := h
  cases r with
  | some bytes => exact (wp_pure _).mpr ⟨hbytes bytes rfl, hfilled⟩
  | none =>
      rw [hsame rfl]
      simp only
      rw [wp_bind, wp_get, wp_bind, hrequest, wp_ofExcept]
      exact readRegularInodeAt_reads hfaithful hfile hholds offset len

include hfaithful hfile hreadable hholds in
/-- A mapping of the file, where there is one, shows as much of it as the length asks for. -/
theorem mapReadonlyRegularFileAt_maps (offset len : Nat) :
    wp (mapReadonlyRegularFileAt host fd offset len)
      (fun r vfs' => FilledTo vfs vfs' ∧ ∀ mapping, r = some mapping → mapping = readMemoryAt data offset len)
      (fun _ _ => True) vfs := by
  unfold mapReadonlyRegularFileAt
  by_cases hlen : len = 0
  · rw [if_pos hlen, wp_pure]
    exact ⟨.refl vfs, fun _ h => (nomatch h)⟩
  rw [if_neg hlen, wp_bind, wp_get, wp_bind, hfile.regularFileOf hreadable, wp_ofExcept]
  simp only
  cases hpath : node.deferredHostPath with
  | none => exact (wp_pure _).mpr ⟨.refl vfs, fun _ h => (nomatch h)⟩
  | some path =>
      simp only
      rw [wp_ite]
      split
      · exact (wp_pure _).mpr ⟨.refl vfs, fun _ h => (nomatch h)⟩
      rw [wp_bind]
      apply wp_mono (cachedHostReadHandle_opens hfaithful i (hholds.readFile hpath)) _ (fun _ _ h => h.elim)
      intro file vfs' h
      obtain ⟨rfl, hfilled⟩ := h
      cases hmap : host.mapReadonlyAt file offset (min len (node.attr.size - offset)) with
      | ok mapping =>
          simp only
          rw [wp_pure]
          refine ⟨hfilled, fun found h => ?_⟩
          rw [← Option.some.inj h, hfaithful.mapReadonlyAt _ data _ _ _ (hholds.readFile hpath) hmap, hholds.size,
            readMemoryAt, ← List.length_drop, ← List.take_take, List.take_length]
      | error kind =>
          cases kind with
          | invalidInput | unsupported => exact (wp_pure _).mpr ⟨hfilled, fun _ h => (nomatch h)⟩
          | _ => exact (wp_throw _).mpr trivial

include hwf hcoherent hfile hholds in
theorem fstat_size :
    wp (fstat fd) (fun attr vfs' => attr.size = data.length ∧ FilledTo vfs vfs') (fun _ _ => False) vfs := by
  obtain ⟨entry, hentry, rfl, hkind⟩ := hfile.open'
  have hnode : vfs.tree.lookupInode entry.inodeId = some node := hfile.there
  have hself : vfs.tree.inodes.get? node.inodeId = some node := by
    rw [hwf.ids entry.inodeId node hfile.there]
    exact hfile.there
  obtain ⟨cache, hrun, hfilled, _⟩ := cachedMetadata_answer hcoherent hself
  unfold fstat
  rw [wp_bind, wp_get, wp_bind, fds_get hentry, wp_ofExcept]
  simp only
  rw [hkind, if_neg (by simp [isAnonymous]), hnode]
  apply wp_of_run hrun
  exact ⟨hholds.size, cache, rfl, hfilled⟩

end Reads

end VirtualFileSystem

end Mcr.Vfs
