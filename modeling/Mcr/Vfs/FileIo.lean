import Mcr.Vfs.Reference

/-!
# Regular files are arrays of bytes

Each call on a regular file does to the file system what the reference does to its arrays, and answers alike: a
read fills the cache and moves an offset, a write replaces the node and drops what the cache held of it. The
exception is a write of no bytes that is not refused: it goes the way of every other write, grows a file that ends
before its offset, changes the times, and leaves the cache as it was. A length above `isize::MAX` is no error of any
call but a panic, with which a run ends.
-/

namespace Mcr.Vfs

open Prog

theorem wp_failIf {σ α : Type} {c : Prop} [Decidable c] {error : VfsError} {f : Unit → Prog σ VfsError α}
    {Q : α → σ → Prop} {E : VfsError → σ → Prop} {s : σ} :
    wp (ofExcept (failIf c error) >>= f) Q E s ↔ if c then E error s else wp (f ()) Q E s := by
  rw [wp_bind, wp_ofExcept]
  unfold failIf
  by_cases hc : c
  · rw [if_pos hc, if_pos hc]
  · rw [if_neg hc, if_neg hc]

def PathNode.withData (node : PathNode) (data : List UInt8) : PathNode :=
  { node with data := data, metadata := node.metadata.setSize data.length }

theorem PathNode.withData_same (node : PathNode) (data : List UInt8) : node.Same (node.withData data) :=
  ⟨rfl, rfl, rfl⟩

theorem PathNode.refFile_withData {node : PathNode} {file : RefFile} (h : node.refFile = some file)
    (data : List UInt8) : (node.withData data).refFile = some (file.changed data) := by
  unfold refFile at h ⊢
  by_cases hkind : node.kind = .file
  · rw [if_pos hkind] at h
    rw [if_pos (show (node.withData data).kind = .file from hkind), ← Option.some.inj h]
    rfl
  · rw [if_neg hkind] at h
    cases h

theorem PathNode.materialize_loaded (host : Host) {node : PathNode} (hloaded : node.deferredHostPath = none) :
    materializeDeferredContent host node = (.ok (), node) := by
  unfold materializeDeferredContent
  rw [hloaded]

theorem PathNode.writeAt_loaded {host : Host} {node : PathNode} (hkind : node.kind = .file)
    (hloaded : node.deferredHostPath = none) {offset : Nat} {bytes : List UInt8}
    {Q : Nat → PathNode → Prop} {E : VfsError → PathNode → Prop}
    (hover : u64Limit ≤ offset + bytes.length → E .invalidPath node)
    (hfits : offset + bytes.length < u64Limit →
      Q bytes.length (node.withData (overlayBytes node.data offset bytes))) :
    wp (writeAt host offset bytes) Q E node := by
  unfold writeAt
  rw [wp_bind, wp_get, wp_failIf, if_neg (not_not.mpr hkind), wp_bind]
  apply wp_of_run (materialize_loaded host hloaded)
  rw [wp_failIf]
  split
  · exact hover ‹_›
  · have h := hfits (by omega)
    rw [← overwriteAt_resized] at h
    rw [wp_bind, wp_modify, wp_pure]
    exact h

theorem PathNode.setLen_loaded {host : Host} {node : PathNode} (hkind : node.kind = .file)
    (hloaded : node.deferredHostPath = none) {length : Nat} {Q : Unit → PathNode → Prop}
    {E : VfsError → PathNode → Prop} (h : Q () (node.withData (resizeBytes node.data length))) :
    wp (setLen host length) Q E node := by
  unfold setLen
  rw [wp_bind, wp_get, wp_failIf, if_neg (not_not.mpr hkind), wp_bind]
  apply wp_of_run (materialize_loaded host hloaded)
  rw [wp_modify]
  rw [PathNode.withData, length_resizeBytes] at h
  exact h

namespace VirtualFileSystem

variable {vfs vfs' : VirtualFileSystem} {host : Host}

/-! ### The three things a call does -/

/-- What the calls leave alone: the descriptors, the modes of the descriptions, and which files there are. -/
structure SameOpens (vfs vfs' : VirtualFileSystem) : Prop where
  fds : vfs'.fds = vfs.fds
  flags : ∀ id, (vfs'.shared.description id).flags = (vfs.shared.description id).flags
  files : ∀ i node, vfs.tree.inodes.get? i = some node → node.kind = .file →
    ∃ node', vfs'.tree.inodes.get? i = some node' ∧ node'.kind = .file

theorem SameOpens.refl (vfs : VirtualFileSystem) : SameOpens vfs vfs :=
  ⟨rfl, fun _ => rfl, fun _ node hnode hkind => ⟨node, hnode, hkind⟩⟩

theorem SameOpens.trans {vfs'' : VirtualFileSystem} (h : SameOpens vfs vfs') (h' : SameOpens vfs' vfs'') :
    SameOpens vfs vfs'' := by
  refine ⟨h'.fds.trans h.fds, fun id => (h'.flags id).trans (h.flags id), ?_⟩
  intro i node hnode hkind
  obtain ⟨node', hnode', hkind'⟩ := h.files i node hnode hkind
  exact h'.files i node' hnode' hkind'

theorem SameOpens.onFile (h : SameOpens vfs vfs') {fd : Fd} (hfile : vfs.OnFile fd) : vfs'.OnFile fd := by
  obtain ⟨i, node, hregular⟩ := hfile
  obtain ⟨node', hnode', hkind'⟩ := h.files i node hregular.there hregular.file
  exact ⟨i, node', h.fds ▸ hregular.open', hnode', hkind'⟩

theorem SameOpens.writesBytes (h : SameOpens vfs vfs') {op : FileOp} (hop : vfs.WritesBytes op) :
    vfs'.WritesBytes op := by
  have hrefused : ∀ fd, (∀ entry, vfs.fds.entries.get? fd = some entry →
      (vfs.shared.description entry.description).flags.canWrite = false) →
      ∀ entry, vfs'.fds.entries.get? fd = some entry →
        (vfs'.shared.description entry.description).flags.canWrite = false := by
    intro fd hall entry hentry
    rw [h.flags]
    exact hall entry (h.fds ▸ hentry)
  cases op with
  | write fd bytes => exact fun hempty => hrefused fd (hop hempty)
  | pwrite fd offset bytes => exact fun hempty => hrefused fd (hop hempty)
  | _ => trivial

structure Landed (vfs : VirtualFileSystem) (op : FileOp) (answer : Except VfsError FileAnswer)
    (vfs' : VirtualFileSystem) : Prop where
  step : vfs.reference.exec op = (answer, vfs'.reference)
  inMemory : InMemory vfs'
  same : SameOpens vfs vfs'

theorem FilledTo.reference (h : FilledTo vfs vfs') : vfs'.reference = vfs.reference := by
  obtain ⟨cache, rfl, _⟩ := h
  rfl

theorem FilledTo.same (h : FilledTo vfs vfs') : SameOpens vfs vfs' := by
  obtain ⟨cache, rfl, _⟩ := h
  exact ⟨rfl, fun _ => rfl, fun _ node hnode hkind => ⟨node, hnode, hkind⟩⟩

theorem InMemory.filled (h : InMemory vfs) (hfilled : FilledTo vfs vfs') : InMemory vfs' := by
  obtain ⟨cache, rfl, hcache⟩ := hfilled
  exact ⟨h.wf, hcache.coherent h.wf h.coherent, h.loaded, h.size, h.bounded, h.regular, h.offset⟩

def withOffset (vfs : VirtualFileSystem) (entry : FdEntry) (offset : Nat) : VirtualFileSystem :=
  let description := vfs.shared.description entry.description
  { vfs with shared := vfs.shared.setDescription entry.description { description with offset := offset } }

theorem withOffset_reference (vfs : VirtualFileSystem) (entry : FdEntry) (offset : Nat) :
    (vfs.withOffset entry offset).reference = vfs.reference.setOffset entry.description offset := by
  unfold reference withOffset Reference.setOffset Shared.setDescription
  congr 1
  funext id
  by_cases hid : id = entry.description
  · simp only [if_pos hid]
    rfl
  · simp only [if_neg hid]

theorem withOffset_self (vfs : VirtualFileSystem) (entry : FdEntry) :
    vfs.withOffset entry (vfs.shared.description entry.description).offset = vfs := by
  have hdescription : vfs.shared.setDescription entry.description (vfs.shared.description entry.description) =
      vfs.shared := by
    unfold Shared.setDescription
    congr 1
    funext id
    split
    · rw [‹id = _›]
    · rfl
  unfold withOffset
  exact congrArg (fun shared => { vfs with shared := shared }) hdescription

theorem withOffset_same (vfs : VirtualFileSystem) (entry : FdEntry) (offset : Nat) :
    SameOpens vfs (vfs.withOffset entry offset) := by
  refine ⟨rfl, ?_, fun _ node hnode hkind => ⟨node, hnode, hkind⟩⟩
  intro id
  show (if id = entry.description then _ else _ : FdDescription).flags = _
  split
  · rw [‹id = _›]
  · rfl

theorem InMemory.withOffset (h : InMemory vfs) (entry : FdEntry) {offset : Nat} (hoffset : offset < u64Limit) :
    InMemory (vfs.withOffset entry offset) := by
  refine ⟨h.wf, ⟨h.coherent.metadata, h.coherent.listing, h.coherent.smallRead⟩, h.loaded, h.size, h.bounded,
    h.regular, ?_⟩
  intro id
  show (if id = entry.description then _ else _ : FdDescription).offset < u64Limit
  split
  · exact hoffset
  · exact h.offset id

/-- A file has other bytes, and the cache has dropped what it held of it. -/
def changed (vfs : VirtualFileSystem) (i : InodeId) (node : PathNode) : VirtualFileSystem :=
  { vfs with tree := vfs.tree.setNode i node, cache := vfs.cache.invalidateInode i }

section Changed

variable {i : InodeId} {node : PathNode}

theorem changed_reference (hkind : node.kind = .file) (data : List UInt8) :
    (vfs.changed i (node.withData data)).reference = vfs.reference.setFile i
      (RefFile.changed ⟨node.data, node.attr.mtimeNsec, node.attr.ctimeNsec⟩ data) := by
  have hfile : node.refFile = some ⟨node.data, node.attr.mtimeNsec, node.attr.ctimeNsec⟩ := if_pos hkind
  unfold reference changed Reference.setFile PathTree.setNode
  congr 1
  funext j
  simp only [SortedMap.get?_insert]
  by_cases hj : j = i
  · rw [if_pos hj, if_pos hj, Option.bind_some, PathNode.refFile_withData hfile]
  · rw [if_neg hj, if_neg hj]

theorem changed_same (hkind : node.kind = .file) (data : List UInt8) :
    SameOpens vfs (vfs.changed i (node.withData data)) := by
  refine ⟨rfl, fun _ => rfl, ?_⟩
  intro j other hother hfile
  by_cases hj : j = i
  · exact ⟨node.withData data, by simp [changed, PathTree.setNode, hj], hkind⟩
  · exact ⟨other, by simp [changed, PathTree.setNode, hj, hother], hfile⟩

theorem InMemory.changed (h : InMemory vfs) (hnode : vfs.tree.inodes.get? i = some node) (hkind : node.kind = .file)
    {data : List UInt8} (hdata : data.length < u64Limit) :
    InMemory (vfs.changed i (node.withData data)) := by
  have hnodes : ∀ j other, (vfs.changed i (node.withData data)).tree.inodes.get? j = some other →
      j = i ∧ other = node.withData data ∨ vfs.tree.inodes.get? j = some other := by
    intro j other hother
    simp only [VirtualFileSystem.changed, PathTree.setNode, SortedMap.get?_insert] at hother
    split at hother
    · exact Or.inl ⟨‹_›, (Option.some.inj hother).symm⟩
    · exact Or.inr hother
  have hsettled : Settled .empty vfs (vfs.changed i (node.withData data)) [i] :=
    .setNode h.wf hnode (node.withData_same data) rfl (vfs.cache.invalidateInode_drops i)
  refine ⟨PathTree.Grows.wf (.change hnode (node.withData_same data)) h.wf, hsettled.coherent h.coherent, ?_, ?_, ?_,
    ?_, h.offset⟩
  · intro j other hother hfile
    rcases hnodes j other hother with ⟨_, rfl⟩ | hold
    · exact h.loaded i node hnode hkind
    · exact h.loaded j other hold hfile
  · intro j other hother hfile
    rcases hnodes j other hother with ⟨_, rfl⟩ | hold
    · rfl
    · exact h.size j other hold hfile
  · intro j other hother hfile
    rcases hnodes j other hother with ⟨_, rfl⟩ | hold
    · exact hdata
    · exact h.bounded j other hold hfile
  · intro j other hother hfile
    rcases hnodes j other hother with ⟨_, rfl⟩ | hold
    · exact h.regular i node hnode hkind
    · exact h.regular j other hold hfile

end Changed

/-! ### An open file -/

structure OpenFile (vfs : VirtualFileSystem) (fd : Fd) (entry : FdEntry) (node : PathNode) : Prop where
  held : vfs.fds.entries.get? fd = some entry
  kind : entry.file.kind = .regular
  there : vfs.tree.inodes.get? entry.inodeId = some node
  file : node.kind = .file

theorem OnFile.openFile {fd : Fd} (h : vfs.OnFile fd) : ∃ entry node, OpenFile vfs fd entry node := by
  obtain ⟨_, node, ⟨⟨entry, hentry, rfl, hkind⟩, hnode, hfile⟩⟩ := h
  exact ⟨entry, node, hentry, hkind, hnode, hfile⟩

def offsetOf (vfs : VirtualFileSystem) (entry : FdEntry) : Nat := (vfs.shared.description entry.description).offset

def flagsOf (vfs : VirtualFileSystem) (entry : FdEntry) : OpenFlags :=
  (vfs.shared.description entry.description).flags

def openedBy (vfs : VirtualFileSystem) (entry : FdEntry) (node : PathNode) : Reference.Opened :=
  ⟨entry.description, (vfs.shared.description entry.description).reference, entry.inodeId,
    ⟨node.data, node.attr.mtimeNsec, node.attr.ctimeNsec⟩⟩

section Open

variable {fd : Fd} {entry : FdEntry} {node : PathNode} (h : InMemory vfs) (hopen : OpenFile vfs fd entry node)

include hopen in
theorem opened_eq : vfs.reference.opened fd = .ok (vfs.openedBy entry node) := by
  have hhandle : vfs.reference.handle fd = some (entry.description, entry.inodeId) := by
    show (vfs.fds.entries.get? fd).bind FdEntry.handle = _
    rw [hopen.held, Option.bind_some]
    exact if_pos hopen.kind
  have hfile : vfs.reference.file entry.inodeId = some ⟨node.data, node.attr.mtimeNsec, node.attr.ctimeNsec⟩ := by
    show (vfs.tree.inodes.get? entry.inodeId).bind PathNode.refFile = _
    rw [hopen.there, Option.bind_some]
    exact if_pos hopen.file
  unfold Reference.opened
  rw [hhandle]
  simp only
  rw [hfile]
  rfl

theorem Landed.refused (h : InMemory vfs) {op : FileOp} {error : VfsError}
    (hstep : vfs.reference.exec op = (.error error, vfs.reference)) : Landed vfs op (.error error) vfs :=
  ⟨hstep, h, .refl vfs⟩

/-! ### Reads -/

theorem advanceOffset_run (entry : FdEntry) {offset count : Nat} (hfits : offset + count < u64Limit) :
    advanceOffset entry offset count vfs = (.ok (), vfs.withOffset entry (offset + count)) := by
  have hcheck : failIf (u64Limit ≤ offset + count) VfsError.invalidPath = .ok () := if_neg (by omega)
  unfold advanceOffset
  rw [hcheck]
  rfl

include h hopen in
theorem readRegularInodeAt_loaded (host : Host) (offset len : Nat) :
    wp (readRegularInodeAt host entry.inodeId offset len)
      (fun bytes vfs' => bytes = readMemoryAt node.data offset len ∧ vfs' = vfs) (fun _ _ => False) vfs := by
  have hregular : ¬node.attr.isDirectory = true := by
    rw [h.regular _ _ hopen.there hopen.file]
    exact Bool.false_ne_true
  have hloaded := h.loaded _ _ hopen.there hopen.file
  have hvalue : readRegularNodeAt host node vfs.procSelf offset len none = .ok (readMemoryAt node.data offset len) := by
    unfold readRegularNodeAt
    rw [if_neg (by simp [hopen.file]), if_neg (by simp [hopen.file]), hloaded]
  unfold readRegularInodeAt
  rw [wp_bind, wp_get, wp_bind, lookup_entry hopen.there, wp_ofExcept]
  simp only
  rw [wp_failIf, if_neg hregular, hloaded]
  simp only
  rw [hvalue, wp_ofExcept]
  exact ⟨rfl, rfl⟩

theorem read_end {data : List UInt8} {offset : Nat} (hdata : data.length < u64Limit) (hoffset : offset < u64Limit)
    (len : Nat) : offset + (readMemoryAt data offset len).length < u64Limit := by
  have hlength : (readMemoryAt data offset len).length ≤ data.length - offset := by
    rw [readMemoryAt, List.length_take, List.length_drop]
    exact Nat.min_le_right _ _
  omega

include h hopen in
theorem cachedSmallRead_loaded (offset len : Nat) :
    wp (cachedSmallReadForEntry entry offset len)
      (fun r vfs' => (vfs.flagsOf entry).canRead = true ∧ FilledTo vfs vfs' ∧ (r = none → vfs' = vfs) ∧
        ∀ bytes, r = some bytes → bytes = readMemoryAt node.data offset len)
      (fun error vfs' => (vfs.flagsOf entry).canRead = false ∧ error = .badFd ∧ vfs' = vfs) vfs := by
  by_cases hread : (vfs.flagsOf entry).canRead = true
  · have hfile : RegularFile vfs fd entry.inodeId node :=
      ⟨⟨entry, hopen.held, rfl, hopen.kind⟩, hopen.there, hopen.file⟩
    have hholds : node.Holds .empty node.data := by
      refine ⟨?_, h.size _ _ hopen.there hopen.file, h.regular _ _ hopen.there hopen.file,
        h.bounded _ _ hopen.there hopen.file⟩
      rw [PathNode.content, h.loaded _ _ hopen.there hopen.file]
    refine wp_mono (cachedSmallReadForEntry_reads h.coherent hfile ⟨entry, hopen.held, hread⟩ hholds hopen.held
      offset len) ?_ (fun _ _ hfalse => hfalse.elim)
    intro r vfs' hr
    exact ⟨hread, hr⟩
  · rw [Bool.not_eq_true] at hread
    have hmode : (vfs.shared.description entry.description).flags.canRead = false := hread
    unfold cachedSmallReadForEntry
    rw [wp_bind, wp_get, wp_failIf, if_pos hmode]
    exact ⟨hread, rfl, rfl⟩

def ReadOn (vfs vfs' : VirtualFileSystem) (entry : FdEntry) (data : List UInt8) (len : Nat) (bytes : List UInt8) :
    Prop :=
  (vfs.flagsOf entry).canRead = true ∧ bytes = readMemoryAt data (vfs.offsetOf entry) len ∧
    ∃ mid, FilledTo vfs mid ∧ vfs' = mid.withOffset entry (vfs.offsetOf entry + bytes.length)

/-- A call that the mode of the description refuses. -/
def RefusedRead (vfs vfs' : VirtualFileSystem) (entry : FdEntry) (error : VfsError) : Prop :=
  (vfs.flagsOf entry).canRead = false ∧ error = .badFd ∧ vfs' = vfs

include hopen in
theorem regularReadRequest_eq (hread : (vfs.flagsOf entry).canRead = true) :
    vfs.regularReadRequest fd = .ok (some (entry.inodeId, vfs.offsetOf entry)) := by
  have hcheck : failIf ((vfs.shared.description entry.description).flags.canRead = false) VfsError.badFd = .ok () :=
    failIf_eq_ok.mpr (by rw [show (vfs.shared.description entry.description).flags.canRead = true from hread]; simp)
  unfold regularReadRequest
  rw [fds_get hopen.held]
  simp only [bind, Except.bind]
  rw [hcheck]
  simp only [hopen.kind, true_or, if_true]
  rfl

include h hopen in
theorem read_loaded (host : Host) (len : Nat) :
    wp (read host fd len) (fun bytes vfs' => ReadOn vfs vfs' entry node.data len bytes)
      (fun error vfs' => RefusedRead vfs vfs' entry error) vfs := by
  have hend := read_end (h.bounded _ _ hopen.there hopen.file) (h.offset entry.description) len
  unfold read
  rw [wp_bind]
  unfold readFromSmallCache
  rw [wp_bind, wp_get, wp_bind, fds_get hopen.held, wp_ofExcept]
  simp only
  rw [wp_bind]
  refine wp_mono (cachedSmallRead_loaded h hopen (vfs.offsetOf entry) len) ?_ (fun _ _ hrefused => hrefused)
  rintro r mid ⟨hread, hfilled, hsame, hbytes⟩
  cases r with
  | some bytes =>
      have hvalue := hbytes bytes rfl
      subst hvalue
      rw [wp_bind]
      apply wp_of_run (advanceOffset_run entry hend)
      exact (wp_pure _).mpr ((wp_pure _).mpr ⟨hread, rfl, mid, hfilled, rfl⟩)
  | none =>
      obtain rfl := hsame rfl
      refine (wp_pure _).mpr ?_
      simp only
      rw [wp_bind, wp_get, wp_bind, regularReadRequest_eq hopen hread, wp_ofExcept]
      simp only
      rw [wp_bind]
      refine wp_mono (readRegularInodeAt_loaded h hopen host (mid.offsetOf entry) len) ?_
        (fun _ _ hfalse => hfalse.elim)
      rintro bytes _ ⟨rfl, rfl⟩
      rw [wp_bind, fds_get hopen.held, wp_ofExcept]
      simp only
      rw [wp_bind]
      apply wp_of_run (advanceOffset_run entry hend)
      exact (wp_pure _).mpr ⟨hread, rfl, _, .refl _, rfl⟩

include h hopen in
theorem pread_loaded (host : Host) (offset len : Nat) :
    wp (pread host fd offset len)
      (fun bytes vfs' => (vfs.flagsOf entry).canRead = true ∧ bytes = readMemoryAt node.data offset len ∧
        FilledTo vfs vfs') (fun error vfs' => RefusedRead vfs vfs' entry error) vfs := by
  unfold pread
  rw [wp_bind, wp_get, wp_bind, fds_get hopen.held, wp_ofExcept]
  simp only
  rw [wp_bind]
  refine wp_mono (cachedSmallRead_loaded h hopen offset len) ?_ (fun _ _ hrefused => hrefused)
  rintro r mid ⟨hread, hfilled, hsame, hbytes⟩
  cases r with
  | some bytes => exact (wp_pure _).mpr ⟨hread, hbytes bytes rfl, hfilled⟩
  | none =>
      obtain rfl := hsame rfl
      simp only
      rw [wp_bind, wp_get, wp_bind, regularReadRequest_eq hopen hread, wp_ofExcept]
      refine wp_mono (readRegularInodeAt_loaded h hopen host offset len) ?_ (fun _ _ hfalse => hfalse.elim)
      rintro bytes _ ⟨rfl, rfl⟩
      exact ⟨hread, rfl, .refl _⟩

include h hopen in
theorem readvRegular_loaded (host : Host) (lengths : List Nat) :
    wp (readvRegular host fd lengths)
      (fun r vfs' => lengths.sum < u64Limit ∧ ∃ bytes, r = some bytes ∧
        ReadOn vfs vfs' entry node.data lengths.sum bytes)
      (fun error vfs' => RefusedRead vfs vfs' entry error ∨
        (vfs.flagsOf entry).canRead = true ∧ u64Limit ≤ lengths.sum ∧ error = .invalidPath ∧ vfs' = vfs) vfs := by
  have hend := read_end (h.bounded _ _ hopen.there hopen.file) (h.offset entry.description) lengths.sum
  unfold readvRegular
  rw [wp_bind, wp_get, wp_bind]
  by_cases hread : (vfs.flagsOf entry).canRead = true
  · rw [regularReadRequest_eq hopen hread, wp_ofExcept]
    simp only
    unfold vectoredLen
    by_cases hsum : lengths.sum < u64Limit
    · rw [if_pos hsum, wp_bind, wp_ofExcept]
      simp only
      by_cases hzero : lengths.sum = 0
      · rw [if_pos hzero, wp_pure]
        refine ⟨hsum, [], rfl, hread, ?_, vfs, .refl vfs, ?_⟩
        · rw [hzero, readMemoryAt, List.take_zero]
        · exact (withOffset_self vfs entry).symm
      · rw [if_neg hzero, wp_bind]
        refine wp_mono (readRegularInodeAt_loaded h hopen host (vfs.offsetOf entry) lengths.sum) ?_
          (fun _ _ hfalse => hfalse.elim)
        rintro bytes _ ⟨rfl, rfl⟩
        rw [wp_bind, fds_get hopen.held, wp_ofExcept]
        simp only
        rw [wp_bind]
        apply wp_of_run (advanceOffset_run entry hend)
        exact (wp_pure _).mpr ⟨hsum, _, rfl, hread, rfl, _, .refl _, rfl⟩
    · rw [if_neg hsum, wp_bind, wp_ofExcept]
      exact Or.inr ⟨hread, by omega, rfl, rfl⟩
  · rw [Bool.not_eq_true] at hread
    have hrefused : vfs.regularReadRequest fd = .error .badFd := by
      have hcheck : failIf ((vfs.shared.description entry.description).flags.canRead = false) VfsError.badFd =
        .error .badFd := if_pos hread
      unfold regularReadRequest
      rw [fds_get hopen.held]
      simp only [bind, Except.bind]
      rw [hcheck]
    rw [hrefused, wp_ofExcept]
    exact Or.inl ⟨hread, rfl, rfl⟩

/-! ### Writes -/

theorem onTree_loaded {α : Type} {i : InodeId} {node : PathNode} {change : PathNode.Change α}
    {Q : α → VirtualFileSystem → Prop} {E : VfsError → VirtualFileSystem → Prop}
    (hnode : vfs.tree.inodes.get? i = some node)
    (hchange : wp change (fun a node' => Q a (setTree (vfs.tree.setNode i node') vfs))
      (fun error node' => node' = node ∧ E error vfs) node) :
    wp (onTree (PathTree.withInode i change)) Q E vfs := by
  rw [onTree, wp_zoom, PathTree.wp_withInode hnode]
  refine wp_mono hchange (fun _ _ hq => hq) ?_
  rintro error _ ⟨rfl, he⟩
  rw [PathTree.setNode_self hnode]
  exact he

/-- Where a write through the description goes. -/
def writeOffset (vfs : VirtualFileSystem) (entry : FdEntry) (node : PathNode) : Nat :=
  if (vfs.flagsOf entry).append then node.data.length else vfs.offsetOf entry

/-- The file with `bytes` written at `offset`, before the cache has heard of it. -/
def written (vfs : VirtualFileSystem) (entry : FdEntry) (node : PathNode) (offset : Nat) (bytes : List UInt8) :
    VirtualFileSystem :=
  setTree (vfs.tree.setNode entry.inodeId (node.withData (overlayBytes node.data offset bytes))) vfs

include h hopen in
theorem writeRegular_loaded (host : Host) (bytes : List UInt8) :
    wp (writeRegular host entry bytes)
      (fun count vfs' => count = bytes.length ∧ vfs.writeOffset entry node + bytes.length < u64Limit ∧
        vfs' = (vfs.written entry node (vfs.writeOffset entry node) bytes).withOffset entry
          (vfs.writeOffset entry node + bytes.length))
      (fun error vfs' => u64Limit ≤ vfs.writeOffset entry node + bytes.length ∧ error = .invalidPath ∧ vfs' = vfs)
      vfs := by
  have hoffset : (if (vfs.shared.description entry.description).flags.append then node.attr.size
      else (vfs.shared.description entry.description).offset) = vfs.writeOffset entry node := by
    rw [h.size _ _ hopen.there hopen.file]
    rfl
  unfold writeRegular
  rw [wp_bind, wp_get, wp_bind, lookup_entry hopen.there, wp_ofExcept]
  simp only
  rw [hoffset, wp_bind]
  apply onTree_loaded hopen.there
  apply PathNode.writeAt_loaded hopen.file (h.loaded _ _ hopen.there hopen.file)
  · intro hover
    exact ⟨rfl, hover, rfl, rfl⟩
  · intro hfits
    rw [wp_bind, onFiles, wp_zoom, Files.setDescription, wp_modify, wp_pure]
    exact ⟨rfl, hfits, rfl⟩

theorem written_invalidated (vfs : VirtualFileSystem) (entry : FdEntry) (node : PathNode) (offset stop : Nat)
    (bytes : List UInt8) {Q : Unit → VirtualFileSystem → Prop} {E : VfsError → VirtualFileSystem → Prop} :
    wp (invalidateInodeCache entry.inodeId) Q E ((vfs.written entry node offset bytes).withOffset entry stop) ↔
      Q () ((vfs.changed entry.inodeId (node.withData (overlayBytes node.data offset bytes))).withOffset entry stop) := by
  rw [invalidateInodeCache, onCache, wp_modify]
  rfl

/-! ### Each call is a step of the reference -/

def Lands (host : Host) (vfs : VirtualFileSystem) (op : FileOp) : Prop :=
  wp (fileCall host op) (fun answer vfs' => Landed vfs op (.ok answer) vfs')
    (fun error vfs' => Landed vfs op (.error error) vfs') vfs

include hopen in
theorem exec_eq (op : FileOp) (hop : op.fd = fd) :
    vfs.reference.exec op = match (motive := FileOp → Reference.Step) op with
      | .read _ len => vfs.reference.read (vfs.openedBy entry node) len
      | .readvRegular _ buffers => vfs.reference.readv (vfs.openedBy entry node) buffers
      | .pread _ offset len => vfs.reference.pread (vfs.openedBy entry node) offset.toNat len
      | .write _ bytes => vfs.reference.write (vfs.openedBy entry node) bytes
      | .writevRegular _ buffers => vfs.reference.write (vfs.openedBy entry node) buffers.flatten
      | .pwrite _ offset bytes => vfs.reference.pwrite (vfs.openedBy entry node) offset.toNat bytes
      | .lseek _ offset whence => vfs.reference.lseek (vfs.openedBy entry node) offset whence
      | .ftruncate _ length => vfs.reference.ftruncate (vfs.openedBy entry node) length.toNat
      | .fallocate _ offset length => vfs.reference.fallocate (vfs.openedBy entry node) offset.toNat length.toNat
      | .fstat _ => (.ok (.status node.data.length node.attr.mtimeNsec node.attr.ctimeNsec), vfs.reference) := by
  unfold Reference.exec
  rw [hop, opened_eq hopen]
  cases op <;> rfl

theorem readable (hmode : (vfs.flagsOf entry).canRead = true) :
    ¬(vfs.openedBy entry node).description.canRead = false := by
  rw [show (vfs.openedBy entry node).description.canRead = true from hmode]
  exact Bool.noConfusion

theorem writable (hmode : (vfs.flagsOf entry).canWrite = true) :
    ¬(vfs.openedBy entry node).description.canWrite = false := by
  rw [show (vfs.openedBy entry node).description.canWrite = true from hmode]
  exact Bool.noConfusion

theorem ReadOn.reference_read {len : Nat} {bytes : List UInt8} (hread : ReadOn vfs vfs' entry node.data len bytes) :
    vfs.reference.read (vfs.openedBy entry node) len = (.ok (.bytes bytes), vfs'.reference) := by
  obtain ⟨hmode, rfl, mid, hfilled, rfl⟩ := hread
  rw [Reference.read, if_neg (readable hmode), withOffset_reference, hfilled.reference]
  rfl

include h hopen in
theorem ReadOn.landed {len : Nat} {bytes : List UInt8} {op : FileOp} {answer : FileAnswer}
    (hread : ReadOn vfs vfs' entry node.data len bytes)
    (hstep : vfs.reference.exec op = (.ok answer, vfs'.reference)) : Landed vfs op (.ok answer) vfs' := by
  obtain ⟨_, rfl, mid, hfilled, rfl⟩ := hread
  refine ⟨hstep, ?_, hfilled.same.trans (withOffset_same mid entry _)⟩
  exact (h.filled hfilled).withOffset entry
    (read_end (h.bounded _ _ hopen.there hopen.file) (h.offset entry.description) len)

theorem splitLengths_flatten (buffers : List (List UInt8)) :
    (buffers.map List.length).splitLengths buffers.flatten = buffers := by
  induction buffers with
  | nil => rfl
  | cons buffer buffers ih =>
      rw [List.map_cons, List.splitLengths_cons, List.flatten_cons, List.take_left, List.drop_left, ih]

/-- Scattering over the buffers is copying over the buffers put together. -/
theorem scatterVectored_eq (buffers : List (List UInt8)) : ∀ source : List UInt8,
    scatterVectored source buffers =
      (buffers.map List.length).splitLengths (source ++ buffers.flatten.drop source.length) := by
  induction buffers with
  | nil => exact fun _ => rfl
  | cons buffer buffers ih =>
      intro source
      rw [scatterVectored]
      split
      · rename_i hempty
        rw [hempty, List.nil_append, List.length_nil, List.drop_zero, splitLengths_flatten]
      · have hrest : (buffer.drop source.length).length ≤ buffer.length - source.length :=
          Nat.le_of_eq List.length_drop
        have hhead : (source ++ (buffer ++ buffers.flatten).drop source.length).take buffer.length =
            source.take buffer.length ++ buffer.drop source.length := by
          rw [List.take_append, List.drop_append, List.take_append, List.take_of_length_le hrest,
            List.length_drop, Nat.sub_self, List.take_zero, List.append_nil]
        have htail : (source ++ (buffer ++ buffers.flatten).drop source.length).drop buffer.length =
            source.drop buffer.length ++ buffers.flatten.drop (source.drop buffer.length).length := by
          rw [List.drop_append, List.drop_append, List.drop_append, List.drop_of_length_le hrest,
            List.length_drop, List.length_drop, List.nil_append, Nat.sub_self, List.drop_zero]
        rw [ih, List.map_cons, List.splitLengths_cons, List.flatten_cons, hhead, htail]

include h hopen in
theorem read_lands (len : Nat) : Lands host vfs (.read fd len) := by
  have hexec := exec_eq hopen (.read fd len) rfl
  unfold Lands fileCall
  rw [wp_bind]
  refine wp_mono (read_loaded h hopen host len) ?_ ?_
  · intro bytes vfs' hread
    exact (wp_pure _).mpr (hread.landed h hopen (hexec.trans hread.reference_read))
  · rintro error _ ⟨hmode, rfl, rfl⟩
    apply Landed.refused h
    rw [hexec]
    exact if_pos hmode

include h hopen in
theorem readvRegular_lands (buffers : List (List UInt8)) : Lands host vfs (.readvRegular fd buffers) := by
  have hexec := exec_eq hopen (.readvRegular fd buffers) rfl
  unfold Lands fileCall
  rw [wp_bind]
  have hlength : (buffers.map List.length).sum = buffers.flatten.length := List.length_flatten.symm
  refine wp_mono (readvRegular_loaded h hopen host (buffers.map List.length)) ?_ ?_
  · rintro _ vfs' ⟨hsum, bytes, rfl, hread⟩
    refine (wp_pure _).mpr (hread.landed h hopen ?_)
    rw [hlength] at hsum hread
    rw [hexec, scatterVectored_eq]
    simp only
    rw [Reference.readv, if_neg (readable hread.1), if_neg (by omega), hread.reference_read]
  · rw [hlength]
    rintro error last (⟨hmode, rfl, hsame⟩ | ⟨hmode, hsum, rfl, hsame⟩)
    · rw [hsame]
      apply Landed.refused h
      rw [hexec]
      exact if_pos hmode
    · rw [hsame]
      apply Landed.refused h
      rw [hexec]
      simp only
      rw [Reference.readv, if_neg (readable hmode), if_pos hsum]

include h hopen in
theorem pread_lands (offset : UInt64) (len : Nat) : Lands host vfs (.pread fd offset len) := by
  have hexec := exec_eq hopen (.pread fd offset len) rfl
  unfold Lands fileCall
  rw [wp_bind]
  refine wp_mono (pread_loaded h hopen host offset.toNat len) ?_ ?_
  · rintro bytes vfs' ⟨hmode, rfl, hfilled⟩
    refine (wp_pure _).mpr ⟨?_, h.filled hfilled, hfilled.same⟩
    rw [hexec, hfilled.reference]
    exact if_neg (readable hmode)
  · rintro error _ ⟨hmode, rfl, rfl⟩
    apply Landed.refused h
    rw [hexec]
    exact if_pos hmode

include h hopen in
theorem written_landed {bytes : List UInt8} {op : FileOp} (hmode : (vfs.flagsOf entry).canWrite = true)
    (hbytes : bytes ≠ []) (hfits : vfs.writeOffset entry node + bytes.length < u64Limit)
    (hstep : vfs.reference.exec op = vfs.reference.write (vfs.openedBy entry node) bytes) :
    Landed vfs op (.ok (.count bytes.length))
      ((vfs.changed entry.inodeId (node.withData (overlayBytes node.data (vfs.writeOffset entry node) bytes))).withOffset
        entry (vfs.writeOffset entry node + bytes.length)) := by
  have hlength : (overlayBytes node.data (vfs.writeOffset entry node) bytes).length < u64Limit := by
    rw [length_overlayBytes]
    exact max_lt (h.bounded _ _ hopen.there hopen.file) hfits
  refine ⟨?_, ?_, (changed_same hopen.file _).trans (withOffset_same _ entry _)⟩
  · rw [hstep, Reference.write, if_neg (writable hmode), if_neg hbytes, withOffset_reference,
      changed_reference hopen.file]
    exact if_neg (by have := hfits; unfold writeOffset at this; exact Nat.not_le.mpr this)
  · exact (h.changed hopen.there hopen.file hlength).withOffset entry hfits

theorem written_overflows {bytes : List UInt8} {op : FileOp} (h : InMemory vfs)
    (hmode : (vfs.flagsOf entry).canWrite = true) (hbytes : bytes ≠ [])
    (hover : u64Limit ≤ vfs.writeOffset entry node + bytes.length)
    (hstep : vfs.reference.exec op = vfs.reference.write (vfs.openedBy entry node) bytes) :
    Landed vfs op (.error .invalidPath) vfs := by
  apply Landed.refused h
  rw [hstep, Reference.write, if_neg (writable hmode), if_neg hbytes]
  exact if_pos hover

include h hopen in
theorem write_lands (bytes : List UInt8) (hwrites : vfs.WritesBytes (.write fd bytes)) :
    Lands host vfs (.write fd bytes) := by
  have hexec := exec_eq hopen (.write fd bytes) rfl
  unfold Lands fileCall
  rw [wp_bind]
  unfold write
  rw [wp_bind, wp_get, wp_bind]
  unfold fdsWrite
  rw [wp_bind, wp_get, wp_bind, fds_get hopen.held, wp_ofExcept]
  simp only
  rw [wp_failIf]
  by_cases hmode : (vfs.shared.description entry.description).flags.canWrite = false
  · rw [if_pos hmode]
    apply Landed.refused h
    rw [hexec]
    exact if_pos hmode
  · have hbytes : bytes ≠ [] := fun hempty => hmode (hwrites hempty entry hopen.held)
    have hcount : 0 < bytes.length := List.length_pos_iff.mpr hbytes
    rw [if_neg hmode, hopen.kind]
    replace hmode : (vfs.flagsOf entry).canWrite = true := Bool.eq_true_of_not_eq_false hmode
    simp only
    refine wp_mono (writeRegular_loaded h hopen host bytes) ?_ ?_
    · rintro _ _ ⟨rfl, hfits, rfl⟩
      rw [hopen.held]
      simp only
      rw [wp_bind, hopen.kind, Prog.when, if_pos ⟨hcount, rfl⟩, written_invalidated]
      exact (wp_pure _).mpr ((wp_pure _).mpr (written_landed h hopen hmode hbytes hfits hexec))
    · rintro error last ⟨hover, rfl, hsame⟩
      rw [hsame]
      exact written_overflows h hmode hbytes hover hexec

include h hopen in
theorem writevRegular_lands (buffers : List (List UInt8)) : Lands host vfs (.writevRegular fd buffers) := by
  have hexec := exec_eq hopen (.writevRegular fd buffers) rfl
  have hsum : (buffers.map List.length).sum = buffers.flatten.length := List.length_flatten.symm
  unfold Lands fileCall
  rw [wp_bind]
  unfold writevRegular
  rw [wp_bind, wp_get, wp_bind, fds_get hopen.held, wp_ofExcept]
  simp only
  rw [wp_failIf]
  by_cases hmode : (vfs.shared.description entry.description).flags.canWrite = false
  · rw [if_pos hmode]
    apply Landed.refused h
    rw [hexec]
    exact if_pos hmode
  · rw [if_neg hmode, if_neg (by simp [hopen.kind]), wp_bind, lookup_entry hopen.there, wp_ofExcept]
    replace hmode : (vfs.flagsOf entry).canWrite = true := Bool.eq_true_of_not_eq_false hmode
    simp only
    unfold vectoredLen
    rw [hsum]
    by_cases hfits : buffers.flatten.length < u64Limit
    · rw [if_pos hfits, wp_bind, wp_ofExcept]
      simp only
      by_cases hempty : buffers.flatten = []
      · rw [if_pos (by rw [hempty]; rfl), wp_pure]
        refine (wp_pure _).mpr ⟨?_, h, .refl vfs⟩
        rw [hexec]
        simp only
        rw [Reference.write, if_neg (writable hmode), if_pos hempty]
      · have hcount : 0 < buffers.flatten.length := List.length_pos_iff.mpr hempty
        rw [if_neg hcount.ne', wp_bind]
        refine wp_mono (writeRegular_loaded h hopen host buffers.flatten) ?_ ?_
        · rintro _ _ ⟨rfl, hend, rfl⟩
          rw [wp_bind, Prog.when, if_pos hcount, written_invalidated]
          exact (wp_pure _).mpr ((wp_pure _).mpr (written_landed h hopen hmode hempty hend hexec))
        · rintro error last ⟨hover, rfl, hsame⟩
          rw [hsame]
          exact written_overflows h hmode hempty hover hexec
    · have hbytes : buffers.flatten ≠ [] := by
        intro hempty
        rw [hempty] at hfits
        exact hfits (by decide)
      rw [if_neg hfits, wp_bind, wp_ofExcept]
      exact written_overflows h hmode hbytes (by omega) hexec

include h hopen in
theorem changed_landed {op : FileOp} {answer : FileAnswer} {data : List UInt8} (hdata : data.length < u64Limit)
    (hstep : vfs.reference.exec op = (.ok answer, vfs.reference.setFile entry.inodeId
      (RefFile.changed ⟨node.data, node.attr.mtimeNsec, node.attr.ctimeNsec⟩ data))) :
    Landed vfs op (.ok answer) (vfs.changed entry.inodeId (node.withData data)) :=
  ⟨hstep.trans (by rw [changed_reference hopen.file]), h.changed hopen.there hopen.file hdata,
    changed_same hopen.file data⟩

include h hopen in
theorem pwrite_lands (offset : UInt64) (bytes : List UInt8) (hwrites : vfs.WritesBytes (.pwrite fd offset bytes)) :
    Lands host vfs (.pwrite fd offset bytes) := by
  have hexec := exec_eq hopen (.pwrite fd offset bytes) rfl
  unfold Lands fileCall
  rw [wp_bind]
  unfold pwrite
  rw [wp_bind, wp_get, wp_bind, fds_get hopen.held, wp_ofExcept]
  simp only
  rw [wp_failIf]
  by_cases hmode : (vfs.shared.description entry.description).flags.canWrite = false
  · rw [if_pos hmode]
    apply Landed.refused h
    rw [hexec]
    exact if_pos hmode
  · have hbytes : bytes ≠ [] := fun hempty => hmode (hwrites hempty entry hopen.held)
    have hcount : 0 < bytes.length := List.length_pos_iff.mpr hbytes
    rw [if_neg hmode, wp_failIf, if_neg (not_not.mpr hopen.kind), wp_bind]
    replace hmode : (vfs.flagsOf entry).canWrite = true := Bool.eq_true_of_not_eq_false hmode
    apply onTree_loaded hopen.there
    apply PathNode.writeAt_loaded hopen.file (h.loaded _ _ hopen.there hopen.file)
    · intro hover
      refine ⟨rfl, Landed.refused h ?_⟩
      rw [hexec]
      simp only
      rw [Reference.pwrite, if_neg (writable hmode), if_neg hbytes, if_pos hover]
    · intro hfits
      rw [wp_bind, Prog.when, if_pos hcount, invalidateInodeCache, onCache, wp_modify, wp_pure, wp_pure]
      apply changed_landed h hopen
      · rw [length_overlayBytes]
        exact max_lt (h.bounded _ _ hopen.there hopen.file) hfits
      · rw [hexec]
        simp only
        rw [Reference.pwrite, if_neg (writable hmode), if_neg hbytes, if_neg (by omega)]
        rfl

include hopen in
theorem writableFile_eq :
    vfs.writableFile fd = if (vfs.flagsOf entry).canWrite = false then .error .badFd else .ok entry.inodeId := by
  have hkind : failIf (entry.file.kind ≠ .regular) VfsError.invalidPath = .ok () :=
    failIf_eq_ok.mpr (not_not.mpr hopen.kind)
  unfold writableFile
  rw [fds_get hopen.held]
  simp only [bind, Except.bind, hkind]
  by_cases hmode : (vfs.flagsOf entry).canWrite = false
  · have hcheck : failIf ((vfs.shared.description entry.description).flags.canWrite = false) VfsError.badFd =
        .error .badFd := if_pos hmode
    rw [if_pos hmode, hcheck]
  · have hcheck : failIf ((vfs.shared.description entry.description).flags.canWrite = false) VfsError.badFd =
        .ok () := if_neg hmode
    rw [if_neg hmode, hcheck]
    rfl

include h hopen in
theorem setLen_changes {op : FileOp} {length : Nat} (hlength : length < u64Limit)
    (hstep : vfs.reference.exec op = (.ok .done, vfs.reference.setFile entry.inodeId
      (RefFile.changed ⟨node.data, node.attr.mtimeNsec, node.attr.ctimeNsec⟩ (resizeBytes node.data length)))) :
    wp (do onTree (PathTree.withInode entry.inodeId (PathNode.setLen host length)); invalidateInodeCache entry.inodeId)
      (fun _ vfs' => Landed vfs op (.ok .done) vfs') (fun error vfs' => Landed vfs op (.error error) vfs') vfs := by
  rw [wp_bind]
  apply onTree_loaded hopen.there
  apply PathNode.setLen_loaded hopen.file (h.loaded _ _ hopen.there hopen.file)
  rw [invalidateInodeCache, onCache, wp_modify]
  apply changed_landed h hopen
  · rw [length_resizeBytes]
    exact hlength
  · exact hstep

include h hopen in
theorem ftruncate_lands (length : UInt64) : Lands host vfs (.ftruncate fd length) := by
  have hexec := exec_eq hopen (.ftruncate fd length) rfl
  unfold Lands fileCall
  rw [wp_bind]
  unfold ftruncate
  rw [wp_bind, wp_get, wp_bind, writableFile_eq hopen, wp_ofExcept]
  by_cases hmode : (vfs.flagsOf entry).canWrite = false
  · rw [if_pos hmode]
    apply Landed.refused h
    rw [hexec]
    exact if_pos hmode
  · rw [if_neg hmode]
    refine wp_mono (setLen_changes h hopen length.toNat_lt ?_) (fun _ _ hlanded => (wp_pure _).mpr hlanded)
      (fun _ _ hlanded => hlanded)
    rw [hexec]
    exact if_neg hmode

include h hopen in
theorem fallocate_lands (offset length : UInt64) : Lands host vfs (.fallocate fd offset length) := by
  have hexec := exec_eq hopen (.fallocate fd offset length) rfl
  unfold Lands fileCall
  rw [wp_bind]
  unfold fallocate
  rw [wp_failIf]
  by_cases hover : u64Limit ≤ offset.toNat + length.toNat
  · rw [if_pos hover]
    apply Landed.refused h
    rw [hexec]
    exact if_pos hover
  · rw [if_neg hover, wp_bind, wp_get, wp_bind, writableFile_eq hopen, wp_ofExcept]
    by_cases hmode : (vfs.flagsOf entry).canWrite = false
    · rw [if_pos hmode]
      apply Landed.refused h
      rw [hexec]
      simp only
      rw [Reference.fallocate, if_neg hover]
      exact if_pos hmode
    · rw [if_neg hmode]
      simp only
      rw [wp_bind, lookup_entry hopen.there, wp_ofExcept]
      simp only
      rw [Prog.when, h.size _ _ hopen.there hopen.file]
      by_cases hgrows : node.data.length < offset.toNat + length.toNat
      · rw [if_pos hgrows]
        refine wp_mono (setLen_changes h hopen (Nat.lt_of_not_le hover) ?_)
          (fun _ _ hlanded => (wp_pure _).mpr hlanded) (fun _ _ hlanded => hlanded)
        rw [hexec]
        simp only
        rw [Reference.fallocate, if_neg hover]
        exact (if_neg hmode).trans (if_pos hgrows)
      · rw [if_neg hgrows]
        refine (wp_pure _).mpr ((wp_pure _).mpr ⟨?_, h, .refl vfs⟩)
        rw [hexec]
        simp only
        rw [Reference.fallocate, if_neg hover]
        exact (if_neg hmode).trans (if_neg hgrows)

/-! ### Positions and sizes -/

theorem moved_landed (h : InMemory vfs) {op : FileOp} {next : Int}
    (hstep : vfs.reference.exec op = if next < 0 ∨ (u64Limit : Int) ≤ next then (.error .invalidPath, vfs.reference)
      else (.ok (.offset next.toNat), vfs.reference.setOffset entry.description next.toNat)) :
    if next < 0 ∨ (u64Limit : Int) ≤ next then Landed vfs op (.error .invalidPath) vfs
    else Landed vfs op (.ok (.offset next.toNat)) (vfs.withOffset entry next.toNat) := by
  split
  · rw [if_pos ‹_›] at hstep
    exact .refused h hstep
  · rename_i hrange
    rw [if_neg hrange, ← withOffset_reference] at hstep
    push Not at hrange
    exact ⟨hstep, h.withOffset entry ((Int.toNat_lt hrange.1).mpr hrange.2), withOffset_same vfs entry _⟩

include h hopen in
theorem lseek_lands (offset : Int) (whence : SeekWhence) : Lands host vfs (.lseek fd offset whence) := by
  have hexec := exec_eq hopen (.lseek fd offset whence) rfl
  have hsize := h.size _ _ hopen.there hopen.file
  have hdirectory : ¬entry.file.kind = .directory := by
    rw [hopen.kind]
    decide
  unfold Lands fileCall
  rw [wp_bind]
  unfold lseek
  rw [wp_bind, wp_get, wp_bind, fds_get hopen.held, wp_ofExcept]
  simp only
  rw [wp_failIf, if_neg (by simp [hopen.kind]), if_neg hdirectory, wp_bind, lookup_entry hopen.there, wp_ofExcept]
  simp only
  rw [wp_bind, wp_pure, wp_failIf, hsize]
  rw [if_neg hdirectory, wp_bind, onFiles, wp_zoom, Files.setDescription, wp_modify, wp_pure, wp_pure]
  cases whence <;> exact moved_landed h hexec

include h hopen in
theorem fstat_lands : Lands host vfs (.fstat fd) := by
  have hexec := exec_eq hopen (.fstat fd) rfl
  have hself : vfs.tree.inodes.get? node.inodeId = some node := by
    rw [h.wf.ids entry.inodeId node hopen.there]
    exact hopen.there
  have hnode : vfs.tree.lookupInode entry.inodeId = some node := hopen.there
  obtain ⟨cache, hrun, hcache, _⟩ := cachedMetadata_answer h.coherent hself
  have hfilled : FilledTo vfs (vfs.withCache cache) := ⟨cache, rfl, hcache⟩
  unfold Lands fileCall
  rw [wp_bind]
  unfold fstat
  rw [wp_bind, wp_get, wp_bind, fds_get hopen.held, wp_ofExcept]
  simp only
  rw [hopen.kind, if_neg (by simp [isAnonymous]), hnode]
  apply wp_of_run hrun
  refine (wp_pure _).mpr ⟨?_, h.filled hfilled, hfilled.same⟩
  rw [hexec, hfilled.reference, h.size _ _ hopen.there hopen.file]

end Open

theorem file_lands (host : Host) (h : InMemory vfs) {op : FileOp} (hfile : vfs.OnFile op.fd) (hwrites : vfs.WritesBytes op) :
    Lands host vfs op := by
  obtain ⟨entry, node, hopen⟩ := hfile.openFile
  cases op with
  | read fd len => exact read_lands h hopen len
  | readvRegular fd buffers => exact readvRegular_lands h hopen buffers
  | pread fd offset len => exact pread_lands h hopen offset len
  | write fd bytes => exact write_lands h hopen bytes hwrites
  | writevRegular fd buffers => exact writevRegular_lands h hopen buffers
  | pwrite fd offset bytes => exact pwrite_lands h hopen offset bytes hwrites
  | lseek fd offset whence => exact lseek_lands h hopen offset whence
  | ftruncate fd length => exact ftruncate_lands h hopen length
  | fallocate fd offset length => exact fallocate_lands h hopen offset length
  | fstat fd => exact fstat_lands h hopen

theorem fileCall_landed (host : Host) (h : InMemory vfs) {op : FileOp} (hfile : vfs.OnFile op.fd)
    (hwrites : vfs.WritesBytes op) :
    Landed vfs op (fileCall host op vfs).1 (fileCall host op vfs).2 := by
  have hlands := file_lands host h hfile hwrites
  unfold Lands at hlands
  rcases hrun : fileCall host op vfs with ⟨r, vfs'⟩
  cases r with
  | ok answer => exact wp_ok (Q := fun answer vfs' => Landed vfs op (.ok answer) vfs') hlands hrun
  | error error => exact wp_error (E := fun error vfs' => Landed vfs op (.error error) vfs') hlands hrun

/-- Calls on files in memory, through whichever descriptors of theirs, answer and leave what the reference does. -/
theorem runFiles_refines (host : Host) (ops : List FileOp) : ∀ {vfs : VirtualFileSystem}, InMemory vfs →
    (∀ op ∈ ops, vfs.OnFile op.fd) → (∀ op ∈ ops, vfs.WritesBytes op) → NoPanic host vfs ops →
    (runFiles host vfs ops).1 = (vfs.reference.run ops).1 ∧
      (runFiles host vfs ops).2.reference = (vfs.reference.run ops).2 ∧ InMemory (runFiles host vfs ops).2 := by
  induction ops with
  | nil =>
      intro vfs h _ _ _
      exact ⟨rfl, rfl, h⟩
  | cons op ops ih =>
      rintro vfs h hfiles hwrites ⟨hpanics, hrest⟩
      have hlanded := fileCall_landed host h (hfiles op List.mem_cons_self) (hwrites op List.mem_cons_self)
      obtain ⟨hanswers, hreference, hmemory⟩ := ih hlanded.inMemory
        (fun op' hop => hlanded.same.onFile (hfiles op' (List.mem_cons_of_mem op hop)))
        (fun op' hop => hlanded.same.writesBytes (hwrites op' (List.mem_cons_of_mem op hop))) hrest
      have hruns : ¬vfs.panics host op = true := by
        rw [hpanics]
        exact Bool.false_ne_true
      rw [runFiles, if_neg hruns, Reference.run, hlanded.step]
      exact ⟨congrArg _ hanswers, hreference, hmemory⟩

/-- Two descriptors that share a description open for reading and writing. -/
def sharedEntry : FdEntry := ⟨⟨⟨2, .hostPath "/" ["f"]⟩, .regular⟩, 0, some ["f"]⟩

def sharedOpen : FdTable × Shared :=
  (⟨(SortedMap.empty.insert 0 sharedEntry).insert 1 sharedEntry, .empty, 1, 1⟩,
    Shared.empty.setDescription 0 ⟨0, ⟨oRdwr⟩, 0⟩)

def sharedFile : VirtualFileSystem :=
  (fromParts (.new "/") .new sharedOpen.1 sharedOpen.2).run .empty [.treeMut (.createFile "/f")]

theorem sharedFile_inMemory : InMemory sharedFile := by
  have hfresh : PathTree.FreshId PathTree.new := by
    unfold PathTree.FreshId
    decide +kernel
  have hroom : ∀ i, blank.cache.keyGeneration i + 3 < u64Limit := by
    intro i
    show 0 % u64Limit + 3 < u64Limit
    decide
  have hstart : (fromParts (.new "/") .new sharedOpen.1 sharedOpen.2).Coherent :=
    ⟨fun _ _ h => (nomatch h), fun _ _ h => (nomatch h), fun _ _ h => (nomatch h)⟩
  have hrun : Along .empty CoherentStep (fromParts (.new "/") .new sharedOpen.1 sharedOpen.2)
      [.treeMut (.createFile "/f")] := ⟨⟨hfresh, fun h => h, fun h => h, trivial, hroom⟩, trivial⟩
  obtain ⟨hwf, hcoherent⟩ := run_coherent new_wf hstart _ hrun
  have hvalues : ∀ node ∈ sharedFile.tree.inodes.values, node.kind = .file → node.deferredHostPath = none ∧
      node.attr.size = node.data.length ∧ node.data.length < u64Limit ∧ node.attr.isDirectory = false := by
    decide +kernel
  have hnodes i node (hnode : sharedFile.tree.inodes.get? i = some node) :=
    hvalues node (SortedMap.mem_values.mpr ⟨i, hnode⟩)
  refine ⟨hwf, hcoherent, fun i node hnode hkind => (hnodes i node hnode hkind).1,
    fun i node hnode hkind => (hnodes i node hnode hkind).2.1,
    fun i node hnode hkind => (hnodes i node hnode hkind).2.2.1,
    fun i node hnode hkind => (hnodes i node hnode hkind).2.2.2, ?_⟩
  intro id
  show (if id = 0 then _ else _ : FdDescription).offset < u64Limit
  split
  · decide
  · exact Nat.two_pow_pos 64

theorem sharedFile_onFile : sharedFile.OnFile 0 ∧ sharedFile.OnFile 1 := by
  have hnode : ∃ node, sharedFile.tree.inodes.get? 2 = some node ∧ node.kind = .file := by
    have hany : (sharedFile.tree.inodes.get? 2).any (·.kind = .file) = true := by decide +kernel
    simpa using (Option.any_eq_true _ _).mp hany
  obtain ⟨node, hnode, hkind⟩ := hnode
  exact ⟨⟨2, node, ⟨_, rfl, rfl, rfl⟩, hnode, hkind⟩, ⟨2, node, ⟨_, rfl, rfl, rfl⟩, hnode, hkind⟩⟩

/-- Writes through both descriptors, with a hole between them, and a look at the whole. -/
def writeAndLook : List FileOp :=
  [.write 0 [1, 2], .write 1 [3], .pwrite 0 5 [9], .lseek 1 (-2) .cur, .read 0 8, .ftruncate 1 4, .fallocate 0 2 6,
    .writevRegular 1 [[], [7, 7]], .lseek 0 1 .set, .readvRegular 0 [[5], [6, 6]], .pread 1 6 4, .fstat 0]

theorem writeAndLook_refines :
    (runFiles .empty sharedFile writeAndLook).1 = (sharedFile.reference.run writeAndLook).1 := by
  obtain ⟨hfirst, hsecond⟩ := sharedFile_onFile
  refine (runFiles_refines .empty writeAndLook sharedFile_inMemory ?_ ?_ ?_).1
  · have hfds : ∀ op ∈ writeAndLook, op.fd = 0 ∨ op.fd = 1 := by decide
    intro op hop
    rcases hfds op hop with hfd | hfd
    · rw [hfd]
      exact hfirst
    · rw [hfd]
      exact hsecond
  · intro op hop
    simp only [writeAndLook, List.mem_cons, List.not_mem_nil, or_false] at hop
    rcases hop with rfl | rfl | rfl | rfl | rfl | rfl | rfl | rfl | rfl | rfl | rfl | rfl
    all_goals first
      | trivial
      | intro hempty
        nomatch hempty
  · unfold writeAndLook NoPanic
    decide +kernel

example : (runFiles .empty sharedFile [.lseek 0 (2 ^ 63 - 1) .set, .write 0 [1], .fstat 0]).1 =
    [.ok (.offset (2 ^ 63 - 1)), .ok .panicked] := by decide +kernel

/-- A write of no bytes past the end makes the file longer. -/
theorem emptyWrite_grows :
    ¬∀ (host : Host) (vfs : VirtualFileSystem) (ops : List FileOp), InMemory vfs →
      (∀ op ∈ ops, vfs.OnFile op.fd) → (runFiles host vfs ops).1 = (vfs.reference.run ops).1 := by
  intro hrefines
  have hanswers := hrefines .empty sharedFile [.pwrite 0 5 [], .fstat 0] sharedFile_inMemory ?_
  · revert hanswers
    decide +kernel
  · have hfds : ∀ op ∈ [FileOp.pwrite 0 5 [], .fstat 0], op.fd = 0 := by decide
    intro op hop
    rw [hfds op hop]
    exact sharedFile_onFile.1

end VirtualFileSystem

end Mcr.Vfs
