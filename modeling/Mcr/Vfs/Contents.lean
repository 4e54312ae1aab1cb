import Mcr.Vfs.FileIo

/-!
# What writes leave of the contents of files

A write through a descriptor, wherever the bytes of the file still are: it reads them from the host first when it
has to. Only the contents are followed here, not the cache and the times, so a write of no bytes is one like any
other: it fills the gap before its offset.
-/

namespace Mcr.Vfs

open Prog

theorem overlayBytes_append (data : List UInt8) (offset : Nat) (first second : List UInt8) :
    overlayBytes (overlayBytes data offset first) (offset + first.length) second =
      overlayBytes data offset (first ++ second) := by
  have hfront : (data.take offset ++ List.replicate (offset - data.length) (0 : UInt8) ++ first).length =
      offset + first.length := by
    simp only [List.length_append, List.length_take, List.length_replicate]
    omega
  have htake : (overlayBytes data offset first).take (offset + first.length) =
      data.take offset ++ List.replicate (offset - data.length) 0 ++ first := by
    rw [overlayBytes, ← hfront, List.take_left]
  have hdrop : (overlayBytes data offset first).drop (offset + first.length + second.length) =
      data.drop (offset + (first ++ second).length) := by
    rw [overlayBytes, ← hfront, List.drop_append, List.drop_of_length_le (by omega), List.nil_append, List.drop_drop,
      hfront, List.length_append]
    congr 1
    omega
  have hgap : offset + first.length - (overlayBytes data offset first).length = 0 := by
    rw [length_overlayBytes]
    omega
  rw [overlayBytes.eq_def (overlayBytes data offset first), htake, hdrop, hgap, List.replicate_zero, List.append_nil]
  rw [overlayBytes, List.append_assoc _ first second]

theorem overlayBytes_nil {data : List UInt8} {offset : Nat} (h : offset ≤ data.length) :
    overlayBytes data offset [] = data := by
  rw [overlayBytes, show offset - data.length = 0 by omega, List.replicate_zero, List.append_nil, List.append_nil,
    List.length_nil, Nat.add_zero, List.take_append_drop]

theorem PathNode.writeAt_content {host : Host} {node : PathNode} {data : List UInt8} (hkind : node.kind = .file)
    (hcontent : node.content host = some data) {offset : Nat} {bytes : List UInt8}
    (hfits : offset + bytes.length < u64Limit) :
    wp (writeAt host offset bytes)
      (fun count node' => count = bytes.length ∧ node'.kind = .file ∧
        node'.content host = some (overlayBytes data offset bytes)) (fun _ _ => False) node := by
  have hloaded : ∃ loaded, materializeDeferredContent host node = (.ok (), loaded) ∧ loaded.kind = .file ∧
      loaded.deferredHostPath = none ∧ loaded.data = data := by
    unfold materializeDeferredContent
    unfold content at hcontent
    cases hpath : node.deferredHostPath with
    | none =>
        rw [hpath] at hcontent
        exact ⟨node, rfl, hkind, hpath, Option.some.inj hcontent⟩
    | some path =>
        rw [hpath] at hcontent
        simp only at hcontent
        simp only [hcontent]
        exact ⟨_, rfl, hkind, rfl, rfl⟩
  obtain ⟨loaded, hrun, hfile, hpath, rfl⟩ := hloaded
  unfold writeAt
  rw [wp_bind, wp_get, wp_failIf, if_neg (not_not.mpr hkind), wp_bind]
  apply wp_of_run hrun
  rw [wp_failIf, if_neg (by omega), wp_bind, wp_modify, wp_pure]
  refine ⟨rfl, hfile, ?_⟩
  rw [← overwriteAt_resized]
  unfold content
  simp only [hpath]

namespace VirtualFileSystem

variable {vfs vfs' : VirtualFileSystem} {host : Host}

/-- The bytes of the node with an id. -/
def contentAt (host : Host) (vfs : VirtualFileSystem) (i : InodeId) : Option (List UInt8) :=
  (vfs.tree.inodes.get? i).bind (·.content host)

/-- The descriptor is open for writing on a regular file of these bytes. -/
structure OpenToWrite (host : Host) (vfs : VirtualFileSystem) (fd : Fd) (entry : FdEntry) (data : List UInt8) :
    Prop where
  held : vfs.fds.entries.get? fd = some entry
  kind : entry.file.kind = .regular
  notSocket : ∀ id, entry.file.inode.backend ≠ .socket id
  mode : (vfs.shared.description entry.description).flags.canWrite = true
  there : ∃ node, vfs.tree.inodes.get? entry.inodeId = some node ∧ node.kind = .file ∧ node.content host = some data

/-- One file has other bytes, and all descriptors are as they were. -/
structure Rewrites (host : Host) (vfs vfs' : VirtualFileSystem) (i : InodeId) (data : List UInt8) : Prop where
  fds : vfs'.fds = vfs.fds
  contents : ∀ j, vfs'.contentAt host j = if j = i then some data else vfs.contentAt host j

theorem OpenToWrite.contentAt {fd : Fd} {entry : FdEntry} {data : List UInt8}
    (hopen : OpenToWrite host vfs fd entry data) : vfs.contentAt host entry.inodeId = some data := by
  obtain ⟨node, hnode, _, hcontent⟩ := hopen.there
  unfold VirtualFileSystem.contentAt
  rw [hnode, Option.bind_some]
  exact hcontent

theorem OpenToWrite.unchanged {fd : Fd} {entry : FdEntry} {data : List UInt8}
    (hopen : OpenToWrite host vfs fd entry data) : Rewrites host vfs vfs entry.inodeId data := by
  refine ⟨rfl, fun j => ?_⟩
  split
  · rw [‹j = _›, hopen.contentAt]
  · rfl

theorem Rewrites.trans {vfs'' : VirtualFileSystem} {i : InodeId} {data data' : List UInt8}
    (h : Rewrites host vfs vfs' i data) (h' : Rewrites host vfs' vfs'' i data') :
    Rewrites host vfs vfs'' i data' := by
  refine ⟨h'.fds.trans h.fds, fun j => ?_⟩
  rw [h'.contents, h.contents]
  split <;> rfl

theorem OpenToWrite.rewrites (vfs' : VirtualFileSystem) {fd : Fd} {entry : FdEntry} {data data' : List UInt8} {node : PathNode}
    (hopen : OpenToWrite host vfs fd entry data) (hkind : node.kind = .file) (hcontent : node.content host = some data')
    (htree : vfs'.tree = vfs.tree.setNode entry.inodeId node) (hfds : vfs'.fds = vfs.fds)
    (hflags : (vfs'.shared.description entry.description).flags = (vfs.shared.description entry.description).flags) :
    OpenToWrite host vfs' fd entry data' ∧ Rewrites host vfs vfs' entry.inodeId data' := by
  have hnode : vfs'.tree.inodes.get? entry.inodeId = some node := by
    rw [htree, PathTree.setNode, SortedMap.get?_insert, if_pos rfl]
  refine ⟨⟨hfds ▸ hopen.held, hopen.kind, hopen.notSocket, hflags ▸ hopen.mode, node, hnode, hkind, hcontent⟩, hfds, ?_⟩
  intro j
  unfold VirtualFileSystem.contentAt
  rw [htree, PathTree.setNode, SortedMap.get?_insert]
  split
  · exact hcontent
  · rfl

theorem onTree_changes {α : Type} {i : InodeId} {node : PathNode} {change : PathNode.Change α}
    {Q : α → VirtualFileSystem → Prop} {E : VfsError → VirtualFileSystem → Prop}
    (hnode : vfs.tree.inodes.get? i = some node)
    (hchange : wp change (fun a node' => Q a (setTree (vfs.tree.setNode i node') vfs)) (fun _ _ => False) node) :
    wp (onTree (PathTree.withInode i change)) Q E vfs := by
  rw [onTree, wp_zoom, PathTree.wp_withInode hnode]
  exact wp_mono hchange (fun _ _ hq => hq) (fun _ _ hfalse => hfalse.elim)

theorem wp_whenInvalidated {c : Prop} [Decidable c] {i : InodeId} {Q : Unit → VirtualFileSystem → Prop}
    {E : VfsError → VirtualFileSystem → Prop} (h : ∀ cache, Q () { vfs with cache := cache }) :
    wp (Prog.when c (invalidateInodeCache i)) Q E vfs := by
  rw [wp_when]
  split
  · rw [invalidateInodeCache, onCache, wp_modify]
    exact h _
  · exact h vfs.cache

section Writes

variable {fd : Fd} {entry : FdEntry} {data : List UInt8} (hopen : OpenToWrite host vfs fd entry data)

include hopen in
theorem pwrite_rewrites {offset : Nat} {bytes : List UInt8} (hfits : offset + bytes.length < u64Limit) :
    wp (pwrite host fd offset bytes)
      (fun count vfs' => count = bytes.length ∧ OpenToWrite host vfs' fd entry (overlayBytes data offset bytes) ∧
        Rewrites host vfs vfs' entry.inodeId (overlayBytes data offset bytes) ∧ vfs'.shared = vfs.shared)
      (fun _ _ => False) vfs := by
  obtain ⟨node, hnode, hkind, hcontent⟩ := hopen.there
  unfold pwrite
  rw [wp_bind, wp_get, wp_bind, fds_get hopen.held, wp_ofExcept]
  simp only
  rw [wp_failIf, if_neg (by rw [hopen.mode]; exact Bool.noConfusion), wp_failIf, if_neg (not_not.mpr hopen.kind), wp_bind]
  refine onTree_changes hnode (wp_mono (PathNode.writeAt_content hkind hcontent hfits) ?_ (fun _ _ hfalse => hfalse))
  rintro _ node' ⟨rfl, hkind', hcontent'⟩
  rw [wp_bind]
  refine wp_whenInvalidated fun cache => (wp_pure _).mpr ⟨rfl, ?_⟩
  obtain ⟨hopen', hrewrites⟩ := hopen.rewrites
    { setTree (vfs.tree.setNode entry.inodeId node') vfs with cache := cache } hkind' hcontent' rfl rfl rfl
  exact ⟨hopen', hrewrites, rfl⟩

def PlainAt (vfs : VirtualFileSystem) (entry : FdEntry) (offset : Nat) : Prop :=
  (vfs.flagsOf entry).append = false ∧ vfs.offsetOf entry = offset

include hopen in
theorem writeRegular_rewrites {offset : Nat} {bytes : List UInt8} (hplain : vfs.PlainAt entry offset)
    (hfits : offset + bytes.length < u64Limit) :
    wp (writeRegular host entry bytes)
      (fun count vfs' => count = bytes.length ∧ OpenToWrite host vfs' fd entry (overlayBytes data offset bytes) ∧
        Rewrites host vfs vfs' entry.inodeId (overlayBytes data offset bytes) ∧
        vfs'.PlainAt entry (offset + bytes.length)) (fun _ _ => False) vfs := by
  obtain ⟨node, hnode, hkind, hcontent⟩ := hopen.there
  obtain ⟨happend, rfl⟩ := hplain
  have happend' : ¬(vfs.shared.description entry.description).flags.append = true := by
    rw [Bool.not_eq_true]
    exact happend
  unfold writeRegular
  rw [wp_bind, wp_get, wp_bind, lookup_entry hnode, wp_ofExcept]
  simp only
  rw [if_neg happend', wp_bind]
  refine onTree_changes hnode (wp_mono (PathNode.writeAt_content hkind hcontent hfits) ?_ (fun _ _ hfalse => hfalse))
  rintro _ node' ⟨rfl, hkind', hcontent'⟩
  rw [wp_bind, onFiles, wp_zoom, Files.setDescription, wp_modify, wp_pure]
  refine ⟨rfl, ?_⟩
  obtain ⟨hopen', hrewrites⟩ := hopen.rewrites
    ((setTree (vfs.tree.setNode entry.inodeId node') vfs).withOffset entry (vfs.offsetOf entry + bytes.length))
    hkind' hcontent' rfl rfl ((withOffset_same _ entry _).flags _)
  refine ⟨hopen', hrewrites, ?_, ?_⟩
  · exact (congrArg OpenFlags.append ((withOffset_same _ entry _).flags entry.description)).trans happend
  · exact congrArg FdDescription.offset (if_pos rfl)

include hopen in
theorem write_rewrites {offset : Nat} {bytes : List UInt8} (hplain : vfs.PlainAt entry offset)
    (hfits : offset + bytes.length < u64Limit) :
    wp (write host fd bytes)
      (fun count vfs' => count = bytes.length ∧ OpenToWrite host vfs' fd entry (overlayBytes data offset bytes) ∧
        Rewrites host vfs vfs' entry.inodeId (overlayBytes data offset bytes) ∧
        vfs'.PlainAt entry (offset + bytes.length)) (fun _ _ => False) vfs := by
  unfold write
  rw [wp_bind, wp_get, wp_bind]
  unfold fdsWrite
  rw [wp_bind, wp_get, wp_bind, fds_get hopen.held, wp_ofExcept]
  simp only
  rw [wp_failIf, if_neg (by rw [hopen.mode]; exact Bool.noConfusion), hopen.kind]
  simp only
  refine wp_mono (writeRegular_rewrites hopen hplain hfits) ?_ (fun _ _ hfalse => hfalse)
  rintro count vfs' ⟨hcount, hopen', hrewrites, hplain'⟩
  rw [hopen.held]
  simp only
  rw [wp_bind]
  refine wp_whenInvalidated fun cache => (wp_pure _).mpr ?_
  exact ⟨hcount, ⟨hopen'.held, hopen'.kind, hopen'.notSocket, hopen'.mode, hopen'.there⟩,
    ⟨hrewrites.fds, hrewrites.contents⟩, hplain'⟩

include hopen in
theorem writevRegular_rewrites {offset : Nat} {buffers : List (List UInt8)} (hplain : vfs.PlainAt entry offset)
    (hinside : offset ≤ data.length) (hfits : offset + buffers.flatten.length < u64Limit) :
    wp (writevRegular host fd buffers)
      (fun count vfs' => count = some buffers.flatten.length ∧
        OpenToWrite host vfs' fd entry (overlayBytes data offset buffers.flatten) ∧
        Rewrites host vfs vfs' entry.inodeId (overlayBytes data offset buffers.flatten) ∧
        vfs'.PlainAt entry (offset + buffers.flatten.length)) (fun _ _ => False) vfs := by
  obtain ⟨node, hnode, _⟩ := hopen.there
  have hsum : (buffers.map List.length).sum = buffers.flatten.length := List.length_flatten.symm
  unfold writevRegular
  rw [wp_bind, wp_get, wp_bind, fds_get hopen.held, wp_ofExcept]
  simp only
  rw [wp_failIf, if_neg (by rw [hopen.mode]; exact Bool.noConfusion), if_neg (not_not.mpr hopen.kind), wp_bind,
    lookup_entry hnode, wp_ofExcept]
  simp only
  unfold vectoredLen
  rw [hsum, if_pos (by omega), wp_bind, wp_ofExcept]
  simp only
  by_cases hempty : buffers.flatten = []
  · rw [hempty, overlayBytes_nil hinside, List.length_nil, if_pos rfl, wp_pure]
    exact ⟨rfl, hopen, hopen.unchanged, hplain⟩
  · rw [if_neg (List.length_pos_iff.mpr hempty).ne', wp_bind]
    refine wp_mono (writeRegular_rewrites hopen hplain hfits) ?_ (fun _ _ hfalse => hfalse)
    rintro count vfs' ⟨rfl, hopen', hrewrites, hplain'⟩
    rw [wp_bind]
    refine wp_whenInvalidated fun cache => (wp_pure _).mpr ?_
    exact ⟨rfl, ⟨hopen'.held, hopen'.kind, hopen'.notSocket, hopen'.mode, hopen'.there⟩,
      ⟨hrewrites.fds, hrewrites.contents⟩, hplain'⟩

end Writes

theorem sharedFile_openToWrite (host : Host) : OpenToWrite host sharedFile 0 sharedEntry [] := by
  have hany : (sharedFile.tree.inodes.get? 2).any
      (fun node => node.kind = .file ∧ node.deferredHostPath = none ∧ node.data = []) = true := by decide +kernel
  obtain ⟨node, hnode, hfacts⟩ := (Option.any_eq_true _ _).mp hany
  obtain ⟨hkind, hloaded, hdata⟩ := of_decide_eq_true hfacts
  refine ⟨rfl, rfl, fun _ h => (nomatch h), rfl, node, hnode, hkind, ?_⟩
  unfold PathNode.content
  rw [hloaded]
  exact congrArg some hdata

theorem sharedFile_plain : sharedFile.PlainAt sharedEntry 0 := ⟨rfl, rfl⟩

end VirtualFileSystem

end Mcr.Vfs
