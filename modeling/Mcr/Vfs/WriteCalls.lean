import Mcr.Vfs.Invalidate
import Mcr.Vfs.Quiet

/-!
# The calls that change a node in place

Writes, truncations and changes of metadata leave the identity of a node alone. A write that is refused
after the bytes were fetched from the host has fetched them all the same.
-/

namespace Mcr.Vfs

open Prog

/-! ### Changes of a node -/

theorem permissions_and_sIfmt (kind mode : UInt32) : (kind ||| (mode &&& 0o7777)) &&& sIfmt = kind &&& sIfmt :=
  or_and_mask (by decide) kind mode

namespace MetadataSidecar

theorem setMode_kindBits (m : MetadataSidecar) (mode : UInt32) :
    (m.setMode mode).attr.kindBits = m.attr.kindBits := by
  show ((m.attr.mode &&& sIfmt) ||| (mode &&& 0o7777)) &&& sIfmt = m.attr.mode &&& sIfmt
  have hself : sIfmt &&& sIfmt = sIfmt := by decide
  rw [permissions_and_sIfmt, UInt32.and_assoc, hself]

end MetadataSidecar

namespace PathNode

variable {node : PathNode}

/-- The bytes of the node have come from the host, and nothing else has changed. -/
def Loaded (host : Host) (node node' : PathNode) : Prop :=
  ∃ path data, node.deferredHostPath = some path ∧ host.readFile path = some data ∧
    node' = { node with data := data, deferredHostPath := none }

theorem materialize_run (host : Host) (node : PathNode) :
    materializeDeferredContent host node = match node.deferredHostPath with
      | none => (.ok (), node)
      | some path =>
        match host.readFile path with
        | none => (.error .noEntry, node)
        | some data => (.ok (), { node with data := data, deferredHostPath := none }) :=
  rfl

theorem materialize_spec (host : Host) :
    wp (materializeDeferredContent host) (fun _ node' => node' = node ∨ Loaded host node node')
      (fun error node' => error = .noEntry ∧ node' = node ∧
        ∃ path, node.deferredHostPath = some path ∧ host.readFile path = none) node := by
  have hrun := materialize_run host node
  cases hpath : node.deferredHostPath with
  | none =>
      rw [hpath] at hrun
      exact wp_of_run hrun (Or.inl rfl)
  | some path =>
      rw [hpath] at hrun
      cases hdata : host.readFile path with
      | none =>
          simp only [hdata] at hrun
          exact wp_of_error hrun ⟨rfl, rfl, path, rfl, hdata⟩
      | some data =>
          simp only [hdata] at hrun
          exact wp_of_run hrun (Or.inr ⟨path, data, hpath, hdata, rfl⟩)

theorem Loaded.same {host : Host} {node' : PathNode} (h : Loaded host node node') : Same node node' := by
  obtain ⟨path, data, _, _, rfl⟩ := h
  exact ⟨rfl, rfl, rfl⟩

theorem setLen_spec (host : Host) (length : Nat) :
    wp (setLen host length) (fun _ node' => Same node node')
      (fun error node' => node' = node ∧ (error = .invalidPath ∧ node.kind ≠ .file ∨
        error = .noEntry ∧ ∃ path, node.deferredHostPath = some path ∧ host.readFile path = none)) node := by
  unfold setLen
  rw [wp_bind, wp_get, wp_bind]
  apply wp_check
  · intro error herror
    refine ⟨rfl, Or.inl ⟨failIf_eq_error herror, fun hkind => ?_⟩⟩
    rw [failIf, if_neg (not_not.mpr hkind)] at herror
    cases herror
  intro _ _
  rw [wp_bind]
  refine wp_mono (materialize_spec host) ?_ (fun _ _ h => ⟨h.2.1, Or.inr ⟨h.1, h.2.2⟩⟩)
  rintro _ loaded (rfl | hloaded)
  · exact (wp_modify _).mpr ⟨rfl, rfl, rfl⟩
  · exact (wp_modify _).mpr (hloaded.same.trans ⟨rfl, rfl, rfl⟩)

theorem writeAt_spec (host : Host) (offset : Nat) (bytes : List UInt8) :
    wp (writeAt host offset bytes) (fun count node' => count = bytes.length ∧ Same node node')
      (fun error node' => (node' = node ∨ Loaded host node node') ∧
        (error = .noEntry → ∃ path, node.deferredHostPath = some path ∧ host.readFile path = none)) node := by
  unfold writeAt
  rw [wp_bind, wp_get, wp_bind]
  apply wp_check
  · intro error herror
    rw [failIf_eq_error herror]
    exact ⟨Or.inl rfl, fun h => nomatch h⟩
  intro _ _
  rw [wp_bind]
  refine wp_mono (materialize_spec host) ?_ (fun _ _ h => ⟨Or.inl h.2.1, fun _ => h.2.2⟩)
  rintro _ loaded hloaded
  rw [wp_bind]
  apply wp_check
  · intro error herror
    rw [failIf_eq_error herror]
    exact ⟨hloaded, fun h => nomatch h⟩
  intro _ _
  rw [wp_bind, wp_modify, wp_pure]
  refine ⟨rfl, ?_⟩
  rcases hloaded with rfl | hloaded
  · exact ⟨rfl, rfl, rfl⟩
  · exact hloaded.same.trans ⟨rfl, rfl, rfl⟩

theorem incrementLinkCount_run (node : PathNode) :
    incrementLinkCount node = match node.metadata.incrementLinkCount with
      | .ok metadata => (.ok (), { node with metadata := metadata })
      | .error error => (.error error, node) :=
  rfl

theorem incrementLinkCount_spec :
    wp incrementLinkCount (fun _ node' => Same node node' ∧ node'.data = node.data ∧
        node'.deferredHostPath = node.deferredHostPath) (fun _ node' => node' = node) node := by
  have hrun := incrementLinkCount_run node
  cases hmetadata : node.metadata.incrementLinkCount with
  | error error =>
      rw [hmetadata] at hrun
      exact wp_of_error hrun rfl
  | ok metadata =>
      rw [hmetadata] at hrun
      unfold MetadataSidecar.incrementLinkCount at hmetadata
      split at hmetadata
      · cases hmetadata
        exact wp_of_run hrun ⟨⟨rfl, rfl, rfl⟩, rfl, rfl⟩
      · cases hmetadata

end PathNode

namespace PathTree

variable {tree : PathTree} {i : InodeId} {node : PathNode}

def setNode (tree : PathTree) (i : InodeId) (node : PathNode) : PathTree :=
  { tree with inodes := tree.inodes.insert i node }

theorem setNode_self (hnode : tree.inodes.get? i = some node) : tree.setNode i node = tree := by
  have hinodes : tree.inodes.insert i node = tree.inodes := by
    apply SortedMap.ext_get?
    intro j
    rw [SortedMap.get?_insert]
    split
    · rename_i heq
      rw [heq, hnode]
    · rfl
  rw [setNode, hinodes]

theorem isDir_setNode {node' : PathNode} (hnode : tree.inodes.get? i = some node) (hsame : node.Same node')
    {path : GuestPath} (hdir : tree.IsDir path) : (tree.setNode i node').IsDir path := by
  obtain ⟨d, hlookup, hd⟩ := hdir
  obtain ⟨j, hj, hjn⟩ := lookupPath_eq_some.mp hlookup
  by_cases heq : j = i
  · subst heq
    rw [hnode] at hjn
    cases hjn
    exact ⟨node', lookupPath_eq_some.mpr ⟨j, hj, by simp [setNode]⟩, hsame.isDirectory.trans hd⟩
  · exact ⟨d, lookupPath_eq_some.mpr ⟨j, hj, by simp [setNode, heq, hjn]⟩, hd⟩

theorem wp_withInode {α : Type} {change : PathNode.Change α} {Q : α → PathTree → Prop}
    {E : VfsError → PathTree → Prop} (hnode : tree.inodes.get? i = some node) :
    wp (withInode i change) Q E tree ↔
      wp change (fun a node' => Q a (tree.setNode i node')) (fun e node' => E e (tree.setNode i node')) node := by
  have hrun : withInode i change tree = ((change node).1, tree.setNode i (change node).2) := by
    unfold withInode
    rw [hnode]
    rfl
  rw [wp_iff, wp_iff, hrun]
  rcases hchange : change node with ⟨r, node'⟩
  cases r <;> simp

theorem wp_withInode_none {α : Type} {change : PathNode.Change α} {Q : α → PathTree → Prop}
    {E : VfsError → PathTree → Prop} (hnone : tree.inodes.get? i = none) (h : E .noEntry tree) :
    wp (withInode i change) Q E tree := by
  have hrun : withInode i change tree = (.error .noEntry, tree) := by
    unfold withInode
    rw [hnone]
  exact wp_of_error hrun h

theorem withPath_eq {α : Type} {path : GuestPath} (change : PathNode.Change α)
    (hi : tree.nodes.get? path = some i) : withPath path change tree = withInode i change tree := by
  unfold withPath
  rw [hi]

theorem wp_withPath {α : Type} {path : GuestPath} {change : PathNode.Change α} {Q : α → PathTree → Prop}
    {E : VfsError → PathTree → Prop} (hi : tree.nodes.get? path = some i) :
    wp (withPath path change) Q E tree ↔ wp (withInode i change) Q E tree := by
  rw [wp_iff, wp_iff, withPath_eq change hi]

end PathTree

/-! ### Writes -/

namespace VirtualFileSystem

variable {vfs : VirtualFileSystem} {host : Host}

/-- A node has changed in place, and the cache does not know of it yet. -/
structure Rewritten (vfs vfs' : VirtualFileSystem) (i : InodeId) (node node' : PathNode) : Prop where
  before : vfs.tree.inodes.get? i = some node
  same : node.Same node'
  tree : vfs'.tree = vfs.tree.setNode i node'
  cache : vfs'.cache = vfs.cache
  fds : vfs'.fds = vfs.fds

/-- The state a refused write leaves. -/
def Refused (host : Host) (vfs vfs' : VirtualFileSystem) (i : InodeId) : Prop :=
  vfs' = vfs ∨ ∃ node node', vfs.tree.inodes.get? i = some node ∧ PathNode.Loaded host node node' ∧
    vfs' = setTree (vfs.tree.setNode i node') vfs

theorem Refused.effect {vfs' : VirtualFileSystem} {i : InodeId} (h : Refused host vfs vfs' i) (op : Op) :
    Effect host vfs vfs' op := by
  rcases h with rfl | ⟨node, node', hnode, ⟨path, data, hpath, hdata, rfl⟩, rfl⟩
  · exact .unchanged rfl
  · exact .loaded hnode hpath hdata rfl rfl rfl

theorem Rewritten.invalidated {vfs' vfs'' : VirtualFileSystem} {i : InodeId} {node node' : PathNode} {op : Op}
    (h : Rewritten vfs vfs' i node node')
    (hcontent : Writes vfs op i ∨ node'.content host = node.content host)
    (hvfs : vfs'' = { vfs' with cache := vfs'.cache.invalidateInode i }) : Effect host vfs vfs'' op := by
  subst hvfs
  refine .rewrite h.before h.same hcontent h.tree ?_ h.fds
  rw [← h.cache]
  exact vfs'.cache.invalidateInode_drops i

theorem Rewritten.finish {vfs' : VirtualFileSystem} {i j : InodeId} {node node' : PathNode} {op : Op}
    (h : Rewritten vfs vfs' i node node')
    (hcontent : Writes vfs op i ∨ node'.content host = node.content host) (hj : j = i) :
    wp (invalidateInodeCache j) (fun _ vfs'' => Effect host vfs vfs'' op)
      (fun _ vfs'' => Effect host vfs vfs'' op) vfs' := by
  rw [invalidateInodeCache, onCache, wp_modify, hj]
  exact h.invalidated hcontent rfl

theorem Rewritten.finish_count {vfs' : VirtualFileSystem} {i : InodeId} {node node' : PathNode}
    (h : Rewritten vfs vfs' i node node') (op : Op) (hwrites : Writes vfs op i) {c : Prop} [Decidable c]
    (hempty : ¬ c → WritesNothing vfs op) :
    wp (when c (invalidateInodeCache i)) (fun _ vfs'' => Effect host vfs vfs'' op)
      (fun _ vfs'' => Effect host vfs vfs'' op) vfs' := by
  rw [wp_when]
  split
  · rw [invalidateInodeCache, onCache, wp_modify]
    exact h.invalidated (Or.inl hwrites) rfl
  · exact .emptyWrite (hempty ‹_›) hwrites h.before h.same h.tree h.cache h.fds

theorem writeNode_spec (i : InodeId) (offset : Nat) (bytes : List UInt8) :
    wp (onTree (PathTree.withInode i (PathNode.writeAt host offset bytes)))
      (fun count vfs' => count = bytes.length ∧ ∃ node node', Rewritten vfs vfs' i node node')
      (fun _ vfs' => Refused host vfs vfs' i) vfs := by
  rw [onTree, wp_zoom]
  cases hnode : vfs.tree.inodes.get? i with
  | none => exact PathTree.wp_withInode_none hnode (Or.inl rfl)
  | some node =>
      rw [PathTree.wp_withInode hnode]
      refine wp_mono (PathNode.writeAt_spec host offset bytes) ?_ ?_
      · rintro count node' ⟨hcount, hsame⟩
        exact ⟨hcount, node, node', hnode, hsame, rfl, rfl, rfl⟩
      · rintro error node' ⟨rfl | hloaded, _⟩
        · left
          show setTree (vfs.tree.setNode i node') vfs = vfs
          rw [PathTree.setNode_self hnode]
          rfl
        · exact Or.inr ⟨node, node', hnode, hloaded, rfl⟩

theorem setLenNode_spec (i : InodeId) (length : Nat) :
    wp (onTree (PathTree.withInode i (PathNode.setLen host length)))
      (fun _ vfs' => ∃ node node', Rewritten vfs vfs' i node node') (fun _ vfs' => vfs' = vfs) vfs := by
  rw [onTree, wp_zoom]
  cases hnode : vfs.tree.inodes.get? i with
  | none => exact PathTree.wp_withInode_none hnode rfl
  | some node =>
      rw [PathTree.wp_withInode hnode]
      refine wp_mono (PathNode.setLen_spec host length) ?_ ?_
      · intro _ node' hsame
        exact ⟨node, node', hnode, hsame, rfl, rfl, rfl⟩
      · rintro _ node' ⟨rfl, _⟩
        show setTree (vfs.tree.setNode i node') vfs = vfs
        rw [PathTree.setNode_self hnode]
        rfl

theorem writeRegular_spec (entry : FdEntry) (bytes : List UInt8) :
    wp (writeRegular host entry bytes)
      (fun count vfs' => count = bytes.length ∧ ∃ node node', Rewritten vfs vfs' entry.inodeId node node')
      (fun _ vfs' => Refused host vfs vfs' entry.inodeId) vfs := by
  unfold writeRegular
  rw [wp_bind, wp_get, wp_bind]
  apply wp_check
  · intro _ _
    exact Or.inl rfl
  intro node _
  rw [wp_bind]
  refine wp_mono (writeNode_spec entry.inodeId _ bytes) ?_ (fun _ _ h => h)
  rintro count vfs' ⟨hcount, node, node', h⟩
  rw [wp_bind, onFiles, wp_zoom, Files.setDescription, wp_modify, wp_pure]
  exact ⟨hcount, node, node', h.before, h.same, h.tree, h.cache, h.fds⟩

theorem fdsWrite_spec (fd : Fd) (bytes : List UInt8) :
    wp (fdsWrite host fd bytes)
      (fun count vfs' => ∃ entry, vfs.fds.entries.get? fd = some entry ∧
        (entry.file.kind = .regular ∧ count = bytes.length ∧
            (∃ node node', Rewritten vfs vfs' entry.inodeId node node') ∨
          entry.file.kind ≠ .regular ∧ vfs'.core = vfs.core))
      (fun _ vfs' => vfs'.core = vfs.core ∨ ∃ i, Refused host vfs vfs' i) vfs := by
  unfold fdsWrite
  rw [wp_bind, wp_get, wp_bind]
  apply wp_check
  · intro _ _
    exact Or.inl rfl
  intro entry hentry
  unfold FdTable.get at hentry
  rw [okOr_eq_ok] at hentry
  rw [wp_bind]
  apply wp_check
  · intro _ _
    exact Or.inl rfl
  intro _ _
  have hother : ∀ {call : Call Nat}, Keeps core call → entry.file.kind ≠ .regular →
      wp call
        (fun count vfs' => ∃ entry, vfs.fds.entries.get? fd = some entry ∧
          (entry.file.kind = .regular ∧ count = bytes.length ∧
              (∃ node node', Rewritten vfs vfs' entry.inodeId node node') ∨
            entry.file.kind ≠ .regular ∧ vfs'.core = vfs.core))
        (fun _ vfs' => vfs'.core = vfs.core ∨ ∃ i, Refused host vfs vfs' i) vfs := by
    intro call hkeeps hkind
    exact wp_mono (hkeeps.wp vfs) (fun _ _ hcore => ⟨entry, hentry, Or.inr ⟨hkind, hcore⟩⟩)
      (fun _ _ hcore => Or.inl hcore)
  cases hkind : entry.file.kind with
  | regular =>
      refine wp_mono (writeRegular_spec entry bytes) ?_ (fun _ _ h => Or.inr ⟨_, h⟩)
      rintro count vfs' ⟨hcount, hrewritten⟩
      exact ⟨entry, hentry, Or.inl ⟨hkind, hcount, hrewritten⟩⟩
  | directory => exact hother (.throw _) (by simp [hkind])
  | symlink => exact hother (.throw _) (by simp [hkind])
  | dev kind =>
      cases kind with
      | stdin => exact hother (.throw _) (by simp [hkind])
      | null => exact hother (.pure _) (by simp [hkind])
      | zero => exact hother (.pure _) (by simp [hkind])
      | urandom => exact hother (.pure _) (by simp [hkind])
      | stdout => exact hother (.pure _) (by simp [hkind])
      | stderr => exact hother (.pure _) (by simp [hkind])
  | pipeRead => exact hother (.throw _) (by simp [hkind])
  | pipeWrite => exact hother (onFiles_keeps (Files.pipeWrite_keeps host entry bytes)) (by simp [hkind])
  | socket => exact hother (.throw _) (by simp [hkind])
  | epoll => exact hother (.throw _) (by simp [hkind])
  | eventfd => exact hother (onFiles_keeps (Files.eventfdWrite_keeps entry bytes)) (by simp [hkind])
  | stdio kind => exact hother (onFiles_keeps (Files.stdioWrite_keeps kind bytes)) (by simp [hkind])

def HasEffect {α : Type} (host : Host) (vfs : VirtualFileSystem) (op : Op) (call : Call α) : Prop :=
  wp call (fun _ vfs' => Effect host vfs vfs' op) (fun _ vfs' => Effect host vfs vfs' op) vfs

theorem IsQuiet.hasEffect {α : Type} {op : Op} {call : Call α} (h : IsQuiet call vfs) (hop : op.isQuiet = true) :
    HasEffect host vfs op call :=
  wp_mono h (fun _ _ hquiet => .quiet hop hquiet.tree hquiet.cache hquiet.fds)
    (fun _ _ hquiet => .quiet hop hquiet.tree hquiet.cache hquiet.fds)

theorem write_effect (fd : Fd) (bytes : List UInt8) :
    HasEffect host vfs (.write fd bytes) (write host fd bytes) := by
  unfold HasEffect write
  rw [wp_bind, wp_get, wp_bind]
  refine wp_mono (fdsWrite_spec fd bytes) ?_ ?_
  · rintro count vfs' ⟨entry, hentry, hwritten⟩
    rw [hentry, wp_bind]
    rcases hwritten with ⟨hkind, rfl, node, node', h⟩ | ⟨hkind, hcore⟩
    · refine wp_mono (h.finish_count (.write fd _) ⟨entry, hentry, rfl⟩ ?_) (fun _ _ heffect => (wp_pure _).mpr heffect)
        (fun _ _ heffect => heffect)
      intro hcount
      refine ⟨List.eq_nil_of_length_eq_zero ?_, entry, hentry, hkind⟩
      by_contra hne
      exact hcount ⟨Nat.pos_of_ne_zero hne, hkind⟩
    · rw [wp_when, if_neg (fun h => hkind h.2), wp_pure]
      exact .unchanged hcore
  · rintro _ vfs' (hcore | ⟨i, hrefused⟩)
    · exact .unchanged hcore
    · exact hrefused.effect _

theorem pwrite_effect (fd : Fd) (offset : Nat) (bytes : List UInt8) :
    HasEffect host vfs (.pwrite fd offset bytes) (pwrite host fd offset bytes) := by
  unfold HasEffect pwrite
  rw [wp_bind, wp_get, wp_bind]
  apply wp_check
  · intro _ _
    exact .unchanged rfl
  intro entry hentry
  unfold FdTable.get at hentry
  rw [okOr_eq_ok] at hentry
  rw [wp_bind]
  apply wp_check
  · intro _ _
    exact .unchanged rfl
  intro _ _
  rw [wp_bind]
  apply wp_check
  · intro _ _
    exact .unchanged rfl
  intro _ hkind
  rw [failIf_eq_ok, not_not] at hkind
  rw [wp_bind]
  refine wp_mono (writeNode_spec entry.inodeId offset bytes) ?_ (fun _ _ h => h.effect _)
  rintro count vfs' ⟨rfl, node, node', h⟩
  rw [wp_bind]
  refine wp_mono (h.finish_count (.pwrite fd offset bytes) ⟨entry, hentry, rfl⟩ ?_) (fun _ _ heffect => (wp_pure _).mpr heffect)
    (fun _ _ heffect => heffect)
  intro hcount
  exact ⟨List.eq_nil_of_length_eq_zero (by omega), entry, hentry, hkind⟩

theorem writevRegular_effect (fd : Fd) (buffers : List (List UInt8)) :
    HasEffect host vfs (.writevRegular fd buffers) (writevRegular host fd buffers) := by
  unfold HasEffect writevRegular
  rw [wp_bind, wp_get, wp_bind]
  apply wp_check
  · intro _ _
    exact .unchanged rfl
  intro entry hentry
  unfold FdTable.get at hentry
  rw [okOr_eq_ok] at hentry
  rw [wp_bind]
  apply wp_check
  · intro _ _
    exact .unchanged rfl
  intro _ _
  split
  · exact (wp_pure _).mpr (.unchanged rfl)
  rw [wp_bind]
  apply wp_check
  · intro _ _
    exact .unchanged rfl
  intro _ _
  rw [wp_bind]
  apply wp_check
  · intro _ _
    exact .unchanged rfl
  intro total htotal
  split
  · exact (wp_pure _).mpr (.unchanged rfl)
  rename_i hne
  rw [wp_bind]
  refine wp_mono (writeRegular_spec entry buffers.flatten) ?_ (fun _ _ h => h.effect _)
  rintro count vfs' ⟨rfl, node, node', h⟩
  -- the bytes are as many as the buffers have together, which is not zero
  have hpos : 0 < buffers.flatten.length := by
    unfold vectoredLen at htotal
    split at htotal
    · cases htotal
      rw [List.length_flatten]
      exact Nat.pos_of_ne_zero hne
    · nomatch htotal
  rw [wp_bind]
  refine wp_mono (h.finish_count (.writevRegular fd buffers) ⟨entry, hentry, rfl⟩ ?_)
    (fun _ _ heffect => (wp_pure _).mpr heffect) (fun _ _ heffect => heffect)
  intro hcount
  exact absurd hpos hcount

theorem writableFile_ok {fd : Fd} {i : InodeId} (h : vfs.writableFile fd = .ok i) :
    ∃ entry, vfs.fds.entries.get? fd = some entry ∧ entry.inodeId = i := by
  obtain ⟨entry, hentry, h⟩ := except_bind_eq_ok.mp h
  obtain ⟨_, _, h⟩ := except_bind_eq_ok.mp h
  obtain ⟨_, _, h⟩ := except_bind_eq_ok.mp h
  cases h
  unfold FdTable.get at hentry
  rw [okOr_eq_ok] at hentry
  exact ⟨entry, hentry, rfl⟩

theorem ftruncate_effect (fd : Fd) (length : Nat) :
    HasEffect host vfs (.ftruncate fd length) (ftruncate host fd length) := by
  unfold HasEffect ftruncate
  rw [wp_bind, wp_get, wp_bind]
  apply wp_check
  · intro _ _
    exact .unchanged rfl
  intro i hi
  rw [wp_bind]
  refine wp_mono (setLenNode_spec i length) ?_ (fun _ _ h => h ▸ .unchanged rfl)
  rintro _ vfs' ⟨node, node', h⟩
  exact h.finish (Or.inl (writableFile_ok hi)) rfl

theorem fallocate_effect (fd : Fd) (offset length : Nat) :
    HasEffect host vfs (.fallocate fd offset length) (fallocate host fd offset length) := by
  unfold HasEffect fallocate
  rw [wp_bind]
  apply wp_check
  · intro _ _
    exact .unchanged rfl
  intro _ _
  rw [wp_bind, wp_get, wp_bind]
  apply wp_check
  · intro _ _
    exact .unchanged rfl
  intro i hi
  rw [wp_bind]
  apply wp_check
  · intro _ _
    exact .unchanged rfl
  intro node _
  rw [wp_when]
  split
  · rw [wp_bind]
    refine wp_mono (setLenNode_spec i (offset + length)) ?_ (fun _ _ h => h ▸ .unchanged rfl)
    rintro _ vfs' ⟨node, node', h⟩
    exact h.finish (Or.inl (writableFile_ok hi)) rfl
  · exact .unchanged rfl

/-! ### Metadata -/

theorem metadata_rewritten {i : InodeId} {node : PathNode} (metadata : MetadataSidecar)
    (hnode : vfs.tree.inodes.get? i = some node) (hkind : metadata.attr.kindBits = node.attr.kindBits) :
    Rewritten vfs (setTree (vfs.tree.setNode i { node with metadata := metadata }) vfs) i node
      { node with metadata := metadata } :=
  ⟨hnode, ⟨rfl, rfl, hkind⟩, rfl, rfl, rfl⟩

theorem changeMetadata_effect (hwf : vfs.tree.Wf) (op : Op) (path : String)
    {change : MetadataSidecar → MetadataSidecar}
    (hkind : ∀ metadata, (change metadata).attr.kindBits = metadata.attr.kindBits) :
    HasEffect host vfs op (changeMetadata path change) := by
  unfold HasEffect changeMetadata
  rw [wp_bind, wp_get, wp_bind]
  apply wp_check
  · intro _ _
    exact .unchanged rfl
  rintro ⟨place, node⟩ hfound
  obtain ⟨resolved, _, hfound⟩ := except_bind_eq_ok.mp hfound
  obtain ⟨node', hnode, hfound⟩ := except_bind_eq_ok.mp hfound
  cases hfound
  rw [okOr_eq_ok] at hnode
  obtain ⟨i, hi, hnode⟩ := PathTree.lookupPath_eq_some.mp hnode
  have hid := hwf.ids i node hnode
  simp only
  rw [wp_bind, onTree, wp_zoom, PathTree.wp_withPath hi, PathTree.wp_withInode hnode, wp_modify]
  exact (metadata_rewritten (change node.metadata) hnode (hkind _)).finish (Or.inr rfl) hid

theorem utimensat_effect (dirfd : Fd) (path : String) (times : FileTimes) (flags : UInt32) :
    HasEffect host vfs (.utimensat dirfd path times flags) (utimensat dirfd path times flags) := by
  unfold HasEffect utimensat
  rw [wp_bind, wp_get, wp_bind]
  apply wp_check
  · intro _ _
    exact .unchanged rfl
  intro i _
  rw [wp_bind, onTree, wp_zoom]
  cases hnode : vfs.tree.inodes.get? i with
  | none => exact PathTree.wp_withInode_none hnode (.unchanged rfl)
  | some node =>
      rw [PathTree.wp_withInode hnode, wp_modify]
      exact (metadata_rewritten (node.metadata.setTimes times) hnode rfl).finish (Or.inr rfl) rfl

end VirtualFileSystem

end Mcr.Vfs
