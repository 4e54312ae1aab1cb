import Mcr.Vfs.Listing

/-!
# The cache and the tree

What the cache holds of an inode is what a query would find in the tree, as long as every call that
changes an inode or the names below a directory drops what the cache holds of it. Some do not: a write of
no bytes, an `openat` that makes or empties a file and then fails, and a mount that fails half way.
`CoherentStep` keeps these out. The generation in the key of a file grows with every change of its bytes, as
long as the counter does not wrap.
-/

namespace Mcr.Vfs

open Prog

/-- What a node keeps when the cache keeps what it holds of it. -/
structure PathNode.Untouched (host : Host) (node node' : PathNode) : Prop where
  attr : node'.attr = node.attr
  data : node.deferredHostPath = none → node'.deferredHostPath = none ∧ node'.data = node.data
  content : node'.content host = node.content host

theorem PathNode.Untouched.refl (host : Host) (node : PathNode) : node.Untouched host node :=
  ⟨rfl, fun h => ⟨h, rfl⟩, rfl⟩

theorem VfsCache.Drops.refl (cache : VfsCache) : cache.Drops cache [] where
  metadata := fun _ _ h => ⟨List.not_mem_nil, h⟩
  listing := fun _ _ h => ⟨List.not_mem_nil, h⟩
  smallRead := fun _ _ h => ⟨List.not_mem_nil, h⟩
  generation := fun i => by
    refine ⟨0, Nat.zero_le _, ?_, fun h => nomatch h⟩
    rw [VfsCache.keyGeneration, Nat.add_zero, Nat.mod_mod]

namespace VirtualFileSystem

variable {vfs vfs' : VirtualFileSystem} {host : Host}

/-- The call opens a file that it has to make or to empty first, and then fails. -/
def StopsOpening (vfs : VirtualFileSystem) : Op → Prop
  | .openat dirfd path flags _ => ∃ place, OpensAt vfs dirfd path flags place ∧
    (flags.create = true ∧ vfs.tree.nodes.get? place = none ∧ (flags.directory = true ∨ vfs.NoFreeFd) ∨
      flags.truncate = true ∧ flags.canWrite = true ∧ vfs.NoFreeFd ∧
        ∃ node, vfs.tree.lookupPath place = some node ∧ node.kind = .file)
  | _ => False

/-- A mount finds nothing in its way. -/
def MountFits (vfs : VirtualFileSystem) : Op → Prop
  | .mountMinimalDevfs => vfs.tree.DevfsFits
  | .mountMinimalProcfs => vfs.tree.ProcfsFits
  | _ => True

/-- A call after which the cache still fits the tree. -/
structure CoherentStep (vfs : VirtualFileSystem) (op : Op) : Prop where
  sane : vfs.Sane op
  writes : ¬ vfs.WritesNothing op
  opens : ¬ vfs.StopsOpening op
  mounts : vfs.MountFits op
  room : ∀ i, vfs.cache.keyGeneration i + 3 < u64Limit

structure Coherent (vfs : VirtualFileSystem) : Prop where
  metadata : ∀ i attr, vfs.cache.metadataOf i = some attr →
    ∃ node, vfs.tree.inodes.get? i = some node ∧ node.attr = attr
  listing : ∀ i entries, vfs.cache.directoryListing i = some entries →
    (∃ node, vfs.tree.inodes.get? i = some node) ∧
      ∀ path, vfs.tree.nodes.get? path = some i → staticDirectoryEntries vfs.tree path = .ok entries
  smallRead : ∀ i data, vfs.cache.smallRead i = some data →
    ∃ node, vfs.tree.inodes.get? i = some node ∧ node.deferredHostPath = none ∧ node.data = data

/-- The cache drops what it holds of `ids`, and the other inodes are as they were. -/
structure Settled (host : Host) (vfs vfs' : VirtualFileSystem) (ids : List InodeId) : Prop where
  cache : vfs.cache.Drops vfs'.cache ids
  nodes : ∀ i node, i ∉ ids → vfs.tree.inodes.get? i = some node →
    ∃ node', vfs'.tree.inodes.get? i = some node' ∧ node.Untouched host node'
  listings : ∀ i node, i ∉ ids → vfs.tree.inodes.get? i = some node → ∀ q, vfs'.tree.nodes.get? q = some i →
    ∃ p, vfs.tree.nodes.get? p = some i ∧
      staticDirectoryEntries vfs'.tree q = staticDirectoryEntries vfs.tree p

theorem Settled.coherent {ids : List InodeId} (h : Settled host vfs vfs' ids) (hcoherent : vfs.Coherent) :
    vfs'.Coherent := by
  constructor
  · intro i attr hattr
    obtain ⟨hi, hattr⟩ := h.cache.metadata i attr hattr
    obtain ⟨node, hnode, rfl⟩ := hcoherent.metadata i attr hattr
    obtain ⟨node', hnode', huntouched⟩ := h.nodes i node hi hnode
    exact ⟨node', hnode', huntouched.attr⟩
  · intro i entries hentries
    obtain ⟨hi, hentries⟩ := h.cache.listing i entries hentries
    obtain ⟨⟨node, hnode⟩, hlisting⟩ := hcoherent.listing i entries hentries
    obtain ⟨node', hnode', _⟩ := h.nodes i node hi hnode
    refine ⟨⟨node', hnode'⟩, fun q hq => ?_⟩
    obtain ⟨p, hp, heq⟩ := h.listings i node hi hnode q hq
    rw [heq]
    exact hlisting p hp
  · intro i data hdata
    obtain ⟨hi, hdata⟩ := h.cache.smallRead i data hdata
    obtain ⟨node, hnode, hloaded, rfl⟩ := hcoherent.smallRead i data hdata
    obtain ⟨node', hnode', huntouched⟩ := h.nodes i node hi hnode
    exact ⟨node', hnode', huntouched.data hloaded⟩

theorem Settled.of_inodes {ids ids' : List InodeId} (hcache : vfs.cache.Drops vfs'.cache ids)
    (hnodes : ∀ i, i ∉ ids → vfs.tree.inodes.get? i ≠ none → vfs'.tree.inodes.get? i = vfs.tree.inodes.get? i)
    (hlistings : SameListings vfs.tree vfs'.tree ids')
    (hids : ∀ i ∈ ids', i ∈ ids ∨ vfs.tree.inodes.get? i = none) : Settled host vfs vfs' ids where
  cache := hcache
  nodes := fun i node hi hnode =>
    ⟨node, (hnodes i hi (by rw [hnode]; exact Option.some_ne_none node)).trans hnode, .refl host node⟩
  listings := by
    intro i node hi hnode q hq
    refine hlistings i (fun hmem => ?_) q hq
    rcases hids i hmem with hmem | hnone
    · exact hi hmem
    · rw [hnode] at hnone
      nomatch hnone

theorem Settled.setNode (hwf : vfs.tree.Wf) {i : InodeId} {node node' : PathNode}
    (hnode : vfs.tree.inodes.get? i = some node) (hsame : node.Same node')
    (htree : vfs'.tree = vfs.tree.setNode i node') (hcache : vfs.cache.Drops vfs'.cache [i]) :
    Settled host vfs vfs' [i] := by
  refine .of_inodes hcache ?_ (htree ▸ SameListings.setNode hwf hnode hsame [i]) (fun _ h => Or.inl h)
  intro j hj _
  rw [htree]
  simp [PathTree.setNode, List.mem_singleton.not.mp hj]

theorem Settled.addNode (hwf : vfs.tree.Wf) {dir : GuestPath} {name : String} {parent : InodeId} {node : PathNode}
    (hparent : vfs.tree.nodes.get? dir = some parent) (hid : node.inodeId = vfs.tree.nextInodeId)
    (hfresh : vfs.tree.FreshId) (htree : vfs'.tree = vfs.tree.allocated.addNode (dir ++ [name]) node)
    (hcache : vfs.cache.Drops vfs'.cache [parent]) : Settled host vfs vfs' [parent] := by
  have hfree : vfs.tree.inodes.get? node.inodeId = none := by
    rw [hid]
    exact hfresh
  have hinodes : ∀ i, vfs.tree.inodes.get? i ≠ none → vfs'.tree.inodes.get? i = vfs.tree.inodes.get? i := by
    intro i hi
    rw [htree, PathTree.Wf.addNode_inodes, if_neg]
    · rfl
    · rintro rfl
      exact hi hfree
  have hnodes : ∀ q, vfs'.tree.nodes.get? q =
      if q = dir ++ [name] then some node.inodeId else vfs.tree.nodes.get? q := by
    intro q
    rw [htree, PathTree.Wf.addNode_nodes]
    rfl
  have hindexed : vfs'.tree.Indexed := by
    rw [htree]
    exact PathTree.Indexed.addNode (show vfs.tree.allocated.Indexed from hwf.indexed) _ _
  have hlistings : SameListings vfs.tree vfs'.tree [parent, node.inodeId] := by
    refine SameListings.newName hwf hindexed hparent hnodes fun p i hi => ?_
    obtain ⟨n, hn⟩ := hwf.named p i hi
    exact .of_eq (hinodes i (by rw [hn]; exact Option.some_ne_none n))
  refine .of_inodes hcache (fun i _ => hinodes i) hlistings fun i hi => ?_
  simp only [List.mem_cons, List.not_mem_nil, or_false] at hi ⊢
  rcases hi with rfl | rfl
  · exact Or.inl rfl
  · exact Or.inr hfree

theorem dropName_settles (hwf : vfs.tree.Wf) {dir : GuestPath} {name : String} {parent i : InodeId}
    (hparent : vfs.tree.nodes.get? dir = some parent)
    (hleaf : ∀ c, vfs.tree.nodes.get? (dir ++ [name] ++ [c]) = none) :
    SameListings vfs.tree (dropLink i (setTree (vfs.tree.dropPath (dir ++ [name])) vfs)).tree [parent] ∧
      ∀ j, j ≠ i → (dropLink i (setTree (vfs.tree.dropPath (dir ++ [name])) vfs)).tree.inodes.get? j =
        vfs.tree.inodes.get? j := by
  have hwf' : (setTree (vfs.tree.dropPath (dir ++ [name])) vfs).tree.Wf := hwf.dropPath hleaf
  refine ⟨(SameListings.dropPath hwf hparent).trans (SameListings.dropLink hwf' i [parent]), fun j hj => ?_⟩
  rw [dropLink_get_ne i hj]
  show (vfs.tree.dropPath (dir ++ [name])).inodes.get? j = _
  rw [PathTree.Wf.dropPath_inodes]

theorem Settled.of_all (hcache : ∀ ids, vfs.cache.Drops vfs'.cache ids) :
    Settled host vfs vfs' vfs.tree.inodes.keys where
  cache := hcache _
  nodes := fun _ node hi hnode => absurd (SortedMap.mem_keys.mpr ⟨node, hnode⟩) hi
  listings := fun _ node hi hnode => absurd (SortedMap.mem_keys.mpr ⟨node, hnode⟩) hi

section Move

variable {old new : GuestPath} {oldInode : InodeId} {target : Option InodeId}

theorem RenameEnds.old_parent (hends : RenameEnds vfs old oldInode new target) (hwf : vfs.tree.Wf)
    (hapart : Subtree.Apart old new) : ∃ dir name, old = dir ++ [name] ∧ vfs.tree.IsDir dir := by
  rcases List.eq_nil_or_concat old with rfl | ⟨dir, name, rfl⟩
  · exact absurd (List.nil_prefix) hapart.1
  · rw [List.concat_eq_append] at hends ⊢
    exact ⟨dir, name, rfl, hwf.parents dir name oldInode hends.named⟩

theorem withoutTarget_cache (vfs : VirtualFileSystem) (new : GuestPath) (target : Option InodeId) :
    (vfs.withoutTarget new target).cache = vfs.cache := by
  cases target with
  | none => rfl
  | some i =>
      obtain ⟨inodes, heq⟩ := dropLink_eq (setTree (vfs.tree.dropPath new) vfs) i
      rw [withoutTarget, heq]
      rfl

theorem moved_settled (hwf : vfs.tree.Wf) (hends : RenameEnds vfs old oldInode new target)
    (hinside : ¬ (vfs.tree.IsDir old ∧ old <+: new)) (hvalid : Replaceable vfs oldInode new target) :
    ∃ ids, Settled host vfs (vfs.moved old new target) ids := by
  obtain ⟨hwf', hnodes, hdirs⟩ := withoutTarget_ready hwf hends hvalid
  obtain ⟨oldDir, oldName, rfl, holdDir⟩ := hends.old_parent hwf (hends.apart hwf hinside hvalid)
  obtain ⟨newDir, newName, rfl, hnewDir⟩ := hends.parent
  obtain ⟨oldParent, hold⟩ := holdDir.named
  obtain ⟨newParent, hnew⟩ := hnewDir.named
  have holdNe : oldDir ≠ newDir ++ [newName] := by
    rintro rfl
    have hbelow := nothing_below_target hwf hends hvalid (show [oldName] ≠ [] by simp)
    rw [hends.named] at hbelow
    nomatch hbelow
  have hold' : (vfs.withoutTarget (newDir ++ [newName]) target).tree.nodes.get? oldDir = some oldParent := by
    rw [hnodes, if_neg holdNe]
    exact hold
  have hnew' : (vfs.withoutTarget (newDir ++ [newName]) target).tree.nodes.get? newDir = some newParent := by
    rw [hnodes, if_neg (dir_ne newDir newName)]
    exact hnew
  have hfree := withoutTarget_free hwf hends hvalid
  have hids : [(vfs.withoutTarget (newDir ++ [newName]) target).parentInode (oldDir ++ [oldName]),
      (vfs.withoutTarget (newDir ++ [newName]) target).parentInode (newDir ++ [newName]), target].filterMap id =
        oldParent :: newParent :: target.toList := by
    rw [parentInode_eq hwf', parentInode_eq hwf', hold', hnew']
    cases target <;> rfl
  have hcleared : SameListings vfs.tree (vfs.withoutTarget (newDir ++ [newName]) target).tree
      (oldParent :: newParent :: target.toList) ∧ ∀ i, i ∉ target.toList →
        (vfs.withoutTarget (newDir ++ [newName]) target).tree.inodes.get? i = vfs.tree.inodes.get? i := by
    cases target with
    | none => exact ⟨.refl _ _, fun _ _ => rfl⟩
    | some j =>
        obtain ⟨hlistings, hinodes⟩ := dropName_settles hwf (i := j) hnew
          fun c => nothing_below_target hwf hends hvalid (by simp)
        exact ⟨hlistings.mono (by simp), fun i hi => hinodes i (by simpa using hi)⟩
  have hrelocated := PathTree.moveTree_relocated (oldDir ++ [oldName]) hfree
  have hinodes : ∀ i, (vfs.moved (oldDir ++ [oldName]) (newDir ++ [newName]) target).tree.inodes.get? i =
      (vfs.withoutTarget (newDir ++ [newName]) target).tree.inodes.get? i := by
    intro i
    exact congrArg (·.get? i) hrelocated.inodes
  refine ⟨oldParent :: newParent :: target.toList, .of_inodes ?_ ?_ (hcleared.1.trans ?_) (fun _ h => Or.inl h)⟩
  · show vfs.cache.Drops ((vfs.withoutTarget (newDir ++ [newName]) target).cache.invalidateInodes _) _
    rw [hids, withoutTarget_cache]
    exact VfsCache.invalidateInodes_drops _ _ (by cases target <;> simp)
  · intro i hi _
    rw [hinodes, hcleared.2 i (fun hmem => hi (by simp [hmem]))]
  · exact (SameListings.moveTree hwf' hfree hold' hnew').mono (by simp)

end Move

theorem Renamed.settled {flags : UInt32} {ends : Option (GuestPath × InodeId × ResolvedPath)}
    (h : Renamed vfs flags ends vfs') (hwf : vfs.tree.Wf) : ∃ ids, Settled host vfs vfs' ids := by
  cases h with
  | same => exact ⟨[], .of_inodes (.refl _) (fun _ _ _ => rfl) (.refl _ []) (fun _ h => (nomatch h))⟩
  | exchange => exact ⟨_, .of_all (VfsCache.invalidateAll_drops vfs.cache)⟩
  | move _ hends hinside hvalid => exact moved_settled hwf hends hinside hvalid

theorem Effect.settled {op : Op} (h : Effect host vfs vfs' op) (hwf : vfs.tree.Wf) (hstep : vfs.CoherentStep op) :
    vfs'.tree = vfs.tree ∧ Filled vfs vfs'.cache ∨ ∃ ids, Settled host vfs vfs' ids := by
  cases h with
  | unchanged hcore =>
      obtain ⟨htree, hcache, _⟩ := core_eq hcore
      exact Or.inl ⟨htree, hcache ▸ .same⟩
  | quiet _ htree hfilled => exact Or.inl ⟨htree, hfilled⟩
  | replaceFds hvfs =>
      subst hvfs
      exact Or.inl ⟨rfl, .same⟩
  | rewrite hnode hsame _ htree hcache => exact Or.inr ⟨_, .setNode hwf hnode hsame htree hcache⟩
  | @loaded _ i node path data hnode hpath hdata htree hcache =>
      refine Or.inr ⟨[], ?_, ?_, ?_⟩
      · rw [hcache]
        exact .refl _
      · intro j before _ hbefore
        by_cases hij : j = i
        · subst hij
          rw [hnode] at hbefore
          cases hbefore
          refine ⟨{ node with data := data, deferredHostPath := none }, by rw [htree]; simp, rfl, ?_, ?_⟩
          · intro hnone
            rw [hpath] at hnone
            cases hnone
          · simp [PathNode.content, hpath, hdata]
        · exact ⟨before, by rw [htree]; simp [hij, hbefore], .refl host before⟩
      · intro j _ _ _ q hq
        have hsame : node.Same { node with data := data, deferredHostPath := none } := ⟨rfl, rfl, rfl⟩
        have hlistings : SameListings vfs.tree vfs'.tree [] := htree ▸ SameListings.setNode hwf hnode hsame []
        exact hlistings j List.not_mem_nil q hq
  | emptyWrite hop => exact absurd hop hstep.writes
  | opened _ _ htree hcache => exact Or.inl ⟨htree, hcache ▸ .same⟩
  | truncated hplace hflags hi hnode hkind hsame htree hend =>
      rcases hend with ⟨hfull, _⟩ | ⟨hcache, _⟩
      · refine absurd ⟨_, hplace, Or.inr ⟨hflags.1, hflags.2, hfull, _, ?_, hkind⟩⟩ hstep.opens
        exact PathTree.lookupPath_eq_some.mpr ⟨_, hi, hnode⟩
      · exact Or.inr ⟨_, .setNode hwf hnode hsame htree hcache⟩
  | created hplace hcreate hparent _ hnew hid hfresh _ htree hend =>
      rcases hend with ⟨hfails, _⟩ | ⟨hcache, _⟩
      · exact absurd ⟨_, hplace, Or.inl ⟨hcreate, hnew, hfails⟩⟩ hstep.opens
      · exact Or.inr ⟨_, .addNode hwf hparent hid hfresh htree hcache⟩
  | @closed _ fd entry _ _ _ hend =>
      rcases hend with ⟨htree, hcache⟩ | ⟨hunnamed, htree, hcache⟩
      · exact Or.inl ⟨htree, hcache ▸ .same⟩
      · refine Or.inr ⟨_, .of_inodes hcache (fun i hi _ => ?_)
          (htree ▸ SameListings.removeInode hwf hunnamed [entry.inodeId]) (fun _ h => Or.inl h)⟩
        rw [htree]
        simp [PathTree.removeInode, List.mem_singleton.not.mp hi]
  | named hparent _ _ hid hfresh htree hcache => exact Or.inr ⟨_, .addNode hwf hparent hid hfresh htree hcache⟩
  | @linked _ dir name parent i node node' hparent hdir _ hnode _ hsame _ htree hcache =>
      have hset := SameListings.setNode hwf hnode hsame [parent, i]
      have hadd : SameListings (vfs.tree.setNode i node') vfs'.tree [parent, i] := by
        have hnodes : ∀ q, vfs'.tree.nodes.get? q =
            if q = dir ++ [name] then some i else (vfs.tree.setNode i node').nodes.get? q := by
          intro q
          rw [htree, PathTree.Wf.addLink_nodes]
          rfl
        refine SameListings.newName (hwf.setInode hnode hsame.inodeId hsame.isDirectory) ?_ hparent hnodes
          fun p j _ => ?_
        · rw [htree]
          exact PathTree.Indexed.addLink (show (vfs.tree.setNode i node').Indexed from hwf.indexed) _ _
        · rw [htree]
          exact .of_eq (by rw [PathTree.Wf.addLink_inodes])
      refine Or.inr ⟨_, .of_inodes hcache (fun j hj _ => ?_) (hset.trans hadd) (fun _ h => Or.inl h)⟩
      have hne : j ≠ i := fun heq => hj (by simp [heq])
      rw [htree, PathTree.Wf.addLink_inodes]
      simp [hne]
  | @unlinked _ dir name parent i hparent _ hleaf htree hcache =>
      obtain ⟨hlistings, hinodes⟩ := dropName_settles hwf (i := i) hparent hleaf
      refine Or.inr ⟨_, .of_inodes hcache (fun j hj _ => ?_) (htree ▸ hlistings) (by simp)⟩
      rw [htree]
      exact hinodes j (fun heq => hj (by simp [heq]))
  | renamed _ hrenamed => exact Or.inr (hrenamed.settled hwf)
  | built _ _ hcache => exact Or.inr ⟨_, .of_all hcache⟩
  | mountFailed hop hrun =>
      rcases hop with ⟨rfl, rfl⟩ | ⟨rfl, rfl⟩
      · have hmisfit := wp_error (PathTree.mountMinimalDevfs_fits hwf hstep.sane) hrun
        exact absurd hstep.mounts hmisfit.2
      · have hmisfit := wp_error (PathTree.mountMinimalProcfs_fits hwf hstep.sane) hrun
        exact absurd hstep.mounts hmisfit.2

/-! ### What queries put into the cache -/

theorem key_injective {cache : VfsCache} {i j : InodeId} (h : cache.key i = cache.key j) : i = j :=
  congrArg (fun key => (ofLex key).1) h

theorem Filled.coherent {cache : VfsCache} (h : Filled vfs cache) (hwf : vfs.tree.Wf) (hcoherent : vfs.Coherent) :
    Coherent { vfs with cache := cache } := by
  obtain ⟨hmetadata, hlisting, hsmall⟩ := hcoherent
  cases h with
  | same => exact ⟨hmetadata, hlisting, hsmall⟩
  | @metadata i node hnode =>
      refine ⟨fun j attr hattr => ?_, hlisting, hsmall⟩
      simp only [VfsCache.metadataOf, VfsCache.insertMetadata, SortedMap.get?_insert] at hattr
      split at hattr
      · rename_i hkey
        cases hattr
        rw [show j = i from key_injective hkey]
        exact ⟨node, hnode, rfl⟩
      · exact hmetadata j attr hattr
  | @listing path i entries hpath hentries =>
      refine ⟨hmetadata, fun j found hfound => ?_, hsmall⟩
      simp only [VfsCache.directoryListing, VfsCache.insertDirectoryListing, SortedMap.get?_insert] at hfound
      split at hfound
      · rename_i hkey
        cases hfound
        rw [show j = i from key_injective hkey]
        obtain ⟨node, hnode⟩ := hwf.named path i hpath
        refine ⟨⟨node, hnode⟩, fun p hp => ?_⟩
        -- the listing was made at a path of a directory, which has no other
        have hdir : node.isDirectory = true := by
          obtain ⟨_, hchildren, _⟩ := except_bind_eq_ok.mp hentries
          obtain ⟨node', hnode', hchildren⟩ := except_bind_eq_ok.mp hchildren
          obtain ⟨_, hcheck, _⟩ := except_bind_eq_ok.mp hchildren
          rw [okOr_eq_ok, PathTree.lookupPath_eq_some.mpr ⟨i, hpath, hnode⟩] at hnode'
          cases hnode'
          simpa using failIf_eq_ok.mp hcheck
        rw [hwf.unique p path i node hp hpath hnode hdir]
        exact hentries
      · exact hlisting j found hfound
  | @smallRead i node hnode hdata =>
      refine ⟨hmetadata, hlisting, fun j data hread => ?_⟩
      simp only [VfsCache.smallRead, VfsCache.insertSmallRead, SortedMap.get?_insert] at hread
      split at hread
      · rename_i hkey
        cases hread
        rw [show j = i from key_injective hkey]
        exact ⟨node, hnode, hdata, rfl⟩
      · exact hsmall j data hread
  | handles => exact ⟨hmetadata, hlisting, hsmall⟩
  | emptied =>
      exact ⟨fun _ _ h => (nomatch h), fun _ _ h => (nomatch h), fun _ _ h => (nomatch h)⟩

theorem Effect.coherent {op : Op} (h : Effect host vfs vfs' op) (hwf : vfs.tree.Wf) (hstep : vfs.CoherentStep op)
    (hcoherent : vfs.Coherent) : vfs'.Coherent := by
  rcases h.settled hwf hstep with ⟨htree, hfilled⟩ | ⟨ids, hsettled⟩
  · obtain ⟨hmetadata, hlisting, hsmall⟩ := hfilled.coherent hwf hcoherent
    exact ⟨htree ▸ hmetadata, htree ▸ hlisting, htree ▸ hsmall⟩
  · exact hsettled.coherent hcoherent

/-! ### The generation of a file -/

theorem Filled.keyGeneration {cache : VfsCache} (h : Filled vfs cache) (i : InodeId) :
    cache.keyGeneration i = vfs.cache.keyGeneration i := by
  cases h <;> rfl

/-- The generation of an inode never falls, and grows when its bytes or its attributes may have changed. -/
theorem Effect.generation {op : Op} (h : Effect host vfs vfs' op) (hwf : vfs.tree.Wf) (hstep : vfs.CoherentStep op)
    (i : InodeId) :
    vfs.cache.keyGeneration i ≤ vfs'.cache.keyGeneration i ∧
      (vfs'.cache.keyGeneration i = vfs.cache.keyGeneration i → ∀ node, vfs.tree.inodes.get? i = some node →
        ∃ node', vfs'.tree.inodes.get? i = some node' ∧ node.Untouched host node') := by
  rcases h.settled hwf hstep with ⟨htree, hfilled⟩ | ⟨ids, hsettled⟩
  · refine ⟨(hfilled.keyGeneration i).ge, fun _ node hnode => ⟨node, ?_, .refl host node⟩⟩
    rw [htree]
    exact hnode
  · obtain ⟨n, hn, hgeneration, hgrows⟩ := hsettled.cache.generation i
    have hroom := hstep.room i
    rw [Nat.mod_eq_of_lt (by omega)] at hgeneration
    refine ⟨by omega, fun heq node hnode => ?_⟩
    have hi : i ∉ ids := by
      intro hmem
      have := hgrows hmem
      omega
    exact hsettled.nodes i node hi hnode

theorem keyGeneration_room {cache : VfsCache} (hglobal : cache.globalGeneration < 9)
    (hsmall : ∀ e ∈ cache.inodeGenerations.entries, e.2 < 9) (i : InodeId) : cache.keyGeneration i + 3 < u64Limit := by
  have hlt : (cache.inodeGenerations.get? i).getD 0 < 9 := by
    cases hget : cache.inodeGenerations.get? i with
    | none => decide
    | some generation => exact hsmall _ (SortedMap.get?_eq_some_iff.mp hget)
  have hlimit : u64Limit = 18446744073709551616 := rfl
  have hmod := Nat.mod_le (cache.globalGeneration + (cache.inodeGenerations.get? i).getD 0) u64Limit
  unfold VfsCache.keyGeneration
  omega

end VirtualFileSystem

end Mcr.Vfs
