import Mcr.Vfs.NameCalls

/-!
# The call `openat`

An open may make the file, empty it, and then still fail: under `O_DIRECTORY`, or because no descriptor
is left. The cache is brought up to date only at the end, when the descriptor is in the table.
-/

namespace Mcr.Vfs

open Prog

namespace VirtualFileSystem

variable {vfs : VirtualFileSystem} {host : Host}

/-- The node `openat` makes. -/
def newFile (i : InodeId) (mode : UInt32) : PathNode := ⟨i, .file, ⟨.regular i mode 0⟩, [], none⟩

def withFile (vfs : VirtualFileSystem) (path : GuestPath) (mode : UInt32) : VirtualFileSystem :=
  setTree (vfs.tree.allocated.addNode path (newFile vfs.tree.nextInodeId mode)) vfs

theorem openCreate_spec (hwf : vfs.tree.Wf) {flags : OpenFlags} {resolved : ResolvedPath}
    (hresolved : resolved.inode = vfs.tree.nodes.get? resolved.guestPath)
    (hfresh : flags.create = true → vfs.tree.FreshId) (mode : UInt32) :
    wp (openCreate resolved flags mode)
      (fun created vfs' => (∃ i, vfs.tree.nodes.get? resolved.guestPath = some i) ∧ created = none ∧ vfs' = vfs ∨
        flags.create = true ∧ vfs.tree.nodes.get? resolved.guestPath = none ∧
          ∃ dir name parent mode, resolved.guestPath = dir ++ [name] ∧ vfs.tree.IsDir dir ∧
            vfs.tree.nodes.get? dir = some parent ∧ created = some parent ∧
            vfs' = vfs.withFile resolved.guestPath mode)
      (fun _ vfs' => vfs' = vfs) vfs := by
  unfold openCreate
  by_cases hmissing : resolved.inode.isNone
  · rw [if_pos hmissing, wp_bind]
    apply wp_check
    · intro _ _
      rfl
    intro _ hcreate
    rw [failIf_eq_ok] at hcreate
    have hcreate : flags.create = true := by simpa using hcreate
    have hnew : vfs.tree.nodes.get? resolved.guestPath = none := by
      rw [← hresolved]
      simpa using hmissing
    rw [wp_bind, wp_get, wp_bind]
    apply wp_check
    · intro _ _
      rfl
    intro _ hparent
    obtain ⟨dir, name, hpath, hdir⟩ := PathTree.ensureParentDir_ok hparent
    obtain ⟨parent, hparent⟩ := hdir.named
    rw [hpath] at hnew ⊢
    rw [wp_bind]
    apply wp_check
    · intro _ _
      rfl
    intro _ _
    unfold createResolvedFile
    rw [wp_bind, wp_bind, wp_get, wp_bind]
    apply wp_check
    · intro _ _
      rfl
    intro _ _
    rw [onTree, wp_zoom]
    refine wp_of_run (PathTree.newNode_run (newFile · (mode &&& ~~~vfs.umask)) hnew) ?_
    have hwf' : (vfs.withFile (dir ++ [name]) (mode &&& ~~~vfs.umask)).tree.Wf :=
      PathTree.addFresh_wf hwf hdir hnew rfl (hfresh hcreate)
    have hkept : (vfs.withFile (dir ++ [name]) (mode &&& ~~~vfs.umask)).tree.nodes.get? dir = some parent := by
      show (vfs.tree.allocated.addNode _ _).nodes.get? dir = some parent
      rw [PathTree.Wf.addNode_nodes, if_neg (dir_ne dir name)]
      exact hparent
    rw [wp_bind, wp_get, wp_pure]
    exact Or.inr ⟨hcreate, hnew, dir, name, parent, _, rfl, hdir, hparent,
      (parentInode_eq hwf' dir name).trans hkept, rfl⟩
  · rw [if_neg hmissing, wp_bind]
    apply wp_check
    · intro _ _
      rfl
    intro _ _
    rw [wp_pure]
    have hsome : ∃ i, vfs.tree.nodes.get? resolved.guestPath = some i := by
      rw [← hresolved, ← Option.isSome_iff_exists, Option.isSome_iff_ne_none]
      simpa using hmissing
    exact Or.inl ⟨hsome, rfl, rfl⟩

variable (vfs) in
theorem openInsert_spec {path : GuestPath} (flags : OpenFlags) {i : InodeId} (node : PathNode)
    (hi : vfs.tree.nodes.get? path = some i) (createdParent : Option InodeId) (truncates : Bool) :
    wp (do
        let vfs ← .get
        let node ← .ofExcept (okOr (vfs.tree.lookupPath path) .noEntry)
        let inode : Inode := ⟨node.inodeId, inodeBackendForPathNode node vfs.rootfs.hostRoot path⟩
        let fd ← onFiles (Files.insertOpen ⟨inode, fileKindOf node.kind⟩ flags (some path))
        invalidateIfSome createdParent
        invalidateIfSome (if truncates then some node.inodeId else none)
        pure fd)
      (fun _ vfs' => vfs'.tree = vfs.tree.setNode i node ∧ Opened vfs vfs' path node ∧
        vfs'.cache = ((createdParent.toList ++ if truncates then [node.inodeId] else []).foldl
          VfsCache.invalidateInode vfs.cache))
      (fun _ vfs' => vfs' = setTree (vfs.tree.setNode i node) vfs ∧ NoFreeFd vfs)
      (setTree (vfs.tree.setNode i node) vfs) := by
  have hlookup : (setTree (vfs.tree.setNode i node) vfs).tree.lookupPath path = some node :=
    PathTree.lookupPath_eq_some.mpr ⟨i, hi, by simp [setTree, PathTree.setNode]⟩
  rw [wp_bind, wp_get, hlookup, wp_bind]
  refine (wp_ofExcept _).mpr ?_
  show wp (do
    let fd ← onFiles _
    _) _ _ _
  rw [wp_bind, onFiles, wp_zoom]
  refine wp_mono (Files.insertLowest_spec _ flags.cloexec flags (some path)) ?_ (fun _ _ h => ⟨h.1 ▸ rfl, h.2⟩)
  rintro fd _ ⟨hfd, rfl⟩
  have hopened : ∀ vfs' : VirtualFileSystem,
      vfs'.fds.entries = vfs.fds.entries.insert fd ⟨⟨⟨node.inodeId, inodeBackendForPathNode node
        vfs.rootfs.hostRoot path⟩, fileKindOf node.kind⟩, vfs.shared.nextDescription, some path⟩ →
      Opened vfs vfs' path node := by
    intro vfs' hentries
    exact ⟨fd, _, (FdTable.nextFdFrom_ok hfd).2.2, hentries, rfl, rfl, rfl, rfl⟩
  rw [wp_bind]
  cases createdParent with
  | none =>
      cases truncates with
      | true =>
          simp only [invalidateIfSome, invalidateInodeCache, onCache, if_true, wp_bind, wp_pure, wp_modify]
          exact ⟨rfl, hopened _ rfl, rfl⟩
      | false =>
          simp only [invalidateIfSome, if_false, Bool.false_eq_true, wp_bind, wp_pure]
          exact ⟨rfl, hopened _ rfl, rfl⟩
  | some parent =>
      cases truncates with
      | true =>
          simp only [invalidateIfSome, invalidateInodeCache, onCache, if_true, wp_bind, wp_pure, wp_modify]
          exact ⟨rfl, hopened _ rfl, rfl⟩
      | false =>
          simp only [invalidateIfSome, invalidateInodeCache, onCache, if_false, Bool.false_eq_true, wp_bind, wp_pure,
            wp_modify]
          exact ⟨rfl, hopened _ rfl, rfl⟩

/-- Whether an open empties the file it finds. -/
def truncates (flags : OpenFlags) (node : PathNode) : Bool :=
  flags.truncate && flags.canWrite && decide (node.kind = .file)

structure Emptied (flags : OpenFlags) (node node' : PathNode) : Prop where
  same : node.Same node'
  kept : truncates flags node = false → node' = node

theorem openTail_spec {path : GuestPath} {flags : OpenFlags} {createdParent : Option InodeId} {i : InodeId}
    {node : PathNode} (hi : vfs.tree.nodes.get? path = some i) (hnode : vfs.tree.inodes.get? i = some node) :
    wp (do
        let vfs ← .get
        let node ← .ofExcept (okOr (vfs.tree.lookupPath path) .noEntry)
        .ofExcept (openCheck node flags createdParent.isSome)
        let truncates := flags.truncate && flags.canWrite && decide (node.kind = .file)
        .when (truncates = true) (onTree (PathTree.withPath path (PathNode.truncate host)))
        let vfs ← .get
        let node ← .ofExcept (okOr (vfs.tree.lookupPath path) .noEntry)
        let inode : Inode := ⟨node.inodeId, inodeBackendForPathNode node vfs.rootfs.hostRoot path⟩
        let fd ← onFiles (Files.insertOpen ⟨inode, fileKindOf node.kind⟩ flags (some path))
        invalidateIfSome createdParent
        invalidateIfSome (if truncates then some node.inodeId else none)
        pure fd)
      (fun _ vfs' => ∃ node', Emptied flags node node' ∧ vfs'.tree = vfs.tree.setNode i node' ∧
        Opened vfs vfs' path node' ∧
        vfs'.cache = ((createdParent.toList ++ if truncates flags node then [node'.inodeId] else []).foldl
          VfsCache.invalidateInode vfs.cache))
      (fun _ vfs' => vfs' = vfs ∧ ((∃ error, openCheck node flags createdParent.isSome = .error error) ∨
          node.deferredHostPath ≠ none) ∨
        ∃ node', Emptied flags node node' ∧ vfs' = setTree (vfs.tree.setNode i node') vfs ∧ NoFreeFd vfs)
      vfs := by
  have hlookup : vfs.tree.lookupPath path = some node := PathTree.lookupPath_eq_some.mpr ⟨i, hi, hnode⟩
  have hself : setTree (vfs.tree.setNode i node) vfs = vfs := by
    rw [PathTree.setNode_self hnode]
    rfl
  rw [wp_bind, wp_get, hlookup, wp_bind]
  refine (wp_ofExcept _).mpr ?_
  show wp (do
    .ofExcept (openCheck node flags createdParent.isSome)
    _) _ _ _
  rw [wp_bind]
  apply wp_check
  · intro error herror
    exact Or.inl ⟨rfl, Or.inl ⟨error, herror⟩⟩
  intro _ _
  show wp (do
    .when (truncates flags node = true) (onTree (PathTree.withPath path (PathNode.truncate host)))
    _) _ _ _
  rw [wp_bind, wp_when]
  by_cases htrunc : truncates flags node = true
  · rw [if_pos htrunc, onTree, wp_zoom, PathTree.wp_withPath hi, PathTree.wp_withInode hnode]
    refine wp_mono (PathNode.setLen_spec host 0) ?_ ?_
    · intro _ node' hsame
      have hemptied : Emptied flags node node' := ⟨hsame, fun h => absurd (htrunc.symm.trans h) (by simp)⟩
      refine wp_mono (openInsert_spec _ flags _ hi createdParent (truncates flags node)) ?_ ?_
      · rintro _ vfs' ⟨htree, hopened, hcache⟩
        exact ⟨node', hemptied, htree, hopened, hcache⟩
      · rintro _ vfs' ⟨hvfs, hfull⟩
        exact Or.inr ⟨node', hemptied, hvfs, hfull⟩
    · rintro error node' ⟨rfl, ⟨_, hkind⟩ | ⟨_, hostPath, hdeferred, _⟩⟩
      · simp [truncates, hkind] at htrunc
      · exact Or.inl ⟨hself, Or.inr (by simp [hdeferred])⟩
  · have hemptied : Emptied flags node node := ⟨.refl node, fun _ => rfl⟩
    have hinsert := openInsert_spec vfs flags node hi createdParent (truncates flags node)
    rw [hself] at hinsert
    rw [if_neg htrunc]
    refine wp_mono hinsert ?_ ?_
    · rintro _ vfs' ⟨htree, hopened, hcache⟩
      exact ⟨node, hemptied, htree, hopened, hcache⟩
    · rintro _ vfs' ⟨hvfs, hfull⟩
      exact Or.inr ⟨node, hemptied, hvfs.trans hself.symm, hfull⟩

theorem truncates_eq_true {flags : OpenFlags} {node : PathNode} :
    truncates flags node = true ↔ flags.truncate = true ∧ flags.canWrite = true ∧ node.kind = .file := by
  simp [truncates, and_assoc]

variable (host) in
theorem openExisting_effect {dirfd : Fd} {name : String} {flags : OpenFlags} (mode : UInt32)
    {path : GuestPath} {i : InodeId} {node : PathNode} (hplace : OpensAt vfs dirfd name flags path)
    (hi : vfs.tree.nodes.get? path = some i) (hnode : vfs.tree.inodes.get? i = some node)
    (hid : node.inodeId = i) :
    (∀ vfs', (∃ node', Emptied flags node node' ∧ vfs'.tree = vfs.tree.setNode i node' ∧
        Opened vfs vfs' path node' ∧
        vfs'.cache = ((Option.toList none ++ if truncates flags node then [node'.inodeId] else []).foldl
          VfsCache.invalidateInode vfs.cache)) → Effect host vfs vfs' (.openat dirfd name flags mode)) ∧
      ∀ vfs' node', Emptied flags node node' → vfs' = setTree (vfs.tree.setNode i node') vfs → NoFreeFd vfs →
        Effect host vfs vfs' (.openat dirfd name flags mode) := by
  have hself := PathTree.setNode_self hnode
  by_cases htrunc : truncates flags node = true
  · obtain ⟨htruncate, hwrite, hkind⟩ := truncates_eq_true.mp htrunc
    refine ⟨?_, ?_⟩
    · rintro vfs' ⟨node', hemptied, htree, hopened, hcache⟩
      refine .truncated hplace ⟨htruncate, hwrite⟩ hi hnode hkind hemptied.same htree (Or.inr ⟨?_, hopened⟩)
      rw [hcache, if_pos htrunc, hemptied.same.inodeId, hid]
      exact vfs.cache.invalidateInode_drops i
    · rintro vfs' node' hemptied rfl hfull
      exact .truncated hplace ⟨htruncate, hwrite⟩ hi hnode hkind hemptied.same rfl (Or.inl ⟨hfull, rfl, rfl⟩)
  · have hfalse : truncates flags node = false := by simpa using htrunc
    refine ⟨?_, ?_⟩
    · rintro vfs' ⟨node', hemptied, htree, hopened, hcache⟩
      rw [hemptied.kept hfalse] at htree hopened
      rw [hself] at htree
      rw [hfalse] at hcache
      exact .opened hplace (PathTree.lookupPath_eq_some.mpr ⟨i, hi, hnode⟩) htree hcache hopened
    · rintro vfs' node' hemptied rfl hfull
      rw [hemptied.kept hfalse, hself]
      exact .unchanged rfl

theorem addNode_setNode (tree : PathTree) (path : GuestPath) {node node' : PathNode}
    (hid : node'.inodeId = node.inodeId) :
    (tree.addNode path node).setNode node.inodeId node' = tree.addNode path node' := by
  have hinsert : (tree.inodes.insert node.inodeId node).insert node.inodeId node' =
      tree.inodes.insert node.inodeId node' := by
    apply SortedMap.ext_get?
    intro j
    simp only [SortedMap.get?_insert]
    split <;> rfl
  unfold PathTree.addNode PathTree.indexChild PathTree.setNode
  rw [hid]
  split
  · simp only [hinsert]
  · simp only [hinsert]

theorem newFile_kindBits (i : InodeId) (mode : UInt32) : (newFile i mode).attr.kindBits = sIfreg := by
  show (sIfreg ||| (mode &&& 0o7777)) &&& sIfmt = sIfreg
  rw [permissions_and_sIfmt]
  decide

theorem openCheck_newFile {i : InodeId} {mode : UInt32} {flags : OpenFlags} {error : VfsError}
    (h : openCheck (newFile i mode) flags true = .error error) : flags.directory = true := by
  have hdir : (newFile i mode).attr.isDirectory = false := by
    rw [LinuxFileAttr.isDirectory, newFile_kindBits]
    decide
  have hsymlink : (newFile i mode).attr.isSymlink = false := by
    rw [LinuxFileAttr.isSymlink, newFile_kindBits]
    decide
  by_contra hdirectory
  have hok : openCheck (newFile i mode) flags true = .ok () := by
    simp [openCheck, failIf, hdirectory, hsymlink, hdir, pure, Except.pure]
  rw [hok] at h
  cases h

theorem openNew_effect {dirfd : Fd} {path : String} {flags : OpenFlags} (mode : UInt32) {mode' : UInt32}
    {dir : GuestPath} {name : String} {parent : InodeId} (hplace : OpensAt vfs dirfd path flags (dir ++ [name]))
    (hcreate : flags.create = true) (hdir : vfs.tree.IsDir dir) (hparent : vfs.tree.nodes.get? dir = some parent)
    (hnew : vfs.tree.nodes.get? (dir ++ [name]) = none) (hfresh : vfs.tree.FreshId)
    {node : PathNode} (hemptied : Emptied flags (newFile vfs.tree.nextInodeId mode') node)
    {vfs' : VirtualFileSystem}
    (htree : vfs'.tree = (vfs.withFile (dir ++ [name]) mode').tree.setNode vfs.tree.nextInodeId node)
    (hend : (flags.directory = true ∨ NoFreeFd vfs) ∧ vfs'.cache = vfs.cache ∧ vfs'.fds = vfs.fds ∨
      Opened vfs vfs' (dir ++ [name]) node ∧
        vfs'.cache = ((Option.toList (some parent) ++
          if truncates flags (newFile vfs.tree.nextInodeId mode') then [node.inodeId] else []).foldl
            VfsCache.invalidateInode vfs.cache)) :
    Effect host vfs vfs' (.openat dirfd path flags mode) := by
  have hid : node.inodeId = vfs.tree.nextInodeId := hemptied.same.inodeId
  refine .created hplace hcreate hparent hdir hnew hid hfresh hemptied.same.kind ?_ ?_
  · rw [htree]
    exact addNode_setNode vfs.tree.allocated (dir ++ [name]) hid
  · rcases hend with hfailed | ⟨hopened, hcache⟩
    · exact Or.inl hfailed
    · refine Or.inr ⟨?_, hopened⟩
      rw [hcache]
      split
      · exact (vfs.cache.invalidateTwo_drops parent node.inodeId).mono (by simp)
      · exact vfs.cache.invalidateInode_drops parent

theorem openat_effect (hwf : vfs.tree.Wf) (dirfd : Fd) (path : String) (flags : OpenFlags) (mode : UInt32)
    (hfresh : flags.create = true → vfs.tree.FreshId) :
    HasEffect host vfs (.openat dirfd path flags mode) (openat host dirfd path flags mode) := by
  unfold HasEffect openat
  rw [wp_bind, wp_get, wp_bind]
  apply wp_check
  · intro _ _
    exact .unchanged rfl
  intro resolved hresolved
  rw [wp_bind]
  refine wp_mono (openCreate_spec hwf (resolveAt_nodes hwf hresolved) hfresh mode) ?_
    (fun _ _ h => h ▸ .unchanged rfl)
  rintro createdParent _ (⟨⟨i, hi⟩, rfl, rfl⟩ | ⟨hcreate, hnew, dir, name, parent, mode', hpath, hdir, hparent, rfl, rfl⟩)
  · obtain ⟨node, hnode⟩ := hwf.named _ i hi
    obtain ⟨hok, hfull⟩ := openExisting_effect host mode ⟨resolved, hresolved, rfl⟩ hi hnode
      (hwf.ids i node hnode)
    refine wp_mono (openTail_spec hi hnode) (fun _ vfs' h => hok vfs' h) ?_
    rintro _ vfs' (⟨rfl, _⟩ | ⟨node', hemptied, hvfs, hfree⟩)
    · exact .unchanged rfl
    · exact hfull vfs' node' hemptied hvfs hfree
  · have hplace : OpensAt vfs dirfd path flags (dir ++ [name]) := ⟨resolved, hresolved, hpath⟩
    rw [hpath] at hnew ⊢
    have hi : (vfs.withFile (dir ++ [name]) mode').tree.nodes.get? (dir ++ [name]) =
        some vfs.tree.nextInodeId := by
      show (vfs.tree.allocated.addNode _ _).nodes.get? _ = _
      rw [PathTree.Wf.addNode_nodes, if_pos rfl]
      rfl
    have hnode : (vfs.withFile (dir ++ [name]) mode').tree.inodes.get? vfs.tree.nextInodeId =
        some (newFile vfs.tree.nextInodeId mode') := by
      show (vfs.tree.allocated.addNode _ _).inodes.get? _ = _
      rw [PathTree.Wf.addNode_inodes]
      exact if_pos rfl
    have hmade := fun (node : PathNode) hemptied (vfs' : VirtualFileSystem) htree =>
      @openNew_effect vfs host dirfd path flags mode mode' dir name parent hplace hcreate hdir hparent hnew
        (hfresh hcreate) node hemptied vfs' htree
    refine wp_mono (openTail_spec hi hnode) ?_ ?_
    · rintro _ vfs' ⟨node', hemptied, htree, hopened, hcache⟩
      exact hmade node' hemptied vfs' htree (Or.inr ⟨hopened, hcache⟩)
    · rintro _ vfs' (⟨rfl, hrefused⟩ | ⟨node', hemptied, rfl, hfree⟩)
      · have hdirectory : flags.directory = true := by
          rcases hrefused with ⟨error, herror⟩ | hdeferred
          · exact openCheck_newFile herror
          · exact absurd rfl hdeferred
        exact hmade _ ⟨.refl _, fun _ => rfl⟩ _ (PathTree.setNode_self hnode).symm
          (Or.inl ⟨Or.inl hdirectory, rfl, rfl⟩)
      · exact hmade node' hemptied _ rfl (Or.inl ⟨Or.inr hfree, rfl, rfl⟩)

end VirtualFileSystem

end Mcr.Vfs
