import Mcr.Vfs.OpenCall

/-!
# What a failed `openat` leaves

A failed open leaves the names, the nodes and the descriptors as they were, unless it fails after it has made or emptied
a file: under `O_DIRECTORY`, or because no descriptor is left.
-/

namespace Mcr.Vfs

open Prog

namespace VirtualFileSystem

variable {vfs : VirtualFileSystem} {host : Host}

/-- The same names, nodes and descriptors. -/
structure Untouched (vfs vfs' : VirtualFileSystem) : Prop where
  nodes : vfs'.tree.nodes = vfs.tree.nodes
  inodes : vfs'.tree.inodes = vfs.tree.inodes
  fds : vfs'.fds = vfs.fds
  shared : vfs'.shared = vfs.shared

theorem Untouched.refl (vfs : VirtualFileSystem) : Untouched vfs vfs := ⟨rfl, rfl, rfl, rfl⟩

structure MakesFile (vfs : VirtualFileSystem) (resolved : ResolvedPath) (flags : OpenFlags) : Prop where
  missing : resolved.inode = none
  create : flags.create = true
  parent : vfs.tree.ensureParentDir resolved.guestPath = .ok ()
  permitted : vfs.checkParentWritePermissions resolved.guestPath = .ok ()
  free : vfs.tree.nodes.get? resolved.guestPath = none

structure EmptiesFile (host : Host) (vfs : VirtualFileSystem) (resolved : ResolvedPath) (flags : OpenFlags) : Prop where
  found : resolved.inode.isSome = true
  shared : ¬(flags.create = true ∧ flags.exclusive = true)
  node : ∃ node node', vfs.tree.lookupPath resolved.guestPath = some node ∧ openCheck node flags false = .ok () ∧
    truncates flags node = true ∧ PathNode.truncate host node = (.ok (), node') ∧ node' ≠ node

def FailsLate (host : Host) (vfs : VirtualFileSystem) (dirfd : Fd) (path : String) (flags : OpenFlags) : Prop :=
  ∃ resolved, vfs.resolveAt dirfd path (nofollowOption flags.nofollow) = .ok resolved ∧
    (MakesFile vfs resolved flags ∧ (flags.directory = true ∨ NoFreeFd vfs) ∨
      EmptiesFile host vfs resolved flags ∧ NoFreeFd vfs)

def openInsert (path : GuestPath) (flags : OpenFlags) (createdParent : Option InodeId) (emptied : Bool) : Call Fd := do
  let vfs ← .get
  let node ← .ofExcept (okOr (vfs.tree.lookupPath path) .noEntry)
  let inode : Inode := ⟨node.inodeId, inodeBackendForPathNode node vfs.rootfs.hostRoot path⟩
  let fd ← onFiles (Files.insertOpen ⟨inode, fileKindOf node.kind⟩ flags (some path))
  invalidateIfSome createdParent
  invalidateIfSome (if emptied then some node.inodeId else none)
  pure fd

def openTail (host : Host) (path : GuestPath) (flags : OpenFlags) (createdParent : Option InodeId) : Call Fd := do
  let vfs ← .get
  let node ← .ofExcept (okOr (vfs.tree.lookupPath path) .noEntry)
  .ofExcept (openCheck node flags createdParent.isSome)
  .when (truncates flags node = true) (onTree (PathTree.withPath path (PathNode.truncate host)))
  openInsert path flags createdParent (truncates flags node)

theorem openat_eq (dirfd : Fd) (path : String) (flags : OpenFlags) (mode : UInt32) :
    openat host dirfd path flags mode = (do
      let vfs ← .get
      let resolved ← .ofExcept (vfs.resolveAt dirfd path (nofollowOption flags.nofollow))
      let createdParent ← openCreate resolved flags mode
      openTail host resolved.guestPath flags createdParent : Call Fd) := rfl

theorem openInsert_fails {path : GuestPath} (flags : OpenFlags) {node : PathNode}
    (hlookup : vfs.tree.lookupPath path = some node) (createdParent : Option InodeId) (emptied : Bool) :
    wp (openInsert path flags createdParent emptied) (fun _ _ => ¬NoFreeFd vfs)
      (fun _ vfs' => vfs' = vfs ∧ NoFreeFd vfs) vfs := by
  have hinvalidate : ∀ (inodeId : Option InodeId) {vfs' : VirtualFileSystem}, ¬NoFreeFd vfs →
      wp (invalidateIfSome inodeId) (fun _ _ => ¬NoFreeFd vfs) (fun _ vfs' => vfs' = vfs ∧ NoFreeFd vfs) vfs' := by
    intro inodeId vfs' hfree
    cases inodeId with
    | none => exact (wp_pure _).mpr hfree
    | some inodeId => exact (wp_modify _).mpr hfree
  rw [openInsert, wp_bind, wp_get, hlookup, wp_bind]
  refine (wp_ofExcept _).mpr ?_
  show wp (do
    let fd ← onFiles _
    _) _ _ _
  rw [wp_bind, onFiles, wp_zoom]
  refine wp_mono (Files.insertLowest_spec _ flags.cloexec flags (some path)) ?_ (fun _ _ h => ⟨h.1 ▸ rfl, h.2⟩)
  rintro fd _ ⟨hfd, rfl⟩
  have hfree : ¬NoFreeFd vfs := fun hfull => hfull fd hfd
  rw [wp_bind]
  refine wp_mono (hinvalidate _ hfree) (fun _ _ hfree => ?_) (fun _ _ h => h)
  rw [wp_bind]
  exact wp_mono (hinvalidate _ hfree) (fun _ _ hfree => (wp_pure _).mpr hfree) (fun _ _ h => h)

def Prepared (host : Host) (flags : OpenFlags) (node node' : PathNode) : Prop :=
  if truncates flags node = true then PathNode.truncate host node = (.ok (), node') else node' = node

/-- How the end of an open fails: before it changes the node, or with the node changed and no descriptor left. -/
def TailFails (host : Host) (vfs : VirtualFileSystem) (flags : OpenFlags) (created : Bool) (i : InodeId) (node : PathNode)
    (vfs' : VirtualFileSystem) : Prop :=
  vfs' = vfs ∧ (openCheck node flags created ≠ .ok () ∨ ∀ node', ¬Prepared host flags node node') ∨
    openCheck node flags created = .ok () ∧ NoFreeFd vfs ∧
      ∃ node', Prepared host flags node node' ∧ vfs' = setTree (vfs.tree.setNode i node') vfs

theorem openTail_fails {path : GuestPath} {flags : OpenFlags} {createdParent : Option InodeId} {i : InodeId}
    {node : PathNode} (hi : vfs.tree.nodes.get? path = some i) (hnode : vfs.tree.inodes.get? i = some node) :
    wp (openTail host path flags createdParent)
      (fun _ _ => openCheck node flags createdParent.isSome = .ok () ∧ ¬NoFreeFd vfs)
      (fun _ vfs' => TailFails host vfs flags createdParent.isSome i node vfs') vfs := by
  have hlookup : vfs.tree.lookupPath path = some node := PathTree.lookupPath_eq_some.mpr ⟨i, hi, hnode⟩
  have hself : setTree (vfs.tree.setNode i node) vfs = vfs := by
    rw [PathTree.setNode_self hnode]
    rfl
  rw [openTail, wp_bind, wp_get, hlookup, wp_bind]
  refine (wp_ofExcept _).mpr ?_
  show wp (do
    .ofExcept (openCheck node flags createdParent.isSome)
    _) _ _ _
  rw [wp_bind]
  apply wp_check
  · intro error herror
    exact Or.inl ⟨rfl, Or.inl fun hok => by cases herror.symm.trans hok⟩
  intro _ hcheck
  -- from the node as it is then, only the descriptor can be missing
  have hinsert : ∀ node', Prepared host flags node node' →
      wp (openInsert path flags createdParent (truncates flags node))
        (fun _ _ => openCheck node flags createdParent.isSome = .ok () ∧ ¬NoFreeFd vfs)
        (fun _ vfs' => TailFails host vfs flags createdParent.isSome i node vfs')
        (setTree (vfs.tree.setNode i node') vfs) := by
    intro node' hprepared
    have hlookup' : (setTree (vfs.tree.setNode i node') vfs).tree.lookupPath path = some node' :=
      PathTree.lookupPath_eq_some.mpr ⟨i, hi, by simp [setTree, PathTree.setNode]⟩
    exact wp_mono (openInsert_fails flags hlookup' createdParent (truncates flags node))
      (fun _ _ hfree => ⟨hcheck, hfree⟩) (fun _ _ h => Or.inr ⟨hcheck, h.2, node', hprepared, h.1⟩)
  rw [wp_bind, wp_when]
  by_cases htrunc : truncates flags node = true
  · rw [if_pos htrunc, onTree, wp_zoom, PathTree.wp_withPath hi, PathTree.wp_withInode hnode, wp_iff]
    refine ⟨fun _ node' hrun => hinsert node' ?_, fun error node' hrun => Or.inl ⟨?_, Or.inr fun other hprepared => ?_⟩⟩
    · rw [Prepared, if_pos htrunc]
      exact hrun
    · have hkept := wp_error (PathNode.setLen_spec host 0) hrun
      rw [hkept.1]
      exact hself
    · rw [Prepared, if_pos htrunc] at hprepared
      cases hrun.symm.trans hprepared
  · rw [if_neg htrunc]
    have hkept := hinsert node (by rw [Prepared, if_neg htrunc])
    rw [hself] at hkept
    exact hkept

variable (vfs) in
theorem lookupPath_withFile {dir path : GuestPath} (mode : UInt32) (hdir : vfs.tree.IsDir dir) (hne : dir ≠ path) :
    ((vfs.withFile path mode).tree.lookupPath dir).isSome = true := by
  obtain ⟨node, hlookup, -⟩ := hdir
  obtain ⟨i, hi, hnode⟩ := PathTree.lookupPath_eq_some.mp hlookup
  have hkept : (vfs.withFile path mode).tree.nodes.get? dir = some i := by
    show (vfs.tree.allocated.addNode _ _).nodes.get? dir = some i
    rw [PathTree.Wf.addNode_nodes, if_neg hne]
    exact hi
  have hsome : ((vfs.withFile path mode).tree.inodes.get? i).isSome = true := by
    show ((vfs.tree.allocated.addNode _ _).inodes.get? i).isSome = true
    rw [PathTree.Wf.addNode_inodes]
    split
    · rfl
    · exact Option.isSome_of_eq_some hnode
  rw [PathTree.lookupPath, hkept, Option.bind_some]
  exact hsome

/-- What an open does before its end: it finds a file, or makes one, or fails and has changed nothing. -/
theorem openCreate_fails (resolved : ResolvedPath) (flags : OpenFlags) (mode : UInt32) :
    wp (openCreate resolved flags mode)
      (fun created vfs' =>
        resolved.inode.isSome = true ∧ ¬(flags.create = true ∧ flags.exclusive = true) ∧ created = none ∧ vfs' = vfs ∨
          MakesFile vfs resolved flags ∧ created.isSome = true ∧ ∃ mode', vfs' = vfs.withFile resolved.guestPath mode')
      (fun _ vfs' => Untouched vfs vfs' ∧ ¬MakesFile vfs resolved flags ∧
        ¬(resolved.inode.isSome = true ∧ ¬(flags.create = true ∧ flags.exclusive = true))) vfs := by
  unfold openCreate
  cases hinode : resolved.inode with
  | some inode =>
      rw [Option.isNone_some, if_neg Bool.false_ne_true, wp_bind]
      have hmade : ¬MakesFile vfs resolved flags := fun hmakes => (nomatch hinode.symm.trans hmakes.missing)
      apply wp_check
      · intro error herror
        exact ⟨.refl vfs, hmade, fun h => h.2 (holds_of_failIf_error herror)⟩
      intro _ hnew
      rw [failIf_eq_ok] at hnew
      exact (wp_pure _).mpr (Or.inl ⟨rfl, hnew, rfl, rfl⟩)
  | none =>
      have hfound : ¬((none : Option InodeId).isSome = true ∧ ¬(flags.create = true ∧ flags.exclusive = true)) :=
        fun h => (nomatch h.1)
      rw [Option.isNone_none, if_pos rfl, wp_bind]
      apply wp_check
      · intro error herror
        exact ⟨.refl vfs, fun hmakes => (nomatch hmakes.create.symm.trans (holds_of_failIf_error herror)), hfound⟩
      intro _ hcreate
      rw [failIf_eq_ok, Bool.not_eq_false] at hcreate
      rw [wp_bind, wp_get, wp_bind]
      apply wp_check
      · intro error herror
        exact ⟨.refl vfs, fun hmakes => (nomatch hmakes.parent.symm.trans herror), hfound⟩
      intro _ hparent
      rw [wp_bind]
      apply wp_check
      · intro error herror
        exact ⟨.refl vfs, fun hmakes => (nomatch hmakes.permitted.symm.trans herror), hfound⟩
      intro _ hpermitted
      unfold createResolvedFile
      rw [wp_bind, wp_bind, wp_get, wp_bind, hparent]
      refine (wp_ofExcept _).mpr ?_
      show wp (onTree _) _ _ _
      rw [onTree, wp_zoom]
      cases hnew : vfs.tree.nodes.get? resolved.guestPath with
      | some taken =>
          refine wp_of_error (e := .alreadyExists) (t := vfs.tree.allocated) ?_ ?_
          · rw [run_bind_ok PathTree.allocateInodeId_run]
            have htaken : vfs.tree.allocated.nodes.get? resolved.guestPath = some taken := hnew
            simp [PathTree.insertPathNode, htaken, failIf, Prog.get, Prog.ofExcept, Prog.throw, bind]
          · exact ⟨⟨rfl, rfl, rfl, rfl⟩, fun hmakes => (nomatch hnew.symm.trans hmakes.free), hfound⟩
      | none =>
          refine wp_of_run (PathTree.newNode_run (newFile · (mode &&& ~~~vfs.umask)) hnew) ?_
          obtain ⟨dir, name, hpath, hdir⟩ := PathTree.ensureParentDir_ok hparent
          rw [wp_bind, wp_get, wp_pure]
          refine Or.inr ⟨⟨hinode, hcreate, hparent, hpermitted, hnew⟩, ?_, _, rfl⟩
          have hparent := lookupPath_withFile vfs (mode &&& ~~~vfs.umask) hdir (dir_ne dir name)
          rw [← hpath] at hparent
          show (parentInode (vfs.withFile resolved.guestPath (mode &&& ~~~vfs.umask)) resolved.guestPath).isSome = true
          obtain ⟨node, hnode⟩ := Option.isSome_iff_exists.mp hparent
          have hparent : resolved.guestPath.parent = some dir := by rw [hpath, PathTree.parent_concat]
          simp [parentInode, hparent, hnode]

theorem openCheck_newFile_iff {i : InodeId} {mode : UInt32} {flags : OpenFlags} :
    openCheck (newFile i mode) flags true = .ok () ↔ ¬flags.directory = true := by
  constructor
  · intro hok hdirectory
    have hdir : (newFile i mode).attr.isDirectory = false := by
      rw [LinuxFileAttr.isDirectory, newFile_kindBits]
      decide
    simp [openCheck, failIf, hdirectory, hdir, bind, Except.bind] at hok
  · intro hdirectory
    cases hcheck : openCheck (newFile i mode) flags true with
    | ok u => rfl
    | error error => exact absurd (openCheck_newFile hcheck) hdirectory

theorem prepared_newFile (host : Host) (i : InodeId) (mode : UInt32) (flags : OpenFlags) :
    ∃ node', Prepared host flags (newFile i mode) node' := by
  by_cases htrunc : truncates flags (newFile i mode) = true
  · exact ⟨_, by rw [Prepared, if_pos htrunc]; rfl⟩
  · exact ⟨_, by rw [Prepared, if_neg htrunc]⟩

theorem failsLate_iff {dirfd : Fd} {path : String} {flags : OpenFlags} {resolved : ResolvedPath}
    (h : vfs.resolveAt dirfd path (nofollowOption flags.nofollow) = .ok resolved) :
    FailsLate host vfs dirfd path flags ↔
      MakesFile vfs resolved flags ∧ (flags.directory = true ∨ NoFreeFd vfs) ∨
        EmptiesFile host vfs resolved flags ∧ NoFreeFd vfs := by
  constructor
  · rintro ⟨resolved', hresolved, hfails⟩
    obtain rfl := Except.ok.inj (h.symm.trans hresolved)
    exact hfails
  · exact fun hfails => ⟨resolved, h, hfails⟩

theorem openFound_fails {resolved : ResolvedPath} {flags : OpenFlags} (hfound : resolved.inode.isSome = true)
    (hnew : ¬(flags.create = true ∧ flags.exclusive = true)) :
    wp (openTail host resolved.guestPath flags none)
      (fun _ _ => ¬(EmptiesFile host vfs resolved flags ∧ NoFreeFd vfs))
      (fun _ vfs' => Untouched vfs vfs' ∧ ¬(EmptiesFile host vfs resolved flags ∧ NoFreeFd vfs) ∨
        ¬Untouched vfs vfs' ∧ EmptiesFile host vfs resolved flags ∧ NoFreeFd vfs) vfs := by
  cases hlookup : vfs.tree.lookupPath resolved.guestPath with
  | none =>
      rw [openTail, wp_bind, wp_get, hlookup, wp_bind]
      refine (wp_ofExcept _).mpr (Or.inl ⟨.refl vfs, fun h => ?_⟩)
      obtain ⟨node, node', hnode, -⟩ := h.1.node
      nomatch hlookup.symm.trans hnode
  | some node =>
      obtain ⟨i, hi, hnode⟩ := PathTree.lookupPath_eq_some.mp hlookup
      have hempties : ∀ {node'}, Prepared host flags node node' → EmptiesFile host vfs resolved flags →
          openCheck node flags false = .ok () ∧ node' ≠ node := by
        rintro node' hprepared ⟨-, -, found, emptied, hsame, hcheck, htrunc, hrun, hne⟩
        obtain rfl := Option.some.inj (hlookup.symm.trans hsame)
        rw [Prepared, if_pos htrunc] at hprepared
        obtain rfl := (Prod.mk.inj (hprepared.symm.trans hrun)).2
        exact ⟨hcheck, hne⟩
      refine wp_mono (openTail_fails hi hnode) (fun _ _ h hlate => h.2 hlate.2) ?_
      rintro error vfs' (⟨rfl, hrefused⟩ | ⟨hcheck, hfull, node', hprepared, rfl⟩)
      · refine Or.inl ⟨.refl _, fun hlate => ?_⟩
        obtain ⟨found, emptied, hsame, hok, htrunc, hrun, -⟩ := hlate.1.node
        obtain rfl := Option.some.inj (hlookup.symm.trans hsame)
        rcases hrefused with hcheck | hnone
        · exact hcheck hok
        · exact hnone emptied (by rw [Prepared, if_pos htrunc]; exact hrun)
      · by_cases hsame : node' = node
        · refine Or.inl ⟨?_, fun hlate => (hempties hprepared hlate.1).2 hsame⟩
          rw [hsame, PathTree.setNode_self hnode]
          exact .refl vfs
        · have htrunc : truncates flags node = true := by
            by_contra hkept
            rw [Prepared, if_neg hkept] at hprepared
            exact hsame hprepared
          rw [Prepared, if_pos htrunc] at hprepared
          refine Or.inr ⟨fun huntouched => hsame ?_, ⟨hfound, hnew, node, node', hlookup, hcheck, htrunc, hprepared, hsame⟩,
            hfull⟩
          have hget : (vfs.tree.setNode i node').inodes.get? i = some node' := by simp [PathTree.setNode]
          have hinodes : (vfs.tree.setNode i node').inodes = vfs.tree.inodes := huntouched.inodes
          rw [hinodes, hnode] at hget
          exact (Option.some.inj hget).symm

theorem openMade_fails {resolved : ResolvedPath} {flags : OpenFlags} (hmakes : MakesFile vfs resolved flags)
    (mode : UInt32) {created : Option InodeId} (hcreated : created.isSome = true) :
    wp (openTail host resolved.guestPath flags created)
      (fun _ _ => ¬(flags.directory = true ∨ NoFreeFd vfs))
      (fun _ vfs' => ¬Untouched vfs vfs' ∧ (flags.directory = true ∨ NoFreeFd vfs))
      (vfs.withFile resolved.guestPath mode) := by
  have hi : (vfs.withFile resolved.guestPath mode).tree.nodes.get? resolved.guestPath = some vfs.tree.nextInodeId := by
    show (vfs.tree.allocated.addNode _ _).nodes.get? _ = _
    rw [PathTree.Wf.addNode_nodes, if_pos rfl]
    rfl
  have hnode : (vfs.withFile resolved.guestPath mode).tree.inodes.get? vfs.tree.nextInodeId =
      some (newFile vfs.tree.nextInodeId mode) := by
    show (vfs.tree.allocated.addNode _ _).inodes.get? _ = _
    rw [PathTree.Wf.addNode_inodes]
    exact if_pos rfl
  have htouched : ∀ {vfs' : VirtualFileSystem}, vfs'.tree.nodes = (vfs.withFile resolved.guestPath mode).tree.nodes →
      ¬Untouched vfs vfs' := by
    intro vfs' hnodes huntouched
    rw [← hnodes, huntouched.nodes, hmakes.free] at hi
    nomatch hi
  have htail := @openTail_fails _ host resolved.guestPath flags created _ _ hi hnode
  rw [hcreated] at htail
  refine wp_mono htail (fun _ _ h hlate => ?_) ?_
  · rcases hlate with hdirectory | hfull
    · exact openCheck_newFile_iff.mp h.1 hdirectory
    · exact h.2 hfull
  · rintro error vfs' (⟨rfl, hrefused⟩ | ⟨-, hfull, node', -, rfl⟩)
    · refine ⟨htouched rfl, Or.inl ?_⟩
      rcases hrefused with hcheck | hnone
      · exact not_not.mp fun hdirectory => hcheck (openCheck_newFile_iff.mpr hdirectory)
      · obtain ⟨node', hprepared⟩ := prepared_newFile host vfs.tree.nextInodeId mode flags
        exact absurd hprepared (hnone node')
    · exact ⟨htouched rfl, Or.inr hfull⟩

/-- A failed `openat` leaves the names, the nodes and the descriptors as they were if and only if it does not make a
file that is to be a directory or to get one more descriptor than there are, nor empty a file for such a descriptor. -/
theorem openat_failure_atomic_iff (host : Host) (vfs : VirtualFileSystem) (dirfd : Fd) (path : String)
    (flags : OpenFlags) (mode : UInt32) :
    (∀ error vfs', openat host dirfd path flags mode vfs = (.error error, vfs') → Untouched vfs vfs') ↔
      ¬FailsLate host vfs dirfd path flags := by
  have hspec : wp (openat host dirfd path flags mode) (fun _ _ => ¬FailsLate host vfs dirfd path flags)
      (fun _ vfs' => Untouched vfs vfs' ∧ ¬FailsLate host vfs dirfd path flags ∨
        ¬Untouched vfs vfs' ∧ FailsLate host vfs dirfd path flags) vfs := by
    rw [openat_eq, wp_bind, wp_get, wp_bind]
    apply wp_check
    · intro error herror
      refine Or.inl ⟨.refl vfs, ?_⟩
      rintro ⟨resolved, hresolved, -⟩
      nomatch herror.symm.trans hresolved
    intro resolved hresolved
    rw [wp_bind, failsLate_iff hresolved]
    refine wp_mono (openCreate_fails resolved flags mode) ?_ ?_
    · rintro created vfs' (⟨hfound, hnew, rfl, rfl⟩ | ⟨hmakes, hcreated, mode', rfl⟩)
      · have hmade : ¬MakesFile vfs' resolved flags := by
          intro hmakes
          rw [hmakes.missing] at hfound
          nomatch hfound
        refine wp_mono (openFound_fails hfound hnew) (fun _ _ h => ?_) (fun _ _ h => ?_)
        · rintro (hlate | hlate)
          · exact hmade hlate.1
          · exact h hlate
        · rcases h with ⟨huntouched, hlate⟩ | ⟨htouched, hlate⟩
          · exact Or.inl ⟨huntouched, fun h => h.elim (fun h => hmade h.1) hlate⟩
          · exact Or.inr ⟨htouched, Or.inr hlate⟩
      · have hemptied : ¬EmptiesFile host vfs resolved flags := by
          intro hempties
          have hfound := hempties.found
          rw [hmakes.missing] at hfound
          nomatch hfound
        refine wp_mono (openMade_fails hmakes mode' hcreated) (fun _ _ h => ?_) (fun _ _ h => ?_)
        · rintro (hlate | hlate)
          · exact h hlate.2
          · exact hemptied hlate.1
        · exact Or.inr ⟨h.1, Or.inl ⟨hmakes, h.2⟩⟩
    · rintro error vfs' ⟨huntouched, hmakes, hfound⟩
      exact Or.inl ⟨huntouched, fun h => h.elim (fun h => hmakes h.1) fun h => hfound ⟨h.1.found, h.1.shared⟩⟩
  constructor
  · intro hatomic hlate
    cases hrun : openat host dirfd path flags mode vfs with
    | mk result vfs' =>
        cases result with
        | ok fd => exact wp_ok hspec hrun hlate
        | error error =>
            rcases wp_error hspec hrun with hkept | hchanged
            · exact hkept.2 hlate
            · exact hchanged.1 (hatomic error vfs' hrun)
  · intro hlate error vfs' hrun
    rcases wp_error hspec hrun with hkept | hchanged
    · exact hkept.1
    · exact absurd hchanged.2 hlate

/-- The file is made before the open finds that it is no directory. -/
theorem openat_leaves_file :
    (openat .empty atFdcwd "/new" ⟨oCreat ||| oDirectory⟩ 0o644 blank).1 = .error .notDirectory ∧
      ¬Untouched blank (openat .empty atFdcwd "/new" ⟨oCreat ||| oDirectory⟩ 0o644 blank).2 := by
  refine ⟨failure_eq_some.mp (by decide +kernel), fun huntouched => ?_⟩
  have hsize : (openat .empty atFdcwd "/new" ⟨oCreat ||| oDirectory⟩ 0o644 blank).2.tree.nodes.entries.length =
      blank.tree.nodes.entries.length := by
    rw [huntouched.nodes]
  exact absurd hsize (by decide +kernel)

end VirtualFileSystem

end Mcr.Vfs
