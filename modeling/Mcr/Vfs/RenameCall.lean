import Mcr.Vfs.Calls

/-!
# The call `renameat2`

In a well-formed tree a rename fails only before it has changed anything. When it returns, the state is
one of three: unchanged, because both paths are the same; `exchanged`; or `moved`, after the target, if
there was one, has lost its name.
-/

namespace Mcr.Vfs

open Prog Subtree

namespace VirtualFileSystem

/-- The state after `RENAME_EXCHANGE`. -/
def exchanged (vfs : VirtualFileSystem) (old new : GuestPath) : VirtualFileSystem :=
  { vfs with
    tree := vfs.tree.swapTree old new
    fds := (vfs.fds.rebindPaths old new).rebindPaths new old
    cache := vfs.cache.invalidateAll }

/-- The name at `new`, if there is one, is dropped. -/
def withoutTarget (vfs : VirtualFileSystem) (new : GuestPath) (target : Option InodeId) : VirtualFileSystem :=
  match target with
  | none => vfs
  | some i => dropLink i (setTree (vfs.tree.dropPath new) vfs)

/-- The state after a rename without `RENAME_EXCHANGE`. -/
def moved (vfs : VirtualFileSystem) (old new : GuestPath) (target : Option InodeId) : VirtualFileSystem :=
  let cleared := vfs.withoutTarget new target
  { cleared with
    tree := cleared.tree.moveTree old new
    fds := cleared.fds.rebindPaths old new
    cache := cleared.cache.invalidateInodes
      ([cleared.parentInode old, cleared.parentInode new, target].filterMap id) }

structure RenameEnds (vfs : VirtualFileSystem) (old : GuestPath) (oldInode : InodeId) (new : GuestPath)
    (target : Option InodeId) : Prop where
  named : vfs.tree.nodes.get? old = some oldInode
  target : vfs.tree.nodes.get? new = target
  ne : old ≠ new
  parent : ∃ dir name, new = dir ++ [name] ∧ vfs.tree.IsDir dir

variable {vfs : VirtualFileSystem}

theorem renameEnds_ok (hwf : vfs.tree.Wf) {olddirfd newdirfd : Fd} {oldpath newpath : String} {flags : UInt32}
    {old : GuestPath} {oldInode : InodeId} {newResolved : ResolvedPath}
    (h : vfs.renameEnds olddirfd oldpath newdirfd newpath flags = .ok (some (old, oldInode, newResolved))) :
    RenameEnds vfs old oldInode newResolved.guestPath newResolved.inode ∧
      (flags &&& renameExchange = 0 → ¬ (vfs.tree.IsDir old ∧ old <+: newResolved.guestPath)) := by
  obtain ⟨_, _, h⟩ := except_bind_eq_ok.mp h
  obtain ⟨_, _, h⟩ := except_bind_eq_ok.mp h
  obtain ⟨oldResolved, hold, h⟩ := except_bind_eq_ok.mp h
  obtain ⟨newResolved', hnew, h⟩ := except_bind_eq_ok.mp h
  obtain ⟨_, _, h⟩ := except_bind_eq_ok.mp h
  obtain ⟨i, hi, h⟩ := except_bind_eq_ok.mp h
  split at h
  · cases h
  · rename_i hne
    obtain ⟨node, hnode, h⟩ := except_bind_eq_ok.mp h
    obtain ⟨_, _, h⟩ := except_bind_eq_ok.mp h
    obtain ⟨_, hinside, h⟩ := except_bind_eq_ok.mp h
    obtain ⟨_, hparent, h⟩ := except_bind_eq_ok.mp h
    obtain ⟨_, _, h⟩ := except_bind_eq_ok.mp h
    obtain ⟨_, _, h⟩ := except_bind_eq_ok.mp h
    cases h
    rw [okOr_eq_ok] at hi hnode
    rw [resolveAt_nodes hwf hold] at hi
    refine ⟨⟨hi, (resolveAt_nodes hwf hnew).symm, hne, PathTree.ensureParentDir_ok hparent⟩, ?_⟩
    rintro hplain ⟨⟨node', hlookup, hdir⟩, hpre⟩
    obtain ⟨j, hj, hjn⟩ := PathTree.lookupPath_eq_some.mp hlookup
    rw [hi] at hj
    cases hj
    rw [PathTree.lookupInode, hjn] at hnode
    cases hnode
    rw [failIf_eq_ok] at hinside
    exact hinside ⟨hdir, by rwa [GuestPath.startsWith_iff], hplain⟩

theorem RenameEnds.isDir_of_prefix {old new : GuestPath} {oldInode : InodeId} {target : Option InodeId}
    (h : RenameEnds vfs old oldInode new target) (hwf : vfs.tree.Wf) (hpre : old <+: new) :
    vfs.tree.IsDir old := by
  obtain ⟨dir, name, rfl, hdir⟩ := h.parent
  rcases List.prefix_concat_iff.mp hpre with heq | ⟨rest, rfl⟩
  · exact absurd heq h.ne
  · by_cases hrest : rest = []
    · rwa [hrest, List.append_nil] at hdir
    · obtain ⟨node, hlookup, _⟩ := hdir
      obtain ⟨j, hj, _⟩ := PathTree.lookupPath_eq_some.mp hlookup
      exact (hwf.below hrest hj).1

theorem isDir_iff {path : GuestPath} {i : InodeId} {node : PathNode}
    (hi : vfs.tree.nodes.get? path = some i) (hnode : vfs.tree.inodes.get? i = some node) :
    vfs.tree.IsDir path ↔ node.isDirectory = true := by
  constructor
  · rintro ⟨node', hlookup, hdir⟩
    rw [PathTree.lookupPath, hi, Option.bind_some, hnode] at hlookup
    cases hlookup
    exact hdir
  · intro hdir
    exact ⟨node, PathTree.lookupPath_eq_some.mpr ⟨i, hi, hnode⟩, hdir⟩

section Plain

variable {old new : GuestPath} {oldInode : InodeId} {target : Option InodeId}

def Replaceable (vfs : VirtualFileSystem) (oldInode : InodeId) (new : GuestPath) (target : Option InodeId) : Prop :=
  ∀ i, target = some i → validateRenameReplacement vfs.tree oldInode i new = .ok ()

theorem nothing_below_target (hwf : vfs.tree.Wf) (hends : RenameEnds vfs old oldInode new target)
    (hvalid : Replaceable vfs oldInode new target) {rest : GuestPath} (hrest : rest ≠ []) :
    vfs.tree.nodes.get? (new ++ rest) = none := by
  cases htarget : target with
  | none =>
      by_contra hsome
      obtain ⟨j, hj⟩ := Option.ne_none_iff_exists'.mp hsome
      obtain ⟨⟨node, hlookup, _⟩, _⟩ := hwf.below hrest hj
      obtain ⟨k, hk, _⟩ := PathTree.lookupPath_eq_some.mp hlookup
      rw [hends.target, htarget] at hk
      nomatch hk
  | some i =>
      have hnew := hends.target
      rw [htarget] at hnew
      obtain ⟨oldNode, holdNode, h⟩ := except_bind_eq_ok.mp (hvalid i htarget)
      obtain ⟨targetNode, htargetNode, h⟩ := except_bind_eq_ok.mp h
      rw [okOr_eq_ok, PathTree.lookupInode] at holdNode htargetNode
      apply hwf.nothing_below hrest
      rw [isDir_iff hnew htargetNode]
      cases hdir : targetNode.isDirectory with
      | false => exact Or.inl (by simp)
      | true =>
          cases holdDir : oldNode.isDirectory with
          | false => simp [hdir, holdDir] at h
          | true =>
              simp only [hdir, holdDir, failIf_eq_ok] at h
              exact Or.inr (by simpa using h)

theorem RenameEnds.apart (hends : RenameEnds vfs old oldInode new target) (hwf : vfs.tree.Wf)
    (hinside : ¬ (vfs.tree.IsDir old ∧ old <+: new)) (hvalid : Replaceable vfs oldInode new target) :
    Apart old new := by
  constructor
  · intro hpre
    exact hinside ⟨hends.isDir_of_prefix hwf hpre, hpre⟩
  · rintro ⟨rest, hrest⟩
    have hne : rest ≠ [] := by
      rintro rfl
      rw [List.append_nil] at hrest
      exact hends.ne hrest.symm
    have hnone := nothing_below_target hwf hends hvalid hne
    rw [hrest, hends.named] at hnone
    nomatch hnone

theorem withoutTarget_ready (hwf : vfs.tree.Wf) (hends : RenameEnds vfs old oldInode new target)
    (hvalid : Replaceable vfs oldInode new target) :
    (vfs.withoutTarget new target).tree.Wf ∧
      (∀ p, (vfs.withoutTarget new target).tree.nodes.get? p =
        if p = new then none else vfs.tree.nodes.get? p) ∧
      (∀ p, p ≠ new → vfs.tree.IsDir p → (vfs.withoutTarget new target).tree.IsDir p) := by
  cases htarget : target with
  | none =>
      refine ⟨hwf, ?_, fun p _ hdir => hdir⟩
      intro p
      split
      · rename_i heq
        rw [heq]
        exact hends.target.trans htarget
      · rfl
  | some i =>
      have hnew := hends.target
      rw [htarget] at hnew
      have hleaf : ∀ name, vfs.tree.nodes.get? (new ++ [name]) = none := fun name =>
        nothing_below_target hwf hends hvalid (by simp)
      have hwf' : (setTree (vfs.tree.dropPath new) vfs).tree.Wf := hwf.dropPath hleaf
      have hnodes : ∀ p, (vfs.withoutTarget new (some i)).tree.nodes.get? p =
          if p = new then none else vfs.tree.nodes.get? p := by
        intro p
        obtain ⟨inodes, heq⟩ := dropLink_eq (setTree (vfs.tree.dropPath new) vfs) i
        rw [withoutTarget, heq]
        exact PathTree.Wf.dropPath_nodes new p
      refine ⟨dropLink_wf i hwf', hnodes, ?_⟩
      rintro p hne ⟨node, hlookup, hdir⟩
      obtain ⟨j, hj, hjn⟩ := PathTree.lookupPath_eq_some.mp hlookup
      -- a directory has one name only, so the target is another node
      have hji : j ≠ i := by
        rintro rfl
        exact hne (hwf.unique p new j node hj hnew hjn hdir)
      refine ⟨node, PathTree.lookupPath_eq_some.mpr ⟨j, ?_, ?_⟩, hdir⟩
      · rw [hnodes, if_neg hne]
        exact hj
      · rw [withoutTarget, dropLink_get_ne i hji]
        show (vfs.tree.dropPath new).inodes.get? j = some node
        rw [PathTree.Wf.dropPath_inodes]
        exact hjn

theorem withoutTarget_free (hwf : vfs.tree.Wf) (hends : RenameEnds vfs old oldInode new target)
    (hvalid : Replaceable vfs oldInode new target) (rest : GuestPath) :
    (vfs.withoutTarget new target).tree.nodes.get? (new ++ rest) = none := by
  rw [(withoutTarget_ready hwf hends hvalid).2.1]
  split
  · rfl
  · rename_i hne
    apply nothing_below_target hwf hends hvalid
    rintro rfl
    exact hne (List.append_nil new)

theorem moved_wf (hwf : vfs.tree.Wf) (hends : RenameEnds vfs old oldInode new target)
    (hinside : ¬ (vfs.tree.IsDir old ∧ old <+: new)) (hvalid : Replaceable vfs oldInode new target) :
    (vfs.moved old new target).tree.Wf := by
  obtain ⟨hwf', _, hkeep⟩ := withoutTarget_ready hwf hends hvalid
  obtain ⟨dir, name, hnew, hdir⟩ := hends.parent
  refine PathTree.moveTree_wf hwf' (hends.apart hwf hinside hvalid) (withoutTarget_free hwf hends hvalid) hnew ?_
  apply hkeep dir _ hdir
  intro heq
  have hlen := congrArg List.length (heq.trans hnew)
  rw [List.length_append, List.length_singleton] at hlen
  omega

/-- The names after a plain rename: the target's name is gone, the others are carried along. -/
theorem moved_names (hwf : vfs.tree.Wf) (hends : RenameEnds vfs old oldInode new target)
    (hvalid : Replaceable vfs oldInode new target) (q : GuestPath) (i : InodeId) :
    (vfs.moved old new target).tree.nodes.get? q = some i ↔
      ∃ p, p ≠ new ∧ vfs.tree.nodes.get? p = some i ∧ q = move old new p := by
  have hrelocated := PathTree.moveTree_relocated old (withoutTarget_free hwf hends hvalid)
  have hnodes := (withoutTarget_ready hwf hends hvalid).2.1
  rw [show (vfs.moved old new target).tree = (vfs.withoutTarget new target).tree.moveTree old new from rfl,
    hrelocated.names]
  constructor
  · rintro ⟨p, hp, rfl⟩
    rw [hnodes] at hp
    split at hp
    · nomatch hp
    · exact ⟨p, ‹_›, hp, rfl⟩
  · rintro ⟨p, hne, hp, rfl⟩
    exact ⟨p, by rw [hnodes, if_neg hne]; exact hp, rfl⟩

end Plain

/-- What a rename that returns has done, from the ends its checks found. -/
inductive Renamed (vfs : VirtualFileSystem) (flags : UInt32) :
    Option (GuestPath × InodeId × ResolvedPath) → VirtualFileSystem → Prop
  | same : Renamed vfs flags none vfs
  | exchange {old : GuestPath} {oldInode newInode : InodeId} {new : ResolvedPath}
      (hflags : flags &&& renameExchange ≠ 0)
      (hends : RenameEnds vfs old oldInode new.guestPath (some newInode))
      (hapart : Apart old new.guestPath) :
      Renamed vfs flags (some (old, oldInode, new)) (vfs.exchanged old new.guestPath)
  | move {old : GuestPath} {oldInode : InodeId} {new : ResolvedPath}
      (hflags : flags &&& renameExchange = 0)
      (hends : RenameEnds vfs old oldInode new.guestPath new.inode)
      (hinside : ¬ (vfs.tree.IsDir old ∧ old <+: new.guestPath))
      (hvalid : Replaceable vfs oldInode new.guestPath new.inode) :
      Renamed vfs flags (some (old, oldInode, new)) (vfs.moved old new.guestPath new.inode)

theorem removeExistingRenameTarget_spec (hwf : vfs.tree.Wf) {old new : GuestPath} {oldInode i : InodeId}
    (hends : RenameEnds vfs old oldInode new (some i)) (hvalid : Replaceable vfs oldInode new (some i)) :
    wp (removeExistingRenameTarget new i) (fun _ vfs' => vfs' = vfs.withoutTarget new (some i))
      (fun _ _ => False) vfs := by
  obtain ⟨node, hnode⟩ := hwf.named new i hends.target
  have hempty : vfs.tree.isEmptyDirectory new = true :=
    (PathTree.isEmptyDirectory_iff hwf.indexed new).mpr fun name =>
      nothing_below_target hwf hends hvalid (by simp)
  unfold removeExistingRenameTarget
  rw [wp_bind, wp_get, wp_bind]
  apply wp_check
  · intro error herror
    rcases except_bind_eq_error.mp herror with hlookup | ⟨_, _, hcheck⟩
    · rw [PathTree.lookupInode, hnode] at hlookup
      nomatch hlookup
    · simp [hempty, failIf] at hcheck
  intro _ _
  rw [wp_bind, onTree, wp_zoom]
  refine wp_of_run (PathTree.removePathLink_run hends.target) ?_
  rw [wp_modify]
  rfl

theorem movePath_spec (hwf : vfs.tree.Wf) {old new : GuestPath}
    (hfree : ∀ rest, vfs.tree.nodes.get? (new ++ rest) = none) :
    wp (movePath old new)
      (fun _ vfs' => vfs' =
        { vfs with tree := vfs.tree.moveTree old new, fds := vfs.fds.rebindPaths old new })
      (fun _ _ => False) vfs := by
  obtain ⟨htake, hput⟩ := PathTree.move_run old hwf hfree
  unfold movePath
  rw [wp_bind, wp_get, wp_bind, onTree, wp_zoom]
  refine wp_of_run htake ?_
  rw [wp_bind, onTree, wp_zoom]
  refine wp_of_run hput ?_
  rw [rebindPaths, wp_modify]
  rfl

theorem exchangedPaths_eq (hwf : vfs.tree.Wf) {path : GuestPath} {i : InodeId} {node : PathNode}
    (hi : vfs.tree.nodes.get? path = some i) (hnode : vfs.tree.inodes.get? i = some node) :
    exchangedPaths vfs.tree path node.isDirectory = vfs.tree.pathsUnderPrefix path := by
  unfold exchangedPaths
  split
  · rfl
  · rename_i hdir
    rw [PathTree.pathsUnderPrefix_leaf hwf hi]
    rw [isDir_iff hi hnode]
    exact hdir

/-- Once its own checks pass, an exchange cannot fail. -/
theorem exchangePaths_spec (hwf : vfs.tree.Wf) {old new : GuestPath} {oldInode newInode : InodeId}
    (hends : RenameEnds vfs old oldInode new (some newInode)) :
    wp (exchangePaths old oldInode new newInode)
      (fun _ vfs' => Apart old new ∧ vfs' = { vfs with
        tree := vfs.tree.swapTree old new
        fds := (vfs.fds.rebindPaths old new).rebindPaths new old })
      (fun _ vfs' => vfs' = vfs) vfs := by
  unfold exchangePaths
  rw [wp_bind, wp_get, wp_bind]
  apply wp_check
  · intro _ _
    rfl
  rintro ⟨oldIsDir, newIsDir⟩ hcheck
  obtain ⟨oldNode, holdNode, hcheck⟩ := except_bind_eq_ok.mp hcheck
  obtain ⟨newNode, hnewNode, hcheck⟩ := except_bind_eq_ok.mp hcheck
  obtain ⟨_, hold, hcheck⟩ := except_bind_eq_ok.mp hcheck
  obtain ⟨_, hnew, hcheck⟩ := except_bind_eq_ok.mp hcheck
  cases hcheck
  rw [okOr_eq_ok, PathTree.lookupInode] at holdNode hnewNode
  rw [failIf_eq_ok, GuestPath.startsWith_iff] at hold hnew
  rw [← isDir_iff hends.named holdNode] at hold
  rw [← isDir_iff hends.target hnewNode] at hnew
  have hapart : Apart old new := by
    constructor
    · exact fun hpre => hold ⟨hends.isDir_of_prefix hwf hpre, hpre⟩
    · rintro ⟨rest, hrest⟩
      have hne : rest ≠ [] := by
        rintro rfl
        rw [List.append_nil] at hrest
        exact hends.ne hrest.symm
      have hbelow := hwf.below hne (hrest ▸ hends.named)
      exact hnew ⟨hbelow.1, rest, hrest⟩
  obtain ⟨htakeOld, htakeNew, hput⟩ := PathTree.swap_run hwf hapart
  simp only [exchangedPaths_eq hwf hends.named holdNode, exchangedPaths_eq hwf hends.target hnewNode]
  rw [wp_bind, onTree, wp_zoom]
  refine wp_of_run htakeOld ?_
  rw [wp_bind, onTree, wp_zoom]
  refine wp_of_run htakeNew ?_
  rw [wp_bind, onTree, wp_zoom]
  refine wp_of_run hput ?_
  rw [wp_bind, rebindPaths, wp_modify, rebindPaths, wp_modify]
  exact ⟨hapart, rfl⟩

/-- A rename that fails has changed nothing. -/
theorem renameat2_spec (hwf : vfs.tree.Wf) (olddirfd : Fd) (oldpath : String) (newdirfd : Fd) (newpath : String)
    (flags : UInt32) :
    wp (renameat2 olddirfd oldpath newdirfd newpath flags)
      (fun _ vfs' => ∃ ends, vfs.renameEnds olddirfd oldpath newdirfd newpath flags = .ok ends ∧
        Renamed vfs flags ends vfs')
      (fun _ vfs' => vfs' = vfs) vfs := by
  unfold renameat2
  rw [wp_bind, wp_get, wp_bind]
  apply wp_check
  · intro _ _
    rfl
  intro ends hends
  cases ends with
  | none => exact (wp_pure ()).mpr ⟨none, hends, .same⟩
  | some found =>
      obtain ⟨old, oldInode, new⟩ := found
      obtain ⟨hfound, hinside⟩ := renameEnds_ok hwf hends
      by_cases hflags : flags &&& renameExchange ≠ 0
      · simp only [if_pos hflags]
        rw [wp_bind]
        apply wp_check
        · intro _ _
          rfl
        intro newInode hnew
        rw [okOr_eq_ok] at hnew
        rw [hnew] at hfound
        rw [wp_bind]
        refine wp_mono (exchangePaths_spec hwf hfound) ?_ (fun _ _ h => h)
        rintro _ vfs' ⟨hapart, rfl⟩
        exact (wp_modify _).mpr ⟨_, hends, .exchange hflags hfound hapart⟩
      · simp only [if_neg hflags]
        rw [not_not] at hflags
        have hlast : Replaceable vfs oldInode new.guestPath new.inode →
            wp (do
                let cleared ← get
                movePath old new.guestPath
                invalidateInodeCaches ([cleared.parentInode old, cleared.parentInode new.guestPath,
                  new.inode].filterMap id))
              (fun _ vfs' => ∃ ends, vfs.renameEnds olddirfd oldpath newdirfd newpath flags = .ok ends ∧
                Renamed vfs flags ends vfs')
              (fun _ vfs' => vfs' = vfs) (vfs.withoutTarget new.guestPath new.inode) := by
          intro hvalid
          rw [wp_bind, wp_get, wp_bind]
          refine wp_mono (movePath_spec (withoutTarget_ready hwf hfound hvalid).1
            (withoutTarget_free hwf hfound hvalid)) ?_ (fun _ _ h => h.elim)
          rintro _ _ rfl
          exact (wp_modify _).mpr ⟨_, hends, .move hflags hfound (hinside hflags) hvalid⟩
        cases htarget : new.inode with
        | none =>
            rw [htarget] at hlast
            exact hlast (fun i hi => nomatch hi)
        | some i =>
            simp only [wp_bind]
            apply wp_check
            · intro _ _
              rfl
            intro _ hvalid
            have hvalid' : Replaceable vfs oldInode new.guestPath (some i) := by
              intro j hj
              cases hj
              exact hvalid
            rw [htarget] at hlast hfound
            refine wp_mono (removeExistingRenameTarget_spec hwf hfound hvalid') ?_ (fun _ _ h => h.elim)
            rintro _ _ rfl
            simpa only [wp_bind] using hlast hvalid'

theorem Renamed.wf {flags : UInt32} {ends : Option (GuestPath × InodeId × ResolvedPath)}
    {vfs' : VirtualFileSystem} (h : Renamed vfs flags ends vfs') (hwf : vfs.tree.Wf) : vfs'.tree.Wf := by
  cases h with
  | same => exact hwf
  | exchange _ hends hapart => exact PathTree.swapTree_wf hwf hapart hends.named hends.target
  | move _ hends hinside hvalid => exact moved_wf hwf hends hinside hvalid

end VirtualFileSystem

end Mcr.Vfs
