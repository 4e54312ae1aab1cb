import Mcr.Vfs.Names

/-!
# Descriptors and the working directory across a rename

A descriptor records the path it was opened at, and a rename rewrites that record by prefix, apart from the
names of the tree. A plain rename carries every record along, except that a descriptor of the replaced
target keeps the path, where the moved node then is. An exchange rewrites the records twice, which puts
those under the first path back where they were. The working directory is never rewritten.
-/

namespace Mcr.Vfs

open Prog Subtree

theorem FdTable.rebindPath_path (entry : FdEntry) (old new : GuestPath) :
    (entry.rebindPath old new).path = entry.path.map (move old new) := by
  unfold FdEntry.rebindPath
  cases hpath : entry.path with
  | none => simp [hpath]
  | some path =>
      by_cases hprefix : old <+: path
      · have hstarts : path.startsWith old = true := GuestPath.startsWith_iff.mpr hprefix
        obtain ⟨rest, rfl⟩ := hprefix
        simp [hstarts, PathTree.replacePrefix]
      · have hstarts : ¬ path.startsWith old = true := fun h => hprefix (GuestPath.startsWith_iff.mp h)
        simp [hstarts, hpath, move_elsewhere hprefix]

theorem FdTable.rebindPaths_get (fds : FdTable) (old new : GuestPath) (fd : Fd) :
    (fds.rebindPaths old new).entries.get? fd = (fds.entries.get? fd).map (·.rebindPath old new) := by
  simp [FdTable.rebindPaths]

namespace VirtualFileSystem

variable {vfs vfs' : VirtualFileSystem}

/-- Descriptors and the working directory refer to what they referred to before. -/
structure HandlesKept (vfs vfs' : VirtualFileSystem) : Prop where
  fds : ∀ fd entry path, vfs.fds.entries.get? fd = some entry → entry.path = some path →
    vfs.tree.nodes.get? path = some entry.inodeId → (∃ q, vfs'.tree.nodes.get? q = some entry.inodeId) →
    ∃ entry' path', vfs'.fds.entries.get? fd = some entry' ∧ entry'.inodeId = entry.inodeId ∧
      entry'.path = some path' ∧ vfs'.tree.nodes.get? path' = some entry.inodeId
  cwd : ∀ i, vfs.tree.IsDir vfs.rootfs.cwd → vfs.tree.nodes.get? vfs.rootfs.cwd = some i →
    vfs'.tree.nodes.get? vfs'.rootfs.cwd = some i

/-- No descriptor is left at the target while its inode has another name, and the working directory does not
move. -/
structure MoveSpares (vfs : VirtualFileSystem) (old new : GuestPath) : Prop where
  fds : ∀ fd entry, vfs.fds.entries.get? fd = some entry → entry.path = some new →
    vfs.tree.nodes.get? new = some entry.inodeId →
    vfs.tree.nodes.get? old = some entry.inodeId ∨ ∀ q, q ≠ new → vfs.tree.nodes.get? q ≠ some entry.inodeId
  cwd : vfs.tree.IsDir vfs.rootfs.cwd → ¬ old <+: vfs.rootfs.cwd ∧ vfs.rootfs.cwd ≠ new

/-- Every descriptor under the first path finds its inode at the same place under the second, and the
working directory is under neither. -/
structure ExchangeSpares (vfs : VirtualFileSystem) (old new : GuestPath) : Prop where
  fds : ∀ fd entry rest, vfs.fds.entries.get? fd = some entry → entry.path = some (old ++ rest) →
    vfs.tree.nodes.get? (old ++ rest) = some entry.inodeId →
    vfs.tree.nodes.get? (new ++ rest) = some entry.inodeId
  cwd : vfs.tree.IsDir vfs.rootfs.cwd → ¬ old <+: vfs.rootfs.cwd ∧ ¬ new <+: vfs.rootfs.cwd

/-- What a rename of `old` to `new` has to find for the handles to stay where they are. -/
def RenameSpares (vfs : VirtualFileSystem) (flags : UInt32) (old new : GuestPath) : Prop :=
  old = new ∨ if flags &&& renameExchange ≠ 0 then vfs.ExchangeSpares old new else vfs.MoveSpares old new

section Move

variable {old new : GuestPath} {oldInode : InodeId} {target : Option InodeId}

theorem moved_fds (fd : Fd) : (vfs.moved old new target).fds.entries.get? fd =
    (vfs.fds.entries.get? fd).map (·.rebindPath old new) := by
  have hfds : (vfs.withoutTarget new target).fds = vfs.fds := by
    cases target with
    | none => rfl
    | some i =>
        obtain ⟨inodes, heq⟩ := dropLink_eq (setTree (vfs.tree.dropPath new) vfs) i
        rw [withoutTarget, heq]
        rfl
  show ((vfs.withoutTarget new target).fds.rebindPaths old new).entries.get? fd = _
  rw [FdTable.rebindPaths_get, hfds]

theorem moved_rootfs : (vfs.moved old new target).rootfs = vfs.rootfs := by
  cases target with
  | none => rfl
  | some i =>
      obtain ⟨inodes, heq⟩ := dropLink_eq (setTree (vfs.tree.dropPath new) vfs) i
      show (vfs.withoutTarget new (some i)).rootfs = vfs.rootfs
      rw [withoutTarget, heq]
      rfl

variable (hwf : vfs.tree.Wf) (hends : RenameEnds vfs old oldInode new target)
  (hinside : ¬ (vfs.tree.IsDir old ∧ old <+: new)) (hvalid : Replaceable vfs oldInode new target)

include hwf hends hinside hvalid

theorem moved_keeps_iff : HandlesKept vfs (vfs.moved old new target) ↔ vfs.MoveSpares old new := by
  have hnames := moved_names hwf hends hvalid
  have hapart := hends.apart hwf hinside hvalid
  -- what the new path leads to afterwards
  have hnew : (vfs.moved old new target).tree.nodes.get? new = some oldInode :=
    (hnames new oldInode).mpr ⟨old, hends.ne, hends.named, move_self.symm⟩
  constructor
  · rintro ⟨hfds, hcwd⟩
    refine ⟨fun fd entry hentry hpath hi => ?_, fun hdir => ?_⟩
    · by_contra hnot
      rw [not_or] at hnot
      obtain ⟨hold, hother⟩ := hnot
      push Not at hother
      obtain ⟨q, hne, hq⟩ := hother
      obtain ⟨entry', path', hentry', _, hpath', hafter⟩ := hfds fd entry new hentry hpath hi
        ⟨move old new q, (hnames _ _).mpr ⟨q, hne, hq, rfl⟩⟩
      rw [moved_fds, hentry] at hentry'
      cases hentry'
      rw [FdTable.rebindPath_path, hpath, Option.map_some, move_elsewhere hapart.1] at hpath'
      cases hpath'
      rw [hnew] at hafter
      exact hold (hends.named.trans hafter)
    · obtain ⟨node, hlookup, hnode⟩ := hdir
      obtain ⟨i, hi, hin⟩ := PathTree.lookupPath_eq_some.mp hlookup
      have hafter := hcwd i ⟨node, hlookup, hnode⟩ hi
      rw [moved_rootfs] at hafter
      constructor
      · intro hunder
        obtain ⟨p, _, _, heq⟩ := (hnames _ _).mp hafter
        exact not_prefix_move hapart (heq ▸ hunder)
      · intro heq
        rw [heq, hnew] at hafter
        cases hafter
        exact hends.ne (hwf.unique old new oldInode node hends.named (heq ▸ hi) hin hnode)
  · rintro ⟨hfds, hcwd⟩
    refine ⟨fun fd entry path hentry hpath hi hstill => ?_, fun i hdir hi => ?_⟩
    · refine ⟨entry.rebindPath old new, move old new path, ?_, FdTable.rebindPath_inodeId entry old new, ?_, ?_⟩
      · rw [moved_fds, hentry]
        rfl
      · rw [FdTable.rebindPath_path, hpath]
        rfl
      · by_cases hpathNew : path = new
        · subst hpathNew
          rw [move_elsewhere hapart.1]
          rcases hfds fd entry hentry hpath hi with hold | hnone
          · rw [hnew]
            exact hends.named.symm.trans hold
          · obtain ⟨q, hq⟩ := hstill
            obtain ⟨p, hne, hp, _⟩ := (hnames q _).mp hq
            exact absurd hp (hnone p hne)
        · exact (hnames _ _).mpr ⟨path, hpathNew, hi, rfl⟩
    · obtain ⟨hunder, hne⟩ := hcwd hdir
      rw [moved_rootfs]
      exact (hnames _ _).mpr ⟨vfs.rootfs.cwd, hne, hi, (move_elsewhere hunder).symm⟩

end Move

theorem exchanged_names {old new : GuestPath} (hapart : Apart old new) (q : GuestPath) :
    (vfs.exchanged old new).tree.nodes.get? q = vfs.tree.nodes.get? (swap old new q) := by
  have hrelocated := PathTree.swapTree_relocated vfs.tree hapart
  apply Option.ext
  intro i
  show (vfs.tree.swapTree old new).nodes.get? q = some i ↔ _
  rw [hrelocated.names]
  constructor
  · rintro ⟨p, hp, rfl⟩
    rw [swap_swap hapart]
    exact hp
  · intro hq
    exact ⟨swap old new q, hq, (swap_swap hapart).symm⟩

theorem exchanged_keeps_iff (hwf : vfs.tree.Wf) {old new : GuestPath} (hapart : Apart old new) :
    HandlesKept vfs (vfs.exchanged old new) ↔ vfs.ExchangeSpares old new := by
  have hfds : ∀ fd, (vfs.exchanged old new).fds.entries.get? fd =
      (vfs.fds.entries.get? fd).map fun entry => (entry.rebindPath old new).rebindPath new old := by
    intro fd
    show ((vfs.fds.rebindPaths old new).rebindPaths new old).entries.get? fd = _
    rw [FdTable.rebindPaths_get, FdTable.rebindPaths_get, Option.map_map]
    rfl
  have hpath : ∀ entry path, entry.path = some path →
      ((FdEntry.rebindPath entry old new).rebindPath new old).path =
        some (if old <+: path then path else move new old path) := by
    intro entry path hpath
    rw [FdTable.rebindPath_path, FdTable.rebindPath_path, hpath, Option.map_some, Option.map_some, move_move]
  constructor
  · rintro ⟨hkept, hcwd⟩
    refine ⟨fun fd entry rest hentry hrecorded hi => ?_, fun hdir => ?_⟩
    · obtain ⟨entry', path', hentry', _, hpath', hafter⟩ := hkept fd entry _ hentry hrecorded hi
        ⟨new ++ rest, by rw [exchanged_names hapart, swap_append_right hapart]; exact hi⟩
      rw [hfds, hentry] at hentry'
      cases hentry'
      rw [hpath entry _ hrecorded, if_pos (List.prefix_append old rest)] at hpath'
      cases hpath'
      rw [exchanged_names hapart, swap_append_left] at hafter
      exact hafter
    · obtain ⟨node, hlookup, hnode⟩ := hdir
      obtain ⟨i, hi, hin⟩ := PathTree.lookupPath_eq_some.mp hlookup
      have hafter := hcwd i ⟨node, hlookup, hnode⟩ hi
      rw [exchanged_names hapart] at hafter
      have hsame : swap old new vfs.rootfs.cwd = vfs.rootfs.cwd := hwf.unique _ _ i node hafter hi hin hnode
      constructor
      · rintro ⟨rest, hrest⟩
        rw [← hrest, swap_append_left] at hsame
        exact hapart.symm.not_both ⟨rest, hsame⟩ ⟨rest, rfl⟩
      · rintro ⟨rest, hrest⟩
        rw [← hrest, swap_append_right hapart] at hsame
        exact hapart.not_both ⟨rest, hsame⟩ ⟨rest, rfl⟩
  · rintro ⟨hspares, hcwd⟩
    refine ⟨fun fd entry path hentry hrecorded hi _ => ?_, fun i hdir hi => ?_⟩
    · refine ⟨(entry.rebindPath old new).rebindPath new old, if old <+: path then path else move new old path,
        ?_, ?_, hpath entry path hrecorded, ?_⟩
      · rw [hfds, hentry]
        rfl
      · rw [FdTable.rebindPath_inodeId, FdTable.rebindPath_inodeId]
      · rw [exchanged_names hapart]
        by_cases hold : old <+: path
        · rw [if_pos hold]
          obtain ⟨rest, rfl⟩ := hold
          rw [swap_append_left]
          exact hspares fd entry rest hentry hrecorded hi
        · rw [if_neg hold]
          by_cases hnew : new <+: path
          · obtain ⟨rest, rfl⟩ := hnew
            rw [move_append, swap_append_left]
            exact hi
          · rw [move_elsewhere hnew, swap_elsewhere hold hnew]
            exact hi
    · obtain ⟨hold, hnew⟩ := hcwd hdir
      show (vfs.exchanged old new).tree.nodes.get? vfs.rootfs.cwd = some i
      rw [exchanged_names hapart, swap_elsewhere hold hnew]
      exact hi

theorem HandlesKept.refl (vfs : VirtualFileSystem) : HandlesKept vfs vfs :=
  ⟨fun _ entry path hentry hpath hi _ => ⟨entry, path, hentry, rfl, hpath, hi⟩, fun _ _ hi => hi⟩

/-- A rename keeps every handle where it was exactly when no record is in its way. -/
theorem renameat2_keeps_handles_iff (hwf : vfs.tree.Wf) {olddirfd newdirfd : Fd} {oldpath newpath : String}
    {flags : UInt32} (hrun : renameat2 olddirfd oldpath newdirfd newpath flags vfs = (.ok (), vfs')) :
    ∃ old new, vfs.resolveAt olddirfd oldpath .nofollowFinal = .ok old ∧
      vfs.resolveAt newdirfd newpath .nofollowFinal = .ok new ∧
      (HandlesKept vfs vfs' ↔ vfs.RenameSpares flags old.guestPath new.guestPath) := by
  obtain ⟨ends, hends, hrenamed⟩ := wp_ok (renameat2_spec hwf olddirfd oldpath newdirfd newpath flags) hrun
  obtain ⟨old, new, hold, hnew, hpaths⟩ := renameEnds_paths hends
  refine ⟨old, new, hold, hnew, ?_⟩
  cases hrenamed with
  | same =>
      rcases hpaths with ⟨_, heq⟩ | ⟨i, hi⟩
      · exact ⟨fun _ => Or.inl heq, fun _ => .refl vfs⟩
      · nomatch hi
  | exchange hflags hfound hapart =>
      rcases hpaths with ⟨hnone, _⟩ | ⟨i, hi⟩
      · nomatch hnone
      · cases hi
        rw [exchanged_keeps_iff hwf hapart, RenameSpares, if_pos hflags]
        exact (or_iff_right hfound.ne).symm
  | move hflags hfound hinside hvalid =>
      rcases hpaths with ⟨hnone, _⟩ | ⟨i, hi⟩
      · nomatch hnone
      · cases hi
        rw [moved_keeps_iff hwf hfound hinside hvalid, RenameSpares, if_neg (not_not.mpr hflags)]
        exact (or_iff_right hfound.ne).symm

def openDirectory : VirtualFileSystem :=
  blank.run .empty [.mkdirat atFdcwd "/a" 0o755, .mkdirat atFdcwd "/b" 0o755, .openat atFdcwd "/a" ⟨oDirectory⟩ 0]

/-- The open directory is found under its new name. -/
theorem openDirectory_rename :
    ∃ vfs', renameat2 atFdcwd "/a" atFdcwd "/c" 0 openDirectory = (.ok (), vfs') ∧ HandlesKept openDirectory vfs' ∧
      (vfs'.fds.entries.get? 0).map (·.path) = some (some ["c"]) := by
  have hfresh : blank.tree.FreshId := by
    unfold PathTree.FreshId
    decide +kernel
  have hfresh' : (blank.step .empty (.mkdirat atFdcwd "/a" 0o755)).tree.FreshId := by
    unfold PathTree.FreshId
    decide +kernel
  have hwf : openDirectory.tree.Wf :=
    run_wf [.mkdirat atFdcwd "/a" 0o755, .mkdirat atFdcwd "/b" 0o755, .openat atFdcwd "/a" ⟨oDirectory⟩ 0] new_wf
      ⟨hfresh, hfresh', fun h => (nomatch h), trivial⟩
  have hresult : (renameat2 atFdcwd "/a" atFdcwd "/c" 0 openDirectory).1.toOption = some () := by decide +kernel
  obtain ⟨old, new, hold, hnew, hkeeps⟩ := renameat2_keeps_handles_iff hwf (run_eq (toOption_eq_some.mp hresult))
  have hfrom : (openDirectory.resolveAt atFdcwd "/a" .nofollowFinal).toOption.map (·.guestPath) = some ["a"] := by
    decide +kernel
  have hto : (openDirectory.resolveAt atFdcwd "/c" .nofollowFinal).toOption.map (·.guestPath) = some ["c"] := by
    decide +kernel
  rw [hold] at hfrom
  rw [hnew] at hto
  have hfrom : old.guestPath = ["a"] := Option.some.inj hfrom
  have hto : new.guestPath = ["c"] := Option.some.inj hto
  refine ⟨_, run_eq (toOption_eq_some.mp hresult), hkeeps.mpr (.inr ?_), by decide +kernel⟩
  rw [hfrom, hto, if_neg (by decide)]
  -- nothing is open at the target, and the working directory is the root
  refine ⟨fun fd entry hentry hpath => ?_, fun _ => ⟨by decide +kernel, by decide +kernel⟩⟩
  have hpaths : ∀ e ∈ openDirectory.fds.entries.entries, e.2.path ≠ some ["c"] := by decide +kernel
  exact absurd hpath (hpaths _ (SortedMap.get?_eq_some_iff.mp hentry))

def workingDirectory : VirtualFileSystem := blank.run .empty [.mkdirat atFdcwd "/a" 0o755, .chdir "/a"]

/-- After an exchange the open directory is not where its descriptor says; after a rename the working
directory leads nowhere. -/
theorem rename_loses_handles :
    (renameat2 atFdcwd "/a" atFdcwd "/b" renameExchange openDirectory).1 = .ok () ∧
      ¬ HandlesKept openDirectory (renameat2 atFdcwd "/a" atFdcwd "/b" renameExchange openDirectory).2 ∧
      (renameat2 atFdcwd "/a" atFdcwd "/b" 0 workingDirectory).1 = .ok () ∧
      ¬ HandlesKept workingDirectory (renameat2 atFdcwd "/a" atFdcwd "/b" 0 workingDirectory).2 := by
  refine ⟨toOption_eq_some.mp (by decide +kernel), fun hkept => ?_, toOption_eq_some.mp (by decide +kernel), fun hkept => ?_⟩
  · have hopen : (openDirectory.fds.entries.get? 0).map (fun entry => (entry.inodeId, entry.path)) =
        some (2, some ["a"]) := by decide +kernel
    have hbefore : openDirectory.tree.nodes.get? ["a"] = some 2 := by decide +kernel
    have hstill : (renameat2 atFdcwd "/a" atFdcwd "/b" renameExchange openDirectory).2.tree.nodes.get? ["b"] = some 2 := by
      decide +kernel
    have hrecord : ((renameat2 atFdcwd "/a" atFdcwd "/b" renameExchange openDirectory).2.fds.entries.get? 0).map
        FdEntry.path = some (some ["a"]) := by decide +kernel
    have hafter : (renameat2 atFdcwd "/a" atFdcwd "/b" renameExchange openDirectory).2.tree.nodes.get? ["a"] = some 3 := by
      decide +kernel
    obtain ⟨entry, hentry, heq⟩ := Option.map_eq_some_iff.mp hopen
    obtain ⟨hid, hpath⟩ := Prod.mk.inj heq
    obtain ⟨entry', path', hentry', _, hpath', hnames⟩ :=
      hkept.fds 0 entry ["a"] hentry hpath (hid ▸ hbefore) ⟨["b"], hid ▸ hstill⟩
    rw [hentry', Option.map_some, hpath'] at hrecord
    cases hrecord
    rw [hafter, hid] at hnames
    nomatch hnames
  · have hdir : (workingDirectory.tree.lookupPath workingDirectory.rootfs.cwd).map PathNode.isDirectory = some true := by
      decide +kernel
    have hbefore : workingDirectory.tree.nodes.get? workingDirectory.rootfs.cwd = some 2 := by decide +kernel
    have hafter : (renameat2 atFdcwd "/a" atFdcwd "/b" 0 workingDirectory).2.tree.nodes.get?
        (renameat2 atFdcwd "/a" atFdcwd "/b" 0 workingDirectory).2.rootfs.cwd = none := by decide +kernel
    have hnames := hkept.cwd 2 (Option.map_eq_some_iff.mp hdir) hbefore
    rw [hafter] at hnames
    nomatch hnames

end VirtualFileSystem

end Mcr.Vfs
