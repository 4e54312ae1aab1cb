import Mcr.Vfs.Mount
import Mcr.Vfs.OpenCall

/-!
# Every step has one of the effects

The calls are put together: from a well-formed tree, and with free ids where a call hands out any, the
state a call leaves is related to the one it found by `Effect`. That the tree stays well formed is the
first invariant read off it.
-/

namespace Mcr.Vfs

open Prog

namespace VirtualFileSystem

variable {vfs : VirtualFileSystem} {host : Host}

theorem HasEffect.discard {α : Type} {op : Op} {call : Call α} (h : HasEffect host vfs op call) :
    HasEffect host vfs op (do let _ ← call) := by
  unfold HasEffect
  rw [wp_bind]
  exact wp_mono h (fun _ _ heffect => (wp_pure _).mpr heffect) (fun _ _ heffect => heffect)

theorem treeMut_effect (hwf : vfs.tree.Wf) {op : TreeOp} (hsane : op.Sane vfs.tree) :
    HasEffect host vfs (.treeMut op) (treeMut op.exec) := by
  have hbuilt : ∀ tree', vfs.tree.Grown tree' →
      Effect host vfs (setTree tree' { vfs with cache := vfs.cache.invalidateAll }) (.treeMut op) :=
    fun tree' hgrown => .built rfl hgrown vfs.cache.invalidateAll_drops rfl
  unfold HasEffect treeMut invalidateVfsCaches onCache
  rw [wp_bind, wp_modify, onTree, wp_zoom]
  exact wp_mono (PathTree.treeOp_spec hwf hsane) (fun _ tree' h => hbuilt tree' h) (fun _ tree' h => hbuilt tree' h)

theorem mount_effect {op : Op} {mount : PathTree.Call Unit}
    (hop : op = .mountMinimalDevfs ∧ mount = PathTree.mountMinimalDevfs ∨
      op = .mountMinimalProcfs ∧ mount = PathTree.mountMinimalProcfs)
    (hmount : wp mount (fun _ tree' => vfs.tree.Grown tree') (fun _ tree' => vfs.tree.Grown tree') vfs.tree) :
    HasEffect host vfs op (do onTree mount; invalidateVfsCaches) := by
  have hsetup : op.isSetup = true := by rcases hop with ⟨rfl, _⟩ | ⟨rfl, _⟩ <;> rfl
  unfold HasEffect
  rw [wp_bind, onTree, wp_zoom, wp_iff]
  constructor
  · intro _ tree' hrun
    have hgrown : vfs.tree.Grown tree' := (wp_iff.mp hmount).1 _ tree' hrun
    rw [invalidateVfsCaches, onCache, wp_modify]
    exact .built hsetup hgrown vfs.cache.invalidateAll_drops rfl
  · intro error tree' hrun
    have hgrown : vfs.tree.Grown tree' := (wp_iff.mp hmount).2 error tree' hrun
    exact .mountFailed hop hrun hgrown rfl rfl

theorem exec_effect (hwf : vfs.tree.Wf) {op : Op} (hsane : vfs.Sane op) : HasEffect host vfs op (op.exec host) := by
  cases op with
  | treeMut op => exact treeMut_effect hwf hsane
  | mountMinimalDevfs => exact mount_effect (Or.inl ⟨rfl, rfl⟩) (PathTree.mountMinimalDevfs_spec hwf hsane)
  | mountMinimalProcfs => exact mount_effect (Or.inr ⟨rfl, rfl⟩) (PathTree.mountMinimalProcfs_spec hwf hsane)
  | setProcSelf procSelf => exact (setProcSelf_quiet procSelf).hasEffect rfl
  | replaceFds fds => exact HasEffect.discard (by unfold HasEffect replaceFds; simpa using .replaceFds rfl)
  | closeOnExec => exact (IsQuiet.onFiles Files.closeOnExec_tame vfs).hasEffect rfl
  | takeStdout => exact (takeStdout_quiet.hasEffect rfl).discard
  | takeStderr => exact (takeStderr_quiet.hasEffect rfl).discard
  | chdir path => exact (IsQuiet.of_keeps (chdir_keeps path) vfs).hasEffect rfl
  | setUmask mask => exact ((setUmask_quiet mask).hasEffect rfl).discard
  | openat dirfd path flags mode => exact (openat_effect hwf dirfd path flags mode hsane).discard
  | close fd => exact close_effect fd
  | closeWithFile fd => exact (closeWithFile_effect fd).discard
  | read fd len => exact ((read_quiet host fd len).hasEffect rfl).discard
  | pread fd offset len => exact ((pread_quiet host fd offset len).hasEffect rfl).discard
  | readvRegular fd lengths => exact ((readvRegular_quiet host fd lengths).hasEffect rfl).discard
  | mapReadonlyRegularFileAt fd offset len =>
      exact ((mapReadonlyRegularFileAt_quiet host fd offset len).hasEffect rfl).discard
  | write fd bytes => exact (write_effect fd bytes).discard
  | pwrite fd offset bytes => exact (pwrite_effect fd offset bytes).discard
  | writevRegular fd buffers => exact (writevRegular_effect fd buffers).discard
  | ftruncate fd length => exact ftruncate_effect fd length
  | fallocate fd offset length => exact fallocate_effect fd offset length
  | lseek fd offset whence => exact ((IsQuiet.of_keeps (lseek_keeps fd offset whence) vfs).hasEffect rfl).discard
  | pipe flags => exact ((IsQuiet.onFiles (Files.pipe_tame host flags) vfs).hasEffect rfl).discard
  | insertSocket socketId flags =>
      exact ((IsQuiet.onFiles (Files.insertSocket_tame socketId flags) vfs).hasEffect rfl).discard
  | insertEpoll epollId flags =>
      exact ((IsQuiet.onFiles (Files.insertEpoll_tame epollId flags) vfs).hasEffect rfl).discard
  | eventfd initial flags => exact ((IsQuiet.onFiles (Files.eventfd_tame initial flags) vfs).hasEffect rfl).discard
  | dup oldfd => exact ((IsQuiet.onFiles (Files.dup_tame oldfd firstAllocFd false) vfs).hasEffect rfl).discard
  | dup2 oldfd newfd => exact ((IsQuiet.onFiles (Files.dup2_tame oldfd newfd false) vfs).hasEffect rfl).discard
  | dup3 oldfd newfd flags => exact ((dup3_quiet oldfd newfd flags).hasEffect rfl).discard
  | fcntl fd cmd arg => exact ((fcntl_quiet fd cmd arg).hasEffect rfl).discard
  | fstat fd => exact ((fstat_quiet hwf fd).hasEffect rfl).discard
  | newfstatat dirfd path flags => exact ((newfstatat_quiet hwf dirfd path flags).hasEffect rfl).discard
  | statx dirfd path flags => exact ((newfstatat_quiet hwf dirfd path flags).hasEffect rfl).discard
  | access path mode => exact (access_quiet hwf path mode).hasEffect rfl
  | faccessat2 dirfd path mode flags => exact (faccessat2_quiet hwf dirfd path mode flags).hasEffect rfl
  | getdents64 fd maxBytes => exact ((getdents64_quiet hwf fd maxBytes).hasEffect rfl).discard
  | chmod path mode => exact changeMetadata_effect hwf _ path fun metadata => metadata.setMode_kindBits mode
  | chown path uid gid =>
      show HasEffect host vfs _ (changeMetadata path (·.setOwner uid gid))
      exact changeMetadata_effect hwf _ path fun _ => rfl
  | utimensat dirfd path times flags => exact utimensat_effect dirfd path times flags
  | mkdirat dirfd path mode => exact mkdirat_effect hwf hsane dirfd path mode
  | symlinkat target newdirfd linkpath => exact symlinkat_effect hwf hsane target newdirfd linkpath
  | linkat olddirfd oldpath newdirfd newpath flags =>
      exact linkat_effect hwf olddirfd oldpath newdirfd newpath flags
  | unlinkat dirfd path flags => exact unlinkat_effect hwf dirfd path flags
  | renameat2 olddirfd oldpath newdirfd newpath flags =>
      refine wp_mono (renameat2_spec hwf olddirfd oldpath newdirfd newpath flags) ?_
        (fun _ _ h => h ▸ .unchanged rfl)
      rintro _ vfs' ⟨ends, hends, hrenamed⟩
      exact .renamed hends hrenamed

variable (host) in
theorem step_effect (hwf : vfs.tree.Wf) {op : Op} (hsane : vfs.Sane op) :
    Effect host vfs (vfs.step host op) op :=
  wp_state (exec_effect hwf hsane)

/-! ### The tree stays well formed -/

theorem unlinked_wf (hwf : vfs.tree.Wf) {path : GuestPath} (hleaf : ∀ c, vfs.tree.nodes.get? (path ++ [c]) = none)
    (i : InodeId) : (dropLink i (setTree (vfs.tree.dropPath path) vfs)).tree.Wf :=
  dropLink_wf i (hwf.dropPath hleaf)

theorem Effect.wf {vfs' : VirtualFileSystem} {op : Op} (h : Effect host vfs vfs' op) (hwf : vfs.tree.Wf) :
    vfs'.tree.Wf := by
  have hset : ∀ {i node node'}, vfs.tree.inodes.get? i = some node → node.Same node' →
      vfs'.tree = vfs.tree.setNode i node' → vfs'.tree.Wf := by
    intro i node node' hnode hsame htree
    rw [htree]
    exact hwf.setInode hnode hsame.inodeId hsame.isDirectory
  cases h with
  | unchanged hcore => rw [(core_eq hcore).1]; exact hwf
  | quiet _ htree => rw [htree]; exact hwf
  | replaceFds hvfs => rw [hvfs]; exact hwf
  | rewrite hnode hsame _ htree => exact hset hnode hsame htree
  | loaded hnode hpath hdata htree => exact hset hnode (PathNode.Loaded.same ⟨_, _, hpath, hdata, rfl⟩) htree
  | emptyWrite _ _ hnode hsame htree => exact hset hnode hsame htree
  | opened _ _ htree => rw [htree]; exact hwf
  | truncated _ _ _ hnode _ hsame htree => exact hset hnode hsame htree
  | created _ _ _ hdir hnew hid hfresh _ htree => rw [htree]; exact PathTree.addFresh_wf hwf hdir hnew hid hfresh
  | closed _ _ _ hend =>
      rcases hend with ⟨htree, _⟩ | ⟨hunnamed, htree, _⟩
      · rw [htree]
        exact hwf
      · rw [htree]
        exact hwf.removeInode hunnamed
  | named _ hdir hnew hid hfresh htree => rw [htree]; exact PathTree.addFresh_wf hwf hdir hnew hid hfresh
  | linked _ hdir hnew hnode hfile hsame _ htree =>
      rw [htree]
      refine (hwf.setInode hnode hsame.inodeId hsame.isDirectory).addLink ?_ hnew (by simp)
        (hsame.isDirectory.trans hfile)
      exact PathTree.isDir_setNode hnode hsame hdir
  | unlinked _ _ hleaf htree => rw [htree]; exact unlinked_wf hwf hleaf _
  | renamed _ hrenamed => exact hrenamed.wf hwf
  | built _ htree => exact htree.wf hwf
  | mountFailed _ _ htree => exact htree.wf hwf

end VirtualFileSystem

end Mcr.Vfs
