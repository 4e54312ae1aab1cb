import Mcr.Net.Modes
import Mcr.Runtime.FileSystem
import Mcr.Vfs.FdCalls

/-!
# The non-blocking flag of a socket

`O_NONBLOCK` of a socket is kept by the open description of its descriptors, by the guest socket and by the
host handle. The calls that make sockets and change the flag are followed over the tables of all processes:
the copies agree in every state of a run in which `FIONBIO` repeats the flag a socket has and a connection is
accepted with the flag of its listener. `fcntl` keeps them equal by itself.
-/

namespace Mcr.Runtime

open Vfs (Fd FdEntry FdTable Files OpenFlags Shared VirtualFileSystem oNonblock fGetfl fSetfl)
open Net (GuestSocketTable HostNet Modes NetState SameModes SocketId)
open Prog (Along Keeps wp_bind wp_get wp_mapError wp_mono wp_pure wp_throw wp_zoom)

variable {σ ω μ : Type}

/-! ### The flag -/

def nonblocking (flags : OpenFlags) : Bool := flags.raw &&& oNonblock ≠ 0

theorem nonblocking_withStatusFlags (flags : OpenFlags) (status : UInt32) :
    nonblocking (flags.withStatusFlags status) = nonblocking ⟨status⟩ := by
  have hdrop : ~~~Vfs.setflMutableFlags &&& oNonblock = 0 := by decide
  have hkeep : Vfs.setflMutableFlags &&& oNonblock = oNonblock := by decide
  have hbit : ((flags.raw &&& ~~~Vfs.setflMutableFlags) ||| (status &&& Vfs.setflMutableFlags)) &&& oNonblock =
      status &&& oNonblock := by
    rw [UInt32.or_comm, Vfs.or_and_mask hdrop, UInt32.and_assoc, hkeep]
  simp only [nonblocking, OpenFlags.withStatusFlags, hbit]

theorem nonblocking_next (flags : UInt32) (value : Nat) :
    nonblocking ⟨if value ≠ 0 then flags ||| oNonblock else flags &&& ~~~oNonblock⟩ = decide (value ≠ 0) := by
  have hset : (flags ||| oNonblock) &&& oNonblock = oNonblock := by
    apply UInt32.toBitVec_inj.mp
    ext i
    simp
    tauto
  have hclear : flags &&& ~~~oNonblock &&& oNonblock = 0 := by
    rw [UInt32.and_assoc, show ~~~oNonblock &&& oNonblock = 0 by decide]
    simp
  by_cases hvalue : value ≠ 0
  · rw [if_pos hvalue, nonblocking, hset, decide_eq_true hvalue]
    decide
  · rw [if_neg hvalue, nonblocking, hclear, decide_eq_false hvalue]
    decide

theorem nonblocking_socketFlags (cloexec nonblock : Bool) :
    nonblocking ⟨Vfs.oRdwr ||| (socketFlags cloexec nonblock &&& oNonblock)⟩ = nonblock := by
  cases cloexec <;> cases nonblock <;> decide

/-! ### Agreement -/

def HoldsEntry (table : FdTable) (entry : FdEntry) : Prop := ∃ fd, table.entries.get? fd = some entry

/-- The descriptors `live` of all tables: two of them share a description exactly if they are copies of one
another, and for a socket the description has its mode. -/
structure Agreement (live : FdEntry → Prop) (shared : Shared) (table : GuestSocketTable σ) : Prop where
  modes : Modes table
  known : ∀ entry, live entry → entry.description < shared.nextDescription
  apart : ∀ entry entry', live entry → live entry' → entry.description = entry'.description →
    entry.file.inode.backend = entry'.file.inode.backend
  one : ∀ entry entry' id, live entry → live entry' → entry.file.inode.backend = .socket id →
    entry'.file.inode.backend = .socket id → entry.description = entry'.description
  agrees : ∀ entry id, live entry → entry.file.inode.backend = .socket id →
    ∃ socket, table.sockets.get? id = some socket ∧
      nonblocking (shared.description entry.description).flags = socket.flags.nonblocking

namespace Agreement

variable {live live' : FdEntry → Prop} {shared shared' : Shared} {net net' : NetState σ ω}

theorem mono (h : Agreement live shared net.table) (hlive : ∀ entry, live' entry → live entry)
    (hdescription : shared'.description = shared.description)
    (hnext : shared'.nextDescription = shared.nextDescription) : Agreement live' shared' net.table := by
  refine ⟨h.modes, fun entry he => ?_, fun entry entry' he he' => h.apart entry entry' (hlive _ he) (hlive _ he'),
    fun entry entry' id he he' => h.one entry entry' id (hlive _ he) (hlive _ he'), fun entry id he hid => ?_⟩
  · rw [hnext]
    exact h.known entry (hlive _ he)
  · rw [hdescription]
    exact h.agrees entry id (hlive _ he) hid

theorem keep (h : Agreement live shared net.table) (hsame : SameModes net net') : Agreement live shared net'.table := by
  obtain ⟨hmodes, hkept⟩ := hsame h.modes
  refine ⟨hmodes, h.known, h.apart, h.one, fun entry id he hid => ?_⟩
  obtain ⟨socket, hsocket, hflag⟩ := h.agrees entry id he hid
  obtain ⟨socket', hsocket', hflag'⟩ := hkept id socket hsocket
  exact ⟨socket', hsocket', hflag.trans hflag'.symm⟩

theorem setFlags (h : Agreement live shared net.table) {entry : FdEntry} (hlive : live entry) {flags : OpenFlags}
    (hflags : ∀ id, entry.file.inode.backend = .socket id →
      nonblocking flags = nonblocking (shared.description entry.description).flags) :
    Agreement live (shared.setDescription entry.description
      { shared.description entry.description with flags := flags }) net.table := by
  refine ⟨h.modes, h.known, h.apart, h.one, fun e id he hid => ?_⟩
  obtain ⟨socket, hsocket, hflag⟩ := h.agrees e id he hid
  refine ⟨socket, hsocket, ?_⟩
  simp only [Shared.setDescription]
  split
  · rename_i hsame
    rw [hflags id ((h.apart e entry he hlive hsame).symm.trans hid), ← hsame]
    exact hflag
  · exact hflag

theorem setMode (h : Agreement live shared net.table) {entry : FdEntry} (hlive : live entry) {id : SocketId}
    (hid : entry.file.inode.backend = .socket id) {flags : OpenFlags}
    (hset : Net.ModeSet net net' id (nonblocking flags)) :
    Agreement live (shared.setDescription entry.description
      { shared.description entry.description with flags := flags }) net'.table := by
  refine ⟨hset.modes, h.known, h.apart, h.one, fun e i he hi => ?_⟩
  simp only [Shared.setDescription]
  by_cases hsame : i = id
  · subst hsame
    rw [if_pos (h.one e entry i he hlive hi hid)]
    obtain ⟨socket, hsocket, hflag⟩ := hset.set
    exact ⟨socket, hsocket, hflag.symm⟩
  · have hother : e.description ≠ entry.description := by
      intro heq
      have := h.apart e entry he hlive heq
      rw [hi, hid] at this
      cases this
      exact hsame rfl
    rw [if_neg hother, hset.others i hsame]
    exact h.agrees e i he hi

theorem insert (h : Agreement live shared net.table) {entry : FdEntry} {id : SocketId} {flags : OpenFlags}
    (hcreated : Net.Created net net' id (nonblocking flags))
    (hentry : entry.description = shared.nextDescription) (hid : entry.file.inode.backend = .socket id)
    (hlive : ∀ e, live' e → live e ∨ e = entry)
    (hdescription : shared'.description = (shared.withDescription flags).description)
    (hnext : shared'.nextDescription = (shared.withDescription flags).nextDescription) :
    Agreement live' shared' net'.table := by
  have hold : ∀ e, live e → e.description ≠ shared.nextDescription := fun e he => (h.known e he).ne
  have hunused : ∀ e, live e → e.file.inode.backend ≠ .socket id := by
    intro e he hbackend
    obtain ⟨socket, hsocket, _⟩ := h.agrees e id he hbackend
    rw [hcreated.new] at hsocket
    nomatch hsocket
  refine ⟨hcreated.modes, fun e he => ?_, fun e e' he he' heq => ?_, fun e e' i he he' hi hi' => ?_,
    fun e i he hi => ?_⟩
  · rw [hnext]
    rcases hlive e he with he | rfl
    · exact Nat.lt_succ_of_lt (h.known e he)
    · rw [hentry]
      exact Nat.lt_succ_self _
  · rcases hlive e he with he | rfl
    · rcases hlive e' he' with he' | rfl
      · exact h.apart e e' he he' heq
      · exact absurd (heq.trans hentry) (hold e he)
    · rcases hlive e' he' with he' | rfl
      · exact absurd (heq.symm.trans hentry) (hold e' he')
      · rfl
  · rcases hlive e he with he | rfl
    · rcases hlive e' he' with he' | rfl
      · exact h.one e e' i he he' hi hi'
      · rw [hid] at hi'
        cases hi'
        exact absurd hi (hunused e he)
    · rcases hlive e' he' with he' | rfl
      · rw [hid] at hi
        cases hi
        exact absurd hi' (hunused e' he')
      · rfl
  · rw [hdescription]
    simp only [Shared.withDescription, Shared.setDescription]
    rcases hlive e he with he | rfl
    · rw [if_neg (hold e he)]
      obtain ⟨socket, hsocket, hflag⟩ := h.agrees e i he hi
      obtain ⟨socket', hsocket', hflag'⟩ := hcreated.kept i socket hsocket
      exact ⟨socket', hsocket', hflag.trans hflag'.symm⟩
    · rw [if_pos hentry]
      rw [hid] at hi
      cases hi
      obtain ⟨socket, hsocket, hflag⟩ := hcreated.made
      exact ⟨socket, hsocket, hflag.symm⟩

end Agreement

/-! ### Calls on descriptors -/

/-- Descriptors are copied or dropped, and descriptions left alone. -/
structure Copied (files files' : Files) : Prop where
  entries : ∀ entry, HoldsEntry files'.fds entry → HoldsEntry files.fds entry
  description : files'.shared.description = files.shared.description
  next : files'.shared.nextDescription = files.shared.nextDescription

theorem Copied.refl (files : Files) : Copied files files := ⟨fun _ h => h, rfl, rfl⟩

theorem Copied.trans {files files' files'' : Files} (h : Copied files files') (h' : Copied files' files'') :
    Copied files files'' :=
  ⟨fun e he => h.entries e (h'.entries e he), h'.description.trans h.description, h'.next.trans h.next⟩

theorem Copied.of_entries {files files' : Files} (hentries : files'.fds.entries = files.fds.entries)
    (hdescription : files'.shared.description = files.shared.description)
    (hnext : files'.shared.nextDescription = files.shared.nextDescription) : Copied files files' :=
  ⟨fun _ ⟨fd, he⟩ => ⟨fd, hentries ▸ he⟩, hdescription, hnext⟩

theorem Copied.bound {files files' : Files} {fd oldfd : Fd} {entry : FdEntry} (cloexec : Bool)
    (h : Copied files files') (hentry : files.fds.entries.get? oldfd = some entry) :
    Copied files (files'.bound fd entry cloexec) := by
  have hentries : (files'.bound fd entry cloexec).fds.entries = files'.fds.entries.insert fd entry := rfl
  refine ⟨?_, by simpa [Files.bound] using h.description, by simpa [Files.bound] using h.next⟩
  rintro e ⟨fd', he⟩
  rw [hentries, SortedMap.get?_insert] at he
  split at he
  · cases he
    exact ⟨oldfd, hentry⟩
  · exact h.entries e ⟨fd', he⟩

theorem vacated_copied (files : Files) (fd : Fd) : Copied files (files.vacated fd) := by
  unfold Files.vacated
  cases hentry : files.fds.entries.get? fd with
  | none => exact .refl files
  | some entry =>
      refine ⟨?_, by simp [Files.closed], by simp [Files.closed]⟩
      rintro e ⟨fd', he⟩
      simp only [Files.closed, SortedMap.get?_erase] at he
      split at he
      · nomatch he
      · exact ⟨fd', he⟩

theorem dup_copied {files : Files} (oldfd minFd : Fd) (cloexec : Bool) :
    Copied files (Files.dup oldfd minFd cloexec files).2 := by
  refine Prog.wp_state (wp_mono (Files.dup_spec oldfd minFd cloexec) ?_ fun _ _ h => h ▸ .refl files)
  rintro newfd _ ⟨entry, hentry, _, rfl⟩
  exact (Copied.refl files).bound cloexec hentry

theorem dup2_copied {files : Files} (oldfd newfd : Fd) (cloexec : Bool) :
    Copied files (Files.dup2 oldfd newfd cloexec files).2 := by
  refine Prog.wp_state (wp_mono (Files.dup2_spec oldfd newfd cloexec) ?_ fun _ _ h => h ▸ .refl files)
  rintro fd _ ⟨_, entry, hentry, ⟨_, rfl⟩ | ⟨_, rfl⟩⟩
  · exact .refl _
  · exact (vacated_copied files newfd).bound cloexec hentry

/-- A call that leaves the table's entries and the descriptions alone. -/
def descriptors (files : Files) : SortedMap Fd FdEntry × (Vfs.DescriptionId → Vfs.FdDescription) × Vfs.DescriptionId :=
  (files.fds.entries, files.shared.description, files.shared.nextDescription)

theorem Copied.of_keeps {α : Type} {call : Files.Call α} (h : Keeps descriptors call) (files : Files) :
    Copied files (call files).2 :=
  have hsame := h files
  .of_entries (congrArg Prod.fst hsame) (congrArg (fun d => d.2.1) hsame) (congrArg (fun d => d.2.2) hsame)

theorem get_keepsDescriptors (fd : Fd) : Keeps descriptors (Files.get fd) := .bind .get fun _ => .ofExcept _

theorem setFdFlags_copied {files : Files} (fd : Fd) (flags : UInt32) :
    Copied files (Files.setFdFlags fd flags files).2 := by
  unfold Files.setFdFlags Files.update
  refine Prog.wp_state ?_
  rw [wp_bind, wp_get, wp_bind]
  refine Prog.wp_check (fun _ _ => .refl files) fun fds hfds => ?_
  rw [Prog.wp_modify]
  simp only [FdTable.setCloexec_eq] at hfds
  split at hfds
  · cases hfds
    exact .of_entries rfl rfl rfl
  · nomatch hfds

def CopiedIn (vfs vfs' : VirtualFileSystem) : Prop := Copied vfs.files vfs'.files

instance : Std.Refl CopiedIn := ⟨fun vfs => .refl vfs.files⟩

instance : IsTrans VirtualFileSystem CopiedIn := ⟨fun _ _ _ h h' => Copied.trans h h'⟩

theorem onFiles_along {α : Type} {call : Files.Call α} (h : ∀ files, Copied files (call files).2) :
    Along CopiedIn (VirtualFileSystem.onFiles call) := by
  intro vfs
  have hcall := h vfs.files
  unfold VirtualFileSystem.onFiles Prog.zoom
  rcases hrun : call vfs.files with ⟨r, files⟩
  rw [hrun] at hcall
  exact hcall

theorem fcntl_along (fd : Fd) {cmd : UInt32} (hcmd : cmd ≠ fSetfl) (arg : Nat) :
    Along CopiedIn (VirtualFileSystem.fcntl fd cmd arg) := by
  have hlooks : ∀ {α : Type} {call : Files.Call α}, Keeps descriptors call →
      Along CopiedIn (VirtualFileSystem.onFiles call) := fun h => onFiles_along (Copied.of_keeps h)
  refine .ite ?_ (.ite ?_ (.ite ?_ (.ite ?_ ?_)))
  · exact .bind (.ofExcept _) fun _ => .bind (onFiles_along fun _ => dup_copied _ _ _) fun _ => .pure _
  · refine .bind (hlooks ?_) fun _ => .pure _
    exact .bind (get_keepsDescriptors fd) fun _ => .bind .get fun _ => .pure _
  · exact .bind (onFiles_along fun _ => setFdFlags_copied _ _) fun _ => .pure _
  · refine .bind (hlooks ?_) fun _ => .pure _
    exact .bind (get_keepsDescriptors fd) fun _ => .bind .get fun _ => .pure _
  rw [if_neg hcmd]
  refine .ite ?_ (.ite (hlooks ?_) (.ite (hlooks ?_) (.throw _)))
  · exact .bind (hlooks (get_keepsDescriptors fd)) fun _ => .pure _
  · exact .bind (get_keepsDescriptors fd) fun _ => .bind (.ofExcept _) fun _ => .bind .get fun _ => .pure _
  · refine .bind (get_keepsDescriptors fd) fun _ => .bind (.ofExcept _) fun _ => .bind .get fun _ => ?_
    exact .bind (.ofExcept _) fun _ => .bind (.modify fun _ => rfl) fun _ => .pure _

/-! ### The calls -/

/-- The descriptors of one table and those of the `others` agree with the sockets. -/
def Agree (others : FdEntry → Prop) (fs : RuntimeFileSystem σ ω μ) : Prop :=
  Agreement (fun entry => others entry ∨ HoldsEntry fs.vfs.fds entry) fs.vfs.shared fs.net.table

variable {others : FdEntry → Prop} {fs : RuntimeFileSystem σ ω μ} {host : HostNet σ ω}

/-- The call leaves the descriptors in agreement, whether it succeeds or fails. -/
def KeepsAgreement {α : Type} (others : FdEntry → Prop) (call : FsProg σ ω μ α) (fs : RuntimeFileSystem σ ω μ) :
    Prop :=
  call.wp (fun _ fs' => Agree others fs') (fun _ fs' => Agree others fs') fs

theorem Agree.copied (h : Agree others fs) {vfs' : VirtualFileSystem} (hcopied : CopiedIn fs.vfs vfs') :
    Agree others { fs with vfs := vfs' } :=
  Agreement.mono h (fun entry he => he.imp_right (hcopied.entries entry)) hcopied.description hcopied.next

theorem Agree.same (h : Agree others fs) {net' : NetState σ ω} (hsame : SameModes fs.net net') :
    Agree others { fs with net := net' } :=
  Agreement.keep h hsame

def resources (fs : RuntimeFileSystem σ ω μ) : VirtualFileSystem × NetState σ ω := (fs.vfs, fs.net)

theorem Agree.of_resources {fs' : RuntimeFileSystem σ ω μ} (h : Agree others fs) (hsame : resources fs' = resources fs) :
    Agree others fs' := by
  obtain ⟨hvfs, hnet⟩ := Prod.mk.inj hsame
  unfold Agree
  rw [hvfs, hnet]
  exact h

theorem KeepsAgreement.of_keeps {α : Type} {call : FsProg σ ω μ α} (h : Agree others fs) (hcall : Keeps resources call) :
    KeepsAgreement others call fs :=
  wp_mono (hcall.wp fs) (fun _ _ hsame => h.of_resources hsame) fun _ _ hsame => h.of_resources hsame

theorem KeepsAgreement.bind {α β : Type} {call : FsProg σ ω μ α} {f : α → FsProg σ ω μ β}
    (hcall : KeepsAgreement others call fs) (hf : ∀ a fs', Agree others fs' → KeepsAgreement others (f a) fs') :
    KeepsAgreement others (call >>= f) fs := by
  unfold KeepsAgreement
  rw [wp_bind]
  exact wp_mono hcall hf fun _ _ h => h

theorem onVfs_agrees {α : Type} {call : VirtualFileSystem.Call α} (h : Agree others fs) (hcall : Along CopiedIn call) :
    KeepsAgreement others (onVfs call : FsProg σ ω μ α) fs := by
  unfold KeepsAgreement onVfs
  rw [wp_mapError, wp_zoom]
  exact wp_mono (hcall.wp fs.vfs) (fun _ _ h' => h.copied h') fun _ _ h' => h.copied h'

theorem onNet_agrees {α : Type} {call : Net.TableProg σ ω α} (h : Agree others fs) (hcall : Along SameModes call) :
    KeepsAgreement others (onNet call : FsProg σ ω μ α) fs := by
  unfold KeepsAgreement onNet
  rw [wp_mapError, wp_zoom]
  exact wp_mono (hcall.wp fs.net) (fun _ _ h' => h.same h') fun _ _ h' => h.same h'

/-! #### Descriptors of sockets -/

theorem socketIdForFd_spec {fd : Fd} {Q : SocketId → RuntimeFileSystem σ ω μ → Prop}
    {E : Net.LinuxErrno → RuntimeFileSystem σ ω μ → Prop}
    (hok : ∀ id entry, fs.vfs.fds.entries.get? fd = some entry → entry.file.inode.backend = .socket id → id ≠ 0 →
      Q id fs)
    (herror : ∀ e, (∀ id entry, fs.vfs.fds.entries.get? fd = some entry → entry.file.inode.backend = .socket id →
      id = 0) → E e fs) :
    (socketIdForFd fd : FsProg σ ω μ SocketId).wp Q E fs := by
  unfold socketIdForFd onVfs vfsSocketIdForFd
  rw [wp_bind, wp_mapError, wp_zoom, wp_bind, wp_get, wp_bind]
  refine Prog.wp_check (fun e he => ?_) fun entry hentry => ?_
  · refine herror _ fun id entry hentry _ => ?_
    rw [FdTable.get, Vfs.okOr_eq_ok.mpr hentry] at he
    nomatch he
  rw [FdTable.get, Vfs.okOr_eq_ok] at hentry
  have hnot : (∀ id, entry.file.inode.backend ≠ .socket id) → ∀ id entry', fs.vfs.fds.entries.get? fd = some entry' →
      entry'.file.inode.backend = .socket id → id = 0 := by
    intro hbackend id entry' hentry' hid
    obtain rfl : entry = entry' := Option.some.inj (hentry.symm.trans hentry')
    exact absurd hid (hbackend id)
  cases hbackend : entry.file.inode.backend with
  | socket id =>
      simp only
      rw [wp_pure, Prog.wp_ite]
      split
      · rename_i hzero
        rw [wp_throw]
        refine herror _ fun id' entry' hentry' hid' => ?_
        obtain rfl : entry = entry' := Option.some.inj (hentry.symm.trans hentry')
        rw [hbackend] at hid'
        cases hid'
        exact hzero
      · rename_i hzero
        rw [wp_pure]
        exact hok id entry hentry hbackend hzero
  | hostPath _ _ => exact (wp_throw _).mpr (herror _ (hnot (by rw [hbackend]; exact fun _ => nofun)))
  | procVirtual _ => exact (wp_throw _).mpr (herror _ (hnot (by rw [hbackend]; exact fun _ => nofun)))
  | devVirtual _ => exact (wp_throw _).mpr (herror _ (hnot (by rw [hbackend]; exact fun _ => nofun)))
  | pipe _ _ => exact (wp_throw _).mpr (herror _ (hnot (by rw [hbackend]; exact fun _ => nofun)))
  | epoll _ => exact (wp_throw _).mpr (herror _ (hnot (by rw [hbackend]; exact fun _ => nofun)))
  | eventfd _ _ => exact (wp_throw _).mpr (herror _ (hnot (by rw [hbackend]; exact fun _ => nofun)))

theorem socketIdForFd_keeps (fd : Fd) : Keeps resources (socketIdForFd fd : FsProg σ ω μ SocketId) := fun fs =>
  Prog.wp_state (P := fun fs' => resources fs' = resources fs) (socketIdForFd_spec (fun _ _ _ _ _ => rfl) fun _ _ => rfl)

theorem insertSocket_agrees {id : SocketId} {net : NetState σ ω} {cloexec nonblock : Bool}
    (h : Agree others { fs with net := net })
    (hcreated : Net.Created net fs.net id nonblock) :
    KeepsAgreement others (insertSocket id (socketFlags cloexec nonblock) : FsProg σ ω μ Fd) fs := by
  unfold KeepsAgreement insertSocket onVfs VirtualFileSystem.onFiles
  rw [wp_mapError, wp_zoom, wp_zoom]
  refine wp_mono (Files.insertSocket_spec id _) ?_ ?_
  · rintro fd _ ⟨inodeId, _, rfl⟩
    rw [← nonblocking_socketFlags cloexec nonblock] at hcreated
    have hentry : (⟨⟨⟨inodeId, .socket id⟩, .socket⟩, fs.vfs.shared.nextDescription, none⟩ : FdEntry).description =
      fs.vfs.shared.nextDescription := rfl
    refine Agreement.insert h hcreated hentry rfl (fun entry he => ?_) ?_ ?_
    · refine he.elim (fun he => .inl (.inl he)) ?_
      rintro ⟨fd', he⟩
      rw [show (VirtualFileSystem.setFiles _ fs.vfs).fds.entries = fs.vfs.fds.entries.insert fd _ from rfl,
        SortedMap.get?_insert] at he
      split at he
      · exact .inr (Option.some.inj he).symm
      · exact .inl (.inr ⟨fd', he⟩)
    · simp [Files.inserted, Files.bound, Shared.withDescription, Shared.setDescription, VirtualFileSystem.setFiles,
        VirtualFileSystem.files]
    · simp [Files.inserted, Files.bound, Shared.withDescription, VirtualFileSystem.setFiles, VirtualFileSystem.files]
  · rintro _ _ rfl
    exact Agreement.keep h fun _ => ⟨hcreated.modes, hcreated.kept⟩

theorem sysSocket_agrees (domain kind protocol : UInt32) (h : Agree others fs) :
    KeepsAgreement others (sysSocket domain kind protocol : FsProg σ ω μ Fd) fs := by
  unfold KeepsAgreement sysSocket
  rw [wp_bind, wp_mapError]
  refine Prog.wp_check (fun _ _ => h) fun spec _ => ?_
  rw [wp_bind, onNet, wp_mapError, wp_zoom]
  refine wp_mono (Net.createSocketFromSpec_creates h.modes) (fun id net hcreated => ?_) fun _ _ h' => h.same h'
  exact insertSocket_agrees h hcreated

theorem sysListen_agrees (fd : Fd) (backlog : Nat) (h : Agree others fs) :
    KeepsAgreement others (sysListen host fd backlog : FsProg σ ω μ Unit) fs :=
  .bind (.of_keeps h (socketIdForFd_keeps fd)) fun _ _ h' => onNet_agrees h' Net.listen_along

section Memory

variable [GuestMemoryAccess μ]

/-! #### Memory -/

theorem readBytes_keeps (addr len : Nat) : Keeps resources (readBytes addr len : FsProg σ ω μ (List UInt8)) := by
  refine .bind .get fun fs => ?_
  split
  · exact .pure _
  · exact .throw _

theorem writeBytes_keeps (addr : Nat) (bytes : List UInt8) :
    Keeps resources (writeBytes addr bytes : FsProg σ ω μ Unit) := by
  intro fs
  unfold writeBytes Prog.mapError Prog.zoom
  simp only
  rcases (GuestMemoryAccess.writeBytes addr bytes : Prog μ Unit Unit) fs.memory with ⟨r, memory⟩
  cases r <;> rfl

theorem readSocketAddress_keeps (sockaddr addrlen : Nat) :
    Keeps resources (readSocketAddress sockaddr addrlen : FsProg σ ω μ Net.SocketAddress) := by
  have hread : ∀ {α : Type} (len : Nat) (f : List UInt8 → α),
      Keeps resources (do let bytes ← readBytes sockaddr len; pure (f bytes) : FsProg σ ω μ α) :=
    fun len f => .bind (readBytes_keeps sockaddr len) fun _ => .pure _
  refine .ite (.throw _) (.bind (readBytes_keeps sockaddr 2) fun family => ?_)
  refine .ite (hread _ _) (.ite (.ite (.throw _) (hread _ _)) (.ite (.ite (.throw _) (hread _ _)) (.throw _)))

theorem writeOptionalSocketAddress_keeps (sockaddr addrlenAddr : Nat) (address : Net.SocketAddress) :
    Keeps resources (writeOptionalSocketAddress sockaddr addrlenAddr address : FsProg σ ω μ Unit) := by
  refine .ite (.pure _) (.ite (.throw _) (.bind ?_ fun _ => .bind ?_ fun _ => writeBytes_keeps _ _))
  · exact .bind (readBytes_keeps _ _) fun _ => .pure _
  · exact .ite (writeBytes_keeps _ _) (.pure _)

/-! #### Socket calls -/

theorem addressCall_agrees {call : SocketId → Net.SocketAddress → Net.TableProg σ ω Unit} (fd : Fd)
    (sockaddr addrlen : Nat) (h : Agree others fs) (hcall : ∀ id address, Along SameModes (call id address)) :
    KeepsAgreement others (do
      let id ← socketIdForFd fd
      let address ← readSocketAddress sockaddr addrlen
      onNet (call id address) : FsProg σ ω μ Unit) fs := by
  refine .bind (.of_keeps h (socketIdForFd_keeps fd)) fun id fs' h' => ?_
  exact .bind (.of_keeps h' (readSocketAddress_keeps sockaddr addrlen)) fun address fs'' h'' =>
    onNet_agrees h'' (hcall id address)

/-- A connection waiting for the listener, if any, is asked for with the listener's mode. -/
def AcceptsOwnMode (host : HostNet σ ω) (fs : RuntimeFileSystem σ ω μ) (fd : Fd) (flags : UInt32) : Prop :=
  ∀ entry id listener, fs.vfs.fds.entries.get? fd = some entry → entry.file.inode.backend = .socket id →
    fs.net.table.sockets.get? id = some listener → Net.ConnectionWaits host fs.net id →
      decide (flags &&& sockNonblock ≠ 0) = listener.flags.nonblocking

theorem sysAccept4_agrees (fd : Fd) (sockaddr addrlen : Nat) (flags : UInt32) (h : Agree others fs)
    (hmode : AcceptsOwnMode host fs fd flags) :
    KeepsAgreement others (sysAccept4 host fd sockaddr addrlen flags : FsProg σ ω μ Fd) fs := by
  unfold KeepsAgreement sysAccept4
  rw [Prog.wp_ite]
  split
  · exact (wp_throw _).mpr h
  rw [wp_bind]
  refine socketIdForFd_spec (fun id entry hentry hid _ => ?_) fun _ _ => h
  rw [wp_bind, onNet, wp_mapError, wp_zoom]
  refine wp_mono (Net.accept_creates h.modes) (fun accepted net haccepted => ?_) fun _ _ h' => h.same h'
  obtain ⟨hwaits, listener, hlistener, hcreated⟩ := haccepted
  rw [← hmode entry id listener hentry hid hlistener hwaits] at hcreated
  have hmade : Agree others { fs with net := net } := h.same fun _ => ⟨hcreated.modes, hcreated.kept⟩
  obtain ⟨id', peer⟩ := accepted
  simp only
  rw [wp_bind]
  refine wp_mono ((writeOptionalSocketAddress_keeps sockaddr addrlen peer).wp _) (fun _ fs' hsame => ?_)
    fun _ fs' hsame => hmade.of_resources hsame
  obtain ⟨hvfs, hnet⟩ := Prod.mk.inj hsame
  have hcreated' : Net.Created fs.net fs'.net id' (decide (flags &&& sockNonblock ≠ 0)) := by
    rw [hnet]
    exact hcreated
  refine insertSocket_agrees (h.of_resources ?_) hcreated'
  rw [resources, hvfs]
  rfl

end Memory

/-! #### Status flags -/

theorem setStatusFlags_run {vfs : VirtualFileSystem} {fd : Fd} {entry : FdEntry}
    (hentry : vfs.fds.entries.get? fd = some entry) (arg : Nat) :
    VirtualFileSystem.fcntl fd fSetfl arg vfs = (.ok 0, { vfs with
      shared := vfs.shared.setDescription entry.description { vfs.shared.description entry.description with
        flags := (vfs.shared.description entry.description).flags.withStatusFlags (UInt32.ofNat arg) } }) := by
  have hget : Files.get fd vfs.files = (.ok entry, vfs.files) := by
    rw [Files.get_run, show vfs.files.fds = vfs.fds from rfl, hentry]
    rfl
  have hset : Files.setStatusFlags fd (UInt32.ofNat arg) vfs.files = (.ok (), ⟨vfs.fds,
      vfs.shared.setDescription entry.description { vfs.shared.description entry.description with
        flags := (vfs.shared.description entry.description).flags.withStatusFlags (UInt32.ofNat arg) }⟩) := by
    unfold Files.setStatusFlags
    rw [Prog.run_bind_ok hget]
    rfl
  have hcall : VirtualFileSystem.onFiles (Files.setStatusFlags fd (UInt32.ofNat arg)) vfs = (.ok (), { vfs with
      shared := vfs.shared.setDescription entry.description { vfs.shared.description entry.description with
        flags := (vfs.shared.description entry.description).flags.withStatusFlags (UInt32.ofNat arg) } }) := by
    unfold VirtualFileSystem.onFiles Prog.zoom
    rw [hset]
    rfl
  unfold VirtualFileSystem.fcntl
  rw [if_neg (by decide), if_neg (by decide), if_neg (by decide), if_neg (by decide), if_pos rfl]
  exact Prog.run_bind_ok hcall

theorem statusFlags_run {vfs : VirtualFileSystem} {fd : Fd} {entry : FdEntry}
    (hentry : vfs.fds.entries.get? fd = some entry) (arg : Nat) :
    VirtualFileSystem.fcntl fd fGetfl arg vfs =
      (.ok (vfs.shared.description entry.description).flags.raw.toNat, vfs) := by
  have hget : Files.get fd vfs.files = (.ok entry, vfs.files) := by
    rw [Files.get_run, show vfs.files.fds = vfs.fds from rfl, hentry]
    rfl
  have hflags : Files.statusFlags fd vfs.files =
      (.ok (vfs.shared.description entry.description).flags.raw, vfs.files) := by
    unfold Files.statusFlags
    rw [Prog.run_bind_ok hget]
    rfl
  have hcall : VirtualFileSystem.onFiles (Files.statusFlags fd) vfs =
      (.ok (vfs.shared.description entry.description).flags.raw, vfs) := by
    unfold VirtualFileSystem.onFiles Prog.zoom
    rw [hflags]
    rfl
  unfold VirtualFileSystem.fcntl
  rw [if_neg (by decide), if_neg (by decide), if_neg (by decide), if_pos rfl]
  exact Prog.run_bind_ok hcall

theorem missing_run {vfs : VirtualFileSystem} {fd : Fd} {cmd : UInt32} (hcmd : cmd = fGetfl ∨ cmd = fSetfl)
    (hentry : vfs.fds.entries.get? fd = none) (arg : Nat) :
    VirtualFileSystem.fcntl fd cmd arg vfs = (.error .badFd, vfs) := by
  have hget : Files.get fd vfs.files = (.error .badFd, vfs.files) := by
    rw [Files.get_run, show vfs.files.fds = vfs.fds from rfl, hentry]
    rfl
  have hcall : ∀ {α : Type} (f : FdEntry → Files.Call α),
      VirtualFileSystem.onFiles (Files.get fd >>= f) vfs = (.error .badFd, vfs) := by
    intro α f
    unfold VirtualFileSystem.onFiles Prog.zoom
    rw [Prog.run_bind_error hget]
    rfl
  unfold VirtualFileSystem.fcntl
  rcases hcmd with rfl | rfl
  · rw [if_neg (by decide), if_neg (by decide), if_neg (by decide), if_pos rfl]
    exact Prog.run_bind_error (hcall _)
  · rw [if_neg (by decide), if_neg (by decide), if_neg (by decide), if_neg (by decide), if_pos rfl]
    exact Prog.run_bind_error (hcall _)

theorem setOther_agrees (fd : Fd) (arg : Nat) (h : Agree others fs)
    (hother : ∀ id entry, fs.vfs.fds.entries.get? fd = some entry → entry.file.inode.backend = .socket id → id = 0) :
    KeepsAgreement others (onVfs (VirtualFileSystem.fcntl fd fSetfl arg) : FsProg σ ω μ Nat) fs := by
  unfold KeepsAgreement onVfs
  rw [wp_mapError, wp_zoom]
  cases hentry : fs.vfs.fds.entries.get? fd with
  | none => exact Prog.wp_of_error (missing_run (.inr rfl) hentry arg) h
  | some entry =>
      refine Prog.wp_of_run (setStatusFlags_run hentry arg) ?_
      refine Agreement.setFlags h (.inr ⟨fd, hentry⟩) fun id hid => ?_
      -- the identity 0 is never used
      obtain ⟨socket, hsocket, _⟩ := h.agrees entry id (.inr ⟨fd, hentry⟩) hid
      rw [hother id entry hentry hid, h.modes.zero] at hsocket
      nomatch hsocket

theorem sysFcntl_agrees (fd : Fd) (cmd : UInt32) (arg : Nat) (h : Agree others fs) :
    KeepsAgreement others (sysFcntl host fd cmd arg : FsProg σ ω μ Nat) fs := by
  unfold KeepsAgreement sysFcntl setSocketMode
  rw [wp_bind]
  by_cases hcmd : cmd = fSetfl
  · subst hcmd
    rw [if_pos rfl, wp_bind, Prog.wp_attempt]
    refine socketIdForFd_spec (fun id entry hentry hid _ => ?_) fun _ hother => ?_
    · -- the socket layer is told first, and a failure there leaves the description alone
      simp only
      rw [onNet, wp_mapError, wp_zoom]
      refine wp_mono (Net.setNonblocking_sets h.modes) (fun _ net hset => ?_) fun _ _ h' => h.same h'
      unfold onVfs
      rw [wp_mapError, wp_zoom]
      refine Prog.wp_of_run (setStatusFlags_run hentry arg) ?_
      refine Agreement.setMode h (.inr ⟨fd, hentry⟩) hid ?_
      rw [nonblocking_withStatusFlags]
      exact hset
    · rw [wp_pure]
      exact setOther_agrees fd arg h hother
  · rw [if_neg hcmd, wp_pure]
    exact onVfs_agrees h (fcntl_along fd hcmd arg)

section Memory

variable [GuestMemoryAccess μ]

/-- `FIONBIO` gives a socket the flag it has. -/
def RepeatsMode (fs : RuntimeFileSystem σ ω μ) (fd : Fd) (argp : Nat) : Prop :=
  ∀ entry id bytes, fs.vfs.fds.entries.get? fd = some entry → entry.file.inode.backend = .socket id →
    GuestMemoryAccess.readBytes argp 4 fs.memory = some bytes →
      decide (ofLeBytes bytes ≠ 0) = nonblocking (fs.vfs.shared.description entry.description).flags

theorem sysIoctlFionbio_agrees (fd : Fd) (argp : Nat) (h : Agree others fs) (hmode : RepeatsMode fs fd argp) :
    KeepsAgreement others (sysIoctlFionbio fd argp : FsProg σ ω μ Unit) fs := by
  unfold KeepsAgreement sysIoctlFionbio readGuestU32 readBytes
  rw [wp_bind, wp_bind, wp_bind, wp_get]
  cases hbytes : (GuestMemoryAccess.readBytes argp 4 fs.memory : Option (List UInt8)) with
  | none => exact (wp_throw _).mpr h
  | some bytes =>
      simp only
      rw [wp_pure, wp_pure, wp_bind]
      unfold onVfs
      rw [wp_mapError, wp_zoom]
      cases hentry : fs.vfs.fds.entries.get? fd with
      | none => exact Prog.wp_of_error (missing_run (.inl rfl) hentry 0) h
      | some entry =>
          refine Prog.wp_of_run (statusFlags_run hentry 0) ?_
          rw [wp_bind, wp_mapError, wp_zoom]
          refine Prog.wp_of_run (setStatusFlags_run hentry _) ?_
          rw [wp_pure]
          refine Agreement.setFlags h (.inr ⟨fd, hentry⟩) fun id hid => ?_
          rw [nonblocking_withStatusFlags, UInt32.ofNat_toNat, UInt32.ofNat_toNat, nonblocking_next]
          exact hmode entry id bytes hentry hid hbytes

end Memory

/-! ### Runs -/

/-- The calls that make sockets and descriptors for them and set the flag, and those that lead up to an accept. -/
inductive ModeCall
  | socket (domain kind protocol : UInt32)
  | bind (fd : Fd) (sockaddr addrlen : Nat)
  | listen (fd : Fd) (backlog : Nat)
  | connect (fd : Fd) (sockaddr addrlen : Nat)
  | accept (fd : Fd) (sockaddr addrlen : Nat)
  | accept4 (fd : Fd) (sockaddr addrlen : Nat) (flags : UInt32)
  | dup (oldfd : Fd)
  | dup2 (oldfd newfd : Fd)
  | dup3 (oldfd newfd : Fd) (flags : OpenFlags)
  | fcntl (fd : Fd) (cmd : UInt32) (arg : Nat)
  | ioctlFionbio (fd : Fd) (argp : Nat)

namespace ModeCall

variable [GuestMemoryAccess μ]

def exec (host : HostNet σ ω) : ModeCall → FsProg σ ω μ Unit
  | .socket domain kind protocol => do let _ ← sysSocket domain kind protocol
  | .bind fd sockaddr addrlen => sysBind host fd sockaddr addrlen
  | .listen fd backlog => sysListen host fd backlog
  | .connect fd sockaddr addrlen => sysConnect host fd sockaddr addrlen
  | .accept fd sockaddr addrlen => do let _ ← sysAccept4 host fd sockaddr addrlen 0
  | .accept4 fd sockaddr addrlen flags => do let _ ← sysAccept4 host fd sockaddr addrlen flags
  | .dup oldfd => do let _ ← onVfs (VirtualFileSystem.dup oldfd)
  | .dup2 oldfd newfd => do let _ ← onVfs (VirtualFileSystem.dup2 oldfd newfd)
  | .dup3 oldfd newfd flags => do let _ ← onVfs (VirtualFileSystem.dup3 oldfd newfd flags)
  | .fcntl fd cmd arg => do let _ ← sysFcntl host fd cmd arg
  | .ioctlFionbio fd argp => sysIoctlFionbio fd argp

def KeepsMode (host : HostNet σ ω) (fs : RuntimeFileSystem σ ω μ) : ModeCall → Prop
  | .accept fd _ _ => AcceptsOwnMode host fs fd 0
  | .accept4 fd _ _ flags => AcceptsOwnMode host fs fd flags
  | .ioctlFionbio fd argp => RepeatsMode fs fd argp
  | _ => True

theorem exec_agrees (call : ModeCall) (h : Agree others fs) (hmode : call.KeepsMode host fs) :
    KeepsAgreement others (call.exec host) fs := by
  have hdrop : ∀ {α : Type} {prog : FsProg σ ω μ α}, KeepsAgreement others prog fs →
      KeepsAgreement others (do let _ ← prog) fs :=
    fun hprog => .bind hprog fun _ _ h' => (wp_pure _).mpr h'
  cases call with
  | socket domain kind protocol => exact hdrop (sysSocket_agrees domain kind protocol h)
  | bind fd sockaddr addrlen => exact addressCall_agrees fd sockaddr addrlen h fun _ _ => Net.bind_along
  | listen fd backlog => exact sysListen_agrees fd backlog h
  | connect fd sockaddr addrlen => exact addressCall_agrees fd sockaddr addrlen h fun _ _ => Net.connect_along
  | accept fd sockaddr addrlen => exact hdrop (sysAccept4_agrees fd sockaddr addrlen 0 h hmode)
  | accept4 fd sockaddr addrlen flags => exact hdrop (sysAccept4_agrees fd sockaddr addrlen flags h hmode)
  | dup oldfd => exact hdrop (onVfs_agrees h (onFiles_along fun _ => dup_copied _ _ _))
  | dup2 oldfd newfd => exact hdrop (onVfs_agrees h (onFiles_along fun _ => dup2_copied _ _ _))
  | dup3 oldfd newfd flags =>
      exact hdrop (onVfs_agrees h (.bind (.ofExcept _) fun _ => onFiles_along fun _ => dup2_copied _ _ _))
  | fcntl fd cmd arg => exact hdrop (sysFcntl_agrees fd cmd arg h)
  | ioctlFionbio fd argp => exact sysIoctlFionbio_agrees fd argp h hmode

end ModeCall

/-- The descriptor tables of the processes, and what they share; its own table is the one used last. -/
structure Processes (σ ω μ : Type) where
  fs : RuntimeFileSystem σ ω μ
  tables : SortedMap Nat FdTable

inductive ModeStep (μ : Type)
  | call (pid : Nat) (memory : μ) (call : ModeCall)
  | fork (pid child : Nat)

namespace Processes

/-- The state as a call of the process sees it. -/
def select (world : Processes σ ω μ) (table : FdTable) (memory : μ) : RuntimeFileSystem σ ω μ :=
  { world.fs with vfs := { world.fs.vfs with fds := table }, memory := memory }

variable [GuestMemoryAccess μ]

def step (host : HostNet σ ω) (world : Processes σ ω μ) : ModeStep μ → Processes σ ω μ
  | .call pid memory call => match world.tables.get? pid with
    | none => world
    | some table =>
      let fs := (call.exec host (world.select table memory)).2
      ⟨fs, world.tables.insert pid fs.vfs.fds⟩
  | .fork pid child => match world.tables.get? pid, world.tables.get? child with
    | some table, none =>
      ⟨{ world.fs with vfs := { world.fs.vfs with shared := table.clone world.fs.vfs.shared } },
        world.tables.insert child table⟩
    | _, _ => world

def run (host : HostNet σ ω) (world : Processes σ ω μ) (steps : List (ModeStep μ)) : Processes σ ω μ :=
  steps.foldl (step host) world

/-- One process with the standard descriptors, and no sockets. -/
def start (vfs : VirtualFileSystem) (memory : μ) (transport : Bool) (w : ω) : Processes σ ω μ where
  fs := ⟨vfs.setFiles Files.withStdio, memory, ⟨.new transport, w⟩⟩
  tables := SortedMap.empty.insert 1 Files.withStdio.fds

def StepKeepsMode (host : HostNet σ ω) (world : Processes σ ω μ) : ModeStep μ → Prop
  | .call pid memory call => ∀ table, world.tables.get? pid = some table →
    call.KeepsMode host (world.select table memory)
  | .fork _ _ => True

/-- Every step of the run gives a socket the flag it has. -/
def AllKeepMode (host : HostNet σ ω) : Processes σ ω μ → List (ModeStep μ) → Prop
  | _, [] => True
  | world, step :: steps => world.StepKeepsMode host step ∧ AllKeepMode host (world.step host step) steps

def Live (world : Processes σ ω μ) (entry : FdEntry) : Prop :=
  ∃ pid table, world.tables.get? pid = some table ∧ HoldsEntry table entry

def Sound (world : Processes σ ω μ) : Prop := Agreement world.Live world.fs.vfs.shared world.fs.net.table

variable {world : Processes σ ω μ}

theorem step_call {pid : Nat} {table : FdTable} (htable : world.tables.get? pid = some table) (memory : μ)
    (call : ModeCall) : world.step host (.call pid memory call) =
      ⟨(call.exec host (world.select table memory)).2,
        world.tables.insert pid (call.exec host (world.select table memory)).2.vfs.fds⟩ := by
  simp only [step, htable]

theorem Sound.call (h : world.Sound) {pid : Nat} {table : FdTable} (htable : world.tables.get? pid = some table)
    {memory : μ} {call : ModeCall} (hmode : call.KeepsMode host (world.select table memory)) :
    (world.step host (.call pid memory call)).Sound := by
  let others : FdEntry → Prop := fun entry => ∃ pid' table', pid' ≠ pid ∧ world.tables.get? pid' = some table' ∧
    HoldsEntry table' entry
  have hagree : Agree others (world.select table memory) := by
    refine Agreement.mono h ?_ rfl rfl
    rintro entry (⟨pid', table', _, htable', he⟩ | he)
    · exact ⟨pid', table', htable', he⟩
    · exact ⟨pid, table, htable, he⟩
  have hafter := Prog.wp_state (P := Agree others) (call.exec_agrees hagree hmode)
  rw [step_call htable]
  refine Agreement.mono hafter ?_ rfl rfl
  rintro entry ⟨pid', table', htable', he⟩
  rw [SortedMap.get?_insert] at htable'
  split at htable'
  · cases htable'
    exact .inr he
  · rename_i hpid
    exact .inl ⟨pid', table', hpid, htable', he⟩

theorem clone_descriptions (table : FdTable) (shared : Shared) :
    (table.clone shared).description = shared.description ∧
      (table.clone shared).nextDescription = shared.nextDescription := by
  unfold FdTable.clone
  induction table.entries.values generalizing shared with
  | nil => exact ⟨rfl, rfl⟩
  | cons entry rest ih =>
      obtain ⟨hdescription, hnext⟩ := ih (shared.registerFdEndpoint entry.file)
      rw [Shared.registerFdEndpoint_description] at hdescription
      rw [Shared.registerFdEndpoint_nextDescription] at hnext
      exact ⟨hdescription, hnext⟩

theorem Sound.fork (h : world.Sound) (pid child : Nat) : (world.step host (.fork pid child)).Sound := by
  cases htable : world.tables.get? pid with
  | none =>
      simp only [Processes.step, htable]
      exact h
  | some table =>
      cases hchild : world.tables.get? child with
      | some _ =>
          simp only [Processes.step, htable, hchild]
          exact h
      | none =>
          simp only [Processes.step, htable, hchild]
          refine Agreement.mono h ?_ (clone_descriptions _ _).1 (clone_descriptions _ _).2
          rintro entry ⟨pid', table', htable', he⟩
          rw [SortedMap.get?_insert] at htable'
          split at htable'
          · cases htable'
            exact ⟨pid, table, htable, he⟩
          · exact ⟨pid', table', htable', he⟩

theorem Sound.step (h : world.Sound) {step : ModeStep μ} (hmode : world.StepKeepsMode host step) :
    (world.step host step).Sound := by
  cases step with
  | call pid memory call =>
      cases htable : world.tables.get? pid with
      | none =>
          simp only [Processes.step, htable]
          exact h
      | some table => exact h.call htable (hmode table htable)
  | fork pid child => exact h.fork pid child

theorem run_sound (steps : List (ModeStep μ)) : ∀ {world : Processes σ ω μ}, world.Sound →
    AllKeepMode host world steps → (world.run host steps).Sound := by
  induction steps with
  | nil => exact fun h _ => h
  | cons step steps ih => exact fun h hmode => ih (h.step hmode.1) hmode.2

omit [GuestMemoryAccess μ] in
theorem start_sound (vfs : VirtualFileSystem) (memory : μ) (transport : Bool) (w : ω) :
    (start vfs memory transport w : Processes σ ω μ).Sound := by
  have hvalues : Files.withStdio.fds.entries.values =
      [⟨.stdio .stdin, 0, none⟩, ⟨.stdio .stdout, 1, none⟩, ⟨.stdio .stderr, 2, none⟩] := by decide
  have hlive : ∀ entry, (start vfs memory transport w : Processes σ ω μ).Live entry →
      entry ∈ Files.withStdio.fds.entries.values := by
    rintro entry ⟨pid, table, htable, fd, he⟩
    simp only [start, SortedMap.get?_insert] at htable
    split at htable
    · cases htable
      exact SortedMap.mem_values.mpr ⟨fd, he⟩
    · rw [SortedMap.get?_empty] at htable
      nomatch htable
  rw [hvalues] at hlive
  have hknown : Files.withStdio.shared.nextDescription = 3 := by decide
  have hnone : ∀ entry id, (start vfs memory transport w : Processes σ ω μ).Live entry →
      entry.file.inode.backend ≠ .socket id := by
    intro entry id he
    have hmem := hlive entry he
    simp only [List.mem_cons, List.not_mem_nil, or_false] at hmem
    rcases hmem with rfl | rfl | rfl <;> exact nofun
  refine ⟨⟨fun id entry hentry => ?_, fun _ id _ => rfl, rfl⟩, fun entry he => ?_, fun entry entry' he he' heq => ?_,
    fun entry _ id he _ hid => absurd hid (hnone entry id he), fun entry id he hid => absurd hid (hnone entry id he)⟩
  · simp [start, GuestSocketTable.new] at hentry
  · have hmem := hlive entry he
    simp only [List.mem_cons, List.not_mem_nil, or_false] at hmem
    show entry.description < Files.withStdio.shared.nextDescription
    rw [hknown]
    rcases hmem with rfl | rfl | rfl <;> decide
  · have hmem := hlive entry he
    have hmem' := hlive entry' he'
    simp only [List.mem_cons, List.not_mem_nil, or_false] at hmem hmem'
    rcases hmem with rfl | rfl | rfl <;> rcases hmem' with rfl | rfl | rfl <;> first | rfl | nomatch heq

/-- In every state a run reaches, the flag a descriptor of a socket reports is the socket's mode and the mode
last set on its handle. -/
theorem nonblocking_modes_agree (host : HostNet σ ω) (vfs : VirtualFileSystem) (memory : μ) (transport : Bool)
    (w : ω) (steps : List (ModeStep μ)) (hmodes : AllKeepMode host (start vfs memory transport w) steps)
    (pid : Nat) (table : FdTable) (fd : Fd) (entry : FdEntry) (id : SocketId) :
    let world := (start vfs memory transport w).run host steps
    world.tables.get? pid = some table → table.entries.get? fd = some entry →
      entry.file.inode.backend = .socket id →
    ∃ flags socket, VirtualFileSystem.fcntl fd fGetfl 0 (world.select table memory).vfs =
        (.ok flags, (world.select table memory).vfs) ∧
      world.fs.net.table.sockets.get? id = some socket ∧
      nonblocking ⟨UInt32.ofNat flags⟩ = socket.flags.nonblocking ∧
      ∀ hostEntry, world.fs.net.table.hostHandles.get? id = some hostEntry →
        hostEntry.handle.spec.flags.nonblocking = socket.flags.nonblocking := by
  intro world htable hentry hid
  have hsound : world.Sound := run_sound steps (start_sound vfs memory transport w) hmodes
  obtain ⟨socket, hsocket, hflag⟩ := hsound.agrees entry id ⟨pid, table, htable, fd, hentry⟩ hid
  refine ⟨_, socket, statusFlags_run hentry 0, hsocket, ?_, fun hostEntry hhandle => ?_⟩
  · rw [UInt32.ofNat_toNat]
    exact hflag
  · obtain ⟨socket', hsocket', hmode⟩ := hsound.modes.handle id hostEntry hhandle
    obtain rfl : socket = socket' := Option.some.inj (hsocket.symm.trans hsocket')
    exact hmode

/-- The address of a socket at port 80, which is also a number other than zero. -/
def addressAtZero : FlatMemory := ⟨[2, 0, 0, 80, 0, 0, 0, 0, 0, 0, 0, 0, 0, 0, 0, 0]⟩

def oneListener (accepts : List Bool) : Processes Unit Net.ListenerWorld FlatMemory :=
  start (.bare "/") ⟨[]⟩ true ⟨accepts, []⟩

/-- A non-blocking listener at descriptor 3. -/
def listening : List (ModeStep FlatMemory) :=
  [.call 1 addressAtZero (.socket 2 (1 ||| sockNonblock) 0), .call 1 addressAtZero (.bind 3 0 16),
    .call 1 addressAtZero (.listen 3 5)]

/-- What a process has under a descriptor. -/
def entryAt (world : Processes σ ω μ) (pid : Nat) (fd : Fd) : Option FdEntry :=
  (world.tables.get? pid).bind fun table => table.entries.get? fd

theorem repeats_of_lookup {memory : μ} {pid : Nat} {fd : Fd} {argp : Nat}
    (h : (world.entryAt pid fd).map (fun entry => nonblocking (world.fs.vfs.shared.description entry.description).flags) =
      (GuestMemoryAccess.readBytes argp 4 memory).map fun bytes => decide (ofLeBytes bytes ≠ 0)) :
    world.StepKeepsMode host (.call pid memory (.ioctlFionbio fd argp)) := by
  intro table htable entry id bytes hentry _ hbytes
  have hflag : world.entryAt pid fd = some entry := by
    rw [entryAt, htable]
    exact hentry
  have hread : GuestMemoryAccess.readBytes argp 4 memory = some bytes := hbytes
  rw [hflag, hread] at h
  exact (Option.some.inj h).symm

theorem accepts_of_lookup {memory : μ} {pid : Nat} {fd : Fd} {sockaddr addrlen : Nat} {flags : UInt32} {i : SocketId}
    (hentry : (world.entryAt pid fd).map (fun entry => entry.file.inode.backend) = some (.socket i))
    (hsocket : (world.fs.net.table.sockets.get? i).map (fun socket => socket.flags.nonblocking) =
      some (decide (flags &&& sockNonblock ≠ 0))) :
    world.StepKeepsMode host (.call pid memory (.accept4 fd sockaddr addrlen flags)) := by
  intro table htable entry id listener hentry' hid hlistener _
  have hfound : world.entryAt pid fd = some entry := by
    rw [entryAt, htable]
    exact hentry'
  have hsame := (Net.eq_of_map_eq_some hentry hfound).symm.trans hid
  cases hsame
  exact (Net.eq_of_map_eq_some hsocket hlistener).symm

/-- A connection accepted with the listener's mode, a `FIONBIO` that repeats it, a copy and a fork. -/
def keptModes : List (ModeStep FlatMemory) :=
  listening ++ [.call 1 addressAtZero (.accept4 3 0 0 sockNonblock), .call 1 addressAtZero (.ioctlFionbio 4 0),
    .call 1 addressAtZero (.dup 4), .fork 1 2, .call 2 addressAtZero (.fcntl 4 fSetfl 0)]

/-- The child clears the flag of the accepted connection, and the parent's copy of the descriptor reports it. -/
theorem nonblocking_modes_agree_accepted :
    let world := (oneListener [true]).run Net.listenerHost keptModes
    ∃ table flags socket, world.tables.get? 1 = some table ∧
      VirtualFileSystem.fcntl 5 fGetfl 0 (world.select table ⟨[]⟩).vfs = (.ok flags, (world.select table ⟨[]⟩).vfs) ∧
      world.fs.net.table.sockets.get? 2 = some socket ∧
      nonblocking ⟨UInt32.ofNat flags⟩ = socket.flags.nonblocking := by
  intro world
  have hmodes : AllKeepMode Net.listenerHost (oneListener [true]) keptModes := by
    refine ⟨fun _ _ => trivial, fun _ _ => trivial, fun _ _ => trivial, accepts_of_lookup (i := 1) ?_ ?_,
      repeats_of_lookup ?_, fun _ _ => trivial, trivial, fun _ _ => trivial, trivial⟩
    · decide +kernel
    · decide +kernel
    · decide +kernel
  have hfd : (world.entryAt 1 5).map (fun entry => entry.file.inode.backend) = some (.socket 2) := by decide +kernel
  obtain ⟨entry, hfound, hid⟩ := Option.map_eq_some_iff.mp hfd
  obtain ⟨table, htable, hentry⟩ := Option.bind_eq_some_iff.mp hfound
  obtain ⟨flags, socket, hflags, hsocket, hmode, _⟩ := nonblocking_modes_agree Net.listenerHost (.bare "/") ⟨[]⟩ true
    ⟨[true], []⟩ keptModes hmodes 1 table 5 entry 2 htable hentry hid
  exact ⟨table, flags, socket, htable, hflags, hsocket, hmode⟩

/-- After `socket` and `FIONBIO` the descriptor is non-blocking and the socket is not. -/
theorem fionbio_misses_socket :
    let world := (oneListener []).run Net.listenerHost
      [.call 1 addressAtZero (.socket 2 1 0), .call 1 addressAtZero (.ioctlFionbio 3 0)]
    (world.entryAt 1 3).map (fun entry => entry.file.inode.backend) = some (.socket 1) ∧
      (world.entryAt 1 3).map (fun entry => nonblocking (world.fs.vfs.shared.description entry.description).flags) =
        some true ∧
      (world.fs.net.table.sockets.get? 1).map (fun socket => socket.flags.nonblocking) = some false := by
  decide +kernel

-- a blocking `accept` on a non-blocking listener: a blocking descriptor for a non-blocking socket
example :
    let world := (oneListener [true]).run Net.listenerHost (listening ++ [.call 1 addressAtZero (.accept 3 0 0)])
    (world.entryAt 1 4).map (fun entry => entry.file.inode.backend) = some (.socket 2) ∧
      (world.entryAt 1 4).map (fun entry => nonblocking (world.fs.vfs.shared.description entry.description).flags) =
        some false ∧
      (world.fs.net.table.sockets.get? 2).map (fun socket => socket.flags.nonblocking) = some true := by
  decide +kernel

end Processes

end Mcr.Runtime
