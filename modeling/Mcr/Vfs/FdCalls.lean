import Mcr.Vfs.Op

/-!
# What the calls on descriptors do

One lemma for each call on `&mut FdTable` that changes the entries: the state it leaves when it returns,
and that it leaves the state alone when it fails. A failing call may still have used up an id.
-/

namespace Mcr.Vfs

open Prog

namespace FdTable

/-- The table with the close-on-exec flag of a descriptor set or cleared. -/
def withCloexec (table : FdTable) (fd : Fd) (cloexec : Bool) : FdTable :=
  { table with cloexec := if cloexec then table.cloexec.insert fd () else table.cloexec.erase fd }

theorem setCloexec_eq (table : FdTable) (fd : Fd) (cloexec : Bool) :
    table.setCloexec fd cloexec =
      if (table.entries.get? fd).isSome then .ok (table.withCloexec fd cloexec) else .error .badFd := by
  unfold setCloexec withCloexec
  cases table.entries.get? fd with
  | none => rfl
  | some entry => cases cloexec <;> rfl

/-- The number the search ends at is free, and not below where it started. -/
theorem firstFree_spec {keys : List Int} (hsorted : keys.Pairwise (· < ·)) (fd : Int) :
    fd ≤ firstFree keys fd ∧ firstFree keys fd ∉ keys := by
  induction keys generalizing fd with
  | nil => simp [firstFree]
  | cons key keys ih =>
      rw [List.pairwise_cons] at hsorted
      rw [firstFree]
      split
      · rename_i hlt
        obtain ⟨hle, hfree⟩ := ih hsorted.2 fd
        refine ⟨hle, ?_⟩
        rw [List.mem_cons, not_or]
        exact ⟨(lt_of_lt_of_le hlt hle).ne', hfree⟩
      · split
        · rename_i heq
          obtain ⟨hle, hfree⟩ := ih hsorted.2 (fd + 1)
          have hlt : fd < firstFree keys (fd + 1) := Int.lt_of_add_one_le hle
          refine ⟨hlt.le, ?_⟩
          rw [List.mem_cons, not_or]
          exact ⟨by rw [heq]; exact hlt.ne', hfree⟩
        · rename_i hlt hne
          refine ⟨le_rfl, ?_⟩
          rw [List.mem_cons, not_or]
          refine ⟨fun heq => hne heq.symm, fun hmem => ?_⟩
          exact hlt (hsorted.1 fd hmem)

theorem nextFdFrom_ok {table : FdTable} {minFd fd : Fd} (h : table.nextFdFrom minFd = .ok fd) :
    0 ≤ fd ∧ minFd ≤ fd ∧ table.entries.get? fd = none := by
  obtain ⟨_, hmin, h⟩ := except_bind_eq_ok.mp h
  obtain ⟨_, _, h⟩ := except_bind_eq_ok.mp h
  cases h
  rw [failIf_eq_ok] at hmin
  obtain ⟨hle, hfree⟩ := firstFree_spec table.entries.keys_sorted minFd
  refine ⟨le_trans (not_lt.mp hmin) hle, hle, ?_⟩
  by_contra hsome
  obtain ⟨entry, hentry⟩ := Option.ne_none_iff_exists'.mp hsome
  exact hfree (SortedMap.mem_keys.mpr ⟨entry, hentry⟩)

end FdTable

namespace Shared

variable (shared : Shared)

@[simp] theorem registerFdEndpoint_description (file : FileRef) :
    (shared.registerFdEndpoint file).description = shared.description := by
  unfold registerFdEndpoint
  split <;> rfl

@[simp] theorem registerFdEndpoint_nextDescription (file : FileRef) :
    (shared.registerFdEndpoint file).nextDescription = shared.nextDescription := by
  unfold registerFdEndpoint
  split <;> rfl

@[simp] theorem unregisterFdEndpoint_description (file : FileRef) :
    (shared.unregisterFdEndpoint file).description = shared.description := by
  unfold unregisterFdEndpoint
  split <;> rfl

@[simp] theorem unregisterFdEndpoint_nextDescription (file : FileRef) :
    (shared.unregisterFdEndpoint file).nextDescription = shared.nextDescription := by
  unfold unregisterFdEndpoint
  split <;> rfl

def withDescription (flags : OpenFlags) : Shared :=
  { shared.setDescription shared.nextDescription ⟨0, flags, 0⟩ with
    nextDescription := shared.nextDescription + 1 }

end Shared

namespace Files

/-- The entry is put under `fd` and counted as an endpoint. -/
def bound (files : Files) (fd : Fd) (entry : FdEntry) (cloexec : Bool) : Files where
  fds := FdTable.withCloexec { files.fds with entries := files.fds.entries.insert fd entry } fd cloexec
  shared := files.shared.registerFdEndpoint entry.file

/-- The state after a new descriptor is inserted. -/
def inserted (files : Files) (fd : Fd) (file : FileRef) (cloexec : Bool) (flags : OpenFlags)
    (path : Option GuestPath) : Files :=
  let bound := files.bound fd ⟨file, files.shared.nextDescription, path⟩ cloexec
  { bound with shared := bound.shared.withDescription flags }

/-- The state after a descriptor is closed. -/
def closed (files : Files) (fd : Fd) (entry : FdEntry) : Files where
  fds := { files.fds with
    entries := files.fds.entries.erase fd
    cloexec := files.fds.cloexec.erase fd }
  shared := files.shared.unregisterFdEndpoint entry.file

variable {files : Files}

theorem get_run (fd : Fd) : get fd files = (okOr (files.fds.entries.get? fd) .badFd, files) := by
  unfold get FdTable.get
  cases h : files.fds.entries.get? fd <;> simp [h, Prog.get, Prog.ofExcept, Prog.throw, okOr, bind, pure]

theorem setCloexec_run {fds : FdTable} {shared : Shared} {fd : Fd} {entry : FdEntry} (cloexec : Bool)
    (h : fds.entries.get? fd = some entry) :
    update (·.setCloexec fd cloexec) ⟨fds, shared⟩ = (.ok (), ⟨fds.withCloexec fd cloexec, shared⟩) := by
  simp [update, FdTable.setCloexec_eq, h, Prog.get, Prog.ofExcept, Prog.modify, bind, pure]

/-- Putting an entry and setting its flag cannot fail. -/
theorem putEntry_run (fd : Fd) (entry : FdEntry) (cloexec : Bool) (fds : FdTable) (shared : Shared) :
    (do putEntry fd entry; update (·.setCloexec fd cloexec)) ⟨fds, shared⟩ =
      (.ok (), ⟨FdTable.withCloexec { fds with entries := fds.entries.insert fd entry } fd cloexec, shared⟩) := by
  have hput : putEntry fd entry ⟨fds, shared⟩ =
      (.ok (), ⟨{ fds with entries := fds.entries.insert fd entry }, shared⟩) := rfl
  rw [run_bind_ok hput, setCloexec_run cloexec (show (fds.entries.insert fd entry).get? fd = some entry by simp)]

theorem insertEntry_eq (fd : Fd) (file : FileRef) (cloexec : Bool) (flags : OpenFlags) (path : Option GuestPath) :
    insertEntry fd file cloexec flags path files =
      if fd < 0 ∨ (files.fds.entries.get? fd).isSome then (.error .badFd, files)
      else (.ok fd, files.inserted fd file cloexec flags path) := by
  unfold insertEntry
  by_cases hneg : fd < 0
  · simp [hneg, failIf, Prog.get, Prog.ofExcept, Prog.throw, bind]
  by_cases hsome : (files.fds.entries.get? fd).isSome
  · simp [hneg, hsome, failIf, Prog.get, Prog.ofExcept, Prog.throw, bind, pure]
  rw [if_neg (by simp [hneg, hsome])]
  have hget : (Prog.get : Call Files) files = (.ok files, files) := rfl
  rw [run_bind_ok hget]
  have hcheck : (Prog.ofExcept (failIf (fd < 0) .badFd) : Call Unit) files = (.ok (), files) := by
    simp [failIf, hneg, Prog.ofExcept, pure]
  rw [run_bind_ok hcheck]
  have hcheck' : (Prog.ofExcept (failIf (files.fds.entries.get? fd).isSome .badFd) : Call Unit) files =
      (.ok (), files) := by
    simp [failIf, hsome, Prog.ofExcept, pure]
  rw [run_bind_ok hcheck']
  have hput := putEntry_run fd ⟨file, files.shared.nextDescription, path⟩ cloexec files.fds
    ((files.shared.registerFdEndpoint file).withDescription flags)
  simp only [bind, putEntry, Prog.modify, share] at hput ⊢
  simp only [Shared.withDescription, Shared.registerFdEndpoint_nextDescription] at hput
  rw [hput]
  simp [inserted, bound, Shared.withDescription, pure]

variable (files) in
theorem close_eq (fd : Fd) :
    close fd files = match files.fds.entries.get? fd with
      | none => (.error .badFd, files)
      | some entry => (.ok entry.file, files.closed fd entry) := by
  unfold close
  cases h : files.fds.entries.get? fd with
  | none => rw [run_bind_error (by rw [get_run, h]; rfl)]
  | some entry =>
      rw [run_bind_ok (by rw [get_run, h]; rfl)]
      rfl

/-- The state with nothing under `fd`. -/
def vacated (files : Files) (fd : Fd) : Files :=
  match files.fds.entries.get? fd with
  | none => files
  | some entry => files.closed fd entry

theorem nextFdFrom_run (minFd : Fd) : nextFdFrom minFd files = (files.fds.nextFdFrom minFd, files) := by
  unfold nextFdFrom
  have hget : (Prog.get : Call Files) files = (.ok files, files) := rfl
  rw [run_bind_ok hget]
  cases files.fds.nextFdFrom minFd <;> rfl

theorem bind_run (fd : Fd) (entry : FdEntry) (cloexec : Bool) :
    (do
      share (·.registerFdEndpoint entry.file)
      putEntry fd entry
      update (·.setCloexec fd cloexec)
      pure fd : Call Fd) files = (.ok fd, files.bound fd entry cloexec) := by
  have hput := putEntry_run fd entry cloexec files.fds (files.shared.registerFdEndpoint entry.file)
  simp only [bind, putEntry, Prog.modify, share] at hput ⊢
  rw [hput]
  rfl

theorem dup_spec (oldfd minFd : Fd) (cloexec : Bool) :
    wp (dup oldfd minFd cloexec)
      (fun newfd files' => ∃ entry, files.fds.entries.get? oldfd = some entry ∧
        files.fds.nextFdFrom minFd = .ok newfd ∧ files' = files.bound newfd entry cloexec)
      (fun _ files' => files' = files) files := by
  unfold dup
  rw [wp_bind]
  apply wp_check
  · intro _ _
    rfl
  intro _ _
  rw [wp_bind, wp_iff, get_run]
  refine ⟨?_, ?_⟩
  · rintro entry files' heq
    obtain ⟨hentry, rfl⟩ := Prod.mk.inj heq
    rw [okOr_eq_ok] at hentry
    rw [wp_bind, wp_iff, nextFdFrom_run]
    refine ⟨?_, ?_⟩
    · rintro newfd files' heq
      obtain ⟨hnewfd, rfl⟩ := Prod.mk.inj heq
      exact wp_of_run (bind_run newfd entry cloexec) ⟨entry, hentry, hnewfd, rfl⟩
    · rintro error files' heq
      exact (Prod.mk.inj heq).2.symm
  · rintro error files' heq
    exact (Prod.mk.inj heq).2.symm

theorem vacate_run (fd : Fd) :
    Prog.tryCatch (do let _ ← close fd) (fun _ => pure ()) files = ((.ok () : Except VfsError Unit), files.vacated fd) := by
  unfold Prog.tryCatch vacated
  cases h : files.fds.entries.get? fd with
  | none => rw [run_bind_error (by rw [close_eq, h])]; rfl
  | some entry => rw [run_bind_ok (by rw [close_eq, h])]; rfl

theorem dup2_spec (oldfd newfd : Fd) (cloexec : Bool) :
    wp (dup2 oldfd newfd cloexec)
      (fun fd files' => fd = newfd ∧ ∃ entry, files.fds.entries.get? oldfd = some entry ∧
        (oldfd = newfd ∧ files' = files ∨
          oldfd ≠ newfd ∧ files' = (files.vacated newfd).bound newfd entry cloexec))
      (fun _ files' => files' = files) files := by
  unfold dup2
  rw [wp_bind]
  apply wp_check
  · intro _ _
    rfl
  intro _ _
  rw [wp_bind, wp_iff, get_run]
  refine ⟨?_, ?_⟩
  · rintro entry files' heq
    obtain ⟨hentry, rfl⟩ := Prod.mk.inj heq
    rw [okOr_eq_ok] at hentry
    by_cases hsame : oldfd = newfd
    · rw [if_pos hsame, wp_pure]
      exact ⟨rfl, entry, hentry, Or.inl ⟨hsame, rfl⟩⟩
    · rw [if_neg hsame, wp_bind]
      refine wp_of_run (vacate_run newfd) ?_
      exact wp_of_run (bind_run newfd entry cloexec) ⟨rfl, entry, hentry, Or.inr ⟨hsame, rfl⟩⟩
  · rintro error files' heq
    exact (Prod.mk.inj heq).2.symm

/-- A new descriptor at the lowest free number from `minFd` on. -/
theorem insertLowest_spec {minFd : Fd} (file : FileRef) (cloexec : Bool) (flags : OpenFlags)
    (path : Option GuestPath) :
    wp (do let fd ← nextFdFrom minFd; insertEntry fd file cloexec flags path)
      (fun fd files' => files.fds.nextFdFrom minFd = .ok fd ∧ files' = files.inserted fd file cloexec flags path)
      (fun _ files' => files' = files ∧ ∀ fd, files.fds.nextFdFrom minFd ≠ .ok fd) files := by
  rw [wp_bind, wp_iff, nextFdFrom_run]
  refine ⟨?_, ?_⟩
  · rintro fd files' heq
    obtain ⟨hfd, rfl⟩ := Prod.mk.inj heq
    obtain ⟨hpos, _, hfree⟩ := FdTable.nextFdFrom_ok hfd
    refine wp_of_run (t := files.inserted fd file cloexec flags path) ?_ ⟨hfd, rfl⟩
    rw [insertEntry_eq, if_neg]
    rw [hfree, not_or]
    exact ⟨not_lt.mpr hpos, by simp⟩
  · rintro error files' heq
    obtain ⟨herror, rfl⟩ := Prod.mk.inj heq
    refine ⟨rfl, fun fd hfd => ?_⟩
    rw [hfd] at herror
    nomatch herror

theorem insertSocket_spec (socketId : Nat) (flags : OpenFlags) :
    wp (insertSocket socketId flags)
      (fun fd files' => ∃ inodeId, files.fds.nextFdFrom firstAllocFd = .ok fd ∧
        files' = files.inserted fd ⟨⟨inodeId, .socket socketId⟩, .socket⟩ flags.cloexec
          ⟨oRdwr ||| (flags.raw &&& oNonblock)⟩ none)
      (fun _ files' => files' = files) files := by
  unfold insertSocket
  rw [wp_bind]
  apply wp_check
  · intro _ _
    rfl
  intro _ _
  rw [wp_bind]
  apply wp_check
  · intro _ _
    rfl
  intro inodeId _
  exact wp_mono (insertLowest_spec _ _ _ _) (fun _ _ h => ⟨inodeId, h⟩) (fun _ _ h => h.1)

theorem insertEpoll_spec (epollId : Nat) (flags : OpenFlags) :
    wp (insertEpoll epollId flags)
      (fun fd files' => ∃ inodeId, files.fds.nextFdFrom firstAllocFd = .ok fd ∧
        files' = files.inserted fd ⟨⟨inodeId, .epoll epollId⟩, .epoll⟩ flags.cloexec
          ⟨oRdonly ||| (flags.raw &&& oCloexec)⟩ none)
      (fun _ files' => files' = files) files := by
  unfold insertEpoll
  rw [wp_bind]
  apply wp_check
  · intro _ _
    rfl
  intro _ _
  rw [wp_bind]
  apply wp_check
  · intro _ _
    rfl
  intro inodeId _
  exact wp_mono (insertLowest_spec _ _ _ _) (fun _ _ h => ⟨inodeId, h⟩) (fun _ _ h => h.1)

/-- The state with a new eventfd that no entry refers to yet. -/
def withEventfd (files : Files) (initial : Nat) : Files where
  fds := { files.fds with nextEventfdId := files.fds.nextEventfdId + 1 }
  shared := { files.shared.setEventfd files.shared.nextEventfd ⟨initial⟩ with
    nextEventfd := files.shared.nextEventfd + 1 }

theorem eventfd_spec (initial : Nat) (flags : OpenFlags) :
    wp (eventfd initial flags)
      (fun fd files' => ∃ inodeId, files.fds.nextFdFrom firstAllocFd = .ok fd ∧
        files' = (files.withEventfd initial).inserted fd
          ⟨⟨inodeId, .eventfd files.fds.nextEventfdId files.shared.nextEventfd⟩, .eventfd⟩ flags.cloexec
          ⟨oRdwr ||| (flags.raw &&& oNonblock)⟩ none)
      (fun _ files' => files' = files ∨
        files' = { files with fds := { files.fds with nextEventfdId := files.fds.nextEventfdId + 1 } } ∨
        files' = files.withEventfd initial) files := by
  unfold eventfd allocateEventfdId
  rw [wp_bind]
  apply wp_check
  · intro _ _
    exact Or.inl rfl
  intro _ _
  rw [wp_bind, wp_bind, wp_get, wp_bind]
  apply wp_check
  · intro _ _
    exact Or.inl rfl
  intro _ _
  rw [wp_bind, wp_modify, wp_pure, wp_bind]
  apply wp_check
  · intro _ _
    exact Or.inr (Or.inl rfl)
  intro inodeId _
  rw [wp_bind, wp_get, wp_bind, share, wp_modify]
  refine wp_mono (insertLowest_spec _ _ _ _) (fun fd files' h => ⟨inodeId, h⟩) ?_
  rintro _ _ ⟨rfl, _⟩
  exact Or.inr (Or.inr rfl)

/-- The state with a new pipe that no entry refers to yet. -/
def withPipe (host : Host) (files : Files) : Files where
  fds := { files.fds with nextPipeId := files.fds.nextPipeId + 1 }
  shared := { files.shared.setPipe files.shared.nextPipe
      ⟨⟨[], defaultPipeCapacity, 0, 0⟩, if host.pipePair files.fds.nextPipeId then some [] else none⟩ with
    nextPipe := files.shared.nextPipe + 1 }

/-- The state after a pipe is made, with its two descriptors. -/
def piped (host : Host) (files : Files) (inodeId : InodeId) (flags : OpenFlags) (readFd writeFd : Fd) : Files :=
  let inode : Inode := ⟨inodeId, .pipe files.fds.nextPipeId files.shared.nextPipe⟩
  let nonblock := flags.raw &&& oNonblock
  ((files.withPipe host).inserted readFd ⟨inode, .pipeRead⟩ flags.cloexec ⟨oRdonly ||| nonblock⟩ none).inserted
    writeFd ⟨inode, .pipeWrite⟩ flags.cloexec ⟨oWronly ||| nonblock⟩ none

@[simp] theorem inserted_entries (fd : Fd) (file : FileRef) (cloexec : Bool) (flags : OpenFlags)
    (path : Option GuestPath) : (files.inserted fd file cloexec flags path).fds.entries =
      files.fds.entries.insert fd ⟨file, files.shared.nextDescription, path⟩ := rfl

theorem pipe_free {readFd writeFd : Fd} (hread : files.fds.nextFdFrom firstAllocFd = .ok readFd)
    (hwrite : files.fds.nextFdFrom (readFd + 1) = .ok writeFd) : files.fds.entries.get? readFd = none ∧
      files.fds.entries.get? writeFd = none ∧ readFd ≠ writeFd := by
  obtain ⟨-, -, hreadFree⟩ := FdTable.nextFdFrom_ok hread
  obtain ⟨-, hlt, hwriteFree⟩ := FdTable.nextFdFrom_ok hwrite
  exact ⟨hreadFree, hwriteFree, (Int.lt_of_add_one_le hlt).ne⟩

theorem pipe_spec (host : Host) (flags : OpenFlags) :
    wp (pipe host flags)
      (fun fds files' => ∃ inodeId, files.fds.nextFdFrom firstAllocFd = .ok fds.1 ∧
        files.fds.nextFdFrom (fds.1 + 1) = .ok fds.2 ∧ files' = files.piped host inodeId flags fds.1 fds.2)
      (fun _ files' => files' = files ∨
        files' = { files with fds := { files.fds with nextPipeId := files.fds.nextPipeId + 1 } }) files := by
  unfold pipe allocatePipeId
  rw [wp_bind]
  apply wp_check
  · intro _ _
    exact Or.inl rfl
  intro _ _
  rw [wp_bind, wp_iff, nextFdFrom_run]
  refine ⟨?_, fun error files' heq => Or.inl (Prod.mk.inj heq).2.symm⟩
  rintro readFd files' heq
  obtain ⟨hread, rfl⟩ := Prod.mk.inj heq
  obtain ⟨hreadPos, _, hreadFree⟩ := FdTable.nextFdFrom_ok hread
  rw [wp_bind]
  apply wp_check
  · intro _ _
    exact Or.inl rfl
  intro _ _
  rw [wp_bind, wp_iff, nextFdFrom_run]
  refine ⟨?_, fun error files' heq => Or.inl (Prod.mk.inj heq).2.symm⟩
  rintro writeFd files' heq
  obtain ⟨hwrite, rfl⟩ := Prod.mk.inj heq
  obtain ⟨hwritePos, hlt, hwriteFree⟩ := FdTable.nextFdFrom_ok hwrite
  have hne : readFd ≠ writeFd := (Int.lt_of_add_one_le hlt).ne
  rw [wp_bind, wp_bind, wp_get, wp_bind]
  apply wp_check
  · intro _ _
    exact Or.inl rfl
  intro _ _
  rw [wp_bind, wp_modify, wp_pure, wp_bind]
  apply wp_check
  · intro _ _
    exact Or.inr rfl
  intro inodeId _
  rw [wp_bind, wp_get, wp_bind, share, wp_modify, wp_bind]
  -- both numbers are free, so neither insertion can fail
  refine wp_of_run (t := (files.withPipe host).inserted readFd
      ⟨⟨inodeId, .pipe files.fds.nextPipeId files.shared.nextPipe⟩, .pipeRead⟩ flags.cloexec
      ⟨oRdonly ||| (flags.raw &&& oNonblock)⟩ none) (a := readFd) ?_ ?_
  · show insertEntry _ _ _ _ _ (files.withPipe host) = _
    rw [insertEntry_eq, if_neg]
    rw [not_or]
    exact ⟨not_lt.mpr hreadPos, by show ¬ (files.fds.entries.get? readFd).isSome; simp [hreadFree]⟩
  · rw [wp_bind, wp_tryCatch, wp_bind]
    refine wp_of_run (t := files.piped host inodeId flags readFd writeFd) (a := writeFd) ?_ ?_
    · rw [insertEntry_eq, if_neg]
      · rfl
      rw [not_or, inserted_entries, SortedMap.get?_insert, if_neg hne.symm]
      exact ⟨not_lt.mpr hwritePos, by show ¬ (files.fds.entries.get? writeFd).isSome; simp [hwriteFree]⟩
    · rw [wp_pure, wp_pure]
      exact ⟨inodeId, hread, hwrite, rfl⟩

/-- An entry goes, without its flag. -/
def dropEntry (files : Files) (fd : Fd) : Files :=
  match files.fds.entries.get? fd with
  | none => files
  | some entry =>
    ⟨{ files.fds with entries := files.fds.entries.erase fd }, files.shared.unregisterFdEndpoint entry.file⟩

theorem closeOnExec_eq :
    closeOnExec files = (.ok (), files.fds.cloexec.keys.foldl dropEntry
      { files with fds := { files.fds with cloexec := .empty } }) := by
  have hloop : ∀ (keys : List Fd) (files : Files),
      (Prog.forEach keys fun fd => do
        let files ← Prog.get
        match files.fds.entries.get? fd with
        | none => pure ()
        | some entry =>
          Prog.modify fun files => { files with fds := { files.fds with entries := files.fds.entries.erase fd } }
          share (·.unregisterFdEndpoint entry.file) : Call Unit) files = (.ok (), keys.foldl dropEntry files) := by
    intro keys
    induction keys with
    | nil => intro files; rfl
    | cons fd keys ih =>
        intro files
        rw [Prog.forEach, run_bind_ok (t := files.dropEntry fd) (a := ()), ih]
        · rfl
        have hget : (Prog.get : Call Files) files = (.ok files, files) := rfl
        rw [run_bind_ok hget, dropEntry]
        cases files.fds.entries.get? fd <;> rfl
  unfold closeOnExec
  have hget : (Prog.get : Call Files) files = (.ok files, files) := rfl
  rw [run_bind_ok hget, run_bind_ok (rfl : Prog.modify _ files = _)]
  exact hloop _ _

end Files

end Mcr.Vfs
