import Mcr.Vfs.Pipes

/-!
# Transfers through a descriptor that is not ready

What `read` and `write` do on a descriptor whose readiness says there is nothing to do: the answer depends
only on the kind of the file, the mode it was opened in and what is asked for, and nothing changes.
-/

namespace Mcr.Vfs

open Prog

/-- The descriptor can be used in a direction, has been hung up, or has an error to report. -/
def Files.FdReadiness.ready (readiness : Files.FdReadiness) (write : Bool) : Bool :=
  (if write then readiness.writable else readiness.readable) || readiness.hangUp || readiness.error

def stalledRead (flags : OpenFlags) (kind : FileKind) (len : Nat) : Except VfsError (List UInt8) :=
  if flags.canRead = false then .error .badFd
  else
    match kind with
    | .pipeRead => if len = 0 then .ok [] else .error .wouldBlock
    | .eventfd => if len < 8 then .error .invalidPath else .error .wouldBlock
    | .dev .stdin | .stdio .stdin => .ok []
    | _ => .error .badFd

/-- The answer of a write when there is no room; an eventfd still counts a value that changes nothing. -/
def stalledWrite (flags : OpenFlags) (kind : FileKind) (counter : EventfdState) (bytes : List UInt8) :
    Except VfsError Nat :=
  if flags.canWrite = false then .error .badFd
  else
    match kind with
    | .pipeWrite => if bytes = [] then .ok 0 else .error .wouldBlock
    | .eventfd => (counter.write bytes).map Prod.fst
    | _ => .error .badFd

def Files.counterOf (files : Files) (file : FileRef) : EventfdState :=
  match file.inode.backend with
  | .eventfd _ ref => files.shared.eventfd ref
  | _ => ⟨0⟩

namespace Files

variable {files : Files} {host : Host} {fd : Fd} {entry : FdEntry}

theorem pollReadiness_eq (hentry : files.fds.entries.get? fd = some entry) :
    files.pollReadiness fd = (match entry.file.kind with
      | .regular | .symlink | .directory => .ok ⟨true, (files.description entry).flags.canWrite, false, false⟩
      | .dev .null | .dev .zero | .dev .urandom =>
        .ok ⟨(files.description entry).flags.canRead, (files.description entry).flags.canWrite, false, false⟩
      | .dev .stdin | .dev .stdout | .dev .stderr | .stdio _ =>
        .ok ⟨false, (files.description entry).flags.canWrite, false, false⟩
      | .pipeRead | .pipeWrite => (pipeRefOf entry.file).map fun ref =>
        { readable := entry.file.kind = .pipeRead ∧
            (0 < (files.shared.pipe ref).state.available ∨ (files.shared.pipe ref).state.writers = 0)
          writable := entry.file.kind = .pipeWrite ∧ 0 < (files.shared.pipe ref).state.readers ∧
            (files.shared.pipe ref).state.available < (files.shared.pipe ref).state.capacity
          hangUp := entry.file.kind = .pipeRead ∧ (files.shared.pipe ref).state.writers = 0 ∨
            entry.file.kind = .pipeWrite ∧ (files.shared.pipe ref).state.readers = 0
          error := false }
      | .socket | .epoll => .ok ⟨false, false, false, false⟩
      | .eventfd => (eventfdRefOf entry.file).map fun ref =>
        ⟨(files.shared.eventfd ref).readable, (files.shared.eventfd ref).writable, false, false⟩) := by
  have hget : files.fds.get fd = .ok entry := by simp [FdTable.get, hentry, okOr]
  unfold pollReadiness
  rw [hget]
  cases hkind : entry.file.kind with
  | pipeRead | pipeWrite =>
      simp only [bind, Except.bind, hkind]
      cases pipeRefOf entry.file <;> rfl
  | eventfd =>
      simp only [bind, Except.bind, hkind]
      cases eventfdRefOf entry.file <;> rfl
  | dev kind =>
      simp only [bind, Except.bind, hkind]
      cases kind <;> rfl
  | _ => simp only [bind, Except.bind, hkind]; rfl

theorem pipeRead_stalled {ref : PipeRef} (href : pipeRefOf entry.file = .ok ref)
    (hempty : (files.shared.pipe ref).state.available = 0) (hwriters : 0 < (files.shared.pipe ref).state.writers)
    (len : Nat) :
    pipeRead host entry len files = (if len = 0 then .ok [] else .error .wouldBlock, files) := by
  have hnil : (files.shared.pipe ref).state.buffer = [] := List.eq_nil_of_length_eq_zero hempty
  unfold pipeRead
  rw [href]
  by_cases hlen : len = 0
  · cases hpair : (files.shared.pipe ref).hostPair with
    | some bytes =>
        simp [bind, Prog.ofExcept, Prog.get, pure, failIf, hlen, hpair, hempty]
    | none =>
        have hself : (⟨(files.shared.pipe ref).state.discardReadable 0, none⟩ : PipeInner) = files.shared.pipe ref := by
          simp [PipeState.discardReadable, ← hpair]
        simp [bind, Prog.ofExcept, Prog.get, pure, failIf, hlen, hpair, hempty, share, Prog.modify, hself,
          Shared.setPipe_self]
  · simp [bind, Prog.ofExcept, Prog.get, pure, failIf, hlen, hempty, hwriters, Prog.throw]

theorem pipeWrite_stalled {ref : PipeRef} (href : pipeRefOf entry.file = .ok ref)
    (hfull : (files.shared.pipe ref).state.capacity = (files.shared.pipe ref).state.available)
    (hreaders : 0 < (files.shared.pipe ref).state.readers) (bytes : List UInt8) :
    pipeWrite host entry bytes files = (if bytes = [] then .ok 0 else .error .wouldBlock, files) := by
  have hsome : (files.shared.pipe ref).state.readers ≠ 0 := by omega
  unfold pipeWrite
  rw [href]
  by_cases hbytes : bytes = []
  · cases hpair : (files.shared.pipe ref).hostPair with
    | some underway =>
        simp [bind, Prog.ofExcept, Prog.get, pure, failIf, hbytes, hpair, hsome]
    | none =>
        have hself : (⟨(files.shared.pipe ref).state, none⟩ : PipeInner) = files.shared.pipe ref := by
          rw [← hpair]
        simp [bind, Prog.ofExcept, Prog.get, pure, failIf, hbytes, hpair, hsome, share, Prog.modify, hself,
          PipeState.write, Except.bind, Except.pure, Shared.setPipe_self]
  · simp [bind, Prog.ofExcept, Prog.get, pure, failIf, hbytes, hfull, hsome, Prog.throw]

theorem setEventfd_self (shared : Shared) (ref : EventfdRef) : shared.setEventfd ref (shared.eventfd ref) = shared := by
  have hsame : (fun i => if i = ref then shared.eventfd ref else shared.eventfd i) = shared.eventfd := by
    funext i
    split
    · rename_i heq
      rw [heq]
    · rfl
  unfold Shared.setEventfd
  rw [hsame]

end Files

theorem eventfd_full {state : EventfdState} {bytes : List UInt8} {answer : Nat × EventfdState}
    (hfull : EventfdState.maxCounter ≤ state.counter) (h : state.write bytes = .ok answer) : answer.2 = state := by
  unfold EventfdState.write at h
  simp only [failIf, except_bind_eq_ok] at h
  obtain ⟨_, _, _, _, _, hroom, hanswer⟩ := h
  split at hroom
  · cases hroom
  · rename_i hroom
    cases hanswer
    have hzero : EventfdState.ofLeBytes (bytes.take 8) = 0 := by omega
    rw [hzero]
    rfl

namespace VirtualFileSystem

variable {vfs : VirtualFileSystem} {host : Host} {fd : Fd} {entry : FdEntry} {readiness : Files.FdReadiness}

theorem onFiles_run {α : Type} {call : Files.Call α} {r : Except VfsError α} (h : call vfs.files = (r, vfs.files)) :
    onFiles call vfs = (r, vfs) := by
  simp only [onFiles, Prog.zoom, h]
  rfl

/-- A read of an unready descriptor changes nothing, and its answer is that of the stalled file. -/
theorem fdsRead_stalled (hentry : vfs.fds.entries.get? fd = some entry)
    (hpoll : vfs.files.pollReadiness fd = .ok readiness) (hunready : readiness.ready false = false) (len : Nat) :
    fdsRead host fd len vfs =
      (stalledRead (vfs.shared.description entry.description).flags entry.file.kind len, vfs) := by
  have hok : vfs.fds.get fd = .ok entry := by simp [FdTable.get, hentry, okOr]
  rw [Files.pollReadiness_eq hentry] at hpoll
  unfold fdsRead stalledRead
  by_cases hread : (vfs.shared.description entry.description).flags.canRead = false
  · simp [hok, hread, failIf, bind, Prog.get, Prog.ofExcept, Prog.throw, pure]
  · cases hkind : entry.file.kind with
    | regular | directory | symlink =>
        rw [hkind] at hpoll
        cases hpoll
        cases hunready
    | dev kind =>
        cases kind with
        | null | zero | urandom =>
            rw [hkind] at hpoll
            cases hpoll
            exact absurd hunready (by simpa [Files.FdReadiness.ready, Files.description, files] using hread)
        | _ => simp [hok, hread, hkind, failIf, bind, Prog.get, Prog.ofExcept, Prog.throw, pure]
    | pipeRead =>
        rw [hkind] at hpoll
        simp only at hpoll
        cases href : Files.pipeRefOf entry.file with
        | error error =>
            rw [href] at hpoll
            cases hpoll
        | ok ref =>
            rw [href] at hpoll
            cases hpoll
            have hunready' : ¬(0 < (vfs.shared.pipe ref).state.available ∨ (vfs.shared.pipe ref).state.writers = 0) ∧
                ¬(vfs.shared.pipe ref).state.writers = 0 := by
              simpa [Files.FdReadiness.ready, files] using hunready
            have hempty : (vfs.files.shared.pipe ref).state.available = 0 :=
              Nat.eq_zero_of_not_pos fun hpos => hunready'.1 (Or.inl hpos)
            have hrun : onFiles (Files.pipeRead host entry len) vfs = _ :=
              onFiles_run (Files.pipeRead_stalled href hempty (Nat.pos_of_ne_zero hunready'.2) len)
            simp [hok, hread, hkind, failIf, bind, Prog.get, Prog.ofExcept, pure, hrun]
    | eventfd =>
        rw [hkind] at hpoll
        simp only at hpoll
        cases href : Files.eventfdRefOf entry.file with
        | error error =>
            rw [href] at hpoll
            cases hpoll
        | ok ref =>
            rw [href] at hpoll
            cases hpoll
            have hnone : (vfs.shared.eventfd ref).readable = false := by
              simpa [Files.FdReadiness.ready, files] using hunready
            have hzero : (vfs.shared.eventfd ref).counter = 0 :=
              Nat.eq_zero_of_not_pos (of_decide_eq_false hnone)
            have hrun : onFiles (Files.eventfdRead entry len) vfs =
                (if len < 8 then .error .invalidPath else .error .wouldBlock, vfs) := by
              apply onFiles_run
              by_cases hlen : len < 8
              · simp [Files.eventfdRead, href, bind, Prog.get, Prog.ofExcept, pure, EventfdState.read, failIf, hlen,
                  Except.bind, Prog.throw]
              · simp [Files.eventfdRead, href, bind, Prog.get, Prog.ofExcept, pure, EventfdState.read, failIf, hlen,
                  Except.bind, Prog.throw, files, hzero]
            simp [hok, hread, hkind, failIf, bind, Prog.get, Prog.ofExcept, pure, hrun]
    | stdio kind =>
        cases kind with
        | _ => simp [hok, hread, hkind, failIf, bind, Prog.get, Prog.ofExcept, Prog.throw, pure]
    | _ => simp [hok, hread, hkind, failIf, bind, Prog.get, Prog.ofExcept, Prog.throw, pure]

/-- A write to an unready descriptor changes nothing, and its answer is that of the stalled file. -/
theorem fdsWrite_stalled (hentry : vfs.fds.entries.get? fd = some entry)
    (hbounded : ∀ ref, (vfs.shared.pipe ref).state.available ≤ (vfs.shared.pipe ref).state.capacity)
    (hpoll : vfs.files.pollReadiness fd = .ok readiness) (hunready : readiness.ready true = false)
    (bytes : List UInt8) :
    fdsWrite host fd bytes vfs =
      (stalledWrite (vfs.shared.description entry.description).flags entry.file.kind
        (vfs.files.counterOf entry.file) bytes, vfs) := by
  have hok : vfs.fds.get fd = .ok entry := by simp [FdTable.get, hentry, okOr]
  rw [Files.pollReadiness_eq hentry] at hpoll
  unfold fdsWrite stalledWrite
  by_cases hwrite : (vfs.shared.description entry.description).flags.canWrite = false
  · simp [hok, hwrite, failIf, bind, Prog.get, Prog.ofExcept, Prog.throw, pure]
  · have hready : ∀ readable, ¬(⟨readable, (vfs.files.description entry).flags.canWrite, false, false⟩ :
        Files.FdReadiness).ready true = false := by
      intro readable
      simpa [Files.FdReadiness.ready, Files.description, files] using hwrite
    cases hkind : entry.file.kind with
    | regular | directory | symlink =>
        rw [hkind] at hpoll
        cases hpoll
        exact absurd hunready (hready _)
    | dev kind =>
        rw [hkind] at hpoll
        cases kind with
        | _ =>
            cases hpoll
            exact absurd hunready (hready _)
    | stdio kind =>
        rw [hkind] at hpoll
        cases hpoll
        exact absurd hunready (hready _)
    | pipeWrite =>
        rw [hkind] at hpoll
        simp only at hpoll
        cases href : Files.pipeRefOf entry.file with
        | error error =>
            rw [href] at hpoll
            cases hpoll
        | ok ref =>
            rw [href] at hpoll
            cases hpoll
            have hunready' : ¬(0 < (vfs.shared.pipe ref).state.readers ∧
                (vfs.shared.pipe ref).state.available < (vfs.shared.pipe ref).state.capacity) ∧
                ¬(vfs.shared.pipe ref).state.readers = 0 := by
              simpa [Files.FdReadiness.ready, files] using hunready
            have hreaders : 0 < (vfs.files.shared.pipe ref).state.readers := Nat.pos_of_ne_zero hunready'.2
            have hfull : (vfs.files.shared.pipe ref).state.capacity = (vfs.files.shared.pipe ref).state.available :=
              Nat.le_antisymm (Nat.le_of_not_lt fun hlt => hunready'.1 ⟨hreaders, hlt⟩) (hbounded ref)
            have hrun : onFiles (Files.pipeWrite host entry bytes) vfs = _ :=
              onFiles_run (Files.pipeWrite_stalled href hfull hreaders bytes)
            simp [hok, hwrite, hkind, failIf, bind, Prog.get, Prog.ofExcept, pure, hrun]
    | eventfd =>
        rw [hkind] at hpoll
        simp only at hpoll
        cases hbackend : entry.file.inode.backend with
        | eventfd id ref =>
            have href : Files.eventfdRefOf entry.file = .ok ref := by simp [Files.eventfdRefOf, hbackend]
            rw [href] at hpoll
            cases hpoll
            have hnone : (vfs.shared.eventfd ref).writable = false := by
              simpa [Files.FdReadiness.ready, files] using hunready
            have hfull : EventfdState.maxCounter ≤ (vfs.shared.eventfd ref).counter :=
              Nat.le_of_not_lt (of_decide_eq_false hnone)
            have hrun : onFiles (Files.eventfdWrite entry bytes) vfs =
                (((vfs.shared.eventfd ref).write bytes).map Prod.fst, vfs) := by
              apply onFiles_run
              cases hresult : (vfs.shared.eventfd ref).write bytes with
              | error error =>
                  simp [Files.eventfdWrite, href, bind, Prog.get, Prog.ofExcept, pure, files, hresult, Except.map,
                    Prog.throw]
              | ok answer =>
                  have hstate : answer.2 = vfs.shared.eventfd ref := eventfd_full hfull hresult
                  simp [Files.eventfdWrite, href, bind, Prog.get, Prog.ofExcept, pure, files, hresult, Except.map,
                    Files.share, Prog.modify, hstate, Files.setEventfd_self]
            have hcounter : vfs.files.counterOf entry.file = vfs.shared.eventfd ref := by
              simp [Files.counterOf, hbackend, files]
            simp [hok, hwrite, hkind, failIf, bind, Prog.get, Prog.ofExcept, pure, hrun, hcounter]
        | _ =>
            simp [Files.eventfdRefOf, hbackend] at hpoll
            cases hpoll
    | _ => simp [hok, hwrite, hkind, failIf, bind, Prog.get, Prog.ofExcept, Prog.throw, pure]

theorem unready_kind (hentry : vfs.fds.entries.get? fd = some entry)
    (hpoll : vfs.files.pollReadiness fd = .ok readiness) (hunready : readiness.ready false = false) :
    entry.file.kind ≠ .regular ∧ entry.file.kind ≠ .symlink := by
  rw [Files.pollReadiness_eq hentry] at hpoll
  constructor
  · intro hkind
    rw [hkind] at hpoll
    cases hpoll
    cases hunready
  · intro hkind
    rw [hkind] at hpoll
    cases hpoll
    cases hunready

theorem read_stalled (hentry : vfs.fds.entries.get? fd = some entry)
    (hpoll : vfs.files.pollReadiness fd = .ok readiness) (hunready : readiness.ready false = false) (len : Nat) :
    read host fd len vfs =
      (stalledRead (vfs.shared.description entry.description).flags entry.file.kind len, vfs) := by
  have hok : vfs.fds.get fd = .ok entry := by simp [FdTable.get, hentry, okOr]
  obtain ⟨hregular, hsymlink⟩ := unready_kind hentry hpoll hunready
  by_cases hread : (vfs.shared.description entry.description).flags.canRead = false
  · simp [read, readFromSmallCache, cachedSmallReadForEntry, stalledRead, hok, hread, failIf, bind, Prog.get,
      Prog.ofExcept, Prog.throw, pure]
  · have hcache : readFromSmallCache fd len vfs = (.ok none, vfs) := by
      simp [readFromSmallCache, cachedSmallReadForEntry, hok, hread, failIf, bind, Prog.get, Prog.ofExcept, pure,
        hregular]
    have hrequest : vfs.regularReadRequest fd = .ok none := by
      simp [regularReadRequest, hok, hread, failIf, hregular, hsymlink, bind, Except.bind, pure, Except.pure]
    unfold read
    rw [run_bind_ok hcache]
    simp only [bind, Prog.get, hrequest, Prog.ofExcept, pure]
    exact fdsRead_stalled hentry hpoll hunready len

theorem write_stalled (hentry : vfs.fds.entries.get? fd = some entry)
    (hbounded : ∀ ref, (vfs.shared.pipe ref).state.available ≤ (vfs.shared.pipe ref).state.capacity)
    (hpoll : vfs.files.pollReadiness fd = .ok readiness) (hunready : readiness.ready true = false)
    (bytes : List UInt8) :
    write host fd bytes vfs =
      (stalledWrite (vfs.shared.description entry.description).flags entry.file.kind
        (vfs.files.counterOf entry.file) bytes, vfs) := by
  have hrun : fdsWrite host fd bytes vfs = _ := fdsWrite_stalled hentry hbounded hpoll hunready bytes
  unfold write
  simp only [bind, Prog.get, hrun, hentry]
  cases hresult : stalledWrite (vfs.shared.description entry.description).flags entry.file.kind
      (vfs.files.counterOf entry.file) bytes with
  | error error => rfl
  | ok count =>
      by_cases hkind : entry.file.kind = .regular
      · simp [stalledWrite, hkind] at hresult
      · simp [Prog.when, hkind, pure]

end VirtualFileSystem

end Mcr.Vfs
