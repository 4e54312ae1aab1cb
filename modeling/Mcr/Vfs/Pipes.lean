import Mcr.Vfs.FdCalls

/-!
# The ends of a pipe

A pipe counts the descriptors that are its ends. `Change` says once what a call on one table does to the
entries and to the shared objects; every call that moves no bytes is a chain of them. A table is `Sound`
beside a given number of ends in other tables: the counts are exact, no pipe holds more than its capacity,
and every entry refers to objects that were handed out.
-/

namespace Mcr.Vfs

open Prog

inductive PipeEnd
  | read
  | write
deriving DecidableEq, Repr

def PipeEnd.kind : PipeEnd → FileKind
  | .read => .pipeRead
  | .write => .pipeWrite

/-- The count of the ends of one kind. -/
def PipeState.ends (state : PipeState) : PipeEnd → Nat
  | .read => state.readers
  | .write => state.writers

def PipeState.ReadBlocks (state : PipeState) (len : Nat) : Prop :=
  state.available = 0 ∧ len ≠ 0 ∧ 0 < state.writers

def PipeState.WriteBlocks (state : PipeState) (bytes : List UInt8) : Prop :=
  state.readers ≠ 0 ∧ state.capacity = state.available ∧ bytes ≠ []

/-- Transfers through a host pipe wait until they are done, and neither end of the pair is closed before. -/
def Host.PipesWait (host : Host) : Prop :=
  ∀ count kind, host.pipeTransfer count = .error kind →
    kind ≠ .wouldBlock ∧ kind ≠ .interrupted ∧ kind ≠ .brokenPipe

/-- The size of the buffer of a host pair (`DEFAULT_PIPE_BUFFER_SIZE`), which `F_SETPIPE_SZ` does not change. -/
def hostPipeBuffer : Nat := 64 * 1024

def FileRef.weight (file : FileRef) (side : PipeEnd) (ref : PipeRef) : Nat :=
  match file.inode.backend with
  | .pipe _ r => if r = ref ∧ file.kind = side.kind then 1 else 0
  | _ => 0

def FdTable.endpoints (table : FdTable) (side : PipeEnd) (ref : PipeRef) : Nat :=
  table.entries.total fun entry => entry.file.weight side ref

namespace PipeInner

/-- The bytes written and not yet read. -/
def content (inner : PipeInner) : List UInt8 := inner.hostPair.getD inner.state.buffer

/-- A write of more than the pair's buffer has room for waits for a read. None comes: the writer holds the pipe's
mutex. -/
def writePends (inner : PipeInner) (bytes : List UInt8) : Bool :=
  let count := min (inner.state.capacity - inner.state.available) bytes.length
  match inner.hostPair with
  | some underway => inner.state.readers ≠ 0 && count ≠ 0 && hostPipeBuffer < underway.length + count
  | none => false

/-- What the pipe still takes, the pair's buffer has room for. -/
def FitsPair (inner : PipeInner) : Prop :=
  inner.hostPair = none ∨ inner.state.readers = 0 ∨ inner.state.available = inner.state.capacity ∨
    inner.state.capacity ≤ hostPipeBuffer

/-- The pipe holds no more than its capacity, and its host pair as much as it counts. -/
structure Sound (inner : PipeInner) : Prop where
  bounded : inner.state.buffer.length ≤ inner.state.capacity
  content : inner.content.length = inner.state.buffer.length

/-- Only the counts of the ends differ. -/
def SameBytes (inner inner' : PipeInner) : Prop :=
  inner'.state.buffer = inner.state.buffer ∧ inner'.state.capacity = inner.state.capacity ∧
    inner'.hostPair = inner.hostPair

theorem Sound.returns_iff {inner : PipeInner} (h : inner.Sound) :
    (∀ bytes, bytes ≠ [] → inner.writePends bytes = false) ↔ inner.FitsPair := by
  have hbounded : inner.state.available ≤ inner.state.capacity := h.bounded
  have hcontent : inner.content.length = inner.state.available := h.content
  unfold FitsPair writePends
  cases hpair : inner.hostPair with
  | none => simp
  | some underway =>
      rw [PipeInner.content, hpair, Option.getD_some] at hcontent
      simp only [hcontent, reduceCtorEq, false_or]
      constructor
      · intro hreturns
        by_contra! hnot
        obtain ⟨hreaders, hroom, hsmall⟩ := hnot
        -- as many bytes as the pipe takes
        have hpends := hreturns (List.replicate (inner.state.capacity - inner.state.available) 0)
          (by rw [Ne, List.replicate_eq_nil_iff]; omega)
        simp only [List.length_replicate, Nat.min_self, Bool.and_eq_false_iff, decide_eq_false_iff_not] at hpends
        omega
      · intro hfits bytes _
        simp only [Bool.and_eq_false_iff, decide_eq_false_iff_not]
        omega

theorem SameBytes.content_eq {inner inner' : PipeInner} (h : SameBytes inner inner') :
    inner'.content = inner.content := by
  rw [content, content, h.1, h.2.2]

theorem SameBytes.trans {inner inner' inner'' : PipeInner} (h : SameBytes inner inner') (h' : SameBytes inner' inner'') :
    SameBytes inner inner'' :=
  ⟨h'.1.trans h.1, h'.2.1.trans h.2.1, h'.2.2.trans h.2.2⟩

theorem SameBytes.sound {inner inner' : PipeInner} (h : SameBytes inner inner') (hsound : inner.Sound) :
    inner'.Sound := by
  refine ⟨?_, ?_⟩
  · rw [h.1, h.2.1]
    exact hsound.bounded
  · rw [h.content_eq, h.1]
    exact hsound.content

end PipeInner

namespace Shared

variable (shared : Shared) (file : FileRef)

theorem registerFdEndpoint_ends (side : PipeEnd) (ref : PipeRef) :
    ((shared.registerFdEndpoint file).pipe ref).state.ends side =
      (shared.pipe ref).state.ends side + file.weight side ref := by
  unfold registerFdEndpoint FileRef.weight
  cases file.inode.backend with
  | pipe id r =>
      by_cases hr : ref = r
      · subst hr
        cases side <;> cases file.kind <;> simp [setPipe, PipeState.registerEndpoint, PipeState.ends, PipeEnd.kind]
      · simp [setPipe, hr, Ne.symm hr]
  | _ => rfl

theorem unregisterFdEndpoint_ends (side : PipeEnd) (ref : PipeRef) :
    ((shared.unregisterFdEndpoint file).pipe ref).state.ends side =
      (shared.pipe ref).state.ends side - file.weight side ref := by
  unfold unregisterFdEndpoint FileRef.weight
  cases file.inode.backend with
  | pipe id r =>
      by_cases hr : ref = r
      · subst hr
        cases side <;> cases file.kind <;> simp [setPipe, PipeState.unregisterEndpoint, PipeState.ends, PipeEnd.kind]
      · simp [setPipe, hr, Ne.symm hr]
  | _ => rfl

theorem registerFdEndpoint_sameBytes (ref : PipeRef) :
    (shared.pipe ref).SameBytes ((shared.registerFdEndpoint file).pipe ref) := by
  unfold registerFdEndpoint
  cases file.inode.backend with
  | pipe id r =>
      by_cases hr : ref = r
      · subst hr
        cases file.kind <;> simp [setPipe, PipeState.registerEndpoint, PipeInner.SameBytes]
      · simp [setPipe, hr, PipeInner.SameBytes]
  | _ => exact ⟨rfl, rfl, rfl⟩

theorem unregisterFdEndpoint_sameBytes (ref : PipeRef) :
    (shared.pipe ref).SameBytes ((shared.unregisterFdEndpoint file).pipe ref) := by
  unfold unregisterFdEndpoint
  cases file.inode.backend with
  | pipe id r =>
      by_cases hr : ref = r
      · subst hr
        cases file.kind <;> simp [setPipe, PipeState.unregisterEndpoint, PipeInner.SameBytes]
      · simp [setPipe, hr, PipeInner.SameBytes]
  | _ => exact ⟨rfl, rfl, rfl⟩

@[simp] theorem registerFdEndpoint_nextPipe : (shared.registerFdEndpoint file).nextPipe = shared.nextPipe := by
  unfold registerFdEndpoint
  split <;> rfl

@[simp] theorem unregisterFdEndpoint_nextPipe : (shared.unregisterFdEndpoint file).nextPipe = shared.nextPipe := by
  unfold unregisterFdEndpoint
  split <;> rfl

@[simp] theorem withDescription_nextPipe (flags : OpenFlags) :
    (shared.withDescription flags).nextPipe = shared.nextPipe := rfl

theorem setPipe_self (ref : PipeRef) : shared.setPipe ref (shared.pipe ref) = shared := by
  have hpipe : (fun r => if r = ref then shared.pipe ref else shared.pipe r) = shared.pipe := by
    funext r
    split
    · rename_i hr
      rw [hr]
    · rfl
  unfold setPipe
  rw [hpipe]

/-- The objects handed out stay, and descriptions keep their access mode. -/
structure Grows (shared shared' : Shared) : Prop where
  nextDescription : shared.nextDescription ≤ shared'.nextDescription
  nextPipe : shared.nextPipe ≤ shared'.nextPipe
  modes : ∀ id, id < shared.nextDescription →
    (shared'.description id).flags.accessMode = (shared.description id).flags.accessMode

variable {shared} {shared' shared'' : Shared}

theorem Grows.refl (shared : Shared) : shared.Grows shared := ⟨Nat.le_refl _, Nat.le_refl _, fun _ _ => rfl⟩

theorem Grows.trans (h : shared.Grows shared') (h' : shared'.Grows shared'') : shared.Grows shared'' :=
  ⟨h.nextDescription.trans h'.nextDescription, h.nextPipe.trans h'.nextPipe, fun id hid =>
    (h'.modes id (Nat.lt_of_lt_of_le hid h.nextDescription)).trans (h.modes id hid)⟩

theorem Grows.register (shared : Shared) (file : FileRef) : shared.Grows (shared.registerFdEndpoint file) :=
  ⟨by simp, by simp, fun _ _ => by simp⟩

theorem Grows.unregister (shared : Shared) (file : FileRef) : shared.Grows (shared.unregisterFdEndpoint file) :=
  ⟨by simp, by simp, fun _ _ => by simp⟩

theorem Grows.setPipe (shared : Shared) (ref : PipeRef) (inner : PipeInner) : shared.Grows (shared.setPipe ref inner) :=
  ⟨Nat.le_refl _, Nat.le_refl _, fun _ _ => rfl⟩

end Shared

/-- An entry refers to objects that were handed out, and is open for what its kind is used for. -/
structure FdEntry.Known (shared : Shared) (entry : FdEntry) : Prop where
  described : entry.description < shared.nextDescription
  pipe : ∀ id ref, entry.file.inode.backend = .pipe id ref → ref < shared.nextPipe
  reads : entry.file.kind = .pipeRead → (∃ id ref, entry.file.inode.backend = .pipe id ref) ∧
    (shared.description entry.description).flags.canRead = true
  writes : entry.file.kind = .pipeWrite → (∃ id ref, entry.file.inode.backend = .pipe id ref) ∧
    (shared.description entry.description).flags.canWrite = true
  counts : entry.file.kind = .eventfd → (∃ id ref, entry.file.inode.backend = .eventfd id ref) ∧
    (shared.description entry.description).flags.canRead = true ∧
    (shared.description entry.description).flags.canWrite = true

theorem FdEntry.Known.mono {shared shared' : Shared} {entry : FdEntry} (h : entry.Known shared)
    (hgrows : shared.Grows shared') : entry.Known shared' := by
  have hmode := hgrows.modes entry.description h.described
  have hread : (shared'.description entry.description).flags.canRead =
      (shared.description entry.description).flags.canRead := by
    rw [OpenFlags.canRead, OpenFlags.canRead, hmode]
  have hwrite : (shared'.description entry.description).flags.canWrite =
      (shared.description entry.description).flags.canWrite := by
    rw [OpenFlags.canWrite, OpenFlags.canWrite, hmode]
  refine ⟨Nat.lt_of_lt_of_le h.described hgrows.nextDescription, fun id ref hbackend => ?_, ?_, ?_, ?_⟩
  · exact Nat.lt_of_lt_of_le (h.pipe id ref hbackend) hgrows.nextPipe
  · rw [hread]
    exact h.reads
  · rw [hwrite]
    exact h.writes
  · rw [hread, hwrite]
    exact h.counts

theorem FdEntry.Known.plain {shared : Shared} {file : FileRef} {flags : OpenFlags} {path : Option GuestPath}
    (hbackend : ∀ id ref, file.inode.backend ≠ .pipe id ref)
    (hkind : file.kind ≠ .pipeRead ∧ file.kind ≠ .pipeWrite ∧ file.kind ≠ .eventfd) :
    FdEntry.Known (shared.withDescription flags) ⟨file, shared.nextDescription, path⟩ :=
  ⟨Nat.lt_succ_self _, fun id ref h => absurd h (hbackend id ref), fun h => absurd h hkind.1,
    fun h => absurd h hkind.2.1, fun h => absurd h hkind.2.2⟩

namespace FdTable

variable {shared : Shared} {table : FdTable}

theorem endpoints_fresh (h : ∀ fd entry, table.entries.get? fd = some entry → entry.Known shared) {ref : PipeRef}
    (hfresh : shared.nextPipe ≤ ref) (side : PipeEnd) : table.endpoints side ref = 0 := by
  refine SortedMap.total_eq_zero_iff.mpr fun fd entry hentry => ?_
  unfold FileRef.weight
  split
  · rename_i id r hbackend
    refine if_neg fun heq => ?_
    have hlt := (h fd entry hentry).pipe id r hbackend
    rw [heq.1] at hlt
    exact absurd hlt (Nat.not_lt.mpr hfresh)
  · rfl

theorem clone_spec (table : FdTable) (shared : Shared) :
    (∀ side ref, ((table.clone shared).pipe ref).state.ends side =
        (shared.pipe ref).state.ends side + table.endpoints side ref) ∧
      (∀ ref, (shared.pipe ref).SameBytes ((table.clone shared).pipe ref)) ∧
      (table.clone shared).nextPipe = shared.nextPipe ∧ shared.Grows (table.clone shared) := by
  unfold clone endpoints SortedMap.total
  generalize table.entries.values = entries
  induction entries generalizing shared with
  | nil => exact ⟨fun _ _ => rfl, fun _ => ⟨rfl, rfl, rfl⟩, rfl, .refl _⟩
  | cons entry entries ih =>
      obtain ⟨hends, hsame, hnext, hgrows⟩ := ih (shared.registerFdEndpoint entry.file)
      simp only [List.foldl_cons, List.map_cons, List.sum_cons]
      refine ⟨fun side ref => ?_, fun ref => ?_, ?_, ?_⟩
      · rw [hends, Shared.registerFdEndpoint_ends]
        omega
      · exact (Shared.registerFdEndpoint_sameBytes shared entry.file ref).trans (hsame ref)
      · rw [hnext, Shared.registerFdEndpoint_nextPipe]
      · exact (Shared.Grows.register shared entry.file).trans hgrows

theorem drop_spec (table : FdTable) (shared : Shared) :
    (∀ side ref, ((table.drop shared).pipe ref).state.ends side =
        (shared.pipe ref).state.ends side - table.endpoints side ref) ∧
      (∀ ref, (shared.pipe ref).SameBytes ((table.drop shared).pipe ref)) ∧
      (table.drop shared).nextPipe = shared.nextPipe ∧ shared.Grows (table.drop shared) := by
  unfold drop endpoints SortedMap.total
  generalize table.entries.values = entries
  induction entries generalizing shared with
  | nil => exact ⟨fun _ _ => rfl, fun _ => ⟨rfl, rfl, rfl⟩, rfl, .refl _⟩
  | cons entry entries ih =>
      obtain ⟨hends, hsame, hnext, hgrows⟩ := ih (shared.unregisterFdEndpoint entry.file)
      simp only [List.foldl_cons, List.map_cons, List.sum_cons]
      refine ⟨fun side ref => ?_, fun ref => ?_, ?_, ?_⟩
      · rw [hends, Shared.unregisterFdEndpoint_ends]
        omega
      · exact (Shared.unregisterFdEndpoint_sameBytes shared entry.file ref).trans (hsame ref)
      · rw [hnext, Shared.unregisterFdEndpoint_nextPipe]
      · exact (Shared.Grows.unregister shared entry.file).trans hgrows

end FdTable

namespace Files

/-- One thing a call does to a table and the shared objects, none of which moves a byte. -/
inductive Change (host : Host) (files files' : Files) : Prop
  | idle (hentries : files'.fds.entries = files.fds.entries) (hpipe : files'.shared.pipe = files.shared.pipe)
      (hnext : files'.shared.nextPipe = files.shared.nextPipe) (hgrows : files.shared.Grows files'.shared)
  | newPipe (hfiles : files' = files.withPipe host)
  | bind {fd : Fd} {entry : FdEntry} (hfree : files.fds.entries.get? fd = none) (hknown : entry.Known files.shared)
      (hentries : files'.fds.entries = files.fds.entries.insert fd entry)
      (hshared : files'.shared = files.shared.registerFdEndpoint entry.file)
  | unbind {fd : Fd} {entry : FdEntry} (hentry : files.fds.entries.get? fd = some entry)
      (hentries : files'.fds.entries = files.fds.entries.erase fd)
      (hshared : files'.shared = files.shared.unregisterFdEndpoint entry.file)
  | resize {ref : PipeRef} {capacity : Nat} (hentries : files'.fds.entries = files.fds.entries)
      (hroom : (files.shared.pipe ref).state.buffer.length ≤ capacity)
      (hshared : files'.shared = files.shared.setPipe ref
        { files.shared.pipe ref with state := { (files.shared.pipe ref).state with capacity := capacity } })

/-- The table beside `others` ends in other tables. -/
structure Sound (others : PipeEnd → PipeRef → Nat) (files : Files) : Prop where
  counted : ∀ side ref, (files.shared.pipe ref).state.ends side = others side ref + files.fds.endpoints side ref
  known : ∀ fd entry, files.fds.entries.get? fd = some entry → entry.Known files.shared
  bytes : ∀ ref, (files.shared.pipe ref).Sound
  fresh : ∀ ref, files.shared.nextPipe ≤ ref → (files.shared.pipe ref).content = [] ∧ ∀ side, others side ref = 0

variable {others : PipeEnd → PipeRef → Nat} {files files' : Files} {host : Host}

theorem Change.grows (h : Change host files files') : files.shared.Grows files'.shared := by
  cases h with
  | idle _ _ _ hgrows => exact hgrows
  | newPipe hfiles =>
      subst hfiles
      exact ⟨Nat.le_refl _, Nat.le_succ _, fun _ _ => rfl⟩
  | bind _ _ _ hshared => exact hshared ▸ .register _ _
  | unbind _ _ hshared => exact hshared ▸ .unregister _ _
  | resize _ _ hshared => exact hshared ▸ .setPipe _ _ _

theorem endpoints_of_entries {fds fds' : FdTable} (h : fds'.entries = fds.entries) (side : PipeEnd) (ref : PipeRef) :
    fds'.endpoints side ref = fds.endpoints side ref := by
  rw [FdTable.endpoints, FdTable.endpoints, h]

theorem bind_endpoints {fd : Fd} {entry : FdEntry} (hfree : files.fds.entries.get? fd = none)
    (hentries : files'.fds.entries = files.fds.entries.insert fd entry) (side : PipeEnd) (ref : PipeRef) :
    files'.fds.endpoints side ref = entry.file.weight side ref + files.fds.endpoints side ref := by
  rw [FdTable.endpoints, hentries, SortedMap.total_insert, SortedMap.erase_of_none hfree]
  rfl

theorem unbind_endpoints {fd : Fd} {entry : FdEntry} (hentry : files.fds.entries.get? fd = some entry)
    (hentries : files'.fds.entries = files.fds.entries.erase fd) (side : PipeEnd) (ref : PipeRef) :
    files.fds.endpoints side ref = entry.file.weight side ref + files'.fds.endpoints side ref := by
  rw [FdTable.endpoints, SortedMap.total_erase hentry, FdTable.endpoints, hentries]

theorem Sound.setPipe (h : Sound others files) {ref : PipeRef} {inner : PipeInner}
    (hentries : files'.fds.entries = files.fds.entries) (hshared : files'.shared = files.shared.setPipe ref inner)
    (hends : inner.state.ends = (files.shared.pipe ref).state.ends) (hsound : inner.Sound)
    (hfresh : files.shared.nextPipe ≤ ref → inner.content = []) : Sound others files' := by
  refine ⟨fun side r => ?_, fun fd entry hentry => ?_, fun r => ?_, fun r hr => ?_⟩
  · rw [endpoints_of_entries hentries, ← h.counted side r, hshared]
    by_cases hr : r = ref
    · subst hr
      simp [Shared.setPipe, hends]
    · simp [Shared.setPipe, hr]
  · rw [hentries] at hentry
    exact (h.known fd entry hentry).mono (hshared ▸ .setPipe _ _ _)
  · rw [hshared]
    by_cases hr : r = ref
    · simp [Shared.setPipe, hr, hsound]
    · simpa [Shared.setPipe, hr] using h.bytes r
  · rw [hshared] at hr ⊢
    obtain ⟨hcontent, hothers⟩ := h.fresh r hr
    refine ⟨?_, hothers⟩
    by_cases heq : r = ref
    · simp only [Shared.setPipe, if_pos heq]
      exact hfresh (heq ▸ hr)
    · simpa [Shared.setPipe, heq] using hcontent

theorem Sound.of_sameBytes (h : Sound others files) (hcounted : ∀ side ref,
      (files'.shared.pipe ref).state.ends side = others side ref + files'.fds.endpoints side ref)
    (hknown : ∀ fd entry, files'.fds.entries.get? fd = some entry → entry.Known files'.shared)
    (hsame : ∀ ref, (files.shared.pipe ref).SameBytes (files'.shared.pipe ref))
    (hnext : files'.shared.nextPipe = files.shared.nextPipe) : Sound others files' := by
  refine ⟨hcounted, hknown, fun ref => (hsame ref).sound (h.bytes ref), fun ref href => ?_⟩
  rw [(hsame ref).content_eq]
  exact h.fresh ref (hnext ▸ href)

theorem Change.sound (h : Change host files files') (hsound : Sound others files) : Sound others files' := by
  have hgrows := h.grows
  cases h with
  | idle hentries hpipe hnext _ =>
      refine hsound.of_sameBytes (fun side ref => ?_) (fun fd entry hentry => ?_) (fun ref => ?_) hnext
      · rw [hpipe, endpoints_of_entries hentries, hsound.counted side ref]
      · exact (hsound.known fd entry (hentries ▸ hentry)).mono hgrows
      · rw [hpipe]
        exact ⟨rfl, rfl, rfl⟩
  | newPipe hfiles =>
      subst hfiles
      obtain ⟨hcontent, hothers⟩ := hsound.fresh _ (Nat.le_refl files.shared.nextPipe)
      have hpipe : ∀ ref, ref ≠ files.shared.nextPipe →
          ((files.withPipe host).shared.pipe ref) = files.shared.pipe ref := by
        intro ref href
        simp [withPipe, Shared.setPipe, href]
      have hnew : ((files.withPipe host).shared.pipe files.shared.nextPipe) =
          ⟨⟨[], defaultPipeCapacity, 0, 0⟩, if host.pipePair files.fds.nextPipeId then some [] else none⟩ := by
        simp [withPipe, Shared.setPipe]
      have hempty : ((files.withPipe host).shared.pipe files.shared.nextPipe).content = [] := by
        rw [hnew, PipeInner.content]
        split <;> rfl
      refine ⟨fun side ref => ?_, fun fd entry hentry => (hsound.known fd entry hentry).mono hgrows,
        fun ref => ?_, fun ref href => ?_⟩
      · by_cases heq : ref = files.shared.nextPipe
        · subst heq
          have hnone : (files.withPipe host).fds.endpoints side files.shared.nextPipe = 0 :=
            FdTable.endpoints_fresh hsound.known (Nat.le_refl _) side
          rw [hnew, hothers side, hnone]
          cases side <;> rfl
        · rw [hpipe ref heq]
          exact hsound.counted side ref
      · by_cases heq : ref = files.shared.nextPipe
        · subst heq
          exact ⟨by rw [hnew]; exact Nat.zero_le _, by rw [hempty, hnew]⟩
        · rw [hpipe ref heq]
          exact hsound.bytes ref
      · have hlt : files.shared.nextPipe < ref := href
        rw [hpipe ref hlt.ne']
        exact hsound.fresh ref hlt.le
  | @bind fd entry hfree hknown hentries hshared =>
      refine hsound.of_sameBytes (fun side ref => ?_) (fun fd' entry' hentry' => ?_) (fun ref => ?_) ?_
      · rw [hshared, Shared.registerFdEndpoint_ends, bind_endpoints hfree hentries, hsound.counted side ref]
        omega
      · rw [hentries, SortedMap.get?_insert] at hentry'
        split at hentry'
        · cases hentry'
          exact hknown.mono hgrows
        · exact (hsound.known fd' entry' hentry').mono hgrows
      · rw [hshared]
        exact Shared.registerFdEndpoint_sameBytes _ _ ref
      · rw [hshared, Shared.registerFdEndpoint_nextPipe]
  | @unbind fd entry hentry hentries hshared =>
      refine hsound.of_sameBytes (fun side ref => ?_) (fun fd' entry' hentry' => ?_) (fun ref => ?_) ?_
      · rw [hshared, Shared.unregisterFdEndpoint_ends, hsound.counted side ref, unbind_endpoints hentry hentries]
        omega
      · rw [hentries, SortedMap.get?_erase] at hentry'
        split at hentry'
        · nomatch hentry'
        · exact (hsound.known fd' entry' hentry').mono hgrows
      · rw [hshared]
        exact Shared.unregisterFdEndpoint_sameBytes _ _ ref
      · rw [hshared, Shared.unregisterFdEndpoint_nextPipe]
  | @resize ref capacity hentries hroom hshared =>
      refine hsound.setPipe hentries hshared rfl ⟨hroom, (hsound.bytes ref).content⟩ fun href => ?_
      exact (hsound.fresh ref href).1

theorem Change.content (h : Change host files files') (hsound : Sound others files) (ref : PipeRef) :
    (files'.shared.pipe ref).content = (files.shared.pipe ref).content := by
  cases h with
  | idle _ hpipe _ _ => rw [hpipe]
  | newPipe hfiles =>
      subst hfiles
      by_cases heq : ref = files.shared.nextPipe
      · rw [heq, (hsound.fresh _ (Nat.le_refl _)).1]
        simp only [withPipe, Shared.setPipe, if_pos, PipeInner.content]
        split <;> rfl
      · simp [withPipe, Shared.setPipe, heq]
  | bind _ _ _ hshared =>
      rw [hshared]
      exact (Shared.registerFdEndpoint_sameBytes _ _ ref).content_eq
  | unbind _ _ hshared =>
      rw [hshared]
      exact (Shared.unregisterFdEndpoint_sameBytes _ _ ref).content_eq
  | @resize ref' capacity _ _ hshared =>
      rw [hshared]
      by_cases heq : ref = ref'
      · subst heq
        simp [Shared.setPipe, PipeInner.content]
      · simp [Shared.setPipe, heq]

/-! ### The calls -/

/-- What a call that moves no byte does. -/
abbrev Changes (host : Host) : Files → Files → Prop := Relation.ReflTransGen (Change host)

theorem Changes.sound (h : Changes host files files') (hsound : Sound others files) : Sound others files' := by
  induction h with
  | refl => exact hsound
  | tail _ hlast ih => exact hlast.sound ih

theorem Changes.grows (h : Changes host files files') : files.shared.Grows files'.shared := by
  induction h with
  | refl => exact .refl _
  | tail _ hlast ih => exact ih.trans hlast.grows

theorem Changes.content (h : Changes host files files') (hsound : Sound others files) (ref : PipeRef) :
    (files'.shared.pipe ref).content = (files.shared.pipe ref).content := by
  induction h with
  | refl => rfl
  | tail hfirst hlast ih => exact (hlast.content (Changes.sound hfirst hsound) ref).trans ih

theorem Change.of_shared (hentries : files'.fds.entries = files.fds.entries) (hshared : files'.shared = files.shared) :
    Change host files files' :=
  .idle hentries (by rw [hshared]) (by rw [hshared]) (hshared ▸ .refl _)

theorem Change.bound {fd : Fd} {entry : FdEntry} (cloexec : Bool) (hfree : files.fds.entries.get? fd = none)
    (hknown : entry.Known files.shared) : Change host files (files.bound fd entry cloexec) :=
  .bind hfree hknown rfl rfl

theorem Change.closed {fd : Fd} {entry : FdEntry} (hentry : files.fds.entries.get? fd = some entry) :
    Change host files (files.closed fd entry) :=
  .unbind hentry rfl rfl

theorem Changes.inserted {fd : Fd} {file : FileRef} (cloexec : Bool) {flags : OpenFlags} (path : Option GuestPath)
    (hfree : files.fds.entries.get? fd = none)
    (hknown : FdEntry.Known (files.shared.withDescription flags) ⟨file, files.shared.nextDescription, path⟩) :
    Changes host files (files.inserted fd file cloexec flags path) := by
  have hdescribed : Change host files ⟨files.fds, files.shared.withDescription flags⟩ := by
    refine .idle rfl rfl rfl ⟨Nat.le_succ _, Nat.le_refl _, fun id hid => ?_⟩
    simp [Shared.withDescription, Shared.setDescription, hid.ne]
  refine .tail (.single hdescribed) (.bind hfree hknown rfl ?_)
  show (files.shared.registerFdEndpoint file).withDescription flags =
    (files.shared.withDescription flags).registerFdEndpoint file
  unfold Shared.registerFdEndpoint Shared.withDescription
  split <;> rfl

@[simp] theorem inserted_nextPipe (fd : Fd) (file : FileRef) (cloexec : Bool) (flags : OpenFlags)
    (path : Option GuestPath) :
    (files.inserted fd file cloexec flags path).shared.nextPipe = files.shared.nextPipe :=
  Shared.registerFdEndpoint_nextPipe _ _

theorem dup_changes (hsound : Sound others files) (oldfd minFd : Fd) (cloexec : Bool) :
    Changes host files (dup oldfd minFd cloexec files).2 := by
  refine wp_state (wp_mono (dup_spec oldfd minFd cloexec) ?_ ?_)
  · rintro newfd _ ⟨entry, hentry, hnewfd, rfl⟩
    exact .single (.bound cloexec (FdTable.nextFdFrom_ok hnewfd).2.2 (hsound.known oldfd entry hentry))
  · rintro _ _ rfl
    exact .refl

theorem close_changes (fd : Fd) : Changes host files (close fd files).2 := by
  rw [close_eq]
  cases hentry : files.fds.entries.get? fd with
  | none => exact .refl
  | some entry => exact .single (.closed hentry)

theorem vacated_changes (host : Host) (files : Files) (fd : Fd) : Changes host files (files.vacated fd) ∧
    (files.vacated fd).fds.entries.get? fd = none := by
  unfold vacated
  cases hentry : files.fds.entries.get? fd with
  | none => exact ⟨.refl, hentry⟩
  | some entry => exact ⟨.single (.closed hentry), by simp [closed]⟩

theorem dup2_changes (hsound : Sound others files) (oldfd newfd : Fd) (cloexec : Bool) :
    Changes host files (dup2 oldfd newfd cloexec files).2 := by
  refine wp_state (wp_mono (dup2_spec oldfd newfd cloexec) ?_ ?_)
  · rintro _ _ ⟨_, entry, hentry, ⟨_, rfl⟩ | ⟨_, rfl⟩⟩
    · exact .refl
    · obtain ⟨hvacated, hfree⟩ := vacated_changes host files newfd
      exact hvacated.tail (.bound cloexec hfree ((hsound.known oldfd entry hentry).mono hvacated.grows))
  · rintro _ _ rfl
    exact .refl

theorem closeOnExec_changes : Changes host files (closeOnExec files).2 := by
  have hloop : ∀ (keys : List Fd) (files : Files), Changes host files (keys.foldl dropEntry files) := by
    intro keys
    induction keys with
    | nil => exact fun _ => .refl
    | cons fd keys ih =>
        intro files
        refine .trans ?_ (ih (files.dropEntry fd))
        unfold dropEntry
        cases hentry : files.fds.entries.get? fd with
        | none => exact .refl
        | some entry => exact .single (.unbind hentry rfl rfl)
  rw [closeOnExec_eq]
  have hflags : Change host files { files with fds := { files.fds with cloexec := .empty } } := .of_shared rfl rfl
  exact .head hflags (hloop files.fds.cloexec.keys _)

theorem insertSocket_changes (socketId : Nat) (flags : OpenFlags) :
    Changes host files (insertSocket socketId flags files).2 := by
  refine wp_state (wp_mono (insertSocket_spec socketId flags) ?_ ?_)
  · rintro fd _ ⟨inodeId, hfd, rfl⟩
    exact .inserted _ _ (FdTable.nextFdFrom_ok hfd).2.2 (.plain (fun _ _ h => nomatch h) (by simp))
  · rintro _ _ rfl
    exact .refl

theorem insertEpoll_changes (epollId : Nat) (flags : OpenFlags) :
    Changes host files (insertEpoll epollId flags files).2 := by
  refine wp_state (wp_mono (insertEpoll_spec epollId flags) ?_ ?_)
  · rintro fd _ ⟨inodeId, hfd, rfl⟩
    exact .inserted _ _ (FdTable.nextFdFrom_ok hfd).2.2 (.plain (fun _ _ h => nomatch h) (by simp))
  · rintro _ _ rfl
    exact .refl

theorem insertStdio_changes (fd : Fd) (kind : StdioKind) (cloexec : Bool) :
    Changes host files (insertExact fd (.stdio kind) cloexec files).2 := by
  rw [insertExact, discard_state, insertEntry_eq]
  split
  · exact .refl
  · rename_i hfree
    rw [not_or, Option.not_isSome_iff_eq_none] at hfree
    exact .inserted _ _ hfree.2 (.plain (fun _ _ h => nomatch h) (by simp [FileRef.stdio]))

theorem accessMode_nonblock (mode flags : UInt32) :
    OpenFlags.accessMode ⟨mode ||| (flags &&& oNonblock)⟩ = mode &&& oAccmode :=
  or_and_mask (by decide) mode flags

theorem eventfd_changes (initial : Nat) (flags : OpenFlags) : Changes host files (eventfd initial flags files).2 := by
  have hnew : Change host files (files.withEventfd initial) := .idle rfl rfl rfl ⟨Nat.le_refl _, Nat.le_refl _, fun _ _ => rfl⟩
  refine wp_state (wp_mono (eventfd_spec initial flags) ?_ ?_)
  · rintro fd _ ⟨inodeId, hfd, rfl⟩
    refine .trans (.single hnew) (Changes.inserted _ _ (FdTable.nextFdFrom_ok hfd).2.2 ?_)
    refine ⟨Nat.lt_succ_self _, fun _ _ h => (nomatch h), fun h => (nomatch h), fun h => (nomatch h),
      fun _ => ⟨⟨_, _, rfl⟩, ?_⟩⟩
    simp [Shared.withDescription, Shared.setDescription, OpenFlags.canRead, OpenFlags.canWrite, accessMode_nonblock]
    decide
  · rintro _ _ (rfl | rfl | rfl)
    · exact .refl
    · exact .single (.of_shared rfl rfl)
    · exact .single hnew

theorem pipe_changes (flags : OpenFlags) : Changes host files (pipe host flags files).2 := by
  refine wp_state (wp_mono (pipe_spec host flags) ?_ ?_)
  · rintro ⟨readFd, writeFd⟩ _ ⟨inodeId, hreadFd, hwriteFd, rfl⟩
    obtain ⟨hread, hwrite, hne⟩ := pipe_free hreadFd hwriteFd
    have hnew : Change host files (files.withPipe host) := .newPipe rfl
    refine .trans (.single hnew) (.trans (Changes.inserted _ _ hread ?_) (Changes.inserted _ _ ?_ ?_))
    · refine ⟨Nat.lt_succ_self _, fun id ref h => ?_, fun _ => ⟨⟨_, _, rfl⟩, ?_⟩, fun h => (by cases h),
        fun h => (by cases h)⟩
      · cases h
        exact Nat.lt_succ_self _
      · simp [Shared.withDescription, Shared.setDescription, OpenFlags.canRead, accessMode_nonblock]
        decide
    · rw [inserted_entries, SortedMap.get?_insert, if_neg (Ne.symm hne)]
      exact hwrite
    · refine ⟨Nat.lt_succ_self _, fun id ref h => ?_, fun h => (by cases h), fun _ => ⟨⟨_, _, rfl⟩, ?_⟩,
        fun h => (by cases h)⟩
      · cases h
        rw [Shared.withDescription_nextPipe, inserted_nextPipe]
        exact Nat.lt_succ_self _
      · simp [Shared.withDescription, Shared.setDescription, OpenFlags.canWrite, accessMode_nonblock]
        decide
  · rintro _ _ (rfl | rfl)
    · exact .refl
    · exact .single (.of_shared rfl rfl)

theorem setFdFlags_changes (fd : Fd) (flags : UInt32) : Changes host files (setFdFlags fd flags files).2 := by
  unfold setFdFlags update
  refine wp_state ?_
  rw [wp_bind, wp_get, wp_bind]
  apply wp_check
  · intro _ _
    exact .refl
  intro fds hfds
  rw [wp_modify]
  replace hfds := (FdTable.setCloexec_eq _ _ _).symm.trans hfds
  split at hfds
  · cases hfds
    exact .single (.of_shared rfl rfl)
  · nomatch hfds

theorem setDescription_changes (entry : FdEntry) {description : FdDescription}
    (hmode : description.flags.accessMode = (files.shared.description entry.description).flags.accessMode) :
    Change host files { files with shared := files.shared.setDescription entry.description description } := by
  refine .idle rfl rfl rfl ⟨Nat.le_refl _, Nat.le_refl _, fun id _ => ?_⟩
  simp only [Shared.setDescription]
  split
  · rename_i hid
    rw [hid, hmode]
  · rfl

theorem withStatusFlags_accessMode (flags : OpenFlags) (status : UInt32) :
    (flags.withStatusFlags status).accessMode = flags.accessMode := by
  have hkeep : ~~~setflMutableFlags &&& oAccmode = oAccmode := by decide
  show ((flags.raw &&& ~~~setflMutableFlags) ||| (status &&& setflMutableFlags)) &&& oAccmode = flags.raw &&& oAccmode
  rw [or_and_mask (by decide), UInt32.and_assoc, hkeep]

theorem setStatusFlags_changes (fd : Fd) (flags : UInt32) : Changes host files (setStatusFlags fd flags files).2 := by
  unfold setStatusFlags
  refine wp_state ?_
  rw [wp_bind, wp_iff, get_run]
  refine ⟨?_, ?_⟩
  · rintro entry files' heq
    obtain ⟨_, rfl⟩ := Prod.mk.inj heq
    rw [wp_bind, wp_get, setDescription, wp_modify]
    exact .single (setDescription_changes entry (withStatusFlags_accessMode _ flags))
  · rintro _ _ heq
    obtain ⟨_, rfl⟩ := Prod.mk.inj heq
    exact .refl

theorem setPipeCapacity_changes (fd : Fd) (capacity : Nat) : Changes host files (setPipeCapacity fd capacity files).2 := by
  unfold setPipeCapacity
  refine wp_state ?_
  rw [wp_bind, wp_iff, get_run]
  refine ⟨?_, ?_⟩
  · rintro entry files' heq
    obtain ⟨_, rfl⟩ := Prod.mk.inj heq
    rw [wp_bind]
    apply wp_check
    · intro _ _
      exact .refl
    intro ref _
    rw [wp_bind, wp_get, wp_bind]
    apply wp_check
    · intro _ _
      exact .refl
    intro state hstate
    rw [wp_bind, share, wp_modify, wp_pure]
    unfold PipeState.setCapacity at hstate
    simp only at hstate
    split at hstate
    · cases hstate
    · rename_i hroom
      cases hstate
      exact .single (.resize rfl (Nat.le_of_not_lt hroom) rfl)
  · rintro _ _ heq
    obtain ⟨_, rfl⟩ := Prod.mk.inj heq
    exact .refl

theorem eventfdRead_changes (entry : FdEntry) (len : Nat) : Changes host files (eventfdRead entry len files).2 := by
  unfold eventfdRead
  refine wp_state ?_
  rw [wp_bind]
  apply wp_check
  · intro _ _
    exact .refl
  intro ref _
  rw [wp_bind, wp_get, wp_bind]
  apply wp_check
  · intro _ _
    exact .refl
  intro read _
  rw [wp_bind, share, wp_modify, wp_pure]
  exact .single (.idle rfl rfl rfl ⟨Nat.le_refl _, Nat.le_refl _, fun _ _ => rfl⟩)

theorem eventfdWrite_changes (entry : FdEntry) (bytes : List UInt8) :
    Changes host files (eventfdWrite entry bytes files).2 := by
  unfold eventfdWrite
  refine wp_state ?_
  rw [wp_bind]
  apply wp_check
  · intro _ _
    exact .refl
  intro ref _
  rw [wp_bind, wp_get, wp_bind]
  apply wp_check
  · intro _ _
    exact .refl
  intro written _
  rw [wp_bind, share, wp_modify, wp_pure]
  exact .single (.idle rfl rfl rfl ⟨Nat.le_refl _, Nat.le_refl _, fun _ _ => rfl⟩)

theorem stdioWrite_changes (kind : StdioKind) (bytes : List UInt8) :
    Changes host files (stdioWrite kind bytes files).2 := by
  cases kind with
  | stdin => exact .refl
  | stdout => exact .single (.idle rfl rfl rfl ⟨Nat.le_refl _, Nat.le_refl _, fun _ _ => rfl⟩)
  | stderr => exact .single (.idle rfl rfl rfl ⟨Nat.le_refl _, Nat.le_refl _, fun _ _ => rfl⟩)

/-! ### Transfers -/

/-- Bytes go through a pipe: `given` at one end and `taken` at the other. -/
structure Transfer (files files' : Files) (ref : PipeRef) (taken given : List UInt8) : Prop where
  fds : files'.fds = files.fds
  shared : ∃ inner, files'.shared = files.shared.setPipe ref inner ∧
    inner.state.ends = (files.shared.pipe ref).state.ends ∧ inner.Sound ∧
    (files.shared.pipe ref).content ++ given = taken ++ inner.content

theorem Transfer.grows {ref : PipeRef} {taken given : List UInt8} (h : Transfer files files' ref taken given) :
    files.shared.Grows files'.shared := by
  obtain ⟨inner, hshared, _⟩ := h.shared
  exact hshared ▸ .setPipe _ _ _

theorem Transfer.sound {ref : PipeRef} {taken given : List UInt8} (h : Transfer files files' ref taken given)
    (hsound : Sound others files) (hmade : ref < files.shared.nextPipe) : Sound others files' := by
  obtain ⟨inner, hshared, hends, hinner, _⟩ := h.shared
  exact hsound.setPipe (by rw [h.fds]) hshared hends hinner fun hfresh => absurd hmade (Nat.not_lt.mpr hfresh)

theorem Transfer.content {ref : PipeRef} {taken given : List UInt8} (h : Transfer files files' ref taken given) :
    (files.shared.pipe ref).content ++ given = taken ++ (files'.shared.pipe ref).content ∧
      ∀ r, r ≠ ref → (files'.shared.pipe r).content = (files.shared.pipe r).content := by
  obtain ⟨inner, hshared, _, _, hbytes⟩ := h.shared
  refine ⟨?_, fun r hr => ?_⟩
  · rw [hshared]
    simpa [Shared.setPipe] using hbytes
  · rw [hshared]
    simp [Shared.setPipe, hr]

theorem Transfer.refl {ref : PipeRef} (hsound : (files.shared.pipe ref).Sound) : Transfer files files ref [] [] :=
  ⟨rfl, files.shared.pipe ref, (Shared.setPipe_self _ _).symm, rfl, hsound, List.append_nil _⟩

theorem hostTransfer_le {count moved : Nat} (h : hostTransfer host count = .ok moved) : moved ≤ count := by
  unfold hostTransfer at h
  split at h
  · cases h
    exact Nat.min_le_right _ _
  · nomatch h

theorem hostTransfer_error (hhost : host.PipesWait) {count : Nat} {error : VfsError}
    (h : hostTransfer host count = .error error) : error ≠ .wouldBlock ∧ error ≠ .brokenPipe := by
  unfold hostTransfer at h
  split at h
  · nomatch h
  · rename_i kind hkind
    cases h
    obtain ⟨hblock, hinterrupt, hbroken⟩ := hhost _ kind hkind
    cases kind <;> simp_all [vfsErrorFromHost]

theorem pipeRead_spec (host : Host) (files : Files) (hsound : ∀ ref, (files.shared.pipe ref).Sound)
    {entry : FdEntry} {ref : PipeRef}
    (href : pipeRefOf entry.file = .ok ref) (len : Nat) :
    wp (pipeRead host entry len)
      (fun bytes files' => Transfer files files' ref bytes [] ∧
        ((files.shared.pipe ref).state.available = 0 → bytes = []) ∧ ¬ (files.shared.pipe ref).state.ReadBlocks len)
      (fun error files' => files' = files ∧
        (host.PipesWait → (error = .wouldBlock ↔ (files.shared.pipe ref).state.ReadBlocks len)) ∧
        ((files.shared.pipe ref).state.available = 0 → (files.shared.pipe ref).state.ReadBlocks len)) files := by
  unfold pipeRead
  rw [href, wp_bind, show (Prog.ofExcept (.ok ref) : Call PipeRef) = pure ref from rfl, wp_pure, wp_bind, wp_get, wp_bind]
  apply wp_check
  · intro error herror
    have hblocks := holds_of_failIf_error herror
    obtain rfl := failIf_eq_error herror
    exact ⟨rfl, fun _ => ⟨fun _ => hblocks, fun _ => rfl⟩, fun _ => hblocks⟩
  intro _ hready
  rw [failIf_eq_ok] at hready
  obtain ⟨hbounded, hcontent⟩ := hsound ref
  cases hpair : (files.shared.pipe ref).hostPair with
  | some bytes =>
      have hbytes : (files.shared.pipe ref).content = bytes := by simp [PipeInner.content, hpair]
      simp only
      split
      · rw [wp_pure]
        exact ⟨.refl (hsound ref), fun _ => rfl, hready⟩
      · rename_i hpos
        have hsome : (files.shared.pipe ref).state.available ≠ 0 := by
          intro hempty
          exact hpos (by rw [hempty]; exact Nat.zero_min _)
        rw [wp_bind]
        apply wp_check
        · intro error herror
          refine ⟨rfl, fun hhost => ?_, fun hempty => absurd hempty hsome⟩
          exact iff_of_false (hostTransfer_error hhost herror).1 hready
        intro count hcount
        have hle := hostTransfer_le hcount
        rw [wp_bind, share, wp_modify, wp_pure]
        refine ⟨⟨rfl, _, rfl, rfl, ⟨?_, ?_⟩, ?_⟩, fun hempty => absurd hempty hsome, hready⟩
        · simp only [PipeState.discardReadable, List.length_drop]
          omega
        · simp only [PipeInner.content, PipeState.discardReadable, Option.getD_some, List.length_drop]
          rw [hbytes] at hcontent
          omega
        · rw [hbytes]
          simp [PipeInner.content]
  | none =>
      have hbytes : (files.shared.pipe ref).content = (files.shared.pipe ref).state.buffer := by
        simp [PipeInner.content, hpair]
      simp only
      rw [wp_bind, share, wp_modify, wp_pure]
      refine ⟨⟨rfl, _, rfl, rfl, ⟨?_, rfl⟩, ?_⟩, fun hempty => ?_, hready⟩
      · simp only [PipeState.discardReadable, List.length_drop]
        omega
      · rw [hbytes]
        simp [PipeInner.content, PipeState.discardReadable]
      · rw [hempty, Nat.zero_min, List.take_zero]

theorem pipeWrite_spec (host : Host) (files : Files) (hsound : ∀ ref, (files.shared.pipe ref).Sound)
    {entry : FdEntry} {ref : PipeRef}
    (href : pipeRefOf entry.file = .ok ref) (bytes : List UInt8) :
    wp (pipeWrite host entry bytes)
      (fun count files' => Transfer files files' ref [] (bytes.take count) ∧
        (files.shared.pipe ref).state.readers ≠ 0 ∧ ¬ (files.shared.pipe ref).state.WriteBlocks bytes)
      (fun error files' => files' = files ∧ (host.PipesWait →
        (error = .wouldBlock ↔ (files.shared.pipe ref).state.WriteBlocks bytes) ∧
        (error = .brokenPipe ↔ (files.shared.pipe ref).state.readers = 0))) files := by
  unfold pipeWrite
  rw [href, wp_bind, show (Prog.ofExcept (.ok ref) : Call PipeRef) = pure ref from rfl, wp_pure, wp_bind, wp_get, wp_bind]
  apply wp_check
  · intro error herror
    have hnone := holds_of_failIf_error herror
    obtain rfl := failIf_eq_error herror
    exact ⟨rfl, fun _ => ⟨iff_of_false (fun h => nomatch h) fun h => h.1 hnone, iff_of_true rfl hnone⟩⟩
  intro _ hreaders
  rw [failIf_eq_ok] at hreaders
  rw [wp_bind]
  apply wp_check
  · intro error herror
    have hfull := holds_of_failIf_error herror
    obtain rfl := failIf_eq_error herror
    exact ⟨rfl, fun _ => ⟨iff_of_true rfl ⟨hreaders, hfull⟩, iff_of_false (fun h => nomatch h) hreaders⟩⟩
  intro _ hready
  rw [failIf_eq_ok] at hready
  have hready' : ¬ (files.shared.pipe ref).state.WriteBlocks bytes := fun h => hready h.2
  obtain ⟨hbounded, hcontent⟩ := hsound ref
  cases hpair : (files.shared.pipe ref).hostPair with
  | some underway =>
      have hbytes : (files.shared.pipe ref).content = underway := by simp [PipeInner.content, hpair]
      simp only
      split
      · rw [wp_pure, List.take_zero]
        exact ⟨.refl (hsound ref), hreaders, hready'⟩
      · rw [wp_bind]
        apply wp_check
        · intro error herror
          refine ⟨rfl, fun hhost => ?_⟩
          obtain ⟨hblock, hbroken⟩ := hostTransfer_error hhost herror
          exact ⟨iff_of_false hblock hready', iff_of_false hbroken hreaders⟩
        intro moved hmoved
        have hle := hostTransfer_le hmoved
        -- what was moved fits, so recording it cannot fail
        have hrecord : (files.shared.pipe ref).state.recordWritten moved = .ok (moved,
            { (files.shared.pipe ref).state with
              buffer := (files.shared.pipe ref).state.buffer ++ List.replicate moved 0 }) := by
          unfold PipeState.recordWritten
          rw [failIf, if_neg]
          · rfl
          · unfold PipeState.available at hle
            omega
        have hlen : (bytes.take moved).length = moved := by
          rw [List.length_take]
          omega
        rw [hrecord, wp_bind, show (Prog.ofExcept (.ok _) : Call (Nat × PipeState)) = pure _ from rfl, wp_pure, wp_bind,
          share, wp_modify, wp_pure]
        refine ⟨⟨rfl, _, rfl, rfl, ⟨?_, ?_⟩, ?_⟩, hreaders, hready'⟩
        · simp only [List.length_append, List.length_replicate]
          unfold PipeState.available at hle
          omega
        · rw [hbytes] at hcontent
          simp only [PipeInner.content, Option.getD_some, List.length_append, hlen, hcontent, List.length_replicate]
        · rw [hbytes]
          simp [PipeInner.content]
  | none =>
      have hbytes : (files.shared.pipe ref).content = (files.shared.pipe ref).state.buffer := by
        simp [PipeInner.content, hpair]
      have hroom : ¬ ((files.shared.pipe ref).state.capacity - (files.shared.pipe ref).state.buffer.length = 0 ∧
          bytes ≠ []) := by
        rintro ⟨hzero, hsome⟩
        refine hready ⟨?_, hsome⟩
        unfold PipeState.available
        omega
      simp only [PipeState.write, failIf, if_neg hroom]
      rw [wp_bind, show ∀ x, (Prog.ofExcept (do Except.ok (); pure x) : Call (Nat × PipeState)) = pure x from fun _ => rfl,
        wp_pure, wp_bind, share, wp_modify, wp_pure]
      refine ⟨⟨rfl, _, rfl, rfl, ⟨?_, rfl⟩, ?_⟩, hreaders, hready'⟩
      · simp only [List.length_append, List.length_take]
        omega
      · rw [hbytes]
        simp [PipeInner.content]

end Files

end Mcr.Vfs
