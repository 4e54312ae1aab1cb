import Mcr.Memory.Flat
import Mcr.Runtime.Mmap
import Mcr.Vfs.FileReads

/-!
# What a mapped file shows

The bytes `mmap` puts into a mapping are those of the file, except that the part of a loaded segment that
goes on in memory after its end in the file is zero, and that native execution has its traps there. They do
not depend on what was mapped before: an entry of the mapping cache or of the symbol cache that is still
under the generation of its file was made from the bytes the file has now.
-/

namespace Mcr.Runtime

open Prog
open Vfs (Fd InodeId PathNode RegularFileCacheKey VirtualFileSystem)
open Vfs.VirtualFileSystem (Queried Readable RegularFile pread readMemoryAt)
open Memory (checkedAdd u64Limit)

/-! ### The headers of a file -/

def programHeaderEntries (data : List UInt8) (table : Elf64ProgramHeaderTableView) :
    Nat → Nat → List UInt8 → Option (List Elf64ProgramHeaderView)
  | 0, _, _ => some []
  | remaining + 1, index, buffer => do
    let entryOffset ← checkedAdd table.fileOffset (index * table.entrySize)
    let bytes := readMemoryAt data entryOffset table.entrySize
    if bytes.length < elf64ProgramHeaderMinViewSize then none
    else do
      let header ← elf64ProgramHeaderEntryView (fillBuffer buffer bytes)
      let rest ← programHeaderEntries data table remaining (index + 1) (fillBuffer buffer bytes)
      pure (header :: rest)

def programHeaders (data : List UInt8) : Option (List Elf64ProgramHeaderView) := do
  if (readMemoryAt data 0 elf64HeaderSize).length < elf64HeaderSize then none
  else do
    let table ← elf64ProgramHeaderTableView (readMemoryAt data 0 elf64HeaderSize)
    programHeaderEntries data table table.entryCount 0 (List.replicate table.entrySize 0)

/-- The file offset `x` lies where the segment goes on after its bytes in the file. -/
def Elf64ProgramHeaderView.inTail (header : Elf64ProgramHeaderView) (x : Nat) : Bool :=
  header.isLoad && decide (header.offset + header.fileSize ≤ x ∧ x < header.offset + header.memorySize ∧
    header.offset + header.memorySize < u64Limit)

/-- Some segment of the file goes on at the offset. -/
def inLoadTail (data : List UInt8) (x : Nat) : Bool :=
  match programHeaders data with
  | none => false
  | some headers => headers.any (·.inTail x)

/-- What a mapping shows for the file offset `x`. -/
def mappedByte (data : List UInt8) (x : Nat) : UInt8 := if inLoadTail data x then 0 else data.getD x 0

/-- What `mmap` writes into a mapping. -/
def mappedBytes (data : List UInt8) (offset len : Nat) : List UInt8 :=
  (List.range (readMemoryAt data offset len).length).map fun i => mappedByte data (offset + i)

theorem fillZeros_length (start stop : Nat) (bytes : List UInt8) : (fillZeros start stop bytes).length = bytes.length := by
  simp [fillZeros]

theorem fillZeros_getElem? (start stop i : Nat) (bytes : List UInt8) :
    (fillZeros start stop bytes)[i]? = bytes[i]?.map fun byte => if start ≤ i ∧ i < stop then 0 else byte := by
  simp [fillZeros, List.getElem?_mapIdx]

theorem zeroLoadTail_length (mappedOffset mappedEnd : Nat) (bytes : List UInt8) (header : Elf64ProgramHeaderView) :
    (zeroLoadTail mappedOffset mappedEnd bytes header).length = bytes.length := by
  unfold zeroLoadTail
  split
  · rfl
  split
  · simp only
    split
    · rfl
    · exact fillZeros_length _ _ bytes
  · rfl

theorem zeroLoadTail_getElem? {mappedOffset mappedEnd i : Nat} {bytes : List UInt8}
    (hend : mappedEnd = mappedOffset + bytes.length) (header : Elf64ProgramHeaderView) :
    (zeroLoadTail mappedOffset mappedEnd bytes header)[i]? =
      bytes[i]?.map fun byte => if header.inTail (mappedOffset + i) = true then 0 else byte := by
  by_cases hi : i < bytes.length
  swap
  · have hlen := zeroLoadTail_length mappedOffset mappedEnd bytes header
    rw [List.getElem?_eq_none (by omega), List.getElem?_eq_none (by omega)]
    rfl
  unfold zeroLoadTail
  split
  · rename_i hskip
    have htail : ¬ header.inTail (mappedOffset + i) = true := by
      simp only [Elf64ProgramHeaderView.inTail, Bool.and_eq_true, decide_eq_true_eq]
      rcases hskip with hload | hsize
      · simp [hload]
      · omega
    simp [htail]
  rename_i hload
  rw [not_or, Bool.not_eq_false] at hload
  unfold checkedAdd
  by_cases hbound : header.offset + header.memorySize < u64Limit
  · rw [if_pos (by omega), if_pos hbound]
    simp only
    have htail : header.inTail (mappedOffset + i) = true ↔
        max (header.offset + header.fileSize) mappedOffset - mappedOffset ≤ i ∧
          i < min (header.offset + header.memorySize) mappedEnd - mappedOffset := by
      simp only [Elf64ProgramHeaderView.inTail, hload.1, Bool.true_and, decide_eq_true_eq]
      omega
    split
    · have hout : ¬ header.inTail (mappedOffset + i) = true := by
        rw [htail]
        omega
      simp [hout]
    · rw [fillZeros_getElem?]
      simp only [htail]
  · have htail : ¬ header.inTail (mappedOffset + i) = true := by
      simp only [Elf64ProgramHeaderView.inTail, Bool.and_eq_true, decide_eq_true_eq]
      omega
    rw [if_neg hbound]
    split <;> simp_all

theorem foldl_zeroLoadTail_getElem? {mappedOffset mappedEnd i : Nat} (headers : List Elf64ProgramHeaderView) :
    ∀ {bytes : List UInt8}, mappedEnd = mappedOffset + bytes.length →
      (headers.foldl (zeroLoadTail mappedOffset mappedEnd) bytes)[i]? =
        bytes[i]?.map fun byte => if headers.any (·.inTail (mappedOffset + i)) = true then 0 else byte := by
  induction headers with
  | nil => simp
  | cons header headers ih =>
      intro bytes hend
      rw [List.foldl_cons, ih (by rw [zeroLoadTail_length]; exact hend), zeroLoadTail_getElem? hend, Option.map_map]
      congr 1
      funext byte
      simp only [Function.comp_apply, List.any_cons, Bool.or_eq_true]
      by_cases hhead : header.inTail (mappedOffset + i) = true <;> simp [hhead]

theorem zeroed_eq_mappedBytes {data : List UInt8} (hbounded : data.length < u64Limit) (offset len : Nat) :
    (match programHeaders data, checkedAdd offset (readMemoryAt data offset len).length with
      | some headers, some mappedEnd => headers.foldl (zeroLoadTail offset mappedEnd) (readMemoryAt data offset len)
      | _, _ => readMemoryAt data offset len) = mappedBytes data offset len := by
  have hlength : (readMemoryAt data offset len).length ≤ data.length - offset := by
    simp [readMemoryAt]
  apply List.ext_getElem?
  intro i
  have hshown : (mappedBytes data offset len)[i]? = (readMemoryAt data offset len)[i]?.map
      fun byte => if inLoadTail data (offset + i) = true then 0 else byte := by
    by_cases hi : i < (readMemoryAt data offset len).length
    · have hbyte : (readMemoryAt data offset len)[i]? = data[offset + i]? := by
        rw [readMemoryAt, List.getElem?_take_of_lt (by simp [readMemoryAt] at hi; omega), List.getElem?_drop]
      have hin : offset + i < data.length := by omega
      rw [hbyte, mappedBytes, List.getElem?_map, List.getElem?_range hi]
      simp [mappedByte, hin]
    · rw [List.getElem?_eq_none (by simpa [mappedBytes] using hi), List.getElem?_eq_none (by omega)]
      rfl
  rw [hshown]
  unfold inLoadTail
  cases programHeaders data with
  | none => simp
  | some headers =>
      by_cases hadd : offset + (readMemoryAt data offset len).length < u64Limit
      · simp only [checkedAdd, if_pos hadd]
        exact foldl_zeroLoadTail_getElem? headers rfl
      · -- past the end of the address space there is nothing to read
        have hempty : readMemoryAt data offset len = [] := by
          apply List.eq_nil_of_length_eq_zero
          omega
        rw [checkedAdd, if_neg hadd, hempty]
        rfl

/-! ### Reading the file -/

/-- The file behind a descriptor is there to be read, and the cache fits. -/
structure Reading (host : Vfs.Host) (vfs : VirtualFileSystem) (fd : Fd) (i : InodeId) (node : PathNode)
    (data : List UInt8) : Prop where
  wf : vfs.tree.Wf
  coherent : vfs.Coherent
  file : RegularFile vfs fd i node
  readable : Readable vfs fd
  holds : node.Holds host data

section Reads

variable {host : Vfs.Host} {vfs vfs' : VirtualFileSystem} {fd : Fd} {i : InodeId} {node : PathNode}
  {data : List UInt8}

theorem Reading.queried (h : Reading host vfs fd i node data) (hqueried : Queried vfs vfs') :
    Reading host vfs' fd i node data := by
  obtain ⟨⟨cache, rfl⟩, _, hcoherent⟩ := hqueried.same h.wf
  exact ⟨h.wf, hcoherent h.coherent, h.file.queried h.wf hqueried, h.readable.queried h.wf hqueried, h.holds⟩

theorem Reading.pread (hfaithful : host.Faithful) (h : Reading host vfs fd i node data) (offset len : Nat) :
    wp (pread host fd offset len)
      (fun bytes vfs' => bytes = readMemoryAt data offset len ∧ Queried vfs vfs') (fun _ _ => False) vfs :=
  wp_mono (VirtualFileSystem.pread_reads h.coherent hfaithful h.file h.readable h.holds offset len)
    (fun _ _ h => ⟨h.1, h.2.queried⟩) (fun _ _ h => h)

theorem readProgramHeaderEntries_reads (hfaithful : host.Faithful) (table : Elf64ProgramHeaderTableView)
    (remaining : Nat) :
    ∀ (index : Nat) (buffer : List UInt8) {vfs : VirtualFileSystem}, Reading host vfs fd i node data →
      wp (readProgramHeaderEntries host fd table remaining index buffer)
        (fun headers vfs' => headers = programHeaderEntries data table remaining index buffer ∧ Queried vfs vfs')
        (fun _ _ => False) vfs := by
  induction remaining with
  | zero =>
      intro index buffer vfs _
      rw [readProgramHeaderEntries, wp_pure]
      exact ⟨rfl, .refl⟩
  | succ remaining ih =>
      intro index buffer vfs h
      rw [readProgramHeaderEntries, programHeaderEntries]
      cases checkedAdd table.fileOffset (index * table.entrySize) with
      | none => exact (wp_pure _).mpr ⟨rfl, .refl⟩
      | some entryOffset =>
          simp only [Option.bind_eq_bind, Option.bind_some]
          rw [wp_bind, wp_attempt]
          apply wp_mono (h.pread hfaithful entryOffset table.entrySize) _ (fun _ _ h => h.elim)
          intro bytes vfs' hread
          obtain ⟨rfl, hqueried⟩ := hread
          simp only
          rw [wp_ite]
          split
          · exact (wp_pure _).mpr ⟨rfl, hqueried⟩
          cases elf64ProgramHeaderEntryView (fillBuffer buffer (readMemoryAt data entryOffset table.entrySize)) with
          | none => exact (wp_pure _).mpr ⟨rfl, hqueried⟩
          | some header =>
              simp only [Option.bind_some]
              rw [wp_bind]
              apply wp_mono (ih (index + 1) _ (h.queried hqueried)) _ (fun _ _ h => h)
              intro rest vfs'' hrest
              rw [wp_pure, hrest.1]
              constructor
              · cases programHeaderEntries data table remaining (index + 1) _ <;> rfl
              · exact hqueried.trans hrest.2

theorem readElf64ProgramHeaders_reads (hfaithful : host.Faithful) (h : Reading host vfs fd i node data) :
    wp (readElf64ProgramHeaders host fd)
      (fun headers vfs' => headers = programHeaders data ∧ Queried vfs vfs') (fun _ _ => False) vfs := by
  rw [readElf64ProgramHeaders, programHeaders, wp_bind, wp_attempt]
  apply wp_mono (h.pread hfaithful 0 elf64HeaderSize) _ (fun _ _ h => h.elim)
  intro bytes vfs' hread
  obtain ⟨rfl, hqueried⟩ := hread
  simp only
  rw [wp_ite]
  split
  · exact (wp_pure _).mpr ⟨rfl, hqueried⟩
  cases elf64ProgramHeaderTableView (readMemoryAt data 0 elf64HeaderSize) with
  | none => exact (wp_pure _).mpr ⟨rfl, hqueried⟩
  | some table =>
      apply wp_mono (readProgramHeaderEntries_reads hfaithful table table.entryCount 0 _ (h.queried hqueried)) _
        (fun _ _ h => h)
      intro headers vfs'' hheaders
      exact ⟨hheaders.1, hqueried.trans hheaders.2⟩

theorem zeroElfLoadBssTail_reads (hfaithful : host.Faithful) (h : Reading host vfs fd i node data)
    (offset len : Nat) :
    wp (zeroElfLoadBssTail host fd offset (readMemoryAt data offset len))
      (fun bytes vfs' => bytes = mappedBytes data offset len ∧ Queried vfs vfs') (fun _ _ => False) vfs := by
  unfold zeroElfLoadBssTail
  rw [wp_ite]
  split
  · rename_i hempty
    rw [wp_pure]
    refine ⟨?_, .refl⟩
    simp [mappedBytes, hempty]
  rw [wp_bind]
  apply wp_mono (readElf64ProgramHeaders_reads hfaithful h) _ (fun _ _ h => h)
  intro headers vfs' hheaders
  obtain ⟨rfl, hqueried⟩ := hheaders
  rw [← zeroed_eq_mappedBytes h.holds.bounded]
  cases programHeaders data with
  | none => exact (wp_pure _).mpr ⟨rfl, hqueried⟩
  | some headers =>
      cases checkedAdd offset (readMemoryAt data offset len).length with
      | none => exact (wp_pure _).mpr ⟨rfl, hqueried⟩
      | some mappedEnd => exact (wp_pure _).mpr ⟨rfl, hqueried⟩

/-! ### Reading any descriptor -/

variable (host fd) in
/-- Whatever the descriptor stands for, a read leaves only entries of the cache behind. -/
theorem pread_queried (offset len : Nat) : Along Queried (pread host fd offset len) := by
  intro vfs
  exact wp_state (wp_mono (VirtualFileSystem.pread_spec host fd offset len) (fun _ _ h => h.queried)
    (fun _ _ h => h.queried))

variable (host fd) in
theorem readProgramHeaderEntries_queried (table : Elf64ProgramHeaderTableView) (remaining : Nat) :
    ∀ (index : Nat) (buffer : List UInt8),
      Along Queried (readProgramHeaderEntries host fd table remaining index buffer) := by
  induction remaining with
  | zero => exact fun _ _ => .pure _
  | succ remaining ih =>
      intro index buffer
      rw [readProgramHeaderEntries]
      cases checkedAdd table.fileOffset (index * table.entrySize) with
      | none => exact .pure _
      | some entryOffset =>
          refine .bind (.attempt (pread_queried host fd entryOffset table.entrySize)) ?_
          intro read
          cases read with
          | error _ => exact .pure _
          | ok bytes =>
              simp only
              refine .ite (.pure _) ?_
              cases elf64ProgramHeaderEntryView (fillBuffer buffer bytes) with
              | none => exact .pure _
              | some header => exact .bind (ih (index + 1) _) fun _ => .pure _

variable (host fd) in
theorem zeroElfLoadBssTail_queried (offset : Nat) (bytes : List UInt8) :
    Along Queried (zeroElfLoadBssTail host fd offset bytes) := by
  have hheaders : Along Queried (readElf64ProgramHeaders host fd) := by
    refine .bind (.attempt (pread_queried host fd 0 elf64HeaderSize)) ?_
    intro read
    cases read with
    | error _ => exact .pure _
    | ok elfHeader =>
        simp only
        refine .ite (.pure _) ?_
        cases elf64ProgramHeaderTableView elfHeader with
        | none => exact .pure _
        | some table => exact readProgramHeaderEntries_queried host fd table _ _ _
  unfold zeroElfLoadBssTail
  refine .ite (.pure _) ?_
  refine .bind hheaders ?_
  intro headers
  cases headers with
  | none => exact .pure _
  | some headers =>
      cases checkedAdd offset bytes.length with
      | none => exact .pure _
      | some mappedEnd => exact .pure _

end Reads

/-! ### Entries under a generation -/

/-- What was made of a file holds of its bytes as long as the generation is that of the file. -/
def Fits (host : Vfs.Host) (vfs : VirtualFileSystem) (file : RegularFileCacheKey) (made : List UInt8 → Prop) : Prop :=
  file.generation ≤ vfs.cache.keyGeneration file.inode ∧
    (file.generation = vfs.cache.keyGeneration file.inode →
      ∃ node, vfs.tree.inodes.get? file.inode = some node ∧ ∀ data, node.Holds host data → made data)

section Fits

variable {host : Vfs.Host} {vfs vfs' : VirtualFileSystem} {file : RegularFileCacheKey} {made : List UInt8 → Prop}

theorem Fits.queried (h : Fits host vfs file made) (hwf : vfs.tree.Wf) (hqueried : Queried vfs vfs') :
    Fits host vfs' file made := by
  obtain ⟨⟨cache, rfl⟩, hgeneration, _⟩ := hqueried.same hwf
  unfold Fits
  rw [hgeneration]
  exact h

theorem Fits.step (h : Fits host vfs file made) (hwf : vfs.tree.Wf) {op : Vfs.Op} (hstep : vfs.CoherentStep op) :
    Fits host (vfs.step host op) file made := by
  obtain ⟨hle, hsame⟩ := (VirtualFileSystem.step_effect host hwf hstep.sane).generation hwf hstep file.inode
  constructor
  · exact h.1.trans hle
  · intro heq
    have hgeneration := h.1
    obtain ⟨node, hnode, hmade⟩ := h.2 (by omega)
    obtain ⟨node', hnode', huntouched⟩ := hsame (by omega) node hnode
    exact ⟨node', hnode', fun data hholds => hmade data (huntouched.holds.mp hholds)⟩

theorem regularFileCacheKey_names {fd : Fd} (h : vfs.regularFileCacheKey fd = .ok (some file)) :
    file.generation = vfs.cache.keyGeneration file.inode ∧ Readable vfs fd ∧
      ∃ node, RegularFile vfs fd file.inode node := by
  obtain ⟨found, hfound, h⟩ := except_bind_eq_ok.mp h
  have hreadable := VirtualFileSystem.readable_of_regularFileOf hfound
  cases found with
  | none => nomatch h
  | some found =>
      obtain ⟨i, node⟩ := found
      cases h
      refine ⟨rfl, hreadable, node, ?_⟩
      obtain ⟨entry, hentry, hfound⟩ := except_bind_eq_ok.mp hfound
      obtain ⟨_, _, hfound⟩ := except_bind_eq_ok.mp hfound
      split at hfound
      · nomatch hfound
      rename_i hkind
      cases hnode : vfs.tree.lookupInode entry.inodeId with
      | none =>
          rw [hnode] at hfound
          nomatch hfound
      | some node' =>
          rw [hnode] at hfound
          simp only at hfound
          split at hfound
          · nomatch hfound
          rename_i hfile
          cases hfound
          exact ⟨⟨entry, Vfs.okOr_eq_ok.mp hentry, rfl, not_not.mp hkind⟩, hnode, not_not.mp hfile⟩

theorem Fits.of_key {fd : Fd} (h : vfs.regularFileCacheKey fd = .ok (some file))
    (hmade : ∀ node data, RegularFile vfs fd file.inode node → node.Holds host data → made data) :
    Fits host vfs file made := by
  obtain ⟨hgeneration, _, node, hfile⟩ := regularFileCacheKey_names h
  exact ⟨hgeneration.le, fun _ => ⟨node, hfile.there, fun data hholds => hmade node data hfile hholds⟩⟩

theorem Fits.apply {fd : Fd} {node : PathNode} {data : List UInt8} (h : Fits host vfs file made)
    (hkey : vfs.regularFileCacheKey fd = .ok (some file)) (hfile : RegularFile vfs fd file.inode node)
    (hholds : node.Holds host data) : made data := by
  obtain ⟨node', hnode', hmade⟩ := h.2 (regularFileCacheKey_names hkey).1
  obtain rfl := Option.some.inj (hfile.there.symm.trans hnode')
  exact hmade data hholds

end Fits

/-! ### The caches of the runtime -/

variable {σ ω : Type}

/-- Every entry of the two caches that is under the generation of its file was made of the bytes it has. -/
structure CachesFit (host : Vfs.Host) (s : RuntimeSubsystems σ ω) : Prop where
  wf : s.files.vfs.tree.Wf
  coherent : s.files.vfs.Coherent
  mappings : ∀ key bytes, s.native.fileBackedMappingCache.get? key = some bytes →
    Fits host s.files.vfs key.file fun data => bytes = mappedBytes data key.offset key.length
  symbols : ∀ key symbols, s.native.libcIntrinsicSymbolCache.get? key = some symbols →
    Fits host s.files.vfs ⟨(ofLex key).1, (ofLex key).2⟩ fun data => symbols = parseFileBackedLibcIntrinsicSymbols data

/-- The file system has only answered queries, and the caches fit as before. -/
def Carries (host : Vfs.Host) (s s' : RuntimeSubsystems σ ω) : Prop :=
  CachesFit host s → Queried s.files.vfs s'.files.vfs ∧ CachesFit host s'

instance (host : Vfs.Host) : @Std.Refl (RuntimeSubsystems σ ω) (Carries host) := ⟨fun _ h => ⟨.refl, h⟩⟩

instance (host : Vfs.Host) : IsTrans (RuntimeSubsystems σ ω) (Carries host) where
  trans _ _ _ h h' hfit := ⟨(h hfit).1.trans (h' (h hfit).2).1, (h' (h hfit).2).2⟩

section Caches

variable {host : Vfs.Host} {s s' : RuntimeSubsystems σ ω} {α : Type}

theorem wp_onFileVfs {call : VirtualFileSystem.Call α} {Q : α → RuntimeSubsystems σ ω → Prop}
    {E : Failure → RuntimeSubsystems σ ω → Prop} :
    wp (onFileVfs call) Q E s ↔ wp call (fun a vfs => Q a (s.setVfs vfs))
      (fun error vfs => E (.errno (vfsErrno error)) (s.setVfs vfs)) s.files.vfs := by
  rw [onFileVfs, wp_mapError, wp_zoom]

theorem wp_onMachine {call : Memory.Context → Memory.MemM α} {Q : α → RuntimeSubsystems σ ω → Prop}
    {E : Failure → RuntimeSubsystems σ ω → Prop} :
    wp (onMachine call) Q E s ↔ wp (call s.files.memory.ctx) (fun a machine => Q a (s.setMachine machine))
      (fun error machine => E (memoryFailure error) (s.setMachine machine)) s.files.memory.machine := by
  rw [onMachine, wp_bind, wp_get, wp_mapError, wp_zoom]

theorem CachesFit.setVfs {vfs : VirtualFileSystem} (h : CachesFit host s) (hqueried : Queried s.files.vfs vfs) :
    CachesFit host (s.setVfs vfs) := by
  obtain ⟨⟨cache, hcache⟩, _, hcoherent⟩ := hqueried.same h.wf
  have htree : vfs.tree = s.files.vfs.tree := by rw [hcache]; rfl
  exact ⟨by rw [RuntimeSubsystems.setVfs, htree]; exact h.wf, hcoherent h.coherent,
    fun key bytes hget => (h.mappings key bytes hget).queried h.wf hqueried,
    fun key symbols hget => (h.symbols key symbols hget).queried h.wf hqueried⟩

theorem onFileVfs_carries {call : VirtualFileSystem.Call α} (h : Along Queried call) :
    Along (Carries host) (onFileVfs call : SubsystemProg σ ω α) := by
  intro s hfit
  have hqueried := h s.files.vfs
  have hstate : (onFileVfs call s).2 = s.setVfs (call s.files.vfs).2 := by
    unfold onFileVfs Prog.mapError Prog.zoom
    rcases call s.files.vfs with ⟨r, vfs⟩
    cases r <;> rfl
  rw [hstate]
  exact ⟨hqueried, hfit.setVfs hqueried⟩

theorem onMachine_carries (call : Memory.Context → Memory.MemM α) :
    Along (Carries host) (onMachine call : SubsystemProg σ ω α) := by
  apply Along.of_wp
  intro s
  rw [wp_onMachine]
  apply wp_of_state
  exact fun hfit => ⟨.refl, hfit.wf, hfit.coherent, hfit.mappings, hfit.symbols⟩

/-! ### The bytes of a mapping -/

theorem readFileBackedMmapBytes_carries (fd : Fd) (offset len : Nat) :
    Along (Carries host) (readFileBackedMmapBytes host fd offset len : SubsystemProg σ ω (List UInt8)) := by
  have hmap : Along Queried (VirtualFileSystem.mapReadonlyRegularFileAt host fd offset len) :=
    .of_wp fun vfs => wp_mono (VirtualFileSystem.mapReadonlyRegularFileAt_spec host fd offset len)
      (fun _ _ h => h.queried) (fun _ _ h => h.queried)
  refine .bind (onFileVfs_carries hmap) fun mapping => ?_
  cases mapping with
  | some bytes => exact onFileVfs_carries (zeroElfLoadBssTail_queried host fd offset bytes)
  | none =>
      exact .bind (onFileVfs_carries (pread_queried host fd offset len)) fun bytes =>
        onFileVfs_carries (zeroElfLoadBssTail_queried host fd offset bytes)

variable {fd : Fd} {i : InodeId} {node : PathNode} {data : List UInt8}

theorem readFileBackedMmapBytes_reads (hfaithful : host.Faithful) (h : Reading host s.files.vfs fd i node data)
    (offset len : Nat) :
    wp (readFileBackedMmapBytes host fd offset len)
      (fun bytes s' => bytes = mappedBytes data offset len ∧ s'.files.memory = s.files.memory ∧ s'.native = s.native)
      (fun _ _ => True) s := by
  unfold readFileBackedMmapBytes
  rw [wp_bind, wp_onFileVfs]
  apply wp_mono (VirtualFileSystem.mapReadonlyRegularFileAt_maps hfaithful h.file h.readable h.holds offset len) _
    (fun _ _ _ => trivial)
  intro mapping vfs hmapping
  have hread := h.queried hmapping.1.queried
  have htail : ∀ (s' : RuntimeSubsystems σ ω), Reading host s'.files.vfs fd i node data →
      s'.files.memory = s.files.memory → s'.native = s.native →
      wp (onFileVfs (zeroElfLoadBssTail host fd offset (readMemoryAt data offset len)))
        (fun bytes s' => bytes = mappedBytes data offset len ∧ s'.files.memory = s.files.memory ∧
          s'.native = s.native) (fun _ _ => True) s' := by
    intro s' hread hmemory hnative
    rw [wp_onFileVfs]
    exact wp_mono (zeroElfLoadBssTail_reads hfaithful hread offset len)
      (fun _ _ hbytes => ⟨hbytes.1, hmemory, hnative⟩) (fun _ _ _ => trivial)
  cases mapping with
  | some bytes =>
      rw [hmapping.2 bytes rfl]
      exact htail (s.setVfs vfs) hread rfl rfl
  | none =>
      simp only
      rw [wp_bind, wp_onFileVfs]
      apply wp_mono (hread.pread hfaithful offset len) _ (fun _ _ _ => trivial)
      intro bytes vfs' hbytes
      rw [hbytes.1]
      exact htail ((s.setVfs vfs).setVfs vfs') (hread.queried hbytes.2) rfl rfl

/-! ### The mapping cache -/

theorem FileBackedMappingCache.put_get? {cache : FileBackedMappingCache} {key cached : FileBackedMappingCacheKey}
    {bytes found : List UInt8} (h : (cache.put key bytes).get? cached = some found) :
    cached = key ∧ found = bytes ∨ cache.get? cached = some found := by
  rw [FileBackedMappingCache.put, SortedMap.get?_insert] at h
  split at h
  · exact .inl ⟨‹_›, (Option.some.inj h).symm⟩
  · exact .inr (SortedMap.get?_filter_eq_some.mp h).1

theorem fileBackedMmapCacheKey_ok {offset len : Nat} {prot flags : UInt32} :
    wp (fileBackedMmapCacheKey fd offset len prot flags)
      (fun key s' => s' = s ∧ ∀ found, key = some found → ∃ file, s.files.vfs.regularFileCacheKey fd = .ok (some file) ∧
        found = .new file offset len) (fun _ s' => s' = s) s := by
  unfold fileBackedMmapCacheKey
  rw [wp_ite]
  split
  · exact (wp_pure _).mpr ⟨rfl, fun _ h => (nomatch h)⟩
  rw [wp_bind, wp_get, wp_bind, wp_onFileVfs]
  apply wp_check
  · intro _ _
    rfl
  intro file hfile
  rw [wp_pure]
  refine ⟨rfl, fun found hfound => ?_⟩
  obtain ⟨file', rfl, rfl⟩ := Option.map_eq_some_iff.mp hfound
  exact ⟨file', hfile, rfl⟩

theorem CachesFit.putMapping {file : RegularFileCacheKey} {offset len : Nat} {bytes : List UInt8}
    (hfaithful : host.Faithful) (hfit : CachesFit host s)
    (hkey : s.files.vfs.regularFileCacheKey fd = .ok (some file))
    (hrun : readFileBackedMmapBytes host fd offset len s = (.ok bytes, s')) :
    CachesFit host { s' with native := { s'.native with
      fileBackedMappingCache := s'.native.fileBackedMappingCache.put (.new file offset len) bytes } } := by
  have hcarried := readFileBackedMmapBytes_carries fd offset len s hfit
  rw [hrun] at hcarried
  obtain ⟨hqueried, hfit'⟩ := hcarried
  refine ⟨hfit'.wf, hfit'.coherent, fun key found hfound => ?_, hfit'.symbols⟩
  rcases FileBackedMappingCache.put_get? hfound with ⟨rfl, rfl⟩ | hfound
  · have hmade : Fits host s.files.vfs file fun data => found = mappedBytes data offset len := by
      apply Fits.of_key hkey
      intro node data hfile hholds
      have hread : Reading host s.files.vfs fd file.inode node data :=
        ⟨hfit.wf, hfit.coherent, hfile, (regularFileCacheKey_names hkey).2.1, hholds⟩
      exact (wp_ok (readFileBackedMmapBytes_reads hfaithful hread offset len) hrun).1
    exact hmade.queried hfit.wf hqueried
  · exact hfit'.mappings key found hfound

theorem fileBackedMmapBytes_carries (hfaithful : host.Faithful) (fd : Fd) (offset len : Nat) (prot flags : UInt32) :
    Along (Carries host) (fileBackedMmapBytes host fd offset len prot flags : SubsystemProg σ ω (List UInt8)) := by
  apply Along.of_wp
  intro s
  unfold fileBackedMmapBytes
  rw [wp_bind]
  apply wp_mono fileBackedMmapCacheKey_ok
  swap
  · rintro _ _ rfl hfit
    exact ⟨.refl, hfit⟩
  intro key s' hkey
  obtain ⟨rfl, hkey⟩ := hkey
  cases key with
  | none => exact (readFileBackedMmapBytes_carries fd offset len).wp s'
  | some key =>
      obtain ⟨file, hfile, rfl⟩ := hkey key rfl
      simp only
      rw [wp_bind, wp_get]
      cases s'.native.fileBackedMappingCache.get? (.new file offset len) with
      | some bytes => exact (wp_pure _).mpr fun hfit => ⟨.refl, hfit⟩
      | none =>
          simp only
          rw [wp_bind, wp_iff]
          have hread : Along (Carries host)
              (readFileBackedMmapBytes host fd offset len : SubsystemProg σ ω (List UInt8)) :=
            readFileBackedMmapBytes_carries fd offset len
          have hcarried := wp_iff.mp (hread.wp s')
          constructor
          · intro bytes s'' hrun
            rw [wp_bind, modifyNative, wp_modify, wp_pure]
            intro hfit
            exact ⟨(hcarried.1 bytes s'' hrun hfit).1, hfit.putMapping hfaithful hfile hrun⟩
          · exact hcarried.2

theorem fileBackedMmapBytes_shows (hfaithful : host.Faithful) (hfit : CachesFit host s)
    (hfile : RegularFile s.files.vfs fd i node) (hholds : node.Holds host data) {offset len : Nat} (hlen : len ≠ 0)
    (prot flags : UInt32) :
    wp (fileBackedMmapBytes host fd offset len prot flags)
      (fun bytes s' => bytes = mappedBytes data offset len ∧ s'.files.memory = s.files.memory ∧
        s'.native.enabled = s.native.enabled ∧ Readable s.files.vfs fd) (fun _ _ => True) s := by
  unfold fileBackedMmapBytes
  rw [wp_bind]
  apply wp_mono fileBackedMmapCacheKey_ok _ (fun _ _ _ => trivial)
  intro key s' hkey
  obtain ⟨rfl, hkey⟩ := hkey
  cases key with
  | none =>
      by_cases hreadable : Readable s'.files.vfs fd
      · exact wp_mono (readFileBackedMmapBytes_reads hfaithful ⟨hfit.wf, hfit.coherent, hfile, hreadable, hholds⟩ offset len)
          (fun _ _ h => ⟨h.1, h.2.1, by rw [h.2.2], hreadable⟩) (fun _ _ _ => trivial)
      · -- a descriptor that may not be read fails at once
        simp only [readFileBackedMmapBytes, VirtualFileSystem.mapReadonlyRegularFileAt, if_neg hlen]
        rw [wp_bind, wp_onFileVfs, wp_bind, wp_get, wp_bind]
        apply wp_check
        · intro _ _
          trivial
        · intro found hfound
          exact absurd (VirtualFileSystem.readable_of_regularFileOf hfound) hreadable
  | some key =>
      obtain ⟨file, hkeyed, rfl⟩ := hkey key rfl
      obtain ⟨_, hreadable, node', hfile'⟩ := regularFileCacheKey_names hkeyed
      obtain rfl : i = file.inode := hfile.inode_eq hfile'
      simp only
      rw [wp_bind, wp_get]
      cases hcached : s'.native.fileBackedMappingCache.get? (.new file offset len) with
      | some bytes =>
          exact (wp_pure _).mpr ⟨(hfit.mappings _ bytes hcached).apply hkeyed hfile hholds, rfl, rfl, hreadable⟩
      | none =>
          simp only
          rw [wp_bind]
          apply wp_mono (readFileBackedMmapBytes_reads hfaithful ⟨hfit.wf, hfit.coherent, hfile, hreadable, hholds⟩
            offset len) _ (fun _ _ _ => trivial)
          intro bytes s'' h
          rw [wp_bind, modifyNative, wp_modify, wp_pure]
          exact ⟨h.1, h.2.1, by rw [← h.2.2], hreadable⟩

end Caches

end Mcr.Runtime
