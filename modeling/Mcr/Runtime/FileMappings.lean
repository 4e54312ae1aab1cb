import Mcr.Runtime.MappedFiles

/-!
# File mappings in memory

`mmap` makes zero pages, opens them for writing, copies the bytes of the file in, gives the pages their
protection and puts the traps of native execution over them. In the flat view of the memory these are four
updates one after the other, so what a mapped page shows is read off the bytes that were copied.
-/

namespace Mcr.Runtime

open Prog
open Vfs (Fd InodeId PathNode RegularFileCacheKey VirtualFileSystem)
open Vfs.VirtualFileSystem (Queried Readable RegularFile readMemoryAt)
open Memory (Flat GuestMemoryProtection MmapSyscallArgs Unpatched checkedAdd checkedPageRange linuxProtExec
  linuxProtRead linuxProtWrite u64Limit)

variable {σ ω : Type}

structure Sound (memory : ProcessMemory) : Prop where
  wf : Memory.Wf memory.ctx memory.machine
  disjoint : memory.machine.mem.Disjoint

section Pages

variable {host : Vfs.Host} {s s' : RuntimeSubsystems σ ω}

theorem mprotect_flat (hsound : Sound s.files.memory) {mapped length : Nat} (hlength : length ≠ 0) (prot : UInt32) :
    wp (onMachine (Memory.mprotect · mapped length prot))
      (fun _ s' => ∃ machine protection stop, s' = s.setMachine machine ∧ Sound s'.files.memory ∧
        GuestMemoryProtection.fromLinux prot = .ok protection ∧ checkedPageRange mapped length = .ok stop ∧
        machine.cell = Flat.protect s.files.memory.machine.cell mapped stop protection)
      (fun _ s' => ∃ machine, s' = s.setMachine machine) s := by
  rw [wp_onMachine]
  apply wp_mono (Memory.mprotect_spec hsound.wf mapped length prot)
  · intro _ machine h
    obtain ⟨protection, hprot, ⟨hzero, _⟩ | ⟨_, stop, hstop, _, hprotected⟩⟩ := h
    · exact absurd hzero hlength
    · exact ⟨machine, protection, stop, rfl, ⟨hprotected.kept.wf, hprotected.kept.disjoint hsound.disjoint⟩, hprot,
        hstop, hprotected.cell hsound.wf hsound.disjoint⟩
  · intro _ machine _
    exact ⟨machine, rfl⟩

theorem write_flat (hsound : Sound s.files.memory) (mapped : Nat) (bytes : List UInt8) :
    wp (onMachine (Memory.write · mapped bytes))
      (fun _ s' => ∃ machine, s' = s.setMachine machine ∧ Sound s'.files.memory ∧
        machine.cell = Flat.store s.files.memory.machine.cell mapped bytes)
      (fun _ _ => True) s := by
  rw [wp_onMachine]
  apply wp_mono (wp_and (Memory.write_refines hsound.wf hsound.disjoint mapped bytes)
    (Memory.writeGuest_kept hsound.wf mapped bytes)) _ (fun _ _ _ => trivial)
  intro _ machine h
  exact ⟨machine, rfl, ⟨h.2.wf, h.2.disjoint hsound.disjoint⟩, h.1.2⟩

/-- The copy of a file into fresh pages. -/
def filled (flat : Flat) (mapped stop : Nat) (protection : GuestMemoryProtection) (bytes : List UInt8) : Flat :=
  Flat.protect (Flat.store (Flat.protect flat mapped stop ⟨true, true, false⟩) mapped bytes) mapped stop protection

theorem fromLinux_readWrite :
    GuestMemoryProtection.fromLinux (linuxProtRead ||| linuxProtWrite) = .ok ⟨true, true, false⟩ := by
  rfl

variable {i : InodeId} {node : PathNode} {data : List UInt8} {args : MmapSyscallArgs}

theorem populateFileBackedMmap_shows (hfaithful : host.Faithful) (hfit : CachesFit host s)
    (hsound : Sound s.files.memory) (hfile : RegularFile s.files.vfs args.fd i node) (hholds : node.Holds host data)
    (hlength : args.length ≠ 0) (mapped : Nat) :
    wp (populateFileBackedMmap host mapped args)
      (fun _ s' => Sound s'.files.memory ∧ s'.native.enabled = s.native.enabled ∧
        Readable s.files.vfs args.fd ∧ ∃ protection stop, checkedPageRange mapped args.length = .ok stop ∧
          s'.files.memory.machine.cell = filled s.files.memory.machine.cell mapped stop protection
            (mappedBytes data args.offset.toNat args.length)) (fun _ _ => True) s := by
  unfold populateFileBackedMmap
  rw [wp_ite]
  split
  · exact (wp_throw _).mpr trivial
  rw [wp_bind]
  apply wp_mono (fileBackedMmapBytes_shows hfaithful hfit hfile hholds hlength args.prot args.flags) _
    (fun _ _ _ => trivial)
  intro bytes s₁ h
  obtain ⟨rfl, hmemory, henabled, hreadable⟩ := h
  rw [← hmemory] at hsound
  rw [wp_bind]
  apply wp_mono (mprotect_flat hsound hlength _) _ (fun _ _ _ => trivial)
  intro _ s₂ h
  obtain ⟨m₂, protection₂, stop, rfl, hsound₂, hprot₂, hstop, hcell₂⟩ := h
  obtain rfl := Except.ok.inj (fromLinux_readWrite.symm.trans hprot₂)
  rw [wp_bind, wp_attempt]
  -- a copy that fails ends the call after the pages have their protection again
  have hfailed : ∀ (e : Failure) (s₃ : RuntimeSubsystems σ ω),
      wp (.attempt (onMachine (Memory.mprotect · mapped args.length args.prot)) >>= fun restored => do
        .ofExcept (.error e : Except Failure Unit)
        .ofExcept restored) (fun _ s' => Sound s'.files.memory ∧ s'.native.enabled = s.native.enabled ∧
        Readable s.files.vfs args.fd ∧ ∃ protection stop, checkedPageRange mapped args.length = .ok stop ∧
          s'.files.memory.machine.cell = filled s.files.memory.machine.cell mapped stop protection
            (mappedBytes data args.offset.toNat args.length)) (fun _ _ => True) s₃ := by
    intro e s₃
    rw [wp_bind, wp_attempt, wp_iff]
    constructor
    · intro _ _ _
      rw [wp_bind, wp_ofExcept]
      trivial
    · intro _ _ _
      rw [wp_bind, wp_ofExcept]
      trivial
  apply wp_mono (write_flat hsound₂ mapped _) _ (fun e s₃ _ => hfailed e s₃)
  intro _ s₃ h
  obtain ⟨m₃, rfl, hsound₃, hcell₃⟩ := h
  rw [wp_bind, wp_attempt]
  apply wp_mono (mprotect_flat hsound₃ hlength args.prot)
  · intro _ s₄ h
    obtain ⟨m₄, protection, stop', rfl, hsound₄, _, hstop', hcell₄⟩ := h
    obtain rfl := Except.ok.inj (hstop.symm.trans hstop')
    rw [wp_bind, wp_ofExcept, wp_ofExcept]
    refine ⟨hsound₄, henabled, hreadable, protection, stop, hstop, ?_⟩
    show m₄.cell = _
    rw [hcell₄, filled, ← hmemory]
    congr 1
    exact hcell₃.trans (congrArg (Flat.store · mapped _) hcell₂)
  · intro _ _ _
    rw [wp_bind, wp_ofExcept, wp_ofExcept]
    trivial

end Pages

/-! ### Traps over libc -/

section Traps

variable {host : Vfs.Host} {s s' : RuntimeSubsystems σ ω}

/-- Where native execution puts its traps over a mapping of the file. -/
def patchSites (enabled : Bool) (data : List UInt8) (mapped : Nat) (args : MmapSyscallArgs) : List Nat :=
  if enabled = false ∨ args.prot &&& linuxProtExec = 0 ∨ maxSymbolScanBytes < data.length then []
  else match elfLoadBiasForMapping data args.offset.toNat mapped with
    | none => []
    | some loadBias => (parseFileBackedLibcIntrinsicSymbols data).filterMap fun symbol =>
        patchSite loadBias mapped args.length symbol.value

variable {fd : Fd} {i : InodeId} {node : PathNode} {data : List UInt8} {args : MmapSyscallArgs}

theorem readRegularFileForSymbolScan_carries (fd : Fd) :
    Along (Carries host) (readRegularFileForSymbolScan host fd : SubsystemProg σ ω (List UInt8)) := by
  apply Along.of_wp
  intro s
  unfold readRegularFileForSymbolScan
  by_cases hfit : CachesFit host s
  swap
  · exact wp_of_state fun h => absurd h hfit
  have hstat : wp (onFileVfs (VirtualFileSystem.fstat fd)) (fun _ => Carries host s) (fun _ => Carries host s) s := by
    rw [wp_onFileVfs]
    exact wp_mono (VirtualFileSystem.fstat_spec hfit.wf fd)
      (fun _ _ h hfit => ⟨h.queried, hfit.setVfs h.queried⟩) (fun _ _ h hfit => ⟨h.queried, hfit.setVfs h.queried⟩)
  rw [wp_bind]
  apply wp_mono hstat _ (fun _ _ h => h)
  intro attr s₁ hcarried
  rw [wp_ite]
  split
  · exact (wp_throw _).mpr hcarried
  · have hread : Along (Carries host) (onFileVfs (VirtualFileSystem.pread host fd 0 attr.size) :
        SubsystemProg σ ω (List UInt8)) := onFileVfs_carries (pread_queried host fd 0 attr.size)
    exact wp_mono (hread.wp s₁) (fun _ _ h => IsTrans.trans _ _ _ hcarried h) (fun _ _ h => IsTrans.trans _ _ _ hcarried h)

theorem readRegularFileForSymbolScan_reads (hfaithful : host.Faithful) (h : Reading host s.files.vfs fd i node data) :
    wp (readRegularFileForSymbolScan host fd)
      (fun bytes s' => bytes = data ∧ data.length ≤ maxSymbolScanBytes ∧ s'.files.memory = s.files.memory ∧
        s'.native = s.native ∧ Queried s.files.vfs s'.files.vfs)
      (fun _ s' => s'.files.memory = s.files.memory ∧ s'.native = s.native ∧ maxSymbolScanBytes < data.length) s := by
  unfold readRegularFileForSymbolScan
  rw [wp_bind, wp_onFileVfs]
  apply wp_mono (VirtualFileSystem.fstat_size h.wf h.coherent h.file h.holds) _ (fun _ _ h => h.elim)
  intro attr vfs hattr
  rw [hattr.1, wp_ite]
  split
  · exact (wp_throw _).mpr ⟨rfl, rfl, ‹_›⟩
  rename_i hsmall
  rw [wp_onFileVfs]
  apply wp_mono ((h.queried hattr.2.queried).pread hfaithful 0 data.length) _ (fun _ _ h => h.elim)
  intro bytes vfs' hbytes
  refine ⟨?_, not_lt.mp hsmall, rfl, rfl, hattr.2.queried.trans hbytes.2⟩
  rw [hbytes.1, readMemoryAt, List.drop_zero, List.take_length]

theorem LibcIntrinsicSymbolCache.put_get? {cache : LibcIntrinsicSymbolCache} {file : RegularFileCacheKey}
    {cached : InodeId ×ₗ Nat} {symbols found : List FileBackedLibcIntrinsicSymbol}
    (h : (cache.put file symbols).get? cached = some found) :
    cached = LibcIntrinsicSymbolCache.key file ∧ found = symbols ∨ cache.get? cached = some found := by
  rw [LibcIntrinsicSymbolCache.put, SortedMap.get?_insert] at h
  split at h
  · exact .inl ⟨‹_›, (Option.some.inj h).symm⟩
  · exact .inr (SortedMap.get?_filter_eq_some.mp h).1

theorem CachesFit.putSymbols {file : RegularFileCacheKey} {bytes : List UInt8} (hfit : CachesFit host s)
    (hkey : s.files.vfs.regularFileCacheKey fd = .ok (some file))
    (hbytes : ∀ node data, RegularFile s.files.vfs fd file.inode node → node.Holds host data → bytes = data) :
    CachesFit host { s with native := { s.native with
      libcIntrinsicSymbolCache :=
        s.native.libcIntrinsicSymbolCache.put file (parseFileBackedLibcIntrinsicSymbols bytes) } } := by
  refine ⟨hfit.wf, hfit.coherent, hfit.mappings, fun key found hfound => ?_⟩
  rcases LibcIntrinsicSymbolCache.put_get? hfound with ⟨rfl, rfl⟩ | hfound
  · apply Fits.of_key hkey
    intro node data hfile hholds
    rw [hbytes node data hfile hholds]
  · exact hfit.symbols key found hfound

def ScannedFrom (host : Vfs.Host) (vfs : VirtualFileSystem) (fd : Fd) (bytes : List UInt8) : Prop :=
  ∀ i node data, RegularFile vfs fd i node → Readable vfs fd → node.Holds host data → bytes = data

theorem fileBackedLibcIntrinsicSymbols_carries {bytes : List UInt8}
    (hscanned : ScannedFrom host s.files.vfs fd bytes) :
    wp (fileBackedLibcIntrinsicSymbols fd bytes) (fun _ => Carries host s) (fun _ => Carries host s) s := by
  unfold fileBackedLibcIntrinsicSymbols
  rw [wp_bind, wp_get, wp_bind, wp_onFileVfs]
  apply wp_check
  · intro _ _ hfit
    exact ⟨.refl, hfit⟩
  intro key hkey
  cases key with
  | none => exact (wp_pure _).mpr fun hfit => ⟨.refl, hfit⟩
  | some file =>
      simp only
      cases s.native.libcIntrinsicSymbolCache.get? (LibcIntrinsicSymbolCache.key file) with
      | some symbols => exact (wp_pure _).mpr fun hfit => ⟨.refl, hfit⟩
      | none =>
          simp only
          rw [wp_bind, modifyNative, wp_modify, wp_pure]
          intro hfit
          refine ⟨.refl, hfit.putSymbols hkey fun node data hfile hholds => ?_⟩
          exact hscanned _ node data hfile (regularFileCacheKey_names hkey).2.1 hholds

theorem fileBackedLibcIntrinsicSymbols_shows (hfit : CachesFit host s) (hfile : RegularFile s.files.vfs fd i node)
    (hholds : node.Holds host data) :
    wp (fileBackedLibcIntrinsicSymbols fd data)
      (fun symbols s' => symbols = parseFileBackedLibcIntrinsicSymbols data ∧ s'.files.memory = s.files.memory ∧
        s'.native.libcIntrinsicPatches = s.native.libcIntrinsicPatches)
      (fun _ _ => True) s := by
  unfold fileBackedLibcIntrinsicSymbols
  rw [wp_bind, wp_get, wp_bind, wp_onFileVfs]
  apply wp_check
  · intro _ _
    trivial
  intro key hkey
  cases key with
  | none =>
      obtain ⟨found, hfound, hnone⟩ := except_bind_eq_ok.mp hkey
      rw [hfile.regularFileOf (VirtualFileSystem.readable_of_regularFileOf hfound)] at hfound
      cases hfound
      nomatch hnone
  | some file =>
      obtain ⟨_, _, node', hfile'⟩ := regularFileCacheKey_names hkey
      obtain rfl : i = file.inode := hfile.inode_eq hfile'
      simp only
      cases hcached : s.native.libcIntrinsicSymbolCache.get? (LibcIntrinsicSymbolCache.key file) with
      | some symbols => exact (wp_pure _).mpr ⟨(hfit.symbols _ symbols hcached).apply hkey hfile hholds, rfl, rfl⟩
      | none =>
          simp only
          rw [wp_bind, modifyNative, wp_modify, wp_pure]
          exact ⟨rfl, rfl, rfl⟩

theorem registerLibcIntrinsicPatch_flat (hsound : Sound s.files.memory) (pid address : Nat)
    (intrinsic : GuestLibcIntrinsic) :
    wp (registerLibcIntrinsicPatch pid address intrinsic)
      (fun _ s' => Sound s'.files.memory ∧ ∀ x, ¬ (address ≤ x ∧ x < address + 2) →
        s'.files.memory.machine.cell x = s.files.memory.machine.cell x) (fun _ _ => True) s := by
  unfold registerLibcIntrinsicPatch
  rw [wp_bind, wp_onMachine]
  apply wp_mono (Memory.patchCodeFixed_spec hsound.wf 2 [(address, trapBytes)]) _ (fun _ _ _ => trivial)
  intro _ machine h
  obtain ⟨⟨hkept, _⟩, hsame⟩ := h
  rw [modifyNative, wp_modify]
  refine ⟨⟨hkept.wf, hkept.disjoint hsound.disjoint⟩, fun x hx => ?_⟩
  refine Memory.cell_eq_of_shows hsound.wf hsound.disjoint hkept.wf (hkept.disjoint hsound.disjoint) fun c => ?_
  refine hsame hsound.disjoint x ?_ c
  intro a ha
  obtain rfl : a = address := by simpa using ha
  exact hx

theorem registerFileBackedLibcIntrinsicPatches_flat (hfaithful : host.Faithful) (hfit : CachesFit host s)
    (hsound : Sound s.files.memory) (hfile : RegularFile s.files.vfs args.fd i node)
    (hreadable : Readable s.files.vfs args.fd) (hholds : node.Holds host data) (pid mapped : Nat) :
    wp (registerFileBackedLibcIntrinsicPatches host pid mapped args)
      (fun _ s' => ∀ x, Unpatched 2 (patchSites s.native.enabled data mapped args) x →
        s'.files.memory.machine.cell x = s.files.memory.machine.cell x) (fun _ _ => True) s := by
  unfold registerFileBackedLibcIntrinsicPatches
  rw [wp_bind, wp_get, wp_ite]
  split
  · exact (wp_pure _).mpr fun _ _ => rfl
  rename_i hnative
  rw [not_or, not_or] at hnative
  have hread : Reading host s.files.vfs args.fd i node data := ⟨hfit.wf, hfit.coherent, hfile, hreadable, hholds⟩
  rw [wp_bind, wp_attempt]
  apply wp_mono (wp_and ((readRegularFileForSymbolScan_carries args.fd).wp s)
    (readRegularFileForSymbolScan_reads hfaithful hread))
  swap
  · intro _ s₁ h
    exact (wp_pure _).mpr fun _ _ => by rw [h.2.1]
  intro bytes s₁ h
  obtain ⟨hcarried, rfl, hsmall, hmemory, hsame, hqueried⟩ := h
  obtain ⟨_, hfit₁⟩ := hcarried hfit
  simp only
  cases hbias : elfLoadBiasForMapping bytes args.offset.toNat mapped with
  | none => exact (wp_pure _).mpr fun _ _ => by rw [hmemory]
  | some loadBias =>
      simp only
      cases checkedAdd mapped args.length with
      | none => exact (wp_throw _).mpr trivial
      | some mappedEnd =>
          simp only
          rw [wp_bind]
          apply wp_mono (fileBackedLibcIntrinsicSymbols_shows hfit₁ (hfile.queried hfit.wf hqueried) hholds) _
            (fun _ _ _ => trivial)
          intro symbols s₂ h
          obtain ⟨rfl, hmemory₂, -⟩ := h
          have hsites : patchSites s.native.enabled bytes mapped args =
              (parseFileBackedLibcIntrinsicSymbols bytes).filterMap fun symbol =>
                patchSite loadBias mapped args.length symbol.value := by
            unfold patchSites
            rw [if_neg, hbias]
            rw [not_or, not_or]
            exact ⟨hnative.1, hnative.2.1, not_lt.mpr hsmall⟩
          rw [hsites]
          apply wp_mono (wp_forEach
            (I := fun rest s' => (∀ symbol ∈ rest, symbol ∈ parseFileBackedLibcIntrinsicSymbols bytes) ∧
              Sound s'.files.memory ∧
              ∀ x, Unpatched 2 ((parseFileBackedLibcIntrinsicSymbols bytes).filterMap fun symbol =>
                  patchSite loadBias mapped args.length symbol.value) x →
                s'.files.memory.machine.cell x = s.files.memory.machine.cell x)
            (E := fun _ _ => True) _ _ s₂ _)
          · intro _ _ h
            exact h.2.2
          · intro _ _ _
            trivial
          · intro symbol rest s' h
            obtain ⟨hmem, hsound', hcells⟩ := h
            have hrest : ∀ symbol ∈ rest, symbol ∈ parseFileBackedLibcIntrinsicSymbols bytes :=
              fun symbol h => hmem symbol (List.mem_cons_of_mem _ h)
            cases hsite : patchSite loadBias mapped args.length symbol.value with
            | none => exact (wp_pure _).mpr ⟨hrest, hsound', hcells⟩
            | some address =>
                simp only
                apply wp_mono (registerLibcIntrinsicPatch_flat hsound' pid address symbol.intrinsic) _
                  (fun _ _ _ => trivial)
                intro _ s'' h
                refine ⟨hrest, h.1, fun x hx => (h.2 x ?_).trans (hcells x hx)⟩
                exact hx address (List.mem_filterMap.mpr ⟨symbol, hmem symbol (by simp), hsite⟩)
          · refine ⟨fun _ h => h, ?_, fun _ _ => ?_⟩
            · rw [hmemory₂, hmemory]
              exact hsound
            · rw [hmemory₂, hmemory]

theorem registerFileBackedLibcIntrinsicPatches_carries (hfaithful : host.Faithful) (pid mapped : Nat)
    (args : MmapSyscallArgs) :
    Along (Carries host) (registerFileBackedLibcIntrinsicPatches host pid mapped args : SubsystemProg σ ω Unit) := by
  have hregister : ∀ address intrinsic,
      Along (Carries host) (registerLibcIntrinsicPatch pid address intrinsic : SubsystemProg σ ω Unit) := by
    intro address intrinsic
    refine .bind (onMachine_carries _) fun _ => .modify fun s hfit => ⟨.refl, ?_⟩
    exact ⟨hfit.wf, hfit.coherent, hfit.mappings, hfit.symbols⟩
  apply Along.of_wp
  intro s
  by_cases hfit : CachesFit host s
  swap
  · exact wp_of_state fun h => absurd h hfit
  unfold registerFileBackedLibcIntrinsicPatches
  rw [wp_bind, wp_get, wp_ite]
  split
  · exact (wp_pure _).mpr fun hfit => ⟨.refl, hfit⟩
  have hscan : Along (Carries host) (readRegularFileForSymbolScan host args.fd : SubsystemProg σ ω (List UInt8)) :=
    readRegularFileForSymbolScan_carries args.fd
  have hcarried := wp_iff.mp (hscan.wp s)
  rw [wp_bind, wp_attempt, wp_iff]
  constructor
  swap
  · intro e s₁ hrun
    exact (wp_pure _).mpr (hcarried.2 e s₁ hrun)
  intro bytes s₁ hrun
  have hcarried₁ := hcarried.1 bytes s₁ hrun
  simp only
  cases elfLoadBiasForMapping bytes args.offset.toNat mapped with
  | none => exact (wp_pure _).mpr hcarried₁
  | some loadBias =>
      simp only
      cases checkedAdd mapped args.length with
      | none => exact (wp_throw _).mpr hcarried₁
      | some mappedEnd =>
          simp only
          -- the scan read the file of the descriptor
          have hscanned : ScannedFrom host s₁.files.vfs args.fd bytes := by
            intro i node data hfile hreadable hholds
            obtain ⟨⟨cache, hcache⟩, _⟩ := (hcarried₁ hfit).1.same hfit.wf
            rw [hcache] at hfile hreadable
            have hread : Reading host s.files.vfs args.fd i node data :=
              ⟨hfit.wf, hfit.coherent, ⟨hfile.open', hfile.there, hfile.file⟩, hreadable, hholds⟩
            exact (wp_ok (readRegularFileForSymbolScan_reads hfaithful hread) hrun).1
          have hloop : ∀ symbols : List FileBackedLibcIntrinsicSymbol,
              Along (Carries host) (Prog.forEach symbols fun symbol =>
                match patchSite loadBias mapped args.length symbol.value with
                | none => pure ()
                | some address => (registerLibcIntrinsicPatch pid address symbol.intrinsic :
                    SubsystemProg σ ω Unit)) := by
            intro symbols
            apply Along.forEach
            intro symbol
            cases patchSite loadBias mapped args.length symbol.value with
            | none => exact .pure _
            | some address => exact hregister address symbol.intrinsic
          rw [wp_bind]
          apply wp_mono (fileBackedLibcIntrinsicSymbols_carries hscanned)
          · intro symbols s₂ hcarried₂
            have hboth : Carries host s s₂ := IsTrans.trans _ _ _ hcarried₁ hcarried₂
            exact wp_mono ((hloop symbols).wp s₂) (fun _ _ h => IsTrans.trans _ _ _ hboth h)
              (fun _ _ h => IsTrans.trans _ _ _ hboth h)
          · intro _ s₂ hcarried₂
            exact IsTrans.trans _ _ _ hcarried₁ hcarried₂

end Traps

/-! ### Runs -/

section Runs

variable {host : Vfs.Host} {s s' : RuntimeSubsystems σ ω}

theorem populateFileBackedMmap_carries (hfaithful : host.Faithful) (mapped : Nat) (args : MmapSyscallArgs) :
    Along (Carries host) (populateFileBackedMmap host mapped args : SubsystemProg σ ω Unit) := by
  refine .ite (.throw _) (.bind (fileBackedMmapBytes_carries hfaithful _ _ _ _ _) fun bytes => ?_)
  refine .bind (onMachine_carries _) fun _ => .bind (.attempt (onMachine_carries _)) fun written => ?_
  exact .bind (.attempt (onMachine_carries _)) fun restored => .bind (.ofExcept _) fun _ => .ofExcept _

theorem mmap_carries (hfaithful : host.Faithful) (pid : Nat) (args : MmapSyscallArgs) :
    Along (Carries host) (mmap host pid args : SubsystemProg σ ω Nat) := by
  refine .bind (onMachine_carries _) fun mapped => .ite (.pure _) ?_
  exact .bind (populateFileBackedMmap_carries hfaithful mapped args) fun _ =>
    .bind (registerFileBackedLibcIntrinsicPatches_carries hfaithful pid mapped args) fun _ => .pure _

/-- The process whose memory is `memory` comes to run. -/
def RuntimeSubsystems.select (memory : ProcessMemory) (s : RuntimeSubsystems σ ω) : RuntimeSubsystems σ ω :=
  { s with files := { s.files with memory := memory } }

/-- What can happen to files and their mappings: calls on files, mappings in any process, and native execution
being turned on or off. -/
inductive MappingEvent
  | file (op : Vfs.Op)
  | mmap (memory : ProcessMemory) (pid : Nat) (args : MmapSyscallArgs)
  | enableNative (enabled : Bool)

def RuntimeSubsystems.mappingStep (host : Vfs.Host) (s : RuntimeSubsystems σ ω) : MappingEvent → RuntimeSubsystems σ ω
  | .file op => s.setVfs (s.files.vfs.step host op)
  | .mmap memory pid args => (Runtime.mmap host pid args (s.select memory)).2
  | .enableNative enabled => { s with native := { s.native with enabled := enabled } }

def RuntimeSubsystems.mappingRun (host : Vfs.Host) (s : RuntimeSubsystems σ ω) (events : List MappingEvent) :
    RuntimeSubsystems σ ω :=
  events.foldl (mappingStep host) s

/-- The calls on files leave no stale entry in the cache of the file system. -/
def CoherentRun (host : Vfs.Host) : RuntimeSubsystems σ ω → List MappingEvent → Prop
  | _, [] => True
  | s, event :: events => (∀ op, event = .file op → s.files.vfs.CoherentStep op) ∧
    CoherentRun host (s.mappingStep host event) events

theorem mappingStep_fits (hfaithful : host.Faithful) (hfit : CachesFit host s) {event : MappingEvent}
    (hstep : ∀ op, event = .file op → s.files.vfs.CoherentStep op) : CachesFit host (s.mappingStep host event) := by
  cases event with
  | file op =>
      have heffect := VirtualFileSystem.step_effect host hfit.wf (hstep op rfl).sane
      exact ⟨heffect.wf hfit.wf, heffect.coherent hfit.wf (hstep op rfl) hfit.coherent,
        fun key bytes hget => (hfit.mappings key bytes hget).step hfit.wf (hstep op rfl),
        fun key symbols hget => (hfit.symbols key symbols hget).step hfit.wf (hstep op rfl)⟩
  | mmap memory pid args =>
      exact (mmap_carries hfaithful pid args (s.select memory)
        ⟨hfit.wf, hfit.coherent, hfit.mappings, hfit.symbols⟩).2
  | enableNative enabled => exact ⟨hfit.wf, hfit.coherent, hfit.mappings, hfit.symbols⟩

theorem mappingRun_fits (hfaithful : host.Faithful) (events : List MappingEvent) :
    ∀ {s : RuntimeSubsystems σ ω}, CachesFit host s → CoherentRun host s events →
      CachesFit host (s.mappingRun host events) := by
  induction events with
  | nil => exact fun hfit _ => hfit
  | cons event events ih => exact fun hfit hrun => ih (mappingStep_fits hfaithful hfit hrun.1) hrun.2

/-- A runtime that has mapped nothing yet. -/
def RuntimeSubsystems.start (vfs : VirtualFileSystem) (memory : ProcessMemory) (net : Net.NetState σ ω)
    (enabled : Bool) : RuntimeSubsystems σ ω :=
  ⟨⟨vfs, memory, net⟩, .new enabled⟩

theorem start_fits {tree : Vfs.PathTree} (hwf : tree.Wf) (rootfs : Vfs.Rootfs) (fds : Vfs.FdTable) (shared : Vfs.Shared)
    (memory : ProcessMemory) (net : Net.NetState σ ω) (enabled : Bool) :
    CachesFit host (.start (.fromParts rootfs tree fds shared) memory net enabled : RuntimeSubsystems σ ω) where
  wf := hwf
  coherent := ⟨fun _ _ h => (nomatch h), fun _ _ h => (nomatch h), fun _ _ h => (nomatch h)⟩
  mappings := fun _ _ h => (nomatch h)
  symbols := fun _ _ h => (nomatch h)

variable {i : InodeId} {node : PathNode} {data : List UInt8} {args : MmapSyscallArgs}

theorem mappedBytes_getD {offset len k : Nat} (hk : k < len) :
    (mappedBytes data offset len).getD k 0 = mappedByte data (offset + k) := by
  unfold mappedBytes
  by_cases hin : offset + k < data.length
  · have hshown : k < (readMemoryAt data offset len).length := by
      rw [readMemoryAt, List.length_take, List.length_drop]
      omega
    rw [List.getD_eq_getElem?_getD, List.getElem?_map, List.getElem?_range hshown]
    rfl
  · have hout : (readMemoryAt data offset len).length ≤ k := by
      rw [readMemoryAt, List.length_take, List.length_drop]
      omega
    rw [List.getD_eq_getElem?_getD, List.getElem?_map, List.getElem?_eq_none (by simpa using hout), mappedByte,
      List.getD_eq_getElem?_getD, List.getElem?_eq_none (not_lt.mp hin)]
    simp

theorem filled_byte {flat : Flat} {mapped stop x : Nat} {protection : GuestMemoryProtection} {bytes : List UInt8}
    {kind : Memory.GuestVmaKind} {protection₀ : GuestMemoryProtection} (hzero : flat x = some ⟨0, protection₀, kind⟩)
    (hlow : mapped ≤ x) :
    ∃ c, filled flat mapped stop protection bytes x = some c ∧ c.byte = bytes.getD (x - mapped) 0 := by
  have hbyte : ∀ c : Memory.Cell, ∀ p, (if mapped ≤ x ∧ x < stop then { c with protection := p } else c).byte = c.byte := by
    intro c p
    split <;> rfl
  simp only [filled, Flat.protect, Flat.store, hzero, Option.map_some]
  refine ⟨_, rfl, ?_⟩
  rw [hbyte]
  split
  · rfl
  · rename_i hout
    refine (hbyte ⟨0, protection₀, kind⟩ _).trans ?_
    rw [List.getD_eq_getElem?_getD, List.getElem?_eq_none (by omega)]
    rfl

theorem mmap_shows (hfaithful : host.Faithful) (hfit : CachesFit host s) (hsound : Sound s.files.memory)
    (hrestore : ∀ n, s.files.memory.ctx.refusal n .restore = none)
    (hids : s.files.memory.machine.mem.nextAllocationId + 1 < u64Limit)
    (hfile : RegularFile s.files.vfs args.fd i node) (hholds : node.Holds host data)
    (hbacked : args.isAnonymous = false) (pid : Nat) {k : Nat} (hk : k < args.length) :
    wp (mmap host pid args)
      (fun mapped s' => Unpatched 2 (patchSites s.native.enabled data mapped args) (mapped + k) →
        ∃ cell, s'.files.memory.machine.cell (mapped + k) = some cell ∧
          cell.byte = mappedByte data (args.offset.toNat + k)) (fun _ _ => True) s := by
  have hlength : args.length ≠ 0 := by omega
  unfold mmap
  rw [wp_bind, wp_onMachine]
  apply wp_mono (Memory.mmap_spec hsound.wf hrestore hids args) _ (fun _ _ _ => trivial)
  intro mapped machine h
  obtain ⟨length, protection, kind, hrounded, _, _, haligned, hmapped, _⟩ := h
  have hdisjoint := hmapped.disjoint (Memory.cleared_disjoint hsound.wf hsound.disjoint haligned)
  -- the new pages are zero
  have hzero : machine.cell (mapped + k) = some ⟨0, protection, kind⟩ := by
    rw [hmapped.wf.cell_eq_some_iff hdisjoint, hmapped.shows]
    left
    have := (Memory.pageRoundLength_ok hrounded).2.1
    exact ⟨⟨by omega, by omega⟩, rfl⟩
  have hsound₁ : Sound (s.setMachine machine).files.memory := ⟨hmapped.wf, hdisjoint⟩
  have hfit₁ : CachesFit host (s.setMachine machine) := ⟨hfit.wf, hfit.coherent, hfit.mappings, hfit.symbols⟩
  rw [if_neg (by simp [hbacked]), wp_bind]
  apply wp_mono (wp_and ((populateFileBackedMmap_carries hfaithful mapped args).wp (s.setMachine machine))
    (populateFileBackedMmap_shows hfaithful hfit₁ hsound₁ hfile hholds hlength mapped)) _ (fun _ _ _ => trivial)
  intro _ s₂ h
  obtain ⟨hcarried, hsound₂, henabled, hreadable, protection', stop, hstop, hcells⟩ := h
  obtain ⟨hqueried, hfit₂⟩ := hcarried hfit₁
  rw [wp_bind]
  apply wp_mono (registerFileBackedLibcIntrinsicPatches_flat hfaithful hfit₂ hsound₂
    (hfile.queried hfit.wf hqueried) (hreadable.queried hfit.wf hqueried) hholds pid mapped) _ (fun _ _ _ => trivial)
  intro _ s₃ huntouched
  rw [wp_pure]
  intro huntrapped
  rw [huntouched _ (henabled ▸ huntrapped), hcells]
  obtain ⟨c, hc, hbyte⟩ := filled_byte hzero (Nat.le_add_right mapped k)
  refine ⟨c, hc, hbyte.trans ?_⟩
  rw [Nat.add_sub_cancel_left, mappedBytes_getD hk]

/-- In a run whose calls on files leave no stale entry behind, a file mapping that succeeds shows the file:
the byte at `mapped + k` is that of the file at `offset + k`, zero where the file has ended or a loaded segment
goes on after its bytes in the file. Only the traps of native execution lie over it. -/
theorem file_mapping_shows_file (hfaithful : host.Faithful) {tree : Vfs.PathTree} (hwf : tree.Wf) (rootfs : Vfs.Rootfs)
    (fds : Vfs.FdTable) (shared : Vfs.Shared) (memory₀ : ProcessMemory) (net : Net.NetState σ ω) (enabled : Bool)
    (events : List MappingEvent)
    (hrun : CoherentRun host (.start (.fromParts rootfs tree fds shared) memory₀ net enabled) events)
    (hreached : s = RuntimeSubsystems.mappingRun host
      (.start (.fromParts rootfs tree fds shared) memory₀ net enabled) events)
    (memory : ProcessMemory) (hsound : Sound memory) (hrestore : ∀ n, memory.ctx.refusal n .restore = none)
    (hids : memory.machine.mem.nextAllocationId + 1 < u64Limit) (hfile : RegularFile s.files.vfs args.fd i node)
    (hholds : node.Holds host data) (hbacked : args.isAnonymous = false) (pid mapped : Nat)
    (hmmap : mmap host pid args (s.select memory) = (.ok mapped, s')) (k : Nat) (hk : k < args.length)
    (huntrapped : Unpatched 2 (patchSites s.native.enabled data mapped args) (mapped + k)) :
    ∃ cell, s'.files.memory.machine.cell (mapped + k) = some cell ∧
      cell.byte = mappedByte data (args.offset.toNat + k) := by
  have hfit : CachesFit host s := by
    rw [hreached]
    exact mappingRun_fits hfaithful events (start_fits hwf rootfs fds shared memory₀ net enabled) hrun
  have hselected : CachesFit host (s.select memory) := ⟨hfit.wf, hfit.coherent, hfit.mappings, hfit.symbols⟩
  exact wp_ok (mmap_shows hfaithful hselected hsound hrestore hids hfile hholds hbacked pid hk) hmmap huntrapped

/-- An ELF file of one program header: a segment of 110 bytes, of which the file has 100. -/
def elfFile : List UInt8 :=
  elfMagic ++ [elfClass64, elfData2Lsb] ++ List.replicate 26 0 ++ [64, 0, 0, 0, 0, 0, 0, 0] ++ List.replicate 14 0 ++
    [56, 0, 1, 0] ++ List.replicate 6 0 ++ [1, 0, 0, 0] ++ List.replicate 28 0 ++ [100, 0, 0, 0, 0, 0, 0, 0] ++
    [110, 0, 0, 0, 0, 0, 0, 0] ++ List.replicate 8 0

def openElfFile : List MappingEvent :=
  [.file (.treeMut (.createFileWithContent "/a" elfFile 0o644)), .file (.openat Vfs.atFdcwd "/a" ⟨0⟩ 0)]

def mapElfFile : MmapSyscallArgs := ⟨0, 4096, Memory.linuxProtRead, Memory.linuxMapPrivate, 0, 0⟩

def freshProcessMemory : ProcessMemory := ⟨⟨.windows, fun _ _ => none, fun _ => 0⟩, ⟨Memory.freshMemory, .empty⟩⟩

def idle : RuntimeSubsystems Unit Unit :=
  .start VirtualFileSystem.blank freshProcessMemory ⟨.new false, ()⟩ false

/-- The bytes 100 to 109 of the file are there to be read, and the mapping shows zeros in their place. -/
theorem elf_tail_hides_file :
    (mmap .empty 1 mapElfFile (idle.mappingRun .empty openElfFile)).1 = .ok 0x2000000 ∧
      (VirtualFileSystem.pread .empty 0 104 1 (idle.mappingRun .empty openElfFile).files.vfs).1 = .ok [110] ∧
      ((mmap .empty 1 mapElfFile (idle.mappingRun .empty openElfFile)).2.files.memory.machine.cell
        (0x2000000 + 104)).map (·.byte) = some 0 :=
  ⟨by decide +kernel, toOption_eq_some.mp (by decide +kernel), by decide +kernel⟩

theorem openElfFile_coherent : CoherentRun .empty idle openElfFile := by
  have hfresh : idle.files.vfs.tree.FreshId := by
    unfold Vfs.PathTree.FreshId
    decide +kernel
  have hopens : ∀ vfs : VirtualFileSystem, ¬ vfs.StopsOpening (.openat Vfs.atFdcwd "/a" ⟨0⟩ 0) := by
    intro vfs h
    obtain ⟨_, _, ⟨h, _⟩ | ⟨h, _⟩⟩ := h
    · nomatch h
    · nomatch h
  refine ⟨fun op hop => ?_, fun op hop => ?_, trivial⟩
  · cases hop
    exact ⟨hfresh, id, id, trivial, VirtualFileSystem.keyGeneration_room (by decide +kernel) (by decide +kernel)⟩
  · cases hop
    exact ⟨fun h => (nomatch h), id, hopens _, trivial,
      VirtualFileSystem.keyGeneration_room (by decide +kernel) (by decide +kernel)⟩

theorem freshProcessMemory_sound : Sound freshProcessMemory := by
  have hrun : Memory.World.CleanRun (.granting .windows) (.initial Memory.freshMemory) [] := trivial
  have hfirst : (Memory.World.run (.granting .windows) (.initial Memory.freshMemory) []).machine 0 =
      some freshProcessMemory.machine := rfl
  obtain ⟨hwf, hd⟩ := hrun.reached (fun _ => rfl) Memory.withLayout_freshMemory hfirst
  exact ⟨hwf, hd⟩

theorem mapped_elf_shows_class :
    ∃ cell, (mmap .empty 1 mapElfFile
      ((idle.mappingRun .empty openElfFile).select freshProcessMemory)).2.files.memory.machine.cell
        (0x2000000 + 4) = some cell ∧ cell.byte = mappedByte elfFile 4 := by
  have hfaithful : Vfs.Host.Faithful .empty :=
    ⟨fun _ _ h => (nomatch h), fun _ _ _ _ h => (nomatch h), fun _ _ _ _ _ h => (nomatch h)⟩
  obtain ⟨entry, hentry, hkind⟩ := Option.map_eq_some_iff.mp
    (show ((idle.mappingRun .empty openElfFile).files.vfs.fds.entries.get? 0).map
      (fun entry => (entry.inodeId, entry.file.kind)) = some (2, .regular) by decide +kernel)
  obtain ⟨node, hnode, hdata⟩ := Option.map_eq_some_iff.mp
    (show ((idle.mappingRun .empty openElfFile).files.vfs.tree.inodes.get? 2).map
      (fun node => (node.kind, node.content .empty, node.attr.size, node.attr.isDirectory)) =
        some (.file, some elfFile, elfFile.length, false) by decide +kernel)
  obtain ⟨hid, hregular⟩ := Prod.ext_iff.mp hkind
  obtain ⟨hfile, hdata⟩ := Prod.ext_iff.mp hdata
  obtain ⟨hcontent, hdata⟩ := Prod.ext_iff.mp hdata
  obtain ⟨hsize, hdir⟩ := Prod.ext_iff.mp hdata
  have hopen : RegularFile (idle.mappingRun .empty openElfFile).files.vfs mapElfFile.fd 2 node :=
    ⟨⟨entry, hentry, hid, hregular⟩, hnode, hfile⟩
  exact file_mapping_shows_file hfaithful VirtualFileSystem.new_wf (.new "/") .new .empty freshProcessMemory
    ⟨.new false, ()⟩ false openElfFile openElfFile_coherent rfl freshProcessMemory freshProcessMemory_sound
    (fun _ => rfl) (by decide +kernel) hopen ⟨hcontent, hsize, hdir, by decide +kernel⟩ rfl 1 0x2000000
    (run_eq (by decide +kernel)) 4 (by decide +kernel) (fun _ h => (nomatch h))

end Runs

end Mcr.Runtime
