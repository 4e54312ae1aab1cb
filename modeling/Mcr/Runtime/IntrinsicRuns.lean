import Mcr.Runtime.IntrinsicSites

/-!
# The traps over libc along a run

The registry of the traps is keyed by process and address. A file mapping adds to it, a fork copies what its parent
has, `execve` and the end of a process take all of a process out, and nothing else does: what stood at an address may
be gone from memory while the registry still has its trap.
-/

namespace Mcr.Runtime

open Prog
open Vfs (Fd InodeId PathNode VirtualFileSystem)
open Vfs.VirtualFileSystem (Queried Readable RegularFile)
open Memory (MmapSyscallArgs Unpatched checkedAdd linuxProtExec u64Limit)

variable {σ ω : Type}

abbrev IntrinsicPatches := SortedMap (Nat ×ₗ Nat) GuestLibcIntrinsic

/-! ### The registry -/

/-- The mapping is one that native execution puts its traps over. -/
def Trapped (enabled : Bool) (args : MmapSyscallArgs) : Prop :=
  enabled = true ∧ args.prot &&& linuxProtExec ≠ 0 ∧ 0 ≤ args.offset

instance (enabled : Bool) (args : MmapSyscallArgs) : Decidable (Trapped enabled args) :=
  inferInstanceAs (Decidable (_ ∧ _))

/-- `materialize_pending_fork_exec_children`: the child has the traps of its parent. -/
def inheritPatches (parent child : Nat) (patches : IntrinsicPatches) : IntrinsicPatches :=
  ((patches.filter fun key _ => (ofLex key).1 = parent).entries.map fun entry =>
    (toLex (child, (ofLex entry.1).2), entry.2)).foldl (fun patches entry => patches.insert entry.1 entry.2) patches

/-- `drop_native_patch_cache_for_process`, and the same in `execve`. -/
def dropPatches (pid : Nat) (patches : IntrinsicPatches) : IntrinsicPatches :=
  patches.filter fun key _ => (ofLex key).1 ≠ pid

theorem mem_inherited {parent child : Nat} {patches : IntrinsicPatches} {key : Nat ×ₗ Nat}
    {intrinsic : GuestLibcIntrinsic} :
    (key, intrinsic) ∈ ((patches.filter fun key _ => (ofLex key).1 = parent).entries.map fun entry =>
      (toLex (child, (ofLex entry.1).2), entry.2)) ↔
      ∃ a, key = toLex (child, a) ∧ patches.get? (toLex (parent, a)) = some intrinsic := by
  rw [List.mem_map]
  constructor
  · rintro ⟨⟨found, value⟩, hmem, heq⟩
    obtain ⟨rfl, rfl⟩ := Prod.mk.inj heq
    obtain ⟨hget, hparent⟩ := SortedMap.get?_filter_eq_some.mp (SortedMap.get?_eq_some_iff.mpr hmem)
    exact ⟨(ofLex found).2, rfl, of_decide_eq_true hparent ▸ hget⟩
  · rintro ⟨a, rfl, hget⟩
    exact ⟨(toLex (parent, a), intrinsic), SortedMap.get?_eq_some_iff.mp
      (SortedMap.get?_filter_eq_some.mpr ⟨hget, decide_eq_true rfl⟩), rfl⟩

theorem inherited_nodup (parent child : Nat) (patches : IntrinsicPatches) :
    (((patches.filter fun key _ => (ofLex key).1 = parent).entries.map fun entry =>
      (toLex (child, (ofLex entry.1).2), entry.2)).map Prod.fst).Nodup := by
  have hsorted := (patches.filter fun key _ => (ofLex key).1 = parent).sorted
  rw [List.map_map]
  refine List.Nodup.map_on (fun e he e' he' heq => ?_) (hsorted.imp fun hlt heq => ?_)
  · have hparent : ∀ e ∈ (patches.filter fun key _ => (ofLex key).1 = parent).entries, (ofLex e.1).1 = parent :=
      fun e he => of_decide_eq_true
        (SortedMap.get?_filter_eq_some.mp (SortedMap.get?_eq_some_iff.mpr he)).2
    have hkey : e.1 = e'.1 := by
      have hsnd : (ofLex e.1).2 = (ofLex e'.1).2 := (Prod.mk.inj (toLex.injective heq)).2
      exact ofLex.injective (Prod.ext ((hparent e he).trans (hparent e' he').symm) hsnd)
    have hget := SortedMap.get?_eq_some_iff.mpr he
    rw [hkey, SortedMap.get?_eq_some_iff.mpr he'] at hget
    exact Prod.ext hkey (Option.some.inj hget).symm
  · rw [heq] at hlt
    exact lt_irrefl _ hlt

theorem inheritPatches_get? (parent child : Nat) (patches : IntrinsicPatches) {key : Nat ×ₗ Nat}
    {intrinsic : GuestLibcIntrinsic} : (inheritPatches parent child patches).get? key = some intrinsic ↔
      (∃ a, key = toLex (child, a) ∧ patches.get? (toLex (parent, a)) = some intrinsic) ∨
      (∀ a, key = toLex (child, a) → patches.get? (toLex (parent, a)) = none) ∧ patches.get? key = some intrinsic := by
  rw [inheritPatches, SortedMap.get?_foldl_insert (inherited_nodup parent child patches), mem_inherited]
  refine or_congr Iff.rfl (and_congr_left fun _ => ?_)
  constructor
  · intro hnot a hkey
    cases hget : patches.get? (toLex (parent, a)) with
    | none => rfl
    | some found => exact absurd (List.mem_map.mpr ⟨_, mem_inherited.mpr ⟨a, hkey, hget⟩, rfl⟩) hnot
  · intro hnone hmem
    obtain ⟨⟨found, value⟩, hentry, rfl⟩ := List.mem_map.mp hmem
    obtain ⟨a, hkey, hget⟩ := mem_inherited.mp hentry
    exact nomatch (hnone a hkey).symm.trans hget

/-! ### What a mapping registers -/

section Registers

variable {host : Vfs.Host} {s s' : RuntimeSubsystems σ ω} {α : Type}

/-- The registry is as it was. -/
def KeepsPatches (s s' : RuntimeSubsystems σ ω) : Prop :=
  s'.native.libcIntrinsicPatches = s.native.libcIntrinsicPatches ∧ s'.native.enabled = s.native.enabled

instance : @Std.Refl (RuntimeSubsystems σ ω) KeepsPatches := ⟨fun _ => ⟨rfl, rfl⟩⟩

instance : IsTrans (RuntimeSubsystems σ ω) KeepsPatches where
  trans _ _ _ h h' := ⟨h'.1.trans h.1, h'.2.trans h.2⟩

theorem onFileVfs_keepsPatches (call : VirtualFileSystem.Call α) :
    Along KeepsPatches (onFileVfs call : SubsystemProg σ ω α) := by
  apply Along.of_wp
  intro s
  rw [wp_onFileVfs]
  exact wp_of_state ⟨rfl, rfl⟩

theorem onMachine_keepsPatches (call : Memory.Context → Memory.MemM α) :
    Along KeepsPatches (onMachine call : SubsystemProg σ ω α) := by
  apply Along.of_wp
  intro s
  rw [wp_onMachine]
  exact wp_of_state ⟨rfl, rfl⟩

theorem fileBackedMmapBytes_keepsPatches (fd : Fd) (offset len : Nat) (prot flags : UInt32) :
    Along KeepsPatches (fileBackedMmapBytes host fd offset len prot flags : SubsystemProg σ ω (List UInt8)) := by
  have hread : Along KeepsPatches
      (readFileBackedMmapBytes host fd offset len : SubsystemProg σ ω (List UInt8)) := by
    refine .bind (onFileVfs_keepsPatches _) fun mapping => ?_
    cases mapping with
    | some bytes => exact onFileVfs_keepsPatches _
    | none => exact .bind (onFileVfs_keepsPatches _) fun _ => onFileVfs_keepsPatches _
  have hkey : Along KeepsPatches (fileBackedMmapCacheKey fd offset len prot flags :
      SubsystemProg σ ω (Option FileBackedMappingCacheKey)) :=
    .ite (.pure _) (.get fun _ => .bind (onFileVfs_keepsPatches _) fun _ => .pure _)
  refine .bind hkey fun key => ?_
  cases key with
  | none => exact hread
  | some key =>
      refine .get fun s => ?_
      cases s.native.fileBackedMappingCache.get? key with
      | some bytes => exact .pure _
      | none => exact .bind hread fun _ => .bind (.modify fun _ => ⟨rfl, rfl⟩) fun _ => .pure _

theorem populateFileBackedMmap_keepsPatches (mapped : Nat) (args : MmapSyscallArgs) :
    Along KeepsPatches (populateFileBackedMmap host mapped args : SubsystemProg σ ω Unit) := by
  refine .ite (.throw _) (.bind (fileBackedMmapBytes_keepsPatches _ _ _ _ _) fun bytes => ?_)
  refine .bind (onMachine_keepsPatches _) fun _ => .bind (.attempt (onMachine_keepsPatches _)) fun written => ?_
  exact .bind (.attempt (onMachine_keepsPatches _)) fun restored => .bind (.ofExcept _) fun _ => .ofExcept _

theorem fileBackedLibcIntrinsicSymbols_keepsPatches (fd : Fd) (bytes : List UInt8) :
    Along KeepsPatches (fileBackedLibcIntrinsicSymbols fd bytes :
      SubsystemProg σ ω (List FileBackedLibcIntrinsicSymbol)) := by
  refine .get fun s => .bind (onFileVfs_keepsPatches _) fun key => ?_
  cases key with
  | none => exact .pure _
  | some file =>
      simp only
      cases s.native.libcIntrinsicSymbolCache.get? (LibcIntrinsicSymbolCache.key file) with
      | some symbols => exact .pure _
      | none => exact .bind (.modify fun _ => ⟨rfl, rfl⟩) fun _ => .pure _

/-- The registry has lost nothing, and what is new is a trap of the mapping. -/
structure Adds (data : List UInt8) (pid mapped : Nat) (args : MmapSyscallArgs) (old new : IntrinsicPatches) : Prop where
  origin : ∀ key intrinsic, new.get? key = some intrinsic → old.get? key = some intrinsic ∨
    ∃ a, key = toLex (pid, a) ∧ TrapAt data mapped args a intrinsic
  keeps : ∀ key, (old.get? key).isSome → (new.get? key).isSome

variable {i : InodeId} {node : PathNode} {data : List UInt8} {args : MmapSyscallArgs} {pid mapped : Nat}

theorem Adds.refl (patches : IntrinsicPatches) : Adds data pid mapped args patches patches :=
  ⟨fun _ _ h => .inl h, fun _ h => h⟩

theorem Adds.insert {old new : IntrinsicPatches} (h : Adds data pid mapped args old new) {a : Nat}
    {intrinsic : GuestLibcIntrinsic} (htrap : TrapAt data mapped args a intrinsic) :
    Adds data pid mapped args old (new.insert (toLex (pid, a)) intrinsic) := by
  constructor
  · intro key found hget
    rw [SortedMap.get?_insert] at hget
    split at hget
    · obtain rfl := Option.some.inj hget
      exact .inr ⟨a, ‹_›, htrap⟩
    · exact h.origin key found hget
  · intro key hkey
    rw [SortedMap.get?_insert]
    split
    · rfl
    · exact h.keeps key hkey

theorem registerLibcIntrinsicPatch_registers (a : Nat) (intrinsic : GuestLibcIntrinsic) :
    wp (registerLibcIntrinsicPatch pid a intrinsic)
      (fun _ s' => s'.native.libcIntrinsicPatches = s.native.libcIntrinsicPatches.insert (toLex (pid, a)) intrinsic)
      (fun _ s' => s'.native.libcIntrinsicPatches = s.native.libcIntrinsicPatches) s := by
  unfold registerLibcIntrinsicPatch
  rw [wp_bind]
  have hpatched : Along KeepsPatches (onMachine (Memory.patchCodeFixed · 2 [(a, trapBytes)]) :
    SubsystemProg σ ω Unit) := onMachine_keepsPatches _
  apply wp_mono (hpatched.wp s)
  · intro _ s₁ h
    rw [modifyNative, wp_modify, h.1]
  · exact fun _ _ h => h.1

/-- The call registers traps of the mapping, and every one of them when it goes through; when it stops, those it got
to stay. -/
theorem registerFileBackedLibcIntrinsicPatches_registers (hfaithful : host.Faithful) (hfit : CachesFit host s)
    (hfile : RegularFile s.files.vfs args.fd i node) (hreadable : Readable s.files.vfs args.fd)
    (hholds : node.Holds host data) (htrapped : Trapped s.native.enabled args) (pid mapped : Nat) :
    wp (registerFileBackedLibcIntrinsicPatches host pid mapped args)
      (fun _ s' => Adds data pid mapped args s.native.libcIntrinsicPatches s'.native.libcIntrinsicPatches ∧
        (data.length ≤ maxSymbolScanBytes → ∀ a intrinsic, TrapAt data mapped args a intrinsic →
          (s'.native.libcIntrinsicPatches.get? (toLex (pid, a))).isSome))
      (fun _ s' => Adds data pid mapped args s.native.libcIntrinsicPatches s'.native.libcIntrinsicPatches) s := by
  obtain ⟨henabled, hexec, hoffset⟩ := htrapped
  unfold registerFileBackedLibcIntrinsicPatches
  rw [wp_bind, wp_get, wp_ite, if_neg (by rw [henabled]; simp [hexec, hoffset])]
  have hread : Reading host s.files.vfs args.fd i node data := ⟨hfit.wf, hfit.coherent, hfile, hreadable, hholds⟩
  rw [wp_bind, wp_attempt]
  apply wp_mono (wp_and ((readRegularFileForSymbolScan_carries args.fd).wp s)
    (readRegularFileForSymbolScan_reads hfaithful hread))
  swap
  · -- the file is too long to be scanned
    rintro _ s₁ ⟨-, -, hnative, hlong⟩
    refine (wp_pure _).mpr ⟨hnative ▸ .refl _, fun hshort => absurd hshort (not_le.mpr hlong)⟩
  rintro bytes s₁ ⟨hcarried, rfl, -, -, hnative, hqueried⟩
  obtain ⟨_, hfit₁⟩ := hcarried hfit
  simp only
  cases hbias : elfLoadBiasForMapping bytes args.offset.toNat mapped with
  | none =>
      refine (wp_pure _).mpr ⟨hnative ▸ .refl _, ?_⟩
      rintro - a intrinsic ⟨loadBias, hsome, -⟩
      rw [hbias] at hsome
      nomatch hsome
  | some loadBias =>
  simp only
  cases checkedAdd mapped args.length with
  | none => exact (wp_throw _).mpr (hnative ▸ .refl _)
  | some mappedEnd =>
  simp only
  rw [wp_bind]
  have hkeeps : Along KeepsPatches (fileBackedLibcIntrinsicSymbols args.fd bytes :
    SubsystemProg σ ω (List FileBackedLibcIntrinsicSymbol)) := fileBackedLibcIntrinsicSymbols_keepsPatches _ _
  apply wp_mono (wp_and (hkeeps.wp s₁)
    (fileBackedLibcIntrinsicSymbols_shows hfit₁ (hfile.queried hfit.wf hqueried) hholds))
  swap
  · rintro _ s₂ ⟨hkept, -⟩
    rw [hkept.1, hnative]
    exact .refl _
  rintro symbols s₂ ⟨hkept, rfl, -, -⟩
  have hstart : s₂.native.libcIntrinsicPatches = s.native.libcIntrinsicPatches := by rw [hkept.1, hnative]
  -- the symbols that are done have their traps in the registry
  apply wp_mono (wp_forEach
    (I := fun rest s' => (∀ symbol ∈ rest, symbol ∈ parseFileBackedLibcIntrinsicSymbols bytes) ∧
      Adds bytes pid mapped args s.native.libcIntrinsicPatches s'.native.libcIntrinsicPatches ∧
      ∀ symbol ∈ parseFileBackedLibcIntrinsicSymbols bytes, symbol ∈ rest ∨
        ∀ a, patchSite loadBias mapped args.length symbol.value = some a →
          (s'.native.libcIntrinsicPatches.get? (toLex (pid, a))).isSome)
    (E := fun _ s' => Adds bytes pid mapped args s.native.libcIntrinsicPatches s'.native.libcIntrinsicPatches) _ _ s₂
    ⟨fun _ h => h, hstart ▸ .refl _, fun _ h => .inl h⟩)
  · rintro _ s' ⟨-, hadds, hdone⟩
    refine ⟨hadds, fun _ a intrinsic htrap => ?_⟩
    obtain ⟨loadBias', hbias', symbol, hsymbol, -, hsite⟩ := htrap
    obtain rfl := Option.some.inj (hbias.symm.trans hbias')
    exact (hdone symbol hsymbol).resolve_left List.not_mem_nil a hsite
  · exact fun _ _ h => h
  · rintro symbol rest s' ⟨hmem, hadds, hdone⟩
    have hrest : ∀ symbol ∈ rest, symbol ∈ parseFileBackedLibcIntrinsicSymbols bytes :=
      fun symbol h => hmem symbol (List.mem_cons_of_mem _ h)
    cases hsite : patchSite loadBias mapped args.length symbol.value with
    | none =>
        refine (wp_pure _).mpr ⟨hrest, hadds, fun other hother => ?_⟩
        rcases hdone other hother with hin | hdone
        · rcases List.mem_cons.mp hin with rfl | hin
          · refine .inr fun a ha => ?_
            rw [hsite] at ha
            nomatch ha
          · exact .inl hin
        · exact .inr hdone
    | some address =>
        have htrap : TrapAt bytes mapped args address symbol.intrinsic :=
          ⟨loadBias, hbias, symbol, hmem symbol List.mem_cons_self, rfl, hsite⟩
        apply wp_mono (registerLibcIntrinsicPatch_registers address symbol.intrinsic)
        swap
        · intro _ s'' h
          rwa [h]
        intro _ s'' h
        rw [h]
        refine ⟨hrest, hadds.insert htrap, fun other hother => ?_⟩
        rcases hdone other hother with hin | hdone
        · rcases List.mem_cons.mp hin with rfl | hin
          · refine .inr fun a ha => ?_
            obtain rfl := Option.some.inj (hsite.symm.trans ha)
            rw [SortedMap.get?_insert, if_pos rfl]
            rfl
          · exact .inl hin
        · refine .inr fun a ha => ?_
          rw [SortedMap.get?_insert]
          split
          · rfl
          · exact hdone a ha

/-- A file mapping that native execution traps. -/
theorem mmap_registers (hfaithful : host.Faithful) (hfit : CachesFit host s)
    (hfile : RegularFile s.files.vfs args.fd i node) (hreadable : Readable s.files.vfs args.fd)
    (hholds : node.Holds host data) (htrapped : Trapped s.native.enabled args) (hbacked : args.isAnonymous = false)
    {mapped : Nat} {machine : Memory.Machine}
    (hplaced : Memory.mmap s.files.memory.ctx args s.files.memory.machine = (.ok mapped, machine)) (pid : Nat) :
    wp (mmap host pid args)
      (fun _ s' => Adds data pid mapped args s.native.libcIntrinsicPatches s'.native.libcIntrinsicPatches ∧
        (data.length ≤ maxSymbolScanBytes → ∀ a intrinsic, TrapAt data mapped args a intrinsic →
          (s'.native.libcIntrinsicPatches.get? (toLex (pid, a))).isSome))
      (fun _ s' => Adds data pid mapped args s.native.libcIntrinsicPatches s'.native.libcIntrinsicPatches) s := by
  unfold mmap
  rw [wp_bind, wp_onMachine]
  refine wp_of_run hplaced ?_
  have hfit₁ : CachesFit host (s.setMachine machine) := ⟨hfit.wf, hfit.coherent, hfit.mappings, hfit.symbols⟩
  have hkeeps : Along KeepsPatches (populateFileBackedMmap host mapped args : SubsystemProg σ ω Unit) :=
    populateFileBackedMmap_keepsPatches mapped args
  rw [if_neg (by simp [hbacked]), wp_bind]
  apply wp_mono (wp_and ((populateFileBackedMmap_carries hfaithful mapped args).wp (s.setMachine machine))
    (hkeeps.wp (s.setMachine machine)))
  swap
  · rintro _ s₂ ⟨-, hkept⟩
    rw [hkept.1]
    exact .refl _
  rintro _ s₂ ⟨hcarried, hkept⟩
  obtain ⟨hqueried, hfit₂⟩ := hcarried hfit₁
  have hold : s.native.libcIntrinsicPatches = s₂.native.libcIntrinsicPatches := hkept.1.symm
  rw [hold, wp_bind]
  apply wp_mono (registerFileBackedLibcIntrinsicPatches_registers hfaithful hfit₂ (hfile.queried hfit.wf hqueried)
    (hreadable.queried hfit.wf hqueried) hholds (hkept.2.symm ▸ htrapped) pid mapped)
  · exact fun _ _ h => (wp_pure _).mpr h
  · exact fun _ _ h => h

/-- Any other mapping, and one that was refused its pages. -/
theorem mmap_keepsPatches (pid : Nat)
    (h : args.isAnonymous = true ∨ ¬ Trapped s.native.enabled args ∨
      ∃ e, (Memory.mmap s.files.memory.ctx args s.files.memory.machine).1 = .error e) :
    (mmap host pid args s).2.native.libcIntrinsicPatches = s.native.libcIntrinsicPatches := by
  refine wp_state (P := fun s' : RuntimeSubsystems σ ω =>
    s'.native.libcIntrinsicPatches = s.native.libcIntrinsicPatches) ?_
  unfold mmap
  rw [wp_bind, wp_onMachine]
  rcases hplaced : Memory.mmap s.files.memory.ctx args s.files.memory.machine with ⟨e | mapped, machine⟩
  · exact wp_of_error hplaced rfl
  refine wp_of_run hplaced ?_
  rw [wp_ite]
  split
  · exact (wp_pure _).mpr rfl
  rename_i hbacked
  have huntrapped : ¬ Trapped s.native.enabled args := by
    rcases h with h | h | ⟨e, he⟩
    · exact absurd h hbacked
    · exact h
    · rw [hplaced] at he
      nomatch he
  have hkeeps : Along KeepsPatches (populateFileBackedMmap host mapped args : SubsystemProg σ ω Unit) :=
    populateFileBackedMmap_keepsPatches mapped args
  rw [wp_bind]
  apply wp_mono (hkeeps.wp (s.setMachine machine))
  swap
  · exact fun _ _ hkept => hkept.1
  rintro _ s₂ hkept
  have hgate : s₂.native.enabled = false ∨ args.prot &&& linuxProtExec = 0 ∨ args.offset < 0 := by
    by_contra hgate
    rw [not_or, not_or, Bool.not_eq_false, hkept.2, not_lt] at hgate
    exact huntrapped hgate
  unfold registerFileBackedLibcIntrinsicPatches
  rw [wp_bind, wp_bind, wp_get, wp_ite, if_pos hgate, wp_pure, wp_pure]
  exact hkept.1

end Registers

/-! ### What stands in memory -/

/-- A mapping that native execution traps, and whether its `mmap` went through. -/
structure TrappedMapping where
  data : List UInt8
  mapped : Nat
  args : MmapSyscallArgs
  whole : Bool

/-- The registry of the traps, and the mapping with traps that stands at each address of each process. -/
structure TrapState where
  patches : IntrinsicPatches
  standing : Nat → Nat → Option TrappedMapping

/-- The range has something else in it. -/
def TrapState.place (s : TrapState) (pid start stop : Nat) (mapping : Option TrappedMapping) :
    Nat → Nat → Option TrappedMapping :=
  fun process a => if process = pid ∧ start ≤ a ∧ a < stop then mapping else s.standing process a

/-- The pages of a mapping that was put over libc. -/
def TrapState.stand (s : TrapState) (pid : Nat) (mapping : TrappedMapping) : Nat → Nat → Option TrappedMapping :=
  s.place pid mapping.mapped (mapping.mapped + roundUp mapping.args.length) (some mapping)

/-- A fork: the child has what its parent has. -/
def TrapState.fork (s : TrapState) (parent child : Nat) : TrapState where
  patches := inheritPatches parent child s.patches
  standing := fun process a => if process = child then s.standing parent a else s.standing process a

/-- `execve`, and the end of a process. -/
def TrapState.leave (s : TrapState) (pid : Nat) : TrapState where
  patches := dropPatches pid s.patches
  standing := fun process a => if process = pid then none else s.standing process a

/-- The registry has the functions of the mappings that stand in memory, and nothing else. -/
structure TrapState.Faithful (s : TrapState) : Prop where
  stands : ∀ pid a intrinsic, s.patches.get? (toLex (pid, a)) = some intrinsic →
    ∃ mapping, s.standing pid a = some mapping ∧ s.standing pid (a + 1) = some mapping ∧
      FunctionAt mapping.data mapping.mapped mapping.args a intrinsic
  found : ∀ pid a mapping intrinsic, s.standing pid a = some mapping → s.standing pid (a + 1) = some mapping →
    mapping.whole = true → FunctionAt mapping.data mapping.mapped mapping.args a intrinsic →
      (s.patches.get? (toLex (pid, a))).isSome

/-- No trap of the process is in the range. -/
def TrapState.Untrapped (s : TrapState) (pid start stop : Nat) : Prop :=
  ∀ a, (s.patches.get? (toLex (pid, a))).isSome → a + 2 ≤ start ∨ stop ≤ a

/-- The invariant: what stands at an address has it in its pages. -/
structure TrapState.Inv (s : TrapState) : Prop extends s.Faithful where
  within : ∀ pid a mapping, s.standing pid a = some mapping →
    mapping.mapped ≤ a ∧ a < mapping.mapped + roundUp mapping.args.length

section Steps

variable {s : TrapState} {pid process start stop a : Nat} {mapping : Option TrappedMapping}

theorem TrapState.place_inside (hlow : start ≤ a) (hhigh : a < stop) : s.place pid start stop mapping pid a = mapping :=
  if_pos ⟨rfl, hlow, hhigh⟩

theorem TrapState.place_outside (h : ¬ (process = pid ∧ start ≤ a ∧ a < stop)) :
    s.place pid start stop mapping process a = s.standing process a := if_neg h

theorem TrapState.Inv.stands_outside (hinv : s.Inv) (huntrapped : s.Untrapped pid start stop)
    {intrinsic : GuestLibcIntrinsic} (hget : s.patches.get? (toLex (process, a)) = some intrinsic) :
    ∃ standing, s.place pid start stop mapping process a = some standing ∧
      s.place pid start stop mapping process (a + 1) = some standing ∧
      FunctionAt standing.data standing.mapped standing.args a intrinsic := by
  obtain ⟨standing, hfirst, hsecond, hfunction⟩ := hinv.stands process a intrinsic hget
  have hout : process = pid → a + 2 ≤ start ∨ stop ≤ a := by
    rintro rfl
    exact huntrapped a (Option.isSome_of_eq_some hget)
  refine ⟨standing, ?_, ?_, hfunction⟩
  · rw [place_outside, hfirst]
    rintro ⟨hpid, hlow, hhigh⟩
    have := hout hpid
    omega
  · rw [place_outside, hsecond]
    rintro ⟨hpid, hlow, hhigh⟩
    have := hout hpid
    omega

theorem roundUp_le (n : Nat) : n ≤ roundUp n := by
  have hpage : Memory.guestPageSize = 4096 := rfl
  unfold roundUp
  rw [hpage]
  omega

theorem TrapState.Inv.vacate (hinv : s.Inv) (huntrapped : s.Untrapped pid start stop) :
    ({ s with standing := s.place pid start stop none } : TrapState).Inv := by
  have hstood {process a : Nat} {standing : TrappedMapping}
      (h : s.place pid start stop none process a = some standing) : s.standing process a = some standing := by
    unfold place at h
    split at h
    · exact nomatch h
    · exact h
  exact {
    stands := fun _ _ _ hget => hinv.stands_outside huntrapped hget
    found := fun process a standing intrinsic hfirst hsecond hwhole hfunction =>
      hinv.found process a standing intrinsic (hstood hfirst) (hstood hsecond) hwhole hfunction
    within := fun process a standing h => hinv.within process a standing (hstood h) }

theorem TrapState.Inv.stand (hinv : s.Inv) {new : TrappedMapping} {patches : IntrinsicPatches}
    (hadds : Adds new.data pid new.mapped new.args s.patches patches)
    (hwhole : new.whole = true → new.data.length ≤ maxSymbolScanBytes → ∀ a intrinsic,
      TrapAt new.data new.mapped new.args a intrinsic → (patches.get? (toLex (pid, a))).isSome)
    (hsafe : SafeToTrap new.data new.mapped new.args)
    (huntrapped : s.Untrapped pid new.mapped (new.mapped + roundUp new.args.length)) :
    (⟨patches, s.stand pid new⟩ : TrapState).Inv := by
  have hround := roundUp_le new.args.length
  have hplaced {process a : Nat} {standing : TrappedMapping} (h : s.stand pid new process a = some standing) :
      process = pid ∧ new.mapped ≤ a ∧ a < new.mapped + roundUp new.args.length ∧ standing = new ∨
        ¬ (process = pid ∧ new.mapped ≤ a ∧ a < new.mapped + roundUp new.args.length) ∧
          s.standing process a = some standing := by
    unfold TrapState.stand place at h
    split at h
    · rename_i hin
      exact .inl ⟨hin.1, hin.2.1, hin.2.2, (Option.some.inj h).symm⟩
    · exact .inr ⟨‹_›, h⟩
  constructor
  · constructor
    · intro process a intrinsic hget
      rcases hadds.origin _ _ hget with hget | ⟨address, hkey, htrap⟩
      · exact hinv.stands_outside huntrapped hget
      · obtain ⟨rfl, rfl⟩ := Prod.mk.inj (toLex.injective hkey)
        have hfunction : FunctionAt new.data new.mapped new.args a intrinsic := by
          have hscanned := htrap
          obtain ⟨_, _, symbol, hsymbol, _⟩ := hscanned
          have hunambiguous := hsafe symbol ((mem_parseSymbols_iff _ _).mp hsymbol)
          exact (hunambiguous.trapAt_iff a intrinsic).mp htrap
        have hlands := hfunction
        obtain ⟨_, _, _, _, _, _, _, _, _, hlow, hhigh⟩ := hlands
        refine ⟨new, ?_, ?_, hfunction⟩
        · exact place_inside (by omega) (by omega)
        · exact place_inside (by omega) (by omega)
    · intro process a standing intrinsic hfirst hsecond hthrough hfunction
      rcases hplaced hfirst with ⟨rfl, hlow, hhigh, rfl⟩ | ⟨hout, hstood⟩
      · rcases hplaced hsecond with ⟨-, -, hhigh', -⟩ | ⟨hout, hstood'⟩
        · have hscanned := hfunction
          obtain ⟨_, _, _, _, _, _, value, hsymbol, _⟩ := hscanned
          have hunambiguous := hsafe _ (hsymbol.mono (List.cons_subset_cons _ (List.nil_subset _)))
          exact hwhole hthrough hunambiguous.small a intrinsic ((hunambiguous.trapAt_iff a intrinsic).mpr hfunction)
        · -- the same mapping does not go on behind its own end
          have hwithin := hinv.within process (a + 1) _ hstood'
          omega
      · rcases hplaced hsecond with ⟨rfl, hlow, hhigh, rfl⟩ | ⟨-, hstood'⟩
        · -- nor does it begin before its own start
          have hwithin := hinv.within process a _ hstood
          omega
        · exact hadds.keeps _ (hinv.found process a standing intrinsic hstood hstood' hthrough hfunction)
  · intro process a standing h
    rcases hplaced h with ⟨-, hlow, hhigh, rfl⟩ | ⟨-, h⟩
    · exact ⟨hlow, hhigh⟩
    · exact hinv.within process a standing h

theorem TrapState.Inv.fork (hinv : s.Inv) {parent child : Nat} (hne : parent ≠ child)
    (hfresh : ∀ a, s.patches.get? (toLex (child, a)) = none) : (s.fork parent child).Inv := by
  have hget (process a : Nat) : (inheritPatches parent child s.patches).get? (toLex (process, a)) =
      s.patches.get? (toLex (if process = child then parent else process, a)) := by
    ext intrinsic
    rw [inheritPatches_get?]
    by_cases hchild : process = child
    · subst hchild
      rw [if_pos rfl, hfresh]
      constructor
      · rintro (⟨a', hkey, hget⟩ | ⟨-, hget⟩)
        · rwa [(Prod.mk.inj (toLex.injective hkey)).2]
        · exact nomatch hget
      · exact fun hget => .inl ⟨a, rfl, hget⟩
    · have hkey (a' : Nat) : toLex (process, a) ≠ toLex (child, a') :=
        fun hkey => hchild (Prod.mk.inj (toLex.injective hkey)).1
      rw [if_neg hchild]
      constructor
      · rintro (⟨a', h, -⟩ | ⟨-, hget⟩)
        · exact absurd h (hkey a')
        · exact hget
      · exact fun hget => .inr ⟨fun a' h => absurd h (hkey a'), hget⟩
  have hstanding (process a : Nat) : (s.fork parent child).standing process a =
      s.standing (if process = child then parent else process) a := by
    by_cases h : process = child
    · exact (if_pos h).trans (by rw [if_pos h])
    · exact (if_neg h).trans (by rw [if_neg h])
  constructor
  · constructor
    · intro process a intrinsic h
      obtain ⟨standing, hfirst, hsecond, hfunction⟩ := hinv.stands _ a intrinsic ((hget process a).symm.trans h)
      exact ⟨standing, (hstanding process a).trans hfirst, (hstanding process (a + 1)).trans hsecond, hfunction⟩
    · intro process a standing intrinsic hfirst hsecond hwhole hfunction
      rw [hstanding] at hfirst hsecond
      exact (congrArg Option.isSome (hget process a)).trans
        (hinv.found _ a standing intrinsic hfirst hsecond hwhole hfunction)
  · intro process a standing h
    rw [hstanding] at h
    exact hinv.within _ a standing h

theorem TrapState.Inv.leave (hinv : s.Inv) (pid : Nat) : (s.leave pid).Inv := by
  have hget {process a : Nat} {intrinsic : GuestLibcIntrinsic} :
      (dropPatches pid s.patches).get? (toLex (process, a)) = some intrinsic ↔
        s.patches.get? (toLex (process, a)) = some intrinsic ∧ process ≠ pid :=
    SortedMap.get?_filter_eq_some.trans (and_congr_right fun _ => decide_eq_true_iff)
  have hstood {process a : Nat} {standing : TrappedMapping}
      (h : (s.leave pid).standing process a = some standing) :
      process ≠ pid ∧ s.standing process a = some standing := Option.ite_none_left_eq_some.mp h
  constructor
  · constructor
    · intro process a intrinsic h
      obtain ⟨hbefore, hne⟩ := hget.mp h
      obtain ⟨standing, hfirst, hsecond, hfunction⟩ := hinv.stands process a intrinsic hbefore
      exact ⟨standing, (if_neg hne).trans hfirst, (if_neg hne).trans hsecond, hfunction⟩
    · intro process a standing intrinsic hfirst hsecond hwhole hfunction
      obtain ⟨hne, hfirst⟩ := hstood hfirst
      have hhas := hinv.found process a standing intrinsic hfirst (hstood hsecond).2 hwhole hfunction
      obtain ⟨found, hfound⟩ := Option.isSome_iff_exists.mp hhas
      exact Option.isSome_of_eq_some (hget.mpr ⟨hfound, hne⟩)
  · exact fun process a standing h => hinv.within process a standing (hstood h).2

end Steps

/-! ### Runs -/

/-- The runtime, and beside it the mapping with traps that stands at each address of each process. -/
structure TrapRuntime (σ ω : Type) where
  runtime : RuntimeSubsystems σ ω
  standing : Nat → Nat → Option TrappedMapping

/-- What happens to the traps: calls on files, mappings in any process, and native execution being turned on or off;
pages that are given back, of which the registry hears nothing; a fork; and a process that leaves its memory. -/
inductive TrapEvent
  | mapping (event : MappingEvent)
  | unmap (pid start stop : Nat)
  | fork (parent child : Nat)
  | leave (pid : Nat)

/-- The bytes of the file that is open on the descriptor. -/
def fileBytes (host : Vfs.Host) (vfs : VirtualFileSystem) (fd : Fd) : List UInt8 :=
  ((vfs.fds.entries.get? fd).bind fun entry =>
    (vfs.tree.inodes.get? entry.inodeId).bind (·.content host)).getD []

/-- `MAP_FIXED` with arguments that pass the checks of `mmap`: its range is unmapped before memory is asked for. -/
def clearsFirst (memory : ProcessMemory) (args : MmapSyscallArgs) : Bool :=
  args.isFixed && Except.isOk (do
    let _ ← Memory.GuestMemoryProtection.fromLinux args.prot
    let length ← Memory.pageRoundLength args.length
    let _ ← Memory.mmapKind args
    memory.machine.mem.mmapStart args length)

namespace TrapRuntime

variable {host : Vfs.Host} {s : TrapRuntime σ ω}

def state (s : TrapRuntime σ ω) : TrapState := ⟨s.runtime.native.libcIntrinsicPatches, s.standing⟩

def setState (s : TrapRuntime σ ω) (state : TrapState) : TrapRuntime σ ω :=
  ⟨{ s.runtime with native := { s.runtime.native with libcIntrinsicPatches := state.patches } }, state.standing⟩

/-- What stands in memory after `mmap`. -/
def mapped (host : Vfs.Host) (s : TrapRuntime σ ω) (memory : ProcessMemory) (pid : Nat) (args : MmapSyscallArgs) :
    Nat → Nat → Option TrappedMapping :=
  match (Memory.mmap memory.ctx args memory.machine).1 with
  | .ok mapped =>
    if args.isAnonymous = false ∧ Trapped s.runtime.native.enabled args then
      s.state.stand pid ⟨fileBytes host s.runtime.files.vfs args.fd, mapped, args,
        (mmap host pid args (s.runtime.select memory)).1.isOk⟩
    else s.state.place pid mapped (mapped + roundUp args.length) none
  | .error _ =>
    if clearsFirst memory args then s.state.place pid args.addr (args.addr + roundUp args.length) none else s.standing

def step (host : Vfs.Host) (s : TrapRuntime σ ω) : TrapEvent → TrapRuntime σ ω
  | .mapping (.mmap memory pid args) =>
    ⟨s.runtime.mappingStep host (.mmap memory pid args), s.mapped host memory pid args⟩
  | .mapping event => { s with runtime := s.runtime.mappingStep host event }
  | .unmap pid start stop => { s with standing := s.state.place pid start stop none }
  | .fork parent child => s.setState (s.state.fork parent child)
  | .leave pid => s.setState (s.state.leave pid)

def run (host : Vfs.Host) (s : TrapRuntime σ ω) (events : List TrapEvent) : TrapRuntime σ ω := events.foldl (step host) s

/-- No trap lies in the range that is taken. Where traps are put, the descriptor names a regular file that can be read
and is safe to trap. -/
def PlainMapping (host : Vfs.Host) (s : TrapRuntime σ ω) (memory : ProcessMemory) (pid : Nat) (args : MmapSyscallArgs) :
    Prop :=
  match (Memory.mmap memory.ctx args memory.machine).1 with
  | .ok mapped => s.state.Untrapped pid mapped (mapped + roundUp args.length) ∧
    (args.isAnonymous = false → Trapped s.runtime.native.enabled args →
      SafeToTrap (fileBytes host s.runtime.files.vfs args.fd) mapped args ∧ Readable s.runtime.files.vfs args.fd ∧
        ∃ i node, RegularFile s.runtime.files.vfs args.fd i node ∧
          node.Holds host (fileBytes host s.runtime.files.vfs args.fd))
  | .error _ => clearsFirst memory args = true → s.state.Untrapped pid args.addr (args.addr + roundUp args.length)

/-- A step that meets none of the defects: a mapping with traps is safe to trap, no range that is taken or given back
has a trap in it, a fork makes a process that has none, and a call on files leaves no stale entry in the cache of the
file system. -/
def PlainStep (host : Vfs.Host) (s : TrapRuntime σ ω) : TrapEvent → Prop
  | .mapping (.file op) => s.runtime.files.vfs.CoherentStep op
  | .mapping (.mmap memory pid args) => s.PlainMapping host memory pid args
  | .mapping (.enableNative _) => True
  | .unmap pid start stop => s.state.Untrapped pid start stop
  | .fork parent child => parent ≠ child ∧ ∀ a, s.state.patches.get? (toLex (child, a)) = none
  | .leave _ => True

def PlainRun (host : Vfs.Host) : TrapRuntime σ ω → List TrapEvent → Prop
  | _, [] => True
  | s, event :: events => s.PlainStep host event ∧ PlainRun host (s.step host event) events

/-- A runtime that has mapped nothing yet. -/
def start (vfs : VirtualFileSystem) (memory : ProcessMemory) (net : Net.NetState σ ω) (enabled : Bool) :
    TrapRuntime σ ω :=
  ⟨.start vfs memory net enabled, fun _ _ => none⟩

/-- The invariant of a run. -/
structure Inv (host : Vfs.Host) (s : TrapRuntime σ ω) : Prop extends s.state.Inv where
  fit : CachesFit host s.runtime

theorem start_inv {tree : Vfs.PathTree} (hwf : tree.Wf) (rootfs : Vfs.Rootfs) (fds : Vfs.FdTable) (shared : Vfs.Shared)
    (memory : ProcessMemory) (net : Net.NetState σ ω) (enabled : Bool) :
    Inv host (start (.fromParts rootfs tree fds shared) memory net enabled) where
  stands := fun _ _ _ h => nomatch h
  found := fun _ _ _ _ h => nomatch h
  within := fun _ _ _ h => nomatch h
  fit := start_fits hwf rootfs fds shared memory net enabled

theorem Inv.selected (hinv : s.Inv host) (memory : ProcessMemory) : CachesFit host (s.runtime.select memory) :=
  ⟨hinv.fit.wf, hinv.fit.coherent, hinv.fit.mappings, hinv.fit.symbols⟩

theorem Inv.mmap_state (hfaithful : host.Faithful) (hinv : s.Inv host) {memory : ProcessMemory} {pid : Nat}
    {args : MmapSyscallArgs} (hplain : s.PlainMapping host memory pid args) :
    (s.step host (.mapping (.mmap memory pid args))).state.Inv := by
  have hfit := hinv.selected memory
  unfold PlainMapping at hplain
  show TrapState.Inv ⟨(mmap host pid args (s.runtime.select memory)).2.native.libcIntrinsicPatches,
    s.mapped host memory pid args⟩
  unfold mapped
  rcases hplaced : Memory.mmap memory.ctx args memory.machine with ⟨e | start, machine⟩
  · rw [hplaced] at hplain
    have hkept : (mmap host pid args (s.runtime.select memory)).2.native.libcIntrinsicPatches =
        s.state.patches :=
      mmap_keepsPatches pid (.inr (.inr ⟨e, congrArg Prod.fst hplaced⟩))
    rw [hkept]
    dsimp only
    split
    · exact hinv.toInv.vacate (hplain ‹_›)
    · exact hinv.toInv
  rw [hplaced] at hplain
  obtain ⟨huntrapped, hsafe⟩ := hplain
  dsimp only
  by_cases htrapped : args.isAnonymous = false ∧ Trapped s.runtime.native.enabled args
  · rw [if_pos htrapped]
    obtain ⟨hbacked, htrapped⟩ := htrapped
    obtain ⟨hsafe, hreadable, i, node, hfile, hholds⟩ := hsafe hbacked htrapped
    have hregisters : wp (mmap host pid args) _ _ (s.runtime.select memory) :=
      mmap_registers hfaithful hfit hfile hreadable hholds htrapped hbacked hplaced pid
    rcases hrun : mmap host pid args (s.runtime.select memory) with ⟨e | start', s'⟩
    · have hadds := wp_error hregisters hrun
      refine hinv.toInv.stand hadds (fun h => ?_) hsafe huntrapped
      nomatch h
    · obtain ⟨hadds, hall⟩ := wp_ok hregisters hrun
      exact hinv.toInv.stand hadds (fun _ => hall) hsafe huntrapped
  · have hother : args.isAnonymous = true ∨ ¬ Trapped s.runtime.native.enabled args := by
      rw [not_and_or, Bool.not_eq_false] at htrapped
      exact htrapped
    have hkept : (mmap host pid args (s.runtime.select memory)).2.native.libcIntrinsicPatches =
        s.state.patches :=
      mmap_keepsPatches pid (hother.imp_right .inl)
    rw [if_neg htrapped, hkept]
    exact hinv.toInv.vacate huntrapped

theorem Inv.step (hfaithful : host.Faithful) (hinv : s.Inv host) {event : TrapEvent} (hplain : s.PlainStep host event) :
    (s.step host event).Inv host := by
  cases event with
  | mapping event =>
      have hfits (hstep : ∀ op, event = .file op → s.runtime.files.vfs.CoherentStep op) :=
        mappingStep_fits hfaithful hinv.fit hstep
      cases event with
      | file op =>
          refine ⟨hinv.toInv, hfits fun op' h => ?_⟩
          cases h
          exact hplain
      | mmap memory pid args =>
          refine ⟨hinv.mmap_state hfaithful hplain, hfits fun op h => ?_⟩
          nomatch h
      | enableNative enabled =>
          refine ⟨hinv.toInv, hfits fun op h => ?_⟩
          nomatch h
  | unmap pid start stop => exact ⟨hinv.toInv.vacate hplain, hinv.fit⟩
  | fork parent child =>
      exact ⟨hinv.toInv.fork hplain.1 hplain.2, hinv.fit.wf, hinv.fit.coherent, hinv.fit.mappings, hinv.fit.symbols⟩
  | leave pid =>
      exact ⟨hinv.toInv.leave pid, hinv.fit.wf, hinv.fit.coherent, hinv.fit.mappings, hinv.fit.symbols⟩

theorem Inv.run (hfaithful : host.Faithful) {events : List TrapEvent} (hinv : s.Inv host)
    (hplain : s.PlainRun host events) : (s.run host events).Inv host := by
  induction events generalizing s with
  | nil => exact hinv
  | cons event events ih => exact ih (hinv.step hfaithful hplain.1) hplain.2

end TrapRuntime

theorem mmap_placed {host : Vfs.Host} {s s' : RuntimeSubsystems σ ω} {pid mapped : Nat} {args : MmapSyscallArgs}
    (h : mmap host pid args s = (.ok mapped, s')) :
    (Memory.mmap s.files.memory.ctx args s.files.memory.machine).1 = .ok mapped := by
  have hspec : wp (mmap host pid args)
      (fun mapped _ => (Memory.mmap s.files.memory.ctx args s.files.memory.machine).1 = .ok mapped)
      (fun _ _ => True) s := by
    unfold mmap
    rw [wp_bind, wp_onMachine]
    rcases hplaced : Memory.mmap s.files.memory.ctx args s.files.memory.machine with ⟨e | start, machine⟩
    · exact wp_of_error hplaced trivial
    refine wp_of_run hplaced ?_
    rw [wp_ite]
    split
    · exact (wp_pure _).mpr rfl
    rw [wp_bind, wp_iff]
    refine ⟨fun _ s₁ _ => ?_, fun _ _ _ => trivial⟩
    rw [wp_bind, wp_iff]
    exact ⟨fun _ _ _ => (wp_pure _).mpr rfl, fun _ _ _ => trivial⟩
  have hplaced := wp_ok hspec h
  exact hplaced

theorem SafeToTrap.unpatched {enabled : Bool} {data : List UInt8} {mapped x : Nat} {args : MmapSyscallArgs}
    (hsafe : SafeToTrap data mapped args)
    (houtside : ∀ a intrinsic, FunctionAt data mapped args a intrinsic → ¬ (a ≤ x ∧ x < a + 2)) :
    Unpatched 2 (patchSites enabled data mapped args) x := by
  intro a ha
  unfold patchSites at ha
  split at ha
  · exact absurd ha List.not_mem_nil
  cases hbias : elfLoadBiasForMapping data args.offset.toNat mapped with
  | none =>
      rw [hbias] at ha
      exact absurd ha List.not_mem_nil
  | some loadBias =>
      rw [hbias] at ha
      obtain ⟨symbol, hsymbol, hsite⟩ := List.mem_filterMap.mp ha
      have hunambiguous := hsafe symbol ((mem_parseSymbols_iff _ _).mp hsymbol)
      exact houtside a symbol.intrinsic
        ((hunambiguous.trapAt_iff a symbol.intrinsic).mp ⟨loadBias, hbias, symbol, hsymbol, rfl, hsite⟩)

deriving instance DecidableEq for ElfLoadHeader, ElfSectionHeader, ElfSegment

/-- A file of 344 bytes, all of them one executable segment, with `memcpy` at 256. -/
def libcFile : List UInt8 :=
  elfMagic ++ [elfClass64, elfData2Lsb] ++ List.replicate 12 0 ++ toLittleEndian 2 elf64MachineX8664 ++
    List.replicate 12 0 ++ toLittleEndian 8 64 ++ toLittleEndian 8 120 ++ List.replicate 6 0 ++ toLittleEndian 2 56 ++
    toLittleEndian 2 1 ++ toLittleEndian 2 64 ++ toLittleEndian 2 3 ++ List.replicate 2 0 ++
    -- the program header
    toLittleEndian 4 elf64PtLoad ++ toLittleEndian 4 5 ++ List.replicate 24 0 ++ toLittleEndian 8 344 ++
    toLittleEndian 8 344 ++ List.replicate 8 0 ++
    -- the sections: none, the symbols at 312, their names at 336
    List.replicate 64 0 ++
    List.replicate 4 0 ++ toLittleEndian 4 elf64ShtDynsym ++ List.replicate 16 0 ++ toLittleEndian 8 312 ++
    toLittleEndian 8 24 ++ toLittleEndian 4 2 ++ List.replicate 12 0 ++ toLittleEndian 8 24 ++
    List.replicate 24 0 ++ toLittleEndian 8 336 ++ toLittleEndian 8 8 ++ List.replicate 24 0 ++
    -- one symbol, and its name
    toLittleEndian 4 1 ++ [18] ++ List.replicate 3 0 ++ toLittleEndian 8 256 ++ toLittleEndian 8 3 ++
    [0, 0x6d, 0x65, 0x6d, 0x63, 0x70, 0x79, 0]

def mapLibc : MmapSyscallArgs :=
  ⟨0, 4096, Memory.linuxProtRead ||| linuxProtExec, Memory.linuxMapPrivate, 0, 0⟩

theorem libcFile_no_resolver (symbol : FileBackedLibcIntrinsicSymbol) :
    ¬ DynamicSymbol libcFile [elf64SttGnuIfunc] symbol := by
  rintro ⟨sections, hsections, dynsym, hmem, htype, names, strtab, entries, -, -, hentries, entry, hentry, -, info, -,
    -, hinfo, hkind, -⟩
  have hlibc : elfSectionHeaders libcFile = some [⟨0, 0, 0, 0, 0⟩, ⟨11, 312, 24, 2, 24⟩, ⟨0, 336, 8, 0, 0⟩] := by
    decide +kernel
  obtain rfl := Option.some.inj (hlibc.symm.trans hsections)
  obtain rfl : dynsym = ⟨11, 312, 24, 2, 24⟩ := by
    simp only [List.mem_cons, List.not_mem_nil, or_false] at hmem
    rcases hmem with rfl | rfl | rfl
    · exact absurd htype (by decide)
    · rfl
    · exact absurd htype (by decide)
  have htypes : ∀ entries, elfRange libcFile 312 24 = some entries →
      ∀ entry ∈ chunksExact 24 entries, ∀ info, entry[4]? = some info → info.toNat % 16 = 2 := by
    intro entries hentries
    have hlibc : elfRange libcFile 312 24 = some (libcFile.drop 312 |>.take 24) := by decide +kernel
    obtain rfl := Option.some.inj (hlibc.symm.trans hentries)
    decide +kernel
  have hfunction := htypes entries hentries entry hentry info hinfo
  rw [List.mem_singleton, hfunction] at hkind
  exact absurd hkind (by decide)

theorem libcFile_safe : SafeToTrap libcFile 0x2000000 mapLibc := by
  have hlibc : elfSegments libcFile = some [⟨⟨0, 0, 344, 344⟩, 5⟩] := by decide +kernel
  intro _ _
  refine ⟨by decide +kernel, by decide, fun segments hsegments => .inr ?_⟩
  obtain rfl := Option.some.inj (hlibc.symm.trans hsegments)
  refine ⟨⟨⟨0, 0, 344, 344⟩, 5⟩, ⟨[], [], rfl, List.forall_mem_nil _, ?bounded, ?reaches⟩, ?executable, ?holds,
    ?image, ?others, fun symbol _ h => absurd h (libcFile_no_resolver symbol)⟩
  case bounded =>
      unfold ElfSegment.Bounded
      decide +kernel
  case reaches =>
      unfold ElfSegment.Reaches
      decide +kernel
  case executable => rfl
  case holds =>
      unfold ElfSegment.Holds
      decide +kernel
  case image => decide +kernel
  case others =>
      intro other hmem _ _
      rw [List.mem_singleton.mp hmem]

def openLibc : List TrapEvent :=
  [.mapping (.file (.treeMut (.createFileWithContent "/a" libcFile 0o755))),
    .mapping (.file (.openat Vfs.atFdcwd "/a" ⟨0⟩ 0))]

/-- A file system with the library open on descriptor 0, and native execution. -/
def native : TrapRuntime Unit Unit := .start VirtualFileSystem.blank freshProcessMemory ⟨.new false, ()⟩ true

def mapsLibc : TrapEvent := .mapping (.mmap freshProcessMemory 1 mapLibc)

theorem emptyHost_faithful : Vfs.Host.Faithful .empty :=
  ⟨fun _ _ h => (nomatch h), fun _ _ _ _ h => (nomatch h), fun _ _ _ _ _ h => (nomatch h)⟩

theorem openLibc_plain {events : List TrapEvent} (h : (native.run .empty openLibc).PlainRun .empty events) :
    native.PlainRun .empty (openLibc ++ events) := by
  have hfresh : native.runtime.files.vfs.tree.FreshId := by
    unfold Vfs.PathTree.FreshId
    decide +kernel
  have hopens : ∀ vfs : VirtualFileSystem, ¬ vfs.StopsOpening (.openat Vfs.atFdcwd "/a" ⟨0⟩ 0) := by
    intro vfs h
    obtain ⟨_, _, ⟨h, _⟩ | ⟨h, _⟩⟩ := h
    · nomatch h
    · nomatch h
  refine ⟨?_, ?_, h⟩
  · exact ⟨hfresh, id, id, trivial, VirtualFileSystem.keyGeneration_room (by decide +kernel) (by decide +kernel)⟩
  · exact ⟨fun h => (nomatch h), id, hopens _, trivial,
      VirtualFileSystem.keyGeneration_room (by decide +kernel) (by decide +kernel)⟩

theorem mapsLibc_plain : (native.run .empty openLibc).PlainMapping .empty freshProcessMemory 1 mapLibc := by
  have hplaced : (Memory.mmap freshProcessMemory.ctx mapLibc freshProcessMemory.machine).1 = .ok 0x2000000 := by
    decide +kernel
  have hbytes : fileBytes .empty (native.run .empty openLibc).runtime.files.vfs 0 = libcFile := by decide +kernel
  obtain ⟨entry, hentry, hopen⟩ := Option.map_eq_some_iff.mp
    (show ((native.run .empty openLibc).runtime.files.vfs.fds.entries.get? 0).map (fun entry =>
      (entry.inodeId, entry.file.kind,
        ((native.run .empty openLibc).runtime.files.vfs.shared.description entry.description).flags.canRead)) =
          some (2, .regular, true) by decide +kernel)
  obtain ⟨node, hnode, hdata⟩ := Option.map_eq_some_iff.mp
    (show ((native.run .empty openLibc).runtime.files.vfs.tree.inodes.get? 2).map
      (fun node => (node.kind, node.content .empty, node.attr.size, node.attr.isDirectory)) =
        some (.file, some libcFile, libcFile.length, false) by decide +kernel)
  simp only [Prod.mk.injEq] at hopen hdata
  obtain ⟨hid, hregular, hread⟩ := hopen
  obtain ⟨hfile, hcontent, hsize, hdir⟩ := hdata
  unfold TrapRuntime.PlainMapping
  rw [hplaced]
  refine ⟨fun a h => absurd h Bool.false_ne_true, fun _ _ => ⟨?_, ⟨entry, hentry, hread⟩, 2, node, ?_, ?_⟩⟩
  · exact hbytes ▸ libcFile_safe
  · exact ⟨⟨entry, hentry, hid, hregular⟩, hnode, hfile⟩
  · exact hbytes ▸ ⟨hcontent, hsize, hdir, by decide +kernel⟩

theorem mapsLibc_patches : (native.run .empty (openLibc ++ [mapsLibc])).state.patches.entries =
    [(toLex (1, 0x2000100), .memcpy)] := by
  decide +kernel

end Mcr.Runtime
