import Mcr.Lib.LittleEndian
import Mcr.Runtime.FileMappings

/-!
# Where the traps over libc belong

The run-time address of a dynamic symbol follows from the executable segment that the mapped part of the file belongs
to. `elf_load_bias_for_mapping` does not look at the flags of a segment, it takes the first one whose pages in memory
reach the offset, and the scan takes the resolver of an IFUNC symbol for the function. Where neither matters the traps
go to the functions of the file and to nothing else.
-/

namespace Mcr.Runtime

open Memory (MmapSyscallArgs checkedAdd guestPageSize u64Limit)

/-! ### Segments -/

structure ElfSegment where
  header : ElfLoadHeader
  flags : Nat

/-- One entry of the program header table, as `elfLoadHeader` reads it, with the word of its flags. -/
def elfSegment (bytes : List UInt8) (programOffset entrySize index : Nat) : Option (Option ElfSegment) :=
  (elfLoadHeader bytes programOffset entrySize index).map
    (·.map (⟨·, elfField bytes (programOffset + index * entrySize + 4) 4⟩))

def elfSegments (bytes : List UInt8) : Option (List ElfSegment) := do
  let _ ← validateElf64Header bytes
  let programOffset ← elfNumber 8 bytes 32
  let entrySize ← elfNumber 2 bytes 54
  let count ← elfNumber 2 bytes 56
  if entrySize < 56 then none
  else do
    let segments ← (List.range count).mapM (elfSegment bytes programOffset entrySize)
    pure (segments.filterMap id)

def roundUp (n : Nat) : Nat := (n + (guestPageSize - 1)) / guestPageSize * guestPageSize

/-- `PF_X`. -/
def ElfSegment.Executable (segment : ElfSegment) : Prop := segment.flags % 2 = 1

/-- The file offset lies in the pages of the file that the segment takes up. -/
def ElfSegment.Holds (segment : ElfSegment) (offset : Nat) : Prop :=
  elfAlignDown segment.header.fileOffset guestPageSize ≤ offset ∧
    offset < roundUp (segment.header.fileOffset + segment.header.fileSize)

/-- The file offset lies in the pages that the segment takes up, were all its memory in the file. -/
def ElfSegment.Reaches (segment : ElfSegment) (offset : Nat) : Prop :=
  elfAlignDown segment.header.fileOffset guestPageSize ≤ offset ∧
    offset < roundUp (segment.header.fileOffset + max segment.header.fileSize segment.header.memorySize)

/-- The segment ends below the last page of the 64-bit range. -/
def ElfSegment.Bounded (segment : ElfSegment) : Prop :=
  segment.header.fileOffset + max segment.header.fileSize segment.header.memorySize + guestPageSize ≤ u64Limit

def ElfSegment.imageAddress (segment : ElfSegment) (offset : Nat) : Nat :=
  elfAlignDown segment.header.virtualAddress guestPageSize +
    (offset - elfAlignDown segment.header.fileOffset guestPageSize)

theorem mapM_map_some {α β γ : Type} (f : α → Option β) (g : β → γ) (l : List α) :
    l.mapM (fun a => (f a).map g) = (l.mapM f).map (·.map g) := by
  induction l with
  | nil => rfl
  | cons a l ih =>
      rw [List.mapM_cons, List.mapM_cons, ih]
      cases f a with
      | none => rfl
      | some b =>
          cases l.mapM f with
          | none => rfl
          | some bs => rfl

theorem elfLoadHeader_eq (bytes : List UInt8) (programOffset entrySize index : Nat) :
    elfLoadHeader bytes programOffset entrySize index =
      (elfSegment bytes programOffset entrySize index).map (·.map (·.header)) := by
  unfold elfSegment
  rcases elfLoadHeader bytes programOffset entrySize index with _ | _ | load
  · rfl
  · rfl
  · rfl

theorem elfLoadHeaders_eq (bytes : List UInt8) :
    elfLoadHeaders bytes = (elfSegments bytes).map (·.map (·.header)) := by
  have hheaders (programOffset entrySize count : Nat) :
      (List.range count).mapM (elfLoadHeader bytes programOffset entrySize) =
        ((List.range count).mapM (elfSegment bytes programOffset entrySize)).map
          (·.map (·.map (·.header))) := by
    rw [← mapM_map_some]
    exact congrArg (List.mapM · _) (funext fun index => elfLoadHeader_eq bytes programOffset entrySize index)
  simp only [elfLoadHeaders, elfSegments, Option.bind_eq_bind, hheaders]
  cases validateElf64Header bytes with
  | none => rfl
  | some _ =>
  cases elfNumber 8 bytes 32 with
  | none => rfl
  | some programOffset =>
  cases elfNumber 2 bytes 54 with
  | none => rfl
  | some entrySize =>
  cases elfNumber 2 bytes 56 with
  | none => rfl
  | some count =>
  simp only [Option.bind_some]
  split
  · rfl
  · cases (List.range count).mapM (elfSegment bytes programOffset entrySize) with
    | none => rfl
    | some segments =>
        have hloads : (segments.map (·.map (·.header))).filterMap id = (segments.filterMap id).map (·.header) := by
          rw [List.filterMap_map, List.map_filterMap]
          rfl
        exact congrArg some hloads

/-! ### Symbols -/

/-- An entry of a symbol table that names a libc function, of one of some types. -/
def SymbolEntry (strtab entry : List UInt8) (types : List Nat) (symbol : FileBackedLibcIntrinsicSymbol) : Prop :=
  ∃ nameOffset info name, elfNumber 4 entry 0 = some nameOffset ∧ entry[4]? = some info ∧
    info.toNat % 16 ∈ types ∧ elfNumber 8 entry 8 = some symbol.value ∧ symbol.value ≠ 0 ∧
    elfCstr strtab nameOffset = some name ∧ GuestLibcIntrinsic.fromSymbolName name = some symbol.intrinsic

def DynamicSymbol (data : List UInt8) (types : List Nat) (symbol : FileBackedLibcIntrinsicSymbol) : Prop :=
  ∃ sections, elfSectionHeaders data = some sections ∧ ∃ dynsym ∈ sections, dynsym.sectionType = elf64ShtDynsym ∧
    ∃ names strtab entries, sections[dynsym.link]? = some names ∧
      elfRange data names.offset names.size = some strtab ∧ elfRange data dynsym.offset dynsym.size = some entries ∧
      ∃ entry ∈ chunksExact (max elf64SymbolSize dynsym.entrySize) entries, SymbolEntry strtab entry types symbol

theorem parseSymbol_eq_some_iff (entry strtab : List UInt8) (symbol : FileBackedLibcIntrinsicSymbol) :
    parseFileBackedLibcIntrinsicSymbol entry strtab = some symbol ↔
      SymbolEntry strtab entry [elf64SttFunc, elf64SttGnuIfunc] symbol := by
  obtain ⟨value, intrinsic⟩ := symbol
  have htypes (n : Nat) : ¬ (n ≠ elf64SttFunc ∧ n ≠ elf64SttGnuIfunc) ↔ n ∈ [elf64SttFunc, elf64SttGnuIfunc] := by
    rw [List.mem_pair]
    exact not_and_or.trans (or_congr not_not not_not)
  simp only [parseFileBackedLibcIntrinsicSymbol, Option.bind_eq_bind, Option.bind_eq_some_iff,
    Option.ite_none_left_eq_some, Option.pure_def, Option.some.injEq, FileBackedLibcIntrinsicSymbol.mk.injEq, htypes]
  constructor
  · rintro ⟨nameOffset, hoffset, info, hinfo, htype, v, hvalue, hne, name, hname, found, hfound, rfl, rfl⟩
    exact ⟨nameOffset, info, name, hoffset, hinfo, htype, hvalue, hne, hname, hfound⟩
  · rintro ⟨nameOffset, info, name, hoffset, hinfo, htype, hvalue, hne, hname, hfound⟩
    exact ⟨nameOffset, hoffset, info, hinfo, htype, value, hvalue, hne, name, hname, intrinsic, hfound, rfl, rfl⟩

theorem mem_dynsymSymbols_iff (data : List UInt8) (sections : List ElfSectionHeader) (dynsym : ElfSectionHeader)
    (symbol : FileBackedLibcIntrinsicSymbol) : symbol ∈ dynsymSymbols data sections dynsym ↔
      ∃ names strtab entries, sections[dynsym.link]? = some names ∧
        elfRange data names.offset names.size = some strtab ∧ elfRange data dynsym.offset dynsym.size = some entries ∧
        ∃ entry ∈ chunksExact (max elf64SymbolSize dynsym.entrySize) entries,
          SymbolEntry strtab entry [elf64SttFunc, elf64SttGnuIfunc] symbol := by
  have hsize : (if elf64SymbolSize ≤ dynsym.entrySize then dynsym.entrySize else elf64SymbolSize) =
      max elf64SymbolSize dynsym.entrySize := Nat.max_def.symm
  unfold dynsymSymbols
  rw [hsize]
  cases hnames : sections[dynsym.link]? with
  | none => simp
  | some names =>
  cases hstrtab : elfRange data names.offset names.size with
  | none => simp [hstrtab]
  | some strtab =>
  cases hentries : elfRange data dynsym.offset dynsym.size with
  | none => simp [hstrtab]
  | some entries => simp [hstrtab, List.mem_filterMap, parseSymbol_eq_some_iff]

/-- The scan finds functions and resolvers. -/
theorem mem_parseSymbols_iff (data : List UInt8) (symbol : FileBackedLibcIntrinsicSymbol) :
    symbol ∈ parseFileBackedLibcIntrinsicSymbols data ↔
      DynamicSymbol data [elf64SttFunc, elf64SttGnuIfunc] symbol := by
  unfold parseFileBackedLibcIntrinsicSymbols DynamicSymbol
  cases elfSectionHeaders data with
  | none => simp
  | some sections =>
      simp only [List.mem_flatMap, List.mem_filter, decide_eq_true_eq, mem_dynsymSymbols_iff, Option.some.injEq,
        exists_eq_left', and_assoc]

theorem DynamicSymbol.mono {data : List UInt8} {types types' : List Nat} {symbol : FileBackedLibcIntrinsicSymbol}
    (h : DynamicSymbol data types symbol) (hsub : types ⊆ types') : DynamicSymbol data types' symbol := by
  obtain ⟨sections, hsections, dynsym, hmem, htype, names, strtab, entries, hnames, hstrtab, hentries, entry, hentry,
    nameOffset, info, name, hoffset, hinfo, hkind, hrest⟩ := h
  exact ⟨sections, hsections, dynsym, hmem, htype, names, strtab, entries, hnames, hstrtab, hentries, entry, hentry,
    nameOffset, info, name, hoffset, hinfo, hsub hkind, hrest⟩

theorem DynamicSymbol.split {data : List UInt8} {symbol : FileBackedLibcIntrinsicSymbol} {a b : Nat}
    (h : DynamicSymbol data [a, b] symbol) : DynamicSymbol data [a] symbol ∨ DynamicSymbol data [b] symbol := by
  obtain ⟨sections, hsections, dynsym, hmem, htype, names, strtab, entries, hnames, hstrtab, hentries, entry, hentry,
    nameOffset, info, name, hoffset, hinfo, hkind, hrest⟩ := h
  rcases List.mem_pair.mp hkind with hkind | hkind
  · exact .inl ⟨sections, hsections, dynsym, hmem, htype, names, strtab, entries, hnames, hstrtab, hentries, entry,
      hentry, nameOffset, info, name, hoffset, hinfo, List.mem_singleton.mpr hkind, hrest⟩
  · exact .inr ⟨sections, hsections, dynsym, hmem, htype, names, strtab, entries, hnames, hstrtab, hentries, entry,
      hentry, nameOffset, info, name, hoffset, hinfo, List.mem_singleton.mpr hkind, hrest⟩

/-! ### The load bias -/

theorem alignUpChecked_eq_some_iff {n m : Nat} : alignUpChecked n guestPageSize = some m ↔
    m = roundUp n ∧ (n % guestPageSize = 0 ∨ m < u64Limit) := by
  have hpage : guestPageSize = 4096 := rfl
  unfold alignUpChecked checkedAdd roundUp
  rw [hpage]
  by_cases haligned : n % 4096 = 0
  · rw [if_pos haligned, Option.some.injEq]
    omega
  · rw [if_neg haligned, Option.ite_none_right_eq_some, Option.some.injEq]
    omega

theorem alignUpChecked_of_bounded {n : Nat} (h : n + guestPageSize ≤ u64Limit) :
    alignUpChecked n guestPageSize = some (roundUp n) := by
  have hpage : guestPageSize = 4096 := rfl
  refine alignUpChecked_eq_some_iff.mpr ⟨rfl, .inr ?_⟩
  unfold roundUp
  rw [hpage] at h ⊢
  omega

/-- The first segment that reaches the offset, after some that do not. -/
def FirstReaching (segments : List ElfSegment) (offset : Nat) (segment : ElfSegment) : Prop :=
  ∃ before after, segments = before ++ segment :: after ∧
    (∀ earlier ∈ before, earlier.Bounded ∧ ¬ earlier.Reaches offset) ∧ segment.Bounded ∧ segment.Reaches offset

theorem ElfSegment.Bounded.stop {segment : ElfSegment} (h : segment.Bounded) :
    checkedAdd segment.header.fileOffset (max segment.header.fileSize segment.header.memorySize) =
      some (segment.header.fileOffset + max segment.header.fileSize segment.header.memorySize) := by
  have hpage : 0 < guestPageSize := by decide
  unfold Bounded at h
  exact if_pos (by omega)

theorem ElfSegment.outside {segment : ElfSegment} {offset : Nat} (h : ¬ segment.Reaches offset) :
    offset < elfAlignDown segment.header.fileOffset guestPageSize ∨
      roundUp (segment.header.fileOffset + max segment.header.fileSize segment.header.memorySize) ≤ offset :=
  Decidable.or_iff_not_not_and_not.mpr fun hreaches => h ⟨not_lt.mp hreaches.1, not_le.mp hreaches.2⟩

theorem loadBiasFrom_skip {segment : ElfSegment} {offset : Nat} (h : ¬ segment.Reaches offset) (mapped : Nat)
    (rest : List ElfLoadHeader) : loadBiasFrom offset mapped (segment.header :: rest) = none ∨
      loadBiasFrom offset mapped (segment.header :: rest) = loadBiasFrom offset mapped rest := by
  simp only [loadBiasFrom, Option.bind_eq_bind]
  cases hstop : checkedAdd segment.header.fileOffset (max segment.header.fileSize segment.header.memorySize) with
  | none => exact .inl rfl
  | some stop =>
  cases hup : alignUpChecked stop guestPageSize with
  | none => exact .inl (by rw [Option.bind_some, hup]; rfl)
  | some stop' =>
      obtain ⟨-, hsum⟩ := Option.ite_none_right_eq_some.mp hstop
      obtain rfl := Option.some.inj hsum
      obtain ⟨rfl, -⟩ := alignUpChecked_eq_some_iff.mp hup
      rw [Option.bind_some, hup, Option.bind_some, if_pos (ElfSegment.outside h)]
      exact .inr rfl

theorem loadBiasFrom_skip_bounded {segment : ElfSegment} {offset : Nat} (hbounded : segment.Bounded)
    (h : ¬ segment.Reaches offset) (mapped : Nat) (rest : List ElfLoadHeader) :
    loadBiasFrom offset mapped (segment.header :: rest) = loadBiasFrom offset mapped rest := by
  simp only [loadBiasFrom, Option.bind_eq_bind]
  rw [hbounded.stop, Option.bind_some, alignUpChecked_of_bounded hbounded, Option.bind_some,
    if_pos (ElfSegment.outside h)]

theorem loadBiasFrom_take {segment : ElfSegment} {offset mapped : Nat} (hbounded : segment.Bounded)
    (h : segment.Reaches offset) (himage : segment.imageAddress offset ≤ mapped) (hmapped : mapped < u64Limit)
    (rest : List ElfLoadHeader) :
    loadBiasFrom offset mapped (segment.header :: rest) = some (mapped - segment.imageAddress offset) := by
  have hskipped : checkedSub offset (elfAlignDown segment.header.fileOffset guestPageSize) =
      some (offset - elfAlignDown segment.header.fileOffset guestPageSize) := if_pos h.1
  have haddress : checkedAdd (elfAlignDown segment.header.virtualAddress guestPageSize)
      (offset - elfAlignDown segment.header.fileOffset guestPageSize) = some (segment.imageAddress offset) :=
    if_pos (Nat.lt_of_le_of_lt himage hmapped)
  simp only [loadBiasFrom, Option.bind_eq_bind]
  rw [hbounded.stop, Option.bind_some, alignUpChecked_of_bounded hbounded, Option.bind_some,
    if_neg (not_or.mpr ⟨not_lt.mpr h.1, not_le.mpr h.2⟩), hskipped, Option.bind_some, haddress]
  exact if_pos himage

theorem loadBiasFrom_none {segments : List ElfSegment} {offset : Nat}
    (h : ∀ segment ∈ segments, ¬ segment.Reaches offset) (mapped : Nat) :
    loadBiasFrom offset mapped (segments.map (·.header)) = none := by
  induction segments with
  | nil => rfl
  | cons segment segments ih =>
      obtain ⟨hsegment, hrest⟩ := List.forall_mem_cons.mp h
      rw [List.map_cons]
      rcases loadBiasFrom_skip hsegment mapped (segments.map (·.header)) with hskip | hskip
      · exact hskip
      · exact hskip.trans (ih hrest)

theorem loadBiasFrom_eq {segments : List ElfSegment} {segment : ElfSegment} {offset mapped : Nat}
    (h : FirstReaching segments offset segment) (himage : segment.imageAddress offset ≤ mapped)
    (hmapped : mapped < u64Limit) :
    loadBiasFrom offset mapped (segments.map (·.header)) = some (mapped - segment.imageAddress offset) := by
  obtain ⟨before, after, rfl, hbefore, hbounded, hreaches⟩ := h
  induction before with
  | nil => exact loadBiasFrom_take hbounded hreaches himage hmapped _
  | cons earlier before ih =>
      obtain ⟨⟨hearlier, hnot⟩, hrest⟩ := List.forall_mem_cons.mp hbefore
      rw [List.cons_append, List.map_cons, loadBiasFrom_skip_bounded hearlier hnot]
      exact ih hrest

/-! ### The functions of a mapping -/

section Mapping

variable (data : List UInt8) (mapped : Nat) (args : MmapSyscallArgs)

/-- A symbol of this value stands at an address, with both bytes that a trap takes in the mapping. -/
def Lands (segment : ElfSegment) (value a : Nat) : Prop :=
  a + segment.imageAddress args.offset.toNat = mapped + value ∧ mapped ≤ a ∧ a + 2 ≤ mapped + args.length

/-- A libc function of the mapped file stands at the address. -/
def FunctionAt (a : Nat) (intrinsic : GuestLibcIntrinsic) : Prop :=
  ∃ segments, elfSegments data = some segments ∧ ∃ segment ∈ segments, segment.Executable ∧
    segment.Holds args.offset.toNat ∧ ∃ value, DynamicSymbol data [elf64SttFunc] ⟨value, intrinsic⟩ ∧
      Lands mapped args segment value a

/-- The code puts the trap of a libc function at the address. -/
def TrapAt (a : Nat) (intrinsic : GuestLibcIntrinsic) : Prop :=
  ∃ loadBias, elfLoadBiasForMapping data args.offset.toNat mapped = some loadBias ∧
    ∃ symbol ∈ parseFileBackedLibcIntrinsicSymbols data, symbol.intrinsic = intrinsic ∧
      patchSite loadBias mapped args.length symbol.value = some a

/-- The mapped part of the file tells the load bias: nothing reaches it, or the first segment that reaches it is
executable, has it in the file and does not stand above the mapping, no other executable segment says otherwise, and
no resolver of a libc function is in the mapping. -/
structure Unambiguous : Prop where
  small : data.length ≤ maxSymbolScanBytes
  bounded : mapped + args.length + 1 < u64Limit
  segment : ∀ segments, elfSegments data = some segments →
    (∀ segment ∈ segments, ¬ segment.Reaches args.offset.toNat) ∨
    ∃ segment, FirstReaching segments args.offset.toNat segment ∧ segment.Executable ∧
      segment.Holds args.offset.toNat ∧ segment.imageAddress args.offset.toNat ≤ mapped ∧
      (∀ other ∈ segments, other.Executable → other.Holds args.offset.toNat →
        other.imageAddress args.offset.toNat = segment.imageAddress args.offset.toNat) ∧
      ∀ symbol a, DynamicSymbol data [elf64SttGnuIfunc] symbol → ¬ Lands mapped args segment symbol.value a

/-- The mapping is unambiguous, or there is no libc function in its file. -/
def SafeToTrap : Prop :=
  ∀ symbol, DynamicSymbol data [elf64SttFunc, elf64SttGnuIfunc] symbol → Unambiguous data mapped args

variable {data mapped args}

theorem ElfSegment.Holds.reaches {segment : ElfSegment} {offset : Nat} (h : segment.Holds offset) :
    segment.Reaches offset := by
  have hle : roundUp (segment.header.fileOffset + segment.header.fileSize) ≤
      roundUp (segment.header.fileOffset + max segment.header.fileSize segment.header.memorySize) := by
    unfold roundUp
    exact Nat.mul_le_mul_right _ (Nat.div_le_div_right (by omega))
  exact ⟨h.1, Nat.lt_of_lt_of_le h.2 hle⟩

theorem patchSite_eq_some_iff {loadBias length value a : Nat} (hbounded : mapped + length + 1 < u64Limit) :
    patchSite loadBias mapped length value = some a ↔
      a = loadBias + value ∧ mapped ≤ a ∧ a + 2 ≤ mapped + length := by
  unfold patchSite checkedAdd
  by_cases hsum : loadBias + value < u64Limit
  · rw [if_pos hsum]
    simp only [Option.ite_none_left_eq_some, Option.some.injEq]
    omega
  · rw [if_neg hsum]
    simp only [reduceCtorEq, false_iff]
    omega

theorem elfLoadBias_eq {segments : List ElfSegment} (h : elfSegments data = some segments) :
    elfLoadBiasForMapping data args.offset.toNat mapped =
      loadBiasFrom args.offset.toNat mapped (segments.map (·.header)) := by
  rw [elfLoadBiasForMapping, elfLoadHeaders_eq, h]
  rfl

theorem FirstReaching.mem {segments : List ElfSegment} {offset : Nat} {segment : ElfSegment}
    (h : FirstReaching segments offset segment) : segment ∈ segments := by
  obtain ⟨before, after, rfl, -⟩ := h
  exact List.mem_append_right _ List.mem_cons_self

/-- Where the mapping tells the load bias, the traps go to the functions of the file. -/
theorem Unambiguous.trapAt_iff (h : Unambiguous data mapped args) (a : Nat) (intrinsic : GuestLibcIntrinsic) :
    TrapAt data mapped args a intrinsic ↔ FunctionAt data mapped args a intrinsic := by
  have hmapped : mapped < u64Limit := by have := h.bounded; omega
  constructor
  · rintro ⟨loadBias, hbias, symbol, hsymbol, rfl, hsite⟩
    obtain ⟨segments, hsegments⟩ : ∃ segments, elfSegments data = some segments := by
      cases hsegments : elfSegments data with
      | none =>
          rw [elfLoadBiasForMapping, elfLoadHeaders_eq, hsegments] at hbias
          exact nomatch hbias
      | some segments => exact ⟨segments, rfl⟩
    rw [elfLoadBias_eq hsegments] at hbias
    rcases h.segment segments hsegments with hnone | ⟨segment, hfirst, hexec, hholds, himage, -, hresolvers⟩
    · exact nomatch (loadBiasFrom_none hnone mapped).symm.trans hbias
    obtain rfl := Option.some.inj ((loadBiasFrom_eq hfirst himage hmapped).symm.trans hbias)
    obtain ⟨rfl, hlow, hhigh⟩ := (patchSite_eq_some_iff h.bounded).mp hsite
    have hlands : Lands mapped args segment symbol.value
        (mapped - segment.imageAddress args.offset.toNat + symbol.value) := ⟨by omega, hlow, hhigh⟩
    rcases ((mem_parseSymbols_iff _ _).mp hsymbol).split with hfunction | hresolver
    · exact ⟨segments, hsegments, segment, hfirst.mem, hexec, hholds, symbol.value, hfunction, hlands⟩
    · exact absurd hlands (hresolvers symbol _ hresolver)
  · rintro ⟨segments, hsegments, other, hmem, hexec, hholds, value, hfunction, haddress, hlow, hhigh⟩
    rcases h.segment segments hsegments with hnone | ⟨segment, hfirst, -, -, himage, hsame, -⟩
    · exact absurd hholds.reaches (hnone other hmem)
    rw [hsame other hmem hexec hholds] at haddress
    have hsite : patchSite (mapped - segment.imageAddress args.offset.toNat) mapped args.length value = some a :=
      (patchSite_eq_some_iff h.bounded).mpr ⟨by omega, hlow, hhigh⟩
    refine ⟨_, (elfLoadBias_eq hsegments).trans (loadBiasFrom_eq hfirst himage hmapped), ⟨value, intrinsic⟩, ?_, rfl,
      hsite⟩
    exact (mem_parseSymbols_iff _ _).mpr (hfunction.mono (List.cons_subset_cons _ (List.nil_subset _)))

end Mapping

end Mcr.Runtime
