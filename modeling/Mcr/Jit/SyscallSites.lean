import Mcr.Jit.PatchMetadata

/-!
# Syscall instructions and their patches

The code of a guest is decoded from front to back, and each `syscall` instruction is overwritten by a trap. The search
stops behind the last pair of bytes that could be one. After the trap the guest goes on two bytes behind it, which is
the next instruction only if the `syscall` had no prefix.
-/

namespace Mcr.Jit

/-- `iced_x86::Instruction`, as far as it is looked at. -/
structure Instruction where
  len : Nat
  isInvalid : Bool
  isSyscall : Bool
  /-- `memory_segment() == Register::FS` -/
  isFsRelative : Bool
deriving DecidableEq, Repr

/-- `iced_x86::Decoder`: each instruction is a function of the bytes that are left, takes some of them, and is a
`syscall` only where the opcode `0f 05` is among those it takes. -/
structure Decoder where
  decode : List UInt8 → Instruction
  len_pos : ∀ bytes, bytes ≠ [] → 1 ≤ (decode bytes).len
  len_le : ∀ bytes, bytes ≠ [] → (decode bytes).len ≤ bytes.length
  syscall_opcode : ∀ bytes, bytes ≠ [] → (decode bytes).isSyscall = true →
    [0x0f, 0x05] <:+: bytes.take (decode bytes).len

inductive DecodedMnemonic
  | syscall
  | other
deriving DecidableEq, Repr

structure DecodedInstruction where
  rip : U64
  len : Nat
  mnemonic : DecodedMnemonic
deriving DecidableEq, Repr

structure SyscallSite where
  rip : U64
  nextRip : U64
deriving DecidableEq, Repr

/-- A slice is no longer than `isize::MAX`. -/
structure GuestBlock where
  bytes : List UInt8
  rip : U64
  len_lt : bytes.length < 2 ^ 63

def lenAsU64 (len : Nat) : U64 := Fin.ofNat (2 ^ 64) len

def decodedMnemonic (instruction : Instruction) : DecodedMnemonic :=
  if instruction.isSyscall then .syscall else .other

section Scan

variable (decoder : Decoder)

def Decoder.at (block : GuestBlock) (position : Nat) : Instruction := decoder.decode (block.bytes.drop position)

theorem Decoder.at_len {block : GuestBlock} {position : Nat} (h : position < block.bytes.length) :
    1 ≤ (decoder.at block position).len ∧ position + (decoder.at block position).len ≤ block.bytes.length := by
  have hrest : block.bytes.drop position ≠ [] := by
    rw [ne_eq, List.drop_eq_nil_iff]
    omega
  have hle := decoder.len_le _ hrest
  rw [List.length_drop] at hle
  exact ⟨decoder.len_pos _ hrest, by unfold Decoder.at; omega⟩

/-- The loop of `LinearInstructionScanner::scan`. -/
def scanFrom (block : GuestBlock) (position : Nat) : List DecodedInstruction :=
  if h : position < block.bytes.length then
    have := decoder.at_len h
    let instruction := decoder.at block position
    let rest := scanFrom block (position + instruction.len)
    if instruction.isInvalid then rest
    else ⟨block.rip + lenAsU64 position, instruction.len, decodedMnemonic instruction⟩ :: rest
  else []
termination_by block.bytes.length - position

def scan (block : GuestBlock) : List DecodedInstruction := scanFrom decoder block 0

def lastSyscallBytePair (bytes : List UInt8) : Option Nat :=
  (List.range (bytes.length - 1)).reverse.find? fun i => bytes[i]? = some 0x0f ∧ bytes[i + 1]? = some 0x05

/-- The loop of `syscall_instruction_sites`, which ends behind the last candidate. -/
def sitesFrom (block : GuestBlock) (lastCandidate position : Nat) : List SyscallSite :=
  if h : position < block.bytes.length then
    have := decoder.at_len h
    let instruction := decoder.at block position
    let ip := block.rip + lenAsU64 position
    let rest := if lastCandidate < position + instruction.len then []
      else sitesFrom block lastCandidate (position + instruction.len)
    if instruction.isInvalid = false ∧ instruction.isSyscall = true then
      ⟨ip, ip + lenAsU64 instruction.len⟩ :: rest
    else rest
  else []
termination_by block.bytes.length - position

def syscallInstructionSites (block : GuestBlock) : List SyscallSite :=
  match lastSyscallBytePair block.bytes with
  | none => []
  | some lastCandidate => sitesFrom decoder block lastCandidate 0

end Scan

def executableSyscallPatchWrites (patches : List ExecutableSyscallPatch) : List (U64 × List UInt8) :=
  patches.map fun patch => (patch.address, [0xcc, 0x90])

/-- The site that a trap at `rip` is taken for, whatever instruction was there. -/
def trapSite (rip : U64) : SyscallSite := ⟨rip, rip + 2⟩

/-! ### Early stop -/

/-- The opcode of `syscall` stands at `i`. -/
def PairAt (bytes : List UInt8) (i : Nat) : Prop := bytes[i]? = some 0x0f ∧ bytes[i + 1]? = some 0x05

theorem lastSyscallBytePair_eq_none {bytes : List UInt8} (h : lastSyscallBytePair bytes = none) (i : Nat) :
    ¬PairAt bytes i := by
  intro hpair
  obtain ⟨hlt, -⟩ := List.getElem?_eq_some_iff.mp hpair.2
  rw [lastSyscallBytePair, List.find?_eq_none] at h
  exact h i (List.mem_reverse.mpr (List.mem_range.mpr (by omega))) (decide_eq_true hpair)

theorem le_lastSyscallBytePair {bytes : List UInt8} {last i : Nat} (h : lastSyscallBytePair bytes = some last)
    (hpair : PairAt bytes i) : i ≤ last := by
  obtain ⟨hlt, -⟩ := List.getElem?_eq_some_iff.mp hpair.2
  obtain ⟨-, before, after, hrange, hbefore⟩ := List.find?_eq_some_iff_append.mp h
  have hmem : i ∈ before ++ last :: after :=
    hrange ▸ List.mem_reverse.mpr (List.mem_range.mpr (by omega))
  have hsorted : (before ++ last :: after).Pairwise (· > ·) := by
    rw [← hrange, List.pairwise_reverse]
    exact List.pairwise_lt_range
  rcases List.mem_append.mp hmem with hi | hi
  · have hnot := hbefore i hi
    rw [Bool.not_eq_true', decide_eq_false_iff_not] at hnot
    exact absurd hpair hnot
  · rcases List.mem_cons.mp hi with rfl | hi
    · exact Nat.le_refl _
    · exact Nat.le_of_lt ((List.pairwise_cons.mp (List.pairwise_append.mp hsorted).2.1).1 i hi)

variable {decoder : Decoder} {block : GuestBlock}

theorem pairAt_of_isSyscall {position : Nat} (h : position < block.bytes.length)
    (hsyscall : (decoder.at block position).isSyscall = true) :
    ∃ i, position ≤ i ∧ PairAt block.bytes i := by
  have hrest : block.bytes.drop position ≠ [] := by
    rw [ne_eq, List.drop_eq_nil_iff]
    omega
  obtain ⟨before, after, hbytes⟩ := (decoder.syscall_opcode _ hrest hsyscall).trans (List.take_prefix _ _).isInfix
  have hget : ∀ k, block.bytes[position + k]? = (before ++ [0x0f, 0x05] ++ after)[k]? := by
    intro k
    rw [hbytes, List.getElem?_drop]
  refine ⟨position + before.length, Nat.le_add_right _ _, ?_, ?_⟩
  · rw [hget]
    simp
  · rw [Nat.add_assoc, hget]
    simp

/-- What holds at the end of the block, and before an instruction when it holds behind it, holds everywhere. -/
theorem Decoder.sweep_induction {P : Nat → Prop} (decoder : Decoder) (block : GuestBlock)
    (hend : ∀ position, block.bytes.length ≤ position → P position)
    (hstep : ∀ position, position < block.bytes.length → P (position + (decoder.at block position).len) → P position)
    (position : Nat) : P position := by
  by_cases h : position < block.bytes.length
  · have hlen := decoder.at_len h
    exact hstep position h (sweep_induction decoder block hend hstep _)
  · exact hend position (Nat.le_of_not_lt h)
termination_by block.bytes.length - position

theorem scanFrom_of_le {position : Nat} (h : block.bytes.length ≤ position) : scanFrom decoder block position = [] := by
  rw [scanFrom, dif_neg (Nat.not_lt.mpr h)]

def decodedAt (decoder : Decoder) (block : GuestBlock) (position : Nat) : List DecodedInstruction :=
  if (decoder.at block position).isInvalid then []
  else [⟨block.rip + lenAsU64 position, (decoder.at block position).len, decodedMnemonic (decoder.at block position)⟩]

theorem scanFrom_of_lt {position : Nat} (h : position < block.bytes.length) : scanFrom decoder block position =
    decodedAt decoder block position ++ scanFrom decoder block (position + (decoder.at block position).len) := by
  rw [scanFrom, dif_pos h, decodedAt]
  dsimp only
  split <;> rfl

theorem scanFrom_filter_eq_nil {position : Nat} (h : ∀ i, position ≤ i → ¬PairAt block.bytes i) :
    (scanFrom decoder block position).filter (·.mnemonic = .syscall) = [] := by
  induction position using decoder.sweep_induction block with
  | hend position hle => rw [scanFrom_of_le hle, List.filter_nil]
  | hstep position hlt ih =>
      have hother : (decoder.at block position).isSyscall = false := by
        rw [← Bool.not_eq_true]
        intro hsyscall
        obtain ⟨i, hi, hpair⟩ := pairAt_of_isSyscall hlt hsyscall
        exact h i hi hpair
      rw [scanFrom_of_lt hlt, List.filter_append, ih fun i hi => h i (by omega), List.append_nil, decodedAt]
      split
      · rfl
      · simp [decodedMnemonic, hother]

def DecodedInstruction.site (instruction : DecodedInstruction) : SyscallSite :=
  ⟨instruction.rip, instruction.rip + lenAsU64 instruction.len⟩

theorem sitesFrom_eq {last : Nat} (hlast : ∀ i, PairAt block.bytes i → i ≤ last) (position : Nat) :
    sitesFrom decoder block last position =
      ((scanFrom decoder block position).filter (·.mnemonic = .syscall)).map (·.site) := by
  induction position using decoder.sweep_induction block with
  | hend position hle => rw [scanFrom_of_le hle, sitesFrom, dif_neg (Nat.not_lt.mpr hle), List.filter_nil, List.map_nil]
  | hstep position hlt ih =>
      have hrest : (if last < position + (decoder.at block position).len then []
          else sitesFrom decoder block last (position + (decoder.at block position).len)) =
          ((scanFrom decoder block (position + (decoder.at block position).len)).filter
            (·.mnemonic = .syscall)).map (·.site) := by
        split
        · rename_i hstop
          rw [scanFrom_filter_eq_nil fun i hi hpair => Nat.not_le.mpr hstop (Nat.le_trans hi (hlast i hpair)),
            List.map_nil]
        · exact ih
      rw [sitesFrom, dif_pos hlt, scanFrom_of_lt hlt, List.filter_append, List.map_append]
      dsimp only
      rw [hrest, decodedAt]
      cases hinvalid : (decoder.at block position).isInvalid <;>
        cases hsyscall : (decoder.at block position).isSyscall <;>
          simp [decodedMnemonic, hsyscall, DecodedInstruction.site]

theorem syscallInstructionSites_eq (decoder : Decoder) (block : GuestBlock) : syscallInstructionSites decoder block =
    ((scan decoder block).filter (·.mnemonic = .syscall)).map (·.site) := by
  unfold syscallInstructionSites scan
  cases hlast : lastSyscallBytePair block.bytes with
  | none => rw [scanFrom_filter_eq_nil fun i _ => lastSyscallBytePair_eq_none hlast i, List.map_nil]
  | some last => exact sitesFrom_eq (fun i hpair => le_lastSyscallBytePair hlast hpair) 0

/-! ### Trap and return -/

namespace GuestBlock

def position (block : GuestBlock) (address : U64) : Nat := (address - block.rip).val

def write (block : GuestBlock) (address : U64) (written : List UInt8) : GuestBlock where
  bytes := block.bytes.mapIdx fun i byte =>
    if block.position address ≤ i then written.getD (i - block.position address) byte else byte
  rip := block.rip
  len_lt := by
    rw [List.length_mapIdx]
    exact block.len_lt

/-- The block after `patch_code_fixed`. -/
def patched (block : GuestBlock) (patches : List ExecutableSyscallPatch) : GuestBlock :=
  (executableSyscallPatchWrites patches).foldl (fun block entry => block.write entry.1 entry.2) block

theorem position_add (block : GuestBlock) {position : Nat} (h : position < 2 ^ 64) :
    block.position (block.rip + lenAsU64 position) = position := by
  have hrip := block.rip.isLt
  simp only [GuestBlock.position, lenAsU64, Fin.sub_def, Fin.add_def, Fin.val_ofNat]
  omega

theorem drop_write (block : GuestBlock) (address : U64) {written : List UInt8} {n : Nat}
    (h : block.position address + written.length ≤ n) :
    (block.write address written).bytes.drop n = block.bytes.drop n := by
  apply List.ext_getElem?
  intro i
  have hbehind : ∀ byte, written.getD (n + i - block.position address) byte = byte := by
    intro byte
    rw [List.getD_eq_getElem?_getD, List.getElem?_eq_none (by omega), Option.getD_none]
  simp only [write, List.getElem?_drop, List.getElem?_mapIdx, hbehind, ite_self, Option.map_id']

end GuestBlock

theorem scanFrom_congr {block' : GuestBlock} (hrip : block'.rip = block.rip)
    (hlength : block'.bytes.length = block.bytes.length) {k : Nat} (h : ∀ n, k ≤ n → block'.bytes.drop n = block.bytes.drop n)
    {position : Nat} (hposition : k ≤ position) :
    scanFrom decoder block' position = scanFrom decoder block position := by
  induction position using decoder.sweep_induction block with
  | hend position hle => rw [scanFrom_of_le hle, scanFrom_of_le (hlength ▸ hle)]
  | hstep position hlt ih =>
      have hat : decoder.at block' position = decoder.at block position := by
        rw [Decoder.at, h position hposition, Decoder.at]
      rw [scanFrom_of_lt hlt, scanFrom_of_lt (hlength ▸ hlt), hat, ih (by omega), decodedAt, decodedAt, hat, hrip]

theorem scanFrom_split {position : Nat} {before after : List DecodedInstruction} {instruction : DecodedInstruction}
    (h : scanFrom decoder block position = before ++ instruction :: after) :
    ∃ p, p < block.bytes.length ∧ instruction = ⟨block.rip + lenAsU64 p, (decoder.at block p).len,
      decodedMnemonic (decoder.at block p)⟩ ∧ after = scanFrom decoder block (p + (decoder.at block p).len) := by
  induction position using decoder.sweep_induction block generalizing before with
  | hend position hle =>
      rw [scanFrom_of_le hle] at h
      exact absurd h (List.append_ne_nil_of_right_ne_nil _ (List.cons_ne_nil _ _)).symm
  | hstep position hlt ih =>
      rw [scanFrom_of_lt hlt, decodedAt] at h
      split at h
      · exact ih h
      · cases before with
        | nil =>
            obtain ⟨rfl, rfl⟩ := List.cons.inj h
            exact ⟨position, hlt, rfl, rfl⟩
        | cons _ before => exact ih (List.cons.inj h).2

/-- The sites are the `syscall` instructions of the whole scan, and after the trap at one of them the guest goes on
behind it with the instructions that were found behind it. -/
structure SyscallPatchingExact (decoder : Decoder) (block : GuestBlock) : Prop where
  sites : syscallInstructionSites decoder block =
    ((scan decoder block).filter (·.mnemonic = .syscall)).map (·.site)
  resumes : ∀ before instruction after, scan decoder block = before ++ instruction :: after →
    instruction.mnemonic = .syscall → (trapSite instruction.rip).nextRip = instruction.site.nextRip ∧
      scanFrom decoder (block.patched [⟨instruction.rip⟩]) (block.position (trapSite instruction.rip).nextRip) = after

/-- Patching is exact when no `syscall` of the block has a prefix. -/
theorem syscallPatchingExact_iff (decoder : Decoder) (block : GuestBlock) : SyscallPatchingExact decoder block ↔
    ∀ instruction ∈ scan decoder block, instruction.mnemonic = .syscall → instruction.len = 2 := by
  have hbound := block.len_lt
  constructor
  · intro h instruction hmem hsyscall
    obtain ⟨before, after, hscan⟩ := List.append_of_mem hmem
    obtain ⟨p, hp, hinstruction, -⟩ := scanFrom_split hscan
    have hlen : instruction.len ≤ block.bytes.length := by
      have hle := (decoder.at_len hp).2
      rw [hinstruction]
      exact Nat.le_trans (Nat.le_add_left _ _) hle
    have hnext := congrArg Fin.val (h.resumes before instruction after hscan hsyscall).1
    simp only [trapSite, DecodedInstruction.site, lenAsU64, Fin.add_def, Fin.val_ofNat] at hnext
    have hrip := instruction.rip.isLt
    have htwo : ((2 : U64) : Nat) = 2 := rfl
    omega
  · intro h
    refine ⟨syscallInstructionSites_eq decoder block, fun before instruction after hscan hsyscall => ?_⟩
    have hlen := h instruction (by rw [hscan]; simp) hsyscall
    obtain ⟨p, hp, hinstruction, hafter⟩ := scanFrom_split hscan
    have hlen' : (decoder.at block p).len = 2 := by rw [← hlen, hinstruction]
    have hnext : (trapSite instruction.rip).nextRip = instruction.site.nextRip := by
      rw [trapSite, DecodedInstruction.site, hlen]
      rfl
    have hp2 := (decoder.at_len hp).2
    have hresume : block.position (trapSite instruction.rip).nextRip = p + 2 := by
      have hrip : (trapSite instruction.rip).nextRip = block.rip + lenAsU64 (p + 2) := by
        rw [hnext, DecodedInstruction.site, hlen, hinstruction]
        apply Fin.ext
        simp only [lenAsU64, Fin.add_def, Fin.val_ofNat]
        omega
      rw [hrip, block.position_add (by omega)]
    have hstart : block.position instruction.rip = p := by
      rw [hinstruction]
      exact block.position_add (by omega)
    refine ⟨hnext, ?_⟩
    rw [hresume, hafter, hlen']
    have hbehind : ∀ n, p + 2 ≤ n → (block.patched [⟨instruction.rip⟩]).bytes.drop n = block.bytes.drop n := by
      intro n hn
      apply block.drop_write
      rw [hstart]
      exact hn
    refine scanFrom_congr ?_ ?_ hbehind (Nat.le_refl _)
    · rfl
    · exact List.length_mapIdx

/-- A decoder of a few instructions: `syscall`, with a `REX` prefix or without, and `add eax, imm32`. -/
def fewInstructions : Decoder where
  decode
    | 0x48 :: 0x0f :: 0x05 :: _ => ⟨3, false, true, false⟩
    | 0x0f :: 0x05 :: _ => ⟨2, false, true, false⟩
    | 0x05 :: _ :: _ :: _ :: _ :: _ => ⟨5, false, false, false⟩
    | _ => ⟨1, false, false, false⟩
  len_pos bytes _ := by split <;> decide
  len_le bytes h := by
    have hpos := List.length_pos_iff.mpr h
    split <;> simp only [List.length_cons] at hpos ⊢ <;> omega
  syscall_opcode bytes _ hsyscall := by
    split at hsyscall
    · exact ⟨[0x48], [], rfl⟩
    · exact ⟨[], [], rfl⟩
    · exact absurd hsyscall (by decide)
    · exact absurd hsyscall (by decide)

/-- `rex.w syscall`, four times `nop`, `ret`. -/
def prefixedBlock : GuestBlock := ⟨[0x48, 0x0f, 0x05, 0x90, 0x90, 0x90, 0x90, 0xc3], 0x401000, by decide⟩

/-- After the trap the guest does not go on at the next instruction, but in the last byte of the `syscall`: what was
`nop`s is now the operand of an addition. -/
theorem prefixedBlock_not_exact : ¬SyscallPatchingExact fewInstructions prefixedBlock ∧
    syscallInstructionSites fewInstructions prefixedBlock = [⟨0x401000, 0x401003⟩] ∧
    trapSite 0x401000 = ⟨0x401000, 0x401002⟩ ∧
    (scanFrom fewInstructions (prefixedBlock.patched [⟨0x401000⟩]) 2).map (fun i => (i.rip, i.len)) =
      [(0x401002, 5), (0x401007, 1)] := by
  have hscan : scan fewInstructions prefixedBlock = [⟨0x401000, 3, .syscall⟩, ⟨0x401003, 1, .other⟩,
      ⟨0x401004, 1, .other⟩, ⟨0x401005, 1, .other⟩, ⟨0x401006, 1, .other⟩, ⟨0x401007, 1, .other⟩] := by
    simp [scan, scanFrom, prefixedBlock, fewInstructions, Decoder.at, decodedMnemonic, lenAsU64]
  refine ⟨fun h => ?_, ?_, rfl, ?_⟩
  · exact absurd ((syscallPatchingExact_iff _ _).mp h ⟨0x401000, 3, .syscall⟩ (by rw [hscan]; simp) rfl) (by decide)
  · rw [syscallInstructionSites_eq, hscan]
    decide
  · simp [scanFrom, prefixedBlock, fewInstructions, Decoder.at, decodedMnemonic, lenAsU64, GuestBlock.patched,
      executableSyscallPatchWrites, GuestBlock.write, GuestBlock.position]

end Mcr.Jit
