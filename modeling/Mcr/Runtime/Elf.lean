import Mcr.Runtime.FileSystem
import Mcr.Memory.Mapping

/-!
# ELF files as the runtime reads them

Two readers look at the files a guest maps. One follows the program headers through `pread`, to find where a
segment goes on in memory after its bytes in the file have ended. The other goes over the whole file for the
dynamic symbols of the libc functions that native execution takes over.
-/

namespace Mcr.Runtime

open Vfs (Fd VirtualFileSystem)
open Memory (checkedAdd guestPageSize)

/-! ### Fields -/

/-- The little-endian number in the `len` bytes from `offset` on. -/
def elfField (bytes : List UInt8) (offset len : Nat) : Nat := ofLeBytes ((bytes.drop offset).take len)

/-- `elf_range`, and the slice `get` it rests on. -/
def elfRange (bytes : List UInt8) (offset len : Nat) : Option (List UInt8) :=
  if offset + len ≤ bytes.length then some ((bytes.drop offset).take len) else none

def elfNumber (len : Nat) (bytes : List UInt8) (offset : Nat) : Option Nat :=
  (elfRange bytes offset len).map ofLeBytes

def elfMagic : List UInt8 := [0x7f, 0x45, 0x4c, 0x46]
def elfClass64 : UInt8 := 2
def elfData2Lsb : UInt8 := 1

/-! ### Program headers -/

def elf64HeaderSize : Nat := 64
def elf64ProgramHeaderMinViewSize : Nat := 56
def elf64ProgramHeaderMaxViewSize : Nat := 4096
def elf64ProgramHeaderMaxViewCount : Nat := 1024
def elf64PtLoad : Nat := 1

structure Elf64ProgramHeaderTableView where
  fileOffset : Nat
  entrySize : Nat
  entryCount : Nat
deriving DecidableEq, Repr

structure Elf64ProgramHeaderView where
  kind : Nat
  offset : Nat
  fileSize : Nat
  memorySize : Nat
deriving DecidableEq, Repr

def Elf64ProgramHeaderView.isLoad (header : Elf64ProgramHeaderView) : Bool := header.kind = elf64PtLoad

def elf64ProgramHeaderTableView (header : List UInt8) : Option Elf64ProgramHeaderTableView :=
  if header.length < elf64HeaderSize then none
  else if header.take 4 ≠ elfMagic ∨ header[4]? ≠ some elfClass64 ∨ header[5]? ≠ some elfData2Lsb then none
  else
    let entrySize := elfField header 54 2
    let entryCount := elfField header 56 2
    if entrySize < elf64ProgramHeaderMinViewSize ∨ elf64ProgramHeaderMaxViewSize < entrySize ∨
        elf64ProgramHeaderMaxViewCount < entryCount then none
    else some ⟨elfField header 32 8, entrySize, entryCount⟩

def elf64ProgramHeaderEntryView (entry : List UInt8) : Option Elf64ProgramHeaderView :=
  if entry.length < elf64ProgramHeaderMinViewSize then none
  else some ⟨elfField entry 0 4, elfField entry 8 8, elfField entry 32 8, elfField entry 40 8⟩

/-- What a read leaves in its buffer; a short one leaves the rest of it as it was. -/
def fillBuffer (buffer bytes : List UInt8) : List UInt8 := bytes ++ buffer.drop bytes.length

/-- The loop of `read_elf64_program_headers`, which uses one buffer for all entries. -/
def readProgramHeaderEntries (host : Vfs.Host) (fd : Fd) (table : Elf64ProgramHeaderTableView) :
    Nat → Nat → List UInt8 → VirtualFileSystem.Call (Option (List Elf64ProgramHeaderView))
  | 0, _, _ => pure (some [])
  | remaining + 1, index, buffer => do
    match checkedAdd table.fileOffset (index * table.entrySize) with
    | none => pure none
    | some entryOffset => do
      let read ← .attempt (VirtualFileSystem.pread host fd entryOffset table.entrySize)
      match read with
      | .error _ => pure none
      | .ok bytes =>
        if bytes.length < elf64ProgramHeaderMinViewSize then pure none
        else match elf64ProgramHeaderEntryView (fillBuffer buffer bytes) with
          | none => pure none
          | some header => do
            let rest ← readProgramHeaderEntries host fd table remaining (index + 1) (fillBuffer buffer bytes)
            pure (rest.map (header :: ·))

def readElf64ProgramHeaders (host : Vfs.Host) (fd : Fd) :
    VirtualFileSystem.Call (Option (List Elf64ProgramHeaderView)) := do
  let read ← .attempt (VirtualFileSystem.pread host fd 0 elf64HeaderSize)
  match read with
  | .error _ => pure none
  | .ok elfHeader =>
    if elfHeader.length < elf64HeaderSize then pure none
    else match elf64ProgramHeaderTableView elfHeader with
      | none => pure none
      | some table =>
        readProgramHeaderEntries host fd table table.entryCount 0 (List.replicate table.entrySize 0)

/-! ### The part of a segment that is not in the file -/

def fillZeros (start stop : Nat) (bytes : List UInt8) : List UInt8 :=
  bytes.mapIdx fun i byte => if start ≤ i ∧ i < stop then 0 else byte

def zeroLoadTail (mappedOffset mappedEnd : Nat) (bytes : List UInt8) (header : Elf64ProgramHeaderView) :
    List UInt8 :=
  if header.isLoad = false ∨ header.memorySize ≤ header.fileSize then bytes
  else match checkedAdd header.offset header.fileSize, checkedAdd header.offset header.memorySize with
    | some tailStart, some tailEnd =>
      let overlapStart := max tailStart mappedOffset
      let overlapEnd := min tailEnd mappedEnd
      if overlapEnd ≤ overlapStart then bytes
      else fillZeros (overlapStart - mappedOffset) (overlapEnd - mappedOffset) bytes
    | _, _ => bytes

def zeroElfLoadBssTail (host : Vfs.Host) (fd : Fd) (mappedOffset : Nat) (bytes : List UInt8) :
    VirtualFileSystem.Call (List UInt8) := do
  if bytes = [] then pure bytes
  else do
    let headers ← readElf64ProgramHeaders host fd
    match headers, checkedAdd mappedOffset bytes.length with
    | some headers, some mappedEnd => pure (headers.foldl (zeroLoadTail mappedOffset mappedEnd) bytes)
    | _, _ => pure bytes

/-! ### Symbols of libc -/

inductive GuestLibcIntrinsic
  | memcpy | memmove | memset | memchr | memcmp
  | strlen (maxLen : Nat)
deriving DecidableEq, Repr

def defaultLibcStrlenMax : Nat := 1024 * 1024

/-- `GuestLibcIntrinsic::from_symbol_name`: what follows an `@` is a version. -/
def GuestLibcIntrinsic.fromSymbolName (symbol : String) : Option GuestLibcIntrinsic :=
  match String.ofList (symbol.toList.takeWhile (· ≠ '@')) with
  | "memcpy" => some .memcpy
  | "memmove" => some .memmove
  | "memset" => some .memset
  | "memchr" => some .memchr
  | "memcmp" => some .memcmp
  | "strlen" => some (.strlen defaultLibcStrlenMax)
  | _ => none

structure FileBackedLibcIntrinsicSymbol where
  value : Nat
  intrinsic : GuestLibcIntrinsic
deriving DecidableEq, Repr

structure ElfSectionHeader where
  sectionType : Nat
  offset : Nat
  size : Nat
  link : Nat
  entrySize : Nat

structure ElfLoadHeader where
  fileOffset : Nat
  virtualAddress : Nat
  fileSize : Nat
  memorySize : Nat

def elf64MachineX8664 : Nat := 62
def elf64ShtDynsym : Nat := 11
def elf64SttFunc : Nat := 2
def elf64SttGnuIfunc : Nat := 10
def elf64SymbolSize : Nat := 24

def validateElf64Header (bytes : List UInt8) : Option Unit := do
  let magic ← elfRange bytes 0 4
  let elfClass ← bytes[4]?
  let elfData ← bytes[5]?
  let machine ← elfNumber 2 bytes 18
  if magic ≠ elfMagic ∨ elfClass ≠ elfClass64 ∨ elfData ≠ elfData2Lsb ∨ machine ≠ elf64MachineX8664 then none
  else some ()

def elfCstr (bytes : List UInt8) (offset : Nat) : Option String :=
  if bytes.length < offset then none
  else
    let tail := bytes.drop offset
    if 0 ∈ tail then String.fromUTF8? ⟨(tail.takeWhile (· ≠ 0)).toArray⟩ else none

def elfSectionHeader (bytes : List UInt8) (sectionOffset entrySize index : Nat) : Option ElfSectionHeader := do
  let header ← elfRange bytes (sectionOffset + index * entrySize) entrySize
  pure ⟨← elfNumber 4 header 4, ← elfNumber 8 header 24, ← elfNumber 8 header 32, ← elfNumber 4 header 40,
    ← elfNumber 8 header 56⟩

def elfSectionHeaders (bytes : List UInt8) : Option (List ElfSectionHeader) := do
  let _ ← validateElf64Header bytes
  let sectionOffset ← elfNumber 8 bytes 40
  let entrySize ← elfNumber 2 bytes 58
  let count ← elfNumber 2 bytes 60
  if entrySize < 64 then none else (List.range count).mapM (elfSectionHeader bytes sectionOffset entrySize)

/-- One entry of the program header table: `none` in the list for one that loads nothing. -/
def elfLoadHeader (bytes : List UInt8) (programOffset entrySize index : Nat) : Option (Option ElfLoadHeader) := do
  let header ← elfRange bytes (programOffset + index * entrySize) entrySize
  let kind ← elfNumber 4 header 0
  if kind ≠ elf64PtLoad then pure none
  else pure (some ⟨← elfNumber 8 header 8, ← elfNumber 8 header 16, ← elfNumber 8 header 32, ← elfNumber 8 header 40⟩)

def elfLoadHeaders (bytes : List UInt8) : Option (List ElfLoadHeader) := do
  let _ ← validateElf64Header bytes
  let programOffset ← elfNumber 8 bytes 32
  let entrySize ← elfNumber 2 bytes 54
  let count ← elfNumber 2 bytes 56
  if entrySize < 56 then none
  else do
    let loads ← (List.range count).mapM (elfLoadHeader bytes programOffset entrySize)
    pure (loads.filterMap id)

def parseFileBackedLibcIntrinsicSymbol (entry strtab : List UInt8) : Option FileBackedLibcIntrinsicSymbol := do
  let nameOffset ← elfNumber 4 entry 0
  let info ← entry[4]?
  let symbolType := info.toNat % 16
  if symbolType ≠ elf64SttFunc ∧ symbolType ≠ elf64SttGnuIfunc then none
  else do
    let value ← elfNumber 8 entry 8
    if value = 0 then none
    else do
      let name ← elfCstr strtab nameOffset
      let intrinsic ← GuestLibcIntrinsic.fromSymbolName name
      pure ⟨value, intrinsic⟩

def chunksExact (size : Nat) (bytes : List UInt8) : List (List UInt8) :=
  (List.range (bytes.length / size)).map fun i => (bytes.drop (i * size)).take size

def dynsymSymbols (bytes : List UInt8) (sections : List ElfSectionHeader) (dynsym : ElfSectionHeader) :
    List FileBackedLibcIntrinsicSymbol :=
  match sections[dynsym.link]?.bind fun names => elfRange bytes names.offset names.size with
  | none => []
  | some strtab =>
    let entrySize := if elf64SymbolSize ≤ dynsym.entrySize then dynsym.entrySize else elf64SymbolSize
    match elfRange bytes dynsym.offset dynsym.size with
    | none => []
    | some entries =>
      (chunksExact entrySize entries).filterMap (parseFileBackedLibcIntrinsicSymbol · strtab)

def parseFileBackedLibcIntrinsicSymbols (bytes : List UInt8) : List FileBackedLibcIntrinsicSymbol :=
  match elfSectionHeaders bytes with
  | none => []
  | some sections =>
    (sections.filter fun header => header.sectionType = elf64ShtDynsym).flatMap (dynsymSymbols bytes sections)

def elfAlignDown (value alignment : Nat) : Nat := value / alignment * alignment

def alignUpChecked (value alignment : Nat) : Option Nat :=
  if value % alignment = 0 then some value else checkedAdd value (alignment - value % alignment)

/-- `u64::checked_sub`. -/
def checkedSub (a b : Nat) : Option Nat := if b ≤ a then some (a - b) else none

/-- The loop of `elf_load_bias_for_mapping`: the first segment that holds the offset decides. -/
def loadBiasFrom (fileOffset mapped : Nat) : List ElfLoadHeader → Option Nat
  | [] => none
  | load :: rest => do
    let segmentFileStart := elfAlignDown load.fileOffset guestPageSize
    let segmentEnd ← checkedAdd load.fileOffset (max load.fileSize load.memorySize)
    let segmentFileEnd ← alignUpChecked segmentEnd guestPageSize
    if fileOffset < segmentFileStart ∨ segmentFileEnd ≤ fileOffset then loadBiasFrom fileOffset mapped rest
    else do
      let skipped ← checkedSub fileOffset segmentFileStart
      let mappedImageAddress ← checkedAdd (elfAlignDown load.virtualAddress guestPageSize) skipped
      checkedSub mapped mappedImageAddress

def elfLoadBiasForMapping (bytes : List UInt8) (fileOffset mapped : Nat) : Option Nat := do
  let loads ← elfLoadHeaders bytes
  loadBiasFrom fileOffset mapped loads

end Mcr.Runtime
