import Mcr.Memory.Access
import Mcr.Runtime.Elf

/-!
# File-backed `mmap`

`mmap` first makes a mapping of zeros and then, for a file, writes the bytes of the file into it. The bytes
come from a cache of earlier mappings, from a host mapping or from `pread`; native execution puts traps over
the libc functions it takes over.
-/

namespace Mcr.Runtime

open Vfs (Fd InodeId RegularFileCacheKey VirtualFileSystem)
open Net (LinuxErrno)
open Memory (GuestMemoryError MmapSyscallArgs checkedAdd linuxMapPrivate linuxProtExec linuxProtRead linuxProtWrite
  u64Limit)

/-- The memory of one process, with what the host contributes to its calls. -/
structure ProcessMemory where
  ctx : Memory.Context
  machine : Memory.Machine

/-- A fault is all a call on guest memory tells; a panic of the memory is one as well. -/
instance : GuestMemoryAccess ProcessMemory where
  readBytes addr len memory := (Memory.read addr len memory.machine).1.toOption
  writeBytes addr bytes := fun memory =>
    let (result, machine) := Memory.write memory.ctx addr bytes memory.machine
    (result.mapError fun _ => (), { memory with machine := machine })

/-! ### The state of native execution -/

/-- The file, its generation, the offset and the length of a mapping, ordered by all four. -/
abbrev FileBackedMappingCacheKey := InodeId ×ₗ Nat ×ₗ Nat ×ₗ Nat

def FileBackedMappingCacheKey.new (file : RegularFileCacheKey) (offset length : Nat) : FileBackedMappingCacheKey :=
  toLex (file.inode, toLex (file.generation, toLex (offset, length)))

def FileBackedMappingCacheKey.file (key : FileBackedMappingCacheKey) : RegularFileCacheKey :=
  ⟨(ofLex key).1, (ofLex (ofLex key).2).1⟩

def FileBackedMappingCacheKey.offset (key : FileBackedMappingCacheKey) : Nat := (ofLex (ofLex (ofLex key).2).2).1

def FileBackedMappingCacheKey.length (key : FileBackedMappingCacheKey) : Nat := (ofLex (ofLex (ofLex key).2).2).2

/-- `FileBackedMappingCache` without its counters. -/
abbrev FileBackedMappingCache := SortedMap FileBackedMappingCacheKey (List UInt8)

/-- `FileBackedMappingCache::insert`: entries of every other generation give way. -/
def FileBackedMappingCache.put (cache : FileBackedMappingCache) (key : FileBackedMappingCacheKey)
    (bytes : List UInt8) : FileBackedMappingCache :=
  (cache.filter fun cached _ => cached.file.generation = key.file.generation).insert key bytes

abbrev LibcIntrinsicSymbolCache := SortedMap (InodeId ×ₗ Nat) (List FileBackedLibcIntrinsicSymbol)

def LibcIntrinsicSymbolCache.key (file : RegularFileCacheKey) : InodeId ×ₗ Nat :=
  toLex (file.inode, file.generation)

def LibcIntrinsicSymbolCache.put (cache : LibcIntrinsicSymbolCache) (file : RegularFileCacheKey)
    (symbols : List FileBackedLibcIntrinsicSymbol) : LibcIntrinsicSymbolCache :=
  (cache.filter fun cached _ => (ofLex cached).2 = file.generation).insert (key file) symbols

structure NativeExecutionState where
  enabled : Bool
  fileBackedMappingCache : FileBackedMappingCache
  libcIntrinsicSymbolCache : LibcIntrinsicSymbolCache
  libcIntrinsicPatches : SortedMap (Nat ×ₗ Nat) GuestLibcIntrinsic

def NativeExecutionState.new (enabled : Bool) : NativeExecutionState := ⟨enabled, .empty, .empty, .empty⟩

/-- The part of `RuntimeSubsystems` that the calls of one process work on. -/
structure RuntimeSubsystems (σ ω : Type) where
  files : RuntimeFileSystem σ ω ProcessMemory
  native : NativeExecutionState

/-- How a system call ends that does not return. -/
inductive Failure
  | errno (errno : LinuxErrno)
  | panic
deriving DecidableEq

variable {σ ω : Type}

abbrev SubsystemProg (σ ω α : Type) : Type := Prog (RuntimeSubsystems σ ω) Failure α

/-! ### Errors -/

def efbig : LinuxErrno := ⟨27⟩

def hostErrorErrno : Memory.HostErrorKind → LinuxErrno
  | .accessDenied => ⟨13⟩
  | .invalidInput => einval
  | .outOfMemory => enomem
  | .unsupported => ⟨38⟩
  | .interrupted => ⟨4⟩
  | .timedOut => .timedOut
  | .wouldBlock => .wouldBlock
  | .brokenPipe => .brokenPipe
  | .notFound => ⟨2⟩
  | .alreadyExists => ⟨17⟩
  | .poisoned | .unavailable | .other => ⟨5⟩

/-- `GuestMemoryError::errno`. -/
def memoryErrno : GuestMemoryError → LinuxErrno
  | .accessDenied => ⟨13⟩
  | .addressInUse => ⟨17⟩
  | .badFileDescriptor => ebadf
  | .host error => hostErrorErrno error.kind
  | .notMapped | .outOfMemory | .regionTooLarge => enomem
  | .invalidAddress | .invalidLength | .invalidProtection | .invalidFlags | .invalidOffset => einval

def memoryFailure : Memory.Abort → Failure
  | .error error => .errno (memoryErrno error)
  | .panic => .panic

/-! ### The parts of the state -/

def RuntimeSubsystems.setVfs (vfs : VirtualFileSystem) (s : RuntimeSubsystems σ ω) : RuntimeSubsystems σ ω :=
  { s with files := { s.files with vfs := vfs } }

def RuntimeSubsystems.setMachine (machine : Memory.Machine) (s : RuntimeSubsystems σ ω) : RuntimeSubsystems σ ω :=
  { s with files := { s.files with memory := { s.files.memory with machine := machine } } }

def onFileVfs {α : Type} (call : VirtualFileSystem.Call α) : SubsystemProg σ ω α :=
  .mapError (fun error => .errno (vfsErrno error)) (.zoom (·.files.vfs) .setVfs call)

def onMachine {α : Type} (call : Memory.Context → Memory.MemM α) : SubsystemProg σ ω α := do
  let s ← .get
  .mapError memoryFailure (.zoom (·.files.memory.machine) .setMachine (call s.files.memory.ctx))

def modifyNative (f : NativeExecutionState → NativeExecutionState) : SubsystemProg σ ω Unit :=
  .modify fun s => { s with native := f s.native }

/-! ### The bytes of a mapping -/

section

variable (host : Vfs.Host)

def fileBackedMmapCacheKey (fd : Fd) (offset len : Nat) (prot flags : UInt32) :
    SubsystemProg σ ω (Option FileBackedMappingCacheKey) := do
  if prot &&& linuxProtWrite ≠ 0 ∨ flags &&& linuxMapPrivate = 0 then pure none
  else do
    let s ← .get
    let file ← onFileVfs (.ofExcept (s.files.vfs.regularFileCacheKey fd))
    pure (file.map fun file => .new file offset len)

/-- A host mapping shows only bytes of the file; `pread` stops at its end as well. -/
def readFileBackedMmapBytes (fd : Fd) (offset len : Nat) : SubsystemProg σ ω (List UInt8) := do
  let mapping ← onFileVfs (VirtualFileSystem.mapReadonlyRegularFileAt host fd offset len)
  match mapping with
  | some bytes => onFileVfs (zeroElfLoadBssTail host fd offset bytes)
  | none => do
    let bytes ← onFileVfs (VirtualFileSystem.pread host fd offset len)
    onFileVfs (zeroElfLoadBssTail host fd offset bytes)

def fileBackedMmapBytes (fd : Fd) (offset len : Nat) (prot flags : UInt32) : SubsystemProg σ ω (List UInt8) := do
  let cacheKey ← fileBackedMmapCacheKey fd offset len prot flags
  match cacheKey with
  | none => readFileBackedMmapBytes host fd offset len
  | some key => do
    let s ← .get
    match s.native.fileBackedMappingCache.get? key with
    | some bytes => pure bytes
    | none => do
      let bytes ← readFileBackedMmapBytes host fd offset len
      modifyNative fun native =>
        { native with fileBackedMappingCache := native.fileBackedMappingCache.put key bytes }
      pure bytes

/-- The pages are made writable for the copy, and the outcome of the copy is looked at only after they have
their own protection again. -/
def populateFileBackedMmap (mapped : Nat) (args : MmapSyscallArgs) : SubsystemProg σ ω Unit := do
  if args.offset < 0 then .throw (.errno einval)
  else do
    let bytes ← fileBackedMmapBytes host args.fd args.offset.toNat args.length args.prot args.flags
    onMachine (Memory.mprotect · mapped args.length (linuxProtRead ||| linuxProtWrite))
    let written ← .attempt (onMachine (σ := σ) (ω := ω) (Memory.write · mapped bytes))
    let restored ← .attempt (onMachine (σ := σ) (ω := ω) (Memory.mprotect · mapped args.length args.prot))
    .ofExcept written
    .ofExcept restored

/-! ### Traps over libc -/

def maxSymbolScanBytes : Nat := 128 * 1024 * 1024

def readRegularFileForSymbolScan (fd : Fd) : SubsystemProg σ ω (List UInt8) := do
  let attr ← onFileVfs (VirtualFileSystem.fstat fd)
  if maxSymbolScanBytes < attr.size then .throw (.errno efbig)
  else onFileVfs (VirtualFileSystem.pread host fd 0 attr.size)

def fileBackedLibcIntrinsicSymbols (fd : Fd) (bytes : List UInt8) :
    SubsystemProg σ ω (List FileBackedLibcIntrinsicSymbol) := do
  let s ← .get
  let key ← onFileVfs (.ofExcept (s.files.vfs.regularFileCacheKey fd))
  match key with
  | none => pure []
  | some file =>
    match s.native.libcIntrinsicSymbolCache.get? (LibcIntrinsicSymbolCache.key file) with
    | some symbols => pure symbols
    | none => do
      let symbols := parseFileBackedLibcIntrinsicSymbols bytes
      modifyNative fun native =>
        { native with libcIntrinsicSymbolCache := native.libcIntrinsicSymbolCache.put file symbols }
      pure symbols

/-- `int3; nop`. -/
def trapBytes : Vector UInt8 2 := #v[0xcc, 0x90]

def registerLibcIntrinsicPatch (pid address : Nat) (intrinsic : GuestLibcIntrinsic) : SubsystemProg σ ω Unit := do
  onMachine (Memory.patchCodeFixed · 2 [(address, trapBytes)])
  modifyNative fun native =>
    { native with libcIntrinsicPatches := native.libcIntrinsicPatches.insert (toLex (pid, address)) intrinsic }

/-- Where the trap for a symbol goes, when it falls into the mapping. -/
def patchSite (loadBias mapped length value : Nat) : Option Nat :=
  match checkedAdd loadBias value with
  | none => none
  | some address =>
    if address < mapped ∨ mapped + length < min (address + 2) (u64Limit - 1) ∨ length ≤ address - mapped then none
    else some address

def registerFileBackedLibcIntrinsicPatches (pid mapped : Nat) (args : MmapSyscallArgs) : SubsystemProg σ ω Unit := do
  let s ← .get
  if s.native.enabled = false ∨ args.prot &&& linuxProtExec = 0 ∨ args.offset < 0 then pure ()
  else do
    let scanned ← .attempt (readRegularFileForSymbolScan (σ := σ) (ω := ω) host args.fd)
    match scanned with
    | .error _ => pure ()
    | .ok bytes =>
      match elfLoadBiasForMapping bytes args.offset.toNat mapped with
      | none => pure ()
      | some loadBias =>
        match checkedAdd mapped args.length with
        | none => .throw (.errno enomem)
        | some _ => do
          let symbols ← fileBackedLibcIntrinsicSymbols args.fd bytes
          .forEach symbols fun symbol =>
            match patchSite loadBias mapped args.length symbol.value with
            | none => pure ()
            | some address => registerLibcIntrinsicPatch pid address symbol.intrinsic

/-! ### `mmap` -/

def mmap (pid : Nat) (args : MmapSyscallArgs) : SubsystemProg σ ω Nat := do
  let mapped ← onMachine (Memory.mmap · args)
  if args.isAnonymous then pure mapped
  else do
    populateFileBackedMmap host mapped args
    registerFileBackedLibcIntrinsicPatches host pid mapped args
    pure mapped

end

end Mcr.Runtime
