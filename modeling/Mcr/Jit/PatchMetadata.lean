import Mcr.Lib.LittleEndian
import Mcr.Lib.SortedMap
import Mcr.Lib.Wire

/-!
# The metadata of native patches

Where the code of an image has been scanned and which of its instructions are patched: the `syscall` instructions, the
instructions relative to `fs` that are rewritten, and those that are trapped. It is kept in a file, as offsets from the
base of the image, and moved to another base in memory. The definitions are those of the Windows build, which has the
records of `fs`.
-/

namespace Mcr.Jit

open Prog

abbrev U32 := Fin (2 ^ 32)
abbrev U64 := Fin (2 ^ 64)

abbrev ByteArr (n : Nat) := { bytes : List UInt8 // bytes.length = n }

inductive IoErrorKind
  | invalidData
  | unexpectedEof
deriving DecidableEq, Repr

structure IoError where
  kind : IoErrorKind
  message : String
deriving DecidableEq, Repr

structure NativeImagePatchKey where
  hash : U64
  executableLen : U64
deriving DecidableEq, Repr

structure ExecutableSyscallPatch where
  address : U64
deriving DecidableEq, Repr

structure FsRelativePatch where
  original : ByteArr 9
deriving DecidableEq, Repr

structure FsRelativeTrap where
  original : ByteArr 15
  len : UInt8
deriving DecidableEq, Repr

structure NativePatchMetadata where
  scannedRanges : List (U64 × U64)
  syscallPatches : List ExecutableSyscallPatch
  fsRelativePatches : SortedMap U64 FsRelativePatch
  fsRelativeTraps : SortedMap U64 FsRelativeTrap

/-- `NativePatchMetadata::default`. -/
def NativePatchMetadata.empty : NativePatchMetadata := ⟨[], [], .empty, .empty⟩

/-- `b"MCRNPC01"`. -/
def nativePatchCacheMagic : List UInt8 := [77, 67, 82, 78, 80, 67, 48, 49]

def nativePatchCacheVersion : U32 := 3

def cacheRelativeOffset (address base : U64) : Except IoError U64 :=
  if base ≤ address then .ok (address - base)
  else .error ⟨.invalidData, "native patch metadata address precedes cache base"⟩

def cacheAbsoluteAddress (offset base : U64) : Except IoError U64 :=
  if base.val + offset.val < 2 ^ 64 then .ok (base + offset)
  else .error ⟨.invalidData, "native patch metadata address overflows cache base"⟩

/-! ### Writing -/

def pushCacheU32 (bytes : List UInt8) (value : U32) : List UInt8 := bytes ++ toLittleEndian 4 value.val

def pushCacheU64 (bytes : List UInt8) (value : U64) : List UInt8 := bytes ++ toLittleEndian 8 value.val

def lenAsU32 (len : Nat) : U32 := Fin.ofNat (2 ^ 32) len

def encodeNativePatchMetadata (key : NativeImagePatchKey) (metadata : NativePatchMetadata) (base : U64) :
    Except IoError (List UInt8) := do
  let bytes := nativePatchCacheMagic
  let bytes := pushCacheU32 bytes nativePatchCacheVersion
  let bytes := pushCacheU64 bytes key.hash
  let bytes := pushCacheU64 bytes key.executableLen
  let bytes := pushCacheU32 bytes (lenAsU32 metadata.scannedRanges.length)
  let bytes ← metadata.scannedRanges.foldlM (fun bytes (range : U64 × U64) => do
    let start ← cacheRelativeOffset range.1 base
    let bytes := pushCacheU64 bytes start
    let stop ← cacheRelativeOffset range.2 base
    pure (pushCacheU64 bytes stop)) bytes
  let bytes := pushCacheU32 bytes (lenAsU32 metadata.syscallPatches.length)
  let bytes ← metadata.syscallPatches.foldlM (fun bytes patch => do
    let offset ← cacheRelativeOffset patch.address base
    pure (pushCacheU64 bytes offset)) bytes
  let bytes := pushCacheU32 bytes (lenAsU32 metadata.fsRelativePatches.entries.length)
  let bytes ← metadata.fsRelativePatches.entries.foldlM (fun bytes (entry : U64 × FsRelativePatch) => do
    let offset ← cacheRelativeOffset entry.1 base
    pure (pushCacheU64 bytes offset ++ entry.2.original.val)) bytes
  let bytes := pushCacheU32 bytes (lenAsU32 metadata.fsRelativeTraps.entries.length)
  metadata.fsRelativeTraps.entries.foldlM (fun bytes (entry : U64 × FsRelativeTrap) => do
    let offset ← cacheRelativeOffset entry.1 base
    let bytes := pushCacheU64 bytes offset
    let bytes := pushCacheU32 bytes (Fin.ofNat (2 ^ 32) entry.2.len.toNat)
    pure (bytes ++ entry.2.original.val)) bytes

/-! ### Reading -/

structure NativePatchMetadataReader where
  bytes : List UInt8
  offset : Nat
  within : offset ≤ bytes.length

namespace NativePatchMetadataReader

abbrev Read := Prog NativePatchMetadataReader IoError

def new (bytes : List UInt8) : NativePatchMetadataReader := ⟨bytes, 0, Nat.zero_le _⟩

/-- The offset is within the bytes, so adding to it does not overflow. -/
def readSlice (len : Nat) : Read (ByteArr len) := fun reader =>
  if h : reader.offset + len ≤ reader.bytes.length then
    (.ok ⟨(reader.bytes.drop reader.offset).take len, by rw [List.length_take, List.length_drop]; omega⟩,
      ⟨reader.bytes, reader.offset + len, h⟩)
  else (.error ⟨.unexpectedEof, "truncated cache"⟩, reader)

/-- A slice has the length that was asked for, so `expect` never panics. -/
def readArray (n : Nat) : Read (ByteArr n) := readSlice n

def readU32 : Read U32 := do
  let bytes ← readArray 4
  pure (Fin.ofNat (2 ^ 32) (ofLittleEndian bytes.val))

def readU64 : Read U64 := do
  let bytes ← readArray 8
  pure (Fin.ofNat (2 ^ 64) (ofLittleEndian bytes.val))

def expectMagic (magic : List UInt8) : Read Unit := do
  let slice ← readSlice magic.length
  if slice.val ≠ magic then .throw ⟨.invalidData, "invalid native patch cache magic"⟩ else pure ()

def expectEof : Read Unit := do
  let reader ← .get
  if reader.offset ≠ reader.bytes.length then .throw ⟨.invalidData, "native patch cache has trailing bytes"⟩
  else pure ()

end NativePatchMetadataReader

open NativePatchMetadataReader

def readAddress (base : U64) : Read U64 := do
  let offset ← readU64
  .ofExcept (cacheAbsoluteAddress offset base)

/-- `u8::try_from(len)` and the check of the length of a trap. -/
def trapLen (len : U32) : Except IoError UInt8 :=
  if 256 ≤ len.val then .error ⟨.invalidData, "native patch cache FS trap length overflows u8"⟩
  else if len.val = 0 ∨ 15 < len.val then .error ⟨.invalidData, "native patch cache has invalid FS trap length"⟩
  else .ok (UInt8.ofNat len.val)

def readRange (base : U64) : Read (U64 × U64) := do
  let start ← readAddress base
  let stop ← readAddress base
  pure (start, stop)

def readSyscallPatch (base : U64) : Read ExecutableSyscallPatch := do
  let address ← readAddress base
  pure ⟨address⟩

def readFsRelativePatch (base : U64) : Read (U64 × FsRelativePatch) := do
  let address ← readAddress base
  let original ← readArray 9
  pure (address, ⟨original⟩)

def readFsRelativeTrap (base : U64) : Read (U64 × FsRelativeTrap) := do
  let address ← readAddress base
  let len ← readU32
  let original ← readArray 15
  let len ← .ofExcept (trapLen len)
  pure (address, ⟨original, len⟩)

namespace NativePatchMetadata

def pushRange (metadata : NativePatchMetadata) (range : U64 × U64) : NativePatchMetadata :=
  { metadata with scannedRanges := metadata.scannedRanges ++ [range] }

def pushSyscallPatch (metadata : NativePatchMetadata) (patch : ExecutableSyscallPatch) : NativePatchMetadata :=
  { metadata with syscallPatches := metadata.syscallPatches ++ [patch] }

def insertFsRelativePatch (metadata : NativePatchMetadata) (entry : U64 × FsRelativePatch) : NativePatchMetadata :=
  { metadata with fsRelativePatches := metadata.fsRelativePatches.insert entry.1 entry.2 }

def insertFsRelativeTrap (metadata : NativePatchMetadata) (entry : U64 × FsRelativeTrap) : NativePatchMetadata :=
  { metadata with fsRelativeTraps := metadata.fsRelativeTraps.insert entry.1 entry.2 }

end NativePatchMetadata

def readHeader (key : NativeImagePatchKey) : Read Unit := do
  expectMagic nativePatchCacheMagic
  let version ← readU32
  if version ≠ nativePatchCacheVersion then .throw ⟨.invalidData, "unsupported native patch cache version"⟩
  else do
    let hash ← readU64
    let executableLen ← readU64
    if (⟨hash, executableLen⟩ : NativeImagePatchKey) ≠ key then
      .throw ⟨.invalidData, "native patch cache key mismatch"⟩
    else pure ()

def readMetadata (key : NativeImagePatchKey) (base : U64) : Read NativePatchMetadata := do
  readHeader key
  let count ← readU32
  let metadata ← times count.val
    (fun metadata => do
      let range ← readRange base
      pure (metadata.pushRange range)) NativePatchMetadata.empty
  let count ← readU32
  let metadata ← times count.val
    (fun metadata => do
      let patch ← readSyscallPatch base
      pure (metadata.pushSyscallPatch patch)) metadata
  let fsCount ← readU32
  let metadata ← times fsCount.val
    (fun metadata => do
      let entry ← readFsRelativePatch base
      pure (metadata.insertFsRelativePatch entry)) metadata
  let fsTrapCount ← readU32
  let metadata ← times fsTrapCount.val
    (fun metadata => do
      let entry ← readFsRelativeTrap base
      pure (metadata.insertFsRelativeTrap entry)) metadata
  expectEof
  pure metadata

def decodeNativePatchMetadata (key : NativeImagePatchKey) (bytes : List UInt8) (base : U64) :
    Except IoError NativePatchMetadata :=
  (readMetadata key base (.new bytes)).1

/-! ### Moving -/

def rebaseNativePatchAddress (address sourceBase targetBase : U64) : Option U64 :=
  if sourceBase ≤ address ∧ targetBase.val + (address - sourceBase).val < 2 ^ 64 then
    some (targetBase + (address - sourceBase))
  else none

/-- `collect::<BTreeMap<_, _>>()`. -/
def collectMap {ν : Type} (entries : List (U64 × ν)) : SortedMap U64 ν :=
  entries.foldl (fun map entry => map.insert entry.1 entry.2) .empty

def rebaseNativePatchMetadata (metadata : NativePatchMetadata) (sourceBase targetBase : U64) :
    Option NativePatchMetadata := do
  let scannedRanges ← metadata.scannedRanges.mapM fun range => do
    let start ← rebaseNativePatchAddress range.1 sourceBase targetBase
    let stop ← rebaseNativePatchAddress range.2 sourceBase targetBase
    pure (start, stop)
  let syscallPatches ← metadata.syscallPatches.mapM fun patch => do
    let address ← rebaseNativePatchAddress patch.address sourceBase targetBase
    pure (⟨address⟩ : ExecutableSyscallPatch)
  let fsRelativePatches ← metadata.fsRelativePatches.entries.mapM fun entry => do
    let address ← rebaseNativePatchAddress entry.1 sourceBase targetBase
    pure (address, entry.2)
  let fsRelativeTraps ← metadata.fsRelativeTraps.entries.mapM fun entry => do
    let address ← rebaseNativePatchAddress entry.1 sourceBase targetBase
    pure (address, entry.2)
  pure ⟨scannedRanges, syscallPatches, collectMap fsRelativePatches, collectMap fsRelativeTraps⟩

end Mcr.Jit
