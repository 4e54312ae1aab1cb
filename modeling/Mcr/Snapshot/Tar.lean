import Mcr.Lib.Fields
import Mcr.Snapshot.Core

/-!
# Layer archives

A layer is a tar archive: for each entry a header block of fixed fields and the padded content of the file, and two
blocks of zeros at the end. Export and import are written apart from each other.
-/

namespace Mcr.Snapshot

def tarBlockSize : Nat := 512

/-! ### The fields of a header -/

def nameSlot : Slot := ⟨0, 100⟩
def modeSlot : Slot := ⟨100, 8⟩
def uidSlot : Slot := ⟨108, 8⟩
def gidSlot : Slot := ⟨116, 8⟩
def sizeSlot : Slot := ⟨124, 12⟩
def mtimeSlot : Slot := ⟨136, 12⟩
def checksumSlot : Slot := ⟨148, 8⟩
def typeflagSlot : Slot := ⟨156, 1⟩
def linkNameSlot : Slot := ⟨157, 100⟩
def magicSlot : Slot := ⟨257, 6⟩
def versionSlot : Slot := ⟨263, 2⟩
def devmajorSlot : Slot := ⟨329, 8⟩
def devminorSlot : Slot := ⟨337, 8⟩
def prefixSlot : Slot := ⟨345, 155⟩

/-! ### Export -/

inductive LayerExportError
  | cannotExportRootEntry
  | missingRegularContent (path : SnapshotPath)
  | regularContentSizeMismatch (path : SnapshotPath) (expected actual : Nat)
  | negativeMtime (path : SnapshotPath)
  | headerFieldTooLarge (field : String)
  | pathTooLong (path : Text)
  | linkNameTooLong (path : Text)
  /-- A vector cannot grow beyond `isize::MAX` bytes. -/
  | capacityOverflow
deriving DecidableEq

/-- `format!("{value:0width$o}")`. -/
def octalText (width value : Nat) : Text :=
  ((Nat.toDigits 8 value).map fun c => UInt8.ofNat c.toNat).leftpad width 48

def writeTarFieldString (header : Text) (slot : Slot) (value : Text) (fieldName : String) :
    Except LayerExportError Text :=
  if slot.width < value.length then .error (.headerFieldTooLarge fieldName)
  else .ok (writeAt header slot.start value)

def writeTarLinkName (header : Text) (slot : Slot) (value : Text) : Except LayerExportError Text :=
  if slot.width < value.length then .error (.linkNameTooLong value) else .ok (writeAt header slot.start value)

def writeTarFieldOctal (header : Text) (slot : Slot) (value : Nat) (fieldName : String) :
    Except LayerExportError Text :=
  let encoded := octalText (slot.width - 1) value
  if slot.width ≤ encoded.length then .error (.headerFieldTooLarge fieldName)
  else .ok (writeAt header slot.start encoded)

/-- The sum of the bytes in six octal digits, a zero and a blank. -/
def writeTarChecksum (header : Text) : Text :=
  writeAt header checksumSlot.start (octalText 6 (header.map UInt8.toNat).sum ++ [0, 32])

def layerTarPath (path : SnapshotPath) : Except LayerExportError Text :=
  if path.text = [slash] then .error .cannotExportRootEntry
  else .ok (path.text.dropWhile (· == slash))

structure TarPathParts where
  prefixPart : Option Text
  namePart : Text

def splitTarPath (path : Text) : Except LayerExportError TarPathParts :=
  if path.length ≤ nameSlot.width then .ok ⟨none, path⟩
  else
    let slashes := (List.range path.length).filter fun index => path[index]? == some slash
    match slashes.reverse.find? fun index =>
        !(path.take index).isEmpty && !(path.drop (index + 1)).isEmpty &&
          decide ((path.take index).length ≤ prefixSlot.width) &&
          decide ((path.drop (index + 1)).length ≤ nameSlot.width) with
    | some index => .ok ⟨some (path.take index), path.drop (index + 1)⟩
    | none => .error (.pathTooLong path)

def tarSize (metadata : LinuxMetadata) : UInt64 :=
  match metadata.kind with
  | .regular size => size
  | _ => 0

def tarTypeflag (metadata : LinuxMetadata) : UInt8 :=
  match metadata.kind with
  | .regular _ => 48
  | .hardlink _ => 49
  | .symlink _ => 50
  | .characterDevice _ _ => 51
  | .blockDevice _ _ => 52
  | .directory => 53
  | .fifo => 54

def tarMtimeSeconds (path : SnapshotPath) (metadata : LinuxMetadata) : Except LayerExportError Nat :=
  if metadata.mtimeUnixNanos < 0 then .error (.negativeMtime path)
  else
    let seconds := (metadata.mtimeUnixNanos / 1000000000).toNat
    if 2 ^ 64 ≤ seconds then .error (.headerFieldTooLarge "mtime") else .ok seconds

def writeTarPrefix (header : Text) : Option Text → Except LayerExportError Text
  | some prefixPart => writeTarFieldString header prefixSlot prefixPart "prefix"
  | none => .ok header

/-- The link name or the device numbers, where the kind of the file has them. -/
def writeTarLink (header : Text) : SnapshotFileKind → Except LayerExportError Text
  | .symlink target => writeTarLinkName header linkNameSlot target
  | .hardlink target => do
    let target ← layerTarPath target
    writeTarLinkName header linkNameSlot target
  | .characterDevice major minor | .blockDevice major minor => do
    let header ← writeTarFieldOctal header devmajorSlot major.toNat "devmajor"
    writeTarFieldOctal header devminorSlot minor.toNat "devminor"
  | .directory | .regular _ | .fifo => .ok header

def appendTarHeader (path : SnapshotPath) (metadata : LinuxMetadata) : Except LayerExportError Text := do
  let header := List.replicate tarBlockSize 0
  let tarPath ← layerTarPath path
  let pathParts ← splitTarPath tarPath
  let header ← writeTarFieldString header nameSlot pathParts.namePart "name"
  let header ← writeTarPrefix header pathParts.prefixPart
  let header ← writeTarFieldOctal header modeSlot metadata.mode.toNat "mode"
  let header ← writeTarFieldOctal header uidSlot metadata.uid.toNat "uid"
  let header ← writeTarFieldOctal header gidSlot metadata.gid.toNat "gid"
  let header ← writeTarFieldOctal header sizeSlot (tarSize metadata).toNat "size"
  let seconds ← tarMtimeSeconds path metadata
  let header ← writeTarFieldOctal header mtimeSlot seconds "mtime"
  let header := writeAt header checksumSlot.start (List.replicate 8 32)
  let header := writeAt header typeflagSlot.start [tarTypeflag metadata]
  let header ← writeTarLink header metadata.kind
  -- `ustar` and `00`
  let header ← writeTarFieldString header magicSlot [117, 115, 116, 97, 114] "magic"
  let header ← writeTarFieldString header versionSlot [48, 48] "version"
  pure (writeTarChecksum header)

def appendTarContent (content : List UInt8) : List UInt8 :=
  content ++ List.replicate ((tarBlockSize - content.length % tarBlockSize) % tarBlockSize) 0

def regularContentFor (path : SnapshotPath) (metadata : LinuxMetadata)
    (regularContents : SortedMap SnapshotPath (List UInt8)) : Except LayerExportError (List UInt8) :=
  match metadata.kind with
  | .regular size =>
    match regularContents.get? path with
    | none => if size = 0 then .ok [] else .error (.missingRegularContent path)
    | some content =>
      if content.length ≠ size.toNat then .error (.regularContentSizeMismatch path size.toNat content.length)
      else .ok content
  | _ => .ok []

/-- What the archive shows of a deletion or an opaque directory. -/
def markMetadata : LinuxMetadata := ⟨.regular 0, 0, 0, 0, 0⟩

def appendLayerTarEntry (entry : LayerEntry) (regularContents : SortedMap SnapshotPath (List UInt8)) :
    Except LayerExportError (List UInt8) :=
  match entry.kind with
  | .filesystem metadata => do
    let content ← regularContentFor entry.path metadata regularContents
    let header ← appendTarHeader entry.path metadata
    pure (header ++ appendTarContent content)
  | .whiteout _ | .opaqueDirectory _ => appendTarHeader entry.path markMetadata

def SnapshotLayerPlan.toUncompressedTar (plan : SnapshotLayerPlan)
    (regularContents : SortedMap SnapshotPath (List UInt8)) : Except LayerExportError (List UInt8) := do
  let archive ← plan.entries.foldlM (fun archive entry => do
    let bytes ← appendLayerTarEntry entry regularContents
    pure (archive ++ bytes)) []
  let archive := archive ++ List.replicate (tarBlockSize * 2) 0
  if 2 ^ 63 ≤ archive.length then .error .capacityOverflow else .ok archive

/-! ### Import -/

inductive LayerUnpackError
  | archiveTooLarge
  | truncatedHeader
  | truncatedEntryData
  | invalidEntryPath (path : Text)
  | invalidStringField (field : String)
  | invalidOctalField (field : String)
  | fieldTooLarge (field : String)
  | unsupportedEntryType (entryType : UInt8)
  | snapshotPath (error : SnapshotError)
deriving DecidableEq

def tarString (field : Text) (fieldName : String) : Except LayerUnpackError Text :=
  let value := (field.takeWhile (· != 0)).rdropWhile (· == 32)
  if value.all (· < 128) then .ok value else .error (.invalidStringField fieldName)

/-- One digit of `tar_octal`. -/
def pushOctal (fieldName : String) (parsed : Nat) (byte : UInt8) : Except LayerUnpackError Nat :=
  if byte < 48 ∨ 55 < byte then .error (.invalidOctalField fieldName)
  else
    let parsed := parsed * 8 + (byte.toNat - 48)
    if 2 ^ 64 ≤ parsed then .error (.fieldTooLarge fieldName) else .ok parsed

/-- No digits at all are zero. -/
def tarOctal (field : Text) (fieldName : String) : Except LayerUnpackError Nat :=
  (((field.takeWhile (· != 0)).dropWhile (· == 32)).rdropWhile (· == 32)).foldlM (pushOctal fieldName) 0

/-- `u32::try_from` of an octal field. -/
def tarOctal32 (field : Text) (fieldName : String) : Except LayerUnpackError UInt32 := do
  let value ← tarOctal field fieldName
  if 2 ^ 32 ≤ value then .error (.fieldTooLarge fieldName) else pure (UInt32.ofNat value)

def trimTrailingSlashes (path : Text) : Text := path.rdropWhile (· == slash)

def relativeTarPathToSnapshotPath (path : Text) : Except LayerUnpackError SnapshotPath :=
  if path.isEmpty ∨ path.head? = some slash ∨ 92 ∈ path then .error (.invalidEntryPath path)
  else
    match SnapshotPath.new (slash :: path) with
    | .ok path => .ok path
    | .error error => .error (.snapshotPath error)

def tarEntryPath (header : Text) : Except LayerUnpackError SnapshotPath := do
  let name ← tarString (nameSlot.field header) "name"
  let prefixText ← tarString (prefixSlot.field header) "prefix"
  relativeTarPathToSnapshotPath
    (trimTrailingSlashes (if prefixText.isEmpty then name else prefixText ++ slash :: name))

def tarLinkSnapshotPath (field : Text) : Except LayerUnpackError SnapshotPath := do
  let path ← tarString field "linkname"
  relativeTarPathToSnapshotPath (trimTrailingSlashes path)

def tarEntryKind (header : Text) (size : UInt64) : Except LayerUnpackError SnapshotFileKind :=
  let device := fun (kind : UInt32 → UInt32 → SnapshotFileKind) => do
    let major ← tarOctal32 (devmajorSlot.field header) "devmajor"
    let minor ← tarOctal32 (devminorSlot.field header) "devminor"
    pure (kind major minor)
  match (header[typeflagSlot.start]?).getD 0 with
  | 0 | 48 => .ok (.regular size)
  | 49 => do pure (.hardlink (← tarLinkSnapshotPath (linkNameSlot.field header)))
  | 50 => do pure (.symlink (← tarString (linkNameSlot.field header) "linkname"))
  | 51 => device .characterDevice
  | 52 => device .blockDevice
  | 53 => .ok .directory
  | 54 => .ok .fifo
  | other => .error (.unsupportedEntryType other)

def paddedTarLen (size : Nat) : Except LayerUnpackError Nat :=
  let padded := size + (tarBlockSize - size % tarBlockSize) % tarBlockSize
  if 2 ^ 64 ≤ padded then .error .archiveTooLarge else .ok padded

/-- What one header says: an entry, and the size of the data behind it. -/
def readTarHeader (header : Text) : Except LayerUnpackError (SnapshotEntry × Nat) := do
  let path ← tarEntryPath header
  let mode ← tarOctal32 (modeSlot.field header) "mode"
  let uid ← tarOctal32 (uidSlot.field header) "uid"
  let gid ← tarOctal32 (gidSlot.field header) "gid"
  let size ← tarOctal (sizeSlot.field header) "size"
  let mtimeSeconds ← tarOctal (mtimeSlot.field header) "mtime"
  let kind ← tarEntryKind header (UInt64.ofNat size)
  pure (⟨path, ⟨kind, mode, uid, gid, mtimeSeconds * 1000000000⟩⟩, size)

/-- The loop of the import over what is left of the archive. The offset of a byte in a slice and the end of a block
behind it fit into a machine word. -/
def unpackEntries (bytes : List UInt8) : Except LayerUnpackError (List SnapshotEntry) :=
  if bytes.isEmpty then .ok []
  else if _ : bytes.length < tarBlockSize then .error .truncatedHeader
  else if (bytes.take tarBlockSize).all (· == 0) then .ok []
  else
    match readTarHeader (bytes.take tarBlockSize) with
    | .error error => .error error
    | .ok (entry, size) =>
      match paddedTarLen size with
      | .error error => .error error
      | .ok dataLen =>
        if bytes.length < tarBlockSize + dataLen then .error .truncatedEntryData
        else
          match unpackEntries (bytes.drop (tarBlockSize + dataLen)) with
          | .error error => .error error
          | .ok entries => .ok (entry :: entries)
termination_by bytes.length
decreasing_by
  rw [List.length_drop]
  unfold tarBlockSize at *
  omega

def fromUncompressedTar (bytes : List UInt8) : Except LayerUnpackError (List SnapshotEntry) := do
  let entries ← unpackEntries bytes
  pure (entries.mergeSort fun left right => decide (left.path ≤ right.path))

/-- `BaseLayerSnapshot::get`. -/
def getEntry (entries : List SnapshotEntry) (path : SnapshotPath) : Option SnapshotEntry :=
  entries.find? fun entry => decide (entry.path = path)

end Mcr.Snapshot
