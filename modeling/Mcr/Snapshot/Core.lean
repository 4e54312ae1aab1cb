import Mcr.Lib.SortedSet

/-!
# Snapshots and their layers

A snapshot records the metadata of the files it adds, the lower paths it deletes and the directories it makes opaque.
The plan of its layer lists them by path, deletions and opaque directories as files with names of their own.
-/

namespace Mcr.Snapshot

/-- A string, as the bytes it is made of. -/
abbrev Text : Type := List UInt8

def slash : UInt8 := 47

/-- The components `.` and `..`. -/
def dot : Text := [46]
def dotDot : Text := [46, 46]

/-- `.wh.`, and the name `.wh..wh..opq`. -/
def whiteoutMark : Text := [46, 119, 104, 46]
def opaqueMark : Text := whiteoutMark ++ whiteoutMark ++ [46, 111, 112, 113]

inductive SnapshotError
  | relativeSnapshotPath (path : Text)
  | invalidSnapshotPath (path : Text)
  | cannotWhiteoutRoot
  | conflictingLayerEntry (path : Text)
deriving DecidableEq, Repr

/-! ### Paths -/

/-- The checks of `SnapshotPath::new`. -/
def validateSnapshotPath (path : Text) : Except SnapshotError Unit :=
  if path.head? ≠ some slash then .error (.relativeSnapshotPath path)
  else if 1 < path.length ∧ ((path.splitOn slash).drop 1).any (fun component =>
      component.isEmpty || component == dot || component == dotDot) = true then
    .error (.invalidSnapshotPath path)
  else .ok ()

structure SnapshotPath where
  text : Text
  valid : validateSnapshotPath text = .ok ()

namespace SnapshotPath

theorem ext_text {path path' : SnapshotPath} (h : path.text = path'.text) : path = path' := by
  cases path
  cases path'
  cases h
  rfl

instance : LinearOrder SnapshotPath :=
  .lift' (fun path => path.text.map UInt8.toNat) fun _ _ h =>
    ext_text (List.map_injective_iff.mpr (fun _ _ => UInt8.toNat_inj.mp) h)

def new (path : Text) : Except SnapshotError SnapshotPath :=
  match h : validateSnapshotPath path with
  | .ok () => .ok ⟨path, h⟩
  | .error error => .error error

theorem new_text (path : SnapshotPath) : new path.text = .ok path := by
  unfold new
  split
  · rfl
  · rename_i h
    nomatch h.symm.trans path.valid

theorem new_ok {text : Text} {path : SnapshotPath} (h : new text = .ok path) : path.text = text := by
  unfold new at h
  split at h
  · cases h
    rfl
  · nomatch h

end SnapshotPath

/-! ### Metadata -/

inductive SnapshotFileKind
  | directory
  | regular (size : UInt64)
  | symlink (target : Text)
  | hardlink (target : SnapshotPath)
  | characterDevice (major minor : UInt32)
  | blockDevice (major minor : UInt32)
  | fifo
deriving DecidableEq

structure LinuxMetadata where
  kind : SnapshotFileKind
  mode : UInt32
  uid : UInt32
  gid : UInt32
  mtimeUnixNanos : Int
deriving DecidableEq

structure SnapshotEntry where
  path : SnapshotPath
  metadata : LinuxMetadata
deriving DecidableEq

/-- What a snapshot adds, deletes and hides. Its name, its lower layers and its place on the host have no part in its
layer. -/
structure SnapshotSpec where
  sidecarRecords : SortedMap SnapshotPath LinuxMetadata
  deletedLowerPaths : SortedSet SnapshotPath
  opaqueDirectories : SortedSet SnapshotPath

/-! ### The plan of a layer -/

inductive LayerEntryKind
  | filesystem (metadata : LinuxMetadata)
  | whiteout (deletedPath : SnapshotPath)
  | opaqueDirectory (directoryPath : SnapshotPath)
deriving DecidableEq

structure LayerEntry where
  path : SnapshotPath
  kind : LayerEntryKind
deriving DecidableEq

structure SnapshotLayerPlan where
  entries : List LayerEntry

def rfindSlash : Text → Option Nat
  | [] => none
  | byte :: rest =>
    match rfindSlash rest with
    | some index => some (index + 1)
    | none => if byte = slash then some 0 else none

/-- An absolute path has a slash, so the search does not fail. -/
def splitParentAndName (path : SnapshotPath) : Except SnapshotError (Text × Text) :=
  if path.text = [slash] then .error .cannotWhiteoutRoot
  else
    let index := (rfindSlash path.text).getD 0
    let parent := if index = 0 then [slash] else path.text.take index
    .ok (parent, path.text.drop (index + 1))

def joinSnapshotChild (parent child : Text) : Text :=
  if parent = [slash] then slash :: child else parent ++ slash :: child

def whiteoutPathForDeleted (deletedPath : SnapshotPath) : Except SnapshotError SnapshotPath := do
  let (parent, name) ← splitParentAndName deletedPath
  SnapshotPath.new (joinSnapshotChild parent (whiteoutMark ++ name))

def opaqueWhiteoutPathForDirectory (directoryPath : SnapshotPath) : Except SnapshotError SnapshotPath :=
  SnapshotPath.new (joinSnapshotChild directoryPath.text opaqueMark)

def insertLayerEntry (entries : SortedMap SnapshotPath LayerEntryKind) (path : SnapshotPath) (kind : LayerEntryKind) :
    Except SnapshotError (SortedMap SnapshotPath LayerEntryKind) :=
  if (entries.get? path).isSome then .error (.conflictingLayerEntry path.text) else .ok (entries.insert path kind)

namespace SnapshotLayerPlan

def fromParts (entries : List SnapshotEntry) (deletedLowerPaths opaqueDirectories : List SnapshotPath) :
    Except SnapshotError SnapshotLayerPlan := do
  let planned ← entries.foldlM
    (fun planned entry => insertLayerEntry planned entry.path (.filesystem entry.metadata)) .empty
  let planned ← deletedLowerPaths.foldlM (fun planned deletedPath => do
    let path ← whiteoutPathForDeleted deletedPath
    insertLayerEntry planned path (.whiteout deletedPath)) planned
  let planned ← opaqueDirectories.foldlM (fun planned directoryPath => do
    let path ← opaqueWhiteoutPathForDirectory directoryPath
    insertLayerEntry planned path (.opaqueDirectory directoryPath)) planned
  pure ⟨planned.entries.map fun (path, kind) => ⟨path, kind⟩⟩

end SnapshotLayerPlan

def SnapshotSpec.deterministicLayerPlan (spec : SnapshotSpec) : Except SnapshotError SnapshotLayerPlan :=
  SnapshotLayerPlan.fromParts (spec.sidecarRecords.entries.map fun (path, metadata) => ⟨path, metadata⟩)
    spec.deletedLowerPaths.toList spec.opaqueDirectories.toList

end Mcr.Snapshot
