import Mcr.Image.Oci
import Mcr.Lib.Prog

/-!
# Pushing an image

`push_to_registry` reads and checks every blob of the local store, asks the registry for each, and then works
through a plan: the blobs the registry lacks, and the manifest last. The file system and the registry are
arbitrary; beside them runs a journal of what the registry was asked and what it answered.
-/

namespace Mcr.Image

inductive RegistryPushUploadKind
  | blob
  | manifest
deriving DecidableEq, Repr

structure RegistryPushUpload where
  kind : RegistryPushUploadKind
  descriptor : OciDescriptor

structure RegistryPushPlan where
  reference : OciReference
  manifestDescriptor : OciDescriptor
  uploads : List RegistryPushUpload

/-- The loop of `RegistryPushPlan::from_manifest`: the digests planned so far, and the uploads. -/
def planBlob (remoteBlobs : SortedSet OciDigest) (planned : SortedSet OciDigest × List RegistryPushUpload)
    (descriptor : OciDescriptor) : SortedSet OciDigest × List RegistryPushUpload :=
  if descriptor.digest ∈ remoteBlobs then planned
  else if descriptor.digest ∈ planned.1 then planned
  else (planned.1.insert descriptor.digest, planned.2 ++ [⟨.blob, descriptor⟩])

def RegistryPushPlan.fromManifest (reference : OciReference) (manifestDescriptor : OciDescriptor)
    (manifest : OciImageManifest) (remoteBlobs : List OciDigest) : Except ImageError RegistryPushPlan :=
  if manifestDescriptor.mediaType ≠ mediaTypeOciManifest then
    .error (.unsupportedManifestMediaType manifestDescriptor.mediaType)
  else if manifest.config.mediaType ≠ mediaTypeOciConfig then
    .error (.unsupportedManifestMediaType manifest.config.mediaType)
  else do
    manifest.layers.forM fun layer => validateLayerMediaType layer.mediaType
    let remote := remoteBlobs.foldl SortedSet.insert .empty
    let planned := manifest.blobs.foldl (planBlob remote) (.empty, [])
    pure ⟨reference, manifestDescriptor, planned.2 ++ [⟨.manifest, manifestDescriptor⟩]⟩

/-! ### The world around the store -/

/-- The file system and the registry, over a state of their own: each call may answer anything. -/
structure Outside (σ : Type) where
  read : List String → σ → Except ImageError (List UInt8) × σ
  blobExists : OciDigest → σ → Except ImageError Bool × σ
  uploadBlob : OciDescriptor → List UInt8 → σ → Except ImageError Unit × σ
  uploadManifest : OciReference → OciDescriptor → List UInt8 → σ → Except ImageError Unit × σ

inductive RegistryCall
  | blobExists (digest : OciDigest) (answer : Except ImageError Bool)
  | uploadBlob (descriptor : OciDescriptor) (bytes : List UInt8) (answer : Except ImageError Unit)
  | uploadManifest (reference : OciReference) (descriptor : OciDescriptor) (bytes : List UInt8)
      (answer : Except ImageError Unit)

structure PushState (σ : Type) where
  world : σ
  journal : List RegistryCall

/-- How a push ends early: with an error, or in the panic of an `expect`. -/
inductive PushStop
  | error (error : ImageError)
  | panic

variable {σ : Type}

abbrev PushProg (σ α : Type) : Type := Prog (PushState σ) PushStop α

namespace PushProg

/-- A check of `push_to_registry`, whose error the caller gets. -/
def check {α : Type} (x : Except ImageError α) : PushProg σ α := .mapError .error (.ofExcept x)

def call {α : Type} (ask : σ → Except ImageError α × σ) (record : Except ImageError α → List RegistryCall) :
    PushProg σ α := fun s =>
  let answer := ask s.world
  (match answer.1 with
    | .ok a => .ok a
    | .error error => .error (.error error),
    ⟨answer.2, s.journal ++ record answer.1⟩)

end PushProg

/-! ### The content store -/

structure LocalContentStore where
  root : List String

namespace LocalContentStore

variable (sha256 : List UInt8 → String) (outside : Outside σ) (store : LocalContentStore)

def blobPath (digest : OciDigest) : Except ImageError (List String) :=
  if digest.algorithm ≠ .sha256 then .error (.unsupportedDigestAlgorithm digest.algorithm.asStr)
  else .ok (store.root ++ ["blobs", digest.algorithm.asStr, digest.encoded])

/-- `OciDigest::sha256`. -/
def digestOf (bytes : List UInt8) : OciDigest := ⟨.sha256, sha256 bytes⟩

def verifyBlobBytes (expected : OciDigest) (bytes : List UInt8) : Except ImageError Unit :=
  if digestOf sha256 bytes ≠ expected then .error (.digestMismatch expected (digestOf sha256 bytes)) else .ok ()

def readBlob (descriptor : OciDescriptor) : PushProg σ (List UInt8) := do
  let path ← PushProg.check (store.blobPath descriptor.digest)
  let bytes ← PushProg.call (outside.read path) fun _ => []
  if bytes.length ≠ descriptor.size then .throw (.error (.sizeMismatch descriptor.size bytes.length))
  else do
    PushProg.check (verifyBlobBytes sha256 descriptor.digest bytes)
    pure bytes

def blobExists (digest : OciDigest) : PushProg σ Bool :=
  PushProg.call (outside.blobExists digest) fun answer => [.blobExists digest answer]

def uploadBlob (descriptor : OciDescriptor) (bytes : List UInt8) : PushProg σ Unit :=
  PushProg.call (outside.uploadBlob descriptor bytes) fun answer => [.uploadBlob descriptor bytes answer]

def uploadManifest (reference : OciReference) (descriptor : OciDescriptor) (bytes : List UInt8) : PushProg σ Unit :=
  PushProg.call (outside.uploadManifest reference descriptor bytes) fun answer =>
    [.uploadManifest reference descriptor bytes answer]

/-- The blobs read from the store by digest, and the digests the registry has. -/
structure Checked where
  localBlobs : SortedMap OciDigest (OciDescriptor × List UInt8)
  remoteBlobs : List OciDigest

/-- What `push_to_registry` does with the configuration and with each layer before it uploads anything; a blob
already read under the digest stays. -/
def checkBlob (checked : Checked) (descriptor : OciDescriptor) : PushProg σ Checked := do
  let bytes ← readBlob sha256 outside store descriptor
  let found ← blobExists outside descriptor.digest
  pure
    { localBlobs := match checked.localBlobs.get? descriptor.digest with
        | some _ => checked.localBlobs
        | none => checked.localBlobs.insert descriptor.digest (descriptor, bytes)
      remoteBlobs := if found then checked.remoteBlobs ++ [descriptor.digest] else checked.remoteBlobs }

def checkLayers (checked : Checked) : List OciDescriptor → PushProg σ Checked
  | [] => pure checked
  | layer :: rest => do
    PushProg.check (validateLayerMediaType layer.mediaType)
    let checked ← checkBlob sha256 outside store checked layer
    checkLayers checked rest

def upload (plan : RegistryPushPlan) (manifestBytes : List UInt8) (checked : Checked) (upload : RegistryPushUpload) :
    PushProg σ Unit :=
  match upload.kind with
  | .blob => match checked.localBlobs.get? upload.descriptor.digest with
    | some (_, bytes) => uploadBlob outside upload.descriptor bytes
    | none => .throw .panic
  | .manifest => uploadManifest outside plan.reference upload.descriptor manifestBytes

def pushToRegistry (reference : OciReference) (manifest : OciImageManifest) : PushProg σ RegistryPushPlan := do
  if manifest.config.mediaType ≠ mediaTypeOciConfig then
    .throw (.error (.unsupportedManifestMediaType manifest.config.mediaType))
  else do
    let checked ← checkBlob sha256 outside store ⟨.empty, []⟩ manifest.config
    let checked ← checkLayers sha256 outside store checked manifest.layers
    let manifestBytes := manifest.toJsonBytes
    let manifestDescriptor := OciDescriptor.new mediaTypeOciManifest (digestOf sha256 manifestBytes) manifestBytes.length
    let plan ← PushProg.check
      (RegistryPushPlan.fromManifest reference manifestDescriptor manifest checked.remoteBlobs)
    .forEach plan.uploads (upload outside plan manifestBytes checked)
    pure plan

end LocalContentStore

end Mcr.Image
