import Mcr.Lib.SortedSet

/-!
# Image manifests

An image is a configuration and a list of layers, each named by a descriptor: what it is, the digest of its
bytes and how many there are. The manifest is sent as JSON.
-/

namespace Mcr.Image

inductive DigestAlgorithm
  | sha256
deriving DecidableEq, Repr

def DigestAlgorithm.asStr : DigestAlgorithm → String
  | .sha256 => "sha256"

structure OciDigest where
  algorithm : DigestAlgorithm
  encoded : String
deriving DecidableEq, Repr

theorem OciDigest.encoded_injective : Function.Injective OciDigest.encoded := by
  intro a b h
  cases a
  cases b
  cases h
  rfl

/-- There is one algorithm, so digests are ordered by their text. -/
instance : LinearOrder OciDigest := .lift' OciDigest.encoded OciDigest.encoded_injective

def OciDigest.toString (digest : OciDigest) : String := digest.algorithm.asStr ++ ":" ++ digest.encoded

structure OciReference where
  registry : String
  repository : String
  tag : Option String
  digest : Option OciDigest

structure OciDescriptor where
  mediaType : String
  digest : OciDigest
  size : Nat
  annotations : SortedMap String String

def OciDescriptor.new (mediaType : String) (digest : OciDigest) (size : Nat) : OciDescriptor :=
  ⟨mediaType, digest, size, .empty⟩

structure OciImageManifest where
  config : OciDescriptor
  layers : List OciDescriptor

def OciImageManifest.blobs (manifest : OciImageManifest) : List OciDescriptor := manifest.config :: manifest.layers

def mediaTypeOciLayer : String := "application/vnd.oci.image.layer.v1.tar"
def mediaTypeOciLayerGzip : String := "application/vnd.oci.image.layer.v1.tar+gzip"
def mediaTypeOciConfig : String := "application/vnd.oci.image.config.v1+json"
def mediaTypeOciManifest : String := "application/vnd.oci.image.manifest.v1+json"

inductive ImageError
  | unsupportedDigestAlgorithm (algorithm : String)
  | unsupportedManifestMediaType (mediaType : String)
  | unsupportedLayerMediaType (mediaType : String)
  | digestMismatch (expected actual : OciDigest)
  | sizeMismatch (expected actual : Nat)
  | io (message : String)

def validateLayerMediaType (mediaType : String) : Except ImageError Unit :=
  if mediaType = mediaTypeOciLayer ∨ mediaType = mediaTypeOciLayerGzip then .ok ()
  else .error (.unsupportedLayerMediaType mediaType)

/-! ### The manifest as JSON -/

def escapeJsonChar (ch : Char) : String :=
  match ch.toNat with
  | 0x22 => "\\\""
  | 0x5c => "\\\\"
  | 0x08 => "\\b"
  | 0x0c => "\\f"
  | 0x0a => "\\n"
  | 0x0d => "\\r"
  | 0x09 => "\\t"
  | code =>
    if code ≤ 0x1f then "\\u" ++ String.ofList ((Nat.toDigits 16 code).leftpad 4 '0')
    else String.ofList [ch]

def pushJsonString (output value : String) : String :=
  (value.toList.foldl (fun output ch => output ++ escapeJsonChar ch) (output ++ "\"")) ++ "\""

/-- The members of an array or an object, with commas between them. -/
def pushJsonMembers {α : Type} (push : String → α → String) (output : String) : List α → String
  | [] => output
  | first :: rest => rest.foldl (fun output member => push (output ++ ",") member) (push output first)

def pushDescriptorJson (output : String) (descriptor : OciDescriptor) : String :=
  let output := pushJsonString (output ++ "\x7b\"mediaType\":") descriptor.mediaType
  let output := pushJsonString (output ++ ",\"digest\":") descriptor.digest.toString
  let output := output ++ ",\"size\":" ++ toString descriptor.size
  let output :=
    if descriptor.annotations.entries.isEmpty then output
    else
      pushJsonMembers (fun output (key, value) => pushJsonString (pushJsonString output key ++ ":") value)
        (output ++ ",\"annotations\":\x7b") descriptor.annotations.entries ++ "\x7d"
  output ++ "\x7d"

def OciImageManifest.toJsonBytes (manifest : OciImageManifest) : List UInt8 :=
  let output := pushJsonString "\x7b\"schemaVersion\":2,\"mediaType\":" mediaTypeOciManifest
  let output := pushDescriptorJson (output ++ ",\"config\":") manifest.config
  let output := pushJsonMembers pushDescriptorJson (output ++ ",\"layers\":[") manifest.layers
  (output ++ "]\x7d").toUTF8.toList

end Mcr.Image
