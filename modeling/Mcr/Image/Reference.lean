import Mcr.Image.Oci
import Mcr.Lib.Str

/-!
# Image references

A reference names an image by a registry, a repository, a tag and a digest, each but the repository optional where it
is written. `Spelling` is the grammar of what may be written: the registry stands before the first slash and the tag
after the last one, so a colon belongs to one of them by its place alone. Parsing accepts exactly what the grammar
spells, each text in one way, and printing spells every part that a reference has.
-/

namespace Mcr.Image

open Str

def defaultRegistry : String := "registry-1.docker.io"
def defaultTag : String := "latest"

/-- The errors of `ImageError` that a reference is refused with. -/
inductive ReferenceError
  | invalidReference (value : String)
  | invalidRepository (repository : String)
  | invalidTag (tag : String)
  | invalidDigest (value : String)
  | unsupportedDigestAlgorithm (algorithm : String)
deriving DecidableEq, Repr

/-! ### Digests -/

def isAsciiHexdigit (c : Char) : Bool := c ∈ "0123456789abcdefABCDEF".toList

def DigestAlgorithm.parse (value : Str) : Except ReferenceError DigestAlgorithm :=
  if value = "sha256".toList then .ok .sha256 else .error (.unsupportedDigestAlgorithm (.ofList value))

/-- The length is one of bytes, which are as many as the characters when all of these are digits. -/
def validateDigestHex (encoded : Str) : Except ReferenceError Unit :=
  if encoded.length ≠ 64 ∨ encoded.all isAsciiHexdigit = false then .error (.invalidDigest (.ofList encoded))
  else .ok ()

def OciDigest.parse (value : Str) : Except ReferenceError OciDigest :=
  match splitOnce ':' value with
  | none => .error (.invalidDigest (.ofList value))
  | some (algorithm, encoded) => do
    let algorithm ← DigestAlgorithm.parse algorithm
    validateDigestHex encoded
    pure ⟨algorithm, .ofList (encoded.map Char.toLower)⟩

/-! ### References -/

def splitTag (value : Str) : Except ReferenceError (Str × Option Str) :=
  let lastPathStart := match rfind '/' value with
    | none => 0
    | some index => index + 1
  match rfind ':' (value.drop lastPathStart) with
  | none => .ok (value, none)
  | some tagSeparator =>
    let tagSeparator := lastPathStart + tagSeparator
    let name := value.take tagSeparator
    let tag := value.drop (tagSeparator + 1)
    if name = [] ∨ tag = [] then .error (.invalidReference (.ofList value)) else .ok (name, some tag)

/-- What stands before the first slash is a registry if it looks like a host. -/
def looksLikeRegistry (first : Str) : Bool :=
  first.contains '.' || first.contains ':' || first == "localhost".toList

def splitRegistryRepository (value : Str) : Except ReferenceError (Str × Str) := do
  if value = [] then .error (.invalidReference (.ofList value)) else
  let (registry, repository) ← match splitOnce '/' value with
    | some (first, rest) =>
      if looksLikeRegistry first then
        if rest = [] then .error (.invalidReference (.ofList value)) else .ok (first, rest)
      else .ok (defaultRegistry.toList, value)
    | none => .ok (defaultRegistry.toList, value)
  let repository :=
    if registry = defaultRegistry.toList ∧ '/' ∉ repository then "library/".toList ++ repository else repository
  if registry = [] ∨ registry.any isAsciiWhitespace then .error (.invalidReference (.ofList value))
  else .ok (registry, repository)

def isRepositoryChar (c : Char) : Bool := c.isLower || c.isDigit || c ∈ ['.', '_', '-', '/']

def validateRepository (repository : Str) : Except ReferenceError Unit :=
  if repository = [] ∨ (repository.splitOn '/').any List.isEmpty ∨ repository.any (!isRepositoryChar ·) then
    .error (.invalidRepository (.ofList repository))
  else .ok ()

def isTagChar (c : Char) : Bool := c.isAlphanum || c ∈ ['_', '.', '-']

/-- The length is one of bytes, as for digests. -/
def validateTag : Str → Except ReferenceError Unit
  | [] => .error (.invalidTag "")
  | first :: rest =>
    let tag := first :: rest
    if 128 < tag.length ∨ !(first = '_' || first.isAlphanum) ∨ tag.any (!isTagChar ·) then
      .error (.invalidTag (.ofList tag))
    else .ok ()

/-- The name and the tag stand before the at sign, the digest behind it. -/
def splitDigest (value : Str) : Except ReferenceError (Str × Option OciDigest) :=
  match splitOnce '@' value with
  | some (name, digest) =>
    if name = [] ∨ digest = [] ∨ '@' ∈ digest then .error (.invalidReference (.ofList value))
    else do
      let digest ← OciDigest.parse digest
      pure (name, some digest)
  | none => .ok (value, none)

/-- The tag is the default one where neither a tag nor a digest is given. -/
def tagOrDefault (parsedTag : Option Str) (digest : Option OciDigest) : Except ReferenceError (Option String) :=
  match parsedTag with
  | some tag => do
    validateTag tag
    pure (some (String.ofList tag))
  | none => .ok (if digest.isNone then some defaultTag else none)

def OciReference.parse (value : String) : Except ReferenceError OciReference := do
  let value := trim value.toList
  if value = [] ∨ value.any isAsciiWhitespace then .error (.invalidReference (.ofList value))
  else
    let (nameAndTag, digest) ← splitDigest value
    let (name, parsedTag) ← splitTag nameAndTag
    let (registry, repository) ← splitRegistryRepository name
    validateRepository repository
    let tag ← tagOrDefault parsedTag digest
    pure ⟨.ofList registry, .ofList repository, tag, digest⟩

def OciReference.toString (reference : OciReference) : String :=
  let output := reference.registry ++ "/" ++ reference.repository
  let output := match reference.tag with
    | some tag => output ++ ":" ++ tag
    | none => output
  match reference.digest with
    | some digest => output ++ "@" ++ digest.toString
    | none => output

end Mcr.Image
