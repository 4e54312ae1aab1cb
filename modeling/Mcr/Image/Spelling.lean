import Mcr.Image.Reference
import Mcr.Lib.Prog

/-!
# The grammar of image references

A reference may be written with a registry before the first slash, a tag after the last one and a digest after an at
sign. A text is parsed exactly when it is written so, and it is written so in one way only.
-/

namespace Mcr.Image

open Str
open Prog (except_bind_eq_ok)

variable {value name tag registry repository hex : Str}

/-- An image reference as it is written. -/
@[ext] structure Spelling where
  registry : Option Str
  name : Str
  tag : Option Str
  digest : Option Str

/-- The default registry keeps the names of one component in its library. -/
def repositoryIn (registry name : Str) : Str :=
  if registry = defaultRegistry.toList ∧ '/' ∉ name then "library/".toList ++ name else name

def pathText (registry : Option Str) (name : Str) : Str :=
  match registry with
  | some registry => registry ++ '/' :: name
  | none => name

def tagText (path : Str) (tag : Option Str) : Str :=
  match tag with
  | some tag => path ++ ':' :: tag
  | none => path

def digestText (nameAndTag : Str) (digest : Option Str) : Str :=
  match digest with
  | some hex => nameAndTag ++ '@' :: ("sha256".toList ++ ':' :: hex)
  | none => nameAndTag

namespace Spelling

def path (s : Spelling) : Str := pathText s.registry s.name

def nameAndTag (s : Spelling) : Str := tagText s.path s.tag

def text (s : Spelling) : Str := digestText s.nameAndTag s.digest

def registryName (s : Spelling) : Str := s.registry.getD defaultRegistry.toList

/-- What a spelling stands for: the parts left out have their defaults. -/
def reference (s : Spelling) : OciReference where
  registry := .ofList s.registryName
  repository := .ofList (repositoryIn s.registryName s.name)
  tag := (s.tag.map String.ofList).or (if s.digest.isNone then some defaultTag else none)
  digest := s.digest.map fun hex => ⟨.sha256, .ofList (hex.map Char.toLower)⟩

end Spelling

/-! ### The parts -/

/-- A host as it stands before the first slash. -/
structure ValidRegistry (registry : Str) : Prop where
  looks : looksLikeRegistry registry = true
  no_slash : '/' ∉ registry
  no_at : '@' ∉ registry
  no_space : ∀ c ∈ registry, isAsciiWhitespace c = false

structure ValidName (name : Str) : Prop where
  components : ∀ component ∈ name.splitOn '/', component ≠ []
  chars : ∀ c ∈ name, isRepositoryChar c = true

structure ValidTag (tag : Str) : Prop where
  first : ∃ first ∈ tag.head?, first = '_' ∨ first.isAlphanum = true
  length_le : tag.length ≤ 128
  chars : ∀ c ∈ tag, isTagChar c = true

structure ValidHex (hex : Str) : Prop where
  length_eq : hex.length = 64
  chars : ∀ c ∈ hex, isAsciiHexdigit c = true

def Unqualified (name : Str) : Prop :=
  ∀ first rest, name = first ++ '/' :: rest → '/' ∉ first → looksLikeRegistry first = false

structure Spelling.Valid (s : Spelling) : Prop where
  registry : ∀ registry ∈ s.registry, ValidRegistry registry
  name : ValidName s.name
  unqualified : s.registry = none → Unqualified s.name
  tag : ∀ tag ∈ s.tag, ValidTag tag
  digest : ∀ hex ∈ s.digest, ValidHex hex

theorem ValidName.ne_nil (h : ValidName name) : name ≠ [] := by
  rintro rfl
  exact h.components [] (by simp) rfl

theorem ValidTag.ne_nil (h : ValidTag tag) : tag ≠ [] := by
  rintro rfl
  obtain ⟨first, hfirst, -⟩ := h.first
  cases hfirst

theorem ValidName.not_mem (h : ValidName name) {c : Char} (hc : isRepositoryChar c = false) : c ∉ name := by
  intro hmem
  rw [h.chars c hmem] at hc
  cases hc

theorem ValidTag.not_mem (h : ValidTag tag) {c : Char} (hc : isTagChar c = false) : c ∉ tag := by
  intro hmem
  rw [h.chars c hmem] at hc
  cases hc

theorem ValidHex.not_mem (h : ValidHex hex) {c : Char} (hc : isAsciiHexdigit c = false) : c ∉ hex := by
  intro hmem
  rw [h.chars c hmem] at hc
  cases hc

theorem not_isAsciiWhitespace {p : Char → Bool} (hp : ['\t', '\n', '\x0c', '\r', ' '].any p = false) {text : Str}
    (h : ∀ c ∈ text, p c = true) : ∀ c ∈ text, isAsciiWhitespace c = false :=
  fun c hc => decide_eq_false (not_mem_of_any_eq_false hp (h c hc))

theorem validateRepository_eq_ok_iff : validateRepository repository = .ok () ↔ ValidName repository := by
  rw [validateRepository]
  split
  · rename_i h
    refine iff_of_false (by simp) fun hvalid => ?_
    rcases h with hnil | hcomponent | hchar
    · exact hvalid.ne_nil hnil
    · obtain ⟨component, hmem, hempty⟩ := List.any_eq_true.mp hcomponent
      exact hvalid.components component hmem (List.isEmpty_iff.mp hempty)
    · obtain ⟨c, hmem, hc⟩ := List.any_eq_true.mp hchar
      rw [hvalid.chars c hmem] at hc
      cases hc
  · rename_i h
    rw [not_or, not_or] at h
    refine iff_of_true rfl ⟨fun component hmem hnil => h.2.1 ?_, fun c hmem => ?_⟩
    · exact List.any_eq_true.mpr ⟨component, hmem, List.isEmpty_iff.mpr hnil⟩
    · by_contra hc
      exact h.2.2 (List.any_eq_true.mpr ⟨c, hmem, by simpa using hc⟩)

theorem validateTag_eq_ok_iff : validateTag tag = .ok () ↔ ValidTag tag := by
  cases tag with
  | nil => exact iff_of_false (by simp [validateTag]) fun h => h.ne_nil rfl
  | cons first rest =>
      rw [validateTag]
      split
      · rename_i h
        refine iff_of_false (by simp) fun hvalid => ?_
        rcases h with hlength | hfirst | hchar
        · exact absurd hvalid.length_le (Nat.not_le.mpr hlength)
        · obtain ⟨c, hc, hstart⟩ := hvalid.first
          cases hc
          rcases hstart with heq | halnum
          · simp [heq] at hfirst
          · simp [halnum] at hfirst
        · obtain ⟨c, hmem, hc⟩ := List.any_eq_true.mp hchar
          rw [hvalid.chars c hmem] at hc
          cases hc
      · rename_i h
        rw [not_or, not_or] at h
        refine iff_of_true rfl ⟨⟨first, rfl, ?_⟩, Nat.not_lt.mp h.1, fun c hmem => ?_⟩
        · rw [Decidable.or_iff_not_imp_left]
          simpa using h.2.1
        · by_contra hc
          exact h.2.2 (List.any_eq_true.mpr ⟨c, hmem, by simpa using hc⟩)

theorem validateDigestHex_eq_ok_iff : validateDigestHex hex = .ok () ↔ ValidHex hex := by
  rw [validateDigestHex]
  split
  · rename_i h
    refine iff_of_false (by simp) fun hvalid => ?_
    rcases h with hlength | hchar
    · exact hlength hvalid.length_eq
    · rw [List.all_eq_true.mpr hvalid.chars] at hchar
      cases hchar
  · rename_i h
    rw [not_or, not_not, Bool.not_eq_false, List.all_eq_true] at h
    exact iff_of_true rfl ⟨h.1, h.2⟩

theorem OciDigest.parse_eq_ok_iff {digest : OciDigest} :
    OciDigest.parse value = .ok digest ↔ ∃ hex, ValidHex hex ∧ value = "sha256".toList ++ ':' :: hex ∧
      digest = ⟨.sha256, .ofList (hex.map Char.toLower)⟩ := by
  have hname : ':' ∉ "sha256".toList := by decide
  rw [OciDigest.parse]
  constructor
  · intro h
    split at h
    · cases h
    · rename_i algorithm encoded hcut
      obtain ⟨algorithm', halgorithm, h⟩ := except_bind_eq_ok.mp h
      obtain ⟨_, hhex, h⟩ := except_bind_eq_ok.mp h
      rw [DigestAlgorithm.parse] at halgorithm
      split at halgorithm
      · rename_i heq
        cases halgorithm
        cases h
        obtain ⟨rfl, -⟩ := splitOnce_eq_some_iff.mp hcut
        exact ⟨encoded, validateDigestHex_eq_ok_iff.mp hhex, by rw [heq], rfl⟩
      · cases halgorithm
  · rintro ⟨hex, hvalid, rfl, rfl⟩
    rw [splitOnce_append_cons hname hex]
    simp only [DigestAlgorithm.parse, if_true, validateDigestHex_eq_ok_iff.mpr hvalid]
    rfl

/-! ### Cutting a text into its parts -/

theorem splitTag_append (hcolon : ':' ∉ tag) (hslash : '/' ∉ tag) (name : Str) :
    splitTag (name ++ ':' :: tag) =
      if name = [] ∨ tag = [] then .error (.invalidReference (.ofList (name ++ ':' :: tag))) else .ok (name, some tag) := by
  have htag : '/' ∉ ':' :: tag := by simpa using hslash
  by_cases hname : '/' ∈ name
  · obtain ⟨directories, last, rfl, hlast⟩ := exists_last_cut hname
    have hrest : '/' ∉ last ++ ':' :: tag := by
      rw [List.mem_append, not_or]
      exact ⟨hlast, htag⟩
    have hcut : (directories ++ '/' :: last) ++ ':' :: tag = (directories ++ ['/']) ++ (last ++ ':' :: tag) := by simp
    have hplace : directories.length + 1 + last.length = (directories ++ '/' :: last).length := by
      simp
      omega
    have hfind : rfind '/' ((directories ++ '/' :: last) ++ ':' :: tag) = some directories.length := by
      rw [show (directories ++ '/' :: last) ++ ':' :: tag = directories ++ '/' :: (last ++ ':' :: tag) by simp]
      exact rfind_append_cons directories hrest
    have hdrop : ((directories ++ '/' :: last) ++ ':' :: tag).drop (directories.length + 1) = last ++ ':' :: tag := by
      rw [hcut]
      exact List.drop_left' (by simp)
    simp only [splitTag, hfind, hdrop, rfind_append_cons last hcolon, hplace, List.take_left]
    rw [drop_cut]
  · have hfind : rfind '/' (name ++ ':' :: tag) = none := by
      rw [rfind_eq_none_iff, List.mem_append, not_or]
      exact ⟨hname, htag⟩
    simp only [splitTag, hfind, List.drop_zero, rfind_append_cons name hcolon, Nat.zero_add, List.take_left]
    rw [drop_cut]

theorem splitTag_of_ports (h : ∀ before after, value = before ++ ':' :: after → '/' ∈ after) :
    splitTag value = .ok (value, none) := by
  by_cases hslash : '/' ∈ value
  · obtain ⟨directories, last, rfl, hlast⟩ := exists_last_cut hslash
    have hfind : rfind '/' (directories ++ '/' :: last) = some directories.length := rfind_append_cons directories hlast
    have hdrop : (directories ++ '/' :: last).drop (directories.length + 1) = last := drop_cut directories last _
    have hnone : rfind ':' last = none := by
      rw [rfind_eq_none_iff]
      intro hmem
      obtain ⟨before, after, rfl⟩ := List.append_of_mem hmem
      have hafter := h (directories ++ '/' :: before) after (by simp)
      exact hlast (List.mem_append_right _ (List.mem_cons_of_mem _ hafter))
    simp only [splitTag, hfind, hdrop, hnone]
  · have hnone : rfind ':' value = none := by
      rw [rfind_eq_none_iff]
      intro hmem
      obtain ⟨before, after, rfl⟩ := List.append_of_mem hmem
      exact hslash (List.mem_append_right _ (List.mem_cons_of_mem _ (h before after rfl)))
    simp only [splitTag, rfind_eq_none_iff.mpr hslash, List.drop_zero, hnone]

theorem ports_or_tag (value : Str) :
    (∀ before after, value = before ++ ':' :: after → '/' ∈ after) ∨
      ∃ name tag, value = name ++ ':' :: tag ∧ ':' ∉ tag ∧ '/' ∉ tag := by
  rw [or_iff_not_imp_left]
  intro h
  push Not at h
  obtain ⟨before, after, rfl, hslash⟩ := h
  obtain ⟨name, tag, hcut, hcolon⟩ := exists_last_cut (List.mem_cons_self : ':' ∈ ':' :: after)
  refine ⟨before ++ name, tag, by rw [hcut, List.append_assoc], hcolon, fun hmem => hslash ?_⟩
  have hmem' : '/' ∈ ':' :: after := by
    rw [hcut]
    exact List.mem_append_right _ (List.mem_cons_of_mem _ hmem)
  simpa using hmem'

theorem looksLikeRegistry_ne_nil (h : looksLikeRegistry registry = true) : registry ≠ [] := by
  rintro rfl
  exact absurd h (by decide)

theorem splitRegistryRepository_qualified (hlooks : looksLikeRegistry registry = true) (hslash : '/' ∉ registry)
    (hspace : ∀ c ∈ registry, isAsciiWhitespace c = false) (hname : name ≠ []) :
    splitRegistryRepository (registry ++ '/' :: name) = .ok (registry, repositoryIn registry name) := by
  have hvalue : registry ++ '/' :: name ≠ [] := by simp
  have hany : registry.any isAsciiWhitespace = false := by
    rw [List.any_eq_false]
    exact fun c hc => by simp [hspace c hc]
  rw [splitRegistryRepository, if_neg hvalue, splitOnce_append_cons hslash]
  simp only [hlooks, if_true, if_neg hname, Prog.except_ok_bind, hany]
  rw [if_neg (by simpa using looksLikeRegistry_ne_nil hlooks)]
  rfl

theorem splitRegistryRepository_unqualified (h : Unqualified name) (hname : name ≠ []) :
    splitRegistryRepository name = .ok (defaultRegistry.toList, repositoryIn defaultRegistry.toList name) := by
  have hdefault : ¬(defaultRegistry.toList = [] ∨ defaultRegistry.toList.any isAsciiWhitespace = true) := by decide
  rw [splitRegistryRepository, if_neg hname]
  cases hcut : splitOnce '/' name with
  | none =>
      simp only [Prog.except_ok_bind, if_neg hdefault, repositoryIn, true_and]
  | some cut =>
      obtain ⟨first, rest⟩ := cut
      obtain ⟨heq, hfirst⟩ := splitOnce_eq_some_iff.mp hcut
      simp only [h first rest heq hfirst, Bool.false_eq_true, if_false, Prog.except_ok_bind, if_neg hdefault,
        repositoryIn, true_and]

theorem exists_pathText (value : Str) : ∃ written name, value = pathText written name ∧
    (∀ registry ∈ written, looksLikeRegistry registry = true ∧ '/' ∉ registry) ∧
    (written = none → Unqualified name) := by
  by_cases h : Unqualified value
  · exact ⟨none, value, rfl, by simp, fun _ => h⟩
  · rw [Unqualified] at h
    push Not at h
    obtain ⟨registry, name, heq, hslash, hlooks⟩ := h
    refine ⟨some registry, name, heq, fun registry' hmem => ?_, by simp⟩
    cases hmem
    exact ⟨by simpa using hlooks, hslash⟩

theorem validName_library : ValidName ("library/".toList ++ name) ↔ ValidName name := by
  have hslash : '/' ∉ "library".toList := by decide
  have hsplit : ("library/".toList ++ name).splitOn '/' = "library".toList :: name.splitOn '/' :=
    List.splitOn_append_cons_self_of_not_mem hslash name
  constructor
  · intro h
    refine ⟨fun component hmem => h.components component ?_, fun c hc => h.chars c (List.mem_append_right _ hc)⟩
    rw [hsplit]
    exact List.mem_cons_of_mem _ hmem
  · intro h
    refine ⟨fun component hmem => ?_, fun c hc => ?_⟩
    · rw [hsplit] at hmem
      rcases List.mem_cons.mp hmem with rfl | hmem
      · decide
      · exact h.components component hmem
    · rcases List.mem_append.mp hc with hc | hc
      · exact List.all_eq_true.mp (by decide : "library/".toList.all isRepositoryChar = true) c hc
      · exact h.chars c hc

theorem validName_repositoryIn : ValidName (repositoryIn registry name) ↔ ValidName name := by
  rw [repositoryIn]
  split
  · exact validName_library
  · exact Iff.rfl

/-! ### Parsing -/

namespace Spelling

variable {s : Spelling}

theorem Valid.path_ne_nil (h : s.Valid) : s.path ≠ [] := by
  unfold path pathText
  split
  · simp
  · exact h.name.ne_nil

/-- The characters of a spelling are those of its parts and the separators. -/
theorem mem_text {c : Char} (h : c ∈ s.text) : (∃ registry ∈ s.registry, c ∈ registry) ∨ c ∈ s.name ∨
    (∃ tag ∈ s.tag, c ∈ tag) ∨ (∃ hex ∈ s.digest, c ∈ hex ∨ c ∈ "@sha256:".toList) ∨ c = '/' ∨ c = ':' := by
  obtain ⟨registry, name, tag, digest⟩ := s
  cases registry <;> cases tag <;> cases digest <;>
    simp [text, digestText, nameAndTag, tagText, path, pathText] at h ⊢ <;> tauto

theorem Valid.no_space (h : s.Valid) : ∀ c ∈ s.text, isAsciiWhitespace c = false := by
  intro c hc
  rcases mem_text hc with ⟨registry, hmem, hc⟩ | hc | ⟨tag, hmem, hc⟩ | ⟨hex, hmem, hc | hc⟩ | rfl | rfl
  · exact (h.registry registry hmem).no_space c hc
  · exact not_isAsciiWhitespace (by decide) h.name.chars c hc
  · exact not_isAsciiWhitespace (by decide) (h.tag tag hmem).chars c hc
  · exact not_isAsciiWhitespace (by decide) (h.digest hex hmem).chars c hc
  · exact Bool.eq_false_iff.mpr fun hspace =>
      absurd (List.any_eq_true.mpr ⟨c, hc, hspace⟩ : "@sha256:".toList.any isAsciiWhitespace = true) (by decide)
  · rfl
  · rfl

theorem Valid.no_at (h : s.Valid) : '@' ∉ s.nameAndTag := by
  have hpath : '@' ∉ s.path := by
    unfold path pathText
    split
    · rename_i registry hregistry
      rw [List.mem_append, List.mem_cons, not_or, not_or]
      exact ⟨(h.registry registry hregistry).no_at, by decide, h.name.not_mem (by decide)⟩
    · exact h.name.not_mem (by decide)
  unfold nameAndTag tagText
  split
  · rename_i tag htag
    rw [List.mem_append, List.mem_cons, not_or, not_or]
    exact ⟨hpath, by decide, (h.tag tag htag).not_mem (by decide)⟩
  · exact hpath

theorem Valid.path_colon (h : s.Valid) {before after : Str} (heq : s.path = before ++ ':' :: after) :
    ∃ registry ∈ s.registry, ∃ port, registry = before ++ ':' :: port ∧ after = port ++ '/' :: s.name := by
  have hname : ':' ∉ s.name := h.name.not_mem (by decide)
  unfold path pathText at heq
  split at heq
  · rename_i registry hregistry
    rcases append_eq_cut heq with ⟨port, hport, hafter⟩ | ⟨mid, -, hmid⟩
    · exact ⟨registry, hregistry, port, hport, hafter⟩
    · have hmem : ':' ∈ '/' :: s.name := by
        rw [hmid]
        exact List.mem_append_right _ List.mem_cons_self
      exact absurd (by simpa using hmem) hname
  · exact absurd (heq ▸ List.mem_append_right _ List.mem_cons_self) hname

theorem Valid.ports (h : s.Valid) : ∀ before after, s.path = before ++ ':' :: after → '/' ∈ after := by
  intro before after heq
  obtain ⟨_, -, port, -, rfl⟩ := h.path_colon heq
  simp

theorem Valid.splitTag (h : s.Valid) : splitTag s.nameAndTag = .ok (s.path, s.tag) := by
  unfold nameAndTag tagText
  split
  · rename_i tag htag
    have hvalid := h.tag tag htag
    rw [splitTag_append (hvalid.not_mem (by decide)) (hvalid.not_mem (by decide)),
      if_neg (not_or.mpr ⟨h.path_ne_nil, hvalid.ne_nil⟩), htag]
  · rename_i htag
    rw [splitTag_of_ports h.ports, htag]

theorem Valid.splitRegistryRepository (h : s.Valid) :
    splitRegistryRepository s.path = .ok (s.registryName, repositoryIn s.registryName s.name) := by
  unfold path pathText registryName
  cases hregistry : s.registry with
  | some registry =>
      have hvalid := h.registry registry hregistry
      exact splitRegistryRepository_qualified hvalid.looks hvalid.no_slash hvalid.no_space h.name.ne_nil
  | none => exact splitRegistryRepository_unqualified (h.unqualified hregistry) h.name.ne_nil

theorem Valid.splitDigest (h : s.Valid) : splitDigest s.text = .ok (s.nameAndTag, s.reference.digest) := by
  rw [Image.splitDigest]
  cases hdigest : s.digest with
  | none =>
      have htext : s.text = s.nameAndTag := by
        rw [text, hdigest]
        rfl
      have hreference : s.reference.digest = none := by
        rw [reference, hdigest]
        rfl
      rw [htext, splitOnce_eq_none_iff.mpr h.no_at, hreference]
  | some hex =>
      have htext : s.text = s.nameAndTag ++ '@' :: ("sha256".toList ++ ':' :: hex) := by
        rw [text, hdigest]
        rfl
      have hreference : s.reference.digest = some ⟨.sha256, .ofList (hex.map Char.toLower)⟩ := by
        rw [reference, hdigest]
        rfl
      have hhex := h.digest hex hdigest
      have hat : '@' ∉ "sha256".toList ++ ':' :: hex := by
        rw [List.mem_append, List.mem_cons, not_or, not_or]
        exact ⟨by decide, by decide, hhex.not_mem (by decide)⟩
      have hname : s.nameAndTag ≠ [] := by
        have hpath := h.path_ne_nil
        unfold nameAndTag tagText
        cases s.tag <;> simp [hpath]
      rw [htext, splitOnce_append_cons h.no_at, hreference]
      simp only [hname, hat, or_self, List.append_eq_nil_iff, reduceCtorEq, and_false, if_false,
        OciDigest.parse_eq_ok_iff.mpr ⟨hex, hhex, rfl, rfl⟩]
      rfl

theorem Valid.tagOrDefault (h : s.Valid) : tagOrDefault s.tag s.reference.digest = .ok s.reference.tag := by
  unfold Image.tagOrDefault
  cases htag : s.tag with
  | none =>
      simp only [reference, htag, Option.map_none, Option.none_or, Option.isNone_map]
  | some tag =>
      simp only [reference, htag, validateTag_eq_ok_iff.mpr (h.tag tag htag), Option.map_some, Option.some_or]
      rfl

end Spelling

theorem OciReference.parse_of_valid {v : String} {s : Spelling} (h : s.Valid) (htext : s.text = trim v.toList) :
    OciReference.parse v = .ok s.reference := by
  have hne : s.text ≠ [] := by
    have hpath := h.path_ne_nil
    unfold Spelling.text digestText Spelling.nameAndTag tagText
    cases s.digest <;> cases s.tag <;> simp [hpath]
  have hany : s.text.any isAsciiWhitespace = false := by
    rw [List.any_eq_false]
    exact fun c hc => by simp [h.no_space c hc]
  have hname : ValidName (repositoryIn s.registryName s.name) := validName_repositoryIn.mpr h.name
  have hrepository := validateRepository_eq_ok_iff.mpr hname
  rw [OciReference.parse, ← htext]
  simp only [hne, hany, Bool.false_eq_true, or_self, if_false, h.splitDigest, Prog.except_ok_bind, h.splitTag,
    h.splitRegistryRepository, hrepository, h.tagOrDefault]
  rfl

theorem exists_digestText {nameAndTag : Str} {digest : Option OciDigest}
    (h : splitDigest value = .ok (nameAndTag, digest)) :
    ∃ hex : Option Str, (∀ digits ∈ hex, ValidHex digits) ∧ '@' ∉ nameAndTag ∧ value = digestText nameAndTag hex ∧
      digest = hex.map fun digits => ⟨.sha256, .ofList (digits.map Char.toLower)⟩ := by
  rw [splitDigest] at h
  cases hcut : splitOnce '@' value with
  | none =>
      rw [hcut] at h
      cases h
      exact ⟨none, by simp, splitOnce_eq_none_iff.mp hcut, rfl, rfl⟩
  | some cut =>
      obtain ⟨name, digits⟩ := cut
      rw [hcut] at h
      obtain ⟨heq, hat⟩ := splitOnce_eq_some_iff.mp hcut
      dsimp only at h
      split at h
      · cases h
      · obtain ⟨digest', hparse, h⟩ := except_bind_eq_ok.mp h
        cases h
        obtain ⟨hex, hvalid, rfl, rfl⟩ := OciDigest.parse_eq_ok_iff.mp hparse
        refine ⟨some hex, fun digits hmem => ?_, hat, heq, rfl⟩
        cases hmem
        exact hvalid

theorem tagText_of_splitTag {tag : Option Str} (h : splitTag value = .ok (name, tag)) : value = tagText name tag := by
  rcases ports_or_tag value with hports | ⟨name', tag', rfl, hcolon, hslash⟩
  · rw [splitTag_of_ports hports] at h
    cases h
    rfl
  · rw [splitTag_append hcolon hslash] at h
    split at h
    · cases h
    · cases h
      rfl

theorem exists_written (h : splitRegistryRepository value = .ok (registry, repository))
    (hspace : ∀ c ∈ value, isAsciiWhitespace c = false) : ∃ written name, value = pathText written name ∧
      (∀ registry ∈ written, looksLikeRegistry registry = true ∧ '/' ∉ registry) ∧
      (written = none → Unqualified name) ∧ registry = written.getD defaultRegistry.toList ∧
      repository = repositoryIn registry name := by
  obtain ⟨written, name, rfl, hwritten, hnone⟩ := exists_pathText value
  refine ⟨written, name, rfl, hwritten, hnone, ?_⟩
  by_cases hname : name = []
  · subst hname
    cases written with
    | none => cases h
    | some first =>
        obtain ⟨hlooks, hslash⟩ := hwritten first rfl
        have hne : first ++ ['/'] ≠ [] := by simp
        rw [pathText, splitRegistryRepository, if_neg hne, splitOnce_append_cons hslash] at h
        simp only [hlooks, if_true] at h
        cases h
  · cases written with
    | none =>
        rw [pathText, splitRegistryRepository_unqualified (hnone rfl) hname] at h
        cases h
        exact ⟨rfl, rfl⟩
    | some first =>
        obtain ⟨hlooks, hslash⟩ := hwritten first rfl
        rw [pathText, splitRegistryRepository_qualified hlooks hslash
          (fun c hc => hspace c (List.mem_append_left _ hc)) hname] at h
        cases h
        exact ⟨rfl, rfl⟩

theorem OciReference.exists_spelling {v : String} {r : OciReference} (h : OciReference.parse v = .ok r) :
    ∃ s : Spelling, s.Valid ∧ s.text = trim v.toList ∧ s.reference = r := by
  rw [OciReference.parse] at h
  simp only at h
  split at h
  · cases h
  rename_i hguard
  rw [not_or, Bool.not_eq_true, List.any_eq_false] at hguard
  obtain ⟨⟨nameAndTag, digest⟩, hcut, h⟩ := except_bind_eq_ok.mp h
  obtain ⟨⟨path, parsedTag⟩, hsplit, h⟩ := except_bind_eq_ok.mp h
  obtain ⟨⟨registry, repository⟩, hregistry, h⟩ := except_bind_eq_ok.mp h
  obtain ⟨_, hrepository, h⟩ := except_bind_eq_ok.mp h
  obtain ⟨tag, htag, h⟩ := except_bind_eq_ok.mp h
  cases h
  obtain ⟨hex, hhex, hat, htext, rfl⟩ := exists_digestText hcut
  obtain rfl := tagText_of_splitTag hsplit
  have hspace : ∀ c ∈ path, isAsciiWhitespace c = false := by
    intro c hc
    have hmem : c ∈ trim v.toList := by
      rw [htext]
      unfold digestText tagText
      cases hex <;> cases parsedTag <;> simp [hc]
    simpa using hguard.2 c hmem
  obtain ⟨written, name, rfl, hwritten, hnone, rfl, rfl⟩ := exists_written hregistry hspace
  refine ⟨⟨written, name, parsedTag, hex⟩, ⟨?_, ?_, hnone, ?_, hhex⟩, htext.symm, ?_⟩
  · intro registry hmem
    cases hmem
    obtain ⟨hlooks, hslash⟩ := hwritten registry rfl
    refine ⟨hlooks, hslash, fun hc => hat ?_, fun c hc => hspace c (List.mem_append_left _ hc)⟩
    unfold tagText pathText
    cases parsedTag <;> simp [hc]
  · exact validName_repositoryIn.mp (validateRepository_eq_ok_iff.mp hrepository)
  · intro tag hmem
    cases hmem
    obtain ⟨_, hvalid, -⟩ := except_bind_eq_ok.mp htag
    exact validateTag_eq_ok_iff.mp hvalid
  · cases parsedTag with
    | none =>
        cases htag
        cases hex <;> rfl
    | some tag' =>
        obtain ⟨_, -, htag⟩ := except_bind_eq_ok.mp htag
        cases htag
        rfl

/-! ### Where the colons stand -/

namespace Spelling

variable {s : Spelling} {before after : Str}

theorem Valid.nameAndTag_colon (h : s.Valid) (heq : s.nameAndTag = before ++ ':' :: after) :
    (∃ registry ∈ s.registry, ∃ port, registry = before ++ ':' :: port ∧ '/' ∈ after) ∨
      ∃ tag ∈ s.tag, before = s.path ∧ after = tag := by
  unfold nameAndTag tagText at heq
  split at heq
  · rename_i tag htag
    have hcolon : ':' ∉ tag := (h.tag tag htag).not_mem (by decide)
    rcases append_eq_cut heq with ⟨mid, hpath, rfl⟩ | ⟨mid, rfl, hmid⟩
    · obtain ⟨registry, hregistry, port, hport, rfl⟩ := h.path_colon hpath
      exact Or.inl ⟨registry, hregistry, port, hport, by simp⟩
    · cases mid with
      | nil => exact Or.inr ⟨tag, htag, List.append_nil _, (List.cons.inj hmid).2.symm⟩
      | cons c mid =>
          have hmem : ':' ∈ tag := by
            rw [(List.cons.inj hmid).2]
            exact List.mem_append_right _ List.mem_cons_self
          exact absurd hmem hcolon
  · obtain ⟨registry, hregistry, port, hport, rfl⟩ := h.path_colon heq
    exact Or.inl ⟨registry, hregistry, port, hport, by simp⟩

theorem Valid.text_colon (h : s.Valid) (heq : s.text = before ++ ':' :: after) :
    (∃ registry ∈ s.registry, ∃ port, registry = before ++ ':' :: port ∧ '/' ∈ after) ∨
      (∃ tag ∈ s.tag, before = s.path ∧ after = digestText tag s.digest ∧ '/' ∉ after) ∨
      ∃ hex ∈ s.digest, before = s.nameAndTag ++ "@sha256".toList ∧ after = hex ∧ '/' ∉ after := by
  unfold text digestText at heq
  split at heq
  · rename_i hex hhex
    have hvalid := h.digest hex hhex
    rcases append_eq_cut heq with ⟨mid, hleft, rfl⟩ | ⟨mid, rfl, hmid⟩
    · rcases h.nameAndTag_colon hleft with ⟨registry, hregistry, port, hport, hslash⟩ | ⟨tag, htag, hbefore, rfl⟩
      · exact Or.inl ⟨registry, hregistry, port, hport, List.mem_append_left _ hslash⟩
      · refine Or.inr (Or.inl ⟨_, htag, hbefore, by rw [hhex]; rfl, ?_⟩)
        have hslash := (h.tag _ htag).not_mem (c := '/') (by decide)
        have hhexSlash := hvalid.not_mem (c := '/') (by decide)
        simp [hslash, hhexSlash]
    · have hsplit : "@sha256".toList ++ ':' :: hex = mid ++ ':' :: after := hmid
      have hhexSlash := hvalid.not_mem (c := '/') (by decide)
      rcases append_eq_cut hsplit with ⟨port, hport, -⟩ | ⟨rest, rfl, hrest⟩
      · exact absurd (hport ▸ List.mem_append_right _ List.mem_cons_self) (by decide : ':' ∉ "@sha256".toList)
      · cases rest with
        | nil =>
            obtain rfl := (List.cons.inj hrest).2
            exact Or.inr (Or.inr ⟨_, hhex, by simp, rfl, hhexSlash⟩)
        | cons c rest =>
            have hmem : ':' ∈ hex := by
              rw [(List.cons.inj hrest).2]
              exact List.mem_append_right _ List.mem_cons_self
            exact absurd hmem (hvalid.not_mem (by decide))
  · rename_i hhex
    rcases h.nameAndTag_colon heq with hport | ⟨tag, htag, hbefore, rfl⟩
    · exact Or.inl hport
    · refine Or.inr (Or.inl ⟨_, htag, hbefore, by rw [hhex]; rfl, ?_⟩)
      exact (h.tag _ htag).not_mem (by decide)

theorem text_injOn {s' : Spelling} (h : s.Valid) (h' : s'.Valid) (heq : s.text = s'.text) : s = s' := by
  have hdigest : s.nameAndTag = s'.nameAndTag ∧ s.digest = s'.digest := by
    unfold text digestText at heq
    split at heq <;> split at heq
    · rename_i hex hhex _ hex' hhex'
      obtain ⟨hname, hrest⟩ := append_cons_inj h.no_at h'.no_at heq
      obtain ⟨-, hdigits⟩ := append_cons_inj (by decide : ':' ∉ "sha256".toList) (by decide) hrest
      exact ⟨hname, by rw [hhex, hhex', hdigits]⟩
    · exact absurd (heq ▸ List.mem_append_right _ List.mem_cons_self) h'.no_at
    · exact absurd (heq ▸ List.mem_append_right _ List.mem_cons_self) h.no_at
    · rename_i hhex _ hhex'
      exact ⟨heq, by rw [hhex, hhex']⟩
  obtain ⟨hname, hdigest⟩ := hdigest
  have hsplit := h.splitTag
  rw [hname, h'.splitTag] at hsplit
  obtain ⟨hpath, htag⟩ := Prod.mk.inj (Except.ok.inj hsplit)
  have hregistry : s.registry = s'.registry ∧ s.name = s'.name := by
    unfold path pathText at hpath
    split at hpath <;> split at hpath
    · rename_i registry' hregistry' _ registry hregistry
      obtain ⟨rfl, hnames⟩ := append_cons_inj (h'.registry _ hregistry').no_slash (h.registry _ hregistry).no_slash hpath
      exact ⟨hregistry.trans hregistry'.symm, hnames.symm⟩
    · rename_i registry' hregistry' _ hregistry
      have hvalid := h'.registry _ hregistry'
      have hlooks := h.unqualified hregistry _ _ hpath.symm hvalid.no_slash
      rw [hvalid.looks] at hlooks
      cases hlooks
    · rename_i hregistry' _ registry hregistry
      have hvalid := h.registry _ hregistry
      have hlooks := h'.unqualified hregistry' _ _ hpath hvalid.no_slash
      rw [hvalid.looks] at hlooks
      cases hlooks
    · rename_i hregistry' _ hregistry
      exact ⟨hregistry.trans hregistry'.symm, hpath.symm⟩
  exact Spelling.ext hregistry.1 hregistry.2 htag.symm hdigest

end Spelling

/-! ### The canonical spelling -/

theorem toLower_hexdigit {c : Char} (h : isAsciiHexdigit c = true) :
    isAsciiHexdigit c.toLower = true ∧ c.toLower.toLower = c.toLower := by
  have hall : "0123456789abcdefABCDEF".toList.all
      (fun c => isAsciiHexdigit c.toLower && c.toLower.toLower == c.toLower) = true := by decide
  have hc := List.all_eq_true.mp hall c (of_decide_eq_true h)
  simpa using hc

theorem ValidHex.toLower (h : ValidHex hex) : ValidHex (hex.map Char.toLower) where
  length_eq := by rw [List.length_map, h.length_eq]
  chars c hc := by
    obtain ⟨digit, hdigit, rfl⟩ := List.mem_map.mp hc
    exact (toLower_hexdigit (h.chars digit hdigit)).1

theorem ValidHex.toLower_toLower (h : ValidHex hex) : (hex.map Char.toLower).map Char.toLower = hex.map Char.toLower := by
  rw [List.map_map]
  exact List.map_congr_left fun c hc => (toLower_hexdigit (h.chars c hc)).2

theorem repositoryIn_repositoryIn : repositoryIn registry (repositoryIn registry name) = repositoryIn registry name := by
  by_cases h : registry = defaultRegistry.toList ∧ '/' ∉ name
  · have hlibrary : repositoryIn registry name = "library/".toList ++ name := if_pos h
    have hslash : '/' ∈ "library/".toList ++ name := List.mem_append_left _ (by decide)
    rw [hlibrary]
    exact if_neg fun hnot => hnot.2 hslash
  · have hname : repositoryIn registry name = name := if_neg h
    rw [hname, hname]

theorem validRegistry_default : ValidRegistry defaultRegistry.toList where
  looks := by decide
  no_slash := by decide
  no_at := by decide
  no_space := not_isAsciiWhitespace (p := fun c => c ∈ defaultRegistry.toList) (by decide)
    fun c hc => decide_eq_true hc

theorem validTag_default : ValidTag defaultTag.toList where
  first := ⟨'l', rfl, Or.inr (by decide)⟩
  length_le := by decide
  chars := List.all_eq_true.mp (by decide : defaultTag.toList.all isTagChar = true)

namespace Spelling

variable {s : Spelling}

/-- Every part that the reference has, as it is printed. -/
def canonical (s : Spelling) : Spelling where
  registry := some s.registryName
  name := repositoryIn s.registryName s.name
  tag := s.tag.or (if s.digest.isNone then some defaultTag.toList else none)
  digest := s.digest.map (List.map Char.toLower)

theorem Valid.registryName (h : s.Valid) : ValidRegistry s.registryName := by
  unfold Spelling.registryName
  cases hregistry : s.registry with
  | none => exact validRegistry_default
  | some registry => exact h.registry registry hregistry

theorem Valid.canonical (h : s.Valid) : s.canonical.Valid where
  registry registry hregistry := by
    cases hregistry
    exact h.registryName
  name := validName_repositoryIn.mpr h.name
  unqualified hnone := by cases hnone
  tag tag htag := by
    rcases Option.or_eq_some_iff.mp htag with htag | ⟨-, htag⟩
    · exact h.tag tag htag
    · split at htag
      · cases htag
        exact validTag_default
      · cases htag
  digest digits hdigits := by
    obtain ⟨hex, hhex, rfl⟩ := Option.map_eq_some_iff.mp hdigits
    exact (h.digest hex hhex).toLower

theorem Valid.reference_canonical (h : s.Valid) : s.canonical.reference = s.reference := by
  have hregistry : s.canonical.registryName = s.registryName := rfl
  have hname : repositoryIn s.registryName s.canonical.name = repositoryIn s.registryName s.name := repositoryIn_repositoryIn
  unfold reference
  rw [hregistry, hname]
  congr 1
  · unfold Spelling.canonical
    cases s.tag <;> cases s.digest <;> rfl
  · unfold Spelling.canonical
    cases hdigest : s.digest with
    | none => rfl
    | some hex => simp [(h.digest hex hdigest).toLower_toLower]

theorem text_canonical (s : Spelling) : s.canonical.text = s.reference.toString.toList := by
  obtain ⟨registry, name, tag, digest⟩ := s
  cases tag <;> cases digest <;>
    simp [text, digestText, nameAndTag, tagText, path, pathText, canonical, reference, OciReference.toString,
      OciDigest.toString, DigestAlgorithm.asStr]

theorem last_of_chars {p : Char → Bool} (hp : whitespace.any p = false) {left right : Str} (hne : right ≠ [])
    (h : ∀ c ∈ right, p c = true) : ∀ c ∈ (left ++ right).getLast?, isWhitespace c = false := by
  intro c hc
  rw [List.getLast?_append_of_ne_nil _ hne] at hc
  exact decide_eq_false (not_mem_of_any_eq_false hp (h c (List.mem_of_getLast? hc)))

/-- A spelling ends in a digest, a tag or a name, and none of these in whitespace. -/
theorem Valid.last (h : s.Valid) : ∀ c ∈ s.text.getLast?, isWhitespace c = false := by
  have hpath : ∀ c ∈ s.path.getLast?, isWhitespace c = false := by
    unfold path pathText
    split
    · rw [List.append_cons]
      exact last_of_chars (by decide) h.name.ne_nil h.name.chars
    · rw [← List.nil_append s.name]
      exact last_of_chars (by decide) h.name.ne_nil h.name.chars
  have hname : ∀ c ∈ s.nameAndTag.getLast?, isWhitespace c = false := by
    unfold nameAndTag tagText
    split
    · rename_i tag htag
      rw [List.append_cons]
      exact last_of_chars (by decide) (h.tag tag htag).ne_nil (h.tag tag htag).chars
    · exact hpath
  unfold text digestText
  split
  · rename_i hex hhex
    have hvalid := h.digest hex hhex
    have hne : hex ≠ [] := List.length_pos_iff.mp (by rw [hvalid.length_eq]; decide)
    rw [List.append_cons, ← List.append_assoc, List.append_cons]
    exact last_of_chars (by decide) hne hvalid.chars
  · exact hname

theorem head?_text {registry : Str} (hregistry : s.registry = some registry) (hne : registry ≠ []) :
    s.text.head? = registry.head? := by
  unfold text digestText nameAndTag tagText path pathText
  rw [hregistry]
  cases s.digest <;> cases s.tag <;> simp [List.head?_append_of_ne_nil _ hne]

theorem Valid.trimmed_canonical (h : s.Valid) (htrimmed : Trimmed s.text) : Trimmed s.canonical.text := by
  refine ⟨?_, h.canonical.last⟩
  rw [head?_text rfl (looksLikeRegistry_ne_nil h.registryName.looks)]
  cases hregistry : s.registry with
  | none =>
      rw [Spelling.registryName, hregistry]
      intro c hc
      obtain rfl : 'r' = c := Option.some.inj hc
      decide
  | some registry =>
      rw [Spelling.registryName, hregistry, Option.getD_some,
        ← head?_text hregistry (looksLikeRegistry_ne_nil (h.registry registry hregistry).looks)]
      exact htrimmed.head

end Spelling

/-- Printing a parsed reference gives a text that is parsed as the same reference; its repository has the components and
characters of a repository; it has a tag exactly when one is written or no digest is; and each colon of the text is that
of a port, of a tag or of a digest by its place. -/
theorem OciReference.parse_canonical {v : String} {r : OciReference} (h : OciReference.parse v = .ok r) :
    OciReference.parse r.toString = .ok r ∧
    (∀ component ∈ r.repository.toList.splitOn '/', component ≠ []) ∧
    (∀ c ∈ r.repository.toList, isRepositoryChar c = true) ∧
    (∃ s : Spelling, (s.Valid ∧ s.text = trim v.toList) ∧ (∀ s' : Spelling, s'.Valid → s'.text = trim v.toList → s' = s) ∧
      s.reference = r ∧ (r.tag.isSome ↔ s.tag.isSome ∨ s.digest = none) ∧
      ∀ before after, trim v.toList = before ++ ':' :: after →
        (∃ registry ∈ s.registry, ∃ port, registry = before ++ ':' :: port ∧ '/' ∈ after) ∨
        (∃ tag ∈ s.tag, before = s.path ∧ after = digestText tag s.digest ∧ '/' ∉ after) ∨
        ∃ hex ∈ s.digest, before = s.nameAndTag ++ "@sha256".toList ∧ after = hex ∧ '/' ∉ after) ∧
    ∀ v' r', OciReference.parse v' = .ok r' → r'.toString = r.toString → r' = r := by
  have hfixed : ∀ {v : String} {r : OciReference}, OciReference.parse v = .ok r →
      OciReference.parse r.toString = .ok r := by
    intro v r h
    obtain ⟨s, hvalid, htext, rfl⟩ := exists_spelling h
    have htrimmed := hvalid.trimmed_canonical (htext ▸ trimmed_trim v.toList)
    rw [← hvalid.reference_canonical]
    apply parse_of_valid hvalid.canonical
    rw [hvalid.reference_canonical, ← Spelling.text_canonical, trim_eq_self htrimmed]
  obtain ⟨s, hvalid, htext, rfl⟩ := exists_spelling h
  have hname : ValidName s.reference.repository.toList := by
    rw [Spelling.reference, String.toList_ofList]
    exact validName_repositoryIn.mpr hvalid.name
  refine ⟨hfixed h, hname.components, hname.chars, ⟨s, ⟨hvalid, htext⟩, ?_, rfl, ?_, ?_⟩, ?_⟩
  · exact fun s' hvalid' htext' => Spelling.text_injOn hvalid' hvalid (htext'.trans htext.symm)
  · unfold Spelling.reference
    cases s.tag <;> cases s.digest <;> simp
  · exact fun before after heq => hvalid.text_colon (htext.trans heq)
  · intro v' r' h' heq
    have hfixed' := hfixed h'
    rw [heq, hfixed h] at hfixed'
    exact (Except.ok.inj hfixed').symm

def portAndTag : Spelling := ⟨some "localhost:5000".toList, "app".toList, some "v1".toList, none⟩

theorem portAndTag_valid : portAndTag.Valid where
  registry registry hregistry := by
    cases hregistry
    exact ⟨by decide, by decide, by decide, fun c hc =>
      not_isAsciiWhitespace (p := fun c => c ∈ "localhost:5000".toList) (by decide) (fun c hc => decide_eq_true hc) c hc⟩
  name := by
    have hcomponents : ("app".toList.splitOn '/').all (fun component => !component.isEmpty) = true := by decide
    have hchars : "app".toList.all isRepositoryChar = true := by decide
    refine ⟨fun component hmem hnil => ?_, List.all_eq_true.mp hchars⟩
    have hne := List.all_eq_true.mp hcomponents component hmem
    rw [hnil] at hne
    cases hne
  unqualified hnone := by cases hnone
  tag tag htag := by
    cases htag
    exact ⟨⟨'v', rfl, Or.inr (by decide)⟩, by decide, List.all_eq_true.mp (by decide : "v1".toList.all isTagChar = true)⟩
  digest digits hdigits := by cases hdigits

theorem OciReference.parse_canonical_portAndTag :
    OciReference.parse (OciReference.toString ⟨"localhost:5000", "app", some "v1", none⟩) =
      .ok ⟨"localhost:5000", "app", some "v1", none⟩ :=
  (OciReference.parse_canonical (v := "localhost:5000/app:v1") (parse_of_valid portAndTag_valid (by decide))).1

end Mcr.Image
