import Mcr.Image.Oci
import Mcr.Lib.Digits
import Mcr.Lib.Wire

/-!
# The JSON of manifests and configurations

An image is stored and pushed under the digest of its JSON, so two images must never share their bytes. Each writer of
JSON is a wire: what it pushes tells where the value ends and which value it is, whatever characters its texts have.
-/

namespace Mcr.Image

structure OciPlatform where
  os : String
  architecture : String
  variant : Option String

structure OciContainerConfig where
  env : List String
  workingDir : Option String
  entrypoint : List String
  command : List String

structure OciHistoryEntry where
  createdBy : String
  comment : Option String
  emptyLayer : Bool

structure OciImageConfig where
  platform : OciPlatform
  config : OciContainerConfig
  history : List OciHistoryEntry
  rootfsDiffIds : List OciDigest

def pushJsonStringArray (output : String) (values : List String) : String :=
  pushJsonMembers pushJsonString (output ++ "[") values ++ "]"

/-- A member that is pushed if the value is there. -/
def pushJsonMember (key output : String) : Option String → String
  | some value => pushJsonString (output ++ key) value
  | none => output

def pushContainerConfigJson (output : String) (config : OciContainerConfig) : String :=
  let output := pushJsonStringArray (output ++ "\x7b\"Cmd\":") config.command
  let output := pushJsonStringArray (output ++ ",\"Entrypoint\":") config.entrypoint
  let output := pushJsonStringArray (output ++ ",\"Env\":") config.env
  pushJsonMember ",\"WorkingDir\":" output config.workingDir ++ "\x7d"

def pushHistoryEntryJson (output : String) (entry : OciHistoryEntry) : String :=
  let output := pushJsonString (output ++ "\x7b\"created_by\":") entry.createdBy
  let output := pushJsonMember ",\"comment\":" output entry.comment
  (if entry.emptyLayer then output ++ ",\"empty_layer\":true" else output) ++ "\x7d"

def OciImageConfig.toJsonBytes (image : OciImageConfig) : List UInt8 :=
  let output := pushJsonString "\x7b\"architecture\":" image.platform.architecture
  let output := pushContainerConfigJson (output ++ ",\"config\":") image.config
  let output := pushJsonMembers pushHistoryEntryJson (output ++ ",\"history\":[") image.history
  let output := pushJsonString (output ++ "],\"os\":") image.platform.os
  let output := pushJsonMember ",\"variant\":" output image.platform.variant
  let output := pushJsonMembers (fun output (diffId : OciDigest) => pushJsonString output diffId.toString)
    (output ++ ",\"rootfs\":\x7b\"diff_ids\":[") image.rootfsDiffIds
  (output ++ "],\"type\":\"layers\"\x7d\x7d").toUTF8.toList

/-! ### Strings -/

/-- The character at the front of the body of a JSON string. -/
def readJsonChar : List Char → Option Char
  | '\\' :: 'u' :: a :: b :: c :: d :: _ => (fromStrRadix 0x10000 16 [a, b, c, d]).map Char.ofNat
  | '\\' :: 'b' :: _ => some '\x08'
  | '\\' :: 'f' :: _ => some '\x0c'
  | '\\' :: 'n' :: _ => some '\n'
  | '\\' :: 'r' :: _ => some '\r'
  | '\\' :: 't' :: _ => some '\t'
  | '\\' :: c :: _ => some c
  | c :: _ => some c
  | [] => none

/-- Every character but a few stands for itself, and no written form begins with the quote that ends a string. -/
theorem escapeJsonChar_cases (c : Char) : (escapeJsonChar c).toList = [c] ∧ c ≠ '\\' ∧ c ≠ '"' ∨
    (escapeJsonChar c).toList.head? = some '\\' ∧ ∀ rest, readJsonChar ((escapeJsonChar c).toList ++ rest) = some c := by
  by_cases hspecial : c.toNat ≤ 0x1f ∨ c.toNat = 0x22 ∨ c.toNat = 0x5c
  · right
    have hc : c = Char.ofNat c.toNat := c.ofNat_toNat.symm
    rw [hc]
    rcases hspecial with h | h | h
    · interval_cases c.toNat <;> exact ⟨rfl, fun rest => rfl⟩
    all_goals
      rw [h]
      exact ⟨rfl, fun rest => rfl⟩
  · left
    refine ⟨?_, ?_, ?_⟩
    · rw [escapeJsonChar]
      split
      all_goals first
        | omega
        | rw [if_neg (by omega), String.toList_ofList]
    · rintro rfl
      exact hspecial (by decide)
    · rintro rfl
      exact hspecial (by decide)

theorem readJsonChar_escaped (c : Char) (rest : List Char) :
    readJsonChar ((escapeJsonChar c).toList ++ rest) = some c := by
  rcases escapeJsonChar_cases c with ⟨hself, hne, -⟩ | ⟨-, hread⟩
  · rw [hself, List.singleton_append]
    unfold readJsonChar
    split <;> simp_all
  · exact hread rest

def jsonChar : Wire Char Char := .ofReader (fun c => (escapeJsonChar c).toList) readJsonChar readJsonChar_escaped

theorem jsonChar_avoids : jsonChar.Avoids ['"'] := by
  rintro c _ - ⟨t, rfl⟩ ⟨t', hnext⟩
  have hnext : (escapeJsonChar c).toList ++ t' = '"' :: t := hnext
  rcases escapeJsonChar_cases c with ⟨hself, -, hne⟩ | ⟨hhead, -⟩
  · rw [hself] at hnext
    exact hne (List.cons.inj hnext).1
  · obtain ⟨rest, hrest⟩ := List.head?_eq_some_iff.mp hhead
    rw [hrest] at hnext
    exact absurd (List.cons.inj hnext).1 (by decide)

def jsonString : Wire Char String := ((jsonChar.upTo ['"'] jsonChar_avoids).behind ['"']).map String.toList
  fun _ _ h => String.ext h

theorem foldl_toList {α : Type} {push : String → α → String} {write : α → List Char}
    (hpush : ∀ output a, (push output a).toList = output.toList ++ write a) (as : List α) (output : String) :
    (as.foldl push output).toList = output.toList ++ as.flatMap write := by
  induction as generalizing output with
  | nil => simp
  | cons a as ih => rw [List.foldl_cons, ih, hpush, List.flatMap_cons, List.append_assoc]

theorem pushJsonString_toList (output value : String) :
    (pushJsonString output value).toList = output.toList ++ jsonString.write value := by
  have hchar : ∀ output ch, (output ++ escapeJsonChar ch).toList = output.toList ++ (escapeJsonChar ch).toList :=
    fun _ _ => String.toList_append
  rw [pushJsonString, String.toList_append, foldl_toList hchar, String.toList_append, List.append_assoc,
    List.append_assoc]
  rfl

/-! ### Arrays and objects -/

/-- The members of an array, and its end. -/
def jsonArray {α : Type} (W : Wire Char α) (h : W.Avoids [']']) : Wire Char (List α) :=
  W.separated [','] [']'] (by decide) (by decide) h

section Members

variable {α : Type} {push : String → α → String} {W : Wire Char α} {stop : List Char}

theorem pushJsonMembers_toList (hpush : ∀ output a, (push output a).toList = output.toList ++ W.write a)
    (hsep : ¬[','] <+: stop) (hstop : ¬stop <+: [',']) (h : W.Avoids stop) {close : String} (rest : List Char)
    (hclose : close.toList = stop ++ rest) (output : String) (as : List α) :
    (pushJsonMembers push output as ++ close).toList =
      output.toList ++ ((W.separated [','] stop hsep hstop h).write as ++ rest) := by
  have hmember : ∀ output a, (push (output ++ ",") a).toList = output.toList ++ (W.behind [',']).write a := by
    intro output a
    rw [hpush, String.toList_append, List.append_assoc]
    rfl
  rw [String.toList_append, hclose]
  cases as with
  | nil => rfl
  | cons a as =>
      rw [pushJsonMembers, foldl_toList hmember, hpush]
      simp only [Wire.separated, List.head?_cons, Option.elim_some, List.tail_cons, List.append_assoc]

theorem pushJsonArray_toList (hpush : ∀ output a, (push output a).toList = output.toList ++ W.write a)
    (h : W.Avoids [']']) {close : String} (rest : List Char) (hclose : close.toList = ']' :: rest) (output : String)
    (as : List α) :
    (pushJsonMembers push output as ++ close).toList = output.toList ++ ((jsonArray W h).write as ++ rest) :=
  pushJsonMembers_toList hpush (by decide) (by decide) h rest hclose output as

theorem pushJsonMember_toList {V : Wire Char α} {key : String} (h : V.Avoids key.toList) (output : String)
    (value : Option String) (a : α) :
    (pushJsonMember key output value).toList ++ V.write a =
      output.toList ++ (jsonString.optional key.toList V h).write (value, a) := by
  cases value with
  | none => rfl
  | some value =>
      rw [pushJsonMember, pushJsonString_toList, String.toList_append, List.append_assoc, List.append_assoc]
      exact congrArg (output.toList ++ ·) (List.append_assoc _ _ _).symm

end Members

theorem jsonString_avoids {mark : List Char} (h : ¬['"'] <+: mark) (h' : ¬mark <+: ['"']) : jsonString.Avoids mark :=
  fun value => Wire.behind_avoids (jsonChar.upTo _ jsonChar_avoids) h h' value.toList

def stringArray : Wire Char (List String) :=
  (jsonArray jsonString (jsonString_avoids (by decide) (by decide))).behind ['[']

theorem pushJsonStringArray_toList (output : String) (values : List String) :
    (pushJsonStringArray output values).toList = output.toList ++ stringArray.write values := by
  refine (pushJsonArray_toList pushJsonString_toList (jsonString_avoids (by decide) (by decide)) [] rfl _ _).trans ?_
  rw [String.toList_append, List.append_nil, List.append_assoc]
  rfl

/-- The end of an object. -/
def objectEnd : Wire Char Unit := (Wire.nothing Char).behind ['}']

theorem objectEnd_avoids {mark : List Char} (h : ¬['}'] <+: mark) (h' : ¬mark <+: ['}']) : objectEnd.Avoids mark :=
  Wire.behind_avoids _ h h'

def containerConfig : Wire Char OciContainerConfig :=
  ((stringArray.behind "\x7b\"Cmd\":".toList).seq ((stringArray.behind ",\"Entrypoint\":".toList).seq
    ((stringArray.behind ",\"Env\":".toList).seq (jsonString.optional ",\"WorkingDir\":".toList objectEnd
      (objectEnd_avoids (by decide) (by decide)))))).map
    (fun config => (config.command, config.entrypoint, config.env, config.workingDir, ())) (by
      rintro ⟨⟩ ⟨⟩ h
      cases h
      rfl)

theorem pushContainerConfigJson_toList (output : String) (config : OciContainerConfig) :
    (pushContainerConfigJson output config).toList = output.toList ++ containerConfig.write config := by
  rw [pushContainerConfigJson, String.toList_append]
  refine (pushJsonMember_toList (objectEnd_avoids (by decide) (by decide)) _ _ ()).trans ?_
  simp only [pushJsonStringArray_toList, String.toList_append, List.append_assoc]
  rfl

def emptyLayer : Wire Char Bool :=
  .ofReader (fun empty => if empty then ",\"empty_layer\":true\x7d".toList else ['}']) (fun l => some (l.head? = some ','))
    fun empty l => by cases empty <;> rfl

theorem emptyLayer_avoids : emptyLayer.Avoids ",\"comment\":".toList := by
  intro empty l _ hmark hnext
  rcases List.prefix_or_prefix_of_prefix hnext hmark with hle | hle <;> cases empty <;> exact absurd hle (by decide)

def historyEntry : Wire Char OciHistoryEntry :=
  ((jsonString.behind "\x7b\"created_by\":".toList).seq
    (jsonString.optional ",\"comment\":".toList emptyLayer emptyLayer_avoids)).map
    (fun entry => (entry.createdBy, entry.comment, entry.emptyLayer)) (by
      rintro ⟨⟩ ⟨⟩ h
      cases h
      rfl)

theorem pushHistoryEntryJson_toList (output : String) (entry : OciHistoryEntry) :
    (pushHistoryEntryJson output entry).toList = output.toList ++ historyEntry.write entry := by
  have hend : ∀ output : String, (if entry.emptyLayer then output ++ ",\"empty_layer\":true" else output).toList ++
      ['}'] = output.toList ++ emptyLayer.write entry.emptyLayer := by
    intro output
    cases entry.emptyLayer with
    | false => rfl
    | true =>
        rw [if_pos rfl, String.toList_append, List.append_assoc]
        rfl
  rw [pushHistoryEntryJson, String.toList_append]
  refine (hend _).trans ((pushJsonMember_toList emptyLayer_avoids _ _ _).trans ?_)
  rw [pushJsonString_toList, String.toList_append, List.append_assoc, List.append_assoc]
  rfl

/-! ### Configurations and manifests -/

theorem OciDigest.toString_injective : Function.Injective OciDigest.toString := by
  rintro ⟨⟨⟩, encoded⟩ ⟨⟨⟩, encoded'⟩ h
  have hchars := congrArg String.toList h
  simp only [OciDigest.toString, String.toList_append, List.append_cancel_left_eq] at hchars
  rw [String.ext hchars]

def digest : Wire Char OciDigest := jsonString.map OciDigest.toString OciDigest.toString_injective

theorem digest_avoids : digest.Avoids [']'] :=
  fun digest => jsonString_avoids (by decide) (by decide) digest.toString

def diffIds : Wire Char (List OciDigest) := jsonArray digest digest_avoids

def rootfs : Wire Char (List OciDigest × Unit) :=
  (diffIds.behind ",\"rootfs\":\x7b\"diff_ids\":[".toList).seq
    ((Wire.nothing Char).behind ",\"type\":\"layers\"\x7d\x7d".toList)

theorem rootfs_avoids : rootfs.Avoids ",\"variant\":".toList :=
  Wire.seq_avoids (Wire.behind_avoids diffIds (by decide) (by decide))

theorem historyEntry_avoids : historyEntry.Avoids [']'] :=
  fun _ => Wire.seq_avoids (Wire.behind_avoids jsonString (by decide) (by decide)) _

def imageConfig : Wire Char OciImageConfig :=
  ((jsonString.behind "\x7b\"architecture\":".toList).seq ((containerConfig.behind ",\"config\":".toList).seq
    (((jsonArray historyEntry historyEntry_avoids).behind ",\"history\":[".toList).seq
    ((jsonString.behind ",\"os\":".toList).seq (jsonString.optional ",\"variant\":".toList rootfs rootfs_avoids))))).map
    (fun image => (image.platform.architecture, image.config, image.history, image.platform.os, image.platform.variant,
      image.rootfsDiffIds, ())) (by
      rintro ⟨⟨⟩, _⟩ ⟨⟨⟩, _⟩ h
      cases h
      rfl)

def annotationPair : Wire Char (String × String) := jsonString.seq (jsonString.behind [':'])

theorem annotationPair_avoids : annotationPair.Avoids ['}'] :=
  Wire.seq_avoids (jsonString_avoids (by decide) (by decide))

def annotations : Wire Char (Option (List (String × String)) × Unit) :=
  (annotationPair.separated [','] ['}'] (by decide) (by decide) annotationPair_avoids).optional
    ",\"annotations\":\x7b".toList objectEnd (objectEnd_avoids (by decide) (by decide))

theorem annotations_head (s : Option (List (String × String)) × Unit) :
    ∃ c ∈ (annotations.write s).head?, c.isDigit = false := by
  rcases s with ⟨none | entries, _⟩
  · exact ⟨'}', rfl, by decide⟩
  · exact ⟨',', rfl, by decide⟩

theorem size_digits (size : Nat) : (toString size).toList.all Char.isDigit := by
  simpa using fun c hc => Nat.isDigit_of_mem_toDigits (by omega) (by omega) hc

def descriptor : Wire Char OciDescriptor :=
  ((jsonString.behind "\x7b\"mediaType\":".toList).seq ((digest.behind ",\"digest\":".toList).seq
    ((annotations.span Char.isDigit fun s _ => annotations_head s).behind ",\"size\":".toList))).map
    (fun descriptor => (descriptor.mediaType, descriptor.digest, ⟨(toString descriptor.size).toList, size_digits _⟩,
      if descriptor.annotations.entries.isEmpty then none else some descriptor.annotations.entries, ())) (by
      rintro ⟨_, _, size, ⟨entries, _⟩⟩ ⟨_, _, size', ⟨entries', _⟩⟩ h
      simp only [Prod.mk.injEq, Subtype.mk.injEq, and_true] at h
      obtain ⟨rfl, rfl, hsize, hentries⟩ := h
      obtain rfl : size = size' := Nat.repr_injective (String.ext hsize)
      cases entries <;> cases entries' <;> cases hentries <;> rfl)

theorem pushDescriptorJson_toList (output : String) (value : OciDescriptor) :
    (pushDescriptorJson output value).toList = output.toList ++ descriptor.write value := by
  have hentry : ∀ (output : String) (entry : String × String),
      (pushJsonString (pushJsonString output entry.1 ++ ":") entry.2).toList =
        output.toList ++ annotationPair.write entry := by
    intro output entry
    rw [pushJsonString_toList, String.toList_append, pushJsonString_toList, List.append_assoc, List.append_assoc]
    rfl
  have hend : ∀ output : String, (if value.annotations.entries.isEmpty then output
      else pushJsonMembers (fun output entry => pushJsonString (pushJsonString output entry.1 ++ ":") entry.2)
        (output ++ ",\"annotations\":\x7b") value.annotations.entries ++ "\x7d").toList ++ ['}'] =
      output.toList ++ annotations.write
        (if value.annotations.entries.isEmpty then none else some value.annotations.entries, ()) := by
    intro output
    split
    · rfl
    · rw [pushJsonMembers_toList hentry (by decide) (by decide) annotationPair_avoids [] rfl, String.toList_append,
        List.append_nil, List.append_assoc, List.append_assoc]
      rfl
  rw [pushDescriptorJson, String.toList_append]
  refine (hend _).trans ?_
  simp only [pushJsonString_toList, String.toList_append, List.append_assoc]
  rfl

theorem descriptor_avoids : descriptor.Avoids [']'] :=
  fun _ => Wire.seq_avoids (Wire.behind_avoids jsonString (by decide) (by decide)) _

def imageManifest : Wire Char OciImageManifest :=
  ((descriptor.behind ("\x7b\"schemaVersion\":2,\"mediaType\":".toList ++ jsonString.write mediaTypeOciManifest ++
      ",\"config\":".toList)).seq
    (((jsonArray descriptor descriptor_avoids).behind ",\"layers\":[".toList).seq objectEnd)).map
    (fun manifest => (manifest.config, manifest.layers, ())) (by
      rintro ⟨⟩ ⟨⟩ h
      cases h
      rfl)

/-- The bytes of a text tell which text it is. -/
theorem toUTF8_toList_injective : Function.Injective fun text : String => text.toUTF8.toList := by
  have hloop : ∀ bytes i r, ByteArray.toList.loop bytes i r = r.reverse ++ bytes.data.toList.drop i := by
    intro bytes i r
    fun_induction ByteArray.toList.loop bytes i r with
    | case1 i r h ih =>
        have hlength : i < bytes.data.toList.length := h
        rw [ih, List.drop_eq_getElem_cons hlength, List.reverse_cons, List.append_assoc]
        simp [ByteArray.get!, getElem!_pos bytes.data i h]
    | case2 i r h =>
        rw [List.drop_eq_nil_of_le (by simpa using h), List.append_nil]
  intro text text' h
  have hdata : text.toUTF8.data.toList = text'.toUTF8.data.toList :=
    (hloop _ 0 []).symm.trans (h.trans (hloop _ 0 []))
  exact String.toByteArray_inj.mp (ByteArray.ext (Array.toList_inj.mp hdata))

theorem OciImageConfig.toJsonBytes_eq (image : OciImageConfig) :
    ∃ text : String, image.toJsonBytes = text.toUTF8.toList ∧ text.toList = imageConfig.write image := by
  refine ⟨_, rfl, ?_⟩
  rw [pushJsonArray_toList (fun output a => pushJsonString_toList output a.toString) digest_avoids
    ",\"type\":\"layers\"\x7d\x7d".toList rfl, String.toList_append, List.append_assoc]
  refine (pushJsonMember_toList rootfs_avoids _ _ (image.rootfsDiffIds, ())).trans ?_
  rw [pushJsonString_toList, pushJsonArray_toList pushHistoryEntryJson_toList historyEntry_avoids ",\"os\":".toList rfl]
  simp only [pushJsonString_toList, pushContainerConfigJson_toList, String.toList_append, List.append_assoc]
  rfl

theorem OciImageManifest.toJsonBytes_eq (manifest : OciImageManifest) :
    ∃ text : String, manifest.toJsonBytes = text.toUTF8.toList ∧ text.toList = imageManifest.write manifest := by
  refine ⟨_, rfl, ?_⟩
  rw [pushJsonArray_toList pushDescriptorJson_toList descriptor_avoids ['}'] rfl]
  simp only [pushDescriptorJson_toList, pushJsonString_toList, String.toList_append, List.append_assoc]
  rfl

theorem imageConfig_valid (image : OciImageConfig) : imageConfig.valid image := by
  have hlayer : ∀ empty, emptyLayer.valid empty := fun _ => trivial
  simp [imageConfig, containerConfig, stringArray, historyEntry, hlayer, objectEnd, rootfs, diffIds, digest, jsonArray,
    jsonString, jsonChar, Wire.map, Wire.seq, Wire.behind, Wire.optional, Wire.separated, Wire.upTo, Wire.nothing,
    Wire.ofReader]

theorem imageManifest_valid (manifest : OciImageManifest) : imageManifest.valid manifest := by
  simp [imageManifest, descriptor, annotations, annotationPair, digest, objectEnd, jsonArray, jsonString, jsonChar,
    Wire.map, Wire.seq, Wire.behind, Wire.optional, Wire.separated, Wire.upTo, Wire.nothing, Wire.ofReader, Wire.span]

theorem injective_of_writes {α : Type} {W : Wire Char α} (hvalid : ∀ a, W.valid a) {bytes : α → List UInt8}
    (h : ∀ a, ∃ text : String, bytes a = text.toUTF8.toList ∧ text.toList = W.write a) : Function.Injective bytes := by
  intro a b heq
  obtain ⟨text, hbytes, htext⟩ := h a
  obtain ⟨text', hbytes', htext'⟩ := h b
  obtain rfl := toUTF8_toList_injective (hbytes.symm.trans (heq.trans hbytes'))
  exact W.eq_of_prefix (hvalid a) (hvalid b) (htext.symm.trans htext' ▸ List.prefix_rfl)

/-- Images with the same bytes are the same: the bytes of a configuration tell which one it is, and so do those of a
manifest. -/
theorem toJsonBytes_injective :
    Function.Injective OciImageConfig.toJsonBytes ∧ Function.Injective OciImageManifest.toJsonBytes :=
  ⟨injective_of_writes imageConfig_valid OciImageConfig.toJsonBytes_eq,
    injective_of_writes imageManifest_valid OciImageManifest.toJsonBytes_eq⟩

end Mcr.Image
