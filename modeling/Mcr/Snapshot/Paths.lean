import Mcr.Lib.Prog
import Mcr.Snapshot.Tar

/-!
# Paths in an archive

A path has no empty components, so it is its leading slash and a text that neither starts nor ends with one. The names
of deletions and opaque directories tell what they stand for.
-/

namespace Mcr.Snapshot

open Prog (except_bind_eq_ok)

/-! ### The text of a path -/

theorem SnapshotPath.head (path : SnapshotPath) : ∃ rest, path.text = slash :: rest := by
  have hvalid := path.valid
  unfold validateSnapshotPath at hvalid
  split at hvalid
  · nomatch hvalid
  · rename_i hhead
    obtain ⟨rest, hrest⟩ := List.head?_eq_some_iff.mp (not_not.mp hhead)
    exact ⟨rest, hrest⟩

/-- A name between two slashes. -/
def IsName (component : Text) : Prop := component ≠ [] ∧ component ≠ dot ∧ component ≠ dotDot

theorem SnapshotPath.names {path : SnapshotPath} {rest : Text} (h : path.text = slash :: rest) (hrest : rest ≠ []) :
    ∀ component ∈ rest.splitOn slash, IsName component := by
  have hvalid := path.valid
  unfold validateSnapshotPath at hvalid
  rw [h] at hvalid
  split at hvalid
  · nomatch hvalid
  split at hvalid
  · nomatch hvalid
  rename_i hcomponents
  intro component hcomponent
  have hsplit : (slash :: rest).splitOn slash = [[]] ++ rest.splitOn slash := List.splitOn_append_cons_self [] rest
  have hlength : 1 < (slash :: rest).length := by
    rw [List.length_cons]
    exact Nat.succ_lt_succ (List.length_pos_of_ne_nil hrest)
  by_contra hname
  apply hcomponents
  refine ⟨hlength, List.any_eq_true.mpr ⟨component, hsplit ▸ hcomponent, ?_⟩⟩
  rw [Bool.or_eq_true, Bool.or_eq_true, List.isEmpty_iff, beq_iff_eq, beq_iff_eq]
  by_contra hother
  rw [not_or, not_or] at hother
  exact hname ⟨hother.1.1, hother.1.2, hother.2⟩

theorem SnapshotPath.components {path : SnapshotPath} {rest : Text} (h : path.text = slash :: rest) (hrest : rest ≠ []) :
    [] ∉ rest.splitOn slash := fun hmem => (SnapshotPath.names h hrest [] hmem).1 rfl

/-- What a path is behind its leading slash. -/
structure Inner (rest : Text) : Prop where
  nonempty : rest ≠ []
  first : rest.head? ≠ some slash
  last : rest.getLast? ≠ some slash

theorem SnapshotPath.inner {path : SnapshotPath} {rest : Text} (h : path.text = slash :: rest) (hrest : rest ≠ []) :
    Inner rest := by
  have hcomponents := SnapshotPath.components h hrest
  refine ⟨hrest, fun hfirst => ?_, fun hlast => ?_⟩
  · obtain ⟨tail, rfl⟩ := List.head?_eq_some_iff.mp hfirst
    apply hcomponents
    have hsplit : (slash :: tail).splitOn slash = [[]] ++ tail.splitOn slash := List.splitOn_append_cons_self [] tail
    rw [hsplit]
    exact List.mem_append_left _ (List.mem_singleton_self _)
  · obtain ⟨front, rfl⟩ := List.getLast?_eq_some_iff.mp hlast
    apply hcomponents
    have hsplit : (front ++ [slash]).splitOn slash = front.splitOn slash ++ [[]] := List.splitOn_append_cons_self front []
    rw [hsplit]
    exact List.mem_append_right _ (List.mem_singleton_self _)

theorem layerTarPath_ok {path : SnapshotPath} {text : Text} (h : layerTarPath path = .ok text) :
    path.text = slash :: text ∧ Inner text := by
  unfold layerTarPath at h
  split at h
  · nomatch h
  rename_i hroot
  obtain ⟨rest, hrest⟩ := path.head
  have hne : rest ≠ [] := by
    rintro rfl
    exact hroot hrest
  have hinner := SnapshotPath.inner hrest hne
  have htext : path.text.dropWhile (· == slash) = rest := by
    rw [hrest, List.dropWhile_cons, if_pos (beq_self_eq_true slash)]
    cases rest with
    | nil => rfl
    | cons byte tail =>
        have hbyte : (byte == slash) = false := beq_eq_false_iff_ne.mpr fun heq => hinner.first (congrArg some heq)
        rw [List.dropWhile_cons, hbyte, if_neg Bool.false_ne_true]
  rw [htext] at h
  obtain rfl := Except.ok.inj h
  exact ⟨hrest, hinner⟩

/-! ### The two halves of a long path -/

theorem splitTarPath_ok {path : Text} {parts : TarPathParts} (h : splitTarPath path = .ok parts) :
    (parts.prefixPart = none ∧ parts.namePart = path) ∨
      ∃ prefixPart, parts.prefixPart = some prefixPart ∧ prefixPart ≠ [] ∧ parts.namePart ≠ [] ∧
        path = prefixPart ++ slash :: parts.namePart := by
  unfold splitTarPath at h
  split at h
  · obtain rfl := Except.ok.inj h
    exact Or.inl ⟨rfl, rfl⟩
  simp only at h
  split at h
  · rename_i index hfound
    obtain rfl := Except.ok.inj h
    right
    have hslash := List.mem_of_find?_eq_some hfound
    have hsplits := List.find?_some hfound
    simp only [List.mem_reverse, List.mem_filter, beq_iff_eq] at hslash
    simp only [Bool.and_eq_true, Bool.not_eq_true', List.isEmpty_eq_false_iff] at hsplits
    refine ⟨path.take index, rfl, hsplits.1.1.1, hsplits.1.1.2, ?_⟩
    obtain ⟨hindex, hbyte⟩ := List.getElem?_eq_some_iff.mp hslash.2
    rw [← hbyte, List.getElem_cons_drop, List.take_append_drop]
  · nomatch h

/-! ### The last slash -/

theorem rfindSlash_none {text : Text} : rfindSlash text = none ↔ slash ∉ text := by
  induction text with
  | nil => exact ⟨fun _ => List.not_mem_nil, fun _ => rfl⟩
  | cons byte rest ih =>
      rw [rfindSlash, List.mem_cons, not_or]
      cases hrest : rfindSlash rest with
      | some index =>
          rw [hrest] at ih
          refine ⟨fun h => (nomatch h), fun h => ?_⟩
          nomatch ih.mpr h.2
      | none =>
          simp only
          split
          · rename_i hbyte
            exact ⟨fun h => (nomatch h), fun h => absurd hbyte.symm h.1⟩
          · rename_i hbyte
            exact ⟨fun _ => ⟨Ne.symm hbyte, ih.mp hrest⟩, fun _ => rfl⟩

theorem rfindSlash_append (front : Text) {name : Text} (hname : slash ∉ name) :
    rfindSlash (front ++ slash :: name) = some front.length := by
  induction front with
  | nil => rw [List.nil_append, rfindSlash, rfindSlash_none.mpr hname, if_pos rfl]; rfl
  | cons byte rest ih => rw [List.cons_append, rfindSlash, ih]; rfl

theorem rfindSlash_some {text : Text} {index : Nat} (h : rfindSlash text = some index) :
    text = text.take index ++ slash :: text.drop (index + 1) ∧ slash ∉ text.drop (index + 1) := by
  induction text generalizing index with
  | nil => nomatch h
  | cons byte rest ih =>
      rw [rfindSlash] at h
      cases hrest : rfindSlash rest with
      | some found =>
          rw [hrest] at h
          obtain rfl := Option.some.inj h
          obtain ⟨htext, hname⟩ := ih hrest
          exact ⟨congrArg (byte :: ·) htext, hname⟩
      | none =>
          rw [hrest] at h
          simp only at h
          split at h
          · rename_i hbyte
            obtain rfl := Option.some.inj h
            exact ⟨congrArg (· :: rest) hbyte, rfindSlash_none.mp hrest⟩
          · nomatch h

/-! ### Deletions and opaque directories -/

structure Splits (path : SnapshotPath) (parent name : Text) : Prop where
  joined : path.text = joinSnapshotChild parent name
  name : slash ∉ name
  parent : parent ≠ []

theorem splitParentAndName_ok {path : SnapshotPath} {parent name : Text}
    (h : splitParentAndName path = .ok (parent, name)) : Splits path parent name := by
  unfold splitParentAndName at h
  split at h
  · nomatch h
  obtain ⟨hparent, hname⟩ := Prod.mk.inj (Except.ok.inj h)
  obtain ⟨rest, hrest⟩ := path.head
  obtain ⟨index, hindex⟩ : ∃ index, rfindSlash path.text = some index := by
    cases hfound : rfindSlash path.text with
    | some index => exact ⟨index, rfl⟩
    | none =>
        rw [hrest] at hfound
        exact absurd List.mem_cons_self (rfindSlash_none.mp hfound)
  rw [hindex, Option.getD_some] at hparent hname
  obtain ⟨htext, hlast⟩ := rfindSlash_some hindex
  rw [hname] at htext hlast
  by_cases hzero : index = 0
  · rw [if_pos hzero] at hparent
    rw [hzero, List.take_zero, List.nil_append] at htext
    refine ⟨?_, hlast, hparent ▸ List.cons_ne_nil _ _⟩
    rw [← hparent, joinSnapshotChild, if_pos rfl]
    exact htext
  · rw [if_neg hzero] at hparent
    rw [hparent] at htext
    have hne : parent ≠ [] := by
      rintro rfl
      have hlength := congrArg List.length hparent
      rw [hrest, List.length_take, List.length_cons, List.length_nil] at hlength
      omega
    refine ⟨?_, hlast, hne⟩
    rw [joinSnapshotChild, if_neg]
    · exact htext
    · rintro rfl
      rw [hrest] at htext
      have htail : rest = slash :: name := (List.cons.inj htext).2
      exact (SnapshotPath.inner hrest (htail ▸ List.cons_ne_nil _ _)).first (htail ▸ rfl)

theorem joinSnapshotChild_injective {parent parent' name name' : Text} (hname : slash ∉ name) (hname' : slash ∉ name')
    (hparent : parent ≠ []) (hparent' : parent' ≠ [])
    (h : joinSnapshotChild parent name = joinSnapshotChild parent' name') : parent = parent' ∧ name = name' := by
  have hparts : ∀ {parent name : Text}, slash ∉ name → parent ≠ [] →
      ∃ front, joinSnapshotChild parent name = front ++ slash :: name ∧
        parent = if front = [] then [slash] else front := by
    intro parent name _ hne
    unfold joinSnapshotChild
    split
    · rename_i hroot
      exact ⟨[], rfl, by rw [if_pos rfl]; exact hroot⟩
    · exact ⟨parent, rfl, by rw [if_neg hne]⟩
  obtain ⟨front, hjoin, hfront⟩ := hparts hname hparent
  obtain ⟨front', hjoin', hfront'⟩ := hparts hname' hparent'
  rw [hjoin, hjoin'] at h
  have hlength : front.length = front'.length := by
    have hfound := rfindSlash_append front hname
    rw [h, rfindSlash_append front' hname'] at hfound
    exact (Option.some.inj hfound).symm
  obtain ⟨hfronts, hnames⟩ := List.append_inj h hlength
  refine ⟨?_, (List.cons.inj hnames).2⟩
  rw [hfront, hfront', hfronts]

theorem whiteoutMark_noSlash {name : Text} (h : slash ∉ name) : slash ∉ whiteoutMark ++ name := by
  rw [List.mem_append, not_or]
  exact ⟨by decide, h⟩

theorem whiteoutPathForDeleted_ok {deleted path : SnapshotPath} (h : whiteoutPathForDeleted deleted = .ok path) :
    ∃ parent name, Splits deleted parent name ∧ Splits path parent (whiteoutMark ++ name) := by
  obtain ⟨⟨parent, name⟩, hsplit, hpath⟩ := except_bind_eq_ok.mp h
  have hsplits := splitParentAndName_ok hsplit
  exact ⟨parent, name, hsplits, SnapshotPath.new_ok hpath, whiteoutMark_noSlash hsplits.name, hsplits.parent⟩

theorem whiteoutPathForDeleted_injective {deleted deleted' path : SnapshotPath}
    (h : whiteoutPathForDeleted deleted = .ok path) (h' : whiteoutPathForDeleted deleted' = .ok path) :
    deleted = deleted' := by
  obtain ⟨parent, name, hdeleted, hpath⟩ := whiteoutPathForDeleted_ok h
  obtain ⟨parent', name', hdeleted', hpath'⟩ := whiteoutPathForDeleted_ok h'
  obtain ⟨rfl, hnames⟩ := joinSnapshotChild_injective hpath.name hpath'.name hpath.parent hpath'.parent
    (hpath.joined.symm.trans hpath'.joined)
  obtain rfl := List.append_cancel_left hnames
  exact SnapshotPath.ext_text (hdeleted.joined.trans hdeleted'.joined.symm)

theorem opaqueWhiteoutPathForDirectory_ok {directory path : SnapshotPath}
    (h : opaqueWhiteoutPathForDirectory directory = .ok path) : Splits path directory.text opaqueMark := by
  obtain ⟨rest, hrest⟩ := directory.head
  exact ⟨SnapshotPath.new_ok h, by decide, hrest ▸ List.cons_ne_nil _ _⟩

theorem opaqueWhiteoutPathForDirectory_injective {directory directory' path : SnapshotPath}
    (h : opaqueWhiteoutPathForDirectory directory = .ok path)
    (h' : opaqueWhiteoutPathForDirectory directory' = .ok path) : directory = directory' := by
  have hpath := opaqueWhiteoutPathForDirectory_ok h
  have hpath' := opaqueWhiteoutPathForDirectory_ok h'
  exact SnapshotPath.ext_text (joinSnapshotChild_injective hpath.name hpath'.name hpath.parent hpath'.parent
    (hpath.joined.symm.trans hpath'.joined)).1

end Mcr.Snapshot
