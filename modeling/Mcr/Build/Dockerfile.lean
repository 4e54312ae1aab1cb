import Mcr.Lib.Str

/-!
# Dockerfiles

A Dockerfile is read line by line. A line that ends in a backslash is continued on the next one that is neither blank
nor a comment, and a whole instruction is a keyword and its arguments. What a text is parsed to depends on the pieces
of its instructions alone, and a printed plan is parsed back however its instructions are broken and laid out.
-/

namespace Mcr.Build

open Str

inductive DockerfileInstruction
  | from' (value : Str)
  | arg (value : Str)
  | env (value : Str)
  | workdir (value : Str)
  | copy (value : Str)
  | add (value : Str)
  | run (value : Str)
  | cmd (value : Str)
  | entrypoint (value : Str)

namespace DockerfileInstruction

def keyword : DockerfileInstruction → Str
  | from' _ => ['F', 'R', 'O', 'M']
  | arg _ => ['A', 'R', 'G']
  | env _ => ['E', 'N', 'V']
  | workdir _ => ['W', 'O', 'R', 'K', 'D', 'I', 'R']
  | copy _ => ['C', 'O', 'P', 'Y']
  | add _ => ['A', 'D', 'D']
  | run _ => ['R', 'U', 'N']
  | cmd _ => ['C', 'M', 'D']
  | entrypoint _ => ['E', 'N', 'T', 'R', 'Y', 'P', 'O', 'I', 'N', 'T']

def rawArgs : DockerfileInstruction → Str
  | from' value | arg value | env value | workdir value | copy value | add value | run value | cmd value
  | entrypoint value => value

def all (value : Str) : List DockerfileInstruction :=
  [from' value, arg value, env value, workdir value, copy value, add value, run value, cmd value, entrypoint value]

end DockerfileInstruction

inductive DockerfileParseErrorKind
  | unsupportedInstruction (instruction : Str)
  | missingArgument (instruction : Str)

structure DockerfileParseError where
  line : Nat
  kind : DockerfileParseErrorKind

/-- `str::lines`. -/
def lines (text : Str) : List Str :=
  let parts := text.splitOn '\n'
  parts.dropLast.map (fun line => if line.getLast? = some '\r' then line.dropLast else line) ++
    parts.getLast?.toList.filter (· ≠ [])

def splitInstruction (line : Str) : Option (Str × Str) :=
  let trimmed := trim line
  match trimmed.findIdx? isWhitespace with
  | none => none
  | some split => some (trimmed.take split, trim (trimmed.drop split))

def parseInstruction (lineNumber : Nat) (line : Str) : Except DockerfileParseError DockerfileInstruction :=
  match splitInstruction line with
  | none => .error ⟨lineNumber, .missingArgument line⟩
  | some (keyword, args) =>
    if args = [] then .error ⟨lineNumber, .missingArgument keyword⟩
    else
      match (DockerfileInstruction.all args).find? (·.keyword = keyword.map Char.toUpper) with
      | some instruction => .ok instruction
      | none => .error ⟨lineNumber, .unsupportedInstruction (keyword.map Char.toUpper)⟩

structure ParseState where
  instructions : List DockerfileInstruction
  continuation : Str
  continuationStart : Nat

def isSkipped (line : Str) : Bool := line = [] ∨ line.head? = some '#'

def trimBackslashes (line : Str) : Str := trimEnd (line.rdropWhile (· = '\\'))

def ParseState.complete (state : ParseState) : Except DockerfileParseError ParseState := do
  let instruction ← parseInstruction state.continuationStart state.continuation
  pure ⟨state.instructions ++ [instruction], [], state.continuationStart⟩

def ParseState.line (state : ParseState) (lineNumber : Nat) (rawLine : Str) :
    Except DockerfileParseError ParseState :=
  let line := trim rawLine
  if isSkipped line then .ok state
  else
    let start := if state.continuation = [] then lineNumber else state.continuationStart
    let continuation := if state.continuation = [] then [] else state.continuation ++ [' ']
    let state := ⟨state.instructions, continuation ++ trimBackslashes line, start⟩
    if line.getLast? = some '\\' then .ok state else state.complete

/-- The loop over the lines from a number on, and what is left behind the last one. -/
def parseLines : Nat → List Str → ParseState → Except DockerfileParseError (List DockerfileInstruction)
  | _, [], state =>
    if state.continuation = [] then .ok state.instructions else state.complete.map (·.instructions)
  | lineNumber, line :: rest, state => state.line lineNumber line >>= parseLines (lineNumber + 1) rest

def parseDockerfile (input : Str) : Except DockerfileParseError (List DockerfileInstruction) :=
  parseLines 1 (lines input) ⟨[], [], 0⟩

/-! ### Layouts -/

/-- A piece of an instruction on a line of its own, with backslashes behind it if the instruction goes on. -/
structure Holds (line piece : Str) (goesOn : Prop) : Prop where
  notSkipped : isSkipped (trim line) = false
  text : trimBackslashes (trim line) = piece
  ne_nil : piece ≠ []
  broken : (trim line).getLast? = some '\\' ↔ goesOn

/-- What pieces add to the text of an instruction. -/
def behind (pieces : List Str) : Str := pieces.flatMap (' ' :: ·)

/-- The lines from a number on hold the pieces that are left of an instruction, and then whole instructions, each with
the number of its first line. Blank lines and comments may stand anywhere, also between two pieces. -/
inductive Laid : Nat → List Str → List Str → List (Nat × Str) → Prop
  | done {n : Nat} : Laid n [] [] []
  | skip {n line lines pieces texts} (hline : isSkipped (trim line) = true)
      (h : Laid (n + 1) lines pieces texts) : Laid n (line :: lines) pieces texts
  | next {n line piece lines pieces texts} (hline : Holds line piece (pieces ≠ []))
      (h : Laid (n + 1) lines pieces texts) : Laid n (line :: lines) (piece :: pieces) texts
  | first {n line piece lines pieces texts} (hline : Holds line piece (pieces ≠ []))
      (h : Laid (n + 1) lines pieces texts) : Laid n (line :: lines) [] ((n, piece ++ behind pieces) :: texts)

abbrev parseText (text : Nat × Str) : Except DockerfileParseError DockerfileInstruction := parseInstruction text.1 text.2

/-- The instruction that has been begun, if one has, once its last pieces are there. -/
def ParseState.begun (state : ParseState) (pieces : List Str) : List (Nat × Str) :=
  if pieces = [] then [] else [(state.continuationStart, state.continuation ++ behind pieces)]

section Layout

variable {n : Nat} {line piece : Str} {lines pieces : List Str} {texts : List (Nat × Str)}

/-- The lines have been read as instructions with these texts. -/
def Reads (n : Nat) (lines pieces : List Str) (texts : List (Nat × Str)) : Prop :=
  ∀ state : ParseState, (state.continuation = [] ↔ pieces = []) → parseLines n lines state =
    ((state.begun pieces ++ texts).mapM parseText).map (state.instructions ++ ·)

theorem reads_line (h : Reads (n + 1) lines pieces texts) (hline : Holds line piece (pieces ≠ [])) (state : ParseState) :
    parseLines n (line :: lines) state =
      (((if state.continuation = [] then n else state.continuationStart,
        (if state.continuation = [] then [] else state.continuation ++ [' ']) ++ piece ++ behind pieces) :: texts).mapM
          parseText).map (state.instructions ++ ·) := by
  rw [parseLines, ParseState.line, hline.notSkipped, hline.text]
  by_cases hpieces : pieces = []
  · rw [if_neg Bool.false_ne_true, if_neg fun hlast => hline.broken.mp hlast hpieces, hpieces, List.mapM_cons, behind,
      List.flatMap_nil, List.append_nil, ParseState.complete, bind_assoc]
    generalize (if state.continuation = [] then n else state.continuationStart) = start
    generalize (if state.continuation = [] then [] else state.continuation ++ [' ']) ++ piece = text
    show _ = ((parseInstruction start text >>= _)).map _
    cases parseInstruction start text with
    | error e => rfl
    | ok instruction =>
        refine (h ⟨state.instructions ++ [instruction], [], _⟩ (iff_of_true rfl hpieces)).trans ?_
        rw [ParseState.begun, if_pos hpieces, List.nil_append]
        cases hrest : texts.mapM parseText with
        | error e => rfl
        | ok rest => exact congrArg Except.ok (List.append_assoc _ _ _)
  · rw [if_neg Bool.false_ne_true, if_pos (hline.broken.mpr hpieces)]
    refine (h _ (iff_of_false ?_ hpieces)).trans ?_
    · exact List.append_ne_nil_of_right_ne_nil _ hline.ne_nil
    · simp [ParseState.begun, hpieces]

theorem parseLines_laid (h : Laid n lines pieces texts) : Reads n lines pieces texts := by
  induction h with
  | done =>
      intro state hopen
      rw [parseLines, if_pos (hopen.mpr rfl)]
      simp [ParseState.begun, Except.map, pure, Except.pure]
  | skip hline h ih =>
      intro state hopen
      rw [parseLines, ParseState.line, if_pos hline]
      exact ih state hopen
  | next hline h ih =>
      intro state hopen
      have hbegun : state.continuation ≠ [] := fun hnil => by simpa using hopen.mp hnil
      rw [reads_line ih hline, if_neg hbegun, if_neg hbegun]
      simp [ParseState.begun, behind]
  | first hline h ih =>
      intro state hopen
      have hnone : state.continuation = [] := hopen.mpr rfl
      rw [reads_line ih hline, if_pos hnone, if_pos hnone]
      simp [ParseState.begun]

end Layout

/-! ### Printed instructions -/

/-- The keyword in any case, and the arguments. -/
structure Prints (text : Nat × Str) (instruction : DockerfileInstruction) : Prop where
  text : ∃ keyword : Str, keyword.map Char.toUpper = instruction.keyword ∧
    text.2 = keyword ++ ' ' :: instruction.rawArgs
  trimmed : Trimmed instruction.rawArgs
  ne_nil : instruction.rawArgs ≠ []

theorem keyword_not_whitespace {keyword : Str} {instruction : DockerfileInstruction}
    (h : keyword.map Char.toUpper = instruction.keyword) : ∀ c ∈ keyword, isWhitespace c = false := by
  intro c hc
  have hplain : instruction.keyword.all (fun c => !isWhitespace c) = true := by cases instruction <;> rfl
  have hupper : whitespace.all (fun c => c.toUpper = c) = true := by decide
  by_contra hspace
  have hmem : c ∈ whitespace := by simpa [isWhitespace] using hspace
  have hsame : c.toUpper = c := of_decide_eq_true (List.all_eq_true.mp hupper c hmem)
  have hnot := List.all_eq_true.mp hplain c (by rw [← h, ← hsame]; exact List.mem_map_of_mem hc)
  simp [hspace] at hnot

theorem parseText_prints {text : Nat × Str} {instruction : DockerfileInstruction} (h : Prints text instruction) :
    parseText text = .ok instruction := by
  obtain ⟨keyword, hkeyword, htext⟩ := h.text
  have hplain := keyword_not_whitespace hkeyword
  have hne : keyword ≠ [] := by
    rintro rfl
    cases instruction <;> cases hkeyword
  have htrimmed : Trimmed text.2 := by
    obtain ⟨first, rest, rfl⟩ := List.exists_cons_of_ne_nil hne
    refine ⟨fun c hc => hplain c ?_, fun c hc => h.trimmed.last c ?_⟩
    · rw [htext] at hc
      cases hc
      exact List.mem_cons_self
    · rwa [htext, List.getLast?_append_of_ne_nil _ (List.cons_ne_nil _ _), List.getLast?_cons_of_ne_nil h.ne_nil] at hc
  have hsplit : splitInstruction text.2 = some (keyword, instruction.rawArgs) := by
    have hindex : text.2.findIdx? isWhitespace = some keyword.length := by
      rw [htext, List.findIdx?_append, List.findIdx?_eq_none_iff.mpr hplain]
      simp [List.findIdx?_cons, isWhitespace, whitespace]
    have hargs : trim (' ' :: instruction.rawArgs) = instruction.rawArgs := trim_eq_self h.trimmed
    rw [splitInstruction, trim_eq_self htrimmed, hindex]
    simp only [htext, List.take_left, List.drop_left, hargs]
  have hfind : (DockerfileInstruction.all instruction.rawArgs).find? (·.keyword = instruction.keyword) =
      some instruction := by
    cases instruction <;> rfl
  rw [parseText, parseInstruction, hsplit]
  simp only [hkeyword, hfind, if_neg h.ne_nil]

/-! ### What a text is parsed to -/

theorem parseInstruction_line {n : Nat} {text : Str} {e : DockerfileParseError} (h : parseInstruction n text = .error e) :
    e.line = n := by
  unfold parseInstruction at h
  split at h
  · cases h
    rfl
  · split at h
    · cases h
      rfl
    · split at h <;> cases h
      rfl

/-- A text whose lines lay out instructions is parsed to them, wherever they are broken and whatever stands between
their pieces; an error is that of the first instruction that has one, and names the line where it starts. -/
theorem parseDockerfile_layout {input : Str} {texts : List (Nat × Str)} (h : Laid 1 (lines input) [] texts) :
    (∀ instructions, List.Forall₂ Prints texts instructions → parseDockerfile input = .ok instructions) ∧
      ∀ e, parseDockerfile input = .error e → ∃ before text after, texts = before ++ text :: after ∧
        (∀ earlier ∈ before, ∃ instruction, parseText earlier = .ok instruction) ∧ parseText text = .error e ∧
          e.line = text.1 := by
  have hparse : parseDockerfile input = texts.mapM parseText := by
    refine (parseLines_laid h _ (iff_of_true rfl rfl)).trans ?_
    rw [ParseState.begun, if_pos rfl, List.nil_append]
    cases texts.mapM parseText <;> rfl
  rw [hparse]
  clear hparse h
  constructor
  · intro instructions hprints
    induction hprints with
    | nil => rfl
    | cons htext _ ih =>
        rw [List.mapM_cons, parseText_prints htext, ih]
        rfl
  · intro e he
    induction texts with
    | nil => cases he
    | cons text rest ih =>
        rw [List.mapM_cons] at he
        cases htext : parseText text with
        | error e' =>
            rw [htext] at he
            cases he
            exact ⟨[], text, rest, rfl, by simp, htext, parseInstruction_line htext⟩
        | ok instruction =>
            have hrest : rest.mapM parseText = .error e := by
              rw [htext] at he
              cases hrest : rest.mapM parseText <;> rw [hrest] at he <;> cases he
              rfl
            obtain ⟨before, text', after, rfl, hbefore, herror⟩ := ih hrest
            exact ⟨text :: before, text', after, rfl, List.forall_mem_cons.mpr ⟨⟨_, htext⟩, hbefore⟩, herror⟩

/-- An instruction broken around a comment. -/
theorem parseDockerfile_layout_broken :
    parseDockerfile ['R', 'u', 'n', ' ', 'a', '\\', '\n', '#', '\n', ' ', 'c'] = .ok [.run ['a', ' ', 'c']] := by
  have hfirst : Holds ['R', 'u', 'n', ' ', 'a', '\\'] ['R', 'u', 'n', ' ', 'a'] ([['c']] ≠ []) := by
    constructor <;> decide
  have hnext : Holds [' ', 'c'] ['c'] (([] : List Str) ≠ []) := by constructor <;> decide
  have hskip : isSkipped (trim ['#']) = true := by decide
  exact (parseDockerfile_layout (.first hfirst (.skip hskip (.next hnext .done)))).1 _
    (.cons ⟨⟨['R', 'u', 'n'], by decide, rfl⟩, by constructor <;> rintro _ ⟨⟩ <;> rfl, by decide⟩ .nil)

end Mcr.Build
