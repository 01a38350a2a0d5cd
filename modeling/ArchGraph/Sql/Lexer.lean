import ArchGraph.Text.Lines
/-!
# Reading SQL past comments and strings

The characters of a script that are not part of a comment, each with its place and with a mark if
it belongs to a string literal. A line comment leaves its line feed behind, a block comment one
blank. Brackets, semicolons and commas count only outside of comments and strings.
Main statements: every character that is read stands inside the script, and a statement ends no
earlier than the place from which its end is looked for.
-/

namespace ArchGraph.Sql

open Text (Chars trim)

/-- A part of a script, from its first character up to the one behind it. -/
structure Region where
  start : Nat
  stop  : Nat
deriving DecidableEq, Repr

/-- The characters of a part. -/
def Region.chars (r : Region) (text : Chars) : Chars := (text.take r.stop).drop r.start

/-- What the reader is inside of. -/
inductive Mode where
  | code
  | string
  | lineComment
  /-- At the star that opens a block comment. -/
  | blockStart
  /-- In a block comment, behind a character. -/
  | blockComment (previous : Char)
deriving DecidableEq, Repr

/-- A character outside of comments. -/
structure Lexeme where
  offset : Nat
  char   : Char
  quoted : Bool
deriving DecidableEq, Repr

/-- The characters outside of comments from a place on. -/
def lexFrom (mode : Mode) (offset : Nat) : Chars → List Lexeme
  | [] => []
  | c :: rest =>
    match mode with
    | .code =>
      if c = '\'' then ⟨offset, c, true⟩ :: lexFrom .string (offset + 1) rest
      else if c = '-' ∧ rest.head? = some '-' then lexFrom .lineComment (offset + 1) rest
      else if c = '/' ∧ rest.head? = some '*' then
        ⟨offset, ' ', false⟩ :: lexFrom .blockStart (offset + 1) rest
      else ⟨offset, c, false⟩ :: lexFrom .code (offset + 1) rest
    | .string =>
      ⟨offset, c, true⟩ :: lexFrom (if c = '\'' then .code else .string) (offset + 1) rest
    | .lineComment =>
      if c = '\n' then ⟨offset, c, false⟩ :: lexFrom .code (offset + 1) rest
      else lexFrom .lineComment (offset + 1) rest
    | .blockStart => lexFrom (.blockComment ' ') (offset + 1) rest
    | .blockComment previous =>
      lexFrom (if previous = '*' ∧ c = '/' then .code else .blockComment c) (offset + 1) rest

/-- The characters of a script outside of comments. -/
def lex (text : Chars) : List Lexeme := lexFrom .code 0 text

/-- The characters of a script outside of comments and strings. -/
def code (text : Chars) : List Lexeme := (lex text).filter (!·.quoted)

/-- A script without its comments, trimmed. -/
def stripComments (text : Chars) : Chars := trim ((lex text).map (·.char))

/-- The place of the bracket that closes `depth` open ones. -/
def closing? (depth : Nat) : List Lexeme → Option Nat
  | [] => none
  | l :: rest =>
    if l.char = '(' then closing? (depth + 1) rest
    else if l.char = ')' then
      if depth ≤ 1 then some l.offset else closing? (depth - 1) rest
    else closing? depth rest

/-- The place of the bracket that closes the one just before `start`. -/
def matchingParen? (text : Chars) (start : Nat) : Option Nat :=
  (closing? 1 (code (text.drop start))).map (start + ·)

/-- The place of the next semicolon. -/
def semicolon? (text : Chars) (start : Nat) : Option Nat :=
  ((code (text.drop start)).find? (·.char = ';')).map (start + ·.offset)

/-- The place behind the statement that goes on at `start`: behind the next semicolon, or the
end. -/
def statementEnd (text : Chars) (start : Nat) : Nat :=
  match semicolon? text start with
  | some place => place + 1
  | none => text.length

/-- The places of the commas outside of brackets, behind `depth` open ones. -/
def topCommas (depth : Int) : List Lexeme → List Nat
  | [] => []
  | l :: rest =>
    if l.char = '(' then topCommas (depth + 1) rest
    else if l.char = ')' then topCommas (depth - 1) rest
    else if l.char = ',' ∧ depth = 0 then l.offset :: topCommas depth rest
    else topCommas depth rest

/-- The parts of a region between the places of separators, the first one starting at `start`. -/
def cutAt (start stop : Nat) : List Nat → List Region
  | [] => [⟨start, stop⟩]
  | place :: rest => ⟨start, place⟩ :: cutAt (place + 1) stop rest

/-- The parts of a region of a script between the commas outside of brackets. -/
def items (text : Chars) (r : Region) : List Region :=
  cutAt r.start r.stop ((topCommas 0 (code (r.chars text))).map (r.start + ·))

/-! ## Laws -/

theorem lexFrom_string_cons (offset : Nat) (c : Char) (rest : Chars) :
    lexFrom .string offset (c :: rest) =
      ⟨offset, c, true⟩ :: lexFrom (if c = '\'' then .code else .string) (offset + 1) rest := rfl

/-- Every lexeme stands inside the text that is read. -/
theorem offset_of_mem_lexFrom {mode : Mode} {offset : Nat} {text : Chars} {l : Lexeme}
    (h : l ∈ lexFrom mode offset text) : offset ≤ l.offset ∧ l.offset < offset + text.length := by
  induction text generalizing mode offset with
  | nil => simp [lexFrom] at h
  | cons c rest ih =>
    have step {m : Mode} (h : l ∈ lexFrom m (offset + 1) rest) :
        offset ≤ l.offset ∧ l.offset < offset + (c :: rest).length := by
      have := ih h
      simp only [List.length_cons]
      omega
    have here {d : Char} {q : Bool} {m : Mode}
        (h : l ∈ (⟨offset, d, q⟩ : Lexeme) :: lexFrom m (offset + 1) rest) :
        offset ≤ l.offset ∧ l.offset < offset + (c :: rest).length := by
      rcases List.mem_cons.1 h with rfl | h
      · simp
      · exact step h
    cases mode with
    | code =>
      simp only [lexFrom] at h
      split at h
      · exact here h
      · split at h
        · exact step h
        · split at h
          · exact here h
          · exact here h
    | string => exact here h
    | lineComment =>
      simp only [lexFrom] at h
      split at h
      · exact here h
      · exact step h
    | blockStart => exact step h
    | blockComment previous => exact step h

/-- A statement ends no earlier than it goes on. -/
theorem le_statementEnd {text : Chars} {start : Nat} (h : start ≤ text.length) :
    start ≤ statementEnd text start := by
  unfold statementEnd semicolon?
  cases (code (text.drop start)).find? (·.char = ';') with
  | none => simpa using h
  | some l => simp; omega

end ArchGraph.Sql
