import ArchGraph.Text.Digit
/-!
# Scalars of YAML

Quoted, plain and block scalars. White space inside a scalar is kept within a line; between lines,
one line break is folded into a blank and of more than one all but the first are kept. Line ends
are taken to be line feeds, except for the separators of lines and paragraphs, which stay what they
are.
-/

namespace ArchGraph.Yaml

open Text (Chars hexDigit? charOfCode?)

/-- A character that ends a line. -/
def isBreak (c : Char) : Bool := c = '\n' || c = '\u2028' || c = '\u2029'

/-- Blanks and tabs. -/
def isSpace (c : Char) : Bool := c = ' ' || c = '\t'

/-- Whether a text starts with white space or is at its end. -/
def spaceAhead : Chars → Bool
  | [] => true
  | c :: _ => isSpace c || isBreak c

/-- Whether a text starts with a mark between documents. -/
def documentMark : Chars → Bool
  | '-' :: '-' :: '-' :: rest => spaceAhead rest
  | '.' :: '.' :: '.' :: rest => spaceAhead rest
  | _ => false

/-- White space that has been passed inside a scalar. -/
inductive Gap where
  /-- Blanks within a line, the last one first. -/
  | blanks (seen : Chars)
  /-- Line breaks: the first one, unless it was escaped, and the others, the last one first. -/
  | breaks (first : Option Char) (others : Chars)

namespace Gap

/-- No white space. -/
def none : Gap := blanks []

/-- Whether there was any white space. -/
def isSome : Gap → Bool
  | blanks seen => !seen.isEmpty
  | breaks _ _ => true

/-- Whether a line was broken. -/
def isBroken : Gap → Bool
  | blanks _ => false
  | breaks _ _ => true

/-- The white space with one more character. Blanks around line breaks are dropped. -/
def push (c : Char) : Gap → Gap
  | blanks seen => if isBreak c then breaks (some c) [] else blanks (c :: seen)
  | breaks first others => if isBreak c then breaks first (c :: others) else breaks first others

/-- What is left of the white space inside the scalar, last character first. -/
def folded : Gap → Chars
  | blanks seen => seen
  | breaks (some '\n') [] => [' ']
  | breaks (some '\n') others => others
  | breaks first others => others ++ first.toList

end Gap

/-! ## Quoted scalars -/

/-- The character of a one-letter escape. -/
def simpleEscape? : Char → Option Char
  | '0' => some '\x00'
  | 'a' => some '\x07'
  | 'b' => some '\x08'
  | 't' => some '\t'
  | '\t' => some '\t'
  | 'n' => some '\n'
  | 'v' => some '\x0b'
  | 'f' => some '\x0c'
  | 'r' => some '\r'
  | 'e' => some '\x1b'
  | ' ' => some ' '
  | '"' => some '"'
  | '/' => some '/'
  | '\\' => some '\\'
  | 'N' => some '\u0085'
  | '_' => some '\u00a0'
  | 'L' => some '\u2028'
  | 'P' => some '\u2029'
  | _ => none

/-- The character with the code that hexadecimal digits spell. -/
def hexChar? (digits : Chars) : Option Char := do
  charOfCode? ((← digits.mapM hexDigit?).foldl (fun n d => 16 * n + d) 0)

/-- Reads a scalar in single quotes behind its opening quote. `read` is what was read so far, last
character first, `gap` the white space behind it; no line may start with a mark between
documents. -/
def singleQuoted (read : Chars) (gap : Gap) (lineStart : Bool) : Chars → Option (String × Chars)
  | [] => none
  | '\'' :: '\'' :: rest => singleQuoted ('\'' :: (gap.folded ++ read)) .none false rest
  | '\'' :: rest => some (String.ofList (gap.folded ++ read).reverse, rest)
  | c :: rest =>
    if isSpace c || isBreak c then singleQuoted read (gap.push c) (isBreak c) rest
    else if lineStart && documentMark (c :: rest) then none
    else singleQuoted (c :: (gap.folded ++ read)) .none false rest

/-- Reads a scalar in double quotes behind its opening quote. -/
def doubleQuoted (read : Chars) (gap : Gap) (lineStart : Bool) : Chars → Option (String × Chars)
  | [] => none
  | '"' :: rest => some (String.ofList (gap.folded ++ read).reverse, rest)
  | '\\' :: 'x' :: a :: b :: rest =>
    match hexChar? [a, b] with
    | some char => doubleQuoted (char :: (gap.folded ++ read)) .none false rest
    | none => none
  | '\\' :: 'u' :: a :: b :: c :: d :: rest =>
    match hexChar? [a, b, c, d] with
    | some char => doubleQuoted (char :: (gap.folded ++ read)) .none false rest
    | none => none
  | '\\' :: 'U' :: a :: b :: c :: d :: e :: f :: g :: h :: rest =>
    match hexChar? [a, b, c, d, e, f, g, h] with
    | some char => doubleQuoted (char :: (gap.folded ++ read)) .none false rest
    | none => none
  | '\\' :: c :: rest =>
    if isBreak c then doubleQuoted (gap.folded ++ read) (.breaks none []) true rest
    else match simpleEscape? c with
      | some char => doubleQuoted (char :: (gap.folded ++ read)) .none false rest
      | none => none
  | c :: rest =>
    if isSpace c || isBreak c then doubleQuoted read (gap.push c) (isBreak c) rest
    else if lineStart && documentMark (c :: rest) then none
    else doubleQuoted (c :: (gap.folded ++ read)) .none false rest

/-! ## Plain scalars -/

/-- A character that separates or encloses the items of a flow collection. -/
def isFlowMark (c : Char) : Bool := ",[]\x7b\x7d".toList.contains c

/-- Whether a plain scalar that is read in a flow collection or not ends in front of a text. -/
def endsPlain (flow : Bool) : Chars → Bool
  | [] => true
  | c :: rest => (c = ':' && spaceAhead rest) || (flow && isFlowMark c)

/-- Reads a plain scalar whose further lines are indented by at least `indent`; `column` is where
the text starts. Returns the scalar, whether a line was broken behind it, and the rest. -/
def plain (flow : Bool) (indent : Int) (read : Chars) (gap : Gap) (column : Nat) :
    Chars → Option (String × Bool × Chars)
  | [] => some (String.ofList read.reverse, gap.isBroken, [])
  | c :: rest =>
    if isBreak c then plain flow indent read (gap.push c) 0 rest
    else if isSpace c then
      if gap.isBroken && c = '\t' && column < indent then none
      else plain flow indent read (gap.push c) (column + 1) rest
    else if gap.isBroken &&
          ((!flow && column < indent) || (column = 0 && documentMark (c :: rest))) ||
        gap.isSome && c = '#' || endsPlain flow (c :: rest) then
      some (String.ofList read.reverse, gap.isBroken, c :: rest)
    else if flow && c = ':' && rest.head?.any (fun d => d = '?' || isFlowMark d) then none
    else plain flow indent (c :: (gap.folded ++ read)) .none (column + 1) rest

/-! ## Block scalars -/

/-- What becomes of the line breaks at the end of a block scalar. -/
inductive Chomping where
  | strip
  | clip
  | keep
deriving DecidableEq, Repr

/-- The way the last lines end that a sign asks for. -/
def Chomping.ofSign? : Char → Option Chomping
  | '+' => some .keep
  | '-' => some .strip
  | _ => none

/-- Reads what stands behind the opening character of a block scalar: a sign and a digit in either
order. The digit says how far the lines are indented. -/
def blockHeader? : Chars → Option (Chomping × Nat × Chars)
  | c :: rest =>
    match Chomping.ofSign? c with
    | some chomping =>
      match rest with
      | d :: more =>
        if d.isDigit then if d = '0' then none else some (chomping, d.toNat - '0'.toNat, more)
        else some (chomping, 0, rest)
      | [] => some (chomping, 0, [])
    | none =>
      if c.isDigit then
        if c = '0' then none
        else match rest.head?.bind Chomping.ofSign? with
          | some chomping => some (chomping, c.toNat - '0'.toNat, rest.tail)
          | none => some (.clip, c.toNat - '0'.toNat, rest)
      else some (.clip, 0, c :: rest)
  | [] => some (.clip, 0, [])

/-- The empty lines in front of a line with content. -/
structure BlankLines where
  /-- The breaks of the empty lines, the last one first. -/
  breaks : Chars
  /-- The greatest indentation among the lines. -/
  widest : Nat
  /-- The indentation of the line with content. -/
  column : Nat
  /-- The text behind that indentation. -/
  rest   : Chars

/-- Passes over empty lines and the indentation of the line behind them. Indentation reaches up to
`indent`, or as far as there are blanks if `indent` is 0, and must not hold tabs. -/
def blankLines (indent : Nat) (breaks : Chars) (widest column : Nat) : Chars → Option BlankLines
  | [] => some ⟨breaks, max widest column, column, []⟩
  | c :: rest =>
    if c = ' ' && (indent = 0 || column < indent) then
      blankLines indent breaks widest (column + 1) rest
    else if c = '\t' && (indent = 0 || column < indent) then none
    else if isBreak c then blankLines indent (c :: breaks) (max widest column) 0 rest
    else some ⟨breaks, max widest column, column, c :: rest⟩

/-- What of a block scalar has been read: its characters and the breaks behind them, each the last
one first, and whether its last line started with white space. -/
structure BlockDraft where
  read    : Chars
  last    : Option Char
  breaks  : Chars
  spaced  : Bool

/-- The draft with one more line. -/
def BlockDraft.addLine (literal : Bool) (d : BlockDraft) (line : Chars) (last : Option Char)
    (breaks : Chars) : BlockDraft :=
  let spaced := line.head?.any isSpace
  let joint : Chars :=
    if !literal && d.last = some '\n' && !d.spaced && !spaced then
      if d.breaks.isEmpty then [' '] else d.breaks
    else d.breaks ++ d.last.toList
  ⟨line.reverse ++ (joint ++ d.read), last, breaks, spaced⟩

/-- Reads the lines of a block scalar that are indented by `indent`. -/
def blockLines (literal : Bool) (indent : Nat) : Nat → BlockDraft → Nat → Chars →
    Option (BlockDraft × Chars)
  | 0, d, _, text => some (d, text)
  | fuel + 1, d, column, text =>
    if column ≠ indent || text.isEmpty then some (d, text)
    else
      let line := text.takeWhile (!isBreak ·)
      let rest := text.dropWhile (!isBreak ·)
      match blankLines indent [] 0 0 rest.tail with
      | none => none
      | some blank =>
        blockLines literal indent fuel (d.addLine literal line rest.head? blank.breaks)
          blank.column blank.rest

/-- Reads a block scalar behind its opening character. `parent` is the indentation around it. -/
def block (literal : Bool) (parent : Int) (text : Chars) : Option (String × Chars) := do
  let (chomping, increment, rest) ← blockHeader? text
  let rest := rest.dropWhile isSpace
  let rest := if rest.head? = some '#' then rest.dropWhile (!isBreak ·) else rest
  if !rest.isEmpty && !rest.head?.any isBreak then none
  else
    let given := if increment = 0 then 0 else (max parent 0).toNat + increment
    let blank ← blankLines given [] 0 0 rest.tail
    let indent := if given = 0 then max (max blank.widest (parent + 1).toNat) 1 else given
    let (d, rest) ← blockLines literal indent (text.length + 1) ⟨[], none, blank.breaks, false⟩
      blank.column blank.rest
    let tail : Chars := match chomping with
      | .strip => []
      | .clip => d.last.toList
      | .keep => d.breaks ++ d.last.toList
    return (String.ofList (tail ++ d.read).reverse, rest)

end ArchGraph.Yaml
