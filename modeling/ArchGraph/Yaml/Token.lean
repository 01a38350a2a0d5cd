import ArchGraph.Yaml.Scalar
/-!
# Tokens of YAML

The tokens of a document. Indentation becomes tokens that open and close block collections, and a
colon behind a node on one line makes that node a key. A node that can still become a key is
remembered for each level of flow collections. The tokens are those of YAML as the reader of
manifests documents them; what it says about a text that is no document is left out.
-/

namespace ArchGraph.Yaml

open Text (Chars)

/-- A token. -/
inductive Token where
  | directive
  /-- The declaration of a tag handle. -/
  | handle (name : String)
  | documentStart
  | documentEnd
  | blockSeq
  | blockMap
  | blockEnd
  | flowSeq
  | flowSeqEnd
  | flowMap
  | flowMapEnd
  | blockEntry
  | flowEntry
  | key
  | value
  | anchor (name : String)
  | alias (name : String)
  /-- A tag, by its handle. -/
  | tag (handle : String)
  | scalar (plain : Bool) (text : String)
deriving DecidableEq, Repr

/-- A node that can become a key. -/
structure KeyMark where
  /-- Whether nothing but a key can stand there. -/
  required : Bool
  /-- The number of tokens in front of the node. -/
  position : Nat
  line     : Nat
  column   : Nat
  offset   : Nat
deriving DecidableEq, Repr

/-- What has been read of a document. -/
structure Lexer where
  rest       : Chars
  line       : Nat
  column     : Nat
  offset     : Nat
  /-- The indentation of the innermost block collection, -1 outside of all. -/
  indent     : Int
  /-- The indentations around it, the innermost first. -/
  outer      : List Int
  /-- The number of open flow collections. -/
  flow       : Nat
  /-- Whether a key may start here. -/
  keyAllowed : Bool
  /-- What can become a key, for the innermost flow collection first. -/
  keys       : List (Option KeyMark)
  /-- The tokens, the last one first. -/
  tokens     : List Token

namespace Lexer

/-- The start of a document. -/
def start (text : Chars) : Lexer :=
  ⟨text, 0, 0, 0, -1, [], 0, true, [none], []⟩

/-- Passes over one character. -/
def step (s : Lexer) (c : Char) : Lexer :=
  if isBreak c then { s with line := s.line + 1, column := 0, offset := s.offset + 1 }
  else { s with column := s.column + 1, offset := s.offset + 1 }

/-- Passes over the text in front of `rest`. -/
def moveTo (s : Lexer) (rest : Chars) : Lexer :=
  { (s.rest.take (s.rest.length - rest.length)).foldl step s with rest }

/-- Passes over `count` characters. -/
def skip (s : Lexer) (count : Nat) : Lexer := s.moveTo (s.rest.drop count)

/-- Adds a token. -/
def push (s : Lexer) (t : Token) : Lexer := { s with tokens := t :: s.tokens }

/-- Adds a token behind the first `position` ones. -/
def insert (s : Lexer) (position : Nat) (t : Token) : Lexer :=
  let later := s.tokens.length - position
  { s with tokens := s.tokens.take later ++ t :: s.tokens.drop later }

/-! ## Keys -/

/-- Gives up what can become a key on this level, unless it has to. -/
def dropKey? (s : Lexer) : Option Lexer :=
  match s.keys with
  | some mark :: outer => if mark.required then none else some { s with keys := none :: outer }
  | _ => some s

/-- Remembers the place as one where a key can start. -/
def markKey? (s : Lexer) : Option Lexer :=
  if !s.keyAllowed then some s
  else do
    let s ← s.dropKey?
    let mark : KeyMark :=
      ⟨s.flow = 0 && s.indent = s.column, s.tokens.length, s.line, s.column, s.offset⟩
    return { s with keys := some mark :: s.keys.tail }

/-- The greatest length of a key on one line. -/
def keyLengthLimit : Nat := 1024

/-- Whether a node cannot become a key any more, because the line or the length of a key is
exceeded. -/
def isStale (s : Lexer) (mark : KeyMark) : Bool :=
  mark.line < s.line || mark.offset + keyLengthLimit < s.offset

/-- Gives up what cannot become a key any more. -/
def dropStaleKeys? (s : Lexer) : Option Lexer := do
  let keys ← s.keys.mapM fun
    | some mark =>
      if s.isStale mark then if mark.required then none else some none else some (some mark)
    | none => some none
  return { s with keys }

/-! ## Indentation -/

/-- Opens a block collection at a column, unless one is open there. Its token goes behind the
first `position` ones. -/
def openBlock (s : Lexer) (column : Nat) (position : Nat) (t : Token) : Lexer :=
  if s.flow = 0 && s.indent < column then
    { s with indent := column, outer := s.indent :: s.outer }.insert position t
  else s

/-- Closes the block collections that are indented farther than a column. -/
def closeBlocks (column : Int) (s : Lexer) : Lexer :=
  if s.flow ≠ 0 then s
  else
    let rec close (indent : Int) (tokens : List Token) : List Int → Int × List Int × List Token
      | [] => (indent, [], tokens)
      | above :: outer =>
        if column < indent then close above (.blockEnd :: tokens) outer
        else (indent, above :: outer, tokens)
    let (indent, outer, tokens) := close s.indent s.tokens s.outer
    { s with indent, outer, tokens }

/-! ## Reading tokens -/

/-- Passes over white space and comments. Behind a line break outside of flow collections a key
may start. -/
def skipSpace (flow keyAllowed comment : Bool) : Chars → Bool × Chars
  | [] => (keyAllowed, [])
  | c :: rest =>
    if isBreak c then skipSpace flow (keyAllowed || !flow) false rest
    else if comment then skipSpace flow keyAllowed true rest
    else if c = ' ' || (c = '\t' && (flow || !keyAllowed)) then skipSpace flow keyAllowed false rest
    else if c = '#' then skipSpace flow keyAllowed true rest
    else (keyAllowed, c :: rest)

/-- A character of a name of an anchor or a tag handle. -/
def isNameChar (c : Char) : Bool := c.isAlphanum || c = '_' || c = '-'

/-- A character of a tag. -/
def isTagChar (c : Char) : Bool := isNameChar c || ";/?:@&=+$.!~*'()%".toList.contains c

/-- Reads a mark between documents or a directive, which closes everything. -/
def outermost? (s : Lexer) : Option Lexer := do
  let s ← (s.closeBlocks (-1)).dropKey?
  return { s with keyAllowed := false }

/-- Passes over a version of this language. -/
def version? (text : Chars) : Option Chars :=
  let rest := text.dropWhile isSpace
  match rest with
  | '1' :: '.' :: c :: rest =>
    if (c = '1' || c = '2') && !rest.head?.any Char.isDigit then some rest else none
  | _ => none

/-- The handle that a tag directive declares, and the text behind the directive. -/
def tagDirective? (text : Chars) : Option (String × Chars) :=
  match text.dropWhile isSpace with
  | '!' :: rest =>
    let name := rest.takeWhile isNameChar
    let behind := match rest.dropWhile isNameChar with
      | '!' :: behind => some behind
      | behind => if name.isEmpty then some behind else none
    behind.bind fun behind =>
      let uri := behind.dropWhile isSpace
      if behind.head?.any isSpace && uri.head?.any isTagChar then
        let after := uri.dropWhile fun c => isTagChar c || c = ',' || c = '[' || c = ']'
        if spaceAhead after then some (String.ofList name, after) else none
      else none
  | _ => none

/-- Reads a directive behind its percent sign: the version, or the declaration of a handle. -/
def directive? (text : Chars) : Option (Token × Chars) := do
  let name := text.takeWhile isNameChar
  let rest := text.dropWhile isNameChar
  let (token, rest) ←
    if name = "YAML".toList then (version? rest).map fun rest => (Token.directive, rest)
    else if name = "TAG".toList then
      (tagDirective? rest).map fun (handle, rest) => (Token.handle handle, rest)
    else none
  let rest := rest.dropWhile isSpace
  let rest := if rest.head? = some '#' then rest.dropWhile (!isBreak ·) else rest
  if rest.isEmpty || rest.head?.any isBreak then return (token, rest.tail) else none

/-- Reads the name of an anchor or an alias. -/
def nodeName? (text : Chars) : Option (String × Chars) :=
  let name := text.takeWhile isNameChar
  let rest := text.dropWhile isNameChar
  if !name.isEmpty &&
      (spaceAhead rest || rest.head?.any fun c => "?:,]\x7d%@\x60".toList.contains c) then
    some (String.ofList name, rest)
  else none

/-- Reads a tag behind its exclamation mark: its handle and the text behind it. -/
def tag? (flow : Bool) (text : Chars) : Option (String × Chars) :=
  let finish (handle : String) (rest : Chars) : Option (String × Chars) :=
    if spaceAhead rest || (flow && rest.head? = some ',') then some (handle, rest) else none
  match text with
  | '<' :: rest =>
    let uri := rest.takeWhile fun c => isTagChar c || c = ',' || c = '[' || c = ']'
    match rest.drop uri.length with
    | '>' :: rest => if uri.isEmpty then none else finish "" rest
    | _ => none
  | _ =>
    let name := text.takeWhile isNameChar
    match text.dropWhile isNameChar with
    | '!' :: rest =>
      if rest.head?.any isTagChar then finish (String.ofList name) (rest.dropWhile isTagChar)
      else none
    | _ => finish "" (text.dropWhile isTagChar)

/-- Adds the token of an indicator of `count` characters. -/
def indicator (s : Lexer) (t : Token) (count : Nat) (keyAllowed : Bool) : Lexer :=
  { (s.skip count).push t with keyAllowed }

/-- Opens a flow collection. -/
def openFlow? (s : Lexer) (t : Token) : Option Lexer := do
  let s ← s.markKey?
  return { s with keys := none :: s.keys, flow := s.flow + 1 }.indicator t 1 true

/-- Closes a flow collection. -/
def closeFlow? (s : Lexer) (t : Token) : Option Lexer := do
  let s ← s.dropKey?
  let s := if s.flow = 0 then s else { s with keys := s.keys.tail, flow := s.flow - 1 }
  return s.indicator t 1 false

/-- Reads the dash of a block sequence. -/
def blockEntry? (s : Lexer) : Option Lexer := do
  if s.flow = 0 && !s.keyAllowed then none
  let s ← (s.openBlock s.column s.tokens.length .blockSeq).dropKey?
  return s.indicator .blockEntry 1 true

/-- Reads the mark of an explicit key. -/
def explicitKey? (s : Lexer) : Option Lexer := do
  if s.flow = 0 && !s.keyAllowed then none
  let s ← (s.openBlock s.column s.tokens.length .blockMap).dropKey?
  return s.indicator .key 1 (s.flow = 0)

/-- Reads the colon of a value. It makes a key of the node in front of it, if that can be one. -/
def valueMark? (s : Lexer) : Option Lexer :=
  match s.keys with
  | some mark :: outer =>
    let s := ({ s with keys := none :: outer }.insert mark.position .key).openBlock mark.column
      mark.position .blockMap
    some (s.indicator .value 1 false)
  | _ =>
    if s.flow = 0 && !s.keyAllowed then none
    else some ((s.openBlock s.column s.tokens.length .blockMap).indicator .value 1 (s.flow = 0))

/-- Reads a node that can be a key. -/
def node? (s : Lexer) (read : Chars → Option (Token × Chars)) : Option Lexer := do
  let s ← s.markKey?
  let (token, rest) ← read (s.rest.drop 1)
  return { (s.moveTo rest).push token with keyAllowed := false }

/-- Reads a plain scalar. Behind a line break a key may start. -/
def plain? (s : Lexer) : Option Lexer := do
  let s ← s.markKey?
  let (text, broken, rest) ← plain (s.flow ≠ 0) (s.indent + 1) [] .none s.column s.rest
  return { (s.moveTo rest).push (.scalar true text) with keyAllowed := broken }

/-- Reads a block scalar. -/
def block? (s : Lexer) (literal : Bool) : Option Lexer := do
  let s ← s.dropKey?
  let (text, rest) ← block literal s.indent (s.rest.drop 1)
  return { (s.moveTo rest).push (.scalar false text) with keyAllowed := true }

/-- Characters that open something else than a plain scalar. -/
def indicators : Chars := "-?:,[]\x7b\x7d#&*!|>'\"%@\x60".toList

/-- Whether a plain scalar starts with a character in front of a text. -/
def startsPlain (flow : Bool) (c : Char) (rest : Chars) : Bool :=
  !(indicators.contains c || isSpace c || isBreak c) || (c = '-' && !rest.head?.any isSpace) ||
    (!flow && (c = '?' || c = ':') && !spaceAhead rest)

/-- Reads the token that starts with a character. -/
def token? (s : Lexer) (c : Char) (rest : Chars) : Option Lexer :=
  let flow := s.flow ≠ 0
  if s.column = 0 && c = '%' then do
    let s ← s.outermost?
    let (token, behind) ← directive? rest
    return (s.moveTo behind).push token
  else if s.column = 0 && documentMark s.rest then
    s.outermost?.map fun s => s.indicator (if c = '-' then .documentStart else .documentEnd) 3 false
  else if c = '[' then s.openFlow? .flowSeq
  else if c = '{' then s.openFlow? .flowMap
  else if c = ']' then s.closeFlow? .flowSeqEnd
  else if c = '}' then s.closeFlow? .flowMapEnd
  else if c = ',' then s.dropKey?.map fun s => s.indicator .flowEntry 1 true
  else if c = '-' && spaceAhead rest then s.blockEntry?
  else if c = '?' && (flow || spaceAhead rest) then s.explicitKey?
  else if c = ':' && (flow || spaceAhead rest) then s.valueMark?
  else if c = '*' then
    s.node? fun text => (nodeName? text).map fun (name, rest) => (.alias name, rest)
  else if c = '&' then
    s.node? fun text => (nodeName? text).map fun (name, rest) => (.anchor name, rest)
  else if c = '!' then
    s.node? fun text => (tag? flow text).map fun (handle, rest) => (.tag handle, rest)
  else if (c = '|' || c = '>') && !flow then s.block? (c = '|')
  else if c = '\'' then
    s.node? fun text =>
      (singleQuoted [] .none false text).map fun (t, rest) => (.scalar false t, rest)
  else if c = '"' then
    s.node? fun text =>
      (doubleQuoted [] .none false text).map fun (t, rest) => (.scalar false t, rest)
  else if startsPlain flow c rest then s.plain?
  else none

/-- Reads tokens up to the end of the text. -/
def tokens? : Nat → Lexer → Option (List Token)
  | 0, _ => none
  | fuel + 1, s => do
    let (keyAllowed, rest) := skipSpace (s.flow ≠ 0) s.keyAllowed false s.rest
    let s ← { s.moveTo rest with keyAllowed }.dropStaleKeys?
    let s := s.closeBlocks s.column
    match s.rest with
    | [] =>
      let s ← (s.closeBlocks (-1)).dropKey?
      return s.tokens.reverse
    | c :: rest => tokens? fuel (← s.token? c rest)

end Lexer

/-- Whether a character may stand in a document at all. -/
def isAllowed (c : Char) : Bool :=
  let n := c.toNat
  n == 9 || n == 10 || n == 13 || n == 0x85 || (0x20 ≤ n && n ≤ 0x7E) || (0xA0 ≤ n && n ≤ 0xD7FF) ||
    (0xE000 ≤ n && n ≤ 0xFFFD && n != 0xFEFF) || 0x10000 ≤ n

/-- The text with every line end that is no separator as a line feed. -/
def unifyBreaks : Chars → Chars
  | [] => []
  | '\r' :: '\n' :: rest => '\n' :: unifyBreaks rest
  | c :: rest => (if c = '\r' || c = '\u0085' then '\n' else c) :: unifyBreaks rest

/-- The tokens of a text. A byte order mark in front of it is passed over. -/
def tokens? (text : String) : Option (List Token) :=
  let chars := match text.toList with
    | '\uFEFF' :: rest => rest
    | chars => chars
  if chars.all isAllowed then Lexer.tokens? (chars.length + 2) (.start (unifyBreaks chars))
  else none

end ArchGraph.Yaml
