import ArchGraph.Toml.Document
import ArchGraph.Toml.Scalar
/-!
# Reading TOML text

Keys, values and statements of a document. The descent is bounded by a fuel that the length of the
text always covers, because every step consumes a character, and by the depth up to which arrays
and inline tables may be nested. Which texts are documents follows the grammar of TOML; what the
reader says about a text that is none is left out.
-/

namespace ArchGraph.Toml

open Text (Chars)

/-- The depth that nested arrays and tables, and the parts of a key, stay below. -/
def depthLimit : Nat := 80

/-- The text behind blanks, ends of lines and comments. -/
def skipLines (comment : Bool) : Chars → Chars
  | [] => []
  | c :: rest =>
    if c = '\n' ∨ (c = '\r' ∧ rest.head? = some '\n') then skipLines false rest
    else if comment && isPlain c then skipLines true rest
    else if !comment && isSpace c then skipLines false rest
    else if !comment && c = '#' then skipLines true rest
    else c :: rest

/-- The text of the next line, if nothing but a comment is left on this one. -/
def nextLine? (text : Chars) : Option Chars :=
  let rest := match skipSpace text with
    | '#' :: comment => comment.dropWhile isPlain
    | rest => rest
  if rest.isEmpty then some [] else dropNewline? rest

/-! ## Keys -/

/-- A character of a bare key. -/
def isBareKey (c : Char) : Bool := c.isAlphanum || c = '_' || c = '-'

/-- Reads one part of a key. -/
def keyPart? : Chars → Option (String × Chars)
  | '"' :: rest => basicString [] rest
  | '\'' :: rest => literalString [] rest
  | text =>
    let name := text.takeWhile isBareKey
    if name.isEmpty then none else some (String.ofList name, text.dropWhile isBareKey)

/-- Reads the parts of a key with the blanks around them. -/
def key? : Nat → Chars → Option (List String × Chars)
  | 0, _ => none
  | fuel + 1, text => do
    let (name, rest) ← keyPart? (skipSpace text)
    match skipSpace rest with
    | '.' :: rest =>
      let (names, rest) ← key? fuel rest
      return (name :: names, rest)
    | rest => return ([name], rest)

/-! ## Values -/

mutual

/-- Reads a value that is nested `depth` deep. -/
def value? : Nat → Nat → Chars → Option (Toml × Chars)
  | 0, _, _ => none
  | fuel + 1, depth, text =>
    match text with
    | '"' :: _ | '\'' :: _ => (string? text).map fun (s, rest) => (str s, rest)
    | '[' :: rest =>
      if depth + 1 < depthLimit then
        (items? fuel (depth + 1) rest).map fun (items, rest) => (arr items, rest)
      else none
    | '{' :: rest =>
      if depth + 1 < depthLimit then
        match skipSpace rest with
        | '}' :: rest => some (table [], rest)
        | _ => (pairs? fuel (depth + 1) [] rest).map fun (entries, rest) =>
          (table (entriesToToml entries), rest)
      else none
    | 't' :: 'r' :: 'u' :: 'e' :: rest => some (bool true, rest)
    | 'f' :: 'a' :: 'l' :: 's' :: 'e' :: rest => some (bool false, rest)
    | _ => number? text

/-- Reads the items of an array up to its closing bracket. -/
def items? : Nat → Nat → Chars → Option (List Toml × Chars)
  | 0, _, _ => none
  | fuel + 1, depth, text =>
    match skipLines false text with
    | ']' :: rest => some ([], rest)
    | text =>
      match value? fuel depth text with
      | none => none
      | some (item, rest) =>
        match skipLines false rest with
        | ',' :: rest => (items? fuel depth rest).map fun (items, rest) => (item :: items, rest)
        | ']' :: rest => some ([item], rest)
        | _ => none

/-- Reads the assignments of an inline table up to its closing brace. -/
def pairs? : Nat → Nat → Entries → Chars → Option (Entries × Chars)
  | 0, _, _, _ => none
  | fuel + 1, depth, entries, text =>
    match key? fuel text with
    | some (names, '=' :: rest) =>
      match value? fuel depth (skipSpace rest) with
      | none => none
      | some (v, rest) =>
        if depthLimit ≤ names.length then none
        else
          match entries.assign (names.getLastD "") v true names.dropLast with
          | none => none
          | some entries =>
            match skipSpace rest with
            | ',' :: rest => pairs? fuel depth entries rest
            | '}' :: rest => some (entries, rest)
            | _ => none
    | _ => none

end

/-! ## Documents -/

/-- An unfinished document: its entries and the table that was opened last. -/
structure Draft where
  entries : Entries
  current : List String

/-- Reads a header behind its opening brackets. -/
def header? (fuel : Nat) (array : Bool) (d : Draft) (text : Chars) : Option (Draft × Chars) := do
  let (path, rest) ← key? fuel text
  let rest ← expect? ']' rest
  let rest ← if array then expect? ']' rest else some rest
  let rest ← nextLine? rest
  if depthLimit ≤ path.length then none
  else
    let entries ← if array then d.entries.openItem path else d.entries.openTable path
    return (⟨entries, path⟩, rest)

/-- Reads an assignment. -/
def assignment? (fuel : Nat) (d : Draft) (text : Chars) : Option (Draft × Chars) := do
  let (names, rest) ← key? fuel text
  let rest ← expect? '=' rest
  let (v, rest) ← value? fuel 0 (skipSpace rest)
  let rest ← nextLine? rest
  if depthLimit ≤ names.length then none
  else
    let entries ← d.entries.within
      (fun table => table.assign (names.getLastD "") v true names.dropLast) d.current
    return ({ d with entries }, rest)

/-- Reads statements up to the end of the text. -/
def statements? : Nat → Draft → Chars → Option Draft
  | 0, _, _ => none
  | fuel + 1, d, text =>
    match skipSpace text with
    | [] => some d
    | '[' :: '[' :: rest => (header? fuel true d rest).bind fun (d, rest) => statements? fuel d rest
    | '[' :: rest => (header? fuel false d rest).bind fun (d, rest) => statements? fuel d rest
    | text =>
      match nextLine? text with
      | some rest => statements? fuel d rest
      | none => (assignment? fuel d text).bind fun (d, rest) => statements? fuel d rest

/-- Reads a whole document. A byte order mark in front of it is passed over. -/
def ofText? (text : String) : Option Toml :=
  let chars := match text.toList with
    | '\uFEFF' :: rest => rest
    | chars => chars
  (statements? (2 * chars.length + 4) ⟨[], []⟩ chars).map fun d => .table (entriesToToml d.entries)

end ArchGraph.Toml
