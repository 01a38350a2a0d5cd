import ArchGraph.Json.Basic
import ArchGraph.Text.Digit
/-!
# Reading JSON text

A recursive descent over the characters of a document. Each function takes the text from its first
character on and returns what it read together with the rest. The descent is bounded by a fuel that
the length of the document always covers, because every second step consumes a character. Which
texts are documents follows the grammar of JSON and the bounds that the reader documents: up to 127
containers inside each other, and numbers within the range of doubles; what the reader says about a
text that is none is left out.
-/

namespace ArchGraph.Json.Parser

open Text (Chars hexDigit? numeral)

/-- Blanks, tabs, carriage returns and line feeds. -/
def isSpace (c : Char) : Bool :=
  c = ' ' || c = '\t' || c = '\n' || c = '\r'

/-- The text behind white space. -/
def skipSpace (text : Chars) : Chars :=
  text.dropWhile isSpace

/-- The number that four hexadecimal digits spell. -/
def hex4? (a b c d : Char) : Option Nat := do
  return ((← hexDigit? a) * 16 + (← hexDigit? b)) * 256 + (← hexDigit? c) * 16 + (← hexDigit? d)

/-- What has been read of a string: its characters in reverse, the first half of a surrogate pair
if one was just escaped, and whether some half stood alone. -/
structure Draft where
  chars  : Chars
  high   : Option Nat
  broken : Bool

/-- Appends a character. -/
def Draft.push (d : Draft) (c : Char) : Draft :=
  ⟨c :: d.chars, none, d.broken || d.high.isSome⟩

/-- Appends an escaped code unit. -/
def Draft.pushUnit (d : Draft) (unit : Nat) : Draft :=
  if 0xD800 ≤ unit ∧ unit ≤ 0xDBFF then ⟨d.chars, some unit, d.broken || d.high.isSome⟩
  else if 0xDC00 ≤ unit ∧ unit ≤ 0xDFFF then
    match d.high with
    | some high =>
      ⟨Char.ofNat (0x10000 + (high - 0xD800) * 0x400 + (unit - 0xDC00)) :: d.chars, none, d.broken⟩
    | none => ⟨d.chars, none, true⟩
  else d.push (Char.ofNat unit)

/-- The finished string, unless some half of a surrogate pair stood alone. -/
def Draft.finish (d : Draft) : Option String :=
  if d.broken || d.high.isSome then none else some (String.ofList d.chars.reverse)

/-- The character of a one-letter escape. -/
def simpleEscape? : Char → Option Char
  | '"' => some '"'
  | '\\' => some '\\'
  | '/' => some '/'
  | 'b' => some '\x08'
  | 'f' => some '\x0c'
  | 'n' => some '\n'
  | 'r' => some '\r'
  | 't' => some '\t'
  | _ => none

/-- Reads a string behind its opening quote. The inner option is empty for a string without
characters of its own. -/
def string (d : Draft) : Chars → Option (Option String × Chars)
  | [] => none
  | '"' :: rest => some (d.finish, rest)
  | '\\' :: 'u' :: a :: b :: c :: e :: rest =>
    match hex4? a b c e with
    | some unit => string (d.pushUnit unit) rest
    | none => none
  | '\\' :: c :: rest =>
    match simpleEscape? c with
    | some char => string (d.push char) rest
    | none => none
  | c :: rest => if c.toNat < 0x20 then none else string (d.push c) rest

/-- Reads an exponent, if one stands at the start of the text. -/
def exponent (text : Chars) : Option (Int × Chars) :=
  match text with
  | c :: rest =>
    if c = 'e' ∨ c = 'E' then
      let (negative, rest) := match rest with
        | '-' :: more => (true, more)
        | '+' :: more => (false, more)
        | _ => (false, rest)
      let ds := rest.takeWhile Char.isDigit
      if ds.isEmpty then none
      else
        let n : Int := numeral 10 ds
        some (if negative then -n else n, rest.dropWhile Char.isDigit)
    else some (0, text)
  | [] => some (0, [])

/-- Reads a number. Without fraction and exponent it is an integer, except for a negative
zero. -/
def number (text : Chars) : Option (Json × Chars) :=
  let (negative, text) := match text with
    | '-' :: rest => (true, rest)
    | _ => (false, text)
  let whole := text.takeWhile Char.isDigit
  let rest := text.dropWhile Char.isDigit
  let sign (n : Nat) : Int := if negative then -n else n
  if whole.isEmpty ∨ (whole.head? = some '0' ∧ whole.length ≠ 1) then none
  else match rest with
    | '.' :: more =>
      let fraction := more.takeWhile Char.isDigit
      if fraction.isEmpty then none
      else (exponent (more.dropWhile Char.isDigit)).map fun (e, rest) =>
        (real ⟨sign (numeral 10 (whole ++ fraction)), e - fraction.length⟩, rest)
    | c :: _ =>
      if c = 'e' ∨ c = 'E' then (exponent rest).map fun (e, rest) =>
        (real ⟨sign (numeral 10 whole), e⟩, rest)
      else some (integer negative whole, rest)
    | [] => some (integer negative whole, rest)
where
  /-- A number without fraction and exponent. -/
  integer (negative : Bool) (ds : Chars) : Json :=
    let n := numeral 10 ds
    if negative then if n = 0 then real ⟨0, 0⟩ else int (-n) else int n

/-- An object of members whose keys may be broken. -/
def object (members : List (Option String × Json)) : Json :=
  match members.mapM fun (key, value) => key.map (·, value) with
  | some members => obj members
  | none => broken

mutual

/-- Reads a value behind white space. -/
def value : Nat → Chars → Option (Json × Chars)
  | 0, _ => none
  | fuel + 1, text =>
    match skipSpace text with
    | '{' :: rest =>
      match skipSpace rest with
      | '}' :: rest => some (obj [], rest)
      | rest => (members fuel rest).map fun (ms, rest) => (object ms, rest)
    | '[' :: rest =>
      match skipSpace rest with
      | ']' :: rest => some (arr [], rest)
      | rest => (items fuel rest).map fun (js, rest) => (arr js, rest)
    | '"' :: rest =>
      (string ⟨[], none, false⟩ rest).map fun (s, rest) => ((s.map str).getD broken, rest)
    | 't' :: 'r' :: 'u' :: 'e' :: rest => some (bool true, rest)
    | 'f' :: 'a' :: 'l' :: 's' :: 'e' :: rest => some (bool false, rest)
    | 'n' :: 'u' :: 'l' :: 'l' :: rest => some (null, rest)
    | text => number text

/-- Reads the items of an array up to its closing bracket. -/
def items : Nat → Chars → Option (List Json × Chars)
  | 0, _ => none
  | fuel + 1, text =>
    match value fuel text with
    | none => none
    | some (j, rest) =>
      match skipSpace rest with
      | ',' :: rest => (items fuel rest).map fun (js, rest) => (j :: js, rest)
      | ']' :: rest => some ([j], rest)
      | _ => none

/-- Reads the members of an object up to its closing brace. -/
def members : Nat → Chars → Option (List (Option String × Json) × Chars)
  | 0, _ => none
  | fuel + 1, text =>
    match skipSpace text with
    | '"' :: rest =>
      match string ⟨[], none, false⟩ rest with
      | none => none
      | some (key, rest) =>
        match skipSpace rest with
        | ':' :: rest =>
          match value fuel rest with
          | none => none
          | some (j, rest) =>
            match skipSpace rest with
            | ',' :: rest => (members fuel rest).map fun (ms, rest) => ((key, j) :: ms, rest)
            | '}' :: rest => some ([(key, j)], rest)
            | _ => none
        | _ => none
    | _ => none

end

end Parser

/-- Reads a whole document: one value with nothing but white space around it. -/
def ofText? (text : String) : Option Json :=
  let chars := text.toList
  match Parser.value (2 * chars.length + 2) chars with
  | some (j, rest) => if (Parser.skipSpace rest).isEmpty then some j else none
  | none => none

end ArchGraph.Json
