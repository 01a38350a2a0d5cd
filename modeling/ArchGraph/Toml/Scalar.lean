import ArchGraph.Number.Decimal
import ArchGraph.Text.Digit
import ArchGraph.Toml.Basic
/-!
# Strings, numbers and points in time of TOML

Each function takes the text from the first character of what it reads and returns the value with
the rest of the text, or nothing if the text is ill formed. A character that cannot follow a value
stays in the rest, where it is refused.
-/

namespace ArchGraph.Toml

open Text (Chars hexDigit? isDigitOf numeral charOfCode?)

/-- Blanks and tabs. -/
def isSpace (c : Char) : Bool := c = ' ' || c = '\t'

/-- The text behind blanks and tabs. -/
def skipSpace (text : Chars) : Chars := text.dropWhile isSpace

/-- A character that may stand for itself in comments and strings: a tab or no control
character. -/
def isPlain (c : Char) : Bool := c = '\t' || !(c.toNat < 0x20 || c.toNat == 0x7F)

/-- The text behind the end of a line that stands at its start. -/
def dropNewline? : Chars → Option Chars
  | '\n' :: rest => some rest
  | '\r' :: '\n' :: rest => some rest
  | _ => none

/-! ## Strings -/

/-- The character of a one-letter escape. -/
def simpleEscape? : Char → Option Char
  | 'b' => some '\x08'
  | 't' => some '\t'
  | 'n' => some '\n'
  | 'f' => some '\x0c'
  | 'r' => some '\r'
  | '"' => some '"'
  | '\\' => some '\\'
  | _ => none

/-- The character with the code that hexadecimal digits spell. -/
def hexChar? (digits : Chars) : Option Char := do
  charOfCode? ((← digits.mapM hexDigit?).foldl (fun n d => 16 * n + d) 0)

/-- Reads a string in double quotes behind its opening quote; `read` is what was read so far, last
character first. -/
def basicString (read : Chars) : Chars → Option (String × Chars)
  | [] => none
  | '"' :: rest => some (String.ofList read.reverse, rest)
  | '\\' :: 'u' :: a :: b :: c :: d :: rest =>
    match hexChar? [a, b, c, d] with
    | some char => basicString (char :: read) rest
    | none => none
  | '\\' :: 'U' :: a :: b :: c :: d :: e :: f :: g :: h :: rest =>
    match hexChar? [a, b, c, d, e, f, g, h] with
    | some char => basicString (char :: read) rest
    | none => none
  | '\\' :: c :: rest =>
    match simpleEscape? c with
    | some char => basicString (char :: read) rest
    | none => none
  | c :: rest => if isPlain c then basicString (c :: read) rest else none

/-- Reads a string in three double quotes behind them. `skipping` is set behind an escaped end of
line, where white space is passed over. -/
def longBasicString (skipping : Bool) (read : Chars) : Chars → Option (String × Chars)
  | [] => none
  | '"' :: '"' :: '"' :: '"' :: '"' :: rest =>
    some (String.ofList ('"' :: '"' :: read).reverse, rest)
  | '"' :: '"' :: '"' :: '"' :: rest => some (String.ofList ('"' :: read).reverse, rest)
  | '"' :: '"' :: '"' :: rest => some (String.ofList read.reverse, rest)
  | '\\' :: 'u' :: a :: b :: c :: d :: rest =>
    match hexChar? [a, b, c, d] with
    | some char => longBasicString false (char :: read) rest
    | none => none
  | '\\' :: 'U' :: a :: b :: c :: d :: e :: f :: g :: h :: rest =>
    match hexChar? [a, b, c, d, e, f, g, h] with
    | some char => longBasicString false (char :: read) rest
    | none => none
  | '\\' :: c :: rest =>
    match simpleEscape? c with
    | some char => longBasicString false (char :: read) rest
    | none =>
      if (dropNewline? (skipSpace (c :: rest))).isSome then longBasicString true read (c :: rest)
      else none
  | '\r' :: '\n' :: rest => longBasicString skipping (if skipping then read else '\n' :: read) rest
  | c :: rest =>
    if skipping && (isSpace c || c = '\n') then longBasicString true read rest
    else if isPlain c || c = '\n' then longBasicString false (c :: read) rest
    else none

/-- Reads a string in single quotes behind its opening quote. -/
def literalString (read : Chars) : Chars → Option (String × Chars)
  | [] => none
  | '\'' :: rest => some (String.ofList read.reverse, rest)
  | c :: rest => if isPlain c then literalString (c :: read) rest else none

/-- Reads a string in three single quotes behind them. -/
def longLiteralString (read : Chars) : Chars → Option (String × Chars)
  | [] => none
  | '\'' :: '\'' :: '\'' :: '\'' :: '\'' :: rest =>
    some (String.ofList ('\'' :: '\'' :: read).reverse, rest)
  | '\'' :: '\'' :: '\'' :: '\'' :: rest => some (String.ofList ('\'' :: read).reverse, rest)
  | '\'' :: '\'' :: '\'' :: rest => some (String.ofList read.reverse, rest)
  | '\r' :: '\n' :: rest => longLiteralString ('\n' :: read) rest
  | c :: rest => if isPlain c || c = '\n' then longLiteralString (c :: read) rest else none

/-- Reads a string with its quotes. The line that opens a long string may end at once. -/
def string? : Chars → Option (String × Chars)
  | '"' :: '"' :: '"' :: rest => longBasicString false [] ((dropNewline? rest).getD rest)
  | '"' :: rest => basicString [] rest
  | '\'' :: '\'' :: '\'' :: rest => longLiteralString [] ((dropNewline? rest).getD rest)
  | '\'' :: rest => literalString [] rest
  | _ => none

/-! ## Numbers -/

/-- The digits at the start of a text, among which single underscores may stand, and the rest. -/
def digitRun (base : Nat) : Chars → Chars × Chars
  | [] => ([], [])
  | c :: rest =>
    if isDigitOf base c then
      let (digits, rest) := digitRun base rest
      (c :: digits, rest)
    else if c = '_' ∧ rest.head?.any (isDigitOf base) then digitRun base rest
    else ([], c :: rest)

/-- Digits at the start of a text, of which there is at least one. -/
def digits? (base : Nat) (text : Chars) : Option (Chars × Chars) :=
  if text.head?.any (isDigitOf base) then some (digitRun base text) else none

/-- A sign at the start of a text: whether it is a minus, and the rest. -/
def sign : Chars → Bool × Chars
  | '-' :: rest => (true, rest)
  | '+' :: rest => (false, rest)
  | text => (false, text)

/-- The digits of a decimal whole number, which has no leading zeros. -/
def wholeDigits? : Chars → Option (Chars × Chars)
  | '0' :: rest => some (['0'], rest)
  | text => digits? 10 text

/-- An integer, unless it needs more than 64 bits. -/
def wordInt? (n : Int) : Option Toml :=
  if -9223372036854775808 ≤ n ∧ n ≤ 9223372036854775807 then some (int n) else none

/-- Reads an integer. -/
def integer? (text : Chars) : Option (Toml × Chars) :=
  let based (base : Nat) (rest : Chars) : Option (Toml × Chars) := do
    let (digits, rest) ← digits? base rest
    return (← wordInt? (numeral base digits), rest)
  match text with
  | '0' :: 'x' :: rest => based 16 rest
  | '0' :: 'o' :: rest => based 8 rest
  | '0' :: 'b' :: rest => based 2 rest
  | _ => do
    let (negative, rest) := sign text
    let (digits, rest) ← wholeDigits? rest
    let n : Int := numeral 10 digits
    return (← wordInt? (if negative then -n else n), rest)

/-- Reads an exponent with its letter. -/
def exponent? : Chars → Option (Int × Chars)
  | c :: rest =>
    if c = 'e' ∨ c = 'E' then do
      let (negative, rest) := sign rest
      let (digits, rest) ← digits? 10 rest
      let n : Int := numeral 10 digits
      return (if negative then -n else n, rest)
    else none
  | [] => none

/-- Reads a fraction, an exponent or both: the digits of the fraction and the power of ten. -/
def fractionAndPower? : Chars → Option (Chars × Int × Chars)
  | '.' :: rest => do
    let (fraction, rest) ← digits? 10 rest
    let (power, rest) := (exponent? rest).getD (0, rest)
    return (fraction, power, rest)
  | text => (exponent? text).map fun (power, rest) => ([], power, rest)

/-- Reads a number with a fraction or an exponent. A positive one beyond every double is refused. -/
def finiteFloat? (text : Chars) : Option (Toml × Chars) := do
  let (negative, rest) := sign text
  let (whole, rest) ← wholeDigits? rest
  let (fraction, power, rest) ← fractionAndPower? rest
  let value : Decimal := ⟨numeral 10 (whole ++ fraction), power - fraction.length⟩
  if !negative && value.exceedsDouble then none
  else return (float (String.ofList (text.take (text.length - rest.length))), rest)

/-- Reads an infinity or a value that is no number. -/
def specialFloat? (text : Chars) : Option (Toml × Chars) :=
  match (sign text).2 with
  | 'i' :: 'n' :: 'f' :: rest | 'n' :: 'a' :: 'n' :: rest =>
    some (float (String.ofList (text.take (text.length - rest.length))), rest)
  | _ => none

/-! ## Points in time -/

/-- Reads a number of exactly `count` digits between two bounds. -/
def fixedDigits? (count least most : Nat) (text : Chars) : Option (Nat × Chars) :=
  let digits := text.take count
  let n := numeral 10 digits
  if digits.length = count && digits.all Char.isDigit && least ≤ n && n ≤ most then
    some (n, text.drop count)
  else none

/-- Reads a character. -/
def expect? (c : Char) : Chars → Option Chars
  | d :: rest => if c = d then some rest else none
  | [] => none

/-- The number of days of a month. -/
def daysOf (year month : Nat) : Nat :=
  if month = 2 then
    if year % 4 = 0 ∧ (year % 100 ≠ 0 ∨ year % 400 = 0) then 29 else 28
  else if [4, 6, 9, 11].contains month then 30 else 31

/-- Passes over a date. -/
def date? (text : Chars) : Option Chars := do
  let (year, rest) ← fixedDigits? 4 0 9999 text
  let (month, rest) ← fixedDigits? 2 1 12 (← expect? '-' rest)
  let (_, rest) ← fixedDigits? 2 1 (daysOf year month) (← expect? '-' rest)
  return rest

/-- Passes over a time of day. -/
def time? (text : Chars) : Option Chars := do
  let (_, rest) ← fixedDigits? 2 0 23 text
  let (_, rest) ← fixedDigits? 2 0 59 (← expect? ':' rest)
  let (_, rest) ← fixedDigits? 2 0 60 (← expect? ':' rest)
  match rest with
  | '.' :: d :: more => if d.isDigit then return more.dropWhile Char.isDigit else return rest
  | _ => return rest

/-- Passes over the offset of a time. -/
def offset? : Chars → Option Chars
  | c :: rest =>
    if c = 'Z' ∨ c = 'z' then some rest
    else if c = '+' ∨ c = '-' then do
      let (_, rest) ← fixedDigits? 2 0 23 rest
      let (_, rest) ← fixedDigits? 2 0 59 (← expect? ':' rest)
      return rest
    else none
  | [] => none

/-- Passes over a time of day and perhaps its offset behind a date, if one stands there. -/
def timeBehindDate (text : Chars) : Chars :=
  match text with
  | c :: rest =>
    if c = 'T' ∨ c = 't' ∨ c = ' ' then
      match time? rest with
      | some rest => (offset? rest).getD rest
      | none => text
    else text
  | [] => []

/-- Reads a date, a time of day or both. -/
def moment? (text : Chars) : Option (Toml × Chars) := do
  let rest ← match date? text with
    | some rest => some (timeBehindDate rest)
    | none => time? text
  return (moment (String.ofList (text.take (text.length - rest.length))), rest)

/-- Reads a point in time or a number. -/
def number? (text : Chars) : Option (Toml × Chars) :=
  match moment? text with
  | some found => some found
  | none =>
    match finiteFloat? text with
    | some found => some found
    | none =>
      match specialFloat? text with
      | some found => some found
      | none => integer? text

end ArchGraph.Toml
