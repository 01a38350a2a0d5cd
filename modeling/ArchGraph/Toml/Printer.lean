import ArchGraph.Json.Printer
import ArchGraph.Text.Blank
import ArchGraph.Toml.Basic
/-!
# Writing TOML text

Documents of tables of strings, integers and lists of strings. Strings take the first form in
which nothing has to be escaped: on one line between double or single quotes, or over several
lines between triple ones; if there is none, their characters are escaped. A list of more than one
item takes a line for each of them.
-/

namespace ArchGraph.Toml

open Text (Chars)

/-! ## Strings -/

/-- The length of the longest run of a character, behind a run of `current`. -/
def longestRun (c : Char) (current : Nat) : Chars → Nat
  | [] => current
  | x :: rest =>
    if x = c then longestRun c (current + 1) rest else max current (longestRun c 0 rest)

/-- A control character that has to be escaped on one line and on several. -/
def isControl (c : Char) : Bool :=
  (c.toNat < 0x20 && c ≠ '\t' && c ≠ '\n') || c = '\x7f'

/-- The letter of the escape of a character. -/
def escapeLetter? (multiline : Bool) (c : Char) : Option Char :=
  if c = '\x08' then some 'b'
  else if c = '\t' then some 't'
  else if c = '\n' then if multiline then none else some 'n'
  else if c = '\x0c' then some 'f'
  else if c = '\r' then some 'r'
  else if c = '\\' then some '\\'
  else none

/-- The characters between double quotes. Over several lines up to two double quotes may stand for
themselves; `quotes` of them stand in front of the text. -/
def escaped (multiline : Bool) (quotes : Nat) : Chars → Chars
  | [] => []
  | c :: rest =>
    if c = '"' then
      if quotes < (if multiline then 2 else 0) then c :: escaped multiline (quotes + 1) rest
      else '\\' :: c :: escaped multiline 0 rest
    else match escapeLetter? multiline c with
      | some letter => '\\' :: letter :: escaped multiline 0 rest
      | none =>
        if isControl c then ['\\', 'u', '0', '0'] ++ upperHex c ++ escaped multiline 0 rest
        else c :: escaped multiline 0 rest
where
  /-- The two upper-case hexadecimal digits of a control character. -/
  upperHex (c : Char) : Chars := (Json.hexPair c.toNat).map Char.toUpper

/-- A text between quotes. Over several lines a line feed stands behind the opening quotes of a
text that has one. -/
def between (quotes text : Chars) (newline : Bool) : Chars :=
  quotes ++ (if newline then ['\n'] else []) ++ text ++ quotes

/-- A string as it is written. -/
def quote (s : String) : String :=
  let text := s.toList
  let newline := text.contains '\n'
  let control := text.any isControl
  let backslash := text.contains '\\'
  let singles := longestRun '\'' 0 text
  let doubles := longestRun '"' 0 text
  let basic := between ['"'] (escaped false 0 text) false
  let multilineBasic := between ['"', '"', '"'] (escaped true 0 text) newline
  String.ofList <|
    if !control && !backslash && doubles = 0 && !newline then basic
    else if !control && singles = 0 && !newline then between ['\''] text false
    else if !control && !backslash && doubles ≤ 2 then multilineBasic
    else if !control && singles ≤ 2 then between ['\'', '\'', '\''] text newline
    else if newline then multilineBasic
    else basic

/-! ## Documents -/

/-- The value of an entry that is written. -/
inductive Setting where
  | word (value : UInt64)
  | strings (items : List String)
deriving DecidableEq, Repr

/-- The greatest integer that can be written. -/
def maxInteger : Nat := Nat.pow 2 63 - 1

/-- A value as it is written, unless it is too large. -/
def Setting.text? : Setting → Option String
  | word n => if n.toNat ≤ maxInteger then some (toString n.toNat) else none
  | strings [] => some "[]"
  | strings [s] => some ("[" ++ quote s ++ "]")
  | strings items =>
    some ("[\n" ++ String.join (items.map fun s => "    " ++ quote s ++ ",\n") ++ "]")

/-- A table as it is written: its name and its entries, each on lines of its own. -/
def tableText? (name : String) (entries : List (String × Setting)) : Option String := do
  let lines ← entries.mapM fun (key, value) =>
    value.text?.map fun text => key ++ " = " ++ text ++ "\n"
  return "[" ++ name ++ "]\n" ++ String.join lines

/-- Tables as they are written, with an empty line between them. -/
def documentText? (tables : List (String × List (String × Setting))) : Option String :=
  (tables.mapM fun (name, entries) => tableText? name entries).map fun texts =>
    "\n".intercalate texts

end ArchGraph.Toml
