import ArchGraph.Json.Basic
/-!
# Writing JSON text

The compact form, on one line without blanks, and the pretty form, with one item a line and two
blanks of indentation. Both append to a text that has been written so far.
-/

namespace ArchGraph.Json

/-- The two hexadecimal digits of a small number. -/
def hexPair (n : Nat) : List Char :=
  [Nat.digitChar (n / 16), Nat.digitChar (n % 16)]

/-- A character inside a string literal. -/
def escapeChar (c : Char) : List Char :=
  if c = '"' then ['\\', '"']
  else if c = '\\' then ['\\', '\\']
  else if c = '\n' then ['\\', 'n']
  else if c = '\r' then ['\\', 'r']
  else if c = '\t' then ['\\', 't']
  else if c = '\x08' then ['\\', 'b']
  else if c = '\x0c' then ['\\', 'f']
  else if c.toNat < 0x20 then ['\\', 'u', '0', '0'] ++ hexPair c.toNat
  else [c]

/-- A string as a literal with its quotes. -/
def quote (s : String) : String :=
  String.ofList ('"' :: (s.toList.flatMap escapeChar ++ ['"']))

/-- The text of a number, a truth value, a string or `null`. -/
def scalarText : Json → String
  | null => "null"
  | bool true => "true"
  | bool false => "false"
  | int n => toString n
  | real d => d.text
  | str s => quote s
  | _ => "null"

mutual

/-- Appends the compact form of a value. -/
def writeCompact (out : String) : Json → String
  | arr items => writeItems (out ++ "[") true items ++ "]"
  | obj members => writeMembers (out ++ "\x7b") true members ++ "\x7d"
  | j => out ++ j.scalarText

/-- Appends items with commas between them. -/
def writeItems (out : String) (first : Bool) : List Json → String
  | [] => out
  | item :: rest =>
    writeItems (writeCompact (if first then out else out ++ ",") item) false rest

/-- Appends members with commas between them. -/
def writeMembers (out : String) (first : Bool) : List (String × Json) → String
  | [] => out
  | (key, value) :: rest =>
    writeMembers (writeCompact ((if first then out else out ++ ",") ++ quote key ++ ":") value)
      false rest

end

/-- The compact form of a value. -/
def compact (j : Json) : String :=
  writeCompact "" j

/-- A line feed and the indentation of a nesting level. -/
def newLine (level : Nat) : String :=
  String.ofList ('\n' :: List.replicate (2 * level) ' ')

mutual

/-- Appends the pretty form of a value at a nesting level. -/
def writePretty (level : Nat) (out : String) : Json → String
  | arr [] => out ++ "[]"
  | arr items => writePrettyItems (level + 1) (out ++ "[") true items ++ newLine level ++ "]"
  | obj [] => out ++ "\x7b\x7d"
  | obj members =>
    writePrettyMembers (level + 1) (out ++ "\x7b") true members ++ newLine level ++ "\x7d"
  | j => out ++ j.scalarText

/-- Appends items, each on a line of its own. -/
def writePrettyItems (level : Nat) (out : String) (first : Bool) : List Json → String
  | [] => out
  | item :: rest =>
    writePrettyItems level
      (writePretty level ((if first then out else out ++ ",") ++ newLine level) item) false rest

/-- Appends members, each on a line of its own. -/
def writePrettyMembers (level : Nat) (out : String) (first : Bool) :
    List (String × Json) → String
  | [] => out
  | (key, value) :: rest =>
    writePrettyMembers level
      (writePretty level
        ((if first then out else out ++ ",") ++ newLine level ++ quote key ++ ": ") value)
      false rest

end

/-- The pretty form of a value. -/
def pretty (j : Json) : String :=
  writePretty 0 "" j

end ArchGraph.Json
