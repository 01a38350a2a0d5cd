import ArchGraph.Text.Blank
import ArchGraph.Text.CaseTable
import ArchGraph.Text.Word
/-!
# Letter case

Full lower-casing (a sigma that ends a word takes its final form), capitalisation of a first
letter, ASCII upper-casing, and the letters that a case-insensitive ASCII letter stands for.
-/

namespace ArchGraph.Text

/-- The image of a code point under the run that holds it, if there is one. -/
def shifted (runs : List CaseRun) (code : Nat) : Option Char :=
  (runs.find? (·.holds code)).map fun run => Char.ofNat ((code : Int) + run.shift).toNat

/-- The lower case of one character, away from any context. -/
def lowerChar (c : Char) : Chars :=
  if c.toNat < 0x80 then [c.toLower]
  else if c = 'İ' then ['i', '\u0307']
  else [(shifted lowerRuns c.toNat).getD c]

/-- The upper case of one character. -/
def upperChar (c : Char) : Chars :=
  if c.toNat < 0x80 then [c.toUpper]
  else match upperSpecial.lookup c.toNat with
    | some codes => codes.map Char.ofNat
    | none => [(shifted upperRuns c.toNat).getD c]

/-- Letters with a case, other than those that are skipped around a sigma. -/
def isCased (c : Char) : Bool :=
  if c.toNat < 0x80 then c.isAlpha else inRanges casedRanges c.toNat

/-- Characters that are skipped when the neighbours of a sigma are looked at. -/
def isCaseIgnorable (c : Char) : Bool :=
  if c.toNat < 0x80 then c = '\'' || c = '.' || c = ':' || c = '^' || c.toNat == 0x60
  else inRanges caseIgnorableRanges c.toNat

/-- Whether the first character that is not skipped is a cased letter. -/
def casedAhead : Chars → Bool
  | [] => false
  | c :: rest => if isCaseIgnorable c then casedAhead rest else isCased c

/-- Lower-cases a text that stands after a cased letter (`afterCased`) or not. -/
def lowerAfter (afterCased : Bool) : Chars → Chars
  | [] => []
  | c :: rest =>
    if c = 'Σ' then
      (if afterCased && !casedAhead rest then 'ς' else 'σ') :: lowerAfter true rest
    else
      lowerChar c ++ lowerAfter (if isCaseIgnorable c then afterCased else isCased c) rest

/-- The lower case of a text. -/
def lower (text : Chars) : Chars :=
  lowerAfter false text

/-- The text with its first letter in upper case. -/
def capitalize : Chars → Chars
  | [] => []
  | c :: rest => upperChar c ++ rest

/-- The lower case of a string. -/
def lowercase (s : String) : String :=
  String.ofList (lower s.toList)

/-- The string with ASCII letters in upper case. -/
def asciiUppercase (s : String) : String :=
  String.ofList (s.toList.map Char.toUpper)

/-- The string with ASCII letters in lower case. -/
def asciiLowercase (s : String) : String :=
  String.ofList (s.toList.map Char.toLower)

/-- Whether `c` is the ASCII letter `letter` up to case: `s` also stands for the long s and `k`
for the Kelvin sign, the only letters beyond ASCII that fold to an ASCII letter. -/
def sameLetter (letter c : Char) : Bool :=
  c.toLower == letter.toLower || (letter.toLower == 's' && c == 'ſ') ||
  (letter.toLower == 'k' && c == '\u212A')

end ArchGraph.Text
