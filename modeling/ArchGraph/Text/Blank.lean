/-!
# Blank characters

The white space of the Unicode standard, and trimming by it.
-/

namespace ArchGraph.Text

/-- A text as the list of its characters. -/
abbrev Chars := List Char

/-- Unicode white space. -/
def isBlank (c : Char) : Bool :=
  let n := c.toNat
  (9 ≤ n && n ≤ 13) || n == 0x20 || n == 0x85 || n == 0xA0 || n == 0x1680 ||
  (0x2000 ≤ n && n ≤ 0x200A) || n == 0x2028 || n == 0x2029 || n == 0x202F || n == 0x205F ||
  n == 0x3000

/-- Drops the characters at the end that satisfy `drop`. -/
def dropEndWhile (drop : Char → Bool) (text : Chars) : Chars :=
  text.foldr (fun c rest => if rest.isEmpty && drop c then [] else c :: rest) []

/-- Drops the characters at both ends that satisfy `drop`. -/
def trimMatches (drop : Char → Bool) (text : Chars) : Chars :=
  dropEndWhile drop (text.dropWhile drop)

/-- Drops the blanks at both ends. -/
def trim (text : Chars) : Chars :=
  trimMatches isBlank text

/-- Whether a text holds nothing but blanks. -/
def allBlank (text : Chars) : Bool :=
  text.all isBlank

theorem dropEndWhile_cons (drop : Char → Bool) (c : Char) (text : Chars) :
    dropEndWhile drop (c :: text) =
      if (dropEndWhile drop text).isEmpty && drop c then [] else c :: dropEndWhile drop text :=
  rfl

/-- The blanks of core are blanks here too. -/
theorem isBlank_of_isWhitespace {c : Char} (h : c.isWhitespace = true) : isBlank c = true := by
  simp only [Char.isWhitespace, Bool.or_eq_true, decide_eq_true_eq] at h
  rcases h with ((h | h) | h) | h <;> subst h <;> decide

end ArchGraph.Text
