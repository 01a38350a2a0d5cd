import ArchGraph.Text.Blank
/-!
# Lines and pieces

Cutting a text into lines, words and pieces, and the line a position stands on. A line ends at a
line feed and loses one carriage return before it; a last line without a line feed counts unless
it is empty. Main statement: no line holds a line feed.
-/

namespace ArchGraph.Text

/-- The lines of a text whose current line is `line`, reversed. -/
def linesFrom (line : Chars) : Chars → List Chars
  | [] => if line.isEmpty then [] else [line.reverse]
  | c :: rest =>
    if c = '\n' then
      (match line with
        | '\r' :: before => before
        | _ => line).reverse :: linesFrom [] rest
    else linesFrom (c :: line) rest

/-- The lines of a text. -/
def lines (text : Chars) : List Chars :=
  linesFrom [] text

/-- The pieces between the separators: one more than there are separators. -/
def pieces (isSep : Char → Bool) : Chars → List Chars
  | [] => [[]]
  | c :: rest =>
    if isSep c then [] :: pieces isSep rest
    else match pieces isSep rest with
      | [] => [[c]]
      | piece :: more => (c :: piece) :: more

/-- The words of a text: its non-empty pieces between blanks. -/
def words (text : Chars) : List Chars :=
  (pieces isBlank text).filter (!·.isEmpty)

/-- The texts joined by a separator. -/
def joinWith (sep : Chars) (texts : List Chars) : Chars :=
  sep.intercalate texts

/-- The text behind `start`, when the text starts with it. -/
def dropStart? : Chars → Chars → Option Chars
  | [], text => some text
  | _ :: _, [] => none
  | s :: start, c :: text => if s = c then dropStart? start text else none

/-- The text before the first place where `needle` stands, and the text behind it. -/
def cut? (needle : Chars) : Chars → Option (Chars × Chars)
  | [] => if needle.isEmpty then some ([], []) else none
  | c :: text =>
    match dropStart? needle (c :: text) with
    | some after => some ([], after)
    | none => (cut? needle text).map fun (before, after) => (c :: before, after)

/-- The text behind the last place where `needle` stands. -/
def afterLast? (needle : Chars) : Chars → Option Chars
  | [] => if needle.isEmpty then some [] else none
  | c :: text =>
    match afterLast? needle text with
    | some after => some after
    | none => dropStart? needle (c :: text)

/-- Whether `needle` stands somewhere in the text. -/
def contains (needle : Chars) : Chars → Bool
  | [] => needle.isEmpty
  | c :: text => needle.isPrefixOf (c :: text) || contains needle text

/-- The text before the first `needle`, or all of it. -/
def before (needle text : Chars) : Chars :=
  match cut? needle text with
  | some (front, _) => front
  | none => text

/-- The number of bytes of a text in UTF-8. -/
def byteLength (text : Chars) : Nat :=
  text.foldl (fun n c => n + c.utf8Size) 0

/-- The 1-based number of the line on which position `offset` stands, as a 32-bit word: what is left
of it modulo `2 ^ 32`. -/
def lineAt (text : Chars) (offset : Nat) : UInt32 :=
  ((text.take offset).count '\n' + 1).toUInt32

/-- Whether a place and a count of lines add up to more than a 64-bit word holds. Sums that are
checked stop the program then, others wrap. -/
def overflows (start : Nat) (count : UInt64) : Bool := decide (UInt64.size ≤ start + count.toNat)

/-- The lines from `start` on, `count` of them at most and none from `stop` on, joined by line
feeds. The last line is computed in 64-bit words, and the sum wraps if it overflows. -/
def window (lines : List Chars) (start : Nat) (count : UInt64) (stop : Nat) : Chars :=
  let last := min (start.toUInt64 + count).toNat stop
  joinWith ['\n'] ((lines.take last).drop start)

/-- The first line that satisfies `test`, with its 1-based number as a 32-bit word. -/
def findLine? (test : Chars → Bool) (text : Chars) : Option (UInt32 × Chars) :=
  ((lines text).zipIdx 1).find? (fun numbered => test numbered.1) |>.map fun numbered =>
    (numbered.2.toUInt32, numbered.1)

/-- The text inside a matching pair of single, double or back quotes, or the trimmed text. -/
def unquote (token : Chars) : Chars :=
  let token := trim token
  let inside? (quote : Char) : Option Chars :=
    match token with
    | c :: rest => if c = quote ∧ rest.getLast? = some quote then some rest.dropLast else none
    | [] => none
  ['\'', '"', '\x60'].findSome? inside? |>.getD token

theorem toNat_toUInt32 {n : Nat} (h : n < UInt32.size) : n.toUInt32.toNat = n := by
  rw [Nat.toUInt32_eq, UInt32.toNat_ofNat_of_lt' h]

/-- Words tell numbers apart that fit them. -/
theorem toUInt32_inj {n k : Nat} (hn : n < UInt32.size) (hk : k < UInt32.size) :
    n.toUInt32 = k.toUInt32 ↔ n = k := by
  rw [← UInt32.toNat_inj, toNat_toUInt32 hn, toNat_toUInt32 hk]

/-- The number of a line is exact where it fits a word. -/
theorem toNat_lineAt {text : Chars} {offset : Nat}
    (h : (text.take offset).count '\n' + 1 < UInt32.size) :
    (lineAt text offset).toNat = (text.take offset).count '\n' + 1 := toNat_toUInt32 h

/-- All numbers of lines are exact in a text whose line feeds can be counted in words. -/
theorem toNat_lineAt_of_count {text : Chars} (h : text.count '\n' + 1 < UInt32.size)
    (offset : Nat) : (lineAt text offset).toNat = (text.take offset).count '\n' + 1 := by
  have hcount := (List.take_sublist offset text).count_le '\n'
  exact toNat_lineAt (by omega)

theorem pieces_ne_nil (isSep : Char → Bool) (text : Chars) : pieces isSep text ≠ [] := by
  cases text with
  | nil => simp [pieces]
  | cons c rest =>
    simp only [pieces]
    split
    · simp
    · split <;> simp

theorem dropStart?_eq_some_iff {start text rest : Chars} :
    dropStart? start text = some rest ↔ text = start ++ rest := by
  induction start generalizing text with
  | nil => simp [dropStart?]
  | cons s start ih =>
    cases text with
    | nil => simp [dropStart?]
    | cons c text =>
      by_cases h : s = c
      · simp [dropStart?, h, ih]
      · simp [dropStart?, h, Ne.symm h]

theorem not_mem_linesFrom {line text : Chars} (h : '\n' ∉ line) :
    ∀ l ∈ linesFrom line text, '\n' ∉ l := by
  induction text generalizing line with
  | nil =>
    intro l hl
    by_cases e : line.isEmpty <;> simp_all [linesFrom]
  | cons c rest ih =>
    intro l hl
    by_cases e : c = '\n'
    · simp only [linesFrom, e, if_true, List.mem_cons] at hl
      rcases hl with hl | hl
      · subst hl
        split <;> simp_all
      · exact ih (by simp) l hl
    · simp only [linesFrom, e, if_false] at hl
      refine ih ?_ l hl
      simp only [List.mem_cons, not_or]
      exact ⟨fun h => e h.symm, h⟩

/-- No line holds a line feed. -/
theorem not_mem_lines {text : Chars} : ∀ l ∈ lines text, '\n' ∉ l :=
  not_mem_linesFrom (by simp)

end ArchGraph.Text
