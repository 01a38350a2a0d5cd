import ArchGraph.Text.Lines
import ArchGraph.Text.Word
/-!
# Patterns

Patterns over texts and where they match. A pattern is tried at a place of a text and hands every
way to match, in order of preference, to what is to be matched behind it; the first way that
succeeds as a whole wins. This is the documented preference of leftmost-first matching; how an
automaton finds the match is left out, as are bounds on its size. Repetition is of single characters
only, so the matcher recurses on the pattern alone. Main statement: a match ends no earlier than it
starts.
-/

namespace ArchGraph

open Text (Chars isBlank isWord)

/-- What a pattern can ask about a place without consuming a character. -/
inductive Place where
  | textStart
  | textEnd
  | lineStart
  | wordEdge
deriving DecidableEq, Repr

/-- A pattern over texts. -/
inductive Pattern where
  /-- Nothing. -/
  | nothing
  /-- One character of a class. -/
  | one (accepts : Char → Bool)
  /-- At least `least` characters of a class, as many as possible. -/
  | many (accepts : Char → Bool) (least : Nat)
  /-- Any number of characters of a class, as few as possible. -/
  | few (accepts : Char → Bool)
  /-- A condition on the place. -/
  | look (place : Place)
  /-- One pattern behind another. -/
  | seq (first second : Pattern)
  /-- The first pattern, or else the second. -/
  | alt (first second : Pattern)
  /-- The pattern, or else nothing. -/
  | opt (body : Pattern)
  /-- The pattern, whose match is remembered under a number. -/
  | group (index : Nat) (body : Pattern)

namespace Pattern

instance : Append Pattern := ⟨seq⟩

/-- One character. -/
def char (c : Char) : Pattern := one (· == c)

/-- The patterns behind each other. -/
def concat : List Pattern → Pattern
  | [] => nothing
  | [p] => p
  | p :: rest => seq p (concat rest)

/-- The characters of a string. -/
def lit (s : String) : Pattern := concat (s.toList.map char)

/-- The first pattern that leads to a match. -/
def oneOf : List Pattern → Pattern
  | [] => one fun _ => false
  | [p] => p
  | p :: rest => alt p (oneOf rest)

/-- One of several strings, tried in order. -/
def anyOf (strings : List String) : Pattern := oneOf (strings.map lit)

/-- Any white space. -/
def blanks : Pattern := many isBlank 0

/-- Some white space. -/
def gap : Pattern := many isBlank 1

/-- A place between a word character and something else. -/
def edge : Pattern := look .wordEdge

end Pattern

/-- A place in a text: the character before it, the number of characters before it, and the
characters behind it. -/
structure Cursor where
  previous : Option Char
  offset   : Nat
  rest     : Chars
deriving Repr

namespace Cursor

/-- The start of a text. -/
def start (text : Chars) : Cursor := ⟨none, 0, text⟩

/-- Whether a condition holds at a place. -/
def satisfies (s : Cursor) : Place → Bool
  | .textStart => s.previous.isNone
  | .textEnd => s.rest.isEmpty
  | .lineStart => s.previous.isNone || s.previous == some '\n'
  | .wordEdge => s.previous.any isWord != s.rest.head?.any isWord

end Cursor

/-- A part of a text: its bounds, and the text from its start on. -/
structure Span where
  start : Nat
  stop  : Nat
  tail  : Chars
deriving Repr

/-- The characters of a part of a text. -/
def Span.chars (s : Span) : Chars := s.tail.take (s.stop - s.start)

/-- The characters of a part of a text, as a string. -/
def Span.text (s : Span) : String := String.ofList s.chars

/-- What the groups of a pattern matched, the latest first. -/
abbrev Groups := List (Nat × Span)

/-- The places behind zero, one, two … characters of a class, the farthest first, in front of the
places `passed` so far. -/
def reach (accepts : Char → Bool) (previous : Option Char) (offset : Nat) (passed : List Cursor) :
    Chars → List Cursor
  | [] => ⟨previous, offset, []⟩ :: passed
  | c :: rest =>
    if accepts c then
      reach accepts (some c) (offset + 1) (⟨previous, offset, c :: rest⟩ :: passed) rest
    else ⟨previous, offset, c :: rest⟩ :: passed

namespace Pattern

/-- Hands the ways to match a pattern at `s`, in order of preference, to `next` until one
succeeds. -/
def run {α : Type} (p : Pattern) (s : Cursor) (g : Groups) (next : Cursor → Groups → Option α) :
    Option α :=
  match p with
  | nothing => next s g
  | one accepts =>
    match s.rest with
    | [] => none
    | c :: rest => if accepts c then next ⟨some c, s.offset + 1, rest⟩ g else none
  | many accepts least =>
    let ends := reach accepts s.previous s.offset [] s.rest
    (ends.takeWhile (s.offset + least ≤ ·.offset)).findSome? fun s => next s g
  | few accepts =>
    (reach accepts s.previous s.offset [] s.rest).reverse.findSome? fun s => next s g
  | look place => if s.satisfies place then next s g else none
  | seq first second => first.run s g fun s g => second.run s g next
  | alt first second =>
    match first.run s g next with
    | some found => some found
    | none => second.run s g next
  | opt body =>
    match body.run s g next with
    | some found => some found
    | none => next s g
  | group index body =>
    body.run s g fun s' g' => next s' ((index, ⟨s.offset, s'.offset, s.rest⟩) :: g')

end Pattern

/-- A match of a pattern: the part of the text, and what the groups matched. -/
structure Match where
  span   : Span
  groups : Groups
deriving Repr

namespace Match

/-- Where the match starts. -/
def start (m : Match) : Nat := m.span.start

/-- Where the match ends. -/
def stop (m : Match) : Nat := m.span.stop

/-- What a group matched, if it took part. -/
def group? (m : Match) (index : Nat) : Option Span := m.groups.lookup index

/-- The text that a group matched; empty if it took no part. -/
def text (m : Match) (index : Nat) : String := ((m.group? index).map Span.text).getD ""

end Match

namespace Pattern

/-- The preferred match at a place. -/
def matchAt? (p : Pattern) (s : Cursor) : Option Match :=
  p.run s [] fun s' g => some ⟨⟨s.offset, s'.offset, s.rest⟩, g⟩

/-- The first match at or behind a place. -/
def searchFrom (p : Pattern) (previous : Option Char) (offset : Nat) : Chars → Option Match
  | [] => p.matchAt? ⟨previous, offset, []⟩
  | c :: rest =>
    match p.matchAt? ⟨previous, offset, c :: rest⟩ with
    | some found => some found
    | none => searchFrom p (some c) (offset + 1) rest

/-- The matches behind a place that do not overlap, from left to right, none starting before
`resume`. -/
def allFrom (p : Pattern) (resume : Nat) (previous : Option Char) (offset : Nat) :
    Chars → List Match
  | [] => if offset < resume then [] else (p.matchAt? ⟨previous, offset, []⟩).toList
  | c :: rest =>
    if offset < resume then allFrom p resume (some c) (offset + 1) rest
    else match p.matchAt? ⟨previous, offset, c :: rest⟩ with
      | some found => found :: allFrom p (max found.stop (offset + 1)) (some c) (offset + 1) rest
      | none => allFrom p resume (some c) (offset + 1) rest

/-- The first match in a text. -/
def first? (p : Pattern) (text : Chars) : Option Match := p.searchFrom none 0 text

/-- All matches in a text that do not overlap, from left to right. -/
def all (p : Pattern) (text : Chars) : List Match := p.allFrom 0 none 0 text

/-- Whether a pattern matches somewhere in a text. -/
def occursIn (p : Pattern) (text : Chars) : Bool := (p.first? text).isSome

/-- The text with every match replaced. -/
def replaceAll (p : Pattern) (replacement text : Chars) : Chars :=
  let rec splice (offset : Nat) (text : Chars) : List Match → Chars
    | [] => text
    | m :: more =>
      text.take (m.start - offset) ++ replacement ++
        splice m.stop (text.drop (m.stop - offset)) more
  splice 0 text (p.all text)

end Pattern

theorem offset_le_of_mem_reach {accepts : Char → Bool} {previous : Option Char} {offset : Nat}
    {passed : List Cursor} {text : Chars} {s : Cursor}
    (h : s ∈ reach accepts previous offset passed text) : offset ≤ s.offset ∨ s ∈ passed := by
  induction text generalizing previous offset passed with
  | nil =>
    simp only [reach, List.mem_cons] at h
    rcases h with rfl | h
    · exact .inl (Nat.le_refl _)
    · exact .inr h
  | cons c rest ih =>
    simp only [reach] at h
    split at h
    · rcases ih h with h | h
      · exact .inl (by omega)
      · rcases List.mem_cons.1 h with rfl | h
        · exact .inl (Nat.le_refl _)
        · exact .inr h
    · rcases List.mem_cons.1 h with rfl | h
      · exact .inl (Nat.le_refl _)
      · exact .inr h

/-- What is matched behind a pattern is matched at a place no earlier than the pattern's. -/
theorem Pattern.exists_of_run_eq_some {α : Type} (p : Pattern) {s : Cursor} {g : Groups}
    {next : Cursor → Groups → Option α} {a : α} (h : p.run s g next = some a) :
    ∃ s' g', s.offset ≤ s'.offset ∧ next s' g' = some a := by
  induction p generalizing s g next with
  | nothing => exact ⟨s, g, Nat.le_refl _, h⟩
  | one accepts =>
    simp only [run] at h
    split at h
    · simp at h
    · split at h
      · exact ⟨_, _, Nat.le_succ _, h⟩
      · simp at h
  | many accepts least =>
    obtain ⟨s', hs, hn⟩ := List.exists_of_findSome?_eq_some h
    have := offset_le_of_mem_reach ((List.takeWhile_sublist _).subset hs)
    exact ⟨s', g, by simpa using this, hn⟩
  | few accepts =>
    obtain ⟨s', hs, hn⟩ := List.exists_of_findSome?_eq_some h
    have := offset_le_of_mem_reach (List.mem_reverse.1 hs)
    exact ⟨s', g, by simpa using this, hn⟩
  | look place =>
    simp only [run] at h
    split at h
    · exact ⟨s, g, Nat.le_refl _, h⟩
    · simp at h
  | seq first second ih1 ih2 =>
    obtain ⟨s1, g1, l1, h1⟩ := ih1 h
    obtain ⟨s2, g2, l2, h2⟩ := ih2 h1
    exact ⟨s2, g2, Nat.le_trans l1 l2, h2⟩
  | alt first second ih1 ih2 =>
    simp only [run] at h
    split at h
    · next e => cases h; exact ih1 e
    · exact ih2 h
  | opt body ih =>
    simp only [run] at h
    split at h
    · next e => cases h; exact ih e
    · exact ⟨s, g, Nat.le_refl _, h⟩
  | group index body ih =>
    obtain ⟨s1, g1, l1, h1⟩ := ih h
    exact ⟨s1, _, l1, h1⟩

/-- A match starts where it is tried and ends no earlier. -/
theorem Pattern.start_le_stop {p : Pattern} {s : Cursor} {m : Match} (h : p.matchAt? s = some m) :
    m.start = s.offset ∧ m.start ≤ m.stop := by
  obtain ⟨s', g', l, e⟩ := p.exists_of_run_eq_some h
  cases e
  exact ⟨rfl, l⟩

end ArchGraph
