import ArchGraph.Sql.Lexer
import Mathlib.Data.List.Basic
/-!
# The reader of a script, step by step

What the reader makes of one character depends on the character behind it and on what it is inside
of (`lexFrom_cons`). Where it is outside of comments and strings a script can be cut: the part in
front and the part behind are read on their own (`lexFrom_split`). The places of brackets, commas
and semicolons that count are such places (`outside_of_mem_code`).
-/

namespace ArchGraph.Sql

open Text (Chars)

/-! ## Steps -/

namespace Mode

/-- What the reader is inside of behind a character that stands in front of `next`. -/
def after (mode : Mode) (c : Char) (next : Option Char) : Mode :=
  match mode with
  | .code =>
    if c = '\'' then .string
    else if c = '-' ∧ next = some '-' then .lineComment
    else if c = '/' ∧ next = some '*' then .blockStart
    else .code
  | .string => if c = '\'' then .code else .string
  | .lineComment => if c = '\n' then .code else .lineComment
  | .blockStart => .blockComment ' '
  | .blockComment previous => if previous = '*' ∧ c = '/' then .code else .blockComment c

/-- What is read of a character that stands in front of `next`, with the mark of a string. -/
def read? (mode : Mode) (c : Char) (next : Option Char) : Option (Char × Bool) :=
  match mode with
  | .code =>
    if c = '\'' then some (c, true)
    else if c = '-' ∧ next = some '-' then none
    else if c = '/' ∧ next = some '*' then some (' ', false)
    else some (c, false)
  | .string => some (c, true)
  | .lineComment => if c = '\n' then some (c, false) else none
  | .blockStart => none
  | .blockComment _ => none

/-- The character behind does not matter in front of a place outside of comments and strings. -/
theorem look_of_after_eq_code {mode : Mode} {c : Char} {next : Option Char}
    (h : mode.after c next = .code) :
    mode.after c none = .code ∧ mode.read? c none = mode.read? c next := by
  cases mode with
  | code =>
    simp only [after] at h
    split at h
    · cases h
    · next hquote =>
      split at h
      · cases h
      · next hdash =>
        split at h
        · cases h
        · next hslash => simp [after, read?, hquote, hdash, hslash]
  | string => exact ⟨h, rfl⟩
  | lineComment => exact ⟨h, rfl⟩
  | blockStart => exact ⟨h, rfl⟩
  | blockComment previous => exact ⟨h, rfl⟩

end Mode

/-- **One step of the reader.** -/
theorem lexFrom_cons (mode : Mode) (offset : Nat) (c : Char) (rest : Chars) :
    lexFrom mode offset (c :: rest) =
      ((mode.read? c rest.head?).map fun r => ⟨offset, r.1, r.2⟩).toList ++
        lexFrom (mode.after c rest.head?) (offset + 1) rest := by
  cases mode with
  | code =>
    simp only [lexFrom, Mode.read?, Mode.after]
    split
    · rfl
    · split
      · rfl
      · split <;> rfl
  | string => rfl
  | lineComment =>
    simp only [lexFrom, Mode.read?, Mode.after]
    split <;> rfl
  | blockStart => rfl
  | blockComment previous => rfl

/-! ## Places -/

/-- What the reader is inside of at a place. -/
def modeFrom (mode : Mode) : Chars → Nat → Mode
  | _, 0 => mode
  | [], _ + 1 => mode
  | c :: rest, place + 1 => modeFrom (mode.after c rest.head?) rest place

@[simp] theorem modeFrom_zero (mode : Mode) (text : Chars) : modeFrom mode text 0 = mode := by
  cases text <;> rfl

@[simp] theorem modeFrom_nil (mode : Mode) (place : Nat) : modeFrom mode [] place = mode := by
  cases place <;> rfl

theorem modeFrom_cons (mode : Mode) (c : Char) (rest : Chars) (place : Nat) :
    modeFrom mode (c :: rest) (place + 1) = modeFrom (mode.after c rest.head?) rest place := rfl

theorem modeFrom_add : ∀ (text : Chars) (mode : Mode) (place more : Nat),
    modeFrom mode text (place + more) = modeFrom (modeFrom mode text place) (text.drop place) more
  | _, _, 0, _ => by rw [Nat.zero_add, modeFrom_zero, List.drop_zero]
  | [], _, _ + 1, _ => by rw [List.drop_nil, modeFrom_nil, modeFrom_nil, modeFrom_nil]
  | c :: rest, mode, place + 1, more => by
    rw [Nat.add_right_comm, modeFrom_cons, modeFrom_cons, List.drop_succ_cons]
    exact modeFrom_add rest _ place more

/-- A place is read the same in a front part of the text that goes on behind it. -/
theorem modeFrom_take_of_lt : ∀ (text : Chars) (mode : Mode) {place stop : Nat}, place < stop →
    modeFrom mode (text.take stop) place = modeFrom mode text place
  | _, _, 0, _, _ => by rw [modeFrom_zero, modeFrom_zero]
  | [], _, _ + 1, _, _ => by rw [List.take_nil]
  | c :: rest, mode, place + 1, stop + 2, h => by
    rw [List.take_succ_cons, modeFrom_cons, modeFrom_cons, List.head?_take, if_neg (by simp),
      modeFrom_take_of_lt rest _ (Nat.lt_of_succ_lt_succ h)]
  | _ :: _, _, _ + 1, 1, h => by omega

/-- In front of a place outside of comments and strings a text is read as if it ended there. -/
theorem modeFrom_take : ∀ (text : Chars) (mode : Mode) (place : Nat),
    modeFrom mode text place = .code → modeFrom mode (text.take place) place = .code
  | _, _, 0, h => by rwa [modeFrom_zero] at h ⊢
  | [], _, _ + 1, h => h
  | c :: rest, mode, 1, h => by
    rw [modeFrom_cons, modeFrom_zero] at h
    exact (Mode.look_of_after_eq_code h).1
  | [c], mode, place + 2, h => h
  | c :: d :: rest, mode, place + 2, h => modeFrom_take (d :: rest) _ (place + 1) h

/-- What stands behind a text matters to how it is read only as the next character. -/
theorem modeFrom_append {back back' : Chars}
    (h : ∀ (mode : Mode) (c : Char), mode.after c back.head? = mode.after c back'.head?) :
    ∀ (front : Chars) (mode : Mode),
      modeFrom mode (front ++ back) front.length = modeFrom mode (front ++ back') front.length
  | [], _ => by rw [List.length_nil, modeFrom_zero, modeFrom_zero]
  | [c], mode => by
    rw [List.length_singleton, List.singleton_append, List.singleton_append, modeFrom_cons,
      modeFrom_cons, modeFrom_zero, modeFrom_zero]
    exact h mode c
  | c :: d :: front, mode => modeFrom_append h (d :: front) (mode.after c (some d))

/-- **Where a script can be cut.** Outside of comments and strings the part in front and the part
behind are read on their own. -/
theorem lexFrom_split : ∀ (text : Chars) (mode : Mode) (offset place : Nat),
    modeFrom mode text place = .code → place ≤ text.length →
      lexFrom mode offset text =
        lexFrom mode offset (text.take place) ++ lexFrom .code (offset + place) (text.drop place)
  | text, mode, offset, 0, h, _ => by
    rw [modeFrom_zero] at h
    rw [h]
    rfl
  | [], _, _, _ + 1, _, hplace => by simp at hplace
  | c :: rest, mode, offset, 1, h, _ => by
    rw [modeFrom_cons, modeFrom_zero] at h
    have hone : lexFrom mode offset [c] =
        ((mode.read? c none).map fun r => ⟨offset, r.1, r.2⟩).toList := by
      rw [lexFrom_cons, lexFrom, List.append_nil, List.head?_nil]
    rw [List.take_succ_cons, List.take_zero, hone, (Mode.look_of_after_eq_code h).2, lexFrom_cons, h]
    rfl
  | [c], mode, offset, place + 2, _, hplace => by simp at hplace
  | c :: d :: rest, mode, offset, place + 2, h, hplace => by
    have ih := lexFrom_split (d :: rest) (mode.after c (some d)) (offset + 1) (place + 1) h
      (Nat.le_of_succ_le_succ hplace)
    rw [List.take_succ_cons, lexFrom_cons mode offset c, lexFrom_cons mode offset c,
      List.append_assoc, List.head?_cons, ih, List.drop_succ_cons, Nat.add_right_comm offset 1]
    rfl

/-- A character that counts as code, other than white space that a comment can leave behind. -/
def Lexeme.Counts (l : Lexeme) : Prop := l.quoted = false ∧ l.char ≠ ' ' ∧ l.char ≠ '\n'

/-- **Where a script reads as code.** A character that counts stands at its place, outside of
comments and strings, and so does the place behind it. -/
theorem exists_of_mem_lexFrom : ∀ {text : Chars} {mode : Mode} {offset : Nat} {l : Lexeme},
    l ∈ lexFrom mode offset text → l.Counts → ∃ i, l.offset = offset + i ∧
      text[i]? = some l.char ∧ modeFrom mode text i = .code ∧ modeFrom mode text (i + 1) = .code
  | [], _, _, _, h, _ => by simp [lexFrom] at h
  | c :: rest, mode, offset, l, h, hl => by
    rw [lexFrom_cons, List.mem_append] at h
    rcases h with h | h
    · obtain ⟨r, hr, rfl⟩ := Option.map_eq_some_iff.1 (Option.mem_toList.1 h)
      obtain ⟨hquoted, hblank, hline⟩ := hl
      refine ⟨0, rfl, ?_⟩
      cases mode with
      | code =>
        simp only [Mode.read?] at hr
        split at hr
        · cases hr; cases hquoted
        · next hquote =>
          split at hr
          · cases hr
          · next hdash =>
            split at hr
            · cases hr; exact absurd rfl hblank
            · next hslash =>
              cases hr
              exact ⟨rfl, rfl, by simp [modeFrom, Mode.after, hquote, hdash, hslash]⟩
      | string => cases hr; cases hquoted
      | lineComment =>
        simp only [Mode.read?] at hr
        split at hr
        · next hc => cases hr; exact absurd hc hline
        · cases hr
      | blockStart => cases hr
      | blockComment previous => cases hr
    · obtain ⟨i, hi, hget, hcode⟩ := exists_of_mem_lexFrom h hl
      exact ⟨i + 1, by omega, hget, hcode⟩

/-- A place outside of comments and strings. -/
structure Outside (text : Chars) (place : Nat) : Prop where
  le   : place ≤ text.length
  mode : modeFrom .code text place = .code

instance (text : Chars) (place : Nat) : Decidable (Outside text place) :=
  decidable_of_iff (place ≤ text.length ∧ modeFrom .code text place = .code)
    ⟨fun h => ⟨h.1, h.2⟩, fun h => ⟨h.le, h.mode⟩⟩

/-- Places outside of comments and strings, counted from one of them on. -/
theorem Outside.add {text : Chars} {place more : Nat} (h : Outside text place)
    (hmore : Outside (text.drop place) more) : Outside text (place + more) where
  le := by
    have hle := hmore.le
    rw [List.length_drop] at hle
    have hplace := h.le
    omega
  mode := by rw [modeFrom_add, h.mode]; exact hmore.mode

theorem Outside.take {text : Chars} {place stop : Nat} (h : Outside text place)
    (hstop : place ≤ stop) : Outside (text.take stop) place where
  le := by
    rw [List.length_take]
    exact Nat.le_min.2 ⟨hstop, h.le⟩
  mode := by
    rcases Nat.lt_or_eq_of_le hstop with hlt | rfl
    · rw [modeFrom_take_of_lt text .code hlt]
      exact h.mode
    · exact modeFrom_take text .code place h.mode

theorem Outside.of_take {text : Chars} {place stop : Nat} (h : Outside (text.take stop) place)
    (hlt : place < stop) : Outside text place where
  le := Nat.le_trans h.le (List.length_take_le' _ _)
  mode := by
    rw [← modeFrom_take_of_lt text .code hlt]
    exact h.mode

/-- A script cut outside of comments and strings. -/
theorem Outside.lex_eq {text : Chars} {place : Nat} (h : Outside text place) :
    lex text = lex (text.take place) ++ lexFrom .code place (text.drop place) := by
  rw [lex, lexFrom_split text .code 0 place h.mode h.le, Nat.zero_add]
  rfl

theorem outside_of_mem_code {text : Chars} {l : Lexeme} (h : l ∈ code text)
    (hl : l.char ≠ ' ' ∧ l.char ≠ '\n') :
    text[l.offset]? = some l.char ∧ Outside text l.offset ∧ Outside text (l.offset + 1) := by
  obtain ⟨hlex, hquoted⟩ := List.mem_filter.1 h
  obtain ⟨i, hi, hget, hcode, hcode'⟩ := exists_of_mem_lexFrom hlex ⟨by simpa using hquoted, hl⟩
  rw [Nat.zero_add] at hi
  obtain ⟨hlt, -⟩ := List.getElem?_eq_some_iff.1 hget
  rw [hi]
  exact ⟨hget, ⟨Nat.le_of_lt hlt, hcode⟩, ⟨hlt, hcode'⟩⟩

end ArchGraph.Sql
