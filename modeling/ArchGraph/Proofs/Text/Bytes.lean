import ArchGraph.Text.Lines
import Mathlib.Data.List.Basic
/-!
# Places counted in bytes

A place of a text is the number of characters in front of it, or the number of their bytes. The
second way of counting has places that are none: inside of a character. A part is cut out of a text
only between places in order, inside of the text and at the bounds of characters
(`slice?_eq_some_iff`), so that cutting can fail; between the bytes of places in order it does not
(`slice?_bytesBefore`).
-/

namespace ArchGraph.Text

/-- How many bytes stand in front of a place. -/
def bytesBefore (text : Chars) (place : Nat) : Nat := byteLength (text.take place)

/-- The text in front of a number of bytes and the text behind them, unless they end inside of a
character or behind the text. -/
def splitBytes? : Nat → Chars → Option (Chars × Chars)
  | 0, text => some ([], text)
  | _ + 1, [] => none
  | bytes + 1, c :: rest =>
    if c.utf8Size ≤ bytes + 1 then
      (splitBytes? (bytes + 1 - c.utf8Size) rest).map fun (front, back) => (c :: front, back)
    else none

/-- The part of a text between two places counted in bytes. -/
def slice? (text : Chars) (start stop : Nat) : Option Chars :=
  if start ≤ stop then
    (splitBytes? stop text).bind fun (front, _) => (splitBytes? start front).map (·.2)
  else none

/-! ## Lengths -/

@[simp] theorem byteLength_nil : byteLength [] = 0 := rfl

theorem byteLength_append (front back : Chars) :
    byteLength (front ++ back) = byteLength front + byteLength back := by
  have hfrom (n : Nat) : ∀ text : Chars,
      text.foldl (fun n c => n + c.utf8Size) n = n + byteLength text := by
    intro text
    unfold byteLength
    induction text generalizing n with
    | nil => rfl
    | cons c text ih =>
      rw [List.foldl_cons, List.foldl_cons, ih, ih (0 + c.utf8Size)]
      omega
  unfold byteLength
  rw [List.foldl_append, hfrom]
  rfl

@[simp] theorem byteLength_cons (c : Char) (text : Chars) :
    byteLength (c :: text) = c.utf8Size + byteLength text := by
  simpa [byteLength] using byteLength_append [c] text

/-! ## Bytes in front of places -/

section

variable (text : Chars)

@[simp] theorem bytesBefore_zero : bytesBefore text 0 = 0 := rfl

@[simp] theorem bytesBefore_length : bytesBefore text text.length = byteLength text := by
  rw [bytesBefore, List.take_length]

theorem bytesBefore_take {place stop : Nat} (h : place ≤ stop) :
    bytesBefore (text.take stop) place = bytesBefore text place := by
  rw [bytesBefore, List.take_take, Nat.min_eq_left h]
  rfl

/-- Bytes are counted from a place on like characters. -/
theorem bytesBefore_add (place more : Nat) :
    bytesBefore text (place + more) = bytesBefore text place + bytesBefore (text.drop place) more := by
  rw [bytesBefore, List.take_add, byteLength_append]
  rfl

theorem bytesBefore_mono {place place' : Nat} (h : place ≤ place') :
    bytesBefore text place ≤ bytesBefore text place' := by
  obtain ⟨more, rfl⟩ := Nat.exists_eq_add_of_le h
  rw [bytesBefore_add]
  exact Nat.le_add_right _ _

theorem bytesBefore_append (back : Chars) {place : Nat} (h : place ≤ text.length) :
    bytesBefore (text ++ back) place = bytesBefore text place := by
  rw [bytesBefore, List.take_append_of_le_length h]
  rfl

/-- Behind a part that stands at a place its bytes have been counted, too. -/
theorem bytesBefore_behind {place : Nat} {part back : Chars} (h : text.drop place = part ++ back) :
    bytesBefore text (place + part.length) = bytesBefore text place + byteLength part := by
  rw [bytesBefore_add, h, bytesBefore_append _ _ (Nat.le_refl _), bytesBefore_length]

theorem bytesBefore_drop_one {place : Nat} (h : place < text.length) :
    bytesBefore (text.drop place) 1 = text[place].utf8Size := by
  rw [List.drop_eq_getElem_cons h]
  exact byteLength_cons _ []

theorem bytesBefore_lt_iff {place place' : Nat} (h : place' ≤ text.length) :
    bytesBefore text place < bytesBefore text place' ↔ place < place' := by
  constructor
  · intro hlt
    by_contra hle
    have hmono := bytesBefore_mono text (Nat.le_of_not_lt hle)
    omega
  · intro hlt
    have hget : place < text.length := by omega
    have hpos := text[place].utf8Size_pos
    have hmono := bytesBefore_mono text (Nat.succ_le_of_lt hlt)
    rw [Nat.succ_eq_add_one, bytesBefore_add, bytesBefore_drop_one text hget] at hmono
    omega

theorem bytesBefore_le_iff {place place' : Nat} (h : place ≤ text.length) :
    bytesBefore text place ≤ bytesBefore text place' ↔ place ≤ place' := by
  rw [← Nat.not_lt, bytesBefore_lt_iff text h, Nat.not_lt]

/-- A character of one byte takes one byte. -/
theorem bytesBefore_succ {place : Nat} {c : Char} (h : text[place]? = some c)
    (hc : c.utf8Size = 1) : bytesBefore text (place + 1) = bytesBefore text place + 1 := by
  obtain ⟨hlt, rfl⟩ := List.getElem?_eq_some_iff.1 h
  rw [bytesBefore_add, bytesBefore_drop_one text hlt, hc]

end

/-! ## Cutting -/

/-- **When a text can be split.** Behind a number of bytes exactly if it is that of a front part. -/
theorem splitBytes?_eq_some_iff : ∀ {bytes : Nat} {text front back : Chars},
    splitBytes? bytes text = some (front, back) ↔ text = front ++ back ∧ byteLength front = bytes
  | 0, text, front, back => by
    cases front with
    | nil => simp [splitBytes?]
    | cons c front =>
      have hpos := c.utf8Size_pos
      simp [splitBytes?]
      omega
  | bytes + 1, [], front, back => by
    cases front <;> simp [splitBytes?]
  | bytes + 1, c :: rest, [], back => by
    simp only [splitBytes?]
    split <;> simp
  | bytes + 1, c :: rest, d :: front, back => by
    by_cases hle : c.utf8Size ≤ bytes + 1
    · have hsplit : splitBytes? (bytes + 1) (c :: rest) = some (d :: front, back) ↔
          c = d ∧ splitBytes? (bytes + 1 - c.utf8Size) rest = some (front, back) := by
        rw [splitBytes?, if_pos hle, Option.map_eq_some_iff]
        constructor
        · rintro ⟨⟨front', back'⟩, hrest, heq⟩
          simp only [Prod.mk.injEq, List.cons.injEq] at heq
          obtain ⟨⟨rfl, rfl⟩, rfl⟩ := heq
          exact ⟨rfl, hrest⟩
        · rintro ⟨rfl, hrest⟩
          exact ⟨_, hrest, rfl⟩
      rw [hsplit, splitBytes?_eq_some_iff]
      simp only [List.cons_append, List.cons.injEq, byteLength_cons]
      constructor
      · rintro ⟨rfl, rfl, hbytes⟩
        exact ⟨⟨rfl, rfl⟩, by omega⟩
      · rintro ⟨⟨rfl, rfl⟩, hbytes⟩
        exact ⟨rfl, rfl, by omega⟩
    · rw [splitBytes?, if_neg hle]
      simp only [List.cons_append, List.cons.injEq, byteLength_cons, reduceCtorEq, false_iff]
      rintro ⟨⟨rfl, rfl⟩, hbytes⟩
      omega

/-- **When a part can be cut out.** Exactly if it starts behind a front part of the text, and the
bytes of both are those of its bounds. -/
theorem slice?_eq_some_iff {text part : Chars} {start stop : Nat} :
    slice? text start stop = some part ↔ ∃ front back, text = front ++ part ++ back ∧
      byteLength front = start ∧ byteLength (front ++ part) = stop := by
  unfold slice?
  constructor
  · intro h
    split at h
    · obtain ⟨⟨whole, back⟩, hstop, h⟩ := Option.bind_eq_some_iff.1 h
      obtain ⟨⟨front, part'⟩, hstart, rfl⟩ := Option.map_eq_some_iff.1 h
      obtain ⟨rfl, hwhole⟩ := splitBytes?_eq_some_iff.1 hstop
      obtain ⟨rfl, hfront⟩ := splitBytes?_eq_some_iff.1 hstart
      exact ⟨front, back, rfl, hfront, hwhole⟩
    · cases h
  · rintro ⟨front, back, rfl, hfront, hwhole⟩
    have hle : start ≤ stop := by
      rw [byteLength_append] at hwhole
      omega
    simp only [if_pos hle, splitBytes?_eq_some_iff.2 ⟨rfl, hwhole⟩, Option.bind_some,
      splitBytes?_eq_some_iff.2 ⟨rfl, hfront⟩, Option.map_some]

/-- A part that is cut out lies in the text. -/
theorem bounds_of_slice? {text part : Chars} {start stop : Nat}
    (h : slice? text start stop = some part) : start ≤ stop ∧ stop ≤ byteLength text := by
  obtain ⟨front, back, rfl, hstart, hstop⟩ := slice?_eq_some_iff.1 h
  rw [byteLength_append] at hstop ⊢
  rw [byteLength_append]
  omega

theorem length_le_byteLength : ∀ text : Chars, text.length ≤ byteLength text
  | [] => Nat.le_refl 0
  | c :: rest => by
    have hc := c.utf8Size_pos
    have ih := length_le_byteLength rest
    rw [List.length_cons, byteLength_cons]
    omega

/-- A part that is cut out has no more characters than the text has bytes. -/
theorem length_le_of_slice? {text part : Chars} {start stop : Nat}
    (h : slice? text start stop = some part) : part.length ≤ byteLength text := by
  obtain ⟨front, back, rfl, -, -⟩ := slice?_eq_some_iff.1 h
  have hpart := length_le_byteLength part
  rw [byteLength_append, byteLength_append]
  omega

section

variable (text : Chars)

/-- **Between places in order a part can be cut out.** -/
theorem slice?_bytesBefore {start stop : Nat} (h : start ≤ stop) :
    slice? text (bytesBefore text start) (bytesBefore text stop) =
      some ((text.take stop).drop start) := by
  have hfront : text.take start ++ (text.take stop).drop start = text.take stop := by
    have hsplit := List.take_append_drop start (text.take stop)
    rwa [List.take_take, Nat.min_eq_left h] at hsplit
  refine slice?_eq_some_iff.2 ⟨text.take start, text.drop stop, ?_, rfl, ?_⟩
  · rw [hfront, List.take_append_drop]
  · rw [hfront]
    rfl

/-- Behind a place the rest of the text can be cut out. -/
theorem slice?_from (place : Nat) :
    slice? text (bytesBefore text place) (byteLength text) = some (text.drop place) := by
  rcases Nat.le_total place text.length with h | h
  · rw [← bytesBefore_length, slice?_bytesBefore text h, List.take_length]
  · have hall : bytesBefore text place = byteLength text := by
      rw [bytesBefore, List.take_of_length_le h]
    rw [List.drop_eq_nil_of_le h, hall]
    exact slice?_eq_some_iff.2 ⟨text, [], by simp, rfl, by simp⟩

/-- The bytes in front of a place of a text, or all of them. -/
def IsBound (bytes : Nat) : Prop := ∃ place ≤ text.length, bytesBefore text place = bytes

variable {text} in
/-- **When cutting fails.** A part can be cut out exactly if its bounds are in order, inside of the
text and bounds of characters. -/
theorem isSome_slice?_iff {start stop : Nat} : (slice? text start stop).isSome = true ↔
    start ≤ stop ∧ stop ≤ byteLength text ∧ IsBound text start ∧ IsBound text stop := by
  constructor
  · intro h
    obtain ⟨part, hpart⟩ := Option.isSome_iff_exists.1 h
    obtain ⟨hordered, hle⟩ := bounds_of_slice? hpart
    obtain ⟨front, back, rfl, hstart, hstop⟩ := slice?_eq_some_iff.1 hpart
    refine ⟨hordered, hle, ⟨front.length, by simp, ?_⟩, ⟨(front ++ part).length, by simp, ?_⟩⟩
    · rw [bytesBefore, List.append_assoc, List.take_left, hstart]
    · rw [bytesBefore, List.take_left, hstop]
  · rintro ⟨hordered, -, ⟨place, hplace, rfl⟩, ⟨place', -, rfl⟩⟩
    rw [slice?_bytesBefore text ((bytesBefore_le_iff text hplace).1 hordered)]
    rfl

/-- No part starts inside of a character. -/
example : slice? "é".toList 1 2 = none := by decide

end

end ArchGraph.Text
