import ArchGraph.Proofs.Sql.Blanking
import ArchGraph.Proofs.Text.Words
/-!
# Stripping what is stripped

A script without its comments is read as it stands, and so is any part of it that is cut off at
blanks. Hence a script that was stripped of its comments is not changed by being stripped again
(`stripComments_stripComments`).
-/

namespace ArchGraph.Sql

open Text (Chars isBlank trim)

/-- A text that is read as it stands. -/
def Plain (mode : Mode) (text : Chars) : Prop := (lexFrom mode 0 text).map (·.char) = text

theorem length_lexFrom_le : ∀ (text : Chars) (mode : Mode) (offset : Nat),
    (lexFrom mode offset text).length ≤ text.length
  | [], _, _ => Nat.le_refl _
  | c :: rest, mode, offset => by
    have ih := length_lexFrom_le rest (mode.after c rest.head?) (offset + 1)
    rw [lexFrom_cons, List.length_append, List.length_cons]
    cases mode.read? c rest.head? with
    | none => simp; omega
    | some r => simp; omega

/-- A text is read as it stands if each of its characters is. -/
theorem plain_cons {mode : Mode} {c : Char} {rest : Chars} : Plain mode (c :: rest) ↔
    (mode.read? c rest.head?).map (·.1) = some c ∧ Plain (mode.after c rest.head?) rest := by
  have hoffset := map_char_lexFrom rest (mode.after c rest.head?) (0 + 1) 0
  unfold Plain
  rw [lexFrom_cons, List.map_append, hoffset]
  cases hread : mode.read? c rest.head? with
  | none =>
    -- a character that is skipped leaves too few for the rest
    have hlength := length_lexFrom_le rest (mode.after c rest.head?) 0
    constructor
    · intro h
      have hcount := congrArg List.length h
      simp at hcount
      omega
    · rintro ⟨hnone, -⟩
      cases hnone
  | some r => simp

/-- A character that starts no comment's mark behind another one is read as if the text ended. -/
theorem Mode.look_eq_none (mode : Mode) (c : Char) {next : Option Char}
    (h : ∀ d ∈ next, d ≠ '-' ∧ d ≠ '*') :
    mode.after c next = mode.after c none ∧ mode.read? c next = mode.read? c none := by
  have hdash : next ≠ some '-' := fun hnext => (h '-' hnext).1 rfl
  have hstar : next ≠ some '*' := fun hnext => (h '*' hnext).2 rfl
  cases mode with
  | code => simp [after, read?, hdash, hstar]
  | string => exact ⟨rfl, rfl⟩
  | lineComment => exact ⟨rfl, rfl⟩
  | blockStart => exact ⟨rfl, rfl⟩
  | blockComment previous => exact ⟨rfl, rfl⟩

theorem ne_of_isBlank {c : Char} (hc : isBlank c = true) :
    c ≠ '\'' ∧ c ≠ '-' ∧ c ≠ '/' ∧ c ≠ '*' := by
  refine ⟨?_, ?_, ?_, ?_⟩ <;>
  · rintro rfl
    cases hc

/-- The part in front of blanks is read as it stands. -/
theorem Plain.front {back : Chars} (hback : ∀ c ∈ back, isBlank c = true) :
    ∀ {front : Chars} {mode : Mode}, Plain mode (front ++ back) → Plain mode front
  | [], _, _ => rfl
  | [c], mode, h => by
    rw [List.singleton_append] at h
    obtain ⟨hread, -⟩ := plain_cons.1 h
    have hnext : ∀ d ∈ back.head?, d ≠ '-' ∧ d ≠ '*' := by
      intro d hd
      have hd := ne_of_isBlank (hback d (List.mem_of_mem_head? hd))
      exact ⟨hd.2.1, hd.2.2.2⟩
    have hlook := mode.look_eq_none c hnext
    rw [hlook.2] at hread
    exact plain_cons.2 ⟨hread, rfl⟩
  | c :: d :: front, mode, h => by
    obtain ⟨hread, hrest⟩ := plain_cons.1 h
    exact plain_cons.2 ⟨hread, Plain.front hback hrest⟩

/-- The part behind blanks is read as it stands. -/
theorem Plain.behind {back : Chars} : ∀ {front : Chars}, (∀ c ∈ front, isBlank c = true) →
    Plain .code (front ++ back) → Plain .code back
  | [], _, h => h
  | c :: front, hfront, h => by
    obtain ⟨hc, hfront⟩ := List.forall_mem_cons.1 hfront
    obtain ⟨hquote, hdash, hslash, -⟩ := ne_of_isBlank hc
    have hafter : Mode.code.after c (front ++ back).head? = .code := by
      simp [Mode.after, hquote, hdash, hslash]
    rw [List.cons_append] at h
    obtain ⟨-, hrest⟩ := plain_cons.1 h
    rw [hafter] at hrest
    exact Plain.behind hfront hrest

/-- A script that was stripped is read as it stands. -/
theorem plain_stripComments (text : Chars) : Plain .code (stripComments text) := by
  obtain ⟨front, back, hsplit, hfront, hback⟩ := Text.exists_trim (read text)
  have hread : Plain .code (read text) := read_read text
  rw [hsplit, List.append_assoc] at hread
  exact (hread.behind hfront).front hback

/-- **Stripping again changes nothing.** -/
theorem stripComments_stripComments (text : Chars) :
    stripComments (stripComments text) = stripComments text := by
  calc stripComments (stripComments text) = trim (stripComments text) :=
        congrArg trim (plain_stripComments text)
    _ = stripComments text := Text.trim_trim (read text)

end ArchGraph.Sql
