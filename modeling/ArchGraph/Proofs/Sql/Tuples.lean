import ArchGraph.Pattern.Sql
import ArchGraph.Proofs.Pattern.Spelling
/-!
# Tuples in a list of values

A search for tuples finds every pair of brackets with no bracket in between, and nothing else
(`exists_mem_all_sqlTuple`). Hence it finds the tuples of a list of values if they have no brackets
of their own, and then goes on in the clause behind the list (`TupleList.innermost_iff`).
-/

namespace ArchGraph.Sql

open Pattern
open Text (Chars isBlank)

/-! ## Innermost brackets -/

/-- A text holds a pair of brackets with a part that has no brackets in between. -/
def Innermost (text inner : Chars) : Prop :=
  ∃ front back, text = front ++ '(' :: (inner ++ ')' :: back) ∧ '(' ∉ inner ∧ ')' ∉ inner

section

variable {text inner back tuple : Chars}

/-- A character in front of a text opens one more pair of brackets, or none. -/
theorem innermost_cons_iff {c : Char} : Innermost (c :: text) tuple ↔
    (∃ back, c :: text = '(' :: (tuple ++ ')' :: back) ∧ '(' ∉ tuple ∧ ')' ∉ tuple) ∨
      Innermost text tuple := by
  constructor
  · rintro ⟨front, back, htext, hinner⟩
    cases front with
    | nil => exact .inl ⟨back, htext, hinner⟩
    | cons d front => exact .inr ⟨front, back, (List.cons.inj htext).2, hinner⟩
  · rintro (⟨back, htext, hinner⟩ | ⟨front, back, rfl, hinner⟩)
    · exact ⟨[], back, htext, hinner⟩
    · exact ⟨c :: front, back, rfl, hinner⟩

/-- Characters that open no bracket may stand in front of a text. -/
theorem innermost_append {gap : Chars} (hgap : '(' ∉ gap) :
    Innermost (gap ++ text) tuple ↔ Innermost text tuple := by
  induction gap with
  | nil => rfl
  | cons c gap ih =>
    have hc : c ≠ '(' := by
      rintro rfl
      exact hgap List.mem_cons_self
    rw [List.cons_append, innermost_cons_iff, ih fun h => hgap (List.mem_cons_of_mem _ h)]
    simp [hc]

theorem takeWhile_bracket (hclose : ')' ∉ inner) :
    (inner ++ ')' :: back).takeWhile (· != ')') = inner := by
  rw [List.takeWhile_append_of_pos]
  · simp
  · intro c hc
    simp only [bne_iff_ne]
    rintro rfl
    exact hclose hc

/-- Behind a pair of brackets with no bracket in between the text starts anew. -/
theorem innermost_bracket (hopen : '(' ∉ inner) (hclose : ')' ∉ inner) :
    Innermost ('(' :: (inner ++ ')' :: back)) tuple ↔ tuple = inner ∨ Innermost back tuple := by
  have hrest : Innermost (inner ++ ')' :: back) tuple ↔ Innermost back tuple := by
    rw [innermost_append hopen, innermost_cons_iff]
    simp
  rw [innermost_cons_iff, hrest]
  apply or_congr_left
  constructor
  · rintro ⟨back', hsplit, -, hclose'⟩
    calc tuple = (tuple ++ ')' :: back').takeWhile (· != ')') := (takeWhile_bracket hclose').symm
      _ = (inner ++ ')' :: back).takeWhile (· != ')') := by rw [(List.cons.inj hsplit).2]
      _ = inner := takeWhile_bracket hclose
  · rintro rfl
    exact ⟨back, rfl, hopen, hclose⟩

end

/-! ## The search for tuples -/

theorem spells_sqlTuple {text : Chars} : sqlTuple.Spells text ↔
    ∃ inner, text = '(' :: (inner ++ [')']) ∧ '(' ∉ inner ∧ ')' ∉ inner := by
  constructor
  · rintro ⟨_, _, rfl, ⟨_, inner, rfl, hopens, hinner, -⟩, hcloses⟩
    obtain rfl := spells_lit.1 hopens
    obtain rfl := spells_lit.1 hcloses
    refine ⟨inner, by simp, fun hmem => ?_, fun hmem => ?_⟩
    · simpa using hinner _ hmem
    · simpa using hinner _ hmem
  · rintro ⟨inner, rfl, hopen, hclose⟩
    have hinner : ∀ c ∈ inner, (c != '(' && c != ')') = true := by
      intro c hc
      simp only [Bool.and_eq_true, bne_iff_ne]
      exact ⟨fun h => hopen (h ▸ hc), fun h => hclose (h ▸ hc)⟩
    exact ⟨'(' :: inner, [')'], rfl, ⟨['('], inner, rfl, spells_lit.2 rfl, hinner, Nat.zero_le _⟩,
      spells_lit.2 rfl⟩

/-- A tuple starts at a bracket and goes on to the next bracket, which closes it. -/
theorem tuple_of_match {s : Cursor} {m : Match} (h : sqlTuple.matchAt? s = some m) :
    ∃ back, s.rest = '(' :: ((m.text 1).toList ++ ')' :: back) ∧ '(' ∉ (m.text 1).toList ∧
      ')' ∉ (m.text 1).toList := by
  obtain ⟨opened, closed, back, hrest, hopened, ⟨hinner, -⟩, hclosed⟩ :=
    spells_of_group rfl rfl rfl (by decide) h
  obtain rfl := spells_lit.1 hopened
  obtain rfl := spells_lit.1 hclosed
  refine ⟨back, hrest, fun hmem => ?_, fun hmem => ?_⟩
  · simpa using hinner _ hmem
  · simpa using hinner _ hmem

/-- **What a search for tuples finds.** The tuples that are found are the pairs of brackets with no
bracket in between. -/
theorem exists_mem_all_sqlTuple {text tuple : Chars} :
    (∃ m ∈ sqlTuple.all text, m.text 1 = String.ofList tuple) ↔ Innermost text tuple := by
  constructor
  · rintro ⟨m, hm, htext⟩
    obtain ⟨front, s, hs, hmatch⟩ := exists_of_mem_all hm
    obtain ⟨back, hrest, hbrackets⟩ := tuple_of_match hmatch
    rw [htext, String.toList_ofList] at hrest hbrackets
    exact ⟨front, back, by rw [hs.split, hrest], hbrackets⟩
  · rintro ⟨front, back, htext, hopen, hclose⟩
    have hspells : sqlTuple.Spells ('(' :: (tuple ++ [')'])) :=
      spells_sqlTuple.2 ⟨tuple, rfl, hopen, hclose⟩
    obtain ⟨s, m, hs, hrest, hm⟩ := exists_match_of_spells front back rfl hspells
    have hs : s.Stands text front := by
      rw [htext]
      simpa using hs
    obtain ⟨back', hrest', -, hclose'⟩ := tuple_of_match hm
    have hboth : (m.text 1).toList ++ ')' :: back' = tuple ++ ')' :: back := by
      simpa using hrest'.symm.trans hrest
    have htuple : (m.text 1).toList = tuple := by
      rw [← takeWhile_bracket hclose', hboth, takeWhile_bracket hclose]
    -- a tuple holds no other bracket that could open one
    have hmark : ∀ taken, sqlTuple.Spells taken → ∃ inner, taken = '(' :: inner ∧ '(' ∉ inner := by
      intro taken htaken
      obtain ⟨inner, rfl, hinner, -⟩ := spells_sqlTuple.1 htaken
      exact ⟨_, rfl, by simpa using hinner⟩
    exact ⟨m, mem_all_of_mark rfl hmark hs hm, by rw [← htuple, String.ofList_toList]⟩

/-! ## Lists of tuples -/

/-- A text starts with a list of tuples without brackets of their own, with white space and commas
around them; a clause may follow. -/
inductive TupleList : Chars → List Chars → Chars → Prop
  | nil {clause} : TupleList clause [] clause
  | cons {gap tuple rest tuples clause} : (∀ c ∈ gap, isBlank c = true ∨ c = ',') →
      '(' ∉ tuple → ')' ∉ tuple → TupleList rest tuples clause →
        TupleList (gap ++ '(' :: (tuple ++ ')' :: rest)) (tuple :: tuples) clause

/-- **The tuples of a list and of its clause.** A pair of brackets is a tuple of the list or stands
in the clause behind it. -/
theorem TupleList.innermost_iff {text clause tuple : Chars} {tuples : List Chars}
    (h : TupleList text tuples clause) :
    Innermost text tuple ↔ tuple ∈ tuples ∨ Innermost clause tuple := by
  induction h with
  | nil => simp
  | @cons gap inner rest tuples clause hgap hopen hclose _ ih =>
    have hbracket : '(' ∉ gap := by
      intro hmem
      rcases hgap _ hmem with hblank | hcomma
      · cases hblank
      · cases hcomma
    rw [innermost_append hbracket, innermost_bracket hopen hclose, ih, List.mem_cons, or_assoc]

end ArchGraph.Sql
