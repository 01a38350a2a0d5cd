import ArchGraph.Proofs.Pattern.Run
import Mathlib.Data.List.Forall2
/-!
# Searches on both sides of a mark

A pattern that takes no mark, a character that is no part of a word either, cannot tell the mark
from the end of the text, nor the place behind the mark from the start of a text
(`Pattern.run_agree`). A search of a text with a mark in it is therefore a search in front of the
mark and, if that finds nothing, one behind it (`Pattern.texts_first?_mark`).
-/

namespace ArchGraph

open Text (Chars isWord)

/-! ## Places that look alike -/

/-- Two places from which texts go on alike: from the first one the text has more behind, in which
nothing can be taken, and the second one is in a text that stops at `stop`. -/
structure Cursor.Agree (more : Chars) (shift stop : Nat) (s t : Cursor) : Prop where
  previous : s.previous.any isWord = t.previous.any isWord
  offset   : s.offset = t.offset + shift
  rest     : s.rest = t.rest ++ more
  inside   : t.offset + t.rest.length = stop

/-- The texts of groups. -/
def Groups.texts (g : Groups) : List (Nat × Chars) := g.map fun entry => (entry.1, entry.2.chars)

namespace Pattern

/-- Whether a pattern never takes a character, and asks about a place only whether a word starts or
ends there. -/
def avoids (mark : Char) : Pattern → Bool
  | nothing => true
  | one accepts | many accepts _ | few accepts => !accepts mark
  | look place => decide (place = .wordEdge)
  | seq first second | alt first second => first.avoids mark && second.avoids mark
  | opt body | group _ body => body.avoids mark

/-- A text that is empty or opens with a mark. -/
def Walled (mark : Char) (more : Chars) : Prop := ∀ c ∈ more.head?, c = mark

section

variable {mark : Char} {more : Chars} {shift stop : Nat}

theorem walled_nil (mark : Char) : Walled mark [] := by simp [Walled]

theorem walled_cons (mark : Char) (rest : Chars) : Walled mark (mark :: rest) := by simp [Walled]

/-- A character behind places that look alike is either the same or cannot be taken. -/
theorem agree_cons {s t : Cursor} {c : Char} {rest : Chars} (h : s.Agree more shift stop t)
    (ht : t.rest = c :: rest) : ∃ rest', s.rest = c :: rest' ∧
      Cursor.Agree more shift stop ⟨some c, s.offset + 1, rest'⟩ ⟨some c, t.offset + 1, rest⟩ := by
  have hinside := h.inside
  rw [ht, List.length_cons] at hinside
  have hoffset := h.offset
  refine ⟨rest ++ more, by rw [h.rest, ht, List.cons_append], rfl, ?_, rfl, ?_⟩
  · show s.offset + 1 = t.offset + 1 + shift
    omega
  · show t.offset + 1 + rest.length = stop
    omega

/-! ## Repetition -/

theorem forall₂_reach_append {accepts : Char → Bool} (hmark : accepts mark = false)
    (hmore : Walled mark more) : ∀ (rest : Chars) {previous previous' : Option Char}
    {offset offset' : Nat} {passed passed' : List Cursor},
    Cursor.Agree more shift stop ⟨previous, offset, rest ++ more⟩ ⟨previous', offset', rest⟩ →
    List.Forall₂ (Cursor.Agree more shift stop) passed passed' →
      List.Forall₂ (Cursor.Agree more shift stop)
        (reach accepts previous offset passed (rest ++ more))
        (reach accepts previous' offset' passed' rest)
  | [], _, _, _, _, _, _, h, hpassed => by
    cases more with
    | nil => exact .cons h hpassed
    | cons c more =>
      obtain rfl : c = mark := hmore c rfl
      rw [List.nil_append, reach, reach, if_neg (by simp [hmark])]
      exact .cons h hpassed
  | c :: rest, _, _, _, _, _, _, h, hpassed => by
    obtain ⟨_, hrest', hnext⟩ := agree_cons h rfl
    obtain rfl := (List.cons.inj hrest').2
    rw [List.cons_append, reach, reach]
    split
    · exact forall₂_reach_append hmark hmore rest hnext (.cons h hpassed)
    · exact .cons h hpassed

/-- From places that look alike a repetition reaches places that do. -/
theorem forall₂_reach {accepts : Char → Bool} {s t : Cursor} (hmark : accepts mark = false)
    (hmore : Walled mark more) (h : s.Agree more shift stop t) :
    List.Forall₂ (Cursor.Agree more shift stop)
      (reach accepts s.previous s.offset [] s.rest)
      (reach accepts t.previous t.offset [] t.rest) := by
  rw [h.rest]
  exact forall₂_reach_append hmark hmore t.rest (h.rest ▸ h) .nil

theorem forall₂_takeWhile {α β : Type} {related : α → β → Prop} {p : α → Bool} {q : β → Bool}
    (hpq : ∀ a b, related a b → p a = q b) {l : List α} {l' : List β}
    (h : List.Forall₂ related l l') :
    List.Forall₂ related (l.takeWhile p) (l'.takeWhile q) := by
  induction h with
  | nil => exact .nil
  | cons hab _ ih =>
    rw [List.takeWhile_cons, List.takeWhile_cons, hpq _ _ hab]
    split
    · exact .cons hab ih
    · exact .nil

theorem findSome?_of_forall₂ {α β γ δ : Type} {related : α → β → Prop} {f : α → Option γ}
    {f' : β → Option γ} {said : γ → δ}
    (hf : ∀ a b, related a b → (f a).map said = (f' b).map said) {l : List α} {l' : List β}
    (h : List.Forall₂ related l l') : (l.findSome? f).map said = (l'.findSome? f').map said := by
  rw [List.map_findSome?, List.map_findSome?]
  induction h with
  | nil => rfl
  | cons hab _ ih =>
    rw [List.findSome?_cons, List.findSome?_cons, ih]
    simp only [Function.comp_apply, hf _ _ hab]

/-! ## Runs -/

theorem run_alt {α : Type} (first second : Pattern) (s : Cursor) (g : Groups)
    (next : Cursor → Groups → Option α) :
    (alt first second).run s g next = (first.run s g next).or (second.run s g next) := by
  rw [run]
  cases first.run s g next <;> rfl

theorem run_opt_eq {α : Type} (body : Pattern) (s : Cursor) (g : Groups)
    (next : Cursor → Groups → Option α) :
    (opt body).run s g next = (body.run s g next).or (next s g) := by
  rw [run]
  cases body.run s g next <;> rfl

/-- What a group takes at places that look alike. -/
theorem chars_agree {s t s' t' : Cursor} (h : s.Agree more shift stop t)
    (h' : s'.Agree more shift stop t') : (⟨s.offset, s'.offset, s.rest⟩ : Span).chars =
      (⟨t.offset, t'.offset, t.rest⟩ : Span).chars := by
  have hlength : t'.offset - t.offset ≤ t.rest.length := by
    have hinside := h.inside
    have hinside' := h'.inside
    omega
  have hoffsets : s'.offset - s.offset = t'.offset - t.offset := by
    rw [h.offset, h'.offset]
    omega
  rw [Span.chars, Span.chars, hoffsets, h.rest, List.take_append_of_le_length hlength]

/-- **Runs do not see past a mark.** What is found behind places that look alike says the same if
what stands behind the pattern finds what says the same. -/
theorem run_agree {α β : Type} {said : α → β} (hword : isWord mark = false)
    (hmore : Walled mark more) : ∀ {p : Pattern}, p.avoids mark = true →
    ∀ {s t : Cursor} {g g' : Groups} {next next' : Cursor → Groups → Option α},
      s.Agree more shift stop t → g.texts = g'.texts →
      (∀ s t g g', s.Agree more shift stop t → Groups.texts g = Groups.texts g' →
        (next s g).map said = (next' t g').map said) →
      (p.run s g next).map said = (p.run t g' next').map said
  | nothing, _, _, _, _, _, _, _, h, hg, hnext => hnext _ _ _ _ h hg
  | one accepts, hp, s, t, g, g', next, next', h, hg, hnext => by
    have hmark : accepts mark = false := by simpa [avoids] using hp
    rw [run, run]
    cases ht : t.rest with
    | nil =>
      have hs : s.rest = more := by rw [h.rest, ht, List.nil_append]
      rw [hs]
      cases more with
      | nil => rfl
      | cons c more =>
        obtain rfl : c = mark := hmore c rfl
        simp [hmark]
    | cons c rest =>
      obtain ⟨rest', hs, hbehind⟩ := agree_cons h ht
      rw [hs]
      by_cases hc : accepts c = true
      · simpa [hc] using hnext _ _ _ _ hbehind hg
      · simp [hc]
  | many accepts least, hp, s, t, g, g', next, next', h, hg, hnext => by
    have hmark : accepts mark = false := by simpa [avoids] using hp
    refine findSome?_of_forall₂ (fun a b hab => hnext a b g g' hab hg)
      (forall₂_takeWhile (fun a b hab => ?_) (forall₂_reach hmark hmore h))
    rw [decide_eq_decide, hab.offset, h.offset]
    omega
  | few accepts, hp, s, t, g, g', next, next', h, hg, hnext => by
    have hmark : accepts mark = false := by simpa [avoids] using hp
    exact findSome?_of_forall₂ (fun a b hab => hnext a b g g' hab hg)
      (List.forall₂_reverse_iff.2 (forall₂_reach hmark hmore h))
  | look place, hp, s, t, g, g', next, next', h, hg, hnext => by
    obtain rfl : place = .wordEdge := by simpa [avoids] using hp
    have hahead : s.rest.head?.any isWord = t.rest.head?.any isWord := by
      rw [h.rest]
      cases t.rest with
      | nil =>
        cases more with
        | nil => rfl
        | cons c more =>
          obtain rfl : c = mark := hmore c rfl
          simpa using hword
      | cons c rest => rfl
    have hplace : s.satisfies .wordEdge = t.satisfies .wordEdge := by
      rw [Cursor.satisfies, Cursor.satisfies, h.previous, hahead]
    rw [run, run, hplace]
    split
    · exact hnext _ _ _ _ h hg
    · rfl
  | seq first second, hp, s, t, g, g', next, next', h, hg, hnext => by
    obtain ⟨hfirst, hsecond⟩ := Bool.and_eq_true_iff.1 hp
    exact run_agree hword hmore hfirst h hg fun _ _ _ _ h' hg' =>
      run_agree hword hmore hsecond h' hg' hnext
  | alt first second, hp, s, t, g, g', next, next', h, hg, hnext => by
    obtain ⟨hfirst, hsecond⟩ := Bool.and_eq_true_iff.1 hp
    rw [run_alt, run_alt, Option.map_or, Option.map_or, run_agree hword hmore hfirst h hg hnext,
      run_agree hword hmore hsecond h hg hnext]
  | opt body, hp, s, t, g, g', next, next', h, hg, hnext => by
    rw [run_opt_eq, run_opt_eq, Option.map_or, Option.map_or,
      run_agree (p := body) hword hmore hp h hg hnext, hnext _ _ _ _ h hg]
  | group index body, hp, s, t, g, g', next, next', h, hg, hnext => by
    refine run_agree (p := body) hword hmore hp h hg fun s' t' g₁ g₁' h' hg₁ => ?_
    refine hnext _ _ _ _ h' ?_
    rw [Groups.texts, Groups.texts, List.map_cons, List.map_cons, chars_agree h h']
    exact congrArg _ hg₁

/-! ## Searches -/

theorem matchAt?_agree {p : Pattern} (hp : p.avoids mark = true) (hword : isWord mark = false)
    (hmore : Walled mark more) {s t : Cursor} (h : s.Agree more shift stop t) :
    (p.matchAt? s).map (·.groups.texts) = (p.matchAt? t).map (·.groups.texts) :=
  run_agree hword hmore hp h rfl fun _ _ _ _ _ hg => congrArg some hg

theorem searchFrom_cons (p : Pattern) (previous : Option Char) (offset : Nat) (c : Char)
    (rest : Chars) : p.searchFrom previous offset (c :: rest) =
      (p.matchAt? ⟨previous, offset, c :: rest⟩).or (p.searchFrom (some c) (offset + 1) rest) := by
  rw [searchFrom]
  cases p.matchAt? ⟨previous, offset, c :: rest⟩ <;> rfl

/-- A search does not depend on where in a text it starts, as far as a word may start there. -/
theorem searchFrom_agree {p : Pattern} (hp : p.avoids mark = true) (hword : isWord mark = false) :
    ∀ (rest : Chars) {s t : Cursor}, s.Agree [] shift stop t → t.rest = rest →
      (p.searchFrom s.previous s.offset s.rest).map (·.groups.texts) =
        (p.searchFrom t.previous t.offset t.rest).map (·.groups.texts)
  | [], s, t, h, ht => by
    have hs : s.rest = [] := by rw [h.rest, ht]; rfl
    have hmatch := matchAt?_agree hp hword (walled_nil mark) h
    obtain ⟨previous, offset, rest⟩ := s
    obtain ⟨previous', offset', rest'⟩ := t
    obtain rfl : rest = [] := hs
    obtain rfl : rest' = [] := ht
    exact hmatch
  | c :: rest, s, t, h, ht => by
    obtain ⟨more, hs, hbehind⟩ := agree_cons h ht
    have hmatch := matchAt?_agree hp hword (walled_nil mark) h
    have ih := searchFrom_agree hp hword rest hbehind rfl
    obtain ⟨previous, offset, text⟩ := s
    obtain ⟨previous', offset', text'⟩ := t
    obtain rfl : text = c :: more := hs
    obtain rfl : text' = c :: rest := ht
    rw [searchFrom_cons, searchFrom_cons, Option.map_or, Option.map_or, hmatch, ih]

theorem searchFrom_mark {p : Pattern} (hp : p.avoids mark = true) (hword : isWord mark = false)
    (back : Chars) : ∀ (front : Chars) (previous : Option Char) (offset : Nat),
    (p.searchFrom previous offset (front ++ mark :: back)).map (·.groups.texts) =
      ((p.searchFrom previous offset front).map (·.groups.texts)).or
        ((p.first? back).map (·.groups.texts))
  | [], previous, offset => by
    have hhere : Cursor.Agree (mark :: back) 0 offset ⟨previous, offset, mark :: back⟩
        ⟨previous, offset, []⟩ := ⟨rfl, rfl, rfl, rfl⟩
    have hbehind : Cursor.Agree [] (offset + 1) back.length ⟨some mark, offset + 1, back⟩
        (.start back) :=
      ⟨hword, (Nat.zero_add _).symm, (List.append_nil _).symm, Nat.zero_add _⟩
    rw [List.nil_append, searchFrom_cons, Option.map_or,
      matchAt?_agree hp hword (walled_cons mark back) hhere]
    exact congrArg _ (searchFrom_agree hp hword back hbehind rfl)
  | c :: front, previous, offset => by
    have hhere : Cursor.Agree (mark :: back) 0 (offset + (c :: front).length)
        ⟨previous, offset, c :: front ++ mark :: back⟩ ⟨previous, offset, c :: front⟩ :=
      ⟨rfl, rfl, rfl, rfl⟩
    have hmatch := matchAt?_agree hp hword (walled_cons mark back) hhere
    rw [List.cons_append] at hmatch ⊢
    rw [searchFrom_cons, searchFrom_cons, Option.map_or, Option.map_or, Option.or_assoc, hmatch,
      searchFrom_mark hp hword back front]

/-- **A search stops at a mark and goes on behind it.** -/
theorem texts_first?_mark {p : Pattern} (hp : p.avoids mark = true)
    (hword : isWord mark = false) (front back : Chars) :
    (p.first? (front ++ mark :: back)).map (·.groups.texts) =
      ((p.first? front).map (·.groups.texts)).or ((p.first? back).map (·.groups.texts)) :=
  searchFrom_mark hp hword back front none 0

end

end Pattern
end ArchGraph
