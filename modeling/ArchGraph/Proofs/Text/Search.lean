import ArchGraph.Text.Case
import ArchGraph.Text.Lines
import Mathlib.Data.List.Forall2
/-!
# Searching a text for a needle

A needle that does not hold a mark stands in a text with the mark if it stands in front of it or
behind it (`contains_mark`), also in the lower case of the text if the mark has no case
(`contains_lower_mark`). The only letter whose lower case depends on the letters around it is the
sigma, so this takes a needle without one (`contains_lower`).
-/

namespace ArchGraph.Text

/-! ## Marks -/

theorem isPrefixOf_mark {mark : Char} (back : Chars) : ∀ {needle : Chars} (front : Chars),
    mark ∉ needle → needle.isPrefixOf (front ++ mark :: back) = needle.isPrefixOf front
  | [], front, _ => by rw [List.isPrefixOf_nil_left, List.isPrefixOf_nil_left]
  | d :: needle, [], h => by
    have hne : (d == mark) = false := by
      rw [beq_eq_false_iff_ne]
      rintro rfl
      exact h List.mem_cons_self
    rw [List.nil_append, List.isPrefixOf_cons_cons, hne]
    rfl
  | d :: needle, c :: front, h => by
    rw [List.cons_append, List.isPrefixOf_cons_cons, List.isPrefixOf_cons_cons,
      isPrefixOf_mark back front fun hmem => h (List.mem_cons_of_mem _ hmem)]

/-- **A needle stands on one side of a mark.** -/
theorem contains_mark {mark : Char} {needle : Chars} (hmark : mark ∉ needle) (hne : needle ≠ [])
    (back : Chars) : ∀ front : Chars,
    contains needle (front ++ mark :: back) = (contains needle front || contains needle back)
  | [] => by
    obtain ⟨d, needle, rfl⟩ := List.exists_cons_of_ne_nil hne
    have hprefix := isPrefixOf_mark back [] hmark
    rw [List.nil_append] at hprefix ⊢
    rw [contains, contains, hprefix]
    rfl
  | c :: front => by
    have hprefix := isPrefixOf_mark back (c :: front) hmark
    rw [List.cons_append] at hprefix ⊢
    rw [contains, contains, hprefix, contains_mark hmark hne back front, Bool.or_assoc]

/-- A text that is cut at a needle is put together again. -/
theorem eq_of_cut? {needle : Chars} : ∀ {text before after : Chars},
    cut? needle text = some (before, after) → text = before ++ needle ++ after
  | [], before, after, h => by
    rw [cut?] at h
    split at h
    · next hempty =>
      simp only [Option.some.injEq, Prod.mk.injEq] at h
      rw [← h.1, ← h.2, List.isEmpty_iff.1 hempty]
      rfl
    · cases h
  | c :: text, before, after, h => by
    rw [cut?] at h
    split at h
    · next hstart =>
      simp only [Option.some.injEq, Prod.mk.injEq] at h
      rw [← h.1, ← h.2]
      exact dropStart?_eq_some_iff.1 hstart
    · obtain ⟨⟨before', after'⟩, hcut, heq⟩ := Option.map_eq_some_iff.1 h
      simp only [Prod.mk.injEq] at heq
      rw [← heq.1, ← heq.2, eq_of_cut? hcut]
      rfl

/-! ## Letter case -/

/-- Two characters that are the same to a search for a needle. -/
def AlikeTo (needle : Chars) (c d : Char) : Prop := c = d ∨ c ∉ needle ∧ d ∉ needle

theorem isPrefixOf_alike {needle text text' : Chars}
    (h : List.Forall₂ (AlikeTo needle) text text') :
    ∀ {part : Chars}, part ⊆ needle → part.isPrefixOf text = part.isPrefixOf text' := by
  induction h with
  | nil => intro part _; rfl
  | @cons c d text text' hcd _ ih =>
    intro part hpart
    cases part with
    | nil => rfl
    | cons e part =>
      obtain ⟨he, hpart⟩ := List.cons_subset.1 hpart
      have hhead : (e == c) = (e == d) := by
        rcases hcd with rfl | ⟨hc, hd⟩
        · rfl
        · have hec : e ≠ c := fun h => hc (h ▸ he)
          have hed : e ≠ d := fun h => hd (h ▸ he)
          rw [beq_eq_false_iff_ne.2 hec, beq_eq_false_iff_ne.2 hed]
      rw [List.isPrefixOf_cons_cons, List.isPrefixOf_cons_cons, hhead, ih hpart]

theorem contains_alike {needle text text' : Chars} (h : List.Forall₂ (AlikeTo needle) text text') :
    contains needle text = contains needle text' := by
  induction h with
  | nil => rfl
  | cons hcd h ih =>
    rw [contains, contains, isPrefixOf_alike (.cons hcd h) (List.Subset.refl _), ih]

/-- The lower case of a text holds the lower case of each character, but for the sigmas. -/
theorem forall₂_lowerAfter {needle : Chars} (h : 'σ' ∉ needle ∧ 'ς' ∉ needle) :
    ∀ (text : Chars) (afterCased : Bool),
      List.Forall₂ (AlikeTo needle) (lowerAfter afterCased text) (text.flatMap lowerChar)
  | [], _ => .nil
  | c :: text, afterCased => by
    rw [lowerAfter, List.flatMap_cons]
    split
    · next hsigma =>
      have hlower : lowerChar c = ['σ'] := by
        rw [hsigma]
        decide
      rw [hlower]
      refine .cons ?_ (forall₂_lowerAfter h text _)
      split
      · exact .inr ⟨h.2, h.1⟩
      · exact .inl rfl
    · refine List.rel_append ?_ (forall₂_lowerAfter h text _)
      exact List.forall₂_same.2 fun _ _ => .inl rfl

/-- **Lower case character by character.** A search for a needle without a sigma need not look at
the letters around a letter. -/
theorem contains_lower {needle : Chars} (h : 'σ' ∉ needle ∧ 'ς' ∉ needle) (text : Chars) :
    contains needle (lower text) = contains needle (text.flatMap lowerChar) :=
  contains_alike (forall₂_lowerAfter h text false)

/-- A needle stands in the lower case of one side of a mark. -/
theorem contains_lower_mark {mark : Char} {needle : Chars} (hcase : lowerChar mark = [mark])
    (hmark : mark ∉ needle) (hne : needle ≠ []) (hsigma : 'σ' ∉ needle ∧ 'ς' ∉ needle)
    (front back : Chars) : contains needle (lower (front ++ mark :: back)) =
      (contains needle (lower front) || contains needle (lower back)) := by
  rw [contains_lower hsigma, contains_lower hsigma, contains_lower hsigma, List.flatMap_append,
    List.flatMap_cons, hcase, List.singleton_append, contains_mark hmark hne]

end ArchGraph.Text
