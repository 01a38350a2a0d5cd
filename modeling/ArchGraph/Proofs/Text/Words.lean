import ArchGraph.Proofs.Path.Names
import ArchGraph.Proofs.Text.Mention
/-!
# Trimmed texts and their words

A trimmed text starts and ends with a character that is no blank, so trimming it again changes
nothing (`trim_trim`), and the words of a text are its runs of other characters than blanks, one
behind the other (`words_append`), which trimming leaves alone (`words_trim`).
-/

namespace ArchGraph.Text

/-! ## Trimming -/

theorem dropEndWhile_dropEndWhile (drop : Char → Bool) (text : Chars) :
    dropEndWhile drop (dropEndWhile drop text) = dropEndWhile drop text := by
  induction text with
  | nil => rfl
  | cons c text ih =>
    rw [dropEndWhile_cons]
    split
    · rfl
    · next hkeep => rw [dropEndWhile_cons, ih, if_neg hkeep]

/-- Dropping at the end stops at a character that is kept. -/
theorem dropEndWhile_append_cons {drop : Char → Bool} {c : Char} (hc : drop c = false)
    (back : Chars) : ∀ front : Chars,
    dropEndWhile drop (front ++ c :: back) = front ++ c :: dropEndWhile drop back
  | [] => by
    rw [List.nil_append, dropEndWhile_cons, hc, Bool.and_false]
    rfl
  | d :: front => by
    rw [List.cons_append, dropEndWhile_cons, dropEndWhile_append_cons hc back front,
      if_neg (by simp), List.cons_append]

/-- The last character that is left is one that is kept. -/
theorem keeps_getLast_dropEndWhile (drop : Char → Bool) : ∀ text : Chars,
    ∀ c ∈ (dropEndWhile drop text).getLast?, drop c = false
  | [], _, h => by cases h
  | d :: text, c, h => by
    have ih := keeps_getLast_dropEndWhile drop text c
    rw [dropEndWhile_cons] at h
    split at h
    · cases h
    · next hkeep =>
      cases hrest : dropEndWhile drop text with
      | nil =>
        rw [hrest] at h hkeep
        obtain rfl : d = c := by simpa using h
        simpa using hkeep
      | cons e rest =>
        rw [hrest, List.getLast?_cons_cons] at h
        exact ih (hrest ▸ h)

/-- Nothing is dropped exactly if the last character is kept. -/
theorem dropEndWhile_eq_self_iff {drop : Char → Bool} {text : Chars} :
    dropEndWhile drop text = text ↔ ∀ c ∈ text.getLast?, drop c = false := by
  constructor
  · intro hkept
    have hlast := keeps_getLast_dropEndWhile drop text
    rwa [hkept] at hlast
  · intro hlast
    rcases List.eq_nil_or_concat text with rfl | ⟨front, c, rfl⟩
    · rfl
    · rw [List.concat_eq_append, List.getLast?_concat] at hlast
      rw [List.concat_eq_append]
      exact dropEndWhile_append_cons (hlast c rfl) [] front

/-- A trimmed text starts with a character that is no blank. -/
theorem isBlank_of_head_trim {text : Chars} {c : Char} (h : (trim text).head? = some c) :
    isBlank c = false := by
  have hkept : ∀ rest : Chars, (dropEndWhile isBlank rest).head? = some c →
      rest.head? = some c := by
    intro rest hrest
    cases rest with
    | nil => cases hrest
    | cons d rest =>
      rw [dropEndWhile_cons] at hrest
      split at hrest
      · cases hrest
      · exact hrest
  have hhead := List.head?_dropWhile_not isBlank text
  rw [hkept _ h] at hhead
  simpa using hhead

/-- A trimmed text ends with a character that is no blank. -/
theorem isBlank_of_getLast_trim {text : Chars} {c : Char} (h : c ∈ (trim text).getLast?) :
    isBlank c = false := keeps_getLast_dropEndWhile isBlank _ c h

/-- A text that starts with no blank is trimmed exactly if it ends with none. -/
theorem trim_eq_self_iff {text : Chars} (h : ∀ c ∈ text.head?, isBlank c = false) :
    trim text = text ↔ ∀ c ∈ text.getLast?, isBlank c = false := by
  have hfront : text.dropWhile isBlank = text := by
    cases text with
    | nil => rfl
    | cons c rest => rw [List.dropWhile_cons_of_neg (by simp [h c rfl])]
  rw [trim, trimMatches, hfront]
  exact dropEndWhile_eq_self_iff

/-- Trimming a trimmed text changes nothing. -/
theorem trim_trim (text : Chars) : trim (trim text) = trim text := by
  have hfront : (trim text).dropWhile isBlank = trim text := by
    cases htrim : trim text with
    | nil => rfl
    | cons c rest =>
      have hc := isBlank_of_head_trim (by rw [htrim]; rfl : (trim text).head? = some c)
      rw [List.dropWhile_cons_of_neg (by simp [hc])]
  unfold trim trimMatches at hfront ⊢
  rw [hfront, dropEndWhile_dropEndWhile]

/-- A text without blanks is trimmed. -/
theorem trim_eq_self {text : Chars} (h : ∀ c ∈ text, isBlank c = false) : trim text = text := by
  obtain ⟨front, back, hsplit, hfront, hback⟩ := exists_trim text
  have hnil : ∀ part : Chars, (∀ c ∈ part, isBlank c = true) → part ⊆ text → part = [] := by
    intro part hblank hpart
    apply List.eq_nil_iff_forall_not_mem.2
    intro c hc
    have hc' := h c (hpart hc)
    simp [hblank c hc] at hc'
  rw [hnil front hfront (by rw [hsplit]; simp), hnil back hback (by rw [hsplit]; simp)] at hsplit
  simpa using hsplit.symm

/-! ## Words -/

/-- The words on both sides of a blank. -/
theorem words_append_cons_blank {c : Char} (hc : isBlank c = true) (front back : Chars) :
    words (front ++ c :: back) = words front ++ words back := by
  unfold words
  rw [pieces_eq_splitOnP, List.splitOnP_append_cons _ _ hc, List.filter_append,
    ← pieces_eq_splitOnP, ← pieces_eq_splitOnP]

/-- A blank in front of a text adds no word. -/
theorem words_cons_blank {c : Char} (hc : isBlank c = true) (text : Chars) :
    words (c :: text) = words text := words_append_cons_blank hc [] text

theorem words_of_blank : ∀ {text : Chars}, (∀ c ∈ text, isBlank c = true) → words text = []
  | [], _ => rfl
  | c :: text, h => by
    obtain ⟨hc, htext⟩ := List.forall_mem_cons.1 h
    rw [words_cons_blank hc, words_of_blank htext]

/-- A text that ends in a blank has no part of a word with what stands behind it. -/
theorem words_append_of_blank {front : Chars} (h : ∃ c ∈ front.getLast?, isBlank c = true)
    (back : Chars) : words (front ++ back) = words front ++ words back := by
  obtain ⟨c, hc, hblank⟩ := h
  obtain ⟨lead, rfl⟩ := List.getLast?_eq_some_iff.1 hc
  rw [List.append_assoc, List.singleton_append, words_append_cons_blank hblank,
    words_append_cons_blank hblank, words_of_blank (by simp : ∀ c ∈ [], isBlank c = true),
    List.append_nil]

/-- Trimming a text takes no word away. -/
theorem words_trim (text : Chars) : words (trim text) = words text := by
  obtain ⟨front, back, hsplit, hfront, hback⟩ := exists_trim text
  have hlead : words (front ++ (trim text ++ back)) = words (trim text ++ back) := by
    cases hlast : front.getLast? with
    | none => rw [List.getLast?_eq_none_iff.1 hlast, List.nil_append]
    | some c =>
      have hc := hfront c (List.mem_of_getLast? hlast)
      rw [words_append_of_blank ⟨c, hlast, hc⟩, words_of_blank hfront, List.nil_append]
  have htail : words (trim text ++ back) = words (trim text) := by
    cases back with
    | nil => rw [List.append_nil]
    | cons c back =>
      obtain ⟨hc, hback⟩ := List.forall_mem_cons.1 hback
      rw [words_append_cons_blank hc, words_of_blank hback, List.append_nil]
  have htext : text = front ++ (trim text ++ back) := by rw [← List.append_assoc, ← hsplit]
  rw [← htail, ← hlead, ← htext]

/-- **The first word of a text.** A run of other characters than blanks, up to a blank or the end of
the text, is a word, and the other words are those behind it. -/
theorem words_append {word rest : Chars} (hne : word ≠ []) (hword : ∀ c ∈ word, isBlank c = false)
    (hrest : ∀ c ∈ rest.head?, isBlank c = true) : words (word ++ rest) = word :: words rest := by
  cases rest with
  | nil =>
    rw [List.append_nil]
    unfold words
    rw [pieces_eq_splitOnP, List.splitOnP_eq_singleton hword]
    simp [pieces, hne]
  | cons c rest =>
    have hc := hrest c rfl
    rw [words_cons_blank hc]
    unfold words
    rw [pieces_eq_splitOnP, List.splitOnP_append_cons_of_forall_mem hword c hc,
      ← pieces_eq_splitOnP]
    simp [hne]

end ArchGraph.Text
