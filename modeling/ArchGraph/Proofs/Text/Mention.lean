import ArchGraph.Text.Case
import ArchGraph.Text.Lines
import Mathlib.Data.List.Infix
import Mathlib.Data.List.TakeWhile
/-!
# Words that stand in a text

Which characters a word in lower case comes from, and what it takes for a word to stand on its
own. A text whose lower case is made of ASCII letters other than `k` is made of ASCII letters
itself (`lower_eq_ascii`): beyond ASCII only the Kelvin sign and the capital I with a dot reach an
ASCII letter. A word that a part of a text mentions is mentioned by the text if the part ends where
a word may end (`Mentions.of_part`).
-/

namespace ArchGraph.Text

/-! ## Letters -/

/-- The lower case of a run stays beyond ASCII, and no run moves a character out of the code
points. The Kelvin sign is the exception. -/
theorem lowerRuns_beyond : ∀ run ∈ lowerRuns, run = ⟨0x212A, 0x212A, 1, -8383⟩ ∨
    0x80 ≤ run.first + run.shift ∧
      (run.last + run.shift < 0xD800 ∨ 0xDFFF < run.first + run.shift ∧
        run.last + run.shift < 0x110000) := by
  decide +kernel

/-- The run that moves a code point, and where to. -/
theorem exists_of_shifted {code : Nat} {d : Char} (h : shifted lowerRuns code = some d) :
    ∃ run ∈ lowerRuns, run.holds code = true ∧ d.toNat = ((code : Int) + run.shift).toNat := by
  obtain ⟨run, hrun, rfl⟩ := Option.map_eq_some_iff.1 h
  have hmem := List.mem_of_find?_eq_some hrun
  have hholds := List.find?_some hrun
  refine ⟨run, hmem, hholds, ?_⟩
  simp only [CaseRun.holds, Bool.and_eq_true, decide_eq_true_eq] at hholds
  have hchar : ((code : Int) + run.shift).toNat.isValidChar := by
    simp only [Nat.isValidChar]
    rcases lowerRuns_beyond run hmem with rfl | ⟨-, hvalid⟩
    · dsimp only at hholds ⊢
      omega
    · omega
  rw [Char.ofNat, dif_pos hchar]
  rfl

theorem toNat_shifted {code : Nat} {d : Char} (h : shifted lowerRuns code = some d) :
    d = 'k' ∨ 0x80 ≤ d.toNat := by
  obtain ⟨run, hrun, hholds, hcode⟩ := exists_of_shifted h
  simp only [CaseRun.holds, Bool.and_eq_true, decide_eq_true_eq] at hholds
  rcases lowerRuns_beyond run hrun with rfl | ⟨hlow, -⟩
  · left
    rw [← Char.ofNat_toNat d, hcode, show code = 0x212A by dsimp only at hholds; omega]
    decide
  · exact .inr (by omega)

/-- The lower case of an ASCII letter other than `k` comes from ASCII only. -/
theorem eq_toLower_of_lowerChar {c : Char} {rest word : Chars} (h : lowerChar c ++ rest = word)
    (hword : ∀ d ∈ word, d.toNat < 0x80 ∧ d ≠ 'k') :
    c.toNat < 0x80 ∧ c.toLower :: rest = word := by
  subst h
  by_cases hc : c.toNat < 0x80
  · rw [lowerChar, if_pos hc]
    exact ⟨hc, rfl⟩
  · rw [lowerChar, if_neg hc] at hword
    split at hword
    · exact absurd (hword '\u0307' (by simp)).1 (by decide)
    · obtain ⟨hascii, hk⟩ := hword _ (List.mem_append_left _ (List.mem_singleton_self _))
      cases hd : shifted lowerRuns c.toNat with
      | none => rw [hd] at hascii; exact absurd hascii hc
      | some d =>
        rw [hd] at hascii hk
        exact ((toNat_shifted hd).elim hk fun hfar => Nat.not_lt.2 hfar hascii).elim

/-- **Case folding is ASCII folding.** A text whose lower case is a word of ASCII letters other
than `k` is spelt with ASCII letters. -/
theorem lower_eq_ascii {text word : Chars} (h : lower text = word)
    (hword : ∀ d ∈ word, d.toNat < 0x80 ∧ d ≠ 'k') :
    (∀ c ∈ text, c.toNat < 0x80) ∧ text.map Char.toLower = word :=
  go h hword
where
  go : ∀ {text word : Chars} {afterCased : Bool}, lowerAfter afterCased text = word →
      (∀ d ∈ word, d.toNat < 0x80 ∧ d ≠ 'k') →
        (∀ c ∈ text, c.toNat < 0x80) ∧ text.map Char.toLower = word
    | [], _, _, h, _ => by subst h; exact ⟨by simp, rfl⟩
    | c :: text, word, afterCased, h, hword => by
      rw [lowerAfter] at h
      split at h
      · have hsigma := (hword _ (h ▸ List.mem_cons_self)).1
        split at hsigma <;> exact absurd hsigma (by decide)
      · obtain ⟨hc, rfl⟩ := eq_toLower_of_lowerChar h hword
        rw [lowerChar, if_pos hc] at h
        obtain ⟨hrest, hmap⟩ := go (List.cons.inj h).2
          fun d hd => hword d (List.mem_cons_of_mem _ hd)
        exact ⟨List.forall_mem_cons.2 ⟨hc, hrest⟩, by rw [List.map_cons, hmap]⟩

theorem isWord_of_toLower {c : Char} (hc : c.toNat < 0x80) (h : c.toLower.isAlphanum = true) :
    isWord c = true := by
  have hall : ∀ n < 0x80, (Char.ofNat n).toLower.isAlphanum = true →
      isWord (Char.ofNat n) = true := by decide
  rw [← Char.ofNat_toNat c] at h ⊢
  exact hall _ hc h

/-- The code points of blanks. -/
def blankCodes : List Nat :=
  List.range' 9 5 ++ [0x20, 0x85, 0xA0, 0x1680] ++ List.range' 0x2000 11 ++
    [0x2028, 0x2029, 0x202F, 0x205F, 0x3000]

theorem mem_blankCodes {c : Char} (h : isBlank c = true) : c.toNat ∈ blankCodes := by
  unfold blankCodes
  simp only [isBlank, Bool.or_eq_true, Bool.and_eq_true, decide_eq_true_eq, beq_iff_eq] at h
  simp only [List.mem_append, List.mem_range'_1, List.mem_cons, List.not_mem_nil, or_false]
  omega

/-- No blank is a part of a word. -/
theorem isWord_of_isBlank {c : Char} (h : isBlank c = true) : isWord c = false := by
  have hall : ∀ n ∈ blankCodes, isWord (Char.ofNat n) = false := by decide +kernel
  rw [← Char.ofNat_toNat c]
  exact hall _ (mem_blankCodes h)

/-- Blanks have no case. -/
theorem lowerChar_of_isBlank {c : Char} (h : isBlank c = true) : lowerChar c = [c] := by
  have hall : ∀ n ∈ blankCodes, lowerChar (Char.ofNat n) = [Char.ofNat n] := by decide
  rw [← Char.ofNat_toNat c]
  exact hall _ (mem_blankCodes h)

/-- A character without a case stays in the lower case of a text. -/
theorem mem_lower {c : Char} (hc : lowerChar c = [c]) {text : Chars} (h : c ∈ text) :
    c ∈ lower text := by
  have hsigma : c ≠ 'Σ' := by
    rintro rfl
    revert hc
    decide
  have hafter : ∀ (rest : Chars) (afterCased : Bool), c ∈ rest → c ∈ lowerAfter afterCased rest := by
    intro rest
    induction rest with
    | nil =>
      intro _ hmem
      cases hmem
    | cons d rest ih =>
      intro afterCased hmem
      rw [lowerAfter]
      rcases List.mem_cons.1 hmem with rfl | hmem
      · rw [if_neg hsigma, hc]
        exact List.mem_append_left _ (List.mem_singleton_self _)
      · split
        · exact List.mem_cons_of_mem _ (ih _ hmem)
        · exact List.mem_append_right _ (ih _ hmem)
  exact hafter text false h

/-! ## Parts -/

theorem exists_dropEndWhile (drop : Char → Bool) : ∀ text : Chars,
    ∃ back, text = dropEndWhile drop text ++ back ∧ ∀ c ∈ back, drop c = true
  | [] => ⟨[], rfl, by simp⟩
  | c :: text => by
    obtain ⟨back, htext, hback⟩ := exists_dropEndWhile drop text
    rw [dropEndWhile_cons]
    split
    · next hdrop =>
      rw [Bool.and_eq_true, List.isEmpty_iff] at hdrop
      rw [hdrop.1, List.nil_append] at htext
      subst htext
      exact ⟨c :: text, rfl, List.forall_mem_cons.2 ⟨hdrop.2, hback⟩⟩
    · exact ⟨back, congrArg (c :: ·) htext, hback⟩

/-- A text is its trimmed part between blanks. -/
theorem exists_trim (text : Chars) : ∃ front back, text = front ++ trim text ++ back ∧
    (∀ c ∈ front, isBlank c = true) ∧ ∀ c ∈ back, isBlank c = true := by
  obtain ⟨back, hback, hblank⟩ := exists_dropEndWhile isBlank (text.dropWhile isBlank)
  refine ⟨text.takeWhile isBlank, back, ?_, fun c hc => List.mem_takeWhile_imp hc, hblank⟩
  rw [trim, trimMatches, List.append_assoc, ← hback, List.takeWhile_append_dropWhile]

/-! ## Mentions -/

/-- A word as far as it can be told apart: at least one character and no blank. -/
def Solid (word : Chars) : Prop := word ≠ [] ∧ ∀ c ∈ word, isBlank c = false

/-- What a word may end in front of: the end of a text or a character of no word. -/
def Ends (back : Chars) : Prop := ∀ c ∈ back.head?, isWord c = false

/-- A text mentions a word: the word stands behind a character of no word and ends there. -/
def Mentions (text word : Chars) : Prop :=
  ∃ front c back, text = front ++ c :: (word ++ back) ∧ isWord c = false ∧ Ends back

theorem ends_iff {back : Chars} : Ends back ↔ back.head?.any isWord = false := by
  cases back <;> simp [Ends]

theorem ends_nil : Ends [] := by simp [Ends]

theorem ends_cons {c : Char} (back : Chars) (h : isWord c = false) : Ends (c :: back) := by
  simpa [Ends] using h

theorem ends_of_blank {back : Chars} (h : ∀ c ∈ back, isBlank c = true) : Ends back :=
  fun c hc => isWord_of_isBlank (h c (List.mem_of_mem_head? hc))

theorem Ends.append {back back' : Chars} (h : Ends back) (h' : Ends back') :
    Ends (back ++ back') := by
  cases back with
  | nil => exact h'
  | cons => exact h

/-- **Parts mention what the text mentions.** A part must end where a word may end, its start does
not matter. -/
theorem Mentions.of_part {part word : Chars} (h : Mentions part word) {text front back : Chars}
    (htext : text = front ++ part ++ back) (hback : Ends back) : Mentions text word := by
  obtain ⟨front', c, back', rfl, hc, hends⟩ := h
  exact ⟨front ++ front', c, back' ++ back, by simp [htext], hc, hends.append hback⟩

theorem Mentions.of_trim {text word : Chars} (h : Mentions (trim text) word) :
    Mentions text word := by
  obtain ⟨front, back, htext, -, hback⟩ := exists_trim text
  exact h.of_part htext (ends_of_blank hback)

end ArchGraph.Text
