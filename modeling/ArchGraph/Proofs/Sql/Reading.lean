import ArchGraph.Proofs.Sql.Modes
import ArchGraph.Proofs.Text.Mention
import ArchGraph.Sql.Schema
/-!
# What is read past comments stands in the script

A comment leaves a blank behind or nothing in front of a line feed, so characters that are read one
behind the other, with no blank between them, stand one behind the other in the script: what a
script without its comments mentions is mentioned by the script (`Mentions.of_stripComments`). The
parts into which definitions and alterations are cut end at a bracket, a comma or a semicolon, or
with the script (`endsAt_of_mem_items`).
-/

namespace ArchGraph.Sql

open Text (Chars isBlank isWord Solid Ends Mentions ends_nil ends_cons)

/-! ## Words past comments -/

/-- Outside of comments every character that is read next stands here. -/
def Mode.Reads (mode : Mode) : Prop := mode = .code ∨ mode = .string

/-- The first character that is read from the inside of a line comment on is its line feed. -/
theorem head_lexFrom_lineComment : ∀ {text : Chars} {offset : Nat},
    ∀ l ∈ (lexFrom .lineComment offset text).head?, l.char = '\n'
  | [], _, _, h => by cases h
  | c :: text, offset, l, h => by
    rw [lexFrom] at h
    split at h
    · next hc => cases h; exact hc
    · exact head_lexFrom_lineComment l h

/-- A word that is read right from the start of a text starts the text. -/
theorem exists_of_lexFrom_append : ∀ {text word back : Chars} {mode : Mode} {offset : Nat},
    mode.Reads → (∀ c ∈ word, isBlank c = false) → Ends back →
      (lexFrom mode offset text).map (·.char) = word ++ back →
        ∃ back', text = word ++ back' ∧ Ends back'
  | [], word, back, _, _, _, _, _, h => by
    obtain ⟨rfl, rfl⟩ := List.append_eq_nil_iff.1 (show word ++ back = [] from h.symm)
    exact ⟨[], rfl, ends_nil⟩
  | c :: text, word, back, mode, offset, hmode, hword, hback, h => by
    have here {m : Mode} {q : Bool} (hm : m.Reads)
        (h : ((⟨offset, c, q⟩ : Lexeme) :: lexFrom m (offset + 1) text).map (·.char) =
          word ++ back) : ∃ back', c :: text = word ++ back' ∧ Ends back' := by
      cases word with
      | nil => subst h; exact ⟨c :: text, rfl, hback⟩
      | cons d word =>
        obtain ⟨rfl, hrest⟩ := List.cons.inj h
        obtain ⟨back', rfl, hends⟩ :=
          exists_of_lexFrom_append hm (fun d hd => hword d (List.mem_cons_of_mem _ hd)) hback hrest
        exact ⟨back', rfl, hends⟩
    -- a comment starts: nothing of the word can be read behind it without a blank
    have comment (hc : isWord c = false) (h : ∀ d ∈ (word ++ back).head?, isBlank d = true) :
        ∃ back', c :: text = word ++ back' ∧ Ends back' := by
      cases word with
      | nil => exact ⟨c :: text, rfl, ends_cons text hc⟩
      | cons d word => exact absurd (h d rfl) (by simp [hword d List.mem_cons_self])
    rcases hmode with rfl | rfl
    · rw [lexFrom] at h
      split at h
      · exact here (.inr rfl) h
      · split at h
        · next hc =>
          refine comment (hc.1 ▸ by decide) fun d hd => ?_
          rw [← h, List.head?_map] at hd
          obtain ⟨l, hl, rfl⟩ := Option.map_eq_some_iff.1 hd
          rw [head_lexFrom_lineComment l hl]
          decide
        · split at h
          · next hc =>
            refine comment (hc.1 ▸ by decide) fun d hd => ?_
            rw [← h, List.map_cons, List.head?_cons, Option.mem_some_iff] at hd
            exact hd ▸ (by decide : isBlank ' ' = true)
          · exact here (.inl rfl) h
    · exact here (by split; exacts [.inl rfl, .inr rfl]) h

/-- A word that is read right behind a block comment stands behind its slash. -/
theorem mentions_of_lexFrom_blockComment : ∀ {text word back : Chars} {previous : Char}
    {offset : Nat}, Solid word → Ends back →
      (lexFrom (.blockComment previous) offset text).map (·.char) = word ++ back →
        Mentions text word
  | [], word, back, _, _, hword, _, h => by
    exact absurd (List.append_eq_nil_iff.1 (show word ++ back = [] from h.symm)).1 hword.1
  | c :: text, word, back, previous, offset, hword, hback, h => by
    rw [lexFrom] at h
    split at h
    · next hc =>
      obtain ⟨back', rfl, hends⟩ := exists_of_lexFrom_append (.inl rfl) hword.2 hback h
      exact ⟨[], c, back', rfl, hc.2 ▸ by decide, hends⟩
    · exact (mentions_of_lexFrom_blockComment hword hback h).of_part
        (show c :: text = [c] ++ text ++ [] by simp) ends_nil

/-- A word that is read behind a character of no word stands in the text. -/
theorem mentions_of_lexFrom : ∀ {text word front back : Chars} {d : Char} {mode : Mode}
    {offset : Nat}, Solid word → isWord d = false → Ends back →
      (lexFrom mode offset text).map (·.char) = front ++ d :: (word ++ back) → Mentions text word
  | [], _, front, _, _, _, _, _, _, _, h => by simp [lexFrom] at h
  | c :: text, word, front, back, d, mode, offset, hword, hd, hback, h => by
    have behind (h : Mentions text word) : Mentions (c :: text) word :=
      h.of_part (show c :: text = [c] ++ text ++ [] by simp) ends_nil
    have later {m : Mode}
        (h : (lexFrom m (offset + 1) text).map (·.char) = front ++ d :: (word ++ back)) :
        Mentions (c :: text) word := behind (mentions_of_lexFrom hword hd hback h)
    have here {m : Mode} {q : Bool} (hm : m.Reads)
        (h : ((⟨offset, c, q⟩ : Lexeme) :: lexFrom m (offset + 1) text).map (·.char) =
          front ++ d :: (word ++ back)) : Mentions (c :: text) word := by
      cases front with
      | nil =>
        obtain ⟨rfl, hrest⟩ := List.cons.inj h
        obtain ⟨back', rfl, hends⟩ := exists_of_lexFrom_append hm hword.2 hback hrest
        exact ⟨[], c, back', rfl, hd, hends⟩
      | cons e front => exact behind (mentions_of_lexFrom hword hd hback (List.cons.inj h).2)
    cases mode with
    | code =>
      rw [lexFrom] at h
      split at h
      · exact here (.inr rfl) h
      · split at h
        · exact later h
        · split at h
          · cases front with
            | nil =>
              cases text with
              | nil => exact absurd (List.append_eq_nil_iff.1 (List.cons.inj h).2.symm).1 hword.1
              | cons star text =>
                exact behind ((mentions_of_lexFrom_blockComment hword hback
                  (List.cons.inj h).2).of_part
                    (show star :: text = [star] ++ text ++ [] by simp) ends_nil)
            | cons e front => exact behind (mentions_of_lexFrom hword hd hback (List.cons.inj h).2)
          · exact here (.inl rfl) h
    | string => exact here (by split; exacts [.inl rfl, .inr rfl]) h
    | lineComment =>
      rw [lexFrom] at h
      split at h
      · exact here (.inl rfl) h
      · exact later h
    | blockStart => exact later h
    | blockComment previous => exact later h

/-- **Comments hide no word.** What a text without its comments mentions, the text mentions. -/
theorem mentions_of_stripComments {text word : Chars} (hword : Solid word)
    (h : Mentions (stripComments text) word) : Mentions text word := by
  obtain ⟨front, d, back, htext, hd, hback⟩ := h.of_trim
  exact mentions_of_lexFrom hword hd hback htext

/-! ## Where parts end -/

theorem exists_of_closing? : ∀ {ls : List Lexeme} {depth place : Nat},
    closing? depth ls = some place → ∃ l ∈ ls, l.char = ')' ∧ l.offset = place
  | [], _, _, h => by cases h
  | l :: ls, depth, place, h => by
    have later {depth : Nat} (h : closing? depth ls = some place) :
        ∃ l' ∈ l :: ls, l'.char = ')' ∧ l'.offset = place :=
      (exists_of_closing? h).imp fun _ hl => ⟨List.mem_cons_of_mem _ hl.1, hl.2⟩
    rw [closing?] at h
    split at h
    · exact later h
    · split at h
      · next hclose =>
        split at h
        · exact ⟨l, List.mem_cons_self, hclose, Option.some.inj h⟩
        · exact later h
      · exact later h

theorem exists_of_mem_topCommas : ∀ {ls : List Lexeme} {depth : Int} {place : Nat},
    place ∈ topCommas depth ls → ∃ l ∈ ls, l.char = ',' ∧ l.offset = place
  | [], _, _, h => by cases h
  | l :: ls, depth, place, h => by
    have later {depth : Int} (h : place ∈ topCommas depth ls) :
        ∃ l' ∈ l :: ls, l'.char = ',' ∧ l'.offset = place :=
      (exists_of_mem_topCommas h).imp fun _ hl => ⟨List.mem_cons_of_mem _ hl.1, hl.2⟩
    rw [topCommas] at h
    split at h
    · exact later h
    · split at h
      · exact later h
      · split at h
        · next hcomma =>
          rcases List.mem_cons.1 h with rfl | h
          · exact ⟨l, List.mem_cons_self, hcomma.1, rfl⟩
          · exact later h
        · exact later h

/-- Where a word may end: at the end of the text or at a character of no word. -/
def EndsAt (text : Chars) (place : Nat) : Prop := Ends (text.drop place)

theorem endsAt_of_getElem? {text : Chars} {place : Nat} {c : Char} (h : text[place]? = some c)
    (hc : isWord c = false) : EndsAt text place := by
  intro d hd
  rw [List.head?_drop, h] at hd
  exact Option.some.inj hd ▸ hc

theorem endsAt_length (text : Chars) : EndsAt text text.length := by
  rw [EndsAt, List.drop_length]
  exact ends_nil

theorem endsAt_matchingParen {text : Chars} {start close : Nat}
    (h : matchingParen? text start = some close) : EndsAt text close := by
  obtain ⟨place, hplace, rfl⟩ := Option.map_eq_some_iff.1 h
  obtain ⟨l, hl, hchar, rfl⟩ := exists_of_closing? hplace
  have hget := (outside_of_mem_code hl (by rw [hchar]; decide)).1
  rw [List.getElem?_drop, hchar] at hget
  exact endsAt_of_getElem? hget (by decide)

theorem endsAt_semicolon {text : Chars} (start : Nat) :
    EndsAt text ((semicolon? text start).getD text.length) := by
  cases h : semicolon? text start with
  | none => exact endsAt_length text
  | some place =>
    obtain ⟨l, hl, rfl⟩ := Option.map_eq_some_iff.1 h
    have hchar : l.char = ';' := by simpa using List.find?_some hl
    have hget := (outside_of_mem_code (List.mem_of_find?_eq_some hl) (by rw [hchar]; decide)).1
    rw [List.getElem?_drop, hchar] at hget
    exact endsAt_of_getElem? hget (by decide)

theorem stop_of_mem_cutAt : ∀ {places : List Nat} {start stop : Nat} {r : Region},
    r ∈ cutAt start stop places → r.stop = stop ∨ r.stop ∈ places
  | [], _, _, _, h => by
    rw [cutAt, List.mem_singleton] at h
    exact .inl (h ▸ rfl)
  | place :: places, start, stop, r, h => by
    rcases List.mem_cons.1 h with rfl | h
    · exact .inr List.mem_cons_self
    · exact (stop_of_mem_cutAt h).imp id (List.mem_cons_of_mem _)

/-- Items end where a word may end. -/
theorem endsAt_of_mem_items {text : Chars} {r item : Region} (h : item ∈ items text r)
    (hr : EndsAt text r.stop) : EndsAt text item.stop := by
  rcases stop_of_mem_cutAt h with hstop | hstop
  · rwa [hstop]
  · obtain ⟨place, hplace, hstop⟩ := List.mem_map.1 hstop
    obtain ⟨l, hl, hchar, rfl⟩ := exists_of_mem_topCommas hplace
    have hget := (outside_of_mem_code hl (by rw [hchar]; decide)).1
    rw [Region.chars, List.getElem?_drop, List.getElem?_take, hchar] at hget
    split at hget
    · exact hstop ▸ endsAt_of_getElem? hget (by decide)
    · cases hget

/-- What a part of a script mentions, the script mentions. -/
theorem mentions_of_region {text word : Chars} {r : Region} (hr : EndsAt text r.stop)
    (h : Mentions (r.chars text) word) : Mentions text word := by
  refine h.of_part (?_ : text = (text.take r.stop).take r.start ++ r.chars text ++ _) hr
  rw [Region.chars, List.take_append_drop, List.take_append_drop]

end ArchGraph.Sql
