import ArchGraph.Proofs.Pattern.Run
import ArchGraph.Proofs.Sql.Reading
/-!
# Spellings of the platform's users table

A column's reference and a mention of the users table are read by two patterns. The first one lets
double quotes stand around the schema and around the name, the second one lets none stand next to
the dot. A reference that names the users table is a word that spells it
(`mentions_of_references`), and a spelling without quotes next to its dot is found as a mention
(`isSome_authUsers`).
-/

namespace ArchGraph.Sql

open Pattern
open Text (Chars isBlank isWord lower lowercase sameLetter Solid Ends Mentions)

/-! ## Keywords -/

theorem run_concat_cons {α : Type} (p : Pattern) (ps : List Pattern) (s : Cursor) (g : Groups)
    (next : Cursor → Groups → Option α) : (concat (p :: ps)).run s g next =
      p.run s g fun s' g' => (concat ps).run s' g' next := by
  cases ps <;> rfl

/-- A keyword is read off any of its spellings. -/
theorem run_keyword {α : Type} {next : Cursor → Groups → Option α} {g : Groups} {back : Chars}
    (keyword : String) {word : Chars}
    (h : word.map Char.toLower = keyword.toList.map Char.toLower) {s : Cursor}
    (hs : s.rest = word ++ back) :
    (Pattern.keyword keyword).run s g next = next (s.behind word back) g := by
  rw [Pattern.keyword]
  generalize keyword.toList = letters at h ⊢
  induction letters generalizing word s with
  | nil =>
    obtain rfl : word = [] := by simpa using h
    obtain rfl : back = s.rest := hs.symm
    rfl
  | cons letter letters ih =>
    cases word with
    | nil => simp at h
    | cons c word =>
      rw [List.map_cons, List.map_cons, List.cons.injEq] at h
      have hsame : sameLetter letter c = true := by simp [sameLetter, h.1]
      rw [List.map_cons, run_concat_cons, run, hs, List.cons_append]
      simp only [if_pos hsame]
      rw [ih rfl h.2]
      exact congrArg (next · g) (s.behind_behind [c] word (word ++ back) back)

/-! ## Spellings -/

/-- At most one double quote. -/
def Quote (quote : Chars) : Prop := quote = [] ∨ quote = ['"']

/-- A word spells the users table with `before` and `after` around its dot. -/
def SpellsUsers (before after word : Chars) : Prop :=
  ∃ schema table, word = schema ++ before ++ '.' :: (after ++ table) ∧
    lower schema = "auth".toList ∧ lower table = "users".toList

/-- A part that is spelt with ASCII letters is made of word characters. -/
theorem isWord_of_lower {part letters : Chars} (h : lower part = letters)
    (hletters : ∀ d ∈ letters, (d.toNat < 0x80 ∧ d ≠ 'k') ∧ d.isAlphanum = true) :
    ∀ c ∈ part, isWord c = true := by
  obtain ⟨hascii, hmap⟩ := Text.lower_eq_ascii h fun d hd => (hletters d hd).1
  intro c hc
  exact Text.isWord_of_toLower (hascii c hc) (hletters _ (hmap ▸ List.mem_map_of_mem hc)).2

theorem Quote.subset {quote : Chars} (h : Quote quote) : ∀ c ∈ quote, c = '"' := by
  rcases h with rfl | rfl <;> simp

theorem SpellsUsers.solid {before after word : Chars} (h : SpellsUsers before after word)
    (hbefore : Quote before) (hafter : Quote after) : Solid word := by
  obtain ⟨schema, table, rfl, hschema, htable⟩ := h
  have blank {c : Char} (h : isWord c = true) : isBlank c = false := by
    by_contra hc
    rw [Text.isWord_of_isBlank (by simpa using hc)] at h
    cases h
  refine ⟨by simp, fun c hc => ?_⟩
  simp only [List.mem_append, List.mem_cons] at hc
  rcases hc with (hc | hc) | rfl | hc | hc
  · exact blank (isWord_of_lower hschema (by decide) c hc)
  · exact hbefore.subset c hc ▸ by decide
  · decide
  · exact hafter.subset c hc ▸ by decide
  · exact blank (isWord_of_lower htable (by decide) c hc)

/-! ## The mention of an unquoted spelling -/

/-- **Unquoted mentions are found.** A text that mentions the users table without quotes next to
the dot has a match of the pattern for it. -/
theorem isSome_authUsers {text word : Chars} (hword : SpellsUsers [] [] word)
    (h : Mentions text word) : (authUsers.first? text).isSome := by
  obtain ⟨schema, table, rfl, hschema, htable⟩ := hword
  obtain ⟨front, c, back, rfl, hc, hback⟩ := h
  have hschemaWord := isWord_of_lower hschema (by decide)
  have htableWord := isWord_of_lower htable (by decide)
  obtain ⟨-, hschema⟩ := Text.lower_eq_ascii hschema (by decide)
  obtain ⟨-, htable⟩ := Text.lower_eq_ascii htable (by decide)
  have hhead : (schema ++ '.' :: (table ++ back)).head?.any isWord = true := by
    cases schema with
    | nil => simp at hschema
    | cons d schema => exact hschemaWord d List.mem_cons_self
  have hne : table ≠ [] := by
    rintro rfl
    simp at htable
  have hlast := List.getLast?_eq_some_getLast hne
  let s : Cursor := ⟨some c, (front ++ [c]).length, schema ++ '.' :: (table ++ back)⟩
  let t : Cursor := (s.behind schema ('.' :: (table ++ back))).behind ['.'] (table ++ back)
  have hstands : s.Stands (front ++ c :: (schema ++ [] ++ '.' :: ([] ++ table) ++ back))
      (front ++ [c]) := ⟨by simp [s], by simp [s], rfl⟩
  have hstart : s.satisfies .wordEdge = true := by
    rw [Cursor.satisfies, hhead, Option.any_some, hc]
    rfl
  have hstop : (t.behind table back).satisfies .wordEdge = true := by
    rw [Cursor.satisfies, Cursor.behind, hlast, Text.ends_iff.1 hback, Option.some_or, Option.any_some,
      htableWord _ (List.getLast_mem hne)]
    rfl
  refine isSome_first? hstands ?_
  rw [matchAt?, authUsers, run_seq, run_seq, run_seq, run_seq, edge, run, if_pos hstart,
    run_keyword "auth" hschema rfl]
  show ((keyword "users").run t [] _).isSome
  rw [run_keyword "users" htable rfl, run, if_pos hstop]
  rfl

/-! ## The reading of a reference -/

theorem run_optQuote {α : Type} {s : Cursor} {g : Groups} {next : Cursor → Groups → Option α}
    {a : α} (h : optQuote.run s g next = some a) : ∃ quote rest, Quote quote ∧
      s.rest = quote ++ rest ∧ next (s.behind quote rest) g = some a := by
  rcases run_opt h with h | h
  · obtain ⟨c, rest, hrest, hc, hnext⟩ := run_one h
    obtain rfl : c = '"' := beq_iff_eq.1 hc
    exact ⟨['"'], rest, .inr rfl, hrest, hnext⟩
  · exact ⟨[], s.rest, .inl rfl, rfl, h⟩

/-- The character in front of a name behind white space, with or without a double quote. -/
theorem exists_last_of_gap {gap quote : Chars} (hblank : ∀ c ∈ gap, isBlank c = true)
    (hleast : 1 ≤ gap.length) (hquote : Quote quote) :
    ∃ front c, gap ++ quote = front ++ [c] ∧ isWord c = false := by
  rcases hquote with rfl | rfl
  · have hne : gap ≠ [] := List.ne_nil_of_length_pos hleast
    exact ⟨gap.dropLast, gap.getLast hne, by rw [List.append_nil, List.dropLast_append_getLast],
      Text.isWord_of_isBlank (hblank _ (List.getLast_mem hne))⟩
  · exact ⟨gap, '"', rfl, by decide⟩

/-- A reference with a schema: the schema and the name stand around a dot, behind a character of no
word, and the name ends where a word may end. -/
theorem exists_of_references {text : Chars} {m : Match} (h : references.first? text = some m)
    (hgroup : (m.group? 1).isSome) : ∃ before after schema table front c back,
      text = front ++ c :: (schema ++ before ++ '.' :: (after ++ table) ++ back) ∧
        isWord c = false ∧ Ends back ∧ Quote before ∧ Quote after ∧
          (m.group? 1).map Span.chars = some schema ∧ m.text 2 = String.ofList table := by
  obtain ⟨front, s, hs, h⟩ := first?_eq_some h
  rw [matchAt?, references, qualified] at h
  simp only [run_seq] at h
  obtain ⟨-, h⟩ := run_look h
  obtain ⟨word, rest, more, hword, hmore, h⟩ := exists_run _ h
  obtain ⟨gap, rest', hgap, hblank, hleast, h⟩ := run_many h
  rcases run_opt h with h | h
  · simp only [run_seq, name, run_group] at h
    obtain ⟨quote, rest₁, hquote, hrest₁, h⟩ := run_optQuote h
    obtain ⟨schema, rest₂, hrest₂, -, -, h⟩ := run_many h
    obtain ⟨before, rest₃, hbefore, hrest₃, h⟩ := run_optQuote h
    obtain ⟨dot, rest₄, hrest₄, hdot, h⟩ := run_one h
    obtain ⟨after, rest₅, hafter, hrest₅, h⟩ := run_optQuote h
    obtain ⟨table, rest₆, hrest₆, -, hstop, h⟩ := run_many_of_total (fun s g =>
      isSome_run_opt (isSome_run_opt rfl)) h
    obtain ⟨_, rest₇, -, -, h⟩ := run_optQuote h
    obtain ⟨_, rest₈, more', -, hmore', h⟩ := exists_run _ h
    obtain rfl := Option.some.inj h
    obtain ⟨before', c, hlast, hc⟩ := exists_last_of_gap hblank hleast hquote
    refine ⟨before, after, schema, table, front ++ word ++ before', c, rest₆, ?_, hc, ?_, hbefore,
      hafter, ?_, ?_⟩
    · calc text = front ++ s.rest := hs.split
        _ = front ++ (word ++ (gap ++ (quote ++ (schema ++ (before ++ dot :: (after ++
              (table ++ rest₆))))))) := by
          rw [hword, show rest = gap ++ rest' from hgap, show rest' = quote ++ rest₁ from hrest₁,
            show rest₁ = schema ++ rest₂ from hrest₂, show rest₂ = before ++ rest₃ from hrest₃,
            show rest₃ = dot :: rest₄ from hrest₄, show rest₄ = after ++ rest₅ from hrest₅,
            show rest₅ = table ++ rest₆ from hrest₆]
        _ = front ++ (word ++ ((gap ++ quote) ++ (schema ++ (before ++ '.' :: (after ++
              (table ++ rest₆)))))) := by
          rw [List.append_assoc gap, show dot = '.' from beq_iff_eq.1 hdot]
        _ = _ := by rw [hlast]; simp
    · exact Text.ends_iff.2 hstop
    · rw [Match.group?, lookup_of_notMem hmore' (by decide)]
      exact congrArg some (chars_behind hrest₂)
    · rw [Match.text, Match.group?, lookup_of_notMem hmore' (by decide)]
      exact congrArg String.ofList (chars_behind hrest₆)
  · simp only [name, run_group] at h
    obtain ⟨_, rest₁, -, -, h⟩ := run_optQuote h
    obtain ⟨table, rest₂, -, -, -, h⟩ := run_many h
    obtain ⟨_, rest₃, -, -, h⟩ := run_optQuote h
    obtain ⟨_, rest₄, more', -, hmore', h⟩ := exists_run _ h
    obtain rfl := Option.some.inj h
    rw [Match.group?, lookup_of_notMem hmore' (by decide)] at hgroup
    have hnone : List.lookup 1 (more ++ []) = none := lookup_of_notMem hmore (by decide)
    exact absurd (hnone ▸ hgroup : (none : Option Span).isSome) (by decide)

/-- What a reference points at is the users table. -/
def ToUsers (ref : ColumnReference) : Prop :=
  ref.schema = some "auth" ∧ ref.table = "users"

/-- A text mentions the users table in some spelling. -/
def MentionsUsers (text : Chars) : Prop :=
  ∃ before after word, Quote before ∧ Quote after ∧ SpellsUsers before after word ∧
    Mentions text word

/-- **References are mentions.** A reference to the users table mentions it. -/
theorem mentions_of_references {text : Chars} {m : Match} (h : references.first? text = some m)
    (hm : ToUsers (referenceOf m)) : MentionsUsers text := by
  obtain ⟨hschema, htable⟩ := hm
  have hgroup : (m.group? 1).isSome := by
    obtain ⟨span, hspan, -⟩ := Option.map_eq_some_iff.1 hschema
    rw [hspan]
    rfl
  obtain ⟨before, after, schema, table, front, c, back, htext, hc, hback, hbefore, hafter, hchars,
    hname⟩ := exists_of_references h hgroup
  refine ⟨before, after, _, hbefore, hafter, ⟨schema, table, rfl, ?_, ?_⟩, front, c, back, htext,
    hc, hback⟩
  · have hword := congrArg (Option.map fun cs => lowerWord cs) hchars
    rw [Option.map_map] at hword
    have hauth : lowerWord schema = "auth" := Option.some.inj (hword.symm.trans hschema)
    rw [← hauth, lowerWord, String.toList_ofList]
  · have husers : Text.lowercase (m.text 2) = "users" := htable
    rw [← husers, hname, lowercase, String.toList_ofList, String.toList_ofList]

end ArchGraph.Sql
