import ArchGraph.Proofs.Pattern.Locality
import ArchGraph.Proofs.Pattern.Spelling
import ArchGraph.Proofs.Sql.Stripping
import ArchGraph.Proofs.Sql.Transparency
import ArchGraph.Proofs.Text.Search
/-!
# Literals in the definition of a column

Whether a column is a key, may be null or refers to a table is read off its definition by searches
that do not know of string literals. No such search sees past a quote, so a definition says what its
sections between quotes say, code and literals alike (`attributesOf_eq_said`). Definitions that
differ only in literals behind the type have the same name and type, and they are the same column
exactly if their sections say the same (`column_eq_iff_said`): it is enough that each literal says
what the one in its place says. `default_read_as_constraint` is a default value that is read as a
constraint.
-/

namespace ArchGraph.Sql

open Text (Chars isBlank isWord lower lowerChar trim dropEndWhile pieces unquote words)

/-! ## What a text says of a column -/

/-- What is said of a column behind its type. -/
structure Attributes where
  primaryKey : Bool
  required   : Bool
  reference  : Option ColumnReference
deriving DecidableEq, Repr

namespace Attributes

/-- Nothing is said. -/
def silent : Attributes := ⟨false, false, none⟩

/-- What two texts say, the first one in front of the second. -/
def or (a b : Attributes) : Attributes where
  primaryKey := a.primaryKey || b.primaryKey
  required := a.required || b.required
  reference := a.reference.or b.reference

theorem or_silent (a : Attributes) : a.or silent = a := by
  simp [or, silent]

end Attributes

/-- What a text says of a column, to searches of the whole text. -/
def attributesOf (text : Chars) : Attributes where
  primaryKey := Text.contains "primary key".toList (lower text)
  required := Text.contains "primary key".toList (lower text) ||
    Text.contains "not null".toList (lower text)
  reference := (Pattern.references.first? text).map referenceOf

/-- What the sections of a text between quotes say, each one on its own. -/
def said (text : Chars) : Attributes :=
  ((pieces (· = '\'') text).map attributesOf).foldr Attributes.or .silent

/-- The reference that the texts of groups stand for. -/
def referenceOfTexts (texts : List (Nat × Chars)) : ColumnReference where
  schema := (texts.lookup 1).map lowerWord
  table := Text.lowercase (String.ofList ((texts.lookup 2).getD []))
  column := (texts.lookup 3).map lowerWord

theorem referenceOf_eq (m : Match) : referenceOf m = referenceOfTexts m.groups.texts := by
  have hlookup (index : Nat) :
      m.groups.texts.lookup index = (m.group? index).map Span.chars := lookup_groupTexts m index
  rw [referenceOfTexts, hlookup, hlookup, hlookup, referenceOf, Match.text, Option.map_map,
    Option.map_map]
  cases m.group? 2 <;> rfl

/-- The first reference of a text with a quote. -/
theorem reference_quote (front back : Chars) :
    (Pattern.references.first? (front ++ '\'' :: back)).map referenceOf =
      ((Pattern.references.first? front).map referenceOf).or
        ((Pattern.references.first? back).map referenceOf) := by
  have havoids : Pattern.references.avoids '\'' = true := by decide
  have htexts := congrArg (Option.map referenceOfTexts)
    (Pattern.texts_first?_mark havoids (by decide : isWord '\'' = false) front back)
  have hreference : referenceOf = referenceOfTexts ∘ (·.groups.texts) := funext referenceOf_eq
  simpa only [Option.map_or, Option.map_map, ← hreference] using htexts

/-- **No search sees past a quote.** -/
theorem attributesOf_quote (front back : Chars) :
    attributesOf (front ++ '\'' :: back) = (attributesOf front).or (attributesOf back) := by
  have hcontains (needle : String) (hmark : '\'' ∉ needle.toList) (hne : needle.toList ≠ [])
      (hsigma : 'σ' ∉ needle.toList ∧ 'ς' ∉ needle.toList) :=
    Text.contains_lower_mark (by decide) hmark hne hsigma front back
  have hprimary := hcontains "primary key" (by decide) (by decide) (by decide)
  have hrequired := hcontains "not null" (by decide) (by decide) (by decide)
  rw [attributesOf, hprimary, hrequired, reference_quote]
  simp only [attributesOf, Attributes.or, Attributes.mk.injEq, true_and, and_true]
  ac_rfl

theorem attributesOf_intercalate : ∀ {sections : List Chars}, sections ≠ [] →
    attributesOf (['\''].intercalate sections) =
      (sections.map attributesOf).foldr Attributes.or .silent
  | [part], _ => by
    rw [List.intercalate_singleton]
    exact (Attributes.or_silent _).symm
  | part :: next :: sections, _ => by
    have hsplit : ['\''].intercalate (part :: next :: sections) =
        part ++ '\'' :: ['\''].intercalate (next :: sections) := by
      rw [List.intercalate_cons_cons, List.append_assoc, List.singleton_append]
    rw [hsplit, attributesOf_quote, attributesOf_intercalate (List.cons_ne_nil _ _)]
    rfl

/-- **A text says what its sections between quotes say.** -/
theorem attributesOf_eq_said (text : Chars) : attributesOf text = said text := by
  have hpieces : pieces (· = '\'') text = text.splitOn '\'' := by
    rw [Text.pieces_eq_splitOnP, List.splitOn_eq_splitOnP]
    rfl
  rw [said, hpieces, ← attributesOf_intercalate (List.splitOn_ne_nil _ _),
    List.intercalate_splitOn]

/-! ## Columns -/

/-- The name and the type that the words of a definition declare. -/
def declaration? : List Chars → Option (String × String)
  | [] => none
  | first :: rest =>
    let name := lowerWord (unquote first)
    let type := (rest.takeWhile fun w => !typeTerminators.contains (lowerWord w)).map String.ofList
    if name = "" || type.isEmpty then none else some (name, Text.lowercase (" ".intercalate type))

/-- The column with a name and a type of which something is said. -/
def columnWith (declared : String × String) (a : Attributes) : Column where
  name := declared.1
  dataType := declared.2
  nullable := !a.required
  primaryKey := a.primaryKey
  foreignKey := a.reference.isSome
  references := a.reference

theorem columnWith_inj {declared : String × String} {a a' : Attributes} :
    columnWith declared a = columnWith declared a' ↔ a = a' := by
  obtain ⟨primaryKey, required, reference⟩ := a
  obtain ⟨primaryKey', required', reference'⟩ := a'
  simp only [columnWith, Column.mk.injEq, Attributes.mk.injEq]
  grind

/-- A column is what its words declare and what is said of it. -/
theorem column?_eq (definition : Chars) : column? definition =
    (declaration? (words (stripComments definition))).map
      (columnWith · (attributesOf (stripComments definition))) := by
  simp only [column?]
  cases words (stripComments definition) with
  | nil => rfl
  | cons first rest =>
    simp only [declaration?]
    rw [apply_ite (Option.map _)]
    rfl

/-! ## Reading past literals -/

/-- A text inside of a literal: its quotes are doubled. -/
inductive Inside : Chars → Prop
  | nil : Inside []
  | char {c : Char} {text : Chars} (hc : c ≠ '\'') (h : Inside text) : Inside (c :: text)
  | quotes {text : Chars} (h : Inside text) : Inside ('\'' :: '\'' :: text)

theorem inside_of_notMem : ∀ {text : Chars}, '\'' ∉ text → Inside text
  | [], _ => .nil
  | c :: text, h => by
    rw [List.mem_cons, not_or] at h
    exact .char (Ne.symm h.1) (inside_of_notMem h.2)

/-- The inside of a literal is read as it stands. -/
theorem read_literal {inner : Chars} (h : Inside inner) (rest : Chars) :
    read ('\'' :: (inner ++ '\'' :: rest)) = '\'' :: (inner ++ '\'' :: read rest) := by
  have hinner : ∀ offset, (lexFrom .string offset (inner ++ '\'' :: rest)).map (·.char) =
      inner ++ '\'' :: read rest := by
    induction h with
    | nil =>
      intro offset
      rw [List.nil_append, lexFrom_string_cons, if_pos rfl, List.map_cons]
      exact congrArg ('\'' :: ·) (map_char_lexFrom rest .code _ 0)
    | char hc _ ih =>
      intro offset
      rw [List.cons_append, lexFrom_string_cons, if_neg hc, List.map_cons, ih]
      rfl
    | quotes _ ih =>
      intro offset
      rw [List.cons_append, List.cons_append, lexFrom_string_cons, if_pos rfl, List.map_cons,
        lexFrom, if_pos rfl, List.map_cons, ih]
      rfl
  rw [read, lex, lexFrom, if_pos rfl, List.map_cons, hinner]

/-- A definition is cut where the reader is outside of comments and strings. -/
theorem read_append {front back : Chars} (h : Outside (front ++ back) front.length) :
    read (front ++ back) = read front ++ read back := by
  rw [h.read_eq, List.take_left, List.drop_left]

/-- A text that closes its comments and literals can be cut off in front of a quote. -/
theorem outside_quote {code : Chars} (h : modeFrom .code code code.length = .code)
    (back : Chars) : Outside (code ++ '\'' :: back) code.length where
  le := by simp
  mode := by
    have hquote : modeFrom .code (code ++ '\'' :: back) code.length =
        modeFrom .code (code ++ []) code.length :=
      modeFrom_append (fun mode c => (mode.look_eq_none c (by simp)).1) code .code
    rw [hquote, List.append_nil, h]

/-! ## Definitions that differ in literals -/

/-- Two texts that differ only inside of literals, each two of which are alike. -/
inductive Refilled (alike : Chars → Chars → Prop) : Chars → Chars → Prop
  | same (rest : Chars) : Refilled alike rest rest
  | literal {code inner inner' rest rest' : Chars}
      (hcode : modeFrom .code code code.length = .code) (hinner : Inside inner)
      (hinner' : Inside inner') (halike : alike inner inner') (h : Refilled alike rest rest') :
      Refilled alike (code ++ '\'' :: (inner ++ '\'' :: rest))
        (code ++ '\'' :: (inner' ++ '\'' :: rest'))

/-- A part of a definition behind which its type has ended: it holds a word that ends the type, and
white space behind the word. -/
structure EndsType (front : Chars) : Prop where
  word  : ∃ w ∈ (words (read front)).tail, lowerWord w ∈ typeTerminators
  blank : ∃ c ∈ (read front).getLast?, isBlank c = true

/-- Two definitions of columns that differ only inside of literals behind the type, each two of
which are alike. -/
def DifferBehindType (alike : Chars → Chars → Prop) (definition definition' : Chars) : Prop :=
  ∃ front back back', definition = front ++ back ∧ definition' = front ++ back' ∧
    Outside definition front.length ∧ EndsType front ∧ Refilled alike back back'

section

variable {alike : Chars → Chars → Prop} {front back back' definition definition' : Chars}

theorem Refilled.head?_eq (h : Refilled alike back back') : back.head? = back'.head? := by
  cases h with
  | same => rfl
  | @literal code =>
    cases code with
    | nil => rfl
    | cons c code => rfl

/-- The end of the type is outside of literals in both definitions. -/
theorem Refilled.outside (h : Refilled alike back back')
    (hfront : Outside (front ++ back) front.length) : Outside (front ++ back') front.length where
  le := by simp
  mode := by
    have hmode : modeFrom .code (front ++ back') front.length =
        modeFrom .code (front ++ back) front.length :=
      modeFrom_append (fun mode c => by rw [h.head?_eq]) front .code
    rw [hmode, hfront.mode]

/-- Texts that differ in literals that say the same say the same. -/
theorem Refilled.attributesOf_eq
    (h : Refilled (fun inner inner' => said inner = said inner') back back') :
    ∀ lead : Chars, attributesOf (dropEndWhile isBlank (lead ++ read back)) =
      attributesOf (dropEndWhile isBlank (lead ++ read back')) := by
  -- both texts are cut at the quotes of their first literals, where nothing is trimmed
  have hsplit {code inner : Chars} (hcode : modeFrom .code code code.length = .code)
      (hinner : Inside inner) (lead rest : Chars) :
      attributesOf (dropEndWhile isBlank
          (lead ++ read (code ++ '\'' :: (inner ++ '\'' :: rest)))) =
        (attributesOf (lead ++ read code)).or ((said inner).or
          (attributesOf (dropEndWhile isBlank (read rest)))) := by
    have htext : lead ++ read (code ++ '\'' :: (inner ++ '\'' :: rest)) =
        (lead ++ read code ++ '\'' :: inner) ++ '\'' :: read rest := by
      rw [read_append (outside_quote hcode _), read_literal hinner]
      simp only [List.append_assoc, List.cons_append]
    rw [htext, Text.dropEndWhile_append_cons (by decide), List.append_assoc, List.cons_append,
      attributesOf_quote, attributesOf_quote, ← attributesOf_eq_said]
  induction h with
  | same => exact fun _ => rfl
  | literal hcode hinner hinner' halike _ ih =>
    intro lead
    have hrest := ih []
    rw [List.nil_append, List.nil_append] at hrest
    rw [hsplit hcode hinner, hsplit hcode hinner', halike, hrest]

/-- Behind the end of its type a definition has no word of the type. -/
theorem EndsType.declaration?_eq (h : EndsType front)
    (hfront : Outside (front ++ back) front.length) :
    declaration? (words (stripComments (front ++ back))) = declaration? (words (read front)) := by
  have hwords : words (stripComments (front ++ back)) =
      words (read front) ++ words (read back) := by
    rw [← Text.words_append_of_blank h.blank, ← read_append hfront]
    exact Text.words_trim _
  obtain ⟨w, hw, hends⟩ := h.word
  rw [hwords]
  cases hfirst : words (read front) with
  | nil =>
    rw [hfirst] at hw
    cases hw
  | cons first rest =>
    rw [hfirst] at hw
    have hstop : ∃ w ∈ rest, (!typeTerminators.contains (lowerWord w)) = false :=
      ⟨w, hw, by simpa using hends⟩
    rw [List.cons_append, declaration?, declaration?, Pattern.takeWhile_append_of_exists hstop]

/-- What is trimmed in front of a definition does not depend on what stands behind its type. -/
theorem EndsType.stripComments_eq (h : EndsType front)
    (hfront : Outside (front ++ back) front.length) : stripComments (front ++ back) =
      dropEndWhile isBlank ((read front).dropWhile isBlank ++ read back) := by
  have hsolid : ((read front).dropWhile isBlank).isEmpty = false := by
    rw [List.isEmpty_eq_false_iff]
    intro hblank
    obtain ⟨w, hw, -⟩ := h.word
    rw [Text.words_of_blank (List.dropWhile_eq_nil_iff.1 hblank)] at hw
    cases hw
  have hdrop : (read front ++ read back).dropWhile isBlank =
      (read front).dropWhile isBlank ++ read back := by
    rw [List.dropWhile_append, hsolid, if_neg Bool.false_ne_true]
  rw [← hdrop, ← read_append hfront]
  rfl

/-- **What literals change.** Definitions that differ only in literals behind the type have the same
name and type or are none both. They are the same column exactly if the sections between the quotes
say the same, and so if each literal says what the one in its place says. -/
theorem column_eq_iff_said (h : DifferBehindType (fun _ _ => True) definition definition') :
    ((column? definition).map fun c => (c.name, c.dataType)) =
        ((column? definition').map fun c => (c.name, c.dataType)) ∧
      (column? definition = column? definition' ↔ column? definition = none ∨
        said (stripComments definition) = said (stripComments definition')) ∧
      (DifferBehindType (fun inner inner' => said inner = said inner') definition definition' →
        column? definition = column? definition') := by
  have hdeclaration {alike : Chars → Chars → Prop}
      (h : DifferBehindType alike definition definition') :
      declaration? (words (stripComments definition)) =
        declaration? (words (stripComments definition')) := by
    obtain ⟨front, back, back', rfl, rfl, hfront, hends, hback⟩ := h
    rw [hends.declaration?_eq hfront, hends.declaration?_eq (hback.outside hfront)]
  have hiff : column? definition = column? definition' ↔ column? definition = none ∨
      said (stripComments definition) = said (stripComments definition') := by
    rw [column?_eq, column?_eq, ← hdeclaration h, attributesOf_eq_said, attributesOf_eq_said]
    cases declaration? (words (stripComments definition)) with
    | none => simp
    | some declared => simp [columnWith_inj]
  refine ⟨?_, hiff, fun hsaid => hiff.2 (.inr ?_)⟩
  · rw [column?_eq, column?_eq, ← hdeclaration h, Option.map_map, Option.map_map]
    rfl
  · obtain ⟨front, back, back', rfl, rfl, hfront, hends, hback⟩ := hsaid
    rw [← attributesOf_eq_said, ← attributesOf_eq_said, hends.stripComments_eq hfront,
      hends.stripComments_eq (hback.outside hfront), hback.attributesOf_eq]

end

/-- A column with a default value. -/
def withDefault (value : Chars) : Chars := "a text default ".toList ++ '\'' :: (value ++ ['\''])

theorem differ_withDefault {alike : Chars → Chars → Prop} {value value' : Chars}
    (hvalue : Inside value) (hvalue' : Inside value') (halike : alike value value') :
    DifferBehindType alike (withDefault value) (withDefault value') := by
  have hcode : modeFrom .code ([] : Chars) 0 = .code := rfl
  have hends : EndsType "a text default ".toList :=
    ⟨⟨"default".toList, by decide, by decide⟩, ⟨' ', by decide, by decide⟩⟩
  exact ⟨"a text default ".toList, _, _, rfl, rfl, outside_quote (by decide) _, hends,
    .literal hcode hvalue hvalue' halike (.same [])⟩

theorem column_eq_iff_said_quiet :
    DifferBehindType (fun _ _ => True) (withDefault "x".toList) (withDefault "it''s".toList) ∧
      column? (withDefault "x".toList) = column? (withDefault "it''s".toList) := by
  have hx : Inside "x".toList := inside_of_notMem (by decide)
  have hits : Inside "it''s".toList :=
    .char (by decide) (.char (by decide) (.quotes (inside_of_notMem (by decide))))
  have hdiffer : DifferBehindType (fun _ _ => True) (withDefault "x".toList)
      (withDefault "it''s".toList) := differ_withDefault hx hits trivial
  refine ⟨hdiffer, (column_eq_iff_said hdiffer).2.2 (differ_withDefault hx hits ?_)⟩
  decide

/-- **A default value can be read as a constraint.** Two definitions that differ only in the literal
of their default value; what one of them holds makes the column one that may not be null. -/
theorem default_read_as_constraint :
    DifferBehindType (fun _ _ => True) (withDefault []) (withDefault "not null".toList) ∧
      column? (withDefault []) = some ⟨"a", "text", true, false, false, none⟩ ∧
      column? (withDefault "not null".toList) = some ⟨"a", "text", false, false, false, none⟩ := by
  have hinside : Inside "not null".toList := inside_of_notMem (by decide)
  exact ⟨differ_withDefault .nil hinside trivial, by decide, by decide⟩

end ArchGraph.Sql
