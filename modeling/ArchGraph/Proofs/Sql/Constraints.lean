import ArchGraph.Proofs.Sql.Stripping
import ArchGraph.Sql.Schema
/-!
# Constraints among the columns of a table

The columns of a table come from the items of its definition, one item behind the other, and each
item adds the same columns wherever it stands (`names_ofRegion`). An item that opens with the keyword
of a constraint adds no column if white space follows the keyword. If an opening bracket follows, the
keyword is not recognised: the item is a column whose name goes on to the first white space, unless
what follows is no type (`constraint_adds_column_iff`). `constraint_read_as_column` is a uniqueness of
two columns that is read as a third one.
-/

namespace ArchGraph.Sql

open Text (Chars isBlank lower trim unquote words)

/-! ## Names of columns -/

/-- The names of the columns of a table. -/
def TableBody.names (body : TableBody) : List String := body.columns.map (·.name)

/-- The names of the columns that an item of a definition adds. -/
def addedNames (text : Chars) (item : Region) : List String :=
  (TableBody.addItem text ⟨[], []⟩ item).names

namespace TableBody

variable {body : TableBody}

theorem map_name_updateColumn {change : Column → Column} (hchange : ∀ c, (change c).name = c.name)
    (name : String) (columns : List Column) :
    (updateColumn change name columns).map (·.name) = columns.map (·.name) := by
  induction columns with
  | nil => rfl
  | cons c columns ih =>
    rw [updateColumn]
    split
    · simp [hchange]
    · simp [ih]

theorem names_markPrimary (name : String) : (body.markPrimary name).names = body.names := by
  unfold names markPrimary
  apply map_name_updateColumn
  intro c
  rfl

theorem names_markForeign (reference : ColumnReference) (region : Region) (name : String) :
    (markForeign reference region body name).names = body.names := by
  unfold names markForeign
  split
  · apply map_name_updateColumn
    intro c
    rfl
  · rfl

/-- A constraint adds no column. -/
theorem names_constrain (item : Chars) (region : Region) :
    (body.constrain item region).names = body.names := by
  apply constrain_induction (motive := fun body' => body'.names = body.names)
  · intro body' name hbody
    rw [names_markPrimary, hbody]
  · intro m _ body' name hbody
    rw [names_markForeign, hbody]
  · rfl

theorem names_addColumn (c : Column) (region : Region) :
    (body.addColumn c region).names = body.names ++ [c.name] := by
  simp [names, addColumn]

/-- **What an item adds does not depend on the items in front of it.** -/
theorem names_addItem (text : Chars) (item : Region) :
    (addItem text body item).names = body.names ++ addedNames text item := by
  unfold addedNames addItem
  simp only
  split
  · simp [names]
  · split
    · rw [names_constrain, names_constrain]
      simp [names]
    · split
      · rw [names_addColumn, names_addColumn]
        simp [names]
      · simp [names]

/-- **The columns of a table are those that its items add.** -/
theorem names_ofRegion (text : Chars) (r : Region) :
    (ofRegion text r).names = (items text r).flatMap (addedNames text) := by
  have hrun : ∀ (rs : List Region) (body : TableBody),
      (rs.foldl (addItem text) body).names = body.names ++ rs.flatMap (addedNames text) := by
    intro rs
    induction rs with
    | nil => simp
    | cons item rs ih =>
      intro body
      rw [List.foldl_cons, ih, names_addItem, List.flatMap_cons, List.append_assoc]
  unfold ofRegion
  rw [hrun]
  rfl

end TableBody

/-! ## Items that open with a keyword -/

/-- An item opens a constraint of the whole table: it starts with a keyword of such constraints, in
any letter case, and goes on with white space or an opening bracket. -/
structure OpensConstraint (item keyword rest : Chars) : Prop where
  split   : item = keyword ++ rest
  keyword : lowerWord keyword ∈ constraintWords
  stop    : ∃ c, rest.head? = some c ∧ (isBlank c = true ∨ c = '(')

theorem constraintWords_letters : ∀ word ∈ constraintWords, word ≠ "" ∧
    ∀ c ∈ word.toList, isBlank c = false ∧ c ≠ '(' ∧ c ∉ ['\'', '"', '\x60'] := by
  decide

section

variable {item keyword rest : Chars}

theorem OpensConstraint.keyword_ne_nil (h : OpensConstraint item keyword rest) : keyword ≠ [] := by
  rintro rfl
  exact (constraintWords_letters _ h.keyword).1 rfl

/-- Characters without a case that no keyword of a constraint holds do not stand in its spellings. -/
theorem OpensConstraint.notMem (h : OpensConstraint item keyword rest) {c : Char}
    (hc : Text.lowerChar c = [c]) (hmem : c ∈ keyword) :
    isBlank c = false ∧ c ≠ '(' ∧ c ∉ ['\'', '"', '\x60'] := by
  apply (constraintWords_letters _ h.keyword).2
  unfold lowerWord
  rw [String.toList_ofList]
  exact Text.mem_lower hc hmem

theorem OpensConstraint.isBlank_keyword (h : OpensConstraint item keyword rest) :
    ∀ c ∈ keyword, isBlank c = false := by
  intro c hc
  by_contra hblank
  have hlower := Text.lowerChar_of_isBlank (c := c) (by simpa using hblank)
  exact hblank (h.notMem hlower hc).1

/-- White space behind the keyword ends the first word of the item. -/
theorem OpensConstraint.words_eq_of_blank (h : OpensConstraint item keyword rest)
    (hrest : ∀ c ∈ rest.head?, isBlank c = true) : words item = keyword :: words rest := by
  rw [h.split]
  exact Text.words_append h.keyword_ne_nil h.isBlank_keyword hrest

/-- A bracket behind the keyword belongs to the first word of the item. -/
theorem OpensConstraint.words_eq_of_bracket (h : OpensConstraint item keyword rest)
    (hrest : rest.head? = some '(') :
    ∃ more others, words item = (keyword ++ '(' :: more) :: others ∧
      ∀ c ∈ keyword ++ '(' :: more, isBlank c = false := by
  cases rest with
  | nil => cases hrest
  | cons c rest =>
    obtain rfl : c = '(' := Option.some.inj hrest
    have hword : ∀ c ∈ keyword ++ '(' :: rest.takeWhile (!isBlank ·), isBlank c = false := by
      intro c hc
      rcases List.mem_append.1 hc with hc | hc
      · exact h.isBlank_keyword c hc
      · rcases List.mem_cons.1 hc with rfl | hc
        · decide
        · simpa using List.mem_takeWhile_imp hc
    have hstop : ∀ c ∈ (rest.dropWhile (!isBlank ·)).head?, isBlank c = true := by
      intro c hc
      have hhead := List.head?_dropWhile_not (!isBlank ·) rest
      rw [Option.mem_def.1 hc] at hhead
      simpa using hhead
    have hitem : item = keyword ++ '(' :: rest.takeWhile (!isBlank ·) ++
        rest.dropWhile (!isBlank ·) := by
      rw [h.split, List.append_assoc, List.cons_append, List.takeWhile_append_dropWhile]
    refine ⟨rest.takeWhile (!isBlank ·), words (rest.dropWhile (!isBlank ·)), ?_, hword⟩
    rw [hitem, Text.words_append (by simp) hword hstop]

/-- A word that starts with the keyword of a constraint is not quoted. -/
theorem OpensConstraint.unquote_eq (h : OpensConstraint item keyword rest) {more : Chars}
    (hword : ∀ c ∈ keyword ++ more, isBlank c = false) :
    unquote (keyword ++ more) = keyword ++ more := by
  have hlower : ∀ quote ∈ ['\'', '"', '\x60'], Text.lowerChar quote = [quote] := by decide
  obtain ⟨c, letters, rfl⟩ := List.exists_cons_of_ne_nil h.keyword_ne_nil
  have hquote : ∀ quote ∈ ['\'', '"', '\x60'], c ≠ quote := by
    rintro quote hquote rfl
    exact (h.notMem (hlower c hquote) List.mem_cons_self).2.2 hquote
  unfold unquote
  rw [Text.trim_eq_self hword]
  simp only [List.cons_append]
  rw [List.findSome?_eq_none_iff.2]
  · rfl
  · intro quote hmem
    rw [if_neg]
    exact fun hc => hquote quote hmem hc.1

end

/-! ## Constraints that add columns -/

/-- The lower case of a word with a bracket has a bracket. -/
theorem bracket_mem_lowerWord {word : Chars} (h : '(' ∈ word) : '(' ∈ (lowerWord word).toList := by
  unfold lowerWord
  rw [String.toList_ofList]
  exact Text.mem_lower (by decide) h

/-- What makes a column of a definition: a name, and a word behind it that starts a type. -/
theorem isSome_column?_iff {definition first : Chars} {rest : List Chars}
    (h : words (stripComments definition) = first :: rest) :
    (column? definition).isSome ↔ lowerWord (unquote first) ≠ "" ∧
      ∃ type ∈ rest.head?, lowerWord type ∉ typeTerminators := by
  have htype : ((rest.takeWhile fun w => !typeTerminators.contains (lowerWord w)).map
      String.ofList).isEmpty = false ↔ ∃ type ∈ rest.head?, lowerWord type ∉ typeTerminators := by
    cases rest with
    | nil => simp
    | cons type rest =>
      by_cases hterm : lowerWord type ∈ typeTerminators
      · simp [hterm]
      · simp [hterm]
  rw [← htype]
  unfold column?
  simp only [h]
  split
  · next hnone => simpa [or_iff_not_imp_left] using hnone
  · next hsome => simpa using hsome

section

variable {text keyword rest : Chars} {item : Region}

/-- White space behind the keyword of a constraint: the item adds no column. -/
theorem OpensConstraint.addedNames_of_blank
    (h : OpensConstraint (stripComments (item.chars text)) keyword rest)
    (hrest : ∀ c ∈ rest.head?, isBlank c = true) : addedNames text item = [] := by
  unfold addedNames TableBody.addItem
  simp only [h.words_eq_of_blank hrest]
  rw [if_pos (by simpa using h.keyword), TableBody.names_constrain]
  rfl

/-- A bracket behind the keyword of a constraint: the item is read as a column, which takes a word
of its own for the type. -/
theorem OpensConstraint.addedNames_of_bracket
    (h : OpensConstraint (stripComments (item.chars text)) keyword rest)
    (hrest : rest.head? = some '(') :
    addedNames text item ≠ [] ↔
      ∃ type ∈ (words (stripComments (item.chars text)))[1]?, lowerWord type ∉ typeTerminators := by
  obtain ⟨more, others, hwords, hword⟩ := h.words_eq_of_bracket hrest
  have hbracket : '(' ∈ (lowerWord (keyword ++ '(' :: more)).toList :=
    bracket_mem_lowerWord (by simp)
  have hfirst : lowerWord (keyword ++ '(' :: more) ∉ constraintWords := by
    intro hmem
    exact ((constraintWords_letters _ hmem).2 '(' hbracket).2.1 rfl
  have hname : lowerWord (unquote (keyword ++ '(' :: more)) ≠ "" := by
    rw [h.unquote_eq hword]
    intro hempty
    simp [hempty] at hbracket
  have hcolumn : (column? (stripComments (item.chars text))).isSome ↔
      ∃ type ∈ (words (stripComments (item.chars text)))[1]?, lowerWord type ∉ typeTerminators := by
    rw [isSome_column?_iff (by rw [stripComments_stripComments]; exact hwords), hwords,
      List.getElem?_cons_succ, List.head?_eq_getElem?]
    simp [hname]
  rw [← hcolumn]
  unfold addedNames TableBody.addItem
  simp only [hwords]
  rw [if_neg (by simpa using hfirst)]
  cases column? (stripComments (item.chars text)) with
  | none => simp [TableBody.names]
  | some c => simp [TableBody.names_addColumn]

end

/-- **Which constraints add columns.** The columns of a table are those that the items of its
definition add. An item that opens with the keyword of a constraint adds one only if an opening
bracket follows the keyword and the next word starts a type. -/
theorem constraint_adds_column_iff (text : Chars) (r : Region) :
    (TableBody.ofRegion text r).names = (items text r).flatMap (addedNames text) ∧
      ∀ item ∈ items text r, ∀ keyword rest,
        OpensConstraint (stripComments (item.chars text)) keyword rest →
          (addedNames text item ≠ [] ↔ rest.head? = some '(' ∧
            ∃ type ∈ (words (stripComments (item.chars text)))[1]?,
              lowerWord type ∉ typeTerminators) := by
  refine ⟨TableBody.names_ofRegion text r, ?_⟩
  intro item _ keyword rest h
  obtain ⟨c, hc, hblank | rfl⟩ := h.stop
  · -- the keyword is a word of its own
    have hnone : addedNames text item = [] := h.addedNames_of_blank fun d hd => by
      rw [hc] at hd
      exact Option.some.inj hd ▸ hblank
    have hbracket : c ≠ '(' := by
      rintro rfl
      cases hblank
    simp [hnone, hc, hbracket]
  · rw [h.addedNames_of_bracket hc]
    simp [hc]

/-- A table whose constraint stands apart from its columns. -/
def spacedUnique : Chars := "a int, b int, unique (a, b)".toList

theorem constraint_adds_column_spaced :
    OpensConstraint (stripComments (Region.chars ⟨13, 27⟩ spacedUnique)) "unique".toList
        " (a, b)".toList ∧
      addedNames spacedUnique ⟨13, 27⟩ = [] := by
  have hopens : OpensConstraint (stripComments (Region.chars ⟨13, 27⟩ spacedUnique))
      "unique".toList " (a, b)".toList :=
    ⟨by decide, by decide, ' ', by decide, .inl (by decide)⟩
  have hitem : (⟨13, 27⟩ : Region) ∈ items spacedUnique ⟨0, 27⟩ := by decide
  refine ⟨hopens, ?_⟩
  by_contra hadds
  have hbracket :=
    ((constraint_adds_column_iff spacedUnique ⟨0, 27⟩).2 ⟨13, 27⟩ hitem _ _ hopens).1 hadds
  exact absurd hbracket.1 (by decide)

/-- A definition of a table whose constraint lists two columns next to its keyword. -/
def directUnique : Chars := "create table t (a int, b int, unique(a, b));".toList

/-- **A constraint can be read as a column.** The uniqueness of two columns becomes a third one. -/
theorem constraint_read_as_column :
    ∃ t ∈ (Schema.ofScript directUnique).tables,
      t.body = TableBody.ofRegion directUnique ⟨16, 42⟩ ∧
        (∃ item ∈ items directUnique ⟨16, 42⟩,
          OpensConstraint (stripComments (item.chars directUnique)) "unique".toList
              "(a, b)".toList ∧
            addedNames directUnique item = ["unique(a,"]) ∧
          t.body.names = ["a", "b", "unique(a,"] := by
  obtain ⟨t, ht, hbody, hnames⟩ : ∃ t ∈ (Schema.ofScript directUnique).tables,
      t.body = TableBody.ofRegion directUnique ⟨16, 42⟩ ∧
        t.body.names = ["a", "b", "unique(a,"] := by decide
  obtain ⟨item, hitem, hsplit, hadded⟩ : ∃ item ∈ items directUnique ⟨16, 42⟩,
      stripComments (item.chars directUnique) = "unique".toList ++ "(a, b)".toList ∧
        addedNames directUnique item = ["unique(a,"] := by decide
  have hopens : OpensConstraint (stripComments (item.chars directUnique)) "unique".toList
      "(a, b)".toList := ⟨hsplit, by decide, '(', by decide, .inr rfl⟩
  exact ⟨t, ht, hbody, ⟨item, hitem, hopens, hadded⟩, hnames⟩

end ArchGraph.Sql
