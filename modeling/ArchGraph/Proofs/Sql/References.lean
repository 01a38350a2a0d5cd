import ArchGraph.Proofs.Sql.UsersTable
/-!
# Where the references of columns come from

A column gets its reference with its definition, or by a constraint of its table, or with the
clause that adds it. Each of these is a part of the script, cut out between brackets, commas and
semicolons and read past its comments, whose words the script mentions (`Echoes`). So every
reference in the schema of a script is read off such a part (`references_ofScript`), and a
reference to the users table is a mention of it in the script (`mentionsUsers_of_references`).
-/

namespace ArchGraph.Sql

open Pattern
open Text (Chars Solid Mentions)

/-! ## Parts -/

/-- The words that a part mentions are mentioned by the text. -/
def Echoes (text part : Chars) : Prop := ∀ word, Solid word → Mentions part word → Mentions text word

theorem Echoes.trans {text part part' : Chars} (h : Echoes text part) (h' : Echoes part part') :
    Echoes text part' := fun word hword hmention => h word hword (h' word hword hmention)

theorem echoes_stripComments (text : Chars) : Echoes text (stripComments text) :=
  fun _ hword h => mentions_of_stripComments hword h

theorem echoes_region {text : Chars} {r : Region} (hr : EndsAt text r.stop) :
    Echoes text (r.chars text) := fun _ _ h => mentions_of_region hr h

/-- The definition of a column in a clause goes on to the clause's end. -/
theorem echoes_addColumnClause {clause : Chars} {m : Match}
    (h : addColumnClause.first? clause = some m) : Echoes clause (m.text 1).toList := by
  obtain ⟨front, s, hs, h⟩ := first?_eq_some h
  rw [matchAt?, addColumnClause] at h
  simp only [run_seq, run_group] at h
  obtain ⟨-, h⟩ := run_look h
  obtain ⟨taken₁, rest₁, more₁, hrest₁, -, h⟩ := exists_run _ h
  obtain ⟨taken₂, rest₂, more₂, hrest₂, -, h⟩ := exists_run _ h
  obtain ⟨taken₃, rest₃, more₃, hrest₃, -, h⟩ := exists_run _ h
  obtain ⟨definition, rest₄, hrest₄, -, -, h⟩ := run_many h
  obtain ⟨hend, h⟩ := run_look h
  obtain rfl := Option.some.inj h
  have hchars := chars_behind hrest₄
  have hempty : rest₄ = [] := List.isEmpty_iff.1 hend
  have hclause : clause = (front ++ taken₁ ++ taken₂ ++ taken₃) ++ definition ++ [] := by
    rw [hs.split, hrest₁, show rest₁ = taken₂ ++ rest₂ from hrest₂,
      show rest₂ = taken₃ ++ rest₃ from hrest₃, show rest₃ = definition ++ rest₄ from hrest₄, hempty]
    simp only [List.append_assoc]
  intro word _ hword
  refine Mentions.of_part ?_ hclause Text.ends_nil
  rwa [Match.text, Match.group?, List.lookup_cons_self, Option.map_some, Option.getD_some,
    Span.text, String.toList_ofList, hchars] at hword

/-! ## References -/

/-- A reference is read off a part of a text. -/
def ReadOff (text : Chars) (ref : ColumnReference) : Prop :=
  ∃ part m, Echoes text part ∧ references.first? part = some m ∧ referenceOf m = ref

/-- The references of columns are read off parts of a text. -/
def ReadsOff (text : Chars) (columns : List Column) : Prop :=
  ∀ c ∈ columns, ∀ ref ∈ c.references, ReadOff text ref

theorem ReadOff.mentionsUsers {text : Chars} {ref : ColumnReference} (h : ReadOff text ref)
    (href : ToUsers ref) : MentionsUsers text := by
  obtain ⟨part, m, hpart, hm, rfl⟩ := h
  obtain ⟨before, after, word, hbefore, hafter, hword, hmention⟩ := mentions_of_references hm href
  exact ⟨before, after, word, hbefore, hafter, hword,
    hpart word (hword.solid hbefore hafter) hmention⟩

theorem readOff_of_column? {definition text : Chars} {c : Column} (h : column? definition = some c)
    (hdefinition : Echoes text definition) : ∀ ref ∈ c.references, ReadOff text ref := by
  rw [column?] at h
  simp only at h
  split at h
  · cases h
  · split at h
    · cases h
    · obtain rfl := Option.some.inj h
      intro ref href
      obtain ⟨m, hm, rfl⟩ := Option.map_eq_some_iff.1 href
      exact ⟨_, m, hdefinition.trans (echoes_stripComments definition), hm, rfl⟩

section

variable {text : Chars} {body : TableBody}

theorem readsOff_append {columns : List Column} {c : Column} (h : ReadsOff text columns)
    (hc : ∀ ref ∈ c.references, ReadOff text ref) : ReadsOff text (columns ++ [c]) := by
  intro d hd
  rcases List.mem_append.1 hd with hd | hd
  · exact h d hd
  · rw [List.mem_singleton.1 hd]
    exact hc

theorem readsOff_updateColumn {change : Column → Column} (name : String)
    (hchange : ∀ c : Column, (∀ ref ∈ c.references, ReadOff text ref) →
      ∀ ref ∈ (change c).references, ReadOff text ref) : ∀ {columns : List Column},
        ReadsOff text columns → ReadsOff text (TableBody.updateColumn change name columns)
  | [], h => h
  | c :: columns, h => by
    obtain ⟨hc, hcolumns⟩ := List.forall_mem_cons.1 h
    rw [TableBody.updateColumn]
    split
    · exact List.forall_mem_cons.2 ⟨hchange c hc, hcolumns⟩
    · exact List.forall_mem_cons.2 ⟨hc, readsOff_updateColumn name hchange hcolumns⟩

theorem readsOff_markPrimary (h : ReadsOff text body.columns) (name : String) :
    ReadsOff text (body.markPrimary name).columns := by
  refine readsOff_updateColumn name (fun c hc => ?_) h
  exact hc

theorem readsOff_markForeign {reference : ColumnReference} (href : ReadOff text reference)
    {region : Region} (h : ReadsOff text body.columns) (name : String) :
    ReadsOff text (TableBody.markForeign reference region body name).columns := by
  rw [TableBody.markForeign]
  split
  · refine readsOff_updateColumn name (fun _ _ ref hr => ?_) h
    exact Option.some.inj hr ▸ href
  · exact h

/-- A step that keeps the references of a table's columns keeps them over a whole list. -/
theorem readsOff_foldl {α : Type} {step : TableBody → α → TableBody} {items : List α}
    (hstep : ∀ body : TableBody, ReadsOff text body.columns → ∀ item ∈ items,
      ReadsOff text (step body item).columns) (h : ReadsOff text body.columns) :
    ReadsOff text (items.foldl step body).columns :=
  List.foldlRecOn items step (motive := fun body => ReadsOff text body.columns) h hstep

theorem readsOff_constrain {item : Chars} (hitem : Echoes text item) {region : Region}
    (h : ReadsOff text body.columns) : ReadsOff text (body.constrain item region).columns := by
  apply TableBody.constrain_induction (motive := fun body => ReadsOff text body.columns) _ _ h
  · intro body name hbody
    exact readsOff_markPrimary hbody name
  · intro m hm body name hbody
    exact readsOff_markForeign ⟨item, m, hitem, hm, rfl⟩ hbody name

theorem readsOff_addColumn {c : Column} (hc : ∀ ref ∈ c.references, ReadOff text ref)
    (region : Region) (h : ReadsOff text body.columns) :
    ReadsOff text (body.addColumn c region).columns := readsOff_append h hc

theorem readsOff_addItem {region : Region} (hregion : EndsAt text region.stop)
    (h : ReadsOff text body.columns) : ReadsOff text (body.addItem text region).columns := by
  have hitem : Echoes text (stripComments (region.chars text)) :=
    (echoes_region hregion).trans (echoes_stripComments _)
  rw [TableBody.addItem]
  split
  · exact h
  · split
    · exact readsOff_constrain hitem h
    · split
      · next c hc => exact readsOff_addColumn (readOff_of_column? hc hitem) region h
      · exact h

theorem readsOff_ofRegion {r : Region} (hr : EndsAt text r.stop) :
    ReadsOff text (TableBody.ofRegion text r).columns :=
  readsOff_foldl (fun _ hbody _ hitem => readsOff_addItem (endsAt_of_mem_items hitem hr) hbody)
    fun _ hc => by cases hc

theorem readsOff_addClause {region : Region} (hregion : EndsAt text region.stop)
    (h : ReadsOff text body.columns) : ReadsOff text (addClause text body region).columns := by
  have hclause : Echoes text (stripComments (region.chars text)) :=
    (echoes_region hregion).trans (echoes_stripComments _)
  rw [addClause]
  split
  · next c hc =>
    obtain ⟨m, hm, hc⟩ := Option.bind_eq_some_iff.1 hc
    split
    · exact h
    · exact readsOff_addColumn
        (readOff_of_column? hc (hclause.trans (echoes_addColumnClause hm))) region h
  · exact h

end

/-! ## Schemas -/

/-- **References are read off the script.** -/
theorem references_ofScript {text : Chars} : ∀ t ∈ (Schema.ofScript text).tables,
    ReadsOff text t.body.columns := by
  apply Schema.forall_mem_tables
  · intro m _ close hclose
    exact readsOff_ofRegion (endsAt_matchingParen hclose)
  · intro m _ t ht
    apply readsOff_foldl _ ht
    intro body hbody clause hclause
    exact readsOff_addClause (endsAt_of_mem_items hclause (endsAt_semicolon m.stop)) hbody

/-- **A reference to the users table is a mention of it.** -/
theorem mentionsUsers_of_references {text : Chars} {t : Table}
    (ht : t ∈ (Schema.ofScript text).tables) {c : Column} (hc : c ∈ t.body.columns)
    {ref : ColumnReference} (href : ref ∈ c.references) (husers : ToUsers ref) :
    MentionsUsers text :=
  (references_ofScript t ht c hc ref href).mentionsUsers husers

end ArchGraph.Sql
