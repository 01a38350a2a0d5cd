import ArchGraph.Proofs.Sql.Blanking
import Mathlib.Data.List.Forall2
/-!
# What comments change about a schema

The heads of statements are looked for in the script as it stands, so a comment can hold a head or
break one. Everything behind a head is read past comments. If the heads of a script and of the
script without its comments agree, both declare the same tables with the same columns and foreign
keys, the same row level security, the same policies and the same triggers, each at the rank of its
place (`ofScript_read`).
-/

namespace ArchGraph.Sql

open Text (Chars)

/-! ## Bodies of tables -/

/-- The body of a table with its foreign keys declared at other places. -/
def TableBody.moved (f : Nat → Nat) (body : TableBody) : TableBody :=
  { body with foreignKeys := body.foreignKeys.map fun key => (key.1, key.2.moved f) }

/-- Steps that do the same at other places do the same over a whole list. -/
theorem foldl_moved {f : Nat → Nat} {step step' : TableBody → Region → TableBody} :
    ∀ {items : List Region} (body : TableBody),
      (∀ body, ∀ item ∈ items, step' (body.moved f) (item.moved f) = (step body item).moved f) →
        (items.map (·.moved f)).foldl step' (body.moved f) = (items.foldl step body).moved f
  | [], _, _ => rfl
  | item :: items, body, h => by
    rw [List.map_cons, List.foldl_cons, List.foldl_cons, h body item List.mem_cons_self]
    exact foldl_moved _ fun body item hitem => h body item (List.mem_cons_of_mem _ hitem)

section

variable (f : Nat → Nat) (body : TableBody)

theorem markPrimary_moved (name : String) :
    (body.moved f).markPrimary name = (body.markPrimary name).moved f := rfl

theorem markForeign_moved (reference : ColumnReference) (region : Region) (name : String) :
    TableBody.markForeign reference (region.moved f) (body.moved f) name =
      (TableBody.markForeign reference region body name).moved f := by
  have hhas : (body.moved f).hasColumn name = body.hasColumn name := rfl
  rw [TableBody.markForeign, TableBody.markForeign, hhas]
  split
  · simp [TableBody.moved]
  · rfl

theorem constrain_moved (item : Chars) (region : Region) :
    (body.moved f).constrain item (region.moved f) = (body.constrain item region).moved f := by
  have hprimary (names : List String) : names.foldl TableBody.markPrimary (body.moved f) =
      (names.foldl TableBody.markPrimary body).moved f :=
    List.foldl_hom (TableBody.moved f) fun body name => markPrimary_moved f body name
  have hforeign (reference : ColumnReference) (body : TableBody) (names : List String) :
      names.foldl (TableBody.markForeign reference (region.moved f)) (body.moved f) =
        (names.foldl (TableBody.markForeign reference region) body).moved f :=
    List.foldl_hom (TableBody.moved f) fun body name => markForeign_moved f body reference region name
  rw [TableBody.constrain, TableBody.constrain]
  cases Pattern.tablePrimaryKey.first? item <;> cases Pattern.tableForeignKey.first? item <;>
    cases Pattern.references.first? item <;> simp only [hprimary, hforeign]

theorem addColumn_moved (c : Column) (region : Region) :
    (body.moved f).addColumn c (region.moved f) = (body.addColumn c region).moved f := by
  rw [TableBody.addColumn, TableBody.addColumn]
  split <;> simp [TableBody.moved]

end

/-- Adds an item that has been cut out of a script. -/
def TableBody.addPart (body : TableBody) (region : Region) (part : Chars) : TableBody :=
  let item := stripComments part
  match Text.words item with
  | [] => body
  | first :: _ =>
    if constraintWords.contains (lowerWord first) then body.constrain item region
    else match column? item with
      | some c => body.addColumn c region
      | none => body

/-- Adds the column of a clause that has been cut out of a script. -/
def TableBody.addClausePart (body : TableBody) (region : Region) (part : Chars) : TableBody :=
  let clause := stripComments part
  match (Pattern.addColumnClause.first? clause).bind fun m => column? (m.text 1).toList with
  | some c => if body.hasColumn c.name then body else body.addColumn c region
  | none => body

section

variable {part part' : Chars} (h : stripComments part' = stripComments part)
include h

/-- An item is added alike at another place, whatever comments it holds. -/
theorem addPart_moved (f : Nat → Nat) (body : TableBody) (region : Region) :
    (body.moved f).addPart (region.moved f) part' = (body.addPart region part).moved f := by
  rw [TableBody.addPart, TableBody.addPart, h]
  split
  · rfl
  · split
    · exact constrain_moved _ _ _ _
    · split
      · exact addColumn_moved _ _ _ _
      · rfl

theorem addClausePart_moved (f : Nat → Nat) (body : TableBody) (region : Region) :
    (body.moved f).addClausePart (region.moved f) part' =
      (body.addClausePart region part).moved f := by
  rw [TableBody.addClausePart, TableBody.addClausePart, h]
  split
  · next c hc =>
    have hhas : (body.moved f).hasColumn c.name = body.hasColumn c.name := rfl
    rw [hhas]
    split
    · rfl
    · exact addColumn_moved _ _ _ _
  · rfl

end

section

variable {text : Chars}

/-- Comments do not matter to a part that is cut outside of comments and strings. -/
theorem stripComments_moved {region : Region} (hstart : Outside text region.start)
    (hstop : Cuts text region.stop) :
    stripComments ((region.moved (rank text)).chars (read text)) =
      stripComments (region.chars text) := by
  rw [chars_moved hstart hstop, stripComments_read]

/-- An item of a script without its comments is added like the item of the script. -/
theorem addItem_read {region : Region} (hstart : Outside text region.start)
    (hstop : Cuts text region.stop) (body : TableBody) :
    TableBody.addItem (read text) (body.moved (rank text)) (region.moved (rank text)) =
      (body.addItem text region).moved (rank text) :=
  addPart_moved (stripComments_moved hstart hstop) _ _ _

/-- **Bodies past comments.** The body of a table in a script without its comments is that of the
table in the script. -/
theorem ofRegion_read {r : Region} (hstart : Outside text r.start) (hstop : Cuts text r.stop) :
    TableBody.ofRegion (read text) (r.moved (rank text)) =
      (TableBody.ofRegion text r).moved (rank text) := by
  rw [TableBody.ofRegion, TableBody.ofRegion, items_read hstart hstop]
  exact foldl_moved ⟨[], []⟩ fun body item hitem =>
    addItem_read (outside_of_mem_items hstart hstop hitem).1
      (outside_of_mem_items hstart hstop hitem).2 body

theorem addClause_read {region : Region} (hstart : Outside text region.start)
    (hstop : Cuts text region.stop) (body : TableBody) :
    addClause (read text) (body.moved (rank text)) (region.moved (rank text)) =
      (addClause text body region).moved (rank text) :=
  addClausePart_moved (stripComments_moved hstart hstop) _ _ _

/-- The clauses of an alteration past comments. -/
theorem clauses_read {r : Region} (hstart : Outside text r.start) (hstop : Cuts text r.stop)
    (body : TableBody) : (items (read text) (r.moved (rank text))).foldl (addClause (read text))
        (body.moved (rank text)) =
      ((items text r).foldl (addClause text) body).moved (rank text) := by
  rw [items_read hstart hstop]
  exact foldl_moved body fun body item hitem =>
    addClause_read (outside_of_mem_items hstart hstop hitem).1
      (outside_of_mem_items hstart hstop hitem).2 body

end

/-! ## Heads -/

/-- The texts of the groups of a match. -/
def groupTexts (m : Match) : List (Nat × Chars) := m.groups.map fun g => (g.1, g.2.chars)

/-- A head in a script and a head in the script without its comments are the same: both say the
same, the second one at the rank of the first one's place. -/
structure SameHead (text : Chars) (m m' : Match) : Prop where
  start   : m'.start = rank text m.start
  stop    : m'.stop = rank text m.stop
  outside : Outside text m.stop
  groups  : groupTexts m' = groupTexts m

instance (text : Chars) (m m' : Match) : Decidable (SameHead text m m') :=
  decidable_of_iff (m'.start = rank text m.start ∧ m'.stop = rank text m.stop ∧
      Outside text m.stop ∧ groupTexts m' = groupTexts m)
    ⟨fun h => ⟨h.1, h.2.1, h.2.2.1, h.2.2.2⟩, fun h => ⟨h.start, h.stop, h.outside, h.groups⟩⟩

/-- What is looked up under a key is changed with the values. -/
theorem lookup_map_snd {α β γ : Type} [BEq α] (f : β → γ) (key : α) : ∀ entries : List (α × β),
    (entries.map fun entry => (entry.1, f entry.2)).lookup key = (entries.lookup key).map f
  | [] => rfl
  | entry :: entries => by
    rw [List.map_cons, List.lookup_cons, List.lookup_cons, lookup_map_snd f key entries]
    split <;> rfl

theorem lookup_groupTexts (m : Match) (index : Nat) :
    (groupTexts m).lookup index = (m.group? index).map Span.chars :=
  lookup_map_snd Span.chars index m.groups

section

variable {text : Chars} {m m' : Match} (h : SameHead text m m')
include h

theorem SameHead.chars (index : Nat) :
    (m'.group? index).map Span.chars = (m.group? index).map Span.chars := by
  rw [← lookup_groupTexts, ← lookup_groupTexts, h.groups]

theorem SameHead.isSome (index : Nat) : (m'.group? index).isSome = (m.group? index).isSome := by
  simpa using congrArg Option.isSome (h.chars index)

theorem SameHead.texts (index : Nat) :
    (m'.group? index).map Span.text = (m.group? index).map Span.text := by
  have htexts := congrArg (Option.map String.ofList) (h.chars index)
  rwa [Option.map_map, Option.map_map] at htexts

theorem SameHead.text_eq (index : Nat) : m'.text index = m.text index := by
  rw [Match.text, Match.text, h.texts]

theorem SameHead.name (index : Nat) : Name.ofMatch m' index = Name.ofMatch m index := by
  have hschema := congrArg (Option.map Text.lowercase) (h.texts index)
  rw [Option.map_map, Option.map_map] at hschema
  rw [Name.ofMatch, Name.ofMatch, h.text_eq]
  exact congrArg (fun schema => Name.mk (schema.getD defaultSchema) _) hschema

theorem SameHead.statement : statementOf (read text) m' = (statementOf text m).moved (rank text) := by
  rw [statementOf, statementOf, h.start, h.stop, statementEnd_read h.outside]
  rfl

end

/-! ## Schemas -/

/-- A table at another place. -/
def Table.moved (f : Nat → Nat) (t : Table) : Table :=
  { t with body := t.body.moved f, region := t.region.moved f }

@[simp] theorem Table.moved_name (f : Nat → Nat) (t : Table) : (t.moved f).name = t.name := rfl

@[simp] theorem Table.moved_region (f : Nat → Nat) (t : Table) :
    (t.moved f).region = t.region.moved f := rfl

@[simp] theorem Table.moved_foreignKeys (f : Nat → Nat) (t : Table) : (t.moved f).body.foreignKeys =
    t.body.foreignKeys.map fun key => (key.1, key.2.moved f) := rfl

/-- A policy at another place. -/
def Policy.moved (f : Nat → Nat) (p : Policy) : Policy := { p with region := p.region.moved f }

@[simp] theorem Policy.moved_region (f : Nat → Nat) (p : Policy) :
    (p.moved f).region = p.region.moved f := rfl

/-- A trigger at another place. -/
def Trigger.moved (f : Nat → Nat) (t : Trigger) : Trigger := { t with region := t.region.moved f }

@[simp] theorem Trigger.moved_region (f : Nat → Nat) (t : Trigger) :
    (t.moved f).region = t.region.moved f := rfl

/-- The heads of a kind agree in a script and in the script without its comments. -/
def SameHeads (text : Chars) (head : Pattern) : Prop :=
  List.Forall₂ (SameHead text) (head.all text) (head.all (read text))

/-- Folds over heads that agree give what agrees. -/
theorem foldl_sameHeads {α : Type} (moved : α → α) {text : Chars} {step step' : α → Match → α}
    (hstep : ∀ found m m', SameHead text m m' → step' (moved found) m' = moved (step found m)) :
    ∀ {ms ms' : List Match}, List.Forall₂ (SameHead text) ms ms' → ∀ found : α,
      ms'.foldl step' (moved found) = moved (ms.foldl step found)
  | _, _, .nil, _ => rfl
  | _, _, .cons h hs, found => by
    rw [List.foldl_cons, List.foldl_cons, hstep found _ _ h]
    exact foldl_sameHeads moved hstep hs _

theorem map_sameHeads {α β : Type} (moved : α → β) {text : Chars} {make : Match → α}
    {make' : Match → β} (hmake : ∀ m m', SameHead text m m' → make' m' = moved (make m)) :
    ∀ {ms ms' : List Match}, List.Forall₂ (SameHead text) ms ms' →
      ms'.map make' = (ms.map make).map moved
  | _, _, .nil => rfl
  | _, _, .cons h hs => by
    rw [List.map_cons, List.map_cons, List.map_cons, hmake _ _ h, map_sameHeads moved hmake hs]

section

variable {text : Chars} {m m' : Match}

theorem addTable_read (h : SameHead text m m') (found : List Table × List String) :
    addTable (read text) (found.1.map (·.moved (rank text)), found.2) m' =
      ((addTable text found m).1.map (·.moved (rank text)), (addTable text found m).2) := by
  have hany : (found.1.map (·.moved (rank text))).any (·.name = Name.ofMatch m 1) =
      found.1.any (·.name = Name.ofMatch m 1) := by
    rw [List.any_map]
    rfl
  rw [addTable, addTable, h.stop, matchingParen?_read h.outside, h.name]
  cases hclose : matchingParen? text m.stop with
  | none => rfl
  | some close =>
    have hout := outside_matchingParen h.outside hclose
    have hbody := ofRegion_read (r := ⟨m.stop, close⟩) h.outside (.inl hout)
    simp only [Option.map_some, hany]
    split
    · rfl
    · simp only [List.map_append, List.map_cons, List.map_nil, h.start, statementEnd_read hout]
      exact congrArg (fun body => (_ ++ [Table.mk _ body _], _)) hbody

theorem alterTables_read (h : SameHead text m m') (tables : List Table) :
    alterTables (read text) (tables.map (·.moved (rank text))) m' =
      (alterTables text tables m).map (·.moved (rank text)) := by
  have hstop : (semicolon? (read text) (rank text m.stop)).getD (read text).length =
      rank text ((semicolon? text m.stop).getD text.length) := by
    rw [semicolon?_read h.outside]
    cases semicolon? text m.stop with
    | none => exact rank_length.symm
    | some place => rfl
  have hcuts : Cuts text ((semicolon? text m.stop).getD text.length) := by
    cases hplace : semicolon? text m.stop with
    | none => exact .inr rfl
    | some place => exact .inl (outside_semicolon h.outside hplace).1
  rw [alterTables, alterTables, List.map_map, List.map_map]
  refine List.map_congr_left fun t _ => ?_
  simp only [Function.comp_apply, h.stop, hstop, h.name]
  rw [show (t.moved (rank text)).name = t.name from rfl]
  split
  · exact congrArg (fun body => Table.mk _ body _)
      (clauses_read (r := ⟨m.stop, (semicolon? text m.stop).getD text.length⟩) h.outside hcuts t.body)
  · rfl

theorem addPolicy_read (h : SameHead text m m') (found : List Policy) :
    addPolicy (read text) (found.map (·.moved (rank text))) m' =
      (addPolicy text found m).map (·.moved (rank text)) := by
  rw [addPolicy, addPolicy, h.name, h.isSome, h.text_eq, h.text_eq, h.statement, List.any_map,
    apply_ite (List.map fun p : Policy => p.moved (rank text)), List.map_append]
  rfl

theorem triggerOf_read (h : SameHead text m m') :
    triggerOf (read text) m' = (triggerOf text m).moved (rank text) := by
  rw [triggerOf, triggerOf, h.text_eq, h.name, h.name, h.statement]
  rfl

end

/-- The heads of tables and their alterations, of row level security, policies and triggers agree
in a script and in the script without its comments. -/
def HeadsAgree (text : Chars) : Prop :=
  ∀ head ∈ [Pattern.createTable, Pattern.alterTable, Pattern.enableRls, Pattern.createPolicy,
    Pattern.createTrigger], SameHeads text head

instance (text : Chars) : Decidable (HeadsAgree text) :=
  inferInstanceAs (Decidable (∀ head ∈ [_, _, _, _, _], List.Forall₂ (SameHead text) _ _))

/-- Two schemas declare the same tables, row level security, policies and triggers, the second one
at other places. -/
structure Schema.MovedTo (f : Nat → Nat) (s s' : Schema) : Prop where
  tables   : s'.tables = s.tables.map (·.moved f)
  rls      : s'.rls = s.rls.map fun entry => (entry.1, entry.2.moved f)
  policies : s'.policies = s.policies.map (·.moved f)
  triggers : s'.triggers = s.triggers.map (·.moved f)

/-- **Comments matter to heads only.** -/
theorem ofScript_read {text : Chars} (h : HeadsAgree text) :
    (Schema.ofScript text).MovedTo (rank text) (Schema.ofScript (read text)) where
  tables := by
    have hadded := foldl_sameHeads (fun found : List Table × List String =>
      (found.1.map (·.moved (rank text)), found.2)) (fun found m m' h => addTable_read h found)
      (h Pattern.createTable (by simp)) ([], [])
    exact (congrArg (fun found => List.foldl (alterTables (read text)) found.1 _) hadded).trans
      (foldl_sameHeads (List.map (Table.moved (rank text))) (fun found m m' h => alterTables_read h found)
        (h Pattern.alterTable (by simp)) _)
  rls := map_sameHeads _ (fun m m' h => by rw [h.name, h.start, h.stop]; rfl)
    (h Pattern.enableRls (by simp))
  policies := foldl_sameHeads (List.map (Policy.moved (rank text)))
    (fun found m m' h => addPolicy_read h found) (h Pattern.createPolicy (by simp)) []
  triggers := map_sameHeads _ (fun m m' h => triggerOf_read h) (h Pattern.createTrigger (by simp))

end ArchGraph.Sql
