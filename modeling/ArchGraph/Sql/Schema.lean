import ArchGraph.Sql.Column
/-!
# Database schemas

The tables, policies, functions and triggers that a script declares. Each kind of statement is
looked for on its own, so that the order of the kinds in a script does not matter; of several
declarations of one table or function the first counts. Main statement: the tables of a script are
those of its definitions, altered.
-/

namespace ArchGraph.Sql

open Text (Chars)

/-- A table. -/
structure Table where
  name   : Name
  body   : TableBody
  region : Region
deriving DecidableEq, Repr

/-- A policy of row level security. -/
structure Policy where
  table  : Name
  name   : String
  region : Region
deriving DecidableEq, Repr

/-- A function. -/
structure Function where
  name            : Name
  language        : Option String
  securityDefiner : Bool
  returns         : Option String
  region          : Region
deriving DecidableEq, Repr

/-- A trigger. -/
structure Trigger where
  name     : String
  table    : Name
  function : Name
  region   : Region
deriving DecidableEq, Repr

/-- Everything that a script declares, and the statements that do not end. -/
structure Schema where
  tables    : List Table
  rls       : List (Name × Region)
  policies  : List Policy
  functions : List Function
  triggers  : List Trigger
  warnings  : List String
deriving DecidableEq, Repr

/-- The part of a script from the start of a match to the end of its statement. -/
def statementOf (text : Chars) (m : Match) : Region := ⟨m.start, statementEnd text m.stop⟩

/-! ## Tables -/

/-- Adds the table whose definition starts with a match. -/
def addTable (text : Chars) (found : List Table × List String) (m : Match) :
    List Table × List String :=
  let name := Name.ofMatch m 1
  match matchingParen? text m.stop with
  | none => (found.1, found.2 ++ ["Unterminated CREATE TABLE " ++ name.text])
  | some close =>
    if name.isInternal || found.1.any (·.name = name) then found
    else
      let table : Table :=
        ⟨name, .ofRegion text ⟨m.stop, close⟩, ⟨m.start, statementEnd text close⟩⟩
      (found.1 ++ [table], found.2)

/-- Adds the column that a clause of an alteration adds, unless the table has it. -/
def addClause (text : Chars) (body : TableBody) (region : Region) : TableBody :=
  let clause := stripComments (region.chars text)
  match (Pattern.addColumnClause.first? clause).bind fun m => column? (m.text 1).toList with
  | some c => if body.hasColumn c.name then body else body.addColumn c region
  | none => body

/-- Carries out the alteration that starts with a match. -/
def alterTables (text : Chars) (tables : List Table) (m : Match) : List Table :=
  let stop := (semicolon? text m.stop).getD text.length
  let clauses := items text ⟨m.stop, stop⟩
  tables.map fun t =>
    if t.name = Name.ofMatch m 1 then { t with body := clauses.foldl (addClause text) t.body }
    else t

/-! ## Policies, functions and triggers -/

/-- Adds the policy whose definition starts with a match, unless its table has it. -/
def addPolicy (text : Chars) (found : List Policy) (m : Match) : List Policy :=
  let policy : Policy :=
    ⟨Name.ofMatch m 3, if (m.group? 1).isSome then m.text 1 else m.text 2, statementOf text m⟩
  if found.any fun p => p.table = policy.table ∧ p.name = policy.name then found
  else found ++ [policy]

/-- The dollar-quoted body of a function whose arguments end at `argsEnd`: the first dollar quote
in front of the next semicolon, up to the same quote. Without a closing quote there is no body but
an error. -/
def dollarBody? (text : Chars) (argsEnd : Nat) : Option (Option Region) :=
  let rest := text.drop argsEnd
  let head := rest.takeWhile (· != ';')
  match Pattern.dollarQuote.first? rest with
  | some m =>
    if head.length = rest.length ∨ m.start < head.length then
      let closing := '$' :: (m.text 1).toList ++ ['$']
      (Text.cut? closing (rest.drop m.stop)).map fun (body, _) =>
        some ⟨argsEnd + m.start, argsEnd + m.stop + body.length + closing.length⟩
    else some none
  | none => some none

/-- The function whose definition starts with a match. Its attributes stand outside of its
body. -/
def function? (text : Chars) (m : Match) : Option Function := do
  let argsEnd ← matchingParen? text m.stop
  let body? ← dollarBody? text argsEnd
  let plainEnd :=
    let head := (text.drop argsEnd).takeWhile (· != ';')
    min (argsEnd + head.length + 1) text.length
  let stop := match body? with
    | some body => statementEnd text body.stop
    | none => plainEnd
  let body := body?.getD ⟨stop, stop⟩
  let attributes :=
    Region.chars ⟨m.start, body.start⟩ text ++ ' ' :: Region.chars ⟨body.stop, stop⟩ text
  return {
    name := Name.ofMatch m 1
    language := (Pattern.functionLanguage.first? attributes).map fun m => Text.lowercase (m.text 1)
    securityDefiner := Pattern.securityDefiner.occursIn attributes
    returns := (Pattern.functionReturns.first? attributes).map fun m => Text.lowercase (m.text 1)
    region := ⟨m.start, stop⟩ }

/-- Adds the function whose definition starts with a match. -/
def addFunction (text : Chars) (found : List Function × List String) (m : Match) :
    List Function × List String :=
  let name := Name.ofMatch m 1
  if name.isInternal || found.1.any (·.name = name) then found
  else match function? text m with
    | some f => (found.1 ++ [f], found.2)
    | none => (found.1, found.2 ++ ["Unterminated CREATE FUNCTION " ++ name.text])

/-- The trigger of a match. -/
def triggerOf (text : Chars) (m : Match) : Trigger :=
  ⟨m.text 1, Name.ofMatch m 2, Name.ofMatch m 4, statementOf text m⟩

namespace Schema

/-- The schema that a script declares. -/
def ofScript (text : Chars) : Schema :=
  let (tables, tableWarnings) := (Pattern.createTable.all text).foldl (addTable text) ([], [])
  let (functions, functionWarnings) :=
    (Pattern.createFunction.all text).foldl (addFunction text) ([], [])
  { tables := (Pattern.alterTable.all text).foldl (alterTables text) tables
    rls := (Pattern.enableRls.all text).map fun m => (Name.ofMatch m 1, ⟨m.start, m.stop⟩)
    policies := (Pattern.createPolicy.all text).foldl (addPolicy text) []
    functions
    triggers := (Pattern.createTrigger.all text).map (triggerOf text)
    warnings := tableWarnings ++ functionWarnings }

/-- The table with a name. -/
def table? (s : Schema) (name : Name) : Option Table := s.tables.find? (·.name = name)

/-- The statement that turned row level security on for a table. -/
def rlsOf? (s : Schema) (name : Name) : Option Region := s.rls.lookup name

/-- The policies of a table. -/
def policiesOf (s : Schema) (name : Name) : List Policy := s.policies.filter (·.table = name)

/-! ## Laws -/

/-- What holds of the table of every definition and is kept by every alteration holds of the tables
of a script. -/
theorem forall_mem_tables {text : Chars} {motive : Table → Prop}
    (hadd : ∀ m ∈ Pattern.createTable.all text, ∀ close, matchingParen? text m.stop = some close →
      motive ⟨.ofMatch m 1, .ofRegion text ⟨m.stop, close⟩, ⟨m.start, statementEnd text close⟩⟩)
    (halter : ∀ m ∈ Pattern.alterTable.all text, ∀ t, motive t → motive { t with
      body := (items text ⟨m.stop, (semicolon? text m.stop).getD text.length⟩).foldl
        (addClause text) t.body }) : ∀ t ∈ (ofScript text).tables, motive t := by
  have hadded : ∀ t ∈ ((Pattern.createTable.all text).foldl (addTable text) ([], [])).1,
      motive t := by
    apply List.foldlRecOn (motive := fun found : List Table × List String =>
      ∀ t ∈ found.1, motive t)
    · intro t ht
      cases ht
    · intro found hfound m hm t ht
      unfold addTable at ht
      dsimp only at ht
      split at ht
      · exact hfound t ht
      · next close hclose =>
        split at ht
        · exact hfound t ht
        · rcases List.mem_append.1 ht with ht | ht
          · exact hfound t ht
          · rw [List.mem_singleton.1 ht]
            exact hadd m hm close hclose
  unfold ofScript
  apply List.foldlRecOn (motive := fun tables : List Table => ∀ t ∈ tables, motive t) _ _ hadded
  intro tables htables m hm t ht
  obtain ⟨t', ht', rfl⟩ := List.mem_map.1 ht
  split
  · exact halter m hm t' (htables t' ht')
  · exact htables t' ht'

end Schema
end ArchGraph.Sql
