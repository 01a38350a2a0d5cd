import ArchGraph.Graph.Node
import ArchGraph.Sql.Lexer
import ArchGraph.Sql.Name
/-!
# Columns

The items between the brackets of a table's definition: columns, and constraints that mark columns
as parts of a primary or a foreign key. A constraint acts on the columns listed above it. Main
statement: what every mark keeps is kept by a constraint.
-/

namespace ArchGraph.Sql

open Text (Chars trim lower words pieces unquote)

/-- Words that open a constraint of the whole table. -/
def constraintWords : List String :=
  ["constraint", "primary", "foreign", "unique", "check", "exclude", "like"]

/-- Words that end the type of a column. -/
def typeTerminators : List String :=
  ["not", "null", "primary", "references", "default", "unique", "check", "constraint",
   "generated", "collate"]

/-- A word in lower case. -/
def lowerWord (word : Chars) : String := String.ofList (lower word)

/-- The names in a list of columns. -/
def columnNames (list : Chars) : List String :=
  ((pieces (· = ',') list).map fun name => lowerWord (unquote (trim name))).filter (· ≠ "")

/-- What a match of a reference refers to. -/
def referenceOf (m : Match) : ColumnReference where
  schema := (m.group? 1).map fun s => lowerWord s.chars
  table := Text.lowercase (m.text 2)
  column := (m.group? 3).map fun s => lowerWord s.chars

/-- The column with a definition: a name, the words of its type, and its attributes. -/
def column? (definition : Chars) : Option Column :=
  let definition := stripComments definition
  match words definition with
  | [] => none
  | first :: rest =>
    let name := lowerWord (unquote first)
    let type := (rest.takeWhile fun w => !typeTerminators.contains (lowerWord w)).map String.ofList
    let lowered := lower definition
    let primaryKey := Text.contains "primary key".toList lowered
    let references := (Pattern.references.first? definition).map referenceOf
    if name = "" || type.isEmpty then none
    else
      some {
        name
        dataType := Text.lowercase (" ".intercalate type)
        nullable := !(primaryKey || Text.contains "not null".toList lowered)
        primaryKey
        foreignKey := references.isSome
        references }

/-- The columns of a table, and for each foreign key its column and the part of the script that
declares it. -/
structure TableBody where
  columns     : List Column
  foreignKeys : List (String × Region)
deriving DecidableEq, Repr

namespace TableBody

/-- Changes the first column with a name. -/
def updateColumn (change : Column → Column) (name : String) : List Column → List Column
  | [] => []
  | c :: rest => if c.name = name then change c :: rest else c :: updateColumn change name rest

/-- Whether there is a column with a name. -/
def hasColumn (body : TableBody) (name : String) : Bool := body.columns.any (·.name == name)

/-- Marks a column as a part of the primary key. -/
def markPrimary (body : TableBody) (name : String) : TableBody :=
  { body with
    columns := updateColumn (fun c => { c with primaryKey := true, nullable := false }) name
      body.columns }

/-- Marks a column as a foreign key that a part of the script declares. -/
def markForeign (reference : ColumnReference) (region : Region) (body : TableBody)
    (name : String) : TableBody :=
  if body.hasColumn name then
    { columns := updateColumn
        (fun c => { c with foreignKey := true, references := some reference }) name body.columns
      foreignKeys := body.foreignKeys ++ [(name, region)] }
  else body

/-- Applies a constraint of the whole table. -/
def constrain (body : TableBody) (item : Chars) (region : Region) : TableBody :=
  let body := match Pattern.tablePrimaryKey.first? item with
    | some m => (columnNames (m.text 1).toList).foldl markPrimary body
    | none => body
  match Pattern.tableForeignKey.first? item, Pattern.references.first? item with
  | some key, some reference =>
    (columnNames (key.text 1).toList).foldl (markForeign (referenceOf reference) region) body
  | _, _ => body

/-- Adds a column that a part of the script declares. -/
def addColumn (body : TableBody) (c : Column) (region : Region) : TableBody where
  columns := body.columns ++ [c]
  foreignKeys := if c.foreignKey then body.foreignKeys ++ [(c.name, region)] else body.foreignKeys

/-- Adds an item between the brackets of a table's definition. -/
def addItem (text : Chars) (body : TableBody) (region : Region) : TableBody :=
  let item := stripComments (region.chars text)
  match words item with
  | [] => body
  | first :: _ =>
    if constraintWords.contains (lowerWord first) then body.constrain item region
    else match column? item with
      | some c => body.addColumn c region
      | none => body

/-- The body of a table between its brackets. -/
def ofRegion (text : Chars) (r : Region) : TableBody :=
  (items text r).foldl (addItem text) ⟨[], []⟩

/-! ## Laws -/

/-- What every mark that a constraint sets keeps is kept by the constraint. -/
theorem constrain_induction {motive : TableBody → Prop} {item : Chars} {region : Region}
    (hprimary : ∀ body name, motive body → motive (body.markPrimary name))
    (hforeign : ∀ m, Pattern.references.first? item = some m → ∀ body name, motive body →
      motive (markForeign (referenceOf m) region body name))
    {body : TableBody} (h : motive body) : motive (body.constrain item region) := by
  have hmarked : ∀ names : List String, motive (names.foldl markPrimary body) := by
    intro names
    apply List.foldlRecOn (motive := motive) _ _ h
    intro body hbody name _
    exact hprimary body name hbody
  unfold constrain
  dsimp only
  split
  · next key m _ hm =>
    apply List.foldlRecOn (motive := motive)
    · split
      · exact hmarked _
      · exact h
    · intro body hbody name _
      exact hforeign m hm body name hbody
  · split
    · exact hmarked _
    · exact h

end TableBody
end ArchGraph.Sql
