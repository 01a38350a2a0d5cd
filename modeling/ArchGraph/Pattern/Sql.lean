import ArchGraph.Pattern.Basic
import ArchGraph.Text.Case
/-!
# Patterns of SQL statements

Heads and clauses of the statements that a migration is made of. Keywords are read in any letter
case. A qualified name is a name with an optional schema in front of it, each with optional double
quotes; it fills two groups, the schema and the name.
-/

namespace ArchGraph.Pattern

open Text (isBlank isWord)

/-- A keyword in any letter case. -/
def keyword (s : String) : Pattern :=
  concat (s.toList.map fun letter => one (Text.sameLetter letter))

/-- Keywords with white space between them. -/
def phrase (s : String) : Pattern :=
  concat (((Text.words s.toList).map fun w => keyword (String.ofList w)).intersperse gap)

/-- An optional double quote. -/
def optQuote : Pattern := opt (lit "\"")

/-- A name made of word characters. -/
def name (index : Nat) : Pattern := group index (many isWord 1)

/-- A qualified name: its schema in group `index`, its name in the next one. -/
def qualified (index : Nat) : Pattern :=
  opt (optQuote ++ name index ++ optQuote ++ lit ".") ++ optQuote ++ name (index + 1) ++ optQuote

/-- Text in round brackets without a closing one inside, in a group. -/
def bracketed (index : Nat) : Pattern :=
  lit "(" ++ group index (many (· != ')') 0) ++ lit ")"

/-- The head of a table's definition up to its opening bracket; groups 1 and 2 name the table. -/
def createTable : Pattern :=
  edge ++ phrase "create" ++ gap ++ opt (phrase "unlogged" ++ gap) ++ phrase "table" ++ gap ++
    opt (phrase "if not exists" ++ gap) ++ qualified 1 ++ blanks ++ lit "("

/-- The head of an alteration of a table. -/
def alterHead : Pattern :=
  edge ++ phrase "alter table" ++ gap ++ opt (phrase "only" ++ gap) ++
    opt (phrase "if exists" ++ gap) ++ qualified 1

/-- An alteration of a table up to its first clause; groups 1 and 2 name the table. -/
def alterTable : Pattern := alterHead ++ gap

/-- A clause that adds a column; group 1 is the column's definition. -/
def addColumnClause : Pattern :=
  look .textStart ++ phrase "add column" ++ gap ++ opt (phrase "if not exists" ++ gap) ++
    group 1 (many (fun _ => true) 1) ++ look .textEnd

/-- A statement that turns row level security on; groups 1 and 2 name the table. -/
def enableRls : Pattern := alterHead ++ gap ++ phrase "enable row level security"

/-- The head of a policy: its name quoted (group 1) or bare (group 2), and its table in groups 3
and 4. -/
def createPolicy : Pattern :=
  edge ++ phrase "create policy" ++ gap ++
    alt (lit "\"" ++ group 1 (many (· != '"') 1) ++ lit "\"") (name 2) ++
    gap ++ phrase "on" ++ gap ++ qualified 3

/-- An optional `or replace`. -/
def orReplace : Pattern := opt (phrase "or replace" ++ gap)

/-- The head of a function up to its opening bracket; groups 1 and 2 name it. -/
def createFunction : Pattern :=
  edge ++ phrase "create" ++ gap ++ orReplace ++ phrase "function" ++ gap ++ qualified 1 ++
    blanks ++ lit "("

/-- A trigger: its name in group 1, its table in groups 2 and 3, its function in groups 4 and
5. -/
def createTrigger : Pattern :=
  edge ++ phrase "create" ++ gap ++ orReplace ++ opt (phrase "constraint" ++ gap) ++
    phrase "trigger" ++ gap ++ optQuote ++ name 1 ++ optQuote ++
    few (· != ';') ++ edge ++ phrase "on" ++ gap ++ qualified 2 ++
    few (· != ';') ++ edge ++ phrase "execute" ++ gap ++
    alt (phrase "function") (phrase "procedure") ++ gap ++ qualified 4 ++ blanks ++ lit "("

/-- A reference to a table (groups 1 and 2) and perhaps its column (group 3). -/
def references : Pattern :=
  edge ++ phrase "references" ++ gap ++ qualified 1 ++
    opt (blanks ++ lit "(" ++ blanks ++ optQuote ++ name 3 ++ optQuote ++ blanks ++ lit ")")

/-- The columns of a primary key in group 1. -/
def tablePrimaryKey : Pattern := edge ++ phrase "primary key" ++ blanks ++ bracketed 1

/-- The columns of a foreign key in group 1. -/
def tableForeignKey : Pattern := edge ++ phrase "foreign key" ++ blanks ++ bracketed 1

/-- A dollar quote; group 1 is its tag. -/
def dollarQuote : Pattern := lit "$" ++ group 1 (many isWord 0) ++ lit "$"

/-- The language of a function in group 1. -/
def functionLanguage : Pattern :=
  edge ++ phrase "language" ++ gap ++ opt (lit "'") ++ name 1 ++ opt (lit "'")

/-- The return type of a function in group 1. -/
def functionReturns : Pattern :=
  edge ++ phrase "returns" ++ gap ++
    group 1
      (opt (phrase "setof" ++ gap) ++ many (fun c => isWord c || c == '.') 1 ++ opt (lit "[]"))

/-- A function that runs with its owner's rights. -/
def securityDefiner : Pattern := edge ++ phrase "security definer" ++ edge

/-- A mention of the platform's users table. -/
def authUsers : Pattern := edge ++ keyword "auth" ++ lit "." ++ keyword "users" ++ edge

/-- A mention of the platform's storage tables. -/
def storageRef : Pattern :=
  edge ++ keyword "storage" ++ lit "." ++ alt (keyword "buckets") (keyword "objects") ++ edge

/-- An insertion of storage buckets: the columns in group 1, the values in group 2. -/
def bucketInsert : Pattern :=
  edge ++ phrase "insert into" ++ gap ++ keyword "storage" ++ lit "." ++ keyword "buckets" ++
    blanks ++ bracketed 1 ++ blanks ++ keyword "values" ++ blanks ++ group 2 (many (· != ';') 1)

/-- A tuple without inner brackets; group 1 holds its items. -/
def sqlTuple : Pattern :=
  lit "(" ++ group 1 (many (fun c => c != '(' && c != ')') 0) ++ lit ")"

end ArchGraph.Pattern
