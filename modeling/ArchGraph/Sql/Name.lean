import ArchGraph.Pattern.Sql
/-!
# Qualified names

Names of tables and functions, in lower case, each in a schema; without one they belong to
`public`. Schemas that the platform itself maintains are internal.
-/

namespace ArchGraph.Sql

open Text (Chars lower lowercase)

/-- The schema of names that mention none. -/
def defaultSchema : String := "public"

/-- A name in a schema. -/
structure Name where
  schema : String
  name   : String
deriving DecidableEq, Repr

/-- Schemas that the platform maintains. -/
def internalSchemas : List String :=
  ["auth", "storage", "extensions", "graphql", "graphql_public", "realtime",
   "supabase_functions", "supabase_migrations", "pgsodium", "vault", "net", "cron",
   "pg_catalog", "information_schema"]

namespace Name

/-- The name in the groups of a match: its schema in group `index`, its name in the next one. -/
def ofMatch (m : Match) (index : Nat) : Name :=
  ⟨((m.group? index).map fun s => lowercase s.text).getD defaultSchema,
   lowercase (m.text (index + 1))⟩

/-- Whether a name is none of the project's own. -/
def isInternal (n : Name) : Bool :=
  internalSchemas.contains n.schema || n.name.toList.head? == some '_' || n.name == ""

/-- A name with its schema. -/
def text (n : Name) : String := n.schema ++ "." ++ n.name

end Name
end ArchGraph.Sql
