import ArchGraph.Graph.Store
import ArchGraph.Sql.Migrations
import ArchGraph.Sql.Schema
/-!
# Discovering the database

Tables, functions and triggers of the migrations, and the authentication and storage subsystems
that the migrations, or calls found before, imply.
-/

namespace ArchGraph.Discovery

open Text (Chars)
open Sql (Migrations Name Region Schema)

/-- The table that conventionally holds what is known about users. -/
def profilesName : Name := ⟨Sql.defaultSchema, "profiles"⟩

/-! ## Tables -/

/-- The node of a table. -/
def tableNode (m : Migrations) (s : Schema) (t : Sql.Table) : Node where
  id := Id.table t.name.schema t.name.name
  label := t.name.name
  owningRepo := m.repoOf? t.region
  detail := .table {
    schema := t.name.schema
    columns := t.body.columns
    hasRls := (s.rlsOf? t.name).isSome
    policies := (s.policiesOf t.name).map (·.name) }

/-- A citation of a part of the script with that part as its excerpt. -/
def citePart (m : Migrations) (kind : EvidenceKind) (nodeId : String) (r : Region) : Citation :=
  { m.cite kind nodeId r with excerpt := lineExcerpt (r.chars m.text) }

/-- A citation of a statement with that statement as its excerpt. -/
def citeBlock (m : Migrations) (kind : EvidenceKind) (nodeId : String) (r : Region) : Citation :=
  { m.cite kind nodeId r with excerpt := blockExcerpt (r.chars m.text) }

/-- What a reference points at: the users of the authentication subsystem or a table of the
project; tables of other internal schemas are no targets. -/
def referencedNode? (ref : ColumnReference) : Option String :=
  let name : Name := ⟨ref.schema.getD Sql.defaultSchema, ref.table⟩
  if name.schema = "auth" ∧ name.name = "users" then some Id.auth
  else if name.isInternal then none
  else some (Id.table name.schema name.name)

/-- The edge of a foreign key that a part of the script declares. -/
def foreignKeyEdge (m : Migrations) (t : Sql.Table) (key : String × Region) : Findings :=
  let tableId := Id.table t.name.schema t.name.name
  match (t.body.columns.find? (·.name == key.1)).bind (·.references) with
  | none => .empty
  | some ref =>
    match referencedNode? ref with
    | none => .empty
    | some target =>
      let name : Name := ⟨ref.schema.getD Sql.defaultSchema, ref.table⟩
      let references := match ref.column with
        | some column => name.text ++ "." ++ column
        | none => name.text
      let edge := Edge.make .reads tableId (.node target) key.1 (.foreignKey key.1 references) .high
      .citedEdge edge { citePart m .sqlMigration tableId key.2 with edgeId := some edge.id }

/-- A table with its citations and foreign keys. -/
def tableFindings (m : Migrations) (s : Schema) (t : Sql.Table) : Findings :=
  let node := tableNode m s t
  let rls := (s.rlsOf? t.name).toList.map fun r =>
    Findings.citation (citePart m .rlsPolicy node.id r)
  let policies := (s.policiesOf t.name).map fun p =>
    Findings.citation (citePart m .rlsPolicy node.id p.region)
  .node node ++ .citation (citeBlock m .dbTable node.id t.region) ++ .concat rls ++
    .concat policies ++ .concat (t.body.foreignKeys.map (foreignKeyEdge m t))

/-! ## Functions and triggers -/

/-- A function with its citation. -/
def functionFindings (m : Migrations) (f : Sql.Function) : Findings :=
  let node : Node :=
    { id := Id.function f.name.schema f.name.name
      label := f.name.name
      owningRepo := m.repoOf? f.region
      detail := .function ⟨f.name.schema, f.language, f.securityDefiner, f.returns⟩ }
  .node node ++ .citation (citeBlock m .dbFunction node.id f.region)

/-- The edge of a trigger, if its table is known. -/
def triggerFindings (m : Migrations) (s : Schema) (t : Sql.Trigger) : Findings :=
  if (s.table? t.table).isNone then .empty
  else
    let tableId := Id.table t.table.schema t.table.name
    let functionId := Id.function t.function.schema t.function.name
    let edge :=
      Edge.make .usesFunction tableId (.node functionId) t.name (.trigger t.name) .high
    .citedEdge edge { citePart m .sqlMigration tableId t.region with edgeId := some edge.id }

/-! ## Subsystems -/

/-- The citation of a mention: its place, and its statement as the excerpt. -/
def citeMention (m : Migrations) (nodeId : String) (found : Match) : Citation :=
  { m.cite .sqlMigration nodeId ⟨found.start, found.stop⟩ with
    excerpt := lineExcerpt ((Sql.statementOf m.text found).chars m.text) }

/-- The insertion into the profiles table that a new user causes. -/
def profileEdge (m : Migrations) (t : Sql.Table) : Findings :=
  let edge := Edge.make .writes Id.auth (.node (Id.table t.name.schema t.name.name))
    DbOperation.insert.name (.dataAccess .insert t.name.name) .medium
  .citedEdge edge {
    m.cite .dbTable Id.auth t.region with
    edgeId := some edge.id
    excerpt := lineExcerpt ((Text.lines (t.region.chars m.text)).headD [])
    confidence := .medium }

/-- The authentication subsystem, if the migrations mention its users, declare a profiles table,
or calls of it were found. -/
def authFindings (m : Migrations) (s : Schema) (g : Graph) : Findings :=
  let users := Pattern.authUsers.first? m.text
  let profiles := s.table? profilesName
  if users.isNone && profiles.isNone && (g.edgesOf .authenticates).isEmpty then .empty
  else
    .node ⟨Id.auth, "Auth", none, .auth ⟨users.map fun _ => "supabase"⟩⟩ ++
      .concat (users.toList.map fun found => .citation (citeMention m Id.auth found)) ++
      .concat (profiles.toList.map (profileEdge m))

/-- The buckets that an insertion into the platform's bucket table creates. -/
def insertedBuckets (m : Match) : List String :=
  let columns := Sql.columnNames (m.text 1).toList
  match (columns.findIdx? (· == "id")).or (columns.findIdx? (· == "name")) with
  | none => []
  | some position =>
    (Pattern.sqlTuple.all (m.text 2).toList).filterMap fun tuple =>
      (Text.pieces (· = ',') (tuple.text 1).toList)[position]?.bind fun value =>
        let bucket := Text.unquote (Text.trim value)
        if bucket.isEmpty then none else some (String.ofList bucket)

/-- The bucket that an edge accesses. -/
def accessedBucket? (e : Edge) : Option String :=
  match e.detail with
  | .storageAccess bucket => some bucket
  | _ => none

/-- The storage subsystem, if the migrations mention it or calls of it were found. -/
def storageFindings (m : Migrations) (g : Graph) : Findings :=
  let mention := Pattern.storageRef.first? m.text
  let calls := g.edgesOf .stores
  let buckets := Text.sortedSet
    ((Pattern.bucketInsert.all m.text).flatMap insertedBuckets ++ calls.filterMap accessedBucket?)
  if mention.isNone && calls.isEmpty then .empty
  else
    .node ⟨Id.storage, "Storage", none, .storage ⟨buckets⟩⟩ ++
      .concat (mention.toList.map fun found => .citation (citeMention m Id.storage found))

/-- What the migrations of a project say about its database. -/
def database (p : Project) (g : Graph) : Findings :=
  let m := Migrations.ofProject p
  let s := Schema.ofScript m.text
  { warnings := s.warnings } ++ .concat (s.tables.map (tableFindings m s)) ++
    .concat (s.functions.map (functionFindings m)) ++
    .concat (s.triggers.map (triggerFindings m s)) ++ authFindings m s g ++ storageFindings m g

end ArchGraph.Discovery
