import ArchGraph.Proofs.Discovery.UsersReference
import ArchGraph.Proofs.Sql.Files
import ArchGraph.Proofs.Sql.Transparency
/-!
# Comments in migrations

Comments are transparent to the tables of a database and to the relations that migrations declare,
as long as they leave the heads of statements alone (`database_of_blanked`): taking the comments out
of every migration file changes neither a table's columns, its row level security and its policies,
nor a foreign key or a trigger. A comment that holds a head is taken for a statement
(`rls_in_comment`). Functions are left out, since their bodies are cut out of the script as it
stands.
-/

namespace ArchGraph.Discovery

open Sql (Migrations Schema Blanked Closed HeadsAgree blank)
open Text (Chars)

/-! ## What the migrations declare -/

/-- The tables that were found, without the repositories that they are placed in. -/
def tablesOf (f : Findings) : List Node := (f.nodesOf .table).map ({ · with owningRepo := none })

/-- Whether an edge is a foreign key or a trigger. -/
def isDeclared (e : Edge) : Bool :=
  match e.detail with
  | .foreignKey .. | .trigger .. => true
  | _ => false

/-- An edge without its citations. -/
def uncited (e : Edge) : Edge := { e with evidenceIds := [] }

/-- The foreign keys and triggers that were found, without their citations. -/
def relationsOf (f : Findings) : List Edge := (f.edges.filter isDeclared).map uncited

section

variable (a b : Findings)

@[simp] theorem tablesOf_append : tablesOf (a ++ b) = tablesOf a ++ tablesOf b := by
  rw [tablesOf, Findings.nodesOf, Findings.nodes_append, List.filter_append, List.map_append]
  rfl

@[simp] theorem relationsOf_append : relationsOf (a ++ b) = relationsOf a ++ relationsOf b := by
  rw [relationsOf, Findings.edges_append, List.filter_append, List.map_append]
  rfl

theorem tablesOf_node_of_ne {n : Node} (h : n.kind ≠ .table) : tablesOf (.node n) = [] := by
  simp [tablesOf, Findings.nodesOf, Findings.node, h]

@[simp] theorem tablesOf_citation (c : Citation) : tablesOf (.citation c) = [] := rfl

@[simp] theorem relationsOf_citation (c : Citation) : relationsOf (.citation c) = [] := rfl

theorem relationsOf_citedEdge (e : Edge) (c : Citation) :
    relationsOf (.citedEdge e c) = if isDeclared e then [uncited e] else [] := by
  have hdeclared : isDeclared (e.cite c.evidence.id) = isDeclared e := rfl
  have huncited : uncited (e.cite c.evidence.id) = uncited e := rfl
  simp only [relationsOf, Findings.citedEdge, List.filter_cons, hdeclared, List.filter_nil]
  split
  · rw [List.map_singleton, huncited]
  · rfl

@[simp] theorem relationsOf_node (n : Node) : relationsOf (.node n) = [] := rfl

end

section

variable {α : Type} (xs : List α) (f : α → Findings)

theorem flatMap_nil {β : Type} : xs.flatMap (fun _ => ([] : List β)) = [] := by simp

@[simp] theorem tablesOf_concat_map :
    tablesOf (.concat (xs.map f)) = xs.flatMap fun x => tablesOf (f x) := by
  simp [tablesOf, Findings.nodesOf, Findings.concat, List.filter_flatMap, List.flatMap_map,
    List.map_flatMap]

@[simp] theorem relationsOf_concat_map :
    relationsOf (.concat (xs.map f)) = xs.flatMap fun x => relationsOf (f x) := by
  simp [relationsOf, Findings.concat, List.filter_flatMap, List.flatMap_map, List.map_flatMap]

end

section

variable (m : Migrations) (s : Schema) (g : Graph)

@[simp] theorem tablesOf_foreignKeyEdge (t : Sql.Table) (key : String × Sql.Region) :
    tablesOf (foreignKeyEdge m t key) = [] := by
  rw [foreignKeyEdge]
  split
  · rfl
  · split <;> rfl

@[simp] theorem tablesOf_tableFindings (t : Sql.Table) :
    tablesOf (tableFindings m s t) = [{ tableNode m s t with owningRepo := none }] := by
  have hnode : tablesOf (.node (tableNode m s t)) = [{ tableNode m s t with owningRepo := none }] :=
    rfl
  simp [tableFindings, hnode]

@[simp] theorem relationsOf_tableFindings (t : Sql.Table) : relationsOf (tableFindings m s t) =
    t.body.foreignKeys.flatMap fun key => relationsOf (foreignKeyEdge m t key) := by
  rw [relationsOf, edges_tableFindings]
  exact relationsOf_concat_map _ _

@[simp] theorem tablesOf_functionFindings (f : Sql.Function) :
    tablesOf (functionFindings m f) = [] := rfl

@[simp] theorem relationsOf_functionFindings (f : Sql.Function) :
    relationsOf (functionFindings m f) = [] := rfl

@[simp] theorem tablesOf_triggerFindings (t : Sql.Trigger) :
    tablesOf (triggerFindings m s t) = [] := by
  rw [triggerFindings]
  split <;> rfl

@[simp] theorem tablesOf_authFindings : tablesOf (authFindings m s g) = [] := by
  have hprofile (t : Sql.Table) : tablesOf (profileEdge m t) = [] := rfl
  have hnode (provider : Option String) :
      tablesOf (.node ⟨Id.auth, "Auth", none, .auth ⟨provider⟩⟩) = [] :=
    tablesOf_node_of_ne (by simp [Node.kind, NodeDetail.kind])
  rw [authFindings]
  split
  · rfl
  · simp [hprofile, hnode]

@[simp] theorem relationsOf_authFindings : relationsOf (authFindings m s g) = [] := by
  have hprofile (t : Sql.Table) : relationsOf (profileEdge m t) = [] := rfl
  rw [authFindings]
  split
  · rfl
  · simp [hprofile]

@[simp] theorem tablesOf_storageFindings : tablesOf (storageFindings m g) = [] := by
  have hnode (buckets : List String) :
      tablesOf (.node ⟨Id.storage, "Storage", none, .storage ⟨buckets⟩⟩) = [] :=
    tablesOf_node_of_ne (by simp [Node.kind, NodeDetail.kind])
  rw [storageFindings]
  split
  · rfl
  · simp [hnode]

@[simp] theorem relationsOf_storageFindings : relationsOf (storageFindings m g) = [] := by
  rw [relationsOf, edges_storageFindings]
  rfl

end

section

variable (p : Project) (g : Graph)

/-- The tables of a database are those of its schema. -/
theorem tablesOf_database :
    let m := Migrations.ofProject p
    let s := Schema.ofScript m.text
    tablesOf (database p g) =
      s.tables.map fun t => { tableNode m s t with owningRepo := none } := by
  have hwarnings (warnings : List String) : tablesOf { warnings } = [] := rfl
  simp only [List.map_eq_flatMap]
  simp [database, hwarnings, flatMap_nil]

/-- The relations of a database are the foreign keys of its tables and its triggers. -/
theorem relationsOf_database :
    let m := Migrations.ofProject p
    let s := Schema.ofScript m.text
    relationsOf (database p g) =
      (s.tables.flatMap fun t => t.body.foreignKeys.flatMap fun key =>
        relationsOf (foreignKeyEdge m t key)) ++
      s.triggers.flatMap fun t => relationsOf (triggerFindings m s t) := by
  have hwarnings (warnings : List String) : relationsOf { warnings } = [] := rfl
  simp [database, hwarnings, flatMap_nil]

end

/-! ## Schemas at other places -/

section

variable {f : Nat → Nat} {s s' : Schema} (h : s.MovedTo f s') (m m' : Migrations)
include h

theorem rlsOf?_moved (name : Sql.Name) : (s'.rlsOf? name).isSome = (s.rlsOf? name).isSome := by
  rw [Schema.rlsOf?, Schema.rlsOf?, h.rls]
  generalize s.rls = rls
  induction rls with
  | nil => rfl
  | cons entry rls ih =>
    rw [List.map_cons, List.lookup_cons, List.lookup_cons]
    split
    · rfl
    · exact ih

theorem policiesOf_moved (name : Sql.Name) :
    (s'.policiesOf name).map (·.name) = (s.policiesOf name).map (·.name) := by
  rw [Schema.policiesOf, Schema.policiesOf, h.policies, List.filter_map, List.map_map]
  rfl

theorem table?_moved (name : Sql.Name) : (s'.table? name).isNone = (s.table? name).isNone := by
  rw [Schema.table?, Schema.table?, h.tables, List.find?_map, Option.isNone_map]
  rfl

theorem tableNode_moved (t : Sql.Table) : { tableNode m' s' (t.moved f) with owningRepo := none } =
    { tableNode m s t with owningRepo := none } := by
  simp only [tableNode, Sql.Table.moved, rlsOf?_moved h, policiesOf_moved h, Sql.TableBody.moved]

theorem relationsOf_triggerFindings_moved (t : Sql.Trigger) :
    relationsOf (triggerFindings m' s' (t.moved f)) = relationsOf (triggerFindings m s t) := by
  rw [triggerFindings, triggerFindings, Sql.Trigger.moved, table?_moved h]
  split
  · rfl
  · rw [relationsOf_citedEdge, relationsOf_citedEdge]

end

theorem relationsOf_foreignKeyEdge_moved (f : Nat → Nat) (m m' : Migrations) (t : Sql.Table)
    (key : String × Sql.Region) : relationsOf (foreignKeyEdge m' (t.moved f) (key.1, key.2.moved f)) =
      relationsOf (foreignKeyEdge m t key) := by
  have hcolumns : (t.moved f).body.columns = t.body.columns := rfl
  have hname : (t.moved f).name = t.name := rfl
  rw [foreignKeyEdge, foreignKeyEdge, hcolumns, hname]
  cases (t.body.columns.find? (·.name == key.1)).bind (·.references) with
  | none => rfl
  | some ref =>
    simp only
    split
    · rfl
    · rw [relationsOf_citedEdge, relationsOf_citedEdge]

theorem foreignKeys_moved (f : Nat → Nat) (m m' : Migrations) (t : Sql.Table) :
    ((t.moved f).body.foreignKeys.flatMap fun key =>
        relationsOf (foreignKeyEdge m' (t.moved f) key)) =
      t.body.foreignKeys.flatMap fun key => relationsOf (foreignKeyEdge m t key) := by
  rw [Sql.Table.moved, Sql.TableBody.moved, List.flatMap_map]
  exact List.flatMap_congr fun key _ => relationsOf_foreignKeyEdge_moved f m m' t key

/-- **Comments are transparent behind heads.** Let the migration files of a project be blanked,
none of which ends inside of a string or a block comment. If the heads of statements agree in the
script and in the script without its comments, the same tables, foreign keys and triggers are
found. -/
theorem database_of_blanked {p p' : Project} (h : Blanked p p')
    (hclosed : ∀ r ∈ p.repositories, ∀ file ∈ Migrations.filesOf p r, Closed file.2.toList)
    (hheads : HeadsAgree (Migrations.ofProject p).text) (g g' : Graph) :
    tablesOf (database p' g') = tablesOf (database p g) ∧
      relationsOf (database p' g') = relationsOf (database p g) := by
  have hmoved := Sql.ofScript_read hheads
  rw [tablesOf_database, tablesOf_database, relationsOf_database, relationsOf_database,
    Sql.text_of_blanked h hclosed, hmoved.tables, hmoved.triggers]
  constructor
  · rw [List.map_map]
    exact List.map_congr_left fun t _ => tableNode_moved hmoved _ _ t
  · rw [List.flatMap_map, List.flatMap_map]
    exact congrArg₂ (· ++ ·) (List.flatMap_congr fun t _ => foreignKeys_moved _ _ _ t)
      (List.flatMap_congr fun t _ => relationsOf_triggerFindings_moved hmoved _ _ t)

/-! ## Projects with one migration -/

section

variable (script : String)

theorem filesOf_migrated : ∀ r ∈ (migrated script).repositories,
    Migrations.filesOf (migrated script) r = [("migrations/a.sql", script)] := by
  intro r hr
  have hkeys : (r.qualifiedKey "migrations/a.sql" == "migrations/a.sql") = false := by
    rw [List.mem_singleton.1 hr]
    decide +kernel
  have hcontent : (migrated script).content? r "migrations/a.sql" = some script := by
    simp [Project.content?, migrated, Contents.get?, Contents.ofList, Contents.insert,
      Contents.empty, hkeys]
  have hpaths : Text.sorted (r.paths.filter Migrations.isMigration) = ["migrations/a.sql"] := by
    rw [List.mem_singleton.1 hr]
    decide +kernel
  rw [Migrations.filesOf, hpaths, List.filterMap_cons, hcontent]
  rfl

theorem text_migrated : (Migrations.ofProject (migrated script)).text = script.toList ++ ['\n'] := by
  rw [Migrations.ofProject, show (migrated script).repositories = [_] from rfl, List.foldl_cons,
    List.foldl_nil, filesOf_migrated script _ List.mem_cons_self]
  rfl

theorem blanked_migrated : Blanked (migrated script) (migrated (blank script)) where
  repositories := rfl
  files r hr := by
    rw [filesOf_migrated script r hr, filesOf_migrated (blank script) r hr]
    rfl

theorem closed_migrated (h : Closed script.toList) : ∀ r ∈ (migrated script).repositories,
    ∀ file ∈ Migrations.filesOf (migrated script) r, Closed file.2.toList := by
  intro r hr file hfile
  rw [filesOf_migrated script r hr] at hfile
  rwa [List.mem_singleton.1 hfile]

/-- What is found of a table does not depend on where its migration is. -/
theorem details_migrated (g : Graph) :
    let s := Schema.ofScript (script.toList ++ ['\n'])
    (tablesOf (database (migrated script) g)).map (·.detail) =
      s.tables.map fun t => (tableNode .empty s t).detail := by
  rw [tablesOf_database, text_migrated, List.map_map]
  rfl

end

/-- A migration with comments behind its heads. -/
def remarked : String := "create table t (id int, -- it's (\n x int /* , */); alter table t add column y int;"

theorem database_of_remarked :
    let p := migrated remarked
    let p' := migrated (blank remarked)
    (Blanked p p' ∧ (∀ r ∈ p.repositories, ∀ file ∈ Migrations.filesOf p r, Closed file.2.toList) ∧
        HeadsAgree (Migrations.ofProject p).text) ∧
      tablesOf (database p' .empty) = tablesOf (database p .empty) ∧
        relationsOf (database p' .empty) = relationsOf (database p .empty) := by
  have hscript : Closed remarked.toList ∧ HeadsAgree (remarked.toList ++ ['\n']) := by
    decide +kernel
  have hclosed := closed_migrated remarked hscript.1
  have hheads : HeadsAgree (Migrations.ofProject (migrated remarked)).text := by
    rw [text_migrated]
    exact hscript.2
  exact ⟨⟨blanked_migrated remarked, hclosed, hheads⟩,
    database_of_blanked (blanked_migrated remarked) hclosed hheads .empty .empty⟩

/-- A migration with a head in a comment. -/
def remarkedHead : String := "create table t (id int);\n-- alter table t enable row level security;\n"

/-- **A comment can turn on row level security.** The head of the statement is found in the comment,
and not in the migration without its comments. -/
theorem rls_in_comment :
    let p := migrated remarkedHead
    let p' := migrated (blank remarkedHead)
    let detail (secured : Bool) : NodeDetail :=
      .table ⟨"public", [⟨"id", "int", true, false, false, none⟩], secured, []⟩
    (Blanked p p' ∧ ∀ r ∈ p.repositories, ∀ file ∈ Migrations.filesOf p r, Closed file.2.toList) ∧
      (tablesOf (database p .empty)).map (·.detail) = [detail true] ∧
        (tablesOf (database p' .empty)).map (·.detail) = [detail false] := by
  have hscript : Closed remarkedHead.toList := by decide +kernel
  refine ⟨⟨blanked_migrated remarkedHead, closed_migrated remarkedHead hscript⟩, ?_, ?_⟩
  · rw [details_migrated]
    decide +kernel
  · rw [details_migrated, blank, String.toList_ofList]
    decide +kernel

end ArchGraph.Discovery
