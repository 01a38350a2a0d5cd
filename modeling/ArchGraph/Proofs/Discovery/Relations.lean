import ArchGraph.Discovery.Database
/-!
# Relations of the database

Tables, triggers and the authentication subsystem have relations of their own, functions and the
storage subsystem have none. Main statements: `related_of_mem_edges`, what the relations of a database
are, and `edges_database`, without migrations there are none.
-/

namespace ArchGraph.Discovery

open Sql (Migrations Schema)

@[simp] theorem edges_node (n : Node) : (Findings.node n).edges = [] := rfl

@[simp] theorem edges_citation (c : Citation) : (Findings.citation c).edges = [] := rfl

@[simp] theorem edges_concat_citations {α : Type} (xs : List α) (f : α → Citation) :
    (Findings.concat (xs.map fun x => .citation (f x))).edges = [] := by
  simp [Findings.concat]

theorem edges_storageFindings (m : Migrations) (g : Graph) : (storageFindings m g).edges = [] := by
  rw [storageFindings]
  split
  · rfl
  · simp only [Findings.edges_append, edges_node, edges_concat_citations, List.append_nil]

theorem edges_tableFindings (m : Migrations) (s : Schema) (t : Sql.Table) :
    (tableFindings m s t).edges =
      (Findings.concat (t.body.foreignKeys.map (foreignKeyEdge m t))).edges := by
  simp only [tableFindings, Findings.edges_append, edges_node, edges_citation,
    edges_concat_citations, List.nil_append]

theorem edges_functionFindings (m : Migrations) (fs : List Sql.Function) :
    (Findings.concat (fs.map (functionFindings m))).edges = [] := by
  simp [Findings.concat, functionFindings]

theorem edges_authFindings (m : Migrations) {s : Schema} (g : Graph)
    (h : s.table? profilesName = none) : (authFindings m s g).edges = [] := by
  rw [authFindings]
  split
  · rfl
  · simp only [h, Findings.edges_append, edges_node, edges_concat_citations, Option.toList_none,
      List.map_nil, List.append_nil]
    rfl

/-- What relates in a database: foreign keys, the calls of triggers, and the insertion into the
profiles table. -/
inductive Related (m : Migrations) (s : Schema) (e : Edge) : Prop
  | foreignKey {t : Sql.Table} {key : String × Sql.Region} (ht : t ∈ s.tables)
      (hkey : key ∈ t.body.foreignKeys) (he : e ∈ (foreignKeyEdge m t key).edges)
  | trigger {t : Sql.Trigger}
      (htarget : e.target = .node (Id.function t.function.schema t.function.name))
      (hdetail : e.detail = .trigger t.name)
  | profile {t : Sql.Table} (htarget : e.target = .node (Id.table t.name.schema t.name.name))
      (hdetail : e.detail = .dataAccess .insert t.name.name)

section

variable {m : Migrations} {s : Schema} {e : Edge}

theorem related_of_mem_tableFindings {t : Sql.Table} (ht : t ∈ s.tables)
    (he : e ∈ (tableFindings m s t).edges) : Related m s e := by
  rw [edges_tableFindings] at he
  obtain ⟨key, hkey, he⟩ := Findings.mem_edges_concat_map.1 he
  exact .foreignKey ht hkey he

theorem related_of_mem_triggerFindings {t : Sql.Trigger} (he : e ∈ (triggerFindings m s t).edges) :
    Related m s e := by
  rw [triggerFindings] at he
  split at he
  · cases he
  · obtain rfl := List.mem_singleton.1 he
    exact .trigger rfl rfl

theorem related_of_mem_authFindings {g : Graph} (he : e ∈ (authFindings m s g).edges) :
    Related m s e := by
  rw [authFindings] at he
  split at he
  · cases he
  · simp only [Findings.edges_append, edges_concat_citations, edges_node, List.nil_append] at he
    obtain ⟨t, -, he⟩ := Findings.mem_edges_concat_map.1 he
    obtain rfl := List.mem_singleton.1 he
    exact .profile rfl rfl

end

/-- **The relations of a database.** -/
theorem related_of_mem_edges {p : Project} {g : Graph} {e : Edge} (he : e ∈ (database p g).edges) :
    Related (Migrations.ofProject p) (Schema.ofScript (Migrations.ofProject p).text) e := by
  simp only [database, Findings.edges_append, edges_functionFindings, edges_storageFindings,
    List.mem_append, List.not_mem_nil, or_false, false_or] at he
  rcases he with (he | he) | he
  · obtain ⟨t, ht, he⟩ := Findings.mem_edges_concat_map.1 he
    exact related_of_mem_tableFindings ht he
  · obtain ⟨t, -, he⟩ := Findings.mem_edges_concat_map.1 he
    exact related_of_mem_triggerFindings he
  · exact related_of_mem_authFindings he

/-- Without migrations the database has no relations, whatever subsystems are used. -/
theorem edges_database {p : Project} (g : Graph) (h : (Migrations.ofProject p).text = []) :
    (database p g).edges = [] := by
  have hschema : Schema.ofScript [] = ⟨[], [], [], [], [], []⟩ := by decide
  have hprofiles : (⟨[], [], [], [], [], []⟩ : Schema).table? profilesName = none := rfl
  simp only [database, h, hschema, List.map_nil, Findings.edges_append, edges_storageFindings,
    edges_authFindings _ g hprofiles]
  rfl

end ArchGraph.Discovery
