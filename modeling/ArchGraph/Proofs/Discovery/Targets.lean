import ArchGraph.Proofs.Discovery.Orders
import ArchGraph.Proofs.Discovery.UsersReference
import ArchGraph.Proofs.Graph.Written
/-!
# Targets of a run in the written form

A node and a pending path share one text in the written form of an edge, told apart by a mark at the
front. Generated identifiers do not have it (`Generated.clear`), and whatever a stage points an edge
at is pending, generated on the spot or the identifier of a node that is known. So the targets of
the edges and requests that a stage comes up with beside nodes with generated identifiers are read
back (`clear_edges`, `clear_retargets`), and a run keeps to such nodes (`Legible`). Main statement:
`graph_lossless`.
-/

namespace ArchGraph.Discovery

open Sql (Migrations Schema)

/-! ## Generated identifiers -/

/-- An identifier comes from the generator of node identifiers. -/
def Generated (id : String) : Prop := ∃ kind parts, id = Id.node kind parts

/-- A node with a generated identifier is no pending path: identifiers hold no colon. -/
theorem Generated.clear {id : String} (h : Generated id) : (Target.node id).Clear := by
  obtain ⟨kind, parts, rfl⟩ := h
  refine Target.clear_node_iff.2 fun hmark => ?_
  have hcolon : ':' ∈ (Id.node kind parts).toList := hmark.subset (by decide)
  exact absurd (Id.node_subset kind parts ':' hcolon) (by decide)

/-- An identifier that is not generated may look like a pending path. -/
example : Target.ofWritten (Target.node "api:/users").written = .pending "/users" := by
  decide +kernel

/-- The identifiers of all nodes are generated. -/
def AllGenerated (g : Graph) : Prop := ∀ n ∈ g.nodes, Generated n.id

variable {t : Task} {p : Project} {g : Graph} {stage : Stage}

theorem Entity.generated {n : Node} (h : Entity p stage n) : Generated n.id := ⟨n.kind, h.id_eq⟩

theorem AllGenerated.after (h : AllGenerated g) : AllGenerated (t.after g stage) :=
  fun n hn => (mem_nodes_after hn).elim (h n) Entity.generated

/-! ## The database -/

theorem generated_referencedNode? {ref : ColumnReference} {id : String}
    (h : referencedNode? ref = some id) : Generated id := by
  rw [referencedNode?] at h
  simp only at h
  split at h
  · obtain rfl := Option.some.inj h
    exact ⟨.auth, _, rfl⟩
  · split at h
    · cases h
    · obtain rfl := Option.some.inj h
      exact ⟨.table, _, rfl⟩

theorem clear_foreignKeyEdge {m : Migrations} {table : Sql.Table} {key : String × Sql.Region}
    {e : Edge} (he : e ∈ (foreignKeyEdge m table key).edges) : e.target.Clear := by
  rw [foreignKeyEdge] at he
  simp only at he
  split at he
  · cases he
  · split at he
    · cases he
    · next target hnode =>
      rw [List.mem_singleton.1 he]
      exact (generated_referencedNode? hnode).clear

theorem clear_database {e : Edge} (he : e ∈ (database p g).edges) : e.target.Clear := by
  cases related_of_mem_edges he with
  | foreignKey _ _ he => exact clear_foreignKeyEdge he
  | trigger htarget _ =>
    rw [htarget]
    exact Generated.clear ⟨.function, _, rfl⟩
  | profile htarget _ =>
    rw [htarget]
    exact Generated.clear ⟨.table, _, rfl⟩

/-! ## The other stages -/

theorem clear_callTarget (hg : AllGenerated g) (method : HttpMethod) (path : String)
    (repo : Option String) : (callTarget g method path repo).Clear := by
  unfold callTarget
  cases hanswer : (Route.Index.ofNodes (g.nodesOf .endpoint)).resolve? path (some method) repo with
  | none => exact Target.clear_pending path
  | some id =>
    obtain ⟨n, hn, -, rfl⟩ := endpoint_of_resolve? hanswer
    exact (hg n hn).clear

/-- Outside of the database, an edge points at a known node, at one with an identifier that is
generated on the spot, or at a path. -/
theorem Relation.clear (hg : AllGenerated g) (hstage : stage ≠ .database) {e : Edge}
    (h : Relation p g Generated stage e) : e.target.Clear := by
  cases h with
  | containment _ hb | dependency _ hb | serviceCall _ hb | deployment _ hb | environment _ hb =>
    exact hb.clear
  | call => exact Target.clear_pending _
  | navigation _ _ _ _ hb => exact hb.clear
  | tableAccess => exact Generated.clear ⟨.table, _, rfl⟩
  | bucketAccess => exact Generated.clear ⟨.storage, _, rfl⟩
  | functionCall => exact Generated.clear ⟨.function, _, rfl⟩
  | authCall => exact Generated.clear ⟨.auth, _, rfl⟩
  | cron _ repo path ht =>
    rw [ht]
    exact clear_callTarget hg _ _ _
  | foreignKey | trigger | profile => exact absurd rfl hstage

theorem built_generated (hg : AllGenerated g) :
    Built t.project g Generated stage (t.found g stage) :=
  built_found t hg stage (fun _ r _ => ⟨.repo, [r.id], rfl⟩)
    fun n hn => ((built_anyway t g stage).entity n hn).generated

/-- The targets of the edges that a stage finds are read back. -/
theorem clear_edges (hg : AllGenerated g) : ∀ e ∈ (t.findings g stage).edges, e.target.Clear := by
  intro e he
  by_cases hstage : stage = .database
  · subst hstage
    exact clear_database he
  · rw [edges_findings] at he
    obtain ⟨e₀, cited, hrel, rfl⟩ := (built_generated hg).relation_of_mem e he
    exact hrel.clear hg hstage

/-- A call is resolved to a node that is read back. -/
theorem clear_answer? (hg : AllGenerated g) {e : Edge} {id : String}
    (h : answer? g (t.found g stage) e = some id) : (Target.node id).Clear := by
  obtain ⟨n, hn, rfl⟩ := mem_of_answer? h
  rcases List.mem_append.1 hn with hn | hn
  · exact (hg n hn).clear
  · exact ((built_anyway t g stage).entity n hn).generated.clear

/-- The endpoints that a stage points calls at are read back. -/
theorem clear_retargets (hg : AllGenerated g) :
    ∀ r ∈ (t.findings g stage).retargets, (Target.node r.target).Clear := by
  intro r hr
  by_cases hstage : stage = .endpoints
  · subst hstage
    rw [findings_endpoints, Findings.retargets_append, (built_anyway t g .endpoints).retargets,
      List.nil_append, retargets_resolveCalls] at hr
    obtain ⟨e, -, hanswer⟩ := List.mem_filterMap.1 hr
    obtain ⟨id, hid, rfl⟩ := Option.map_eq_some_iff.1 hanswer
    exact clear_answer? hg hid
  · rw [findings_eq_found t g hstage, (built_anyway t g stage).retargets] at hr
    exact absurd hr List.not_mem_nil

theorem clear_aim (hg : AllGenerated g) {e : Edge} (h : e.target.Clear) :
    (aim t g stage e).Clear := by
  cases stage with
  | endpoints =>
    rw [aim]
    cases hanswer : answer? g (t.found g .endpoints) e with
    | none => exact h
    | some id => exact clear_answer? hg hanswer
  | _ => exact h

/-! ## Runs -/

/-- What holds of a graph whatever stages have been carried out: the identifiers of its nodes are
generated, and the targets of its edges are read back. -/
structure Legible (g : Graph) : Prop where
  generated : AllGenerated g
  clear     : ∀ e ∈ g.edges, e.target.Clear

theorem legible_empty : Legible .empty := by constructor <;> simp [AllGenerated, Graph.empty]

theorem Legible.after (hd : g.Distinct) (h : Legible g) : Legible (t.after g stage) where
  generated := h.generated.after
  clear e he := by
    rcases mem_edges_found hd he with ⟨e₀, he₀, cited, rfl⟩ | ⟨e₀, he₀, cited, rfl⟩
    · exact clear_aim h.generated (h.clear e₀ he₀)
    · rw [← edges_findings] at he₀
      exact clear_edges h.generated e₀ he₀

/-- Every run leads to a graph whose targets are read back. -/
theorem legible_run (t : Task) (stages : List Stage) :
    Legible (Analysis.ofStages t stages).graph := by
  induction stages using List.reverseRecOn with
  | nil => exact legible_empty
  | append_singleton stages stage ih =>
    rw [ofStages_append]
    exact ih.after (formed_run t stages).distinct

/-! ## The written form -/

/-- **The written form of the graph loses nothing.** Nodes, edges, evidence and features are read
back from it, the line numbers of evidence being 32-bit words, and edges unless they point at a node
whose identifier looks like a pending path. Read targets are written as they were. No generated
identifier looks like a pending path, so that all targets that a stage builds beside nodes with
generated identifiers are read back, and all edges of every run. -/
theorem graph_lossless :
    (∀ n : Node, Lossless Node.toJson Node.ofJson? n) ∧
    (∀ e : Edge, (∀ id, e.target = .node id → ¬Target.pendingMark <+: id.toList) →
      Lossless Edge.toJson Edge.ofJson? e) ∧
    (∀ ev : Evidence, Lossless Evidence.toJson Evidence.ofJson? ev) ∧
    (∀ f : Feature, Lossless Feature.toJson Feature.ofJson? f) ∧
    (∀ s : String, (Target.ofWritten s).written = s) ∧
    (∀ kind parts, Target.ofWritten (Id.node kind parts) = .node (Id.node kind parts)) ∧
    (∀ (t : Task) (g : Graph) (stage : Stage), AllGenerated g →
      (∀ e ∈ (t.findings g stage).edges, Target.ofWritten e.target.written = e.target) ∧
      ∀ r ∈ (t.findings g stage).retargets, Target.ofWritten r.target = .node r.target) ∧
    ∀ (t : Task) (stages : List Stage), AllGenerated (Analysis.ofStages t stages).graph ∧
      ∀ e ∈ (Analysis.ofStages t stages).graph.edges, Lossless Edge.toJson Edge.ofJson? e := by
  refine ⟨fun n => n.readBack.lossless, fun e h => ?_, fun ev => ev.readBack.lossless,
    fun f => f.readBack.lossless, Target.written_ofWritten, fun kind parts => ?_,
    fun t g stage hg => ⟨clear_edges hg, clear_retargets hg⟩, fun t stages => ?_⟩
  · have hclear : e.target.Clear := by
      cases htarget : e.target with
      | pending path => exact Target.clear_pending path
      | node id => exact Target.clear_node_iff.2 (h id htarget)
    exact (Edge.readBack hclear).lossless
  · exact Generated.clear ⟨kind, parts, rfl⟩
  · have hrun := legible_run t stages
    exact ⟨hrun.generated, fun e he => (Edge.readBack (hrun.clear e he)).lossless⟩

/-- A call that is pending, and cited with the last line number there is. -/
def pendingCall : Edge :=
  ⟨"call_1", "screen_1", .pending "/api/x", .calls, .high, ["ev_1"],
    .httpCall .post "/api/x" "fetch"⟩

/-- The citation of the call. -/
def lastLine : Evidence :=
  ⟨"ev_1", .fetchCall, "screen_1", some "call_1", some "pages/x.js", some 4294967295, some 4294967295,
    "fetch(\"/api/x\")", .high⟩

/-- The call is read back, pending and resolved, and so is the target that it is resolved to. -/
theorem pendingCall_lossless :
    let g : Graph := { Graph.empty with edges := [pendingCall] }
    Lossless Edge.toJson Edge.ofJson? pendingCall ∧
    Lossless Edge.toJson Edge.ofJson? { pendingCall with target := .node "endpoint_1" } ∧
    Lossless Evidence.toJson Evidence.ofJson? lastLine ∧
    (postOnly.findings g .endpoints).retargets.map (·.edgeId) = ["call_1"] ∧
    ∀ r ∈ (postOnly.findings g .endpoints).retargets, Target.ofWritten r.target = .node r.target := by
  intro g
  obtain ⟨-, hedge, hevidence, -, -, -, hstage, -⟩ := graph_lossless
  have hg : AllGenerated g := by simp [AllGenerated, g, Graph.empty]
  have hpending : ∀ id, pendingCall.target = .node id → ¬Target.pendingMark <+: id.toList := by
    rintro _ ⟨⟩
  have hresolved : ∀ id, Target.node "endpoint_1" = .node id →
      ¬Target.pendingMark <+: id.toList := by
    rintro _ ⟨⟩
    decide
  exact ⟨hedge _ hpending, hedge _ hresolved, hevidence _, by decide +kernel,
    (hstage postOnly g .endpoints hg).2⟩

end ArchGraph.Discovery
