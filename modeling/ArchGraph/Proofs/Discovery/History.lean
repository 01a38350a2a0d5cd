import ArchGraph.Proofs.Discovery.Relations
import ArchGraph.Proofs.Discovery.Steps
import ArchGraph.Proofs.Graph.History
/-!
# What a run finds

The findings that the stages of a run contribute one after the other, each beside the graph that its
stage looked at. They are built from the forms of their stages, beside the nodes that are known and the
apps that are there in the end (`exists_foundBy`). The edges in the end stem from edges that were
found; only calls may have come to point elsewhere (`stems_all`).
-/

namespace ArchGraph.Discovery

variable {t : Task} {g : Graph} {stage : Stage} {known : String → Prop}

/-! ## Findings of runs -/

/-- The findings that stages contribute, one after the other. -/
def Task.history (t : Task) : Graph → List Stage → List Findings
  | _, [] => []
  | g, stage :: stages => t.findings g stage :: t.history (t.after g stage) stages

theorem graph_history (t : Task) : ∀ (stages : List Stage) (g : Graph),
    (t.history g stages).foldl Graph.merge g = stages.foldl t.after g
  | [], _ => rfl
  | stage :: stages, g => graph_history t stages (t.after g stage)

theorem nodes_subset_foldl_after (t : Task) : ∀ (stages : List Stage) (g : Graph),
    g.nodes ⊆ (stages.foldl t.after g).nodes
  | [], _ => List.Subset.refl _
  | stage :: stages, g => fun _ hn =>
    nodes_subset_foldl_after t stages (t.after g stage) (Graph.nodes_subset_merge _ _ hn)

theorem distinct_foldl_after (hg : g.Distinct) (stages : List Stage) :
    (stages.foldl t.after g).Distinct := by
  rw [← graph_history]
  exact hg.merges _

/-- Findings of a run were found by one of its stages beside the graph that the stages before it lead
to. -/
theorem exists_of_mem_history {f : Findings} : ∀ {stages : List Stage} {g : Graph},
    f ∈ t.history g stages → ∃ before stage after, stages = before ++ stage :: after ∧
      f = t.findings (before.foldl t.after g) stage
  | [], _, hf => absurd hf List.not_mem_nil
  | stage :: stages, g, hf => by
    rcases List.mem_cons.1 hf with rfl | hf
    · exact ⟨[], stage, stages, rfl, rfl⟩
    · obtain ⟨before, stage', after, rfl, rfl⟩ := exists_of_mem_history hf
      exact ⟨stage :: before, stage', after, rfl, rfl⟩

/-- What a stage of a run finds is built from the forms of the stage beside the nodes that are known
in the end. -/
theorem built_at (hrepos : ∀ r ∈ t.project.repositories, known r.nodeId) (hg : g.Distinct)
    (after : List Stage) (hknown : ∀ n ∈ ((stage :: after).foldl t.after g).nodes, known n.id) :
    Covers known (t.findings g stage) ∧ Built t.project g known stage (t.found g stage) := by
  have hafter : ∀ n ∈ (t.after g stage).nodes, known n.id := fun n hn =>
    hknown n (nodes_subset_foldl_after t after _ hn)
  have hcovers : Covers known (t.findings g stage) := by
    intro n hn
    obtain ⟨m, hm, hid⟩ := List.mem_map.1 (Graph.mem_ids_merge hg hn)
    exact hid ▸ hafter m hm
  refine ⟨hcovers, built_found t ?_ stage (fun _ => hrepos) ?_⟩
  · exact fun n hn => hafter n (Graph.nodes_subset_merge _ _ hn)
  · rwa [Covers, ← nodes_findings]

/-! ## Edges of runs -/

/-- An edge stems from found ones: it is one of them with citations of its own, and points elsewhere
only if it is a call. -/
def Stems (found : List Edge) (e : Edge) : Prop :=
  ∃ x ∈ found, ∃ target cited, e = { x with target := target, evidenceIds := cited } ∧
    (x.kind ≠ .calls → target = x.target)

theorem stems_after {found : List Edge} (hg : g.Distinct) (hsub : (t.found g stage).edges ⊆ found)
    (hnode : ∀ x ∈ found, x.kind ≠ .calls → ∃ id, x.target = .node id)
    (h : ∀ e ∈ g.edges, Stems found e) : ∀ e ∈ (t.after g stage).edges, Stems found e := by
  intro e he
  rcases mem_edges_found hg he with ⟨e₀, he₀, cited, rfl⟩ | ⟨e₀, he₀, cited, rfl⟩
  · obtain ⟨x, hx, target, cited₀, rfl, htarget⟩ := h e₀ he₀
    refine ⟨x, hx, _, cited, rfl, fun hk => ?_⟩
    -- an edge that is no call points at a node already, so that no stage resolves it
    obtain ⟨id, hid⟩ := hnode x hx hk
    obtain rfl : target = .node id := (htarget hk).trans hid
    rw [hid]
    cases stage <;> rfl
  · exact ⟨e₀, hsub he₀, e₀.target, cited, rfl, fun _ => rfl⟩

theorem stems_foldl {found : List Edge}
    (hnode : ∀ x ∈ found, x.kind ≠ .calls → ∃ id, x.target = .node id) :
    ∀ (stages : List Stage) (g : Graph), g.Distinct →
      (∀ f ∈ t.history g stages, f.edges ⊆ found) → (∀ e ∈ g.edges, Stems found e) →
        ∀ e ∈ (stages.foldl t.after g).edges, Stems found e
  | [], _, _, _, h => h
  | stage :: stages, g, hg, hsub, h => by
    have hstage : (t.found g stage).edges ⊆ found := by
      rw [← edges_findings]
      exact hsub _ (by simp [Task.history])
    refine stems_foldl hnode stages (t.after g stage) (hg.merge _) (fun f hf => ?_)
      (stems_after hg hstage hnode h)
    exact hsub f (by simp [Task.history, hf])

/-! ## Whole analyses -/

/-- The findings of all stages of an analysis. -/
def allFindings (t : Task) : List Findings := t.history .empty Stage.all

theorem graph_allFindings (t : Task) :
    (Analysis.ofStages t Stage.all).graph = (allFindings t).foldl Graph.merge .empty := by
  rw [Analysis.ofStages, graph_run, allFindings, graph_history, Progress.start]

/-- Findings of an analysis that a stage found beside a graph. They are built beside the nodes of the
graph in the end, and only the inventory sees other apps than are there in the end. -/
structure FoundBy (t : Task) (stage : Stage) (g : Graph) (f : Findings) : Prop where
  findings : f = t.findings g stage
  covers   : Covers (Known (Analysis.ofStages t Stage.all).graph) f
  built    : Built t.project g (Known (Analysis.ofStages t Stage.all).graph) stage (t.found g stage)
  apps     : stage ≠ .inventory → ∀ repo,
    Apps.ofGraph g repo = Apps.ofGraph (Analysis.ofStages t Stage.all).graph repo

/-- Only the first stage takes the inventory. -/
theorem inventory_notMem {before after : List Stage} (h : Stage.all = before ++ stage :: after)
    (hstage : stage ≠ .inventory) : Stage.inventory ∉ stage :: after := by
  cases before with
  | nil => exact absurd (List.cons.inj h).1.symm hstage
  | cons first before =>
    have hrest : stage :: after ⊆ [.screens, .endpoints, .database, .deployment, .features] := by
      rw [(List.cons.inj h).2]
      exact List.subset_append_right _ _
    exact fun hmem => absurd (hrest hmem) (by decide)

theorem exists_foundBy {f : Findings} (hf : f ∈ allFindings t) :
    ∃ stage g, FoundBy t stage g f := by
  obtain ⟨before, stage, after, hall, rfl⟩ := exists_of_mem_history hf
  have hgraph : (Analysis.ofStages t Stage.all).graph =
      (stage :: after).foldl t.after (before.foldl t.after .empty) := by
    rw [Analysis.ofStages, graph_run, hall, List.foldl_append, Progress.start]
  have hrepos : HoldsRepos t.project (Analysis.ofStages t Stage.all).graph := by
    rw [graph_all]
    exact (sound_reached t _).2
  have hknown : ∀ n ∈ ((stage :: after).foldl t.after (before.foldl t.after .empty)).nodes,
      Known (Analysis.ofStages t Stage.all).graph n.id := by
    rw [← hgraph]
    exact fun n hn => List.mem_map_of_mem hn
  obtain ⟨hcovers, hbuilt⟩ :=
    built_at hrepos (distinct_foldl_after Graph.distinct_empty before) after hknown
  refine ⟨stage, _, rfl, hcovers, hbuilt, fun hstage repo => ?_⟩
  rw [hgraph, apps_foldl_after repo _ _ (inventory_notMem hall hstage)]

section FoundBy

variable {f : Findings} (h : FoundBy t stage g f)
include h

theorem FoundBy.nodes_eq : f.nodes = (t.found g stage).nodes := by
  rw [h.findings, nodes_findings]

theorem FoundBy.edges_eq : f.edges = (t.found g stage).edges := by
  rw [h.findings, edges_findings]

theorem FoundBy.evidence_eq : f.evidence = (t.found g stage).evidence := by
  rw [h.findings, evidence_findings]

theorem FoundBy.entity : ∀ n ∈ f.nodes, Entity t.project stage n := by
  rw [h.nodes_eq]
  exact h.built.entity

end FoundBy

/-- The nodes that the stages of an analysis found. -/
def foundNodes (t : Task) : List Node := (allFindings t).flatMap (·.nodes)

theorem exists_entity {n : Node} (hn : n ∈ foundNodes t) : ∃ stage, Entity t.project stage n := by
  obtain ⟨f, hf, hmem⟩ := List.mem_flatMap.1 hn
  obtain ⟨stage, g, hfound⟩ := exists_foundBy hf
  exact ⟨stage, hfound.entity n hmem⟩

/-- The nodes of an analysis are the found nodes, each identifier once. -/
theorem nodes_all (t : Task) : (Analysis.ofStages t Stage.all).graph.nodes =
    Graph.firsts Node.id (foundNodes t) := by
  rw [graph_allFindings, Graph.nodes_merges, foundNodes]
  simp [Graph.empty, Graph.fresh]

/-- What was found is there in the end, if perhaps in another form. -/
theorem exists_node {n : Node} (hn : n ∈ foundNodes t) :
    ∃ b ∈ (Analysis.ofStages t Stage.all).graph.nodes, b.id = n.id := by
  rw [nodes_all]
  exact Graph.exists_first hn

/-- Found edges have the form of a relation, apart from their citations. -/
theorem exists_relation {x : Edge} (hx : x ∈ (allFindings t).flatMap (·.edges)) :
    ∃ stage g e cited, Relation t.project g (Known (Analysis.ofStages t Stage.all).graph) stage e ∧
      x = { e with evidenceIds := cited } := by
  obtain ⟨f, hf, hmem⟩ := List.mem_flatMap.1 hx
  obtain ⟨stage, g, hfound⟩ := exists_foundBy hf
  rw [hfound.edges_eq] at hmem
  exact ⟨stage, g, hfound.built.relation_of_mem x hmem⟩

/-- The edges of an analysis stem from those that its stages found. -/
theorem stems_all (t : Task) : ∀ e ∈ (Analysis.ofStages t Stage.all).graph.edges,
    Stems ((allFindings t).flatMap (·.edges)) e := by
  rw [Analysis.ofStages, graph_run]
  refine stems_foldl (fun x hx => ?_) Stage.all .empty Graph.distinct_empty (fun f hf e he => ?_)
    (by simp [Graph.empty])
  · obtain ⟨_, _, e, _, hrel, rfl⟩ := exists_relation hx
    exact hrel.exists_target
  · exact List.mem_flatMap.2 ⟨f, hf, he⟩

/-- Found edges with identifiers that are all different are all there in the end. -/
theorem exists_edge (hids : (((allFindings t).flatMap (·.edges)).map Edge.id).Nodup) {x : Edge}
    (hx : x ∈ (allFindings t).flatMap (·.edges)) :
    ∃ e ∈ (Analysis.ofStages t Stage.all).graph.edges, ∃ target cited,
      e = { x with target := target, evidenceIds := cited } ∧
        (x.kind ≠ .calls → target = x.target) := by
  obtain ⟨e, he, hid⟩ : ∃ e ∈ (Analysis.ofStages t Stage.all).graph.edges, e.id = x.id := by
    rw [graph_allFindings, Graph.edges_merges, Graph.firsts_of_nodup hids]
    exact ⟨_, List.mem_map_of_mem hx, rfl⟩
  obtain ⟨y, hy, target, cited, rfl, htarget⟩ := stems_all t e he
  obtain rfl := List.inj_on_of_nodup_map hids hy hx hid
  exact ⟨_, he, target, cited, rfl, htarget⟩

/-! ## Projects without migrations -/

/-- The edges of a project without migrations are found by the other stages, each beside the graph of
those before it. -/
theorem foundEdges_of_noMigrations (h : (Sql.Migrations.ofProject t.project).text = []) :
    (allFindings t).flatMap (·.edges) =
      (t.found .empty .inventory).edges ++ ((t.found (t.reached []) .screens).edges ++
        ((t.found (t.reached [.screens]) .endpoints).edges ++
          (t.found (t.reached [.screens, .endpoints]) .deployment).edges)) := by
  have hdatabase : (t.found (t.reached [.screens, .endpoints]) .database).edges = [] :=
    edges_database _ h
  have hdeployment : t.found (t.reached [.screens, .endpoints, .database]) .deployment =
      t.found (t.reached [.screens, .endpoints]) .deployment := by
    have hinventory : Stage.database ≠ .inventory := nofun
    have hendpoints : Stage.database ≠ .endpoints := nofun
    exact deployment_congr (apps_after hinventory) (endpoints_after hendpoints) t.project
  have hfeatures (g : Graph) : (t.found g .features).edges = [] := rfl
  simp only [Task.reached, List.foldl_cons, List.foldl_nil] at hdatabase hdeployment ⊢
  simp only [allFindings, Stage.all, Task.history, List.flatMap_cons, List.flatMap_nil,
    edges_findings, hdatabase, hdeployment, hfeatures, List.nil_append, List.append_nil]

end ArchGraph.Discovery
