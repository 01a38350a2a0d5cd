import ArchGraph.Analysis
import ArchGraph.Proofs.Discovery.Stages
import Mathlib.Data.List.Induction
/-!
# What a stage does to a graph

The graph after a stage, said once: its nodes are those of before and entities of the stage
(`mem_nodes_after`), and its edges are those of before, with a target where the stage resolves them,
and relations of the stage (`mem_edges_after`). The invariant `Sound`, that every edge joins what it
should, is kept by each stage (`Sound.after`) and so by whole runs (`sound_reached`).
-/

namespace ArchGraph.Discovery

open ArchGraph.Graph (Distinct lastTarget? redirect settle absorb fresh mem_fresh)

/-! ## Resolving calls -/

/-- The endpoint at which resolving calls points an edge. -/
def answer? (g : Graph) (found : Findings) (e : Edge) : Option String :=
  match e.target with
  | .node _ => none
  | .pending path =>
    (Route.Index.ofNodes (g.nodesOf .endpoint ++ found.nodesOf .endpoint)).resolve? path
      e.detail.method? (sourceRepo? g found e.source)

theorem answer?_eq_none {g : Graph} {found : Findings} {e : Edge} {id : String}
    (h : e.target = .node id) : answer? g found e = none := by
  simp only [answer?, h]

theorem retargets_resolveCalls (g : Graph) (found : Findings) :
    (resolveCalls g found).retargets = (g.edges ++ found.edges).filterMap fun e =>
      (answer? g found e).map fun target => ⟨e.id, target⟩ := by
  refine List.filterMap_congr fun e _ => ?_
  unfold answer?
  cases e.target <;> rfl

/-- Requests that are made edge by edge: the last one for an identifier is that of the last edge. -/
theorem lastTarget?_filterMap (ask : Edge → Option String) (id : String) : ∀ edges : List Edge,
    lastTarget? (edges.filterMap fun e => (ask e).map fun target => ⟨e.id, target⟩) id =
      ((edges.filter (·.id = id)).filterMap ask).getLast?
  | [] => rfl
  | e :: edges => by
    have ih := lastTarget?_filterMap ask id edges
    cases hask : ask e with
    | none =>
      rw [List.filterMap_cons_none (by rw [hask]; rfl), ih, List.filter_cons]
      split
      · rw [List.filterMap_cons_none hask]
      · rfl
    | some target =>
      rw [List.filterMap_cons_some (by rw [hask]; rfl), ← List.singleton_append,
        Graph.lastTarget?_append, ih, List.filter_cons]
      by_cases hid : e.id = id
      · rw [if_pos (by simpa using hid), List.filterMap_cons_some hask, List.getLast?_cons]
        cases ((edges.filter (·.id = id)).filterMap ask).getLast? <;>
          simp [lastTarget?, hid]
      · rw [if_neg (by simpa using hid)]
        simp [lastTarget?, hid]

theorem filter_id_eq {edges : List Edge} (hd : (edges.map Edge.id).Nodup) (id : String) :
    edges.filter (·.id = id) = (edges.find? (·.id == id)).toList := by
  induction edges with
  | nil => rfl
  | cons e edges ih =>
    rw [List.map_cons, List.nodup_cons] at hd
    by_cases hid : e.id = id
    · have hnone : edges.filter (·.id = id) = [] := by
        rw [List.filter_eq_nil_iff]
        intro x hx hxid
        exact hd.1 (hid ▸ of_decide_eq_true hxid ▸ List.mem_map_of_mem hx)
      simp [hid, hnone]
    · simp [hid, ih hd.2]

/-- Only edges of the graph are resolved, each on its own. -/
theorem lastTarget?_resolveCalls {g : Graph} (hg : g.Distinct) {found : Findings}
    (hf : ∀ e ∈ found.edges, answer? g found e = none) (id : String) :
    lastTarget? (resolveCalls g found).retargets id = (g.edge? id).bind (answer? g found) := by
  have hnone : (found.edges.filter (·.id = id)).filterMap (answer? g found) = [] := by
    rw [List.filterMap_eq_nil_iff]
    exact fun e he => hf e (List.mem_filter.1 he).1
  rw [retargets_resolveCalls, lastTarget?_filterMap, List.filter_append, List.filterMap_append,
    hnone, List.append_nil, filter_id_eq hg.edges, Graph.edge?]
  cases g.edges.find? (·.id == id) with
  | none => rfl
  | some e => cases h : answer? g found e <;> simp [h]

theorem edge?_of_mem {g : Graph} (hg : g.Distinct) {e : Edge} (he : e ∈ g.edges) :
    g.edge? e.id = some e := by
  have hmem : e ∈ g.edges.filter (·.id = e.id) := List.mem_filter.2 ⟨he, by simp⟩
  rw [filter_id_eq hg.edges, Option.mem_toList] at hmem
  exact hmem

theorem edge?_of_notMem {g : Graph} {id : String} (h : id ∉ g.edges.map Edge.id) :
    g.edge? id = none := by
  rw [Graph.edge?, List.find?_eq_none]
  intro e he hid
  exact h ((beq_iff_eq.1 hid) ▸ List.mem_map_of_mem he)

/-! ## One stage -/

/-- A graph holds a node with an identifier. -/
def Known (g : Graph) (id : String) : Prop := id ∈ g.nodes.map Node.id

theorem hasNode_iff {g : Graph} {id : String} : g.hasNode id = true ↔ Known g id := by
  simp [Graph.hasNode, Known]

/-- A graph holds the nodes of all repositories. -/
def HoldsRepos (p : Project) (g : Graph) : Prop := ∀ r ∈ p.repositories, Known g r.nodeId

/-- The graph after a stage. -/
def Task.after (t : Task) (g : Graph) (stage : Stage) : Graph := g.merge (t.findings g stage)

theorem graph_run (t : Task) : ∀ (stages : List Stage) (s : Progress),
    (s.run t stages).graph = stages.foldl t.after s.graph
  | [], _ => rfl
  | stage :: stages, s => graph_run t stages (s.step t stage)

/-- Where an edge points once a stage has been carried out. -/
def aim (t : Task) (g : Graph) : Stage → Edge → Target
  | .endpoints, e => (answer? g (t.found g .endpoints) e).elim e.target .node
  | _, e => e.target

variable {t : Task} {g : Graph} {stage : Stage}

theorem nodes_findings (t : Task) (g : Graph) (stage : Stage) :
    (t.findings g stage).nodes = (t.found g stage).nodes := by
  cases stage with
  | endpoints => simp [findings_endpoints, resolveCalls]
  | _ => rfl

theorem edges_findings (t : Task) (g : Graph) (stage : Stage) :
    (t.findings g stage).edges = (t.found g stage).edges := by
  cases stage with
  | endpoints => simp [findings_endpoints, resolveCalls]
  | _ => rfl

theorem evidence_findings (t : Task) (g : Graph) (stage : Stage) :
    (t.findings g stage).evidence = (t.found g stage).evidence := by
  cases stage with
  | endpoints => simp [findings_endpoints, resolveCalls]
  | _ => rfl

theorem Known.mono {g g' : Graph} (h : g.nodes ⊆ g'.nodes) {id : String} (hid : Known g id) :
    Known g' id := List.map_subset Node.id h hid

theorem known_after {id : String} (h : Known g id) : Known (t.after g stage) id :=
  h.mono (Graph.nodes_subset_merge _ _)

theorem built_after (hg : g.Distinct) (hr : stage = .deployment → HoldsRepos t.project g) :
    Built t.project g (Known (t.after g stage)) stage (t.found g stage) := by
  refine built_found t (fun n hn => known_after (List.mem_map_of_mem hn)) stage
    (fun h r hmem => known_after (hr h r hmem)) fun n hn => Graph.mem_ids_merge hg ?_
  rwa [nodes_findings]

theorem entity_found (t : Task) (g : Graph) (stage : Stage) :
    ∀ n ∈ (t.findings g stage).nodes, Entity t.project stage n := by
  rw [nodes_findings]
  exact (built_anyway t g stage).entity

/-- The nodes after a stage. -/
theorem mem_nodes_after {n : Node} (h : n ∈ (t.after g stage).nodes) :
    n ∈ g.nodes ∨ Entity t.project stage n :=
  (Graph.mem_nodes_merge h).imp_right (entity_found t g stage n)

theorem Relation.answer?_eq_none {p : Project} {g' : Graph} {known : String → Prop}
    {found : Findings} {e : Edge} {cited : List String} (h : Relation p g known .endpoints e) :
    answer? g' found { e with evidenceIds := cited } = none := by
  cases h <;> rfl

theorem lastTarget?_findings (hg : g.Distinct) (id : String) :
    lastTarget? (t.findings g stage).retargets id =
      if stage = .endpoints then (g.edge? id).bind (answer? g (t.found g .endpoints)) else none := by
  have hbuilt := built_anyway t g stage
  by_cases hs : stage = .endpoints
  · subst hs
    rw [if_pos rfl, findings_endpoints, Findings.retargets_append, hbuilt.retargets, List.nil_append]
    refine lastTarget?_resolveCalls hg (fun e he => ?_) id
    obtain ⟨e₀, cited, hrel, rfl⟩ := hbuilt.relation_of_mem e he
    exact hrel.answer?_eq_none
  · rw [if_neg hs, findings_eq_found t g hs, hbuilt.retargets]
    rfl

/-- The edges after a stage, as they were held or found. -/
theorem mem_edges_found (hg : g.Distinct) {e : Edge} (he : e ∈ (t.after g stage).edges) :
    (∃ e₀ ∈ g.edges, ∃ cited, e = { e₀ with target := aim t g stage e₀, evidenceIds := cited }) ∨
      ∃ e₀ ∈ (t.found g stage).edges, ∃ cited, e = { e₀ with evidenceIds := cited } := by
  have hlast (id : String) : lastTarget? (t.findings g stage).retargets id = if stage = .endpoints
      then (g.edge? id).bind (answer? g (t.found g .endpoints)) else none :=
    lastTarget?_findings hg id
  obtain ⟨e₀, hmem, rfl⟩ := (Graph.mem_edges_merge hg).1 he
  obtain ⟨cited, hcited⟩ : ∃ cited, absorb (t.findings g stage).edges e₀ =
      { e₀ with evidenceIds := cited } := ⟨_, rfl⟩
  simp only [settle, redirect, hcited, hlast]
  rcases hmem with hmem | hmem
  · refine .inl ⟨e₀, hmem, cited, ?_⟩
    rw [edge?_of_mem hg hmem]
    cases stage <;> rfl
  · obtain ⟨hfound, hnew⟩ := mem_fresh hmem
    rw [edges_findings] at hfound
    refine .inr ⟨e₀, hfound, cited, ?_⟩
    rw [edge?_of_notMem hnew, Option.bind_none, ite_self]
    rfl

/-- The edges after a stage, whatever is known of the nodes that it relates. -/
theorem mem_edges_of_built {known : String → Prop} (hg : g.Distinct)
    (hb : Built t.project g known stage (t.found g stage)) {e : Edge}
    (he : e ∈ (t.after g stage).edges) :
    (∃ e₀ ∈ g.edges, ∃ cited, e = { e₀ with target := aim t g stage e₀, evidenceIds := cited }) ∨
      ∃ e₀ cited, Relation t.project g known stage e₀ ∧ e = { e₀ with evidenceIds := cited } := by
  refine (mem_edges_found hg he).imp_right ?_
  rintro ⟨e₀, hfound, cited, rfl⟩
  obtain ⟨e₁, _, hrel, rfl⟩ := hb.relation_of_mem e₀ hfound
  exact ⟨e₁, cited, hrel, rfl⟩

/-- **The edges after a stage.** Apart from citations, an edge was there before, with another
target only if the stage resolves it, or is one of the relations of the stage. -/
theorem mem_edges_after (hg : g.Distinct) (hr : stage = .deployment → HoldsRepos t.project g)
    {e : Edge} (he : e ∈ (t.after g stage).edges) :
    (∃ e₀ ∈ g.edges, ∃ cited, e = { e₀ with target := aim t g stage e₀, evidenceIds := cited }) ∨
      ∃ e₀ cited, Relation t.project g (Known (t.after g stage)) stage e₀ ∧
        e = { e₀ with evidenceIds := cited } :=
  mem_edges_of_built hg (built_after hg hr) he

/-! ## Apps -/

/-- Apps are found by the inventory. -/
theorem Entity.rootOf?_eq_none {p : Project} {n : Node} (h : Entity p stage n)
    (hstage : stage ≠ .inventory) (repo : String) : Apps.rootOf? repo n = none := by
  cases h with
  | app => exact absurd rfl hstage
  | _ => rfl

/-- A stage leaves the apps as they are, unless it takes the inventory. -/
theorem apps_after (hstage : stage ≠ .inventory) (repo : String) :
    Apps.ofGraph (t.after g stage) repo = Apps.ofGraph g repo := by
  have hroots : (t.after g stage).nodes.filterMap (Apps.rootOf? repo) =
      g.nodes.filterMap (Apps.rootOf? repo) :=
    Graph.nodes_merge_filterMap fun n hn => (entity_found t g stage n hn).rootOf?_eq_none hstage repo
  rw [Apps.ofGraph, Apps.ofGraph, hroots]

/-! ## Deployments -/

theorem Entity.kind_ne_endpoint {p : Project} {n : Node} (h : Entity p stage n)
    (hstage : stage ≠ .endpoints) : n.kind ≠ .endpoint := by
  cases h with
  | endpoint => exact absurd rfl hstage
  | _ => exact nofun

/-- A stage leaves the endpoints as they are, unless it looks for them. -/
theorem endpoints_after (hstage : stage ≠ .endpoints) :
    (t.after g stage).nodesOf .endpoint = g.nodesOf .endpoint :=
  Graph.nodesOf_merge_of_ne fun n hn => (entity_found t g stage n hn).kind_ne_endpoint hstage

/-- Deployments are found by the apps and the endpoints of a graph. -/
theorem deployment_congr {g' : Graph} (h : ∀ repo, Apps.ofGraph g' repo = Apps.ofGraph g repo)
    (he : g'.nodesOf .endpoint = g.nodesOf .endpoint) (p : Project) :
    deployment p g' = deployment p g := by
  have hrepo : deploymentOf p g' = deploymentOf p g := by
    funext endpoints r
    simp only [deploymentOf, h]
  rw [deployment, deployment, hrepo, he]

/-! ## Runs -/

/-- What holds of a graph whatever stages have been carried out: identifiers are unique, and nodes
are entities of the project. -/
structure Formed (p : Project) (g : Graph) : Prop where
  distinct : g.Distinct
  entities : ∀ n ∈ g.nodes, ∃ stage, Entity p stage n

/-- What holds of a graph whatever stages have been carried out behind the inventory: edges start at
nodes besides. -/
structure Sound (p : Project) (g : Graph) : Prop extends Formed p g where
  sources : ∀ e ∈ g.edges, Known g e.source

theorem formed_empty (p : Project) : Formed p .empty :=
  ⟨Graph.distinct_empty, by simp [Graph.empty]⟩

theorem sound_empty (p : Project) : Sound p .empty := ⟨formed_empty p, by simp [Graph.empty]⟩

theorem Formed.after (hf : Formed t.project g) : Formed t.project (t.after g stage) where
  distinct := hf.distinct.merge _
  entities n hn := (mem_nodes_after hn).elim (hf.entities n) fun h => ⟨stage, h⟩

theorem Sound.after (hs : Sound t.project g)
    (hr : stage = .deployment → HoldsRepos t.project g) : Sound t.project (t.after g stage) where
  toFormed := hs.toFormed.after
  sources e he := by
    rcases mem_edges_after hs.distinct hr he with ⟨e₀, he₀, cited, rfl⟩ | ⟨e₀, cited, hrel, rfl⟩
    · exact known_after (hs.sources e₀ he₀)
    · exact hrel.known_source

/-- Stages behind the inventory leave the apps as they are. -/
theorem apps_foldl_after (repo : String) : ∀ (stages : List Stage) (g : Graph),
    Stage.inventory ∉ stages → Apps.ofGraph (stages.foldl t.after g) repo = Apps.ofGraph g repo
  | [], _, _ => rfl
  | stage :: stages, g, h => by
    rw [List.mem_cons, not_or] at h
    rw [List.foldl_cons, apps_foldl_after repo stages _ h.2, apps_after (Ne.symm h.1)]

theorem HoldsRepos.after (h : HoldsRepos t.project g) : HoldsRepos t.project (t.after g stage) :=
  fun r hr => known_after (h r hr)

/-- The inventory holds all repositories. -/
theorem holdsRepos_inventory (hg : g.Distinct) : HoldsRepos t.project (t.after g .inventory) := by
  intro r hr
  have hcovers : Covers (Known (t.after g .inventory)) (inventory t.project) :=
    fun n hn => Graph.mem_ids_merge hg hn
  rw [inventory, covers_concat_map] at hcovers
  exact known_repo (hcovers r hr)

/-- The graph after the inventory and further stages. -/
def Task.reached (t : Task) (stages : List Stage) : Graph :=
  stages.foldl t.after (t.after .empty .inventory)

theorem reached_append (t : Task) (stages : List Stage) (stage : Stage) :
    t.reached (stages ++ [stage]) = t.after (t.reached stages) stage := by
  rw [Task.reached, List.foldl_append]
  rfl

/-- The graph of a whole analysis. -/
theorem graph_all (t : Task) : (Analysis.ofStages t Stage.all).graph =
    t.reached [.screens, .endpoints, .database, .deployment, .features] := by
  rw [Analysis.ofStages, graph_run, Stage.all, List.foldl_cons, Task.reached, Progress.start]

theorem sound_reached (t : Task) (stages : List Stage) :
    Sound t.project (t.reached stages) ∧ HoldsRepos t.project (t.reached stages) := by
  induction stages using List.reverseRecOn with
  | nil =>
    exact ⟨(sound_empty t.project).after nofun, holdsRepos_inventory Graph.distinct_empty⟩
  | append_singleton stages stage ih =>
    rw [reached_append]
    exact ⟨ih.1.after fun _ => ih.2, ih.2.after⟩

theorem sound_all (t : Task) : Sound t.project (Analysis.ofStages t Stage.all).graph := by
  rw [graph_all]
  exact (sound_reached t _).1

/-- **Runs keep what stages keep.** What holds after the inventory, and is kept by every stage of a
sound graph, holds after every run that starts with the inventory. -/
theorem reached_induction (t : Task) {P : Graph → Prop} (hstart : P (t.reached []))
    (hstep : ∀ g stage, Sound t.project g → HoldsRepos t.project g → P g → P (t.after g stage))
    (stages : List Stage) : P (t.reached stages) := by
  induction stages using List.reverseRecOn with
  | nil => exact hstart
  | append_singleton stages stage ih =>
    rw [reached_append]
    exact hstep _ stage (sound_reached t stages).1 (sound_reached t stages).2 ih

/-! ## Endpoints -/

theorem exists_endpoint {n : Node} (h : n.kind = .endpoint) : ∃ d, n.detail = .endpoint d := by
  unfold Node.kind at h
  cases hd : n.detail <;> simp_all [NodeDetail.kind]

theorem isSome_route? {n : Node} (h : n.kind = .endpoint) : n.route?.isSome := by
  obtain ⟨d, hd⟩ := exists_endpoint h
  simp [Node.route?, hd]

theorem isSome_route?_nodesOf {g : Graph} : ∀ n ∈ g.nodesOf .endpoint, n.route?.isSome :=
  fun _ hn => isSome_route? (of_decide_eq_true (List.mem_filter.1 hn).2)

/-- The nodes among which calls are resolved have routes. -/
theorem isSome_route?_endpoints {g : Graph} {found : Findings} :
    ∀ n ∈ g.nodesOf .endpoint ++ found.nodesOf .endpoint, n.route?.isSome := by
  intro n hn
  rcases List.mem_append.1 hn with hn | hn
  · exact isSome_route?_nodesOf n hn
  · exact isSome_route? (of_decide_eq_true (List.mem_filter.1 hn).2)

/-- A call is resolved to one of the nodes among which it is resolved. -/
theorem mem_of_resolve? {nodes : List Node} (hr : ∀ n ∈ nodes, n.route?.isSome)
    {path id : String} {method : Option HttpMethod} {repo : Option String}
    (h : (Route.Index.ofNodes nodes).resolve? path method repo = some id) :
    ∃ n ∈ nodes, n.id = id := by
  obtain ⟨e, he, rfl, -⟩ := Route.Index.resolve?_eq_some h
  obtain ⟨n, hn, hne⟩ := Route.Index.exists_of_mem_entries hr (Route.Index.mem_candidates.1 he).1
  exact ⟨n, hn, (Route.Entry.id_ofNode? hne).symm⟩

/-- Only endpoints are resolved to. -/
theorem endpoint_of_resolve? {g : Graph} {path id : String} {method : Option HttpMethod}
    {repo : Option String}
    (h : (Route.Index.ofNodes (g.nodesOf .endpoint)).resolve? path method repo = some id) :
    ∃ n ∈ g.nodes, n.kind = .endpoint ∧ n.id = id := by
  obtain ⟨n, hn, rfl⟩ := mem_of_resolve? isSome_route?_nodesOf h
  obtain ⟨hmem, hkind⟩ := List.mem_filter.1 hn
  exact ⟨n, hmem, of_decide_eq_true hkind, rfl⟩

/-- Calls are resolved among the endpoints that the graph has after the stage. -/
theorem index_after_endpoints (hf : Formed t.project g) :
    Route.Index.ofNodes (g.nodesOf .endpoint ++ (t.found g .endpoints).nodesOf .endpoint) =
      .ofNodes ((t.after g .endpoints).nodesOf .endpoint) := by
  have hbuilt := built_anyway t g .endpoints
  have hentity : ∀ n ∈ g.nodes ++ (t.found g .endpoints).nodes, ∃ stage,
      Entity t.project stage n := by
    intro n hmem
    exact (List.mem_append.1 hmem).elim (hf.entities n) fun h => ⟨_, hbuilt.entity n h⟩
  have hnodes : (t.findings g .endpoints).nodesOf .endpoint =
      (t.found g .endpoints).nodesOf .endpoint := by
    rw [Findings.nodesOf, Findings.nodesOf, nodes_findings]
  rw [Task.after, Graph.nodesOf_merge hf.distinct, hnodes, Route.Index.ofNodes_firsts]
  · exact isSome_route?_endpoints
  · rw [nodes_findings]
    intro a ha b hb hid
    obtain ⟨_, hea⟩ := hentity a ha
    obtain ⟨_, heb⟩ := hentity b hb
    exact hea.kind_eq heb hid

/-- A call is resolved to a node that the graph has or that the stage finds. -/
theorem mem_of_answer? {found : Findings} {e : Edge} {id : String}
    (h : answer? g found e = some id) : ∃ n ∈ g.nodes ++ found.nodes, n.id = id := by
  unfold answer? at h
  split at h
  · cases h
  · obtain ⟨n, hn, hid⟩ := mem_of_resolve? isSome_route?_endpoints h
    refine ⟨n, ?_, hid⟩
    exact List.mem_append.2 ((List.mem_append.1 hn).imp List.mem_of_mem_filter
      List.mem_of_mem_filter)

theorem answer?_eq_some (hf : Formed t.project g) {e : Edge} {id : String}
    (h : answer? g (t.found g .endpoints) e = some id) : (∃ path, e.target = .pending path) ∧
      ∃ n ∈ (t.after g .endpoints).nodes, n.kind = .endpoint ∧ n.id = id := by
  unfold answer? at h
  split at h
  · cases h
  · next path hpath =>
    rw [index_after_endpoints hf] at h
    exact ⟨⟨path, hpath⟩, endpoint_of_resolve? h⟩

end ArchGraph.Discovery
