import ArchGraph.Proofs.Discovery.Ledger
import Mathlib.Data.List.Nodup
/-!
# Resolved calls

Calls of paths are open until the endpoints are known (`Open`). From then on every call points where
the endpoints of the graph make it point (`Settled`), and no later stage changes either the calls or
the endpoints. Main statement: `calls_resolved`, what every call of a whole analysis points at.
-/

namespace ArchGraph.Discovery

open ArchGraph.Graph (firsts_of_nodup)

/-! ## Endpoints that serve a call -/

/-- An endpoint of the graph that serves a request, as an entry of an index. -/
def Serves (g : Graph) (method : HttpMethod) (path : String) (e : Route.Entry) : Prop :=
  ∃ n ∈ g.nodes, ∃ d, n.detail = .endpoint d ∧ e = ⟨n.id, n.owningRepo, some d.method, d.route⟩ ∧
    Route.accepts d.route path = true ∧ d.method.accepts method = true

/-- A target is right for a call: the path only if no endpoint serves it, and otherwise the endpoint
that ranks first. -/
structure Resolved (g : Graph) (method : HttpMethod) (path : String) (repo : Option String)
    (target : Target) : Prop where
  pending_iff : target = .pending path ↔ ¬ ∃ n, Serves g method path n
  first       : (∃ n, Serves g method path n) → ∃ n, Serves g method path n ∧
    target = .node n.id ∧ ∀ m, Serves g method path m → m ≠ n →
      (n.rank path repo).before (m.rank path repo) = true

variable {g : Graph} {method : HttpMethod} {path : String} {repo : Option String}

theorem eq_of_id_eq (hg : g.Distinct) {n m : Node} (hn : n ∈ g.nodes) (hm : m ∈ g.nodes)
    (h : n.id = m.id) : n = m := List.inj_on_of_nodup_map hg.nodes hn hm h

theorem Serves.eq_of_id (hg : g.Distinct) {e e' : Route.Entry} (h : Serves g method path e)
    (h' : Serves g method path e') (hid : e.id = e'.id) : e = e' := by
  obtain ⟨n, hn, d, hd, rfl, -⟩ := h
  obtain ⟨n', hn', d', hd', rfl, -⟩ := h'
  obtain rfl := eq_of_id_eq hg hn hn' hid
  rw [hd, NodeDetail.endpoint.injEq] at hd'
  rw [hd']

theorem serves_iff (hg : g.Distinct) {e : Route.Entry} :
    e ∈ (Route.Index.ofNodes (g.nodesOf .endpoint)).candidates path (some method) ↔
      Serves g method path e := by
  have hnodup : ((g.nodesOf .endpoint).map Node.id).Nodup :=
    hg.nodes.sublist (List.filter_sublist.map Node.id)
  rw [Route.Index.mem_candidates, Route.Index.entries_ofNodes isSome_route?_nodesOf,
    firsts_of_nodup hnodup]
  constructor
  · rintro ⟨he, hpath, hserves⟩
    obtain ⟨n, hn, hne⟩ := List.mem_filterMap.1 he
    obtain ⟨hn, hkind⟩ := List.mem_filter.1 hn
    obtain ⟨d, hd⟩ := exists_endpoint (of_decide_eq_true hkind)
    simp only [Route.Entry.ofNode?, Node.route?, Node.method?, hd, Option.map_some,
      Option.some.injEq] at hne
    subst hne
    exact ⟨n, hn, d, hd, rfl, hpath, hserves⟩
  · rintro ⟨n, hn, d, hd, rfl, hpath, haccepts⟩
    refine ⟨List.mem_filterMap.2 ⟨n, List.mem_filter.2 ⟨hn, ?_⟩, ?_⟩, hpath, haccepts⟩
    · simp [Node.kind, hd, NodeDetail.kind]
    · simp [Route.Entry.ofNode?, Node.route?, Node.method?, hd]

theorem resolved_callTarget (hg : g.Distinct) :
    Resolved g method path repo (callTarget g method path repo) := by
  unfold callTarget
  cases h : (Route.Index.ofNodes (g.nodesOf .endpoint)).resolve? path (some method) repo with
  | none =>
    have hnone : ¬ ∃ n, Serves g method path n := by
      rintro ⟨n, hn⟩
      have hmem := (serves_iff hg).2 hn
      rw [Route.Index.resolve?_eq_none_iff.1 h] at hmem
      cases hmem
    exact ⟨by simp [hnone], fun hn => absurd hn hnone⟩
  | some id =>
    obtain ⟨e, he, rfl, hmin⟩ := Route.Index.resolve?_eq_some h
    have hserves := (serves_iff hg).1 he
    refine ⟨⟨nofun, fun hno => absurd ⟨e, hserves⟩ hno⟩, fun _ => ⟨e, hserves, rfl, ?_⟩⟩
    intro m hm hne
    exact hmin m ((serves_iff hg).2 hm) fun hid => hne (hm.eq_of_id hg hserves hid)

/-- An endpoint for `POST` leaves a request for `GET` pending. -/
example :
    let g := { Graph.empty with nodes :=
      [⟨"a", "POST /x", none, .endpoint ⟨.post, "/x", "x.js", none, .pagesApi⟩⟩] }
    callTarget g .post "/x" none = .node "a" ∧ callTarget g .get "/x" none = .pending "/x" := by
  decide +kernel

theorem Resolved.serves_of_node {id : String} (h : Resolved g method path repo (.node id)) :
    ∃ n, Serves g method path n ∧ n.id = id := by
  have hserved : ∃ n, Serves g method path n := by
    by_contra hno
    have hpending := h.pending_iff.2 hno
    cases hpending
  obtain ⟨n, hn, htarget, -⟩ := h.first hserved
  exact ⟨n, hn, (Target.node.inj htarget).symm⟩

theorem path_of_callTarget {path' : String} (h : callTarget g method path repo = .pending path') :
    path' = path := by
  unfold callTarget at h
  cases hid : (Route.Index.ofNodes (g.nodesOf .endpoint)).resolve? path (some method) repo with
  | none => rw [hid] at h; exact (Target.pending.inj h).symm
  | some id => rw [hid] at h; cases h

/-! ## Before and after calls are resolved -/

/-- The repository that a caller belongs to. -/
def callerRepo? (g : Graph) (source : String) : Option String :=
  (g.node? source).bind (·.owningRepo)

/-- No call has been resolved yet, and none is scheduled. -/
structure Open (g : Graph) : Prop where
  calls : ∀ e ∈ g.edges, ∀ method path client, e.detail = .httpCall method path client →
    e.target = .pending path
  crons : ∀ e ∈ g.edges, ∀ schedule, e.detail ≠ .cron schedule

/-- All calls point where the endpoints of the graph make them point. -/
structure Settled (g : Graph) : Prop where
  calls : ∀ e ∈ g.edges, ∀ method path client, e.detail = .httpCall method path client →
    e.target = callTarget g method path (callerRepo? g e.source)
  crons : ∀ e ∈ g.edges, ∀ schedule, e.detail = .cron schedule →
    ∃ path repo, e.target = callTarget g .get path repo

theorem open_empty : Open .empty := ⟨by simp [Graph.empty], by simp [Graph.empty]⟩

variable {t : Task} {stage : Stage}

theorem Open.after (hs : Sound t.project g) (ho : Open g)
    (hstage : stage = .inventory ∨ stage = .screens) : Open (t.after g stage) := by
  have haim : ∀ e, aim t g stage e = e.target := by
    rcases hstage with rfl | rfl <;> exact fun _ => rfl
  have hr : stage = .deployment → HoldsRepos t.project g := by
    rcases hstage with rfl | rfl <;> nofun
  constructor
  · intro e he method path client hd
    rcases mem_edges_after hs.distinct hr he with ⟨e₀, he₀, cited, rfl⟩ | ⟨e₀, cited, hrel, rfl⟩
    · exact (haim e₀).trans (ho.calls e₀ he₀ method path client hd)
    · cases hrel <;> cases hd
      rfl
  · intro e he schedule hd
    rcases mem_edges_after hs.distinct hr he with ⟨e₀, he₀, cited, rfl⟩ | ⟨e₀, cited, hrel, rfl⟩
    · exact ho.crons e₀ he₀ schedule hd
    · rcases hstage with rfl | rfl <;> cases hrel <;> cases hd

theorem callerRepo?_after (hs : Sound t.project g) {e : Edge} (he : e ∈ g.edges) :
    callerRepo? (t.after g stage) e.source = callerRepo? g e.source := by
  rw [callerRepo?, callerRepo?, Task.after, Graph.node?_merge (hs.sources e he)]

theorem settled_endpoints (hs : Sound t.project g) (ho : Open g) :
    Settled (t.after g .endpoints) := by
  have hr : Stage.endpoints = .deployment → HoldsRepos t.project g := nofun
  constructor
  · intro e he method path client hd
    rcases mem_edges_after hs.distinct hr he with ⟨e₀, he₀, cited, rfl⟩ | ⟨e₀, cited, hrel, rfl⟩
    · have hsource : sourceRepo? g (t.found g .endpoints) e₀.source = callerRepo? g e₀.source := by
        obtain ⟨n, hn⟩ := Option.isSome_iff_exists.1
          ((Graph.node?_isSome g e₀.source).trans (hasNode_iff.2 (hs.sources e₀ he₀)))
        rw [sourceRepo?, callerRepo?, hn, Option.some_or]
      have hmethod : e₀.detail.method? = some method := by
        rw [show e₀.detail = .httpCall method path client from hd]
        rfl
      rw [callerRepo?_after hs he₀]
      simp only [aim, answer?, ho.calls e₀ he₀ method path client hd, index_after_endpoints hs.toFormed,
        hsource, hmethod, callTarget]
    · cases hrel <;> cases hd
  · intro e he schedule hd
    rcases mem_edges_after hs.distinct hr he with ⟨e₀, he₀, cited, rfl⟩ | ⟨e₀, cited, hrel, rfl⟩
    · exact absurd hd (ho.crons e₀ he₀ schedule)
    · cases hrel <;> cases hd

/-- Only the stage that finds the endpoints changes where calls point. -/
theorem callTarget_after (hstage : stage ≠ .endpoints) :
    callTarget (t.after g stage) = callTarget g := by
  funext method path repo
  rw [callTarget, callTarget, endpoints_after hstage]

theorem Settled.after (hs : Sound t.project g) (hr : stage = .deployment → HoldsRepos t.project g)
    (hset : Settled g) (hstage : stage = .database ∨ stage = .deployment ∨ stage = .features) :
    Settled (t.after g stage) := by
  have haim : ∀ e, aim t g stage e = e.target := by
    rcases hstage with rfl | rfl | rfl <;> exact fun _ => rfl
  have htarget : callTarget (t.after g stage) = callTarget g :=
    callTarget_after (by rcases hstage with rfl | rfl | rfl <;> nofun)
  constructor
  · intro e he method path client hd
    rcases mem_edges_after hs.distinct hr he with ⟨e₀, he₀, cited, rfl⟩ | ⟨e₀, cited, hrel, rfl⟩
    · rw [htarget, callerRepo?_after hs he₀]
      exact (haim e₀).trans (hset.calls e₀ he₀ method path client hd)
    · rcases hstage with rfl | rfl | rfl <;> cases hrel <;> cases hd
  · intro e he schedule hd
    rcases mem_edges_after hs.distinct hr he with ⟨e₀, he₀, cited, rfl⟩ | ⟨e₀, cited, hrel, rfl⟩
    · obtain ⟨path, repo, hcron⟩ := hset.crons e₀ he₀ schedule hd
      exact ⟨path, repo, by rw [htarget]; exact (haim e₀).trans hcron⟩
    · cases hrel <;> cases hd
      next repo path ht _ => exact ⟨path, some repo, by rw [htarget]; exact ht⟩

/-! ## Whole analyses -/

theorem settled_all (t : Task) : Settled (Analysis.ofStages t Stage.all).graph := by
  obtain ⟨hs₁, -⟩ := sound_reached t []
  obtain ⟨hs₂, -⟩ := sound_reached t [.screens]
  obtain ⟨hs₃, hr₃⟩ := sound_reached t [.screens, .endpoints]
  obtain ⟨hs₄, hr₄⟩ := sound_reached t [.screens, .endpoints, .database]
  obtain ⟨hs₅, hr₅⟩ := sound_reached t [.screens, .endpoints, .database, .deployment]
  have h₁ : Open (t.reached []) := open_empty.after (sound_empty t.project) (.inl rfl)
  have h₂ : Open (t.reached [.screens]) := h₁.after hs₁ (.inr rfl)
  have h₃ : Settled (t.reached [.screens, .endpoints]) := settled_endpoints hs₂ h₂
  have h₄ : Settled (t.reached [.screens, .endpoints, .database]) :=
    h₃.after hs₃ (fun _ => hr₃) (.inl rfl)
  have h₅ : Settled (t.reached [.screens, .endpoints, .database, .deployment]) :=
    h₄.after hs₄ (fun _ => hr₄) (.inr (.inl rfl))
  rw [graph_all]
  exact h₅.after hs₅ (fun _ => hr₅) (.inr (.inr rfl))

/-- **Calls are resolved soundly and completely.** In the graph of a whole analysis a call of a path
is pending exactly if no endpoint of the graph serves it, and otherwise points at the one that ranks
first. A scheduled call that is pending is served by no endpoint either, and one that is not points
at an endpoint that serves `GET`. -/
theorem calls_resolved (t : Task) : let g := (Analysis.ofStages t Stage.all).graph
    (∀ e ∈ g.edges, ∀ method path client, e.detail = .httpCall method path client →
      Resolved g method path (callerRepo? g e.source) e.target) ∧
    ∀ e ∈ g.edges, ∀ schedule, e.detail = .cron schedule →
      (∀ path, e.target = .pending path → ¬ ∃ n, Serves g .get path n) ∧
        ∀ id, e.target = .node id → ∃ path n, Serves g .get path n ∧ n.id = id := by
  intro g
  have hs : Sound t.project g := by
    rw [show g = _ from graph_all t]
    exact (sound_reached t _).1
  have hset : Settled g := settled_all t
  constructor
  · intro e he method path client hd
    rw [hset.calls e he method path client hd]
    exact resolved_callTarget hs.distinct
  · intro e he schedule hd
    obtain ⟨path, repo, htarget⟩ := hset.crons e he schedule hd
    have hres : Resolved g .get path repo (callTarget g .get path repo) :=
      resolved_callTarget hs.distinct
    rw [htarget]
    constructor
    · intro path' hpending
      obtain rfl := path_of_callTarget hpending
      exact hres.pending_iff.1 hpending
    · intro id hid
      rw [hid] at hres
      exact ⟨path, hres.serves_of_node⟩

/-- A page calls an endpoint that a platform also calls on schedule. -/
def calledTwice : Task where
  project := {
    id := "p"
    repositories := [.ofPaths "r" "o" "n" ["pages/a.js", "pages/api/x.js", "vercel.json"]]
    contents := .ofList
      [("pages/a.js", "fetch('/api/x')"),
       ("vercel.json", "\x7b\"crons\":[\x7b\"path\":\"/api/x\"\x7d]\x7d")] }
  settings := .default
  catalog := []

set_option maxRecDepth 10000 in
/-- What is found says what its edges are, and what their identifiers are made of. -/
theorem edges_calledTwice :
    ((allFindings calledTwice).flatMap (·.edges)).map (fun e => (e.detail, e.use)) =
      [(.plain, "edge", ["contains", "repo_13198440993904f8", "app_7895caf4947c5e0d", ""]),
       (.plain, "edge", ["contains", "app_7895caf4947c5e0d", "screen_a744ca4a7b2de4dd", ""]),
       (.httpCall .get "/api/x" "fetch",
         "edge", ["calls", "screen_a744ca4a7b2de4dd", "api:/api/x", "get"]),
       (.plain, "edge", ["contains", "app_7895caf4947c5e0d", "endpoint_9ad5d29c3bee4c61", ""]),
       (.plain,
         "edge", ["deploys_to", "app_7895caf4947c5e0d", "deployment_04dc51e2e8be2acd", ""]),
       (.cron none,
         "edge", ["calls", "worker_13946c91dbef7288", "endpoint_9ad5d29c3bee4c61", "cron"]),
       (.plain,
         "edge", ["deploys_to", "worker_13946c91dbef7288", "deployment_04dc51e2e8be2acd", ""]),
       (.plain, "edge", ["contains", "app_7895caf4947c5e0d", "worker_13946c91dbef7288", ""])] := by
  rw [foundEdges_of_noMigrations (by decide +kernel)]
  decide +kernel

theorem nodup_calledTwice : (((allFindings calledTwice).flatMap (·.edges)).map Edge.id).Nodup := by
  have huses := congrArg (List.map Prod.snd) edges_calledTwice
  rw [List.map_map] at huses
  rw [ids_allFindings, show List.map Edge.use _ = _ from huses]
  simp only [List.map_cons, List.map_nil, Id.ofParts_eq]
  decide +kernel

/-- Both calls are there in the end. -/
theorem exists_calledTwice {detail : EdgeDetail}
    (h : detail ∈ [EdgeDetail.httpCall .get "/api/x" "fetch", .cron none]) :
    ∃ e ∈ (Analysis.ofStages calledTwice Stage.all).graph.edges, e.detail = detail := by
  have hdetails := congrArg (List.map Prod.fst) edges_calledTwice
  rw [List.map_map] at hdetails
  have hfound : detail ∈ ((allFindings calledTwice).flatMap (·.edges)).map Edge.detail := by
    rw [show List.map Edge.detail _ = _ from hdetails]
    revert h
    simp
    rintro (rfl | rfl) <;> simp
  obtain ⟨x, hx, rfl⟩ := List.mem_map.1 hfound
  obtain ⟨_, he, _, _, rfl, -⟩ := exists_edge nodup_calledTwice hx
  exact ⟨_, he, rfl⟩

theorem calledTwice_resolved : let g := (Analysis.ofStages calledTwice Stage.all).graph
    (∃ e ∈ g.edges, e.detail = .httpCall .get "/api/x" "fetch" ∧
      Resolved g .get "/api/x" (callerRepo? g e.source) e.target) ∧
    ∃ e ∈ g.edges, e.detail = .cron none ∧
      (∀ path, e.target = .pending path → ¬ ∃ n, Serves g .get path n) ∧
        ∀ id, e.target = .node id → ∃ path n, Serves g .get path n ∧ n.id = id := by
  intro g
  obtain ⟨e, he, hd⟩ : ∃ e ∈ g.edges, e.detail = .httpCall .get "/api/x" "fetch" :=
    exists_calledTwice (by simp)
  obtain ⟨e', he', hd'⟩ : ∃ e ∈ g.edges, e.detail = .cron none := exists_calledTwice (by simp)
  exact ⟨⟨e, he, hd, (calls_resolved calledTwice).1 e he .get "/api/x" "fetch" hd⟩,
    e', he', hd', (calls_resolved calledTwice).2 e' he' none hd'⟩

end ArchGraph.Discovery
