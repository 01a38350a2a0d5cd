import ArchGraph.Proofs.Discovery.Resolution
/-!
# Stages in any order

What calls point at, whatever stages have been carried out and in whatever order. What a stage does
to the edges of a graph can be said for every order (`mem_edges_of_built`), so that what resolved
calls point at is an invariant of runs (`Answered`). A call of a page keeps its method while it is
pending. A scheduled call does not: one that finds no endpoint for `GET` is resolved, once endpoints
are looked at again, to any endpoint of its path. Main statements: `calls_answered`, and
`postOnly_misled`, where a scheduled call ends at an endpoint for `POST`.
-/

namespace ArchGraph.Discovery

variable {t : Task} {g g' : Graph} {stage : Stage} {stages : List Stage}

/-! ## Runs -/

theorem ofStages_append (t : Task) (stages : List Stage) (stage : Stage) :
    (Analysis.ofStages t (stages ++ [stage])).graph =
      t.after (Analysis.ofStages t stages).graph stage := by
  simp only [Analysis.ofStages, graph_run, List.foldl_append, List.foldl_cons, List.foldl_nil]

theorem formed_run (t : Task) (stages : List Stage) :
    Formed t.project (Analysis.ofStages t stages).graph := by
  induction stages using List.reverseRecOn with
  | nil => exact formed_empty t.project
  | append_singleton stages stage ih =>
    rw [ofStages_append]
    exact ih.after

/-! ## Answers to calls -/

/-- A call of a page is pending or points at an endpoint that serves it. -/
def CallAnswered (g : Graph) (method : HttpMethod) (path : String) (target : Target) : Prop :=
  target = .pending path ∨ ∃ n, Serves g method path n ∧ target = .node n.id

/-- A scheduled call is pending or points at an endpoint, which serves `GET` unless endpoints were
looked at after deployments. -/
def CronAnswered (g : Graph) (stages : List Stage) (target : Target) : Prop :=
  (∃ path, target = .pending path) ∨
    ∃ n ∈ g.nodes, ∃ d, n.detail = .endpoint d ∧ target = .node n.id ∧
      (d.method.accepts .get = true ∨ [Stage.deployment, .endpoints].Sublist stages)

/-- What calls point at in the graph that stages lead to. Only deployments schedule calls. -/
structure Answered (g : Graph) (stages : List Stage) : Prop where
  calls  : ∀ e ∈ g.edges, ∀ method path client, e.detail = .httpCall method path client →
    CallAnswered g method path e.target
  crons  : ∀ e ∈ g.edges, ∀ schedule, e.detail = .cron schedule →
    CronAnswered g stages e.target
  source : ∀ e ∈ g.edges, ∀ schedule, e.detail = .cron schedule → Stage.deployment ∈ stages

theorem answered_empty : Answered .empty [] := by
  constructor <;> simp [Graph.empty]

theorem Serves.mono (hsub : g.nodes ⊆ g'.nodes) {method : HttpMethod} {path : String}
    {e : Route.Entry} (h : Serves g method path e) : Serves g' method path e := by
  obtain ⟨n, hn, hserves⟩ := h
  exact ⟨n, hsub hn, hserves⟩

theorem CallAnswered.mono (hsub : g.nodes ⊆ g'.nodes) {method : HttpMethod} {path : String}
    {target : Target} (h : CallAnswered g method path target) :
    CallAnswered g' method path target :=
  h.imp_right fun ⟨n, hn, htarget⟩ => ⟨n, hn.mono hsub, htarget⟩

theorem CronAnswered.mono (hsub : g.nodes ⊆ g'.nodes) {stages' : List Stage}
    (hstages : stages.Sublist stages') {target : Target} (h : CronAnswered g stages target) :
    CronAnswered g' stages' target :=
  h.imp_right fun ⟨n, hn, d, hd, htarget, hget⟩ =>
    ⟨n, hsub hn, d, hd, htarget, hget.imp_right fun horder => horder.trans hstages⟩

/-- A call that is looked up with its method points at an endpoint that serves it. -/
theorem callAnswered_callTarget (hg : g.Distinct) (method : HttpMethod) (path : String)
    (repo : Option String) : CallAnswered g method path (callTarget g method path repo) := by
  have hres : Resolved g method path repo (callTarget g method path repo) := resolved_callTarget hg
  cases htarget : callTarget g method path repo with
  | pending path' =>
    obtain rfl := path_of_callTarget htarget
    exact .inl rfl
  | node id =>
    rw [htarget] at hres
    obtain ⟨n, hn, rfl⟩ := hres.serves_of_node
    exact .inr ⟨n, hn, rfl⟩

/-- A scheduled call is looked up for `GET` where it is found. -/
theorem cronAnswered_callTarget (hg : g.Distinct) (stages : List Stage) (path : String)
    (repo : Option String) : CronAnswered g stages (callTarget g .get path repo) := by
  rcases callAnswered_callTarget hg .get path repo with hpending | ⟨e, hserves, hnode⟩
  · exact .inl ⟨path, hpending⟩
  · obtain ⟨n, hn, d, hd, rfl, -, haccepts⟩ := hserves
    exact .inr ⟨n, hn, d, hd, hnode, .inl haccepts⟩

/-! ## What a stage does to calls -/

/-- A pending call of a page is looked up with its method. -/
theorem aim_call (hf : Formed t.project g) {e : Edge} {method : HttpMethod} {path client : String}
    (hd : e.detail = .httpCall method path client)
    (h : CallAnswered g method path e.target) :
    CallAnswered (t.after g stage) method path (aim t g stage e) := by
  have hsub : g.nodes ⊆ (t.after g stage).nodes := Graph.nodes_subset_merge _ _
  cases stage with
  | endpoints =>
    rcases h with hpending | ⟨n, hn, hnode⟩
    · have htarget : aim t g .endpoints e = callTarget (t.after g .endpoints) method path
          (sourceRepo? g (t.found g .endpoints) e.source) := by
        simp only [aim, answer?, hpending, hd, EdgeDetail.method?, index_after_endpoints hf,
          callTarget]
      rw [htarget]
      exact callAnswered_callTarget hf.after.distinct _ _ _
    · rw [aim, answer?_eq_none hnode]
      exact .inr ⟨n, hn.mono hsub, hnode⟩
  | _ => exact h.mono hsub

/-- A pending scheduled call is looked up without a method, and only after deployments. -/
theorem aim_cron (hf : Formed t.project g) {e : Edge} (hs : Stage.deployment ∈ stages)
    (h : CronAnswered g stages e.target) :
    CronAnswered (t.after g stage) (stages ++ [stage]) (aim t g stage e) := by
  have hsub : g.nodes ⊆ (t.after g stage).nodes := Graph.nodes_subset_merge _ _
  have hmono := h.mono hsub (List.sublist_append_left stages [stage])
  cases stage with
  | endpoints =>
    cases hans : answer? g (t.found g .endpoints) e with
    | none => simpa only [aim, hans, Option.elim_none] using hmono
    | some id =>
      obtain ⟨-, n, hn, hk, rfl⟩ := answer?_eq_some hf hans
      obtain ⟨d, hd⟩ := exists_endpoint hk
      have horder : [Stage.deployment, .endpoints].Sublist (stages ++ [.endpoints]) :=
        (List.singleton_sublist.2 hs).append (List.Sublist.refl [Stage.endpoints])
      simp only [aim, hans]
      exact .inr ⟨n, hn, d, hd, rfl, .inr horder⟩
  | _ => exact hmono

/-- Every stage keeps to what calls point at. -/
theorem Answered.after (hf : Formed t.project g) (h : Answered g stages) :
    Answered (t.after g stage) (stages ++ [stage]) := by
  have hsub : g.nodes ⊆ (t.after g stage).nodes := Graph.nodes_subset_merge _ _
  have hedges {e : Edge} (he : e ∈ (t.after g stage).edges) :=
    mem_edges_of_built hf.distinct (built_anyway t g stage) he
  constructor
  · intro e he method path client hd
    rcases hedges he with ⟨e₀, he₀, cited, rfl⟩ | ⟨e₀, cited, hrel, rfl⟩
    · exact aim_call hf hd (h.calls e₀ he₀ method path client hd)
    · cases hrel <;> cases hd
      exact .inl rfl
  · intro e he schedule hd
    rcases hedges he with ⟨e₀, he₀, cited, rfl⟩ | ⟨e₀, cited, hrel, rfl⟩
    · exact aim_cron hf (h.source e₀ he₀ schedule hd) (h.crons e₀ he₀ schedule hd)
    · cases hrel <;> cases hd
      next repo path ht =>
        rw [ht]
        exact (cronAnswered_callTarget hf.distinct _ path (some repo)).mono hsub (.refl _)
  · intro e he schedule hd
    rcases hedges he with ⟨e₀, he₀, cited, rfl⟩ | ⟨e₀, cited, hrel, rfl⟩
    · exact List.mem_append_left _ (h.source e₀ he₀ schedule hd)
    · cases hrel <;> cases hd
      exact List.mem_append_right _ (List.mem_singleton_self _)

/-! ## Whole runs -/

/-- **Calls that are resolved, in every order of stages.** Whatever stages have been carried out, a
call of a page that is resolved points at an endpoint that serves its method and path, and a
scheduled call at an endpoint. The latter accepts `GET` as long as endpoints have not been looked at
after deployments. -/
theorem calls_answered (t : Task) (stages : List Stage) :
    Answered (Analysis.ofStages t stages).graph stages := by
  induction stages using List.reverseRecOn with
  | nil => exact answered_empty
  | append_singleton stages stage ih =>
    rw [ofStages_append]
    exact ih.after (formed_run t stages)

/-- An endpoint that serves `POST` only, and a scheduled call of its path. -/
def postOnly : Task where
  project := {
    id := "p"
    repositories := [.ofPaths "r" "o" "n" ["pages/api/x.js", "vercel.json"]]
    contents := .ofList
      [("pages/api/x.js", "export function POST() \x7b\x7d"),
       ("vercel.json", "\x7b\"crons\":[\x7b\"path\":\"/api/x\"\x7d]\x7d")] }
  settings := .default
  catalog := []

set_option maxRecDepth 10000 in
/-- When the endpoints are looked at last, the scheduled call ends at the endpoint that does not
accept it. -/
theorem postOnly_misled :
    let g := (Analysis.ofStages postOnly [.deployment, .endpoints]).graph
    ∃ e ∈ g.edges, e.detail = .cron none ∧ ∃ n ∈ g.nodes, e.target = .node n.id ∧
      n.method? = some .post ∧ HttpMethod.post.accepts .get = false := by
  decide +kernel

end ArchGraph.Discovery
