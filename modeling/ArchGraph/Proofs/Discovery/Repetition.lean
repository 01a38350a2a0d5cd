import ArchGraph.Proofs.Discovery.Integrity
import ArchGraph.Proofs.Graph.Batch
/-!
# Stages carried out twice

A stage reads little of the graph: the apps, the endpoints, and the calls of the subsystems. What it
adds itself is none of what it reads, apart from the endpoints, so that it finds the same again
(`found_after`), and a merge absorbs what a graph already holds (`Holds.nodes_merge` and its
neighbours). The endpoints are read again when calls are resolved; a call that is still pending is
one that no endpoint serves (`retargets_after`). Main statement: `stage_repeated`.
-/

namespace ArchGraph

/-! ## Findings that a graph holds -/

namespace Graph

/-- A graph holds all that findings bring: their nodes, their edges with all citations, and their
evidence. -/
structure Holds (g : Graph) (f : Findings) : Prop where
  nodes    : ∀ n ∈ f.nodes, n.id ∈ g.nodes.map Node.id
  edges    : ∀ e ∈ f.edges, ∃ h ∈ g.edges, h.id = e.id ∧ e.evidenceIds ⊆ h.evidenceIds
  evidence : ∀ e ∈ f.evidence, e.id ∈ g.evidence.map Evidence.id

theorem foldl_insertNew_of_subset {α : Type} {id : α → String} : ∀ {items held : List α},
    (∀ a ∈ items, id a ∈ held.map id) → items.foldl (insertNew id) held = held
  | [], _, _ => rfl
  | a :: items, held, h => by
    rw [List.foldl_cons, insertNew_of_mem (h a (by simp))]
    exact foldl_insertNew_of_subset fun b hb => h b (by simp [hb])

theorem insertEdge_of_cited {e : Edge} : ∀ {held : List Edge}, (held.map Edge.id).Nodup →
    (∃ h ∈ held, h.id = e.id ∧ e.evidenceIds ⊆ h.evidenceIds) → insertEdge held e = held
  | [], _, ⟨_, hmem, _⟩ => by simp at hmem
  | x :: held, hd, ⟨h, hmem, hid, hsub⟩ => by
    rw [List.map_cons, List.nodup_cons] at hd
    rw [insertEdge]
    by_cases hx : x.id = e.id
    · have hxh : h = x := by
        refine (List.mem_cons.1 hmem).resolve_right fun hin => hd.1 ?_
        exact (hx.trans hid.symm) ▸ List.mem_map_of_mem hin
      rw [if_pos hx, union_of_subset fun s hs => hxh ▸ hsub hs]
    · have hin : h ∈ held := (List.mem_cons.1 hmem).resolve_left fun heq => hx (heq ▸ hid)
      rw [if_neg hx, insertEdge_of_cited hd.2 ⟨h, hin, hid, hsub⟩]

theorem foldl_insertEdge_of_cited {held : List Edge} (hd : (held.map Edge.id).Nodup) :
    ∀ {found : List Edge},
      (∀ e ∈ found, ∃ h ∈ held, h.id = e.id ∧ e.evidenceIds ⊆ h.evidenceIds) →
        found.foldl insertEdge held = held
  | [], _ => rfl
  | e :: found, h => by
    rw [List.foldl_cons, insertEdge_of_cited hd (h e (by simp))]
    exact foldl_insertEdge_of_cited hd fun x hx => h x (by simp [hx])

/-- A merge reports that it changed nothing but the warnings. -/
structure Idle (s : MergeStats) : Prop where
  nodes    : s.nodesAdded = 0
  edges    : s.edgesAdded = 0
  evidence : s.evidenceAdded = 0
  targets  : s.edgesRetargeted = 0

/-- A graph that two graphs have in common but for their warnings. -/
structure SameFacts (g g' : Graph) : Prop where
  nodes    : g'.nodes = g.nodes
  edges    : g'.edges = g.edges
  evidence : g'.evidence = g.evidence

variable {g : Graph} {f : Findings}

/-- A merge absorbs what the graph holds already. -/
theorem Holds.merge (hg : g.Distinct) (h : g.Holds f) (hr : f.retargets = []) :
    SameFacts g (g.merge f) ∧ Idle (g.mergeStats f) := by
  have hnodes := foldl_insertNew_of_subset h.nodes
  have hedges := foldl_insertEdge_of_cited hg.edges h.edges
  have hevidence := foldl_insertNew_of_subset h.evidence
  constructor
  · exact ⟨hnodes, by rw [Graph.merge, hr, hedges]; rfl, hevidence⟩
  · constructor <;>
      simp [mergeStats_eq, Graph.merge, hnodes, hedges, hevidence, hr]

/-- What has been merged is held. -/
theorem holds_merge (hg : g.Distinct) (f : Findings) : (g.merge f).Holds f where
  nodes n hn := mem_ids_merge hg hn
  edges e he := by
    have hid : e.id ∈ (f.edges.foldl insertEdge g.edges).map Edge.id :=
      mem_ids_foldl_insertEdge.2 (.inr (List.mem_map_of_mem he))
    rw [foldl_insertEdge _ _ hg.edges, List.map_map] at hid
    obtain ⟨x, hx, hid⟩ := List.mem_map.1 hid
    have hxid : x.id = e.id := hid
    refine ⟨settle f x, ?_, hxid, fun s hs => ?_⟩
    · rw [edges_merge hg]
      exact List.mem_map_of_mem hx
    · have hcited : s ∈ citations f.edges x.id := mem_citations.2 ⟨e, he, hxid.symm, hs⟩
      exact mem_union.2 (.inr hcited)
  evidence e he := by
    rw [evidence_merge, List.map_append, List.mem_append]
    by_cases hheld : e.id ∈ g.evidence.map Evidence.id
    · exact .inl hheld
    · obtain ⟨x, hx, hxid⟩ := List.mem_map.1
        ((mem_ids_firsts f.evidence).2 (List.mem_map_of_mem he))
      refine .inr (List.mem_map.2 ⟨x, List.mem_filter.2 ⟨hx, ?_⟩, hxid⟩)
      simpa [hxid] using hheld

/-! ## What a merge leaves as it is -/

theorem detail_settle (f : Findings) (e : Edge) : (settle f e).detail = e.detail := rfl

/-- The edges of a kind that is not found are only cited and pointed anew. -/
theorem edgesOf_merge_of_ne (hg : g.Distinct) {kind : EdgeKind} (h : ∀ e ∈ f.edges, e.kind ≠ kind) :
    (g.merge f).edgesOf kind = (g.edgesOf kind).map (settle f) := by
  have hnone : (fresh Edge.id g.edges f.edges).filter (·.kind = kind) = [] := by
    rw [List.filter_eq_nil_iff]
    intro e he
    simpa using h e (mem_fresh he).1
  rw [edgesOf, edges_merge hg, List.filter_map, List.filter_append]
  have hkind : (fun e : Edge => decide (e.kind = kind)) ∘ settle f =
      fun e => decide (e.kind = kind) := rfl
  rw [hkind, hnone, List.append_nil, edgesOf]

/-- Items put in front a second time leave no trace among first occurrences. -/
theorem firsts_append_subset {α : Type} {id : α → String} {held more items : List α}
    (h : more ⊆ firsts id items) :
    firsts id (held ++ (more ++ items)) ⊆ firsts id (held ++ items) := by
  intro a ha
  rw [firsts_append, List.mem_append] at ha ⊢
  refine ha.imp_right fun ha => ?_
  obtain ⟨hfirst, hnew⟩ := List.mem_filter.1 ha
  refine List.mem_filter.2 ⟨?_, hnew⟩
  rw [firsts_append, List.mem_append] at hfirst
  rcases hfirst with hmore | hitems
  · exact h (mem_of_mem_firsts hmore)
  · exact (List.mem_filter.1 hitems).1

end Graph

namespace Discovery

open ArchGraph.Graph (Distinct Idle SameFacts firsts fresh mem_fresh firsts_append_subset)

variable {t : Task} {g : Graph} {stage : Stage}

/-! ## What a stage reads -/

/-- Looking at the database leaves the calls of its subsystems as they are. -/
theorem calls_after (hg : g.Distinct) {kind : EdgeKind}
    (hk : kind = .authenticates ∨ kind = .stores) :
    (t.after g .database).edgesOf kind =
      (g.edgesOf kind).map (Graph.settle (t.findings g .database)) := by
  refine Graph.edgesOf_merge_of_ne hg fun e he => ?_
  rw [edges_findings] at he
  obtain ⟨e₀, cited, hrel, rfl⟩ := (built_anyway t g .database).relation_of_mem e he
  obtain ⟨hauth, hstores⟩ := hrel.kind_ne nofun
  rcases hk with rfl | rfl
  · exact hauth
  · exact hstores

section Reading

variable {g' : Graph}

theorem screens_congr (h : ∀ repo, Apps.ofGraph g' repo = Apps.ofGraph g repo)
    (settings : AnalysisSettings) (p : Project) : screens settings p g' = screens settings p g := by
  have hrepo : screensOf settings p g' = screensOf settings p g := by
    funext r
    simp only [screensOf, h]
  rw [screens, screens, hrepo]

theorem endpointsOf_congr (h : ∀ repo, Apps.ofGraph g' repo = Apps.ofGraph g repo)
    (settings : AnalysisSettings) (p : Project) :
    endpointsOf settings p g' = endpointsOf settings p g := by
  funext r
  simp only [endpointsOf, h]

/-- The database reads of the calls of its subsystems whether there are any, and their buckets. -/
theorem database_congr (change : Edge → Edge) (hd : ∀ e, (change e).detail = e.detail)
    (ha : g'.edgesOf .authenticates = (g.edgesOf .authenticates).map change)
    (hs : g'.edgesOf .stores = (g.edgesOf .stores).map change) (p : Project) :
    database p g' = database p g := by
  have hbucket : accessedBucket? ∘ change = accessedBucket? := by
    funext e
    simp only [Function.comp_apply, accessedBucket?, hd]
  have hauth (m : Sql.Migrations) (s : Sql.Schema) : authFindings m s g' = authFindings m s g := by
    simp only [authFindings, ha, List.isEmpty_map]
  have hstorage (m : Sql.Migrations) : storageFindings m g' = storageFindings m g := by
    simp only [storageFindings, hs, List.isEmpty_map, List.filterMap_map, hbucket]
  simp only [database, hauth, hstorage]

end Reading

/-- **What is found again.** Beside the graph that a stage leads to, the stage finds what it found,
apart from features. -/
theorem found_after (hg : g.Distinct) (hstage : stage ≠ .features) :
    t.found (t.after g stage) stage = t.found g stage := by
  cases stage with
  | inventory => rfl
  | screens =>
    have hstage : Stage.screens ≠ .inventory := by decide
    exact screens_congr (apps_after hstage) _ _
  | endpoints =>
    have hstage : Stage.endpoints ≠ .inventory := by decide
    rw [Task.found, Task.found, endpointsOf_congr (apps_after hstage)]
  | database =>
    exact database_congr (Graph.settle (t.findings g .database)) (Graph.detail_settle _)
      (calls_after hg (.inl rfl)) (calls_after hg (.inr rfl)) _
  | deployment =>
    have hstage : Stage.deployment ≠ .inventory := by decide
    have hendpoints : Stage.deployment ≠ .endpoints := by decide
    exact deployment_congr (apps_after hstage) (endpoints_after hendpoints) _
  | features => exact absurd rfl hstage

theorem holds_features (g g' : Graph) : g.Holds (t.findings g' .features) where
  nodes _ hn := absurd hn List.not_mem_nil
  edges _ he := absurd he List.not_mem_nil
  evidence _ he := absurd he List.not_mem_nil

/-- What is found again is held already. -/
theorem holds_again (hg : g.Distinct) (stage : Stage) :
    (t.after g stage).Holds (t.findings (t.after g stage) stage) := by
  by_cases hstage : stage = .features
  · subst hstage
    exact holds_features _ _
  · have hfound := found_after (t := t) hg hstage
    have hheld := Graph.holds_merge hg (t.findings g stage)
    constructor
    · rw [nodes_findings, hfound, ← nodes_findings]
      exact hheld.nodes
    · rw [edges_findings, hfound, ← edges_findings]
      exact hheld.edges
    · rw [evidence_findings, hfound, ← evidence_findings]
      exact hheld.evidence

/-! ## Calls that are still pending -/

/-- Found endpoints that are fresh are among the first ones with their identifiers. -/
theorem fresh_endpoints_subset (t : Task) (g : Graph) :
    (fresh Node.id g.nodes (t.findings g .endpoints).nodes).filter (·.kind = .endpoint) ⊆
      firsts Node.id ((t.findings g .endpoints).nodesOf .endpoint) := by
  have hentity := entity_found t g .endpoints
  have hkind : ∀ a ∈ (t.findings g .endpoints).nodes, ∀ b ∈ (t.findings g .endpoints).nodes,
      a.id = b.id → decide (a.kind = .endpoint) = decide (b.kind = .endpoint) := by
    intro a ha b hb hid
    rw [(hentity a ha).kind_eq (hentity b hb) hid]
  rw [Findings.nodesOf, ← Graph.firsts_filter hkind]
  intro n hn
  obtain ⟨hfresh, hn⟩ := List.mem_filter.1 hn
  exact List.mem_filter.2 ⟨(List.mem_filter.1 hfresh).1, hn⟩

/-- The index in which calls are resolved. -/
def callIndex (g : Graph) (found : Findings) : Route.Index :=
  .ofNodes (g.nodesOf .endpoint ++ found.nodesOf .endpoint)

theorem entries_callIndex (g : Graph) (found : Findings) : (callIndex g found).entries =
    (firsts Node.id (g.nodesOf .endpoint ++ found.nodesOf .endpoint)).filterMap
      Route.Entry.ofNode? :=
  Route.Index.entries_ofNodes isSome_route?_endpoints

/-- No further endpoint is looked at when calls are resolved again. -/
theorem entries_again (t : Task) (g : Graph) :
    (callIndex (t.after g .endpoints) (t.found g .endpoints)).entries ⊆
      (callIndex g (t.found g .endpoints)).entries := by
  have hfound : (t.findings g .endpoints).nodesOf .endpoint =
      (t.found g .endpoints).nodesOf .endpoint := by
    rw [Findings.nodesOf, Findings.nodesOf, nodes_findings]
  have hnodes : (t.after g .endpoints).nodesOf .endpoint = g.nodesOf .endpoint ++
      (fresh Node.id g.nodes (t.findings g .endpoints).nodes).filter (·.kind = .endpoint) := by
    rw [Graph.nodesOf, Task.after, Graph.nodes_merge, List.filter_append, Graph.nodesOf]
  rw [entries_callIndex, entries_callIndex, hnodes, ← hfound, List.append_assoc]
  exact List.filterMap_subset _ (firsts_append_subset (fresh_endpoints_subset t g))

/-- A call that no endpoint serves is served by none of fewer endpoints. -/
theorem answer?_eq_none_of_subset {g' : Graph} {found : Findings} {e : Edge}
    (hsub : (callIndex g' found).entries ⊆ (callIndex g found).entries)
    (h : answer? g found e = none) : answer? g' found e = none := by
  cases htarget : e.target with
  | node id => exact answer?_eq_none htarget
  | pending path =>
    simp only [answer?, htarget] at h ⊢
    have hnone : (callIndex g found).candidates path e.detail.method? = [] :=
      Route.Index.resolve?_eq_none_iff.1 h
    have hempty : (callIndex g' found).candidates path e.detail.method? = [] := by
      rw [List.eq_nil_iff_forall_not_mem]
      intro n hn
      obtain ⟨hentry, haccepts⟩ := Route.Index.mem_candidates.1 hn
      have hmem := Route.Index.mem_candidates.2 ⟨hsub hentry, haccepts⟩
      rw [hnone] at hmem
      exact List.not_mem_nil hmem
    exact Route.Index.resolve?_eq_none_iff.2 hempty

theorem retargets_after (hg : g.Distinct) :
    (t.findings (t.after g .endpoints) .endpoints).retargets = [] := by
  have hr : Stage.endpoints = .deployment → HoldsRepos t.project g := nofun
  have hstage : Stage.endpoints ≠ .features := nofun
  rw [findings_endpoints, Findings.retargets_append, (built_anyway t _ .endpoints).retargets,
    List.nil_append, found_after hg hstage, retargets_resolveCalls, List.filterMap_eq_nil_iff]
  intro e he
  rw [Option.map_eq_none_iff]
  rcases List.mem_append.1 he with he | he
  · rcases mem_edges_after hg hr he with ⟨e₀, -, cited, rfl⟩ | ⟨e₀, cited, hrel, rfl⟩
    · cases hans : answer? g (t.found g .endpoints) e₀ with
      | none =>
        simp only [aim, hans, Option.elim_none]
        exact answer?_eq_none_of_subset (entries_again t g) hans
      | some id => exact answer?_eq_none (by simp only [aim, hans]; rfl)
    · exact hrel.answer?_eq_none
  · obtain ⟨e₀, cited, hrel, rfl⟩ := (built_anyway t g .endpoints).relation_of_mem e he
    exact hrel.answer?_eq_none

/-- A stage that is carried out again points no edge anew. -/
theorem retargets_again (hg : g.Distinct) (stage : Stage) :
    (t.findings (t.after g stage) stage).retargets = [] := by
  by_cases hstage : stage = .endpoints
  · subst hstage
    exact retargets_after hg
  · rw [findings_eq_found t _ hstage]
    exact (built_anyway t _ stage).retargets

/-! ## Repetition -/

/-- **A stage carried out twice.** Whatever has been merged before, a stage that is carried out a
second time changes nothing but the warnings: nodes, edges and evidence stay as they are and where
they are, and the second merge reports that nothing was added and no edge was pointed anew. -/
theorem stage_repeated (t : Task) (history : List Findings) (stage : Stage) :
    let once := t.after (history.foldl Graph.merge .empty) stage
    SameFacts once (t.after once stage) ∧ Idle (once.mergeStats (t.findings once stage)) := by
  intro once
  have hg : (history.foldl Graph.merge .empty).Distinct := Graph.distinct_empty.merges history
  exact (holds_again hg stage).merge (hg.merge _) (retargets_again hg stage)

end Discovery
end ArchGraph
