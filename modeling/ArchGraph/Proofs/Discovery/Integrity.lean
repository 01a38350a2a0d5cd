import ArchGraph.Proofs.Discovery.Steps
/-!
# Edges join nodes

What every edge points at, by its kind (`Aims`), is kept by every stage. Calls of the authentication
and storage subsystems are found before the nodes of these are; once the database has been looked
at, the nodes are there (`Subsystems`). Main statement: `edges_join_nodes`, the referential integrity
of the graph of a whole analysis.
-/

namespace ArchGraph.Discovery

/-! ## Integrity -/

/-- The kinds of edges that always point at a node. Only accesses to tables and functions may point
at one that is unknown, and only calls may be pending. -/
def joiningKinds : List EdgeKind :=
  [.contains, .navigatesTo, .deploysTo, .dependsOn, .callsExternal, .authenticates, .stores]

/-- The referential integrity of a graph. -/
structure Referential (g : Graph) : Prop where
  source     : ∀ e ∈ g.edges, ∃ n ∈ g.nodes, e.source = n.id
  target     : ∀ e ∈ g.edges, e.kind ∈ joiningKinds → ∃ n ∈ g.nodes, e.target = .node n.id
  calls      : ∀ e ∈ g.edges, e.kind = .calls →
    (∃ path, e.target = .pending path) ∨
      ∃ n ∈ g.nodes, n.kind = .endpoint ∧ e.target = .node n.id
  navigation : ∀ e ∈ g.edges, e.kind = .navigatesTo →
    ∃ a ∈ g.nodes, ∃ b ∈ g.nodes, a.kind = .screen ∧ b.kind = .screen ∧ a ≠ b ∧
      a.owningRepo = b.owningRepo ∧ e.source = a.id ∧ e.target = .node b.id

/-- The uses of the generator for the identifiers of a project's screens. -/
def screenUses (p : Project) : List (String × List String) :=
  p.repositories.flatMap fun r => r.paths.filterMap fun path =>
    (Route.screen? path).map fun file =>
      (NodeKind.screen.name, [r.nodeId, file.route].map Id.normalize)

/-! ## Targets -/

/-- A link of a graph between two pages of a repository. -/
structure Link (p : Project) (g : Graph) (source target : String) : Prop where
  pages    : ∃ r ∈ p.repositories, ∃ a b, HasPage r a ∧ HasPage r b ∧
    source = Id.screen r.nodeId a ∧ target = Id.screen r.nodeId b
  distinct : target ≠ source
  known    : Known g target

/-- What edges of a kind point at. -/
def Aims (p : Project) (g : Graph) (kind : EdgeKind) (source : String) (target : Target) : Prop :=
  match kind with
  | .contains | .deploysTo | .dependsOn | .callsExternal => ∃ id, target = .node id ∧ Known g id
  | .authenticates => target = .node Id.auth
  | .stores => target = .node Id.storage
  | .calls =>
    (∃ path, target = .pending path) ∨ ∃ n ∈ g.nodes, n.kind = .endpoint ∧ target = .node n.id
  | .navigatesTo => ∃ id, target = .node id ∧ Link p g source id
  | .reads | .writes | .usesFunction => ∃ id, target = .node id

variable {p : Project} {g g' : Graph} {kind : EdgeKind} {source : String} {target : Target}

theorem Aims.mono (hsub : g.nodes ⊆ g'.nodes) (h : Aims p g kind source target) :
    Aims p g' kind source target := by
  cases kind with
  | contains | deploysTo | dependsOn | callsExternal =>
    obtain ⟨id, hid, hknown⟩ := h
    exact ⟨id, hid, hknown.mono hsub⟩
  | calls => exact h.imp_right fun ⟨n, hn, hk, hid⟩ => ⟨n, hsub hn, hk, hid⟩
  | navigatesTo =>
    obtain ⟨id, hid, hpages, hne, hknown⟩ := h
    exact ⟨id, hid, hpages, hne, hknown.mono hsub⟩
  | authenticates | stores | reads | writes | usesFunction => exact h

/-- Only calls are pending. -/
theorem Aims.kind_of_pending {path : String} (h : Aims p g kind source (.pending path)) :
    kind = .calls := by
  cases kind with
  | calls => rfl
  | authenticates | stores => cases h
  | reads | writes | usesFunction =>
    obtain ⟨_, hid⟩ := h
    cases hid
  | contains | deploysTo | dependsOn | callsExternal | navigatesTo =>
    obtain ⟨_, hid, -⟩ := h
    cases hid

theorem aims_callTarget (hsub : g.nodes ⊆ g'.nodes) (method : HttpMethod) (path : String)
    (repo : Option String) : Aims p g' .calls source (callTarget g method path repo) := by
  unfold callTarget
  cases h : (Route.Index.ofNodes (g.nodesOf .endpoint)).resolve? path (some method) repo with
  | none => exact .inl ⟨path, rfl⟩
  | some id =>
    obtain ⟨n, hn, hk, rfl⟩ := endpoint_of_resolve? h
    exact .inr ⟨n, hsub hn, hk, rfl⟩

theorem Relation.aims {stage : Stage} {e : Edge} (hsub : g.nodes ⊆ g'.nodes)
    (h : Relation p g (Known g') stage e) : Aims p g' e.kind e.source e.target := by
  cases h with
  | containment _ hb | dependency _ hb | serviceCall _ hb | deployment _ hb | environment _ hb =>
    exact ⟨_, rfl, hb⟩
  | call _ _ path => exact .inl ⟨path, rfl⟩
  | navigation hr hpa hpb _ hb hne => exact ⟨_, rfl, ⟨_, hr, _, _, hpa, hpb, rfl, rfl⟩, hne, hb⟩
  | tableAccess _ operation => cases operation <;> exact ⟨_, rfl⟩
  | bucketAccess | authCall => rfl
  | functionCall | foreignKey | trigger | profile => exact ⟨_, rfl⟩
  | cron _ repo path ht =>
    rw [ht]
    exact aims_callTarget hsub .get path (some repo)

variable {t : Task} {stage : Stage}

/-- Every stage keeps to what edges point at. -/
theorem aims_after (hs : Sound t.project g) (hr : stage = .deployment → HoldsRepos t.project g)
    (ha : ∀ e ∈ g.edges, Aims t.project g e.kind e.source e.target) :
    ∀ e ∈ (t.after g stage).edges,
      Aims t.project (t.after g stage) e.kind e.source e.target := by
  have hsub : g.nodes ⊆ (t.after g stage).nodes := Graph.nodes_subset_merge _ _
  intro e he
  rcases mem_edges_after hs.distinct hr he with ⟨e₀, he₀, cited, rfl⟩ | ⟨e₀, cited, hrel, rfl⟩
  · have haims := (ha e₀ he₀).mono hsub
    cases stage with
    | endpoints =>
      cases hans : answer? g (t.found g .endpoints) e₀ with
      | none => simpa [aim, hans] using haims
      | some id =>
        -- the edge was pending, so that it is a call
        obtain ⟨⟨path, hpath⟩, n, hn, hk, rfl⟩ := answer?_eq_some hs.toFormed hans
        rw [hpath] at haims
        simp only [aim, hans, Option.elim_some, haims.kind_of_pending]
        exact .inr ⟨n, hn, hk, rfl⟩
    | _ => exact haims
  · have haims := hrel.aims hsub
    exact haims

/-! ## Subsystems -/

/-- The subsystems that are called are there. -/
structure Subsystems (g : Graph) : Prop where
  auth    : ∀ e ∈ g.edges, e.kind = .authenticates → Known g Id.auth
  storage : ∀ e ∈ g.edges, e.kind = .stores → Known g Id.storage

theorem Relation.kind_ne {known : String → Prop} {e : Edge} (h : Relation p g known stage e)
    (hstage : stage ≠ .endpoints) : e.kind ≠ .authenticates ∧ e.kind ≠ .stores := by
  cases h with
  | tableAccess | bucketAccess | functionCall | serviceCall | authCall => exact absurd rfl hstage
  | _ => exact ⟨nofun, nofun⟩

/-- The edges that call subsystems are found by one stage only. -/
theorem exists_edge_before (hg : g.Distinct) (hr : stage = .deployment → HoldsRepos t.project g)
    (hstage : stage ≠ .endpoints) {e : Edge} (he : e ∈ (t.after g stage).edges)
    (hk : e.kind = .authenticates ∨ e.kind = .stores) : ∃ e₀ ∈ g.edges, e₀.kind = e.kind := by
  rcases mem_edges_after hg hr he with ⟨e₀, he₀, cited, rfl⟩ | ⟨e₀, cited, hrel, rfl⟩
  · exact ⟨e₀, he₀, rfl⟩
  · obtain ⟨hauth, hstores⟩ := hrel.kind_ne hstage
    exact (hk.elim hauth hstores).elim

theorem Subsystems.after (hg : g.Distinct) (hr : stage = .deployment → HoldsRepos t.project g)
    (hstage : stage ≠ .endpoints) (h : Subsystems g) : Subsystems (t.after g stage) where
  auth e he hk := by
    obtain ⟨e₀, he₀, hkind⟩ := exists_edge_before hg hr hstage he (.inl hk)
    exact known_after (h.auth e₀ he₀ (hkind.trans hk))
  storage e he hk := by
    obtain ⟨e₀, he₀, hkind⟩ := exists_edge_before hg hr hstage he (.inr hk)
    exact known_after (h.storage e₀ he₀ (hkind.trans hk))

/-- An edge that calls a subsystem was there when the stage looked at the graph. -/
theorem edgesOf_before (hg : g.Distinct) (hr : stage = .deployment → HoldsRepos t.project g)
    (hstage : stage ≠ .endpoints) {e : Edge} (he : e ∈ (t.after g stage).edges)
    (hk : e.kind = .authenticates ∨ e.kind = .stores) : (g.edgesOf e.kind).isEmpty = false := by
  obtain ⟨e₀, he₀, hkind⟩ := exists_edge_before hg hr hstage he hk
  rw [List.isEmpty_eq_false_iff_exists_mem]
  exact ⟨e₀, List.mem_filter.2 ⟨he₀, decide_eq_true hkind⟩⟩

/-- The database is looked at after the calls of its subsystems are found. -/
theorem subsystems_database (hg : g.Distinct) : Subsystems (t.after g .database) := by
  have hcovers : Covers (Known (t.after g .database)) (database t.project g) :=
    fun n hn => Graph.mem_ids_merge hg hn
  simp only [database, covers_append] at hcovers
  obtain ⟨⟨-, hauth⟩, hstorage⟩ := hcovers
  have hr : Stage.database = .deployment → HoldsRepos t.project g := nofun
  constructor
  · intro e he hk
    have hcalls := edgesOf_before hg hr nofun he (.inl hk)
    rw [hk] at hcalls
    simp only [authFindings, hcalls, Bool.and_false, Bool.false_eq_true, if_false, covers_append,
      covers_node] at hauth
    exact hauth.1.1
  · intro e he hk
    have hcalls := edgesOf_before hg hr nofun he (.inr hk)
    rw [hk] at hcalls
    simp only [storageFindings, hcalls, Bool.and_false, Bool.false_eq_true, if_false, covers_append,
      covers_node] at hstorage
    exact hstorage.1

theorem exists_of_known {id : String} (hknown : Known g id) (h : target = .node id) :
    ∃ n ∈ g.nodes, target = .node n.id := by
  obtain ⟨n, hn, rfl⟩ := List.mem_map.1 hknown
  exact ⟨n, hn, h⟩

theorem Subsystems.joins (hsub : Subsystems g) {e : Edge} (he : e ∈ g.edges)
    (h : Aims p g e.kind e.source e.target) (hk : e.kind ∈ joiningKinds) :
    ∃ n ∈ g.nodes, e.target = .node n.id := by
  cases hkind : e.kind with
  | contains | deploysTo | dependsOn | callsExternal =>
    rw [hkind] at h
    obtain ⟨id, htarget, hknown⟩ := h
    exact exists_of_known hknown htarget
  | navigatesTo =>
    rw [hkind] at h
    obtain ⟨id, htarget, -, -, hknown⟩ := h
    exact exists_of_known hknown htarget
  | authenticates =>
    rw [hkind] at h
    exact exists_of_known (hsub.auth e he hkind) h
  | stores =>
    rw [hkind] at h
    exact exists_of_known (hsub.storage e he hkind) h
  | calls | reads | writes | usesFunction =>
    rw [hkind] at hk
    simp [joiningKinds] at hk

/-! ## Screens -/

theorem mem_screenUses {r : Repository} {route : String} (hr : r ∈ p.repositories)
    (h : HasPage r route) :
    (NodeKind.screen.name, [r.nodeId, route].map Id.normalize) ∈ screenUses p := by
  obtain ⟨path, hpath, file, hfile, rfl⟩ := h
  exact List.mem_flatMap.2 ⟨r, hr, List.mem_filterMap.2 ⟨path, hpath, by rw [hfile]; rfl⟩⟩

/-- A node with the identifier of a page is a screen of the page's repository. -/
theorem screen_of_id (hids : Id.CollisionFree (screenUses p)) {n : Node}
    (hn : Entity p stage n) {r : Repository} {route : String} (hr : r ∈ p.repositories)
    (hpage : HasPage r route) (hid : n.id = Id.screen r.nodeId route) :
    n.kind = .screen ∧ n.owningRepo = some r.nodeId := by
  obtain ⟨parts, hparts⟩ := hn.id_eq
  have hkind : n.kind = .screen := Id.kind_eq_of_node_eq (hparts.symm.trans hid)
  refine ⟨hkind, ?_⟩
  cases hn with
  | screen hr' hpath hfile =>
    next r' path file =>
    have hmessage := hids _ (mem_screenUses hr' ⟨path, hpath, file, hfile, rfl⟩) _
      (mem_screenUses hr hpage) hid
    have hrepo : r'.nodeId = r.nodeId := Id.repo_eq_of_message_eq hmessage
    exact congrArg some hrepo
  | _ => cases hkind

theorem Link.screens (hids : Id.CollisionFree (screenUses p)) (hs : Sound p g)
    (hsource : Known g source) {id : String} (h : Link p g source id) :
    ∃ a ∈ g.nodes, ∃ b ∈ g.nodes, a.kind = .screen ∧ b.kind = .screen ∧ a ≠ b ∧
      a.owningRepo = b.owningRepo ∧ source = a.id ∧ id = b.id := by
  obtain ⟨⟨r, hr, a, b, ha, hb, hsa, htb⟩, hne, hknown⟩ := h
  obtain ⟨m, hm, hmid⟩ := List.mem_map.1 hsource
  obtain ⟨n, hn, hnid⟩ := List.mem_map.1 hknown
  obtain ⟨_, hem⟩ := hs.entities m hm
  obtain ⟨_, hen⟩ := hs.entities n hn
  obtain ⟨hmk, hmr⟩ := screen_of_id hids hem hr ha (hmid.trans hsa)
  obtain ⟨hnk, hnr⟩ := screen_of_id hids hen hr hb (hnid.trans htb)
  refine ⟨m, hm, n, hn, hmk, hnk, ?_, hmr.trans hnr.symm, hmid.symm, hnid.symm⟩
  rintro rfl
  exact hne (hnid.symm.trans hmid)

/-! ## Whole analyses -/

theorem aims_reached (t : Task) (stages : List Stage) : ∀ e ∈ (t.reached stages).edges,
    Aims t.project (t.reached stages) e.kind e.source e.target := by
  refine reached_induction t (P := fun g => ∀ e ∈ g.edges,
    Aims t.project g e.kind e.source e.target) ?_ (fun g stage hs hr => aims_after hs fun _ => hr)
    stages
  exact aims_after (sound_empty t.project) nofun (by simp [Graph.empty])

theorem subsystems_all (t : Task) : Subsystems (Analysis.ofStages t Stage.all).graph := by
  obtain ⟨hs₃, -⟩ := sound_reached t [.screens, .endpoints]
  obtain ⟨hs₄, hr₄⟩ := sound_reached t [.screens, .endpoints, .database]
  obtain ⟨hs₅, hr₅⟩ := sound_reached t [.screens, .endpoints, .database, .deployment]
  have h₄ : Subsystems (t.reached [.screens, .endpoints, .database]) :=
    subsystems_database hs₃.distinct
  have h₅ : Subsystems (t.reached [.screens, .endpoints, .database, .deployment]) :=
    h₄.after hs₄.distinct (fun _ => hr₄) nofun
  rw [graph_all]
  exact h₅.after hs₅.distinct (fun _ => hr₅) nofun

/-- **Referential integrity.** In the graph of a whole analysis every edge starts at a node, all
edges but accesses to tables and functions point at a node unless they are pending calls, resolved
calls point at endpoints, and links join two screens of one repository. -/
theorem edges_join_nodes (t : Task) (hids : Id.CollisionFree (screenUses t.project)) :
    Referential (Analysis.ofStages t Stage.all).graph := by
  have hsub := subsystems_all t
  rw [graph_all] at hsub ⊢
  obtain ⟨hs, -⟩ := sound_reached t [.screens, .endpoints, .database, .deployment, .features]
  have haims := aims_reached t [.screens, .endpoints, .database, .deployment, .features]
  constructor
  · intro e he
    obtain ⟨n, hn, hid⟩ := List.mem_map.1 (hs.sources e he)
    exact ⟨n, hn, hid.symm⟩
  · intro e he hk
    exact hsub.joins he (haims e he) hk
  · intro e he hk
    have h := haims e he
    rw [hk] at h
    exact h
  · intro e he hk
    have h := haims e he
    rw [hk] at h
    obtain ⟨id, htarget, hlink⟩ := h
    obtain ⟨a, ha, b, hb, hak, hbk, hne, hrepo, hsource, rfl⟩ :=
      hlink.screens hids hs (hs.sources e he)
    exact ⟨a, ha, b, hb, hak, hbk, hne, hrepo, hsource, htarget⟩

/-- Two pages, of which the first leads to the second. -/
def linkedPages : Task where
  project := {
    id := "p"
    repositories := [.ofPaths "r" "o" "n" ["pages/a.js", "pages/b.js"]]
    contents := .ofList [("pages/a.js", "router.push('/b')")] }
  settings := .default
  catalog := []

set_option maxRecDepth 10000 in
theorem linkedPages_join_nodes : Id.CollisionFree (screenUses linkedPages.project) ∧
    Referential (Analysis.ofStages linkedPages Stage.all).graph := by
  have hids : Id.CollisionFree (screenUses linkedPages.project) := by
    simp only [Id.CollisionFree, Id.ofParts_eq]
    decide +kernel
  exact ⟨hids, edges_join_nodes linkedPages hids⟩

end ArchGraph.Discovery
