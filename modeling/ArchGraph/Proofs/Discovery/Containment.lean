import ArchGraph.Proofs.Discovery.Ledger
/-!
# Containment

Repositories contain apps and libraries, and apps contain what their files stand for. Every
containment is found behind the node that it holds (`Built.container`), so that what contains a node
can be read off the node (`container?`). Identifiers are made from a repository and a route, not from
an app: two files of one repository that stand for one node may belong to two apps, and libraries of
one name to two repositories (`Doubled`). Main statements: `containment_forest`, a forest but for
these, and `twoApps_share`, a page that two apps contain.
-/

namespace ArchGraph.Discovery

variable {t : Task} {p : Project} {g g' : Graph} {stage stage' : Stage} {n m : Node}

/-! ## Containers -/

theorem filePath?_isSome : (filePath? n).isSome ↔ n.kind ∈ [.screen, .endpoint, .worker] := by
  unfold filePath? Node.kind
  cases n.detail <;> simp [NodeDetail.kind]

theorem container?_congr (h : ∀ repo, Apps.ofGraph g' repo = Apps.ofGraph g repo) (n : Node) :
    container? g' n = container? g n := by
  simp only [container?, h]

/-- What contains the nodes of the inventory does not depend on the apps. -/
theorem Entity.container?_eq (h : Entity p .inventory n) (g g' : Graph) :
    container? g' n = container? g n := by
  cases h <;> rfl

/-- Files of one repository that stand for nodes of one kind decide on the container. -/
theorem container?_eq_of_filePath (hk : n.kind = m.kind) (hr : n.owningRepo = m.owningRepo)
    (hf : filePath? n = filePath? m) : container? g n = container? g m := by
  simp only [container?, hk, hr, hf]

/-- A container is the repository of an app or a library, or an app of the repository. -/
theorem container?_cases {a : String} (h : container? g n = some a) :
    (n.kind = .app ∨ n.kind = .package) ∧ n.owningRepo = some a ∨
      n.kind ∈ [.screen, .endpoint, .worker] ∧
        ∃ repo, ∃ app ∈ (Apps.ofGraph g repo).roots, app.id = a := by
  obtain ⟨repo, hrepo, h⟩ := Option.bind_eq_some_iff.1 h
  split at h
  · next path hpath =>
    refine .inr ⟨filePath?_isSome.1 (by simp [hpath]), repo, ?_⟩
    have hfind {q : AppRoot → Bool} (h : ((Apps.ofGraph g repo).roots.find? q).map (·.id) = some a) :
        ∃ app ∈ (Apps.ofGraph g repo).roots, app.id = a := by
      obtain ⟨app, happ, hid⟩ := Option.map_eq_some_iff.1 h
      exact ⟨app, List.mem_of_find?_eq_some happ, hid⟩
    unfold fileOwner? at h
    split at h
    · split at h
      · exact hfind h
      · rcases Option.or_eq_some_iff.1 h with h | ⟨-, h⟩
        · exact hfind h
        · exact hfind h
    · exact hfind h
  · split at h
    · next hk => exact .inl ⟨.inl hk, hrepo.trans h⟩
    · next hk => exact .inl ⟨.inr hk, hrepo.trans h⟩
    · cases h

/-- The app roots of a graph are apps of it. -/
theorem exists_app {repo : String} {app : AppRoot} (h : app ∈ (Apps.ofGraph g repo).roots) :
    ∃ a ∈ g.nodes, a.kind = .app ∧ a.id = app.id := by
  obtain ⟨a, ha, hroot⟩ := List.mem_filterMap.1 (List.mem_mergeSort.1 h)
  unfold Apps.rootOf? at hroot
  split at hroot
  · next d hd =>
    split at hroot
    · obtain rfl := Option.some.inj hroot
      exact ⟨a, ha, by rw [Node.kind, hd]; rfl, rfl⟩
    · cases hroot
  · cases hroot

/-! ## Found containments -/

/-- A containment is found behind the node that it holds. -/
theorem Built.container {known : String → Prop} {f : Findings} (h : Built p g known stage f) :
    ∀ e ∈ f.edges, e.kind = .contains →
      ∃ n ∈ f.nodes, container? g n = some e.source ∧ e = Edge.containment e.source n.id := by
  induction h with
  | remarks | node | citedNode | citation => simp [Findings.node, Findings.citation]
  | append _ _ iha ihb =>
    intro e he hk
    rcases List.mem_append.1 he with he | he
    · obtain ⟨n, hn, hc⟩ := iha e he hk
      exact ⟨n, List.mem_append_left _ hn, hc⟩
    · obtain ⟨n, hn, hc⟩ := ihb e he hk
      exact ⟨n, List.mem_append_right _ hn, hc⟩
  | backedNode _ _ _ _ ih =>
    intro e he hk
    obtain ⟨n, hn, hc⟩ := ih e he hk
    exact ⟨n, List.mem_append_right _ hn, hc⟩
  | @relation e₀ _ hne cs =>
    obtain ⟨cited, hcited⟩ := foldl_cite cs e₀
    intro e he hk
    rw [List.mem_singleton.1 he, hcited] at hk
    exact absurd hk hne
  | @contained f a n _ hn _ _ hc ih =>
    intro e he hk
    rcases List.mem_append.1 he with he | he
    · obtain ⟨m, hm, hcm⟩ := ih e he hk
      exact ⟨m, List.mem_append_left _ hm, hcm⟩
    · obtain rfl := List.mem_singleton.1 he
      exact ⟨n, List.mem_append_left _ hn, hc, rfl⟩

/-- What a stage finds to contain a node contains it in the end. -/
theorem FoundBy.container?_eq {f : Findings} (h : FoundBy t stage g f) (hn : n ∈ f.nodes) :
    container? (Analysis.ofStages t Stage.all).graph n = container? g n := by
  by_cases hstage : stage = .inventory
  · subst hstage
    exact (h.entity n hn).container?_eq _ _
  · exact container?_congr (fun repo => (h.apps hstage repo).symm) n

/-- The containments of an analysis hold found nodes. -/
theorem exists_contained {e : Edge} (he : e ∈ (Analysis.ofStages t Stage.all).graph.edges)
    (hk : e.kind = .contains) : ∃ n ∈ foundNodes t,
      container? (Analysis.ofStages t Stage.all).graph n = some e.source ∧
        e.target = .node n.id ∧ e.id = (Edge.containment e.source n.id).id := by
  obtain ⟨x, hx, target, cited, rfl, htarget⟩ := stems_all t e he
  obtain ⟨f, hf, hmem⟩ := List.mem_flatMap.1 hx
  obtain ⟨stage, g, hfound⟩ := exists_foundBy hf
  have hkx : x.kind = .contains := hk
  rw [hfound.edges_eq] at hmem
  obtain ⟨n, hn, hc, hcontains⟩ := hfound.built.container x hmem hkx
  rw [← hfound.nodes_eq] at hn
  have hid : x.id = (Edge.containment x.source n.id).id := congrArg Edge.id hcontains
  refine ⟨n, List.mem_flatMap.2 ⟨f, hf, hn⟩, ?_, ?_, hid⟩
  · rw [hfound.container?_eq hn]
    exact hc
  · rw [htarget (by simp [hkx]), hcontains]
    rfl

/-! ## Repositories of nodes -/

/-- The use of the generator for the identifier of an app, or of what an app contains. -/
def ownedUse? (n : Node) : Option (String × List String) :=
  n.owningRepo.bind fun repo =>
    match n.detail with
    | .app d => some (NodeKind.app.name, [repo, d.root].map Id.normalize)
    | .screen d => some (NodeKind.screen.name, [repo, d.route].map Id.normalize)
    | .endpoint d => some (NodeKind.endpoint.name, [repo, d.method.name, d.route].map Id.normalize)
    | .worker d =>
      some (NodeKind.worker.name, [repo, d.path, d.schedule.getD ""].map Id.normalize)
    | _ => none

theorem Entity.ownedUse? (h : Entity p stage n)
    (hk : n.kind ∈ [.app, .screen, .endpoint, .worker]) : ∃ repo parts,
      n.owningRepo = some (Id.repo repo) ∧ n.id = Id.node n.kind ([Id.repo repo] ++ parts) ∧
        ownedUse? n = some (n.kind.name, ([Id.repo repo] ++ parts).map Id.normalize) := by
  cases h with
  | @app r _ _ d => exact ⟨r.id, [d.root], rfl, rfl, rfl⟩
  | @screen r _ file => exact ⟨r.id, [file.route], rfl, rfl, rfl⟩
  | @endpoint r _ file _ _ _ method => exact ⟨r.id, [method.name, file.route], rfl, rfl, rfl⟩
  | @worker r _ _ d => exact ⟨r.id, [d.path, d.schedule.getD ""], rfl, rfl, rfl⟩
  | _ => simp [Node.kind, NodeDetail.kind] at hk

/-- Nodes with one identifier belong to one repository, as long as identifiers do not collide. -/
theorem owningRepo_eq (hids : Id.CollisionFree ((foundNodes t).filterMap ownedUse?))
    (hn : n ∈ foundNodes t) (hm : m ∈ foundNodes t) (hid : n.id = m.id)
    (hk : n.kind ∈ [.app, .screen, .endpoint, .worker]) : n.owningRepo = m.owningRepo := by
  obtain ⟨_, hen⟩ := exists_entity hn
  obtain ⟨_, hem⟩ := exists_entity hm
  have hkind := hen.kind_eq hem hid
  obtain ⟨repo, parts, hrepo, hidn, hun⟩ := hen.ownedUse? hk
  obtain ⟨repo', parts', hrepo', hidm, hum⟩ := hem.ownedUse? (hkind ▸ hk)
  rw [← hkind] at hidm hum
  have hmessage := hids _ (List.mem_filterMap.2 ⟨n, hn, hun⟩) _ (List.mem_filterMap.2 ⟨m, hm, hum⟩)
    (hidn.symm.trans (hid.trans hidm))
  rw [hrepo, hrepo', Id.repo_eq_of_message_eq hmessage]

/-! ## A forest -/

/-- How far below repositories nodes stand. -/
def depth : NodeKind → Nat
  | .repo => 0
  | .app => 1
  | _ => 2

/-- Two found nodes that differ in what contains them: libraries of two repositories, or different
files of one repository. -/
inductive Doubled (n m : Node) : Prop
  | libraries (hn : n.kind = .package) (hm : m.kind = .package)
      (hr : n.owningRepo ≠ m.owningRepo) : Doubled n m
  | files (hk : n.kind = m.kind) (hn : n.kind ∈ [.screen, .endpoint, .worker])
      (hr : n.owningRepo = m.owningRepo) (hf : filePath? n ≠ filePath? m) : Doubled n m

/-- Containment is a forest but for doubled nodes. -/
structure Forest (found : List Node) (g : Graph) : Prop where
  /-- What contains a node can be read off a found node. -/
  held   : ∀ e ∈ g.edges, e.kind = .contains →
    ∃ n ∈ found, e.target = .node n.id ∧ container? g n = some e.source
  /-- A node is contained once, unless it was found twice. -/
  once   : ∀ e ∈ g.edges, ∀ e' ∈ g.edges, e.kind = .contains → e'.kind = .contains →
    e.target = e'.target → e = e' ∨ ∃ n ∈ found, ∃ m ∈ found, n.id = m.id ∧
      e.target = .node n.id ∧ container? g n = some e.source ∧ container? g m = some e'.source ∧
        Doubled n m
  /-- Containment leads downwards, so that nothing contains itself. -/
  levels : ∀ e ∈ g.edges, e.kind = .contains → ∃ a ∈ g.nodes, ∃ b ∈ g.nodes,
    e.source = a.id ∧ e.target = .node b.id ∧ depth a.kind < depth b.kind

/-- Found nodes with one identifier and different containers are doubled. -/
theorem doubled_of_ne (hids : Id.CollisionFree ((foundNodes t).filterMap ownedUse?))
    (hn : n ∈ foundNodes t) (hm : m ∈ foundNodes t) (hid : n.id = m.id) {a b : String}
    (ha : container? g n = some a) (hb : container? g m = some b) (hne : a ≠ b) : Doubled n m := by
  obtain ⟨_, hen⟩ := exists_entity hn
  obtain ⟨_, hem⟩ := exists_entity hm
  have hkind := hen.kind_eq hem hid
  rcases container?_cases ha with ⟨hk, hrepo⟩ | ⟨hk, -⟩
  · have hrepo' : m.owningRepo = some b := by
      rcases container?_cases hb with ⟨-, hrepo'⟩ | ⟨hk', -⟩
      · exact hrepo'
      · rw [← hkind] at hk'
        rcases hk with hk | hk <;> simp [hk] at hk'
    have hdiff : n.owningRepo ≠ m.owningRepo := by
      rw [hrepo, hrepo']
      exact fun h => hne (Option.some.inj h)
    rcases hk with hk | hk
    · exact absurd (owningRepo_eq hids hn hm hid (by simp [hk])) hdiff
    · exact .libraries hk (hkind ▸ hk) hdiff
  · have hrepo : n.owningRepo = m.owningRepo :=
      owningRepo_eq hids hn hm hid (List.mem_cons_of_mem _ hk)
    refine .files hkind hk hrepo fun hf => hne ?_
    have hsame := container?_eq_of_filePath (g := g) hkind hrepo hf
    rw [ha, hb] at hsame
    exact Option.some.inj hsame

/-- Apps and libraries belong to a repository. -/
theorem Entity.repo_of_owningRepo {a : String} (h : Entity p stage n)
    (hk : n.kind = .app ∨ n.kind = .package) (ha : n.owningRepo = some a) :
    ∃ r ∈ p.repositories, r.nodeId = a := by
  cases h with
  | app hr => exact ⟨_, hr, Option.some.inj ha⟩
  | package _ howner => exact howner a ha
  | _ => rcases hk with hk | hk <;> cases hk

/-- A container stands above what it contains. -/
theorem exists_container (hs : Sound p g) (hn : Entity p stage n) {a : String} (ha : Known g a)
    (h : container? g n = some a) : ∃ c ∈ g.nodes, a = c.id ∧ depth c.kind < depth n.kind := by
  rcases container?_cases h with ⟨hk, hrepo⟩ | ⟨hk, repo, app, happ, rfl⟩
  · obtain ⟨r, -, rfl⟩ := hn.repo_of_owningRepo hk hrepo
    obtain ⟨c, hc, hid⟩ := List.mem_map.1 ha
    obtain ⟨_, hec⟩ := hs.entities c hc
    obtain ⟨parts, hparts⟩ := hec.id_eq
    have hkind : c.kind = .repo := Id.kind_eq_of_node_eq (hparts.symm.trans hid)
    refine ⟨c, hc, hid.symm, ?_⟩
    rcases hk with hk | hk <;> simp [hkind, hk, depth]
  · obtain ⟨c, hc, hkind, hid⟩ := exists_app happ
    refine ⟨c, hc, hid.symm, ?_⟩
    simp only [List.mem_cons, List.not_mem_nil, or_false] at hk
    rcases hk with hk | hk | hk <;> simp [hkind, hk, depth]

/-- **Containment is a forest but for doubled nodes.** In the graph of a whole analysis, as long as
identifiers do not collide, everything but libraries that two repositories declare and what files of
two apps of one repository stand for has at most one container, and containment leads from
repositories down to apps and from these down to their files. -/
theorem containment_forest (t : Task)
    (hids : Id.CollisionFree ((foundNodes t).filterMap ownedUse?)) :
    Forest (foundNodes t) (Analysis.ofStages t Stage.all).graph := by
  have hs := sound_all t
  constructor
  · intro e he hk
    obtain ⟨n, hn, hc, htarget, -⟩ := exists_contained he hk
    exact ⟨n, hn, htarget, hc⟩
  · intro e he e' he' hk hk' heq
    obtain ⟨n, hn, hc, htarget, hid⟩ := exists_contained he hk
    obtain ⟨m, hm, hc', htarget', hid'⟩ := exists_contained he' hk'
    have hnm : n.id = m.id := Target.node.inj (htarget.symm.trans (heq.trans htarget'))
    by_cases hsource : e.source = e'.source
    · refine .inl (List.inj_on_of_nodup_map hs.distinct.edges he he' ?_)
      rw [hid, hid', hsource, hnm]
    · exact .inr ⟨n, hn, m, hm, hnm, htarget, hc, hc', doubled_of_ne hids hn hm hnm hc hc' hsource⟩
  · intro e he hk
    obtain ⟨n, hn, hc, htarget, -⟩ := exists_contained he hk
    obtain ⟨_, hen⟩ := exists_entity hn
    obtain ⟨c, hmem, hsource, hdepth⟩ := exists_container hs hen (hs.sources e he) hc
    obtain ⟨b, hb, hid⟩ := exists_node hn
    obtain ⟨_, heb⟩ := hs.entities b hb
    refine ⟨c, hmem, b, hb, hsource, htarget.trans (congrArg Target.node hid.symm), ?_⟩
    rwa [heb.kind_eq hen hid]

theorem lonePage_forest : Id.CollisionFree ((foundNodes lonePage).filterMap ownedUse?) ∧
    Forest (foundNodes lonePage) (Analysis.ofStages lonePage Stage.all).graph := by
  have hids : Id.CollisionFree ((foundNodes lonePage).filterMap ownedUse?) := by
    rw [found_lonePage.1]
    exact Id.collisionFree_of_nodup (by decide +kernel)
  exact ⟨hids, containment_forest lonePage hids⟩

/-- Two apps of a repository, each with a page for the same route. -/
def twoApps : Task where
  project := {
    id := "p"
    repositories := [.ofPaths "r" "o" "n"
      ["apps/a/package.json", "apps/a/pages/x.js", "apps/b/package.json", "apps/b/pages/x.js"]]
    contents := .ofList [("apps/a/package.json", "{}"), ("apps/b/package.json", "{}")] }
  settings := .default
  catalog := []

set_option maxRecDepth 10000 in
theorem apps_twoApps : Apps.ofGraph (twoApps.reached []) (Id.repo "r") =
    ⟨[⟨"apps/a", "app_7c0fd17c0c69e70b"⟩, ⟨"apps/b", "app_09b08ddfb7c5c28e"⟩]⟩ := by
  have hroots : (twoApps.reached []).nodes.filterMap (Apps.rootOf? (Id.repo "r")) =
      [⟨"apps/a", "app_7c0fd17c0c69e70b"⟩, ⟨"apps/b", "app_09b08ddfb7c5c28e"⟩] := by
    decide +kernel
  rw [Apps.ofGraph, hroots, List.mergeSort_of_pairwise (by decide)]

set_option maxRecDepth 10000 in
/-- What is found says what it relates, and what its identifiers are made of. -/
theorem edges_twoApps :
    ((allFindings twoApps).flatMap (·.edges)).map (fun e => (e.kind, e.source, e.target, e.use)) =
      [(.contains, "repo_13198440993904f8", .node "app_7c0fd17c0c69e70b",
         "edge", ["contains", "repo_13198440993904f8", "app_7c0fd17c0c69e70b", ""]),
       (.contains, "repo_13198440993904f8", .node "app_09b08ddfb7c5c28e",
         "edge", ["contains", "repo_13198440993904f8", "app_09b08ddfb7c5c28e", ""]),
       (.contains, "app_7c0fd17c0c69e70b", .node "screen_c04558c214958141",
         "edge", ["contains", "app_7c0fd17c0c69e70b", "screen_c04558c214958141", ""]),
       (.contains, "app_09b08ddfb7c5c28e", .node "screen_c04558c214958141",
         "edge", ["contains", "app_09b08ddfb7c5c28e", "screen_c04558c214958141", ""])] := by
  have hscreens : twoApps.found (twoApps.reached []) .screens =
      .concat (twoApps.project.repositories.map (pagesIn twoApps.settings.analysis twoApps.project
        ⟨[⟨"apps/a", "app_7c0fd17c0c69e70b"⟩, ⟨"apps/b", "app_09b08ddfb7c5c28e"⟩]⟩)) := by
    refine congrArg Findings.concat (List.map_congr_left fun r hr => ?_)
    obtain rfl := List.mem_singleton.1 hr
    rw [screensOf_eq]
    exact congrArg (fun apps => pagesIn _ _ apps _) apps_twoApps
  rw [foundEdges_of_noMigrations (by decide +kernel), hscreens]
  decide +kernel

theorem nodup_twoApps : (((allFindings twoApps).flatMap (·.edges)).map Edge.id).Nodup := by
  have huses := congrArg (List.map (·.2.2.2)) edges_twoApps
  rw [List.map_map] at huses
  rw [ids_allFindings, show List.map Edge.use _ = _ from huses]
  simp only [List.map_cons, List.map_nil, Id.ofParts_eq]
  decide +kernel

/-- Each of the two apps contains the page in the end. -/
theorem contained_twoApps {source : String}
    (h : source ∈ ["app_7c0fd17c0c69e70b", "app_09b08ddfb7c5c28e"]) :
    ∃ e ∈ (Analysis.ofStages twoApps Stage.all).graph.edges, e.kind = .contains ∧
      e.source = source ∧ e.target = .node "screen_c04558c214958141" := by
  have hfound := congrArg (List.map fun said => (said.1, said.2.1, said.2.2.1)) edges_twoApps
  rw [List.map_map] at hfound
  obtain ⟨x, hx, hsaid⟩ : ∃ x ∈ (allFindings twoApps).flatMap (·.edges),
      (x.kind, x.source, x.target) =
        (.contains, source, .node "screen_c04558c214958141") := by
    rw [← List.mem_map, show List.map (fun x : Edge => (x.kind, x.source, x.target)) _ = _ from hfound]
    simp only [List.mem_cons, List.not_mem_nil, or_false] at h
    rcases h with rfl | rfl <;> simp
  simp only [Prod.mk.injEq] at hsaid
  obtain ⟨hk, rfl, ht⟩ := hsaid
  obtain ⟨_, he, target, _, rfl, htarget⟩ := exists_edge nodup_twoApps hx
  exact ⟨_, he, hk, rfl, (htarget (by simp [hk])).trans ht⟩

/-- The two pages become one screen, which both apps contain. -/
theorem twoApps_share :
    let g := (Analysis.ofStages twoApps Stage.all).graph
    ∃ e ∈ g.edges, ∃ e' ∈ g.edges, e.kind = .contains ∧ e'.kind = .contains ∧
      e.source ≠ e'.source ∧ e.target = .node "screen_c04558c214958141" ∧
        e'.target = .node "screen_c04558c214958141" := by
  intro g
  obtain ⟨e, he, hk, hsource, htarget⟩ := contained_twoApps List.mem_cons_self
  obtain ⟨e', he', hk', hsource', htarget'⟩ :=
    contained_twoApps (List.mem_cons_of_mem _ List.mem_cons_self)
  refine ⟨e, he, e', he', hk, hk', ?_, htarget, htarget'⟩
  rw [hsource, hsource']
  decide

end ArchGraph.Discovery
