import ArchGraph.Proofs.Discovery.Built
import ArchGraph.Proofs.Route.Ranking
/-!
# What each stage is built from

One lemma for each function of a stage, from the lines of a source up to the whole project. Main
statement: `built_found`, the findings of every stage are built from the forms of that stage, where
the repositories' nodes must be there for deployments.
-/

namespace ArchGraph.Discovery

variable {p : Project} {g : Graph} {known : String → Prop}

/-! ## Apps -/

section Apps

variable {repo : String}

theorem known_of_mem_roots (hg : ∀ n ∈ g.nodes, known n.id) {a : AppRoot}
    (ha : a ∈ (Apps.ofGraph g repo).roots) : known a.id := by
  obtain ⟨n, hn, hroot⟩ := List.mem_filterMap.1 (List.mem_mergeSort.1 ha)
  unfold Apps.rootOf? at hroot
  split at hroot
  · split at hroot
    · obtain rfl := Option.some.inj hroot
      exact hg n hn
    · cases hroot
  · cases hroot

theorem known_of_find? (hg : ∀ n ∈ g.nodes, known n.id) {q : AppRoot → Bool} {id : String}
    (h : ((Apps.ofGraph g repo).roots.find? q).map (·.id) = some id) : known id := by
  obtain ⟨a, ha, rfl⟩ := Option.map_eq_some_iff.1 h
  exact known_of_mem_roots hg (List.mem_of_find?_eq_some ha)

theorem known_owner? (hg : ∀ n ∈ g.nodes, known n.id) {path id : String}
    (h : (Apps.ofGraph g repo).owner? path = some id) : known id := known_of_find? hg h

theorem known_rootedAt? (hg : ∀ n ∈ g.nodes, known n.id) {dir id : String}
    (h : (Apps.ofGraph g repo).rootedAt? dir = some id) : known id := known_of_find? hg h

theorem known_of_mem_ids (hg : ∀ n ∈ g.nodes, known n.id) {id : String}
    (h : id ∈ (Apps.ofGraph g repo).ids) : known id := by
  obtain ⟨a, ha, rfl⟩ := List.mem_map.1 h
  exact known_of_mem_roots hg (List.mem_mergeSort.1 ha)

end Apps

/-! ## Citations -/

@[simp] theorem nodeId_atLine (c : Citation) (line : Option (UInt32 × Text.Chars))
    (fallback : Text.Chars) : (c.atLine line fallback).nodeId = c.nodeId := by
  unfold Citation.atLine
  split <;> rfl

@[simp] theorem edgeId_atLine (c : Citation) (line : Option (UInt32 × Text.Chars))
    (fallback : Text.Chars) : (c.atLine line fallback).edgeId = c.edgeId := by
  unfold Citation.atLine
  split <;> rfl

theorem backs_citation {n : Node} {c : Citation} (h : c.nodeId = n.id) : Backs (.citation c) n :=
  ⟨c.evidence, List.mem_singleton_self _, .inl h⟩

theorem backs_citedEdge {n : Node} {e : Edge} {c : Citation} (h : c.nodeId = n.id) :
    Backs (.citedEdge e c) n := ⟨c.evidence, List.mem_singleton_self _, .inl h⟩

theorem Backs.concat_map {α : Type} {n : Node} {find : α → Findings} {l : List α} {a : α}
    (h : Backs (find a) n) (ha : a ∈ l) : Backs (.concat (l.map find)) n := by
  obtain ⟨r, hr, hback⟩ := h
  refine ⟨r, List.mem_flatMap.2 ⟨_, List.mem_map_of_mem ha, hr⟩, hback.imp_right ?_⟩
  exact fun ⟨e, he, hedge⟩ => ⟨e, List.mem_flatMap.2 ⟨_, List.mem_map_of_mem ha, he⟩, hedge⟩

/-- The use of a service that a line shows backs the service. -/
theorem backs_service {s : Site} {n : Node} {e : Edge} (hk : e.kind = .callsExternal)
    (ht : e.target = .node n.id) : Backs (s.citedEdge .externalApiCall e) n :=
  ⟨_, List.mem_singleton_self _, .inr ⟨_, List.mem_singleton_self _, rfl, hk, ht⟩⟩

/-! ## The inventory -/

section Inventory

variable {stage : Stage} {r : Repository}

theorem built_warning (message : String) : Built p g known stage (.warning message) :=
  .remarks [] [message]

theorem built_malformedReadings {α : Type} (name : String) (rs : List (Reading α)) :
    Built p g known stage (malformedReadings name rs) :=
  built_concat_map fun r _ => built_warning (r.path ++ ": malformed " ++ name)

theorem built_workspaceFile (p' : Project) (r : Repository) :
    Built p g known stage (workspaceFile p' r).2 := by
  unfold workspaceFile
  split
  · exact built_empty
  · split
    · exact built_empty
    · exact built_warning _

theorem built_appFindings (hr : r ∈ p.repositories) (hrepo : known r.nodeId) {label : String}
    {detail : AppDetail} (hk : Covers known (appFindings r.nodeId label detail)) :
    Built p g known .inventory (appFindings r.nodeId label detail) := by
  simp only [appFindings, covers_append, covers_node] at hk
  exact .contained (.node (.app hr label detail) trivial) (List.mem_singleton_self _) hrepo hk.1 rfl

theorem built_libraryFindings (hr : r ∈ p.repositories) (hrepo : known r.nodeId) {m : Manifest}
    (hk : Covers known (libraryFindings r.nodeId m)) :
    Built p g known .inventory (libraryFindings r.nodeId m) := by
  simp only [libraryFindings, covers_append, covers_node] at hk
  have howner : ∀ a ∈ some r.nodeId, ∃ r ∈ p.repositories, r.nodeId = a := fun a ha =>
    ⟨r, hr, Option.some.inj ha⟩
  exact .contained (.node (.package m.label howner ⟨m.label, m.package.version, "workspace"⟩) rfl)
    (List.mem_singleton_self _) hrepo hk.1 rfl

theorem built_dependencyFindings (hrepo : known r.nodeId) {m : Manifest} {d : Dependency}
    (hk : Covers known (dependencyFindings r.nodeId m d)) :
    Built p g known .inventory (dependencyFindings r.nodeId m d) := by
  simp only [dependencyFindings, covers_append, covers_node] at hk
  have howner : ∀ a ∈ (none : Option String), ∃ r ∈ p.repositories, r.nodeId = a := by simp
  refine .backedNode (.package d.name howner ⟨d.name, d.version, "npm"⟩) rfl ?_ ?_
  · exact built_citedEdge (.dependency hrepo hk.1 d.version) (by simp [Edge.make])
      (by simpa using hk.1) (by simp)
  · exact backs_citedEdge (nodeId_atLine _ _ _)

theorem known_repo (hk : Covers known (inventoryOf p r)) : known r.nodeId := by
  unfold inventoryOf at hk
  simp only [covers_append, covers_node] at hk
  exact hk.1.1.1.2

theorem built_inventoryOf (hr : r ∈ p.repositories) (hk : Covers known (inventoryOf p r)) :
    Built p g known .inventory (inventoryOf p r) := by
  have hrepo := known_repo hk
  unfold inventoryOf at hk ⊢
  simp only [covers_append] at hk ⊢
  obtain ⟨⟨⟨-, happs⟩, hlibraries⟩, hnotable⟩ := hk
  refine .append (.append (.append (.append (.append (.append (built_malformedReadings _ _)
    (built_malformedReadings _ _)) (built_workspaceFile p r)) (.node (.repo hr _ _) trivial))
    ?_) ?_) ?_
  · split at happs
    · next h => rw [if_pos h]; exact built_appFindings hr hrepo happs
    · next h =>
      rw [if_neg h]
      rw [covers_concat_map] at happs
      exact built_concat_map fun m hm => built_appFindings hr hrepo (happs m hm)
  · rw [covers_concat_map] at hlibraries
    exact built_concat_map fun m hm => built_libraryFindings hr hrepo (hlibraries m hm)
  · rw [covers_concat_map] at hnotable
    refine built_concat_map fun m hm => ?_
    have hm' := hnotable m hm
    rw [notableFindings, covers_concat_map] at hm'
    exact built_concat_map fun d hd => built_dependencyFindings hrepo (hm' d hd)

end Inventory

/-! ## Screens -/

section Screens

variable {r : Repository} {s : Site}

theorem built_callAt (hs : known s.nodeId) (path : String) (method : HttpMethod)
    (confidence : Confidence) (client : String) :
    Built p g known .screens (callAt s path method confidence client) :=
  built_citedAt (.call hs method path client confidence) (by simp [Edge.make]) hs

theorem built_fetchesAt (hs : known s.nodeId) (lines : List Text.Chars) (lookahead : UInt64) :
    Built p g known .screens (fetchesAt lines lookahead s) :=
  built_concat_map fun _ _ => built_callAt hs _ _ _ _

theorem built_clientCallsAt (hs : known s.nodeId) :
    Built p g known .screens (clientCallsAt s) := by
  refine .append (built_concat_map fun m _ => ?_) (built_concat_map fun m _ => ?_)
  · split
    · exact built_callAt hs _ _ _ _
    · exact built_empty
  · exact built_callAt hs _ _ _ _

theorem built_clientUseAt (hs : known s.nodeId) :
    Built p g known .screens (clientUseAt s) := by
  simp only [clientUseAt]
  split
  · exact .citation hs rfl
  · exact built_empty

/-- The index leads, among the nodes of the repository, to known screens only. -/
def LeadsToScreens (known : String → Prop) (r : Repository) (screens : Route.Index) : Prop :=
  ∀ path id, screens.resolveIn? path r.nodeId = some id →
    ∃ route, HasPage r route ∧ id = Id.screen r.nodeId route ∧ known id

theorem built_linkAt (hr : r ∈ p.repositories) {screens : Route.Index}
    (hi : LeadsToScreens known r screens) {route : String} (hpage : HasPage r route)
    (hroute : s.nodeId = Id.screen r.nodeId route) (hs : known s.nodeId) (raw via : String) :
    Built p g known .screens (linkAt screens r.nodeId s raw via) := by
  simp only [linkAt]
  split
  · exact built_empty
  · split
    · next target htarget =>
      split
      · exact built_empty
      · next hne =>
        obtain ⟨route', hpage', rfl, hknown⟩ := hi _ _ htarget
        refine built_citedAt ?_ (by simp [Edge.make]) hs
        rw [hroute] at hs hne ⊢
        exact .navigation hr hpage hpage' hs hknown hne _ via
    · exact built_empty

theorem built_linksAt (hr : r ∈ p.repositories) {screens : Route.Index}
    (hi : LeadsToScreens known r screens) {route : String} (hpage : HasPage r route)
    (hroute : s.nodeId = Id.screen r.nodeId route) (hs : known s.nodeId) :
    Built p g known .screens (linksAt screens r.nodeId s) := by
  have hlink := fun raw via => built_linkAt (g := g) hr hi hpage hroute hs raw via
  exact .append (.append (.append (built_concat_map fun _ _ => hlink _ _)
    (built_concat_map fun _ _ => hlink _ _)) (built_concat_map fun _ _ => hlink _ _))
    (built_concat_map fun _ _ => hlink _ _)

theorem nodeId_of_mem_ofLines {nodeId path : String} {lines : List Text.Chars}
    (h : s ∈ Site.ofLines nodeId path lines) : s.nodeId = nodeId := by
  obtain ⟨_, -, rfl⟩ := List.mem_map.1 h
  rfl

theorem built_pageFindings (hg : ∀ n ∈ g.nodes, known n.id) (hr : r ∈ p.repositories)
    {path : String} (hpath : path ∈ r.paths) {file : Route.ScreenFile}
    (hfile : Route.screen? path = some file) {screens : Route.Index}
    (hi : LeadsToScreens known r screens)
    (hk : known (screenNode r.nodeId r.paths path file).id) (settings : AnalysisSettings)
    (content : Option String) :
    Built p g known .screens (pageFindings settings (Apps.ofGraph g r.nodeId) screens r.nodeId
      content path (screenNode r.nodeId r.paths path file)) := by
  unfold pageFindings
  refine .append (built_owned ?_ (List.mem_singleton_self _) hk fun app happ => ?_)
    (built_concat_map fun s hs => ?_)
  · exact .citedNode (.screen hr hpath hfile) (by simp) (by simp)
  · exact ⟨known_owner? hg happ, happ⟩
  · have hid := nodeId_of_mem_ofLines hs
    have hs' : known s.nodeId := hid ▸ hk
    exact .append (.append (.append (built_fetchesAt hs' _ _) (built_clientCallsAt hs'))
      (built_linksAt hr hi ⟨path, hpath, file, hfile, rfl⟩ hid hs')) (built_clientUseAt hs')

/-- The pages of a repository with their nodes. -/
def pagesOf (r : Repository) : List (String × Node) :=
  r.paths.filterMap fun path =>
    (Route.screen? path).map fun screen => (path, screenNode r.nodeId r.paths path screen)

/-- What the pages of a repository with some apps show. -/
def pagesIn (settings : AnalysisSettings) (p : Project) (apps : Apps) (r : Repository) : Findings :=
  .concat ((pagesOf r).map fun page =>
    pageFindings settings apps (.ofNodes ((pagesOf r).map (·.2))) r.nodeId (p.content? r page.1)
      page.1 page.2)

theorem screensOf_eq (settings : AnalysisSettings) (p : Project) (g : Graph) (r : Repository) :
    screensOf settings p g r = pagesIn settings p (Apps.ofGraph g r.nodeId) r := rfl

theorem mem_pagesOf {page : String × Node} : page ∈ pagesOf r ↔
    page.1 ∈ r.paths ∧ ∃ file, Route.screen? page.1 = some file ∧
      page.2 = screenNode r.nodeId r.paths page.1 file := by
  simp only [pagesOf, List.mem_filterMap, Option.map_eq_some_iff]
  constructor
  · rintro ⟨path, hpath, file, hfile, rfl⟩
    exact ⟨hpath, file, hfile, rfl⟩
  · rintro ⟨hpath, file, hfile, hnode⟩
    exact ⟨page.1, hpath, file, hfile, by rw [← hnode]⟩

theorem leadsToScreens_pagesOf (hk : ∀ page ∈ pagesOf r, known page.2.id) :
    LeadsToScreens known r (.ofNodes ((pagesOf r).map (·.2))) := by
  intro path id h
  have hrouted : ∀ n ∈ (pagesOf r).map (·.2), n.route?.isSome := by
    intro n hn
    obtain ⟨page, hpage, rfl⟩ := List.mem_map.1 hn
    obtain ⟨-, file, -, hnode⟩ := mem_pagesOf.1 hpage
    rw [hnode]
    rfl
  obtain ⟨e, he, rfl, -⟩ := Route.Index.resolveIn?_eq_some h
  obtain ⟨n, hn, hne⟩ := Route.Index.exists_of_mem_entries hrouted he
  obtain ⟨page, hpage, rfl⟩ := List.mem_map.1 hn
  obtain ⟨hpath, file, hfile, hnode⟩ := mem_pagesOf.1 hpage
  rw [Route.Entry.id_ofNode? hne]
  exact ⟨file.route, ⟨page.1, hpath, file, hfile, rfl⟩, by rw [hnode]; rfl, hk page hpage⟩

theorem built_screensOf (hg : ∀ n ∈ g.nodes, known n.id) (hr : r ∈ p.repositories)
    {settings : AnalysisSettings} (hk : Covers known (screensOf settings p g r)) :
    Built p g known .screens (screensOf settings p g r) := by
  rw [screensOf_eq, pagesIn, covers_concat_map] at hk
  -- a link may lead to a page that is listed later, which is known all the same
  have hpages : ∀ page ∈ pagesOf r, known page.2.id := by
    intro page hpage
    have hcovers := hk page hpage
    simp only [pageFindings, covers_append, covers_node] at hcovers
    exact hcovers.1.1.2
  rw [screensOf_eq, pagesIn]
  refine built_concat_map fun page hpage => ?_
  obtain ⟨hpath, file, hfile, hnode⟩ := mem_pagesOf.1 hpage
  have hknown := hpages page hpage
  rw [hnode] at hknown ⊢
  exact built_pageFindings hg hr hpath hfile (leadsToScreens_pagesOf hpages) hknown settings _

end Screens

/-! ## Endpoints -/

section Endpoints

variable {r : Repository} {s : Site}

theorem built_tableAccess (hs : known s.nodeId) (lines : List Text.Chars) (lookahead : UInt64)
    (stop : Nat) (m : Match) :
    Built p g known .endpoints (tableAccess lines lookahead stop s m) :=
  built_citedAt (.tableAccess hs _ _ _) (DbOperation.edgeKind_ne_contains _) hs

theorem built_dataAt (hs : known s.nodeId) (lines : List Text.Chars) (lookahead : UInt64)
    (stop : Nat) : Built p g known .endpoints (dataAt lines lookahead stop s) := by
  unfold dataAt
  split
  · exact built_citedAt (.bucketAccess hs _) (by simp [Edge.make]) hs
  · exact built_concat_map fun m _ => built_tableAccess hs lines lookahead stop m

theorem built_functionsAt (hs : known s.nodeId) :
    Built p g known .endpoints (functionsAt s) :=
  built_concat_map fun _ _ => built_citedAt (.functionCall hs _) (by simp [Edge.make]) hs

theorem entity_service {stage : Stage} (hstage : stage = .endpoints ∨ stage = .deployment)
    (service : Service) (host : Option String) : Entity p stage (service.node host) :=
  .service hstage service.slug service.name ⟨service.slug, service.category, host⟩

theorem entity_hostNode {stage : Stage} (hstage : stage = .endpoints ∨ stage = .deployment)
    (host : String) : Entity p stage (Service.hostNode host) :=
  .service hstage host host ⟨host, "http", some host⟩

theorem built_externalCall (hs : known s.nodeId) {m : Match}
    (hk : Covers known (externalCall s m)) : Built p g known .endpoints (externalCall s m) := by
  unfold externalCall at hk ⊢
  split
  · exact built_empty
  · next address haddress =>
    simp only [haddress] at hk ⊢
    split
    · exact built_empty
    · next hlocal =>
      rw [if_neg hlocal, covers_append, covers_node] at hk
      refine .backedNode ?_ ?_
        (built_citedAt (.serviceCall hs hk.1 _ _ _ _) (by simp [Edge.make]) hs) (backs_service rfl rfl)
      · split
        · exact entity_service (.inl rfl) _ _
        · exact entity_hostNode (.inl rfl) _
      · split <;> rfl

theorem built_clientConstruction (hs : known s.nodeId) {m : Match}
    (hk : Covers known (clientConstruction s m)) :
    Built p g known .endpoints (clientConstruction s m) := by
  unfold clientConstruction at hk ⊢
  cases hservice : Service.ofClientClass? (m.text 1) with
  | none => exact built_empty
  | some service =>
    simp only [hservice, covers_append, covers_node] at hk
    exact .backedNode (entity_service (.inl rfl) service none) rfl
      (built_citedAt (.serviceCall hs hk.1 _ _ _ _) (by simp [Edge.make]) hs) (backs_service rfl rfl)

theorem built_authCallsAt (hs : known s.nodeId) :
    Built p g known .endpoints (authCallsAt s) :=
  built_concat_map fun _ _ => built_citedAt (.authCall hs _) (by simp [Edge.make]) hs

theorem built_environmentAt (hs : known s.nodeId) :
    Built p g known .endpoints (environmentAt s) := by
  unfold environmentAt
  split
  · exact .citation hs rfl
  · exact built_empty

theorem built_handlerLine (hs : known s.nodeId) {lines : List Text.Chars} {lookahead : UInt64}
    {stop : Nat} (hk : Covers known (handlerLine lines lookahead stop s)) :
    Built p g known .endpoints (handlerLine lines lookahead stop s) := by
  simp only [handlerLine, covers_append, covers_concat_map] at hk
  obtain ⟨⟨⟨⟨-, hcalls⟩, hclients⟩, -⟩, -⟩ := hk
  exact .append (.append (.append (.append (.append (built_dataAt hs _ _ _) (built_functionsAt hs))
    (built_concat_map fun m hm => built_externalCall hs (hcalls m hm)))
    (built_concat_map fun m hm => built_clientConstruction hs (hclients m hm)))
    (built_authCallsAt hs)) (built_environmentAt hs)

theorem built_handlerStretch {nodeId path : String} (hn : known nodeId) {lines : List Text.Chars}
    {lookahead : UInt64} {stretch : Nat × Nat}
    (hk : Covers known (handlerStretch nodeId path lines lookahead stretch)) :
    Built p g known .endpoints (handlerStretch nodeId path lines lookahead stretch) := by
  rw [handlerStretch, covers_concat_map] at hk
  refine built_concat_map fun s hs => built_handlerLine ?_ (hk s hs)
  rwa [nodeId_of_mem_ofLines (List.mem_of_mem_take (List.mem_of_mem_drop hs))]

theorem built_handlerFindings (hg : ∀ n ∈ g.nodes, known n.id) (hr : r ∈ p.repositories)
    {path : String} (hpath : path ∈ r.paths) {file : Route.HandlerFile}
    (hfile : Route.handler? path = some file) {lookahead : UInt64} {content : Option String}
    (hk : Covers known
      (handlerFindings lookahead (Apps.ofGraph g r.nodeId) r.nodeId content path file)) :
    Built p g known .endpoints
      (handlerFindings lookahead (Apps.ofGraph g r.nodeId) r.nodeId content path file) := by
  unfold handlerFindings at hk ⊢
  simp only [covers_concat_map, covers_append, covers_node] at hk
  refine built_concat_map fun export_ hexport => ?_
  obtain ⟨⟨⟨hnode, -⟩, -⟩, hstretches⟩ := hk export_ hexport
  refine .append (built_owned ?_ (List.mem_singleton_self _) hnode fun app happ => ?_)
    (built_concat_map fun stretch hs => built_handlerStretch hnode (hstretches stretch hs))
  · exact .citedNode (.endpoint hr hpath hfile _) (by simp [endpointCitation])
      (by simp [endpointCitation])
  · exact ⟨known_owner? hg happ, happ⟩

theorem built_endpointsOf (hg : ∀ n ∈ g.nodes, known n.id) (hr : r ∈ p.repositories)
    {settings : AnalysisSettings} (hk : Covers known (endpointsOf settings p g r)) :
    Built p g known .endpoints (endpointsOf settings p g r) := by
  rw [endpointsOf, covers_concat_map] at hk
  refine built_concat_map fun path hpath => ?_
  have hcovers := hk path hpath
  split at hcovers
  · next file hfile => exact built_handlerFindings hg hr hpath hfile hcovers
  · exact built_empty

end Endpoints

/-! ## The database -/

section Database

open Sql (Migrations Schema Region)

variable {m : Migrations} {s : Schema}

@[simp] theorem nodeId_cite (m : Migrations) (kind : EvidenceKind) (nodeId : String) (r : Region) :
    (m.cite kind nodeId r).nodeId = nodeId := by
  unfold Migrations.cite
  split <;> rfl

@[simp] theorem edgeId_cite (m : Migrations) (kind : EvidenceKind) (nodeId : String) (r : Region) :
    (m.cite kind nodeId r).edgeId = none := by
  unfold Migrations.cite
  split <;> rfl

theorem built_foreignKeyEdge {t : Sql.Table} (ht : known (Id.table t.name.schema t.name.name))
    (key : String × Region) :
    Built p g known .database (foreignKeyEdge m t key) := by
  unfold foreignKeyEdge
  simp only
  split
  · exact built_empty
  · split
    · exact built_empty
    · exact built_citedEdge (.foreignKey ht _ _ _) (by simp [Edge.make])
        (by simpa [citePart] using ht) rfl

theorem entity_tableNode (t : Sql.Table) : Entity p .database (tableNode m s t) :=
  .table t.name.name (m.repoOf? t.region)
    ⟨t.name.schema, t.body.columns, (s.rlsOf? t.name).isSome, (s.policiesOf t.name).map (·.name)⟩

theorem built_tableFindings {t : Sql.Table} (ht : known (Id.table t.name.schema t.name.name)) :
    Built p g known .database (tableFindings m s t) := by
  unfold tableFindings
  refine .append (.append (.append (.citedNode (entity_tableNode t) ?_ ?_)
    (built_concat fun f hf => ?_)) (built_concat fun f hf => ?_))
    (built_concat_map fun key _ => built_foreignKeyEdge ht key)
  · simp [citeBlock]
  · simp [citeBlock]
  · obtain ⟨_, -, rfl⟩ := List.mem_map.1 hf
    exact .citation (by simpa [citePart, tableNode] using ht) (by simp [citePart])
  · obtain ⟨_, -, rfl⟩ := List.mem_map.1 hf
    exact .citation (by simpa [citePart, tableNode] using ht) (by simp [citePart])

theorem built_functionFindings (f : Sql.Function) :
    Built p g known .database (functionFindings m f) :=
  .citedNode (.function f.name.name (m.repoOf? f.region)
    ⟨f.name.schema, f.language, f.securityDefiner, f.returns⟩) (by simp [citeBlock])
    (by simp [citeBlock])

theorem built_triggerFindings
    (hs : ∀ t ∈ s.tables, known (Id.table t.name.schema t.name.name)) (t : Sql.Trigger) :
    Built p g known .database (triggerFindings m s t) := by
  unfold triggerFindings
  split
  · exact built_empty
  · next hsome =>
    obtain ⟨table, htable⟩ := Option.ne_none_iff_exists'.1 (by simpa using hsome)
    have hname : table.name = t.table := by simpa using List.find?_some htable
    have ht := hs table (List.mem_of_find?_eq_some htable)
    rw [hname] at ht
    exact built_citedEdge (.trigger ht _ _) (by simp [Edge.make]) (by simpa [citePart] using ht) rfl

theorem built_authFindings (hs : ∀ t ∈ s.tables, known (Id.table t.name.schema t.name.name))
    (hk : Covers known (authFindings m s g)) :
    Built p g known .database (authFindings m s g) := by
  simp only [authFindings] at hk ⊢
  split
  · exact built_empty
  · next h =>
    rw [if_neg h, covers_append, covers_append, covers_node] at hk
    have hauth := hk.1.1
    refine .append (.append (.node (.auth _ _) trivial) (built_concat_map fun found _ => ?_))
      (built_concat_map fun t ht => ?_)
    · exact .citation (by simpa [citeMention] using hauth) (by simp [citeMention])
    · have htable := hs t (List.mem_of_find?_eq_some (Option.mem_toList.1 ht))
      exact built_citedEdge (.profile hauth htable _) (by simp [Edge.make])
        (by simpa using hauth) rfl

theorem built_storageFindings (hk : Covers known (storageFindings m g)) :
    Built p g known .database (storageFindings m g) := by
  simp only [storageFindings] at hk ⊢
  split
  · exact built_empty
  · next h =>
    rw [if_neg h, covers_append, covers_node] at hk
    refine .append (.node (.storage _ _) trivial) (built_concat_map fun found _ => ?_)
    exact .citation (by simpa [citeMention] using hk.1) (by simp [citeMention])

theorem built_database (hk : Covers known (database p g)) :
    Built p g known .database (database p g) := by
  simp only [database, covers_append, covers_concat_map] at hk
  obtain ⟨⟨⟨⟨⟨-, htables⟩, -⟩, -⟩, hauth⟩, hstorage⟩ := hk
  have hs : ∀ t ∈ (Schema.ofScript (Migrations.ofProject p).text).tables,
      known (Id.table t.name.schema t.name.name) := by
    intro t ht
    have hcovers := htables t ht
    simp only [tableFindings, covers_append, covers_node] at hcovers
    exact hcovers.1.1.1.1
  exact .append (.append (.append (.append (.append (.remarks [] _)
    (built_concat_map fun t ht => built_tableFindings (hs t ht)))
    (built_concat_map fun f _ => built_functionFindings f))
    (built_concat_map fun t _ => built_triggerFindings hs t)) (built_authFindings hs hauth))
    (built_storageFindings hstorage)

end Database

/-! ## Deployments -/

section Deployment

variable {r : Repository} {u : PlatformUse}

theorem known_nearestApp? (hg : ∀ n ∈ g.nodes, known n.id) {repo path id : String}
    (h : nearestApp? (Apps.ofGraph g repo) path = some id) : known id := by
  rcases Option.or_eq_some_iff.1 h with h | ⟨-, h⟩
  · exact known_rootedAt? hg h
  · exact known_owner? hg h

theorem known_of_mem_deployedApps (hg : ∀ n ∈ g.nodes, known n.id) {repo config id : String}
    (h : id ∈ deployedApps (Apps.ofGraph g repo) config) : known id := by
  unfold deployedApps at h
  split at h
  · exact known_of_mem_ids hg h
  · exact known_nearestApp? hg (Option.mem_toList.1 h)

theorem built_deploymentEdge {app config : String} {content : Option String} (ha : known app)
    (hu : known (u.id r.nodeId)) :
    Built p g known .deployment (deploymentEdge r.nodeId u config content app) :=
  built_citedEdge (.deployment ha hu u.confidence) (by simp [Edge.make]) (by simpa using hu) (by simp)

/-- A platform is cited where it deploys an app. -/
theorem built_platformFindings (hg : ∀ n ∈ g.nodes, known n.id) (hr : r ∈ p.repositories)
    (hmem : u ∈ PlatformUse.ofPaths r.paths) (hu : known (u.id r.nodeId)) (envVars : List String) :
    Built p g known .deployment (platformFindings p r (Apps.ofGraph g r.nodeId) envVars u) := by
  have hentity := Entity.platform hr u.name
    ⟨u.name, if u.inferred then none else u.configs.head?, u.inferred, envVars⟩
  have hedges : Built p g known .deployment (.concat (u.configs.map fun config =>
      .concat ((deployedApps (Apps.ofGraph g r.nodeId) config).map
        (deploymentEdge r.nodeId u config (p.content? r config))))) := by
    refine built_concat_map fun config _ => built_concat_map fun app happ => ?_
    exact built_deploymentEdge (known_of_mem_deployedApps hg happ) hu
  by_cases hnone : ∀ config ∈ u.configs, deployedApps (Apps.ofGraph g r.nodeId) config = []
  · exact .append (.node hentity ⟨r, hr, u, hmem, rfl, hnone⟩) hedges
  · refine .backedNode hentity rfl hedges ?_
    push Not at hnone
    obtain ⟨config, hconfig, happs⟩ := hnone
    obtain ⟨app, happ⟩ := List.exists_mem_of_ne_nil _ happs
    refine Backs.concat_map ?_ hconfig
    exact Backs.concat_map (backs_citedEdge (nodeId_atLine _ _ _)) happ

theorem built_variableServiceFindings {source : String} (hs : known source) {service : Service}
    {uses : List VariableUse} (hne : uses ≠ [])
    (hk : Covers known (variableServiceFindings source service uses)) :
    Built p g known .deployment (variableServiceFindings source service uses) := by
  have hnode : known (service.node none).id := hk _ List.mem_cons_self
  let edge := Edge.make .callsExternal source (.node (service.node none).id) "env"
    (.envVar (uses.map (·.name))) .high
  let citations := uses.map fun use : VariableUse =>
    ({ kind := .envVar, nodeId := source, edgeId := some edge.id, filePath := some use.path
       excerpt := lineExcerpt use.name.toList } : Citation)
  have hfindings : variableServiceFindings source service uses = .node (service.node none) ++
      { edges := [citations.foldl (fun e c => e.cite c.evidence.id) edge]
        evidence := citations.map Citation.evidence } := by
    simp only [variableServiceFindings, citations, List.map_map, List.foldl_map]
    rfl
  rw [hfindings]
  have hcites : ∀ c ∈ citations, known c.nodeId ∧ c.edgeId = some edge.id := by
    intro c hc
    obtain ⟨use, -, rfl⟩ := List.mem_map.1 hc
    exact ⟨hs, rfl⟩
  have hsome : citations ≠ [] := by simpa [citations] using hne
  refine .backedNode (entity_service (.inr rfl) service none) rfl
    (.relation (.environment hs hnode _) (by simp [Edge.make]) hsome hcites) ?_
  obtain ⟨c, hc⟩ := List.exists_mem_of_ne_nil citations hsome
  obtain ⟨cited, hcited⟩ := foldl_cite citations edge
  refine ⟨c.evidence, List.mem_map_of_mem hc, .inr ⟨_, List.mem_singleton_self _, ?_⟩⟩
  rw [hcited]
  exact ⟨(hcites c hc).2, rfl, rfl⟩

theorem built_variableServices {source : String} (hs : known source) {uses : List VariableUse}
    (hk : Covers known (variableServices source uses)) :
    Built p g known .deployment (variableServices source uses) := by
  simp only [variableServices, covers_concat_map] at hk
  refine built_concat_map fun slug hslug => ?_
  have hcovers := hk slug hslug
  split at hcovers
  · next service hservice =>
    refine built_variableServiceFindings hs (fun hnil => ?_) hcovers
    -- the short name comes from one of the variables
    obtain ⟨use, huse, hmap⟩ := List.mem_filterMap.1 (Text.mem_sortedSet.1 hslug)
    obtain ⟨service', hof, rfl⟩ := Option.map_eq_some_iff.1 hmap
    have hno := List.filter_eq_nil_iff.1 hnil use huse
    rw [hof] at hno
    simp at hno
  · exact built_empty

theorem built_packageServices {path content : String}
    (hk : Covers known (packageServices path content)) :
    Built p g known .deployment (packageServices path content) := by
  simp only [packageServices, covers_concat_map] at hk
  refine built_concat_map fun entry hentry => ?_
  have hcovers := hk entry hentry
  obtain ⟨start, slug⟩ := entry
  simp only at hcovers ⊢
  split at hcovers
  · next package service hpackage hservice =>
    rw [covers_append, covers_node] at hcovers
    exact .backedNode (entity_service (.inr rfl) service none) rfl
      (.citation (by simpa using hcovers.1) (by simp)) (backs_citation (nodeId_atLine _ _ _))
  · exact built_empty

theorem built_cronFindings (hg : ∀ n ∈ g.nodes, known n.id) (hr : r ∈ p.repositories)
    (hu : known (u.id r.nodeId)) {config content : String} {cron : Cron}
    (hk : Covers known (cronFindings r.nodeId (Apps.ofGraph g r.nodeId)
      (.ofNodes (g.nodesOf .endpoint)) u config content cron)) :
    Built p g known .deployment (cronFindings r.nodeId (Apps.ofGraph g r.nodeId)
      (.ofNodes (g.nodesOf .endpoint)) u config content cron) := by
  unfold cronFindings at hk ⊢
  simp only [covers_append, covers_node] at hk ⊢
  have hworker := hk.1.1.1
  let n : Node := ⟨Id.worker r.nodeId (Route.normalize cron.path) (cron.schedule.getD ""),
    "cron " ++ Route.normalize cron.path, some r.nodeId,
    .worker ⟨cron.schedule, Route.normalize cron.path, config⟩⟩
  have hentity : Entity p .deployment n :=
    .worker hr _ ⟨cron.schedule, Route.normalize cron.path, config⟩
  refine built_owned (n := n) (.append (.backedNode hentity rfl ?_ ?_) ?_)
    (List.mem_singleton_self _) hworker fun app happ => ⟨?_, happ⟩
  · refine built_citedEdge (.cron hworker r.nodeId (Route.normalize cron.path) ?_ _)
      (by simp [Edge.make]) (by simpa using hworker) (by simp)
    rw [callTarget]
    cases (Route.Index.ofNodes (g.nodesOf .endpoint)).resolve? (Route.normalize cron.path)
      (some .get) (some r.nodeId) <;> rfl
  · exact backs_citedEdge (nodeId_atLine _ _ _)
  · exact built_citedEdge (.deployment hworker hu _) (by simp [Edge.make])
      (by simpa using hworker) (by simp)
  · rw [Option.mem_def] at happ
    split at happ
    · exact known_rootedAt? hg happ
    · exact known_nearestApp? hg happ

theorem built_scheduled (hg : ∀ n ∈ g.nodes, known n.id) (hr : r ∈ p.repositories)
    (hu : known (u.id r.nodeId)) (hk : Covers known (scheduled p r (Apps.ofGraph g r.nodeId)
      (.ofNodes (g.nodesOf .endpoint)) u)) :
    Built p g known .deployment (scheduled p r (Apps.ofGraph g r.nodeId)
      (.ofNodes (g.nodesOf .endpoint)) u) := by
  rw [scheduled, covers_concat_map] at hk
  refine built_concat_map fun config hconfig => ?_
  have hcovers := hk config hconfig
  split at hcovers
  · exact built_empty
  · split at hcovers
    · rw [covers_concat_map] at hcovers
      exact built_concat_map fun cron hcron => built_cronFindings hg hr hu (hcovers cron hcron)
    · exact built_warning _

/-- What uses the services that variables imply is known. -/
theorem known_source (hg : ∀ n ∈ g.nodes, known n.id) {repo : String} {first : Option PlatformUse}
    (hu : ∀ u ∈ first, known (u.id repo)) (hrepo : known repo) :
    known (((first.map (PlatformUse.id repo)).or (Apps.ofGraph g repo).ids.head?).getD repo) := by
  cases first with
  | some u => exact hu u rfl
  | none =>
    rw [Option.map_none, Option.none_or]
    cases happ : (Apps.ofGraph g repo).ids.head? with
    | some app => exact known_of_mem_ids hg (List.mem_of_mem_head? happ)
    | none => exact hrepo

theorem built_deploymentOf (hg : ∀ n ∈ g.nodes, known n.id) (hr : r ∈ p.repositories)
    (hrepo : known r.nodeId)
    (hk : Covers known (deploymentOf p g (.ofNodes (g.nodesOf .endpoint)) r)) :
    Built p g known .deployment (deploymentOf p g (.ofNodes (g.nodesOf .endpoint)) r) := by
  unfold deploymentOf at hk ⊢
  simp only [covers_append, covers_concat_map] at hk
  obtain ⟨⟨⟨hplatforms, hservices⟩, hpackages⟩, hscheduled⟩ := hk
  have hu : ∀ u ∈ PlatformUse.ofPaths r.paths, known (u.id r.nodeId) := by
    intro u hu
    have hcovers := hplatforms u hu
    rw [platformFindings, covers_append, covers_node] at hcovers
    exact hcovers.1
  refine .append (.append (.append
    (built_concat_map fun u hmem => built_platformFindings hg hr hmem (hu u hmem) _) ?_) ?_) ?_
  · refine built_variableServices ?_ hservices
    exact known_source hg (fun u h => hu u (List.mem_of_mem_head? h)) hrepo
  · refine built_concat fun f hf => ?_
    have hcovers := covers_concat.1 hpackages f hf
    obtain ⟨path, -, hf⟩ := List.mem_filterMap.1 hf
    obtain ⟨content, -, rfl⟩ := Option.map_eq_some_iff.1 hf
    exact built_packageServices hcovers
  · refine built_concat_map fun u hmem => ?_
    have hfind := Option.mem_toList.1 hmem
    exact built_scheduled hg hr (hu u (List.mem_of_find?_eq_some hfind)) (hscheduled u hmem)

end Deployment

/-! ## All stages -/

/-- What a stage finds before calls are resolved. -/
def Task.found (t : Task) (g : Graph) : Stage → Findings
  | .endpoints => .concat (t.project.repositories.map (endpointsOf t.settings.analysis t.project g))
  | stage => t.findings g stage

theorem findings_endpoints (t : Task) (g : Graph) :
    t.findings g .endpoints = t.found g .endpoints ++ resolveCalls g (t.found g .endpoints) := rfl

theorem findings_eq_found (t : Task) (g : Graph) {stage : Stage} (h : stage ≠ .endpoints) :
    t.findings g stage = t.found g stage := by
  cases stage <;> first | rfl | exact absurd rfl h

/-- **What a stage finds.** The findings of a stage are built from its forms. Deployments presume
that the repositories are known. -/
theorem built_found (t : Task) {g : Graph} (hg : ∀ n ∈ g.nodes, known n.id) (stage : Stage)
    (hr : stage = .deployment → ∀ r ∈ t.project.repositories, known r.nodeId)
    (hk : Covers known (t.found g stage)) :
    Built t.project g known stage (t.found g stage) := by
  cases stage with
  | inventory =>
    simp only [Task.found, Task.findings, inventory, covers_concat_map] at hk
    exact built_concat_map fun r hr => built_inventoryOf hr (hk r hr)
  | screens =>
    simp only [Task.found, Task.findings, screens, covers_concat_map] at hk
    exact built_concat_map fun r hr => built_screensOf hg hr (hk r hr)
  | endpoints =>
    simp only [Task.found, covers_concat_map] at hk
    exact built_concat_map fun r hr => built_endpointsOf hg hr (hk r hr)
  | database => exact built_database hk
  | deployment =>
    simp only [Task.found, Task.findings, deployment, covers_concat_map] at hk
    exact built_concat_map fun r hmem => built_deploymentOf hg hmem (hr rfl r hmem) (hk r hmem)
  | features => exact .remarks _ []

/-- The findings beside any graph are built from the forms of the stage. -/
theorem built_anyway (t : Task) (g : Graph) (stage : Stage) :
    Built t.project g (fun _ => True) stage (t.found g stage) :=
  built_found t (fun _ _ => trivial) stage (fun _ _ _ => trivial) fun _ _ => trivial

end ArchGraph.Discovery
