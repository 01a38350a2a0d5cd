import ArchGraph.Discovery.Stage
import ArchGraph.Proofs.Graph.Identity
/-!
# What findings are built from

The forms of the nodes and of the edges that stages find, each written down once, and the ways in
which findings are put together from them. Whatever holds of all findings follows by induction on
`Built`; that every stage keeps to it is shown stage by stage.
-/

namespace ArchGraph.Discovery

/-! ## Forms -/

/-- The nodes that a stage can find in a project. -/
inductive Entity (p : Project) : Stage → Node → Prop
  | repo {r : Repository} (hr : r ∈ p.repositories) (label : String) (detail : RepoDetail) :
      Entity p .inventory ⟨r.nodeId, label, none, .repo detail⟩
  | app {r : Repository} (hr : r ∈ p.repositories) (label : String) (detail : AppDetail) :
      Entity p .inventory ⟨Id.app r.nodeId detail.root, label, some r.nodeId, .app detail⟩
  | package (label : String) {owner : Option String}
      (ho : ∀ a ∈ owner, ∃ r ∈ p.repositories, r.nodeId = a) (detail : PackageDetail) :
      Entity p .inventory ⟨Id.package detail.ecosystem detail.name, label, owner, .package detail⟩
  | screen {r : Repository} {path : String} {file : Route.ScreenFile} (hr : r ∈ p.repositories)
      (hpath : path ∈ r.paths) (hfile : Route.screen? path = some file) :
      Entity p .screens (screenNode r.nodeId r.paths path file)
  | endpoint {r : Repository} {path : String} {file : Route.HandlerFile} (hr : r ∈ p.repositories)
      (hpath : path ∈ r.paths) (hfile : Route.handler? path = some file) (method : HttpMethod) :
      Entity p .endpoints (endpointNode r.nodeId path file method)
  | service {stage : Stage} (hs : stage = .endpoints ∨ stage = .deployment) (slug label : String)
      (detail : ServiceDetail) :
      Entity p stage ⟨Id.externalService slug, label, none, .externalService detail⟩
  | table (label : String) (owner : Option String) (detail : TableDetail) :
      Entity p .database ⟨Id.table detail.schema label, label, owner, .table detail⟩
  | function (label : String) (owner : Option String) (detail : FunctionDetail) :
      Entity p .database ⟨Id.function detail.schema label, label, owner, .function detail⟩
  | auth (label : String) (detail : AuthDetail) :
      Entity p .database ⟨Id.auth, label, none, .auth detail⟩
  | storage (label : String) (detail : StorageDetail) :
      Entity p .database ⟨Id.storage, label, none, .storage detail⟩
  | platform {r : Repository} (hr : r ∈ p.repositories) (label : String)
      (detail : DeploymentDetail) :
      Entity p .deployment
        ⟨Id.deployment r.nodeId detail.platform, label, some r.nodeId, .deployment detail⟩
  | worker {r : Repository} (hr : r ∈ p.repositories) (label : String) (detail : WorkerDetail) :
      Entity p .deployment
        ⟨Id.worker r.nodeId detail.path (detail.schedule.getD ""), label, some r.nodeId,
          .worker detail⟩

/-- A repository has a page with a route. -/
def HasPage (r : Repository) (route : String) : Prop :=
  ∃ path ∈ r.paths, ∃ file, Route.screen? path = some file ∧ file.route = route

/-- Where a call from a repository points: at the endpoint that the graph has for it, or at its
path. -/
def callTarget (g : Graph) (method : HttpMethod) (path : String) (repo : Option String) : Target :=
  ((Route.Index.ofNodes (g.nodesOf .endpoint)).resolve? path (some method) repo).elim
    (.pending path) .node

/-- The file that a page, a handler or a scheduled request was found in. -/
def filePath? (n : Node) : Option String :=
  match n.detail with
  | .screen d => some d.filePath
  | .endpoint d => some d.filePath
  | .worker d => some d.filePath
  | _ => none

/-- The app that a file belongs to. A configuration with scheduled requests belongs to the nearest
app, and at the root only to an app that is rooted there. -/
def fileOwner? (apps : Apps) (kind : NodeKind) (path : String) : Option String :=
  match kind with
  | .worker => if Path.parent path = "" then apps.rootedAt? "" else nearestApp? apps path
  | _ => apps.owner? path

/-- What contains a node beside a graph: the app that its file belongs to, or the repository of an app
or a library. -/
def container? (g : Graph) (n : Node) : Option String :=
  n.owningRepo.bind fun repo =>
    match filePath? n with
    | some path => fileOwner? (Apps.ofGraph g repo) n.kind path
    | none =>
      match n.kind with
      | .app | .package => some repo
      | _ => none

/-- The edges, not yet cited, that a stage can find beside a graph `g`. The nodes that are `known`
are those of `g` and of the findings. -/
inductive Relation (p : Project) (g : Graph) (known : String → Prop) : Stage → Edge → Prop
  | containment {stage : Stage} {a : String} {n : Node} (ha : known a) (hb : known n.id)
      (hn : container? g n = some a) : Relation p g known stage (Edge.containment a n.id)
  | dependency {a b : String} (ha : known a) (hb : known b) (version : Option String) :
      Relation p g known .inventory
        (Edge.make .dependsOn a (.node b) "" (.dependency version) .high)
  | call {a : String} (ha : known a) (method : HttpMethod) (path client : String)
      (confidence : Confidence) :
      Relation p g known .screens
        (Edge.make .calls a (.pending path) method.name (.httpCall method path client) confidence)
  | navigation {r : Repository} {a b : String} (hr : r ∈ p.repositories) (hpa : HasPage r a)
      (hpb : HasPage r b) (ha : known (Id.screen r.nodeId a)) (hb : known (Id.screen r.nodeId b))
      (hne : Id.screen r.nodeId b ≠ Id.screen r.nodeId a) (path via : String) :
      Relation p g known .screens
        (Edge.make .navigatesTo (Id.screen r.nodeId a) (.node (Id.screen r.nodeId b)) ""
          (.navigation path via) .high)
  | tableAccess {a : String} (ha : known a) (operation : DbOperation) (table : String)
      (confidence : Confidence) :
      Relation p g known .endpoints
        (Edge.make operation.edgeKind a (.node (Id.table Sql.defaultSchema table)) operation.name
          (.dataAccess operation table) confidence)
  | bucketAccess {a : String} (ha : known a) (bucket : String) :
      Relation p g known .endpoints
        (Edge.make .stores a (.node Id.storage) bucket (.storageAccess bucket) .high)
  | functionCall {a : String} (ha : known a) (function : String) :
      Relation p g known .endpoints
        (Edge.make .usesFunction a (.node (Id.function Sql.defaultSchema function)) ""
          (.rpc function) .high)
  | serviceCall {a b : String} (ha : known a) (hb : known b) (discriminator : String)
      (host : Option String) (via : String) (confidence : Confidence) :
      Relation p g known .endpoints
        (Edge.make .callsExternal a (.node b) discriminator (.externalCall host via) confidence)
  | authCall {a : String} (ha : known a) (call : String) :
      Relation p g known .endpoints
        (Edge.make .authenticates a (.node Id.auth) "" (.authCall call) .high)
  | foreignKey {a : String} (ha : known a) (b column references : String) :
      Relation p g known .database
        (Edge.make .reads a (.node b) column (.foreignKey column references) .high)
  | trigger {a : String} (ha : known a) (b trigger : String) :
      Relation p g known .database
        (Edge.make .usesFunction a (.node b) trigger (.trigger trigger) .high)
  | profile {b : String} (ha : known Id.auth) (hb : known b) (table : String) :
      Relation p g known .database
        (Edge.make .writes Id.auth (.node b) DbOperation.insert.name (.dataAccess .insert table)
          .medium)
  | deployment {a b : String} (ha : known a) (hb : known b) (confidence : Confidence) :
      Relation p g known .deployment (Edge.make .deploysTo a (.node b) "" .plain confidence)
  | environment {a b : String} (ha : known a) (hb : known b) (names : List String) :
      Relation p g known .deployment
        (Edge.make .callsExternal a (.node b) "env" (.envVar names) .high)
  | cron {a : String} (ha : known a) {target : Target} (repo path : String)
      (ht : target = callTarget g .get path (some repo)) (schedule : Option String) :
      Relation p g known .deployment (Edge.make .calls a target "cron" (.cron schedule) .high)

/-- Whether nodes of a kind are cited where they are found. -/
def isCitedKind : NodeKind → Bool
  | .screen | .endpoint | .table | .function => true
  | _ => false

/-- A platform none of whose configurations belongs to an app. -/
def DeploysNothing (p : Project) (g : Graph) (id : String) : Prop :=
  ∃ r ∈ p.repositories, ∃ u ∈ PlatformUse.ofPaths r.paths, id = u.id r.nodeId ∧
    ∀ config ∈ u.configs, deployedApps (Apps.ofGraph g r.nodeId) config = []

/-- The nodes that may go without evidence: what a project is made up of, and platforms that deploy
nothing. -/
def Bare (p : Project) (g : Graph) (n : Node) : Prop :=
  match n.detail with
  | .repo _ | .app _ | .auth _ | .storage _ => True
  | .package d => d.ecosystem = "workspace"
  | .deployment _ => DeploysNothing p g n.id
  | _ => False

/-- Findings back a node: they hold evidence about it, or about the use of an external service that
it is. -/
def Backs (f : Findings) (n : Node) : Prop :=
  ∃ r ∈ f.evidence, r.nodeId = n.id ∨
    ∃ e ∈ f.edges, r.edgeId = some e.id ∧ e.kind = .callsExternal ∧ e.target = .node n.id

/-- Findings that are put together from nodes, edges and their citations. A node comes bare, or with
what backs it; containment comes behind the contained node, and alone is not cited. -/
inductive Built (p : Project) (g : Graph) (known : String → Prop) (stage : Stage) : Findings → Prop
  | remarks (features : List Feature) (warnings : List String) :
      Built p g known stage { features, warnings }
  | append {a b : Findings} (ha : Built p g known stage a) (hb : Built p g known stage b) :
      Built p g known stage (a ++ b)
  | node {n : Node} (h : Entity p stage n) (hb : Bare p g n) : Built p g known stage (.node n)
  | citedNode {n : Node} {c : Citation} (h : Entity p stage n) (hn : c.nodeId = n.id)
      (he : c.edgeId = none) : Built p g known stage (.node n ++ .citation c)
  | backedNode {n : Node} {f : Findings} (h : Entity p stage n) (hk : isCitedKind n.kind = false)
      (hf : Built p g known stage f) (hb : Backs f n) : Built p g known stage (.node n ++ f)
  | citation {c : Citation} (hn : known c.nodeId) (he : c.edgeId = none) :
      Built p g known stage (.citation c)
  | relation {e : Edge} (h : Relation p g known stage e) (hk : e.kind ≠ .contains)
      {cs : List Citation} (hne : cs ≠ []) (hc : ∀ c ∈ cs, known c.nodeId ∧ c.edgeId = some e.id) :
      Built p g known stage
        { edges := [cs.foldl (fun e c => e.cite c.evidence.id) e]
          evidence := cs.map Citation.evidence }
  | contained {f : Findings} {a : String} {n : Node} (hf : Built p g known stage f) (hn : n ∈ f.nodes)
      (ha : known a) (hb : known n.id) (hc : container? g n = some a) :
      Built p g known stage (f ++ .edge (Edge.containment a n.id))

variable {p : Project} {g : Graph} {known : String → Prop} {stage : Stage}

/-! ## Nodes that are known -/

/-- All nodes of the findings are known. -/
def Covers (known : String → Prop) (f : Findings) : Prop := ∀ n ∈ f.nodes, known n.id

@[simp] theorem covers_append {a b : Findings} :
    Covers known (a ++ b) ↔ Covers known a ∧ Covers known b := by
  simp [Covers, or_imp, forall_and]

@[simp] theorem covers_concat {all : List Findings} :
    Covers known (.concat all) ↔ ∀ f ∈ all, Covers known f := by
  simp only [Covers, Findings.concat, List.mem_flatMap]
  constructor
  · intro h f hf n hn
    exact h n ⟨f, hf, hn⟩
  · rintro h n ⟨f, hf, hn⟩
    exact h f hf n hn

@[simp] theorem covers_concat_map {α : Type} {find : α → Findings} {all : List α} :
    Covers known (.concat (all.map find)) ↔ ∀ a ∈ all, Covers known (find a) :=
  covers_concat.trans List.forall_mem_map

@[simp] theorem covers_node {n : Node} : Covers known (.node n) ↔ known n.id := by
  simp [Covers, Findings.node]

/-! ## Building -/

theorem built_empty : Built p g known stage .empty := .remarks [] []

theorem built_concat : ∀ {all : List Findings}, (∀ f ∈ all, Built p g known stage f) →
    Built p g known stage (.concat all)
  | [], _ => built_empty
  | f :: all, h => by
    rw [Findings.concat_cons]
    exact .append (h f (by simp)) (built_concat fun f hf => h f (by simp [hf]))

theorem built_concat_map {α : Type} {l : List α} {find : α → Findings}
    (h : ∀ a ∈ l, Built p g known stage (find a)) :
    Built p g known stage (.concat (l.map find)) := by
  refine built_concat fun f hf => ?_
  obtain ⟨a, ha, rfl⟩ := List.mem_map.1 hf
  exact h a ha

/-- A node behind which its container is found, if it has one. -/
theorem built_owned {f : Findings} {n : Node} {owner : Option String}
    (hf : Built p g known stage f) (hn : n ∈ f.nodes) (hk : known n.id)
    (ho : ∀ a ∈ owner, known a ∧ container? g n = some a) :
    Built p g known stage
      (f ++ .concat (owner.toList.map fun a => .edge (Edge.containment a n.id))) := by
  cases owner with
  | none => exact .append hf built_empty
  | some a =>
    obtain ⟨ha, hc⟩ := ho a rfl
    exact .contained hf hn ha hk hc

theorem built_citedEdge {e : Edge} {c : Citation} (h : Relation p g known stage e)
    (hk : e.kind ≠ .contains) (hn : known c.nodeId) (he : c.edgeId = some e.id) :
    Built p g known stage (.citedEdge e c) :=
  .relation h hk (List.cons_ne_nil c []) (by simp [hn, he])

/-- An edge that is cited by the line of a known node. -/
theorem built_citedAt {s : Site} {kind : EvidenceKind} {e : Edge} (h : Relation p g known stage e)
    (hk : e.kind ≠ .contains) (hs : known s.nodeId) :
    Built p g known stage (s.citedEdge kind e) := built_citedEdge h hk hs rfl

/-! ## What is built -/

/-- The nodes of findings. -/
theorem Built.entity {f : Findings} (h : Built p g known stage f) :
    ∀ n ∈ f.nodes, Entity p stage n := by
  induction h with
  | remarks | citation | relation => simp [Findings.citation]
  | append _ _ iha ihb => simpa [or_imp, forall_and] using ⟨iha, ihb⟩
  | node h => simpa [Findings.node] using h
  | citedNode h => simpa [Findings.node, Findings.citation] using h
  | backedNode h _ _ _ ih => simpa [Findings.node] using ⟨h, ih⟩
  | contained _ _ _ _ _ ih => simpa [Findings.edge] using ih

theorem foldl_cite (cs : List Citation) (e : Edge) : ∃ cited,
    cs.foldl (fun e c => e.cite c.evidence.id) e = { e with evidenceIds := cited } := by
  induction cs generalizing e with
  | nil => exact ⟨e.evidenceIds, rfl⟩
  | cons c cs ih => exact ih (e.cite c.evidence.id)

theorem Bare.isCitedKind {n : Node} (h : Bare p g n) : isCitedKind n.kind = false := by
  unfold Bare at h
  unfold Node.kind
  split at h <;> next hd => first | (rw [hd]; rfl) | cases h

/-- The edges of findings, apart from their citations. -/
theorem Built.relation_of_mem {f : Findings} (h : Built p g known stage f) :
    ∀ e ∈ f.edges, ∃ e₀ cited, Relation p g known stage e₀ ∧
      e = { e₀ with evidenceIds := cited } := by
  induction h with
  | remarks | citation | node | citedNode => simp [Findings.node, Findings.citation]
  | append _ _ iha ihb => exact fun e he => (List.mem_append.1 he).elim (iha e) (ihb e)
  | backedNode _ _ _ _ ih => exact ih
  | @relation _ h _ cs =>
    obtain ⟨cited, hcited⟩ := foldl_cite cs _
    intro e he
    exact ⟨_, cited, h, (List.mem_singleton.1 he).trans hcited⟩
  | contained _ _ ha hb hc ih =>
    intro e he
    refine (List.mem_append.1 he).elim (ih e) fun he => ?_
    exact ⟨_, [], .containment ha hb hc, List.mem_singleton.1 he⟩

theorem Built.retargets {f : Findings} (h : Built p g known stage f) : f.retargets = [] := by
  induction h with
  | append _ _ iha ihb => simp [iha, ihb]
  | backedNode _ _ _ _ ih | contained _ _ _ _ _ ih => simp [Findings.node, Findings.edge, ih]
  | _ => rfl

theorem Relation.known_source {e : Edge} (h : Relation p g known stage e) : known e.source := by
  cases h with
  | containment ha | dependency ha | call ha | tableAccess ha | bucketAccess ha | functionCall ha
  | serviceCall ha | authCall ha | foreignKey ha | trigger ha | profile ha | deployment ha
  | environment ha | cron ha => exact ha
  | navigation _ _ _ ha => exact ha

/-- Only calls may point elsewhere than at a node. -/
theorem Relation.exists_target {e : Edge} (h : Relation p g known stage e) (hk : e.kind ≠ .calls) :
    ∃ id, e.target = .node id := by
  cases h with
  | call | cron => exact absurd rfl hk
  | _ => exact ⟨_, rfl⟩

/-- The identifier of a node is made from its kind. -/
theorem Entity.id_eq {n : Node} (h : Entity p stage n) :
    ∃ parts, n.id = Id.node n.kind parts := by
  cases h <;> exact ⟨_, rfl⟩

/-- Nodes with one identifier are of one kind. -/
theorem Entity.kind_eq {stage' : Stage} {n m : Node} (hn : Entity p stage n)
    (hm : Entity p stage' m) (h : n.id = m.id) : n.kind = m.kind := by
  obtain ⟨parts, hparts⟩ := hn.id_eq
  obtain ⟨parts', hparts'⟩ := hm.id_eq
  exact Id.kind_eq_of_node_eq (hparts ▸ hparts' ▸ h)

end ArchGraph.Discovery
