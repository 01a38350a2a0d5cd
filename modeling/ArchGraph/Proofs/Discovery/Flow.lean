import ArchGraph.Proofs.Discovery.Grouping
import Mathlib.Data.List.Forall2
import Mathlib.Data.Prod.Lex
/-!
# Flows of features

What the flow of a feature looks like in any graph, for any catalog and any limits: visits of the
screens, the shallowest first, each with the calls of that screen into the feature, and behind them,
endpoint by endpoint, the accesses to tables in scope and to services (`LaidOut`). Every step stands
for a screen or for an edge and repeats its first citations (`Lands`, `Walks`). Features of the
catalog and of groups differ in the tables that are in scope only, so that the layout is derived
once, from what features are made of. Main statement: `flows_wellFormed`.
-/

namespace ArchGraph.Discovery

variable {g : Graph} {catalog : List FeatureDefinition} {caps : FeatureSettings} {f : Feature}

/-! ## Steps -/

/-- The first citations out of a list, as many as there are up to a limit. -/
structure Cites (limit : Nat) (cited all : List String) : Prop where
  first  : cited <+: all
  number : cited.length = min limit all.length

theorem cites_take (limit : Nat) (all : List String) : Cites limit (all.take limit) all :=
  ⟨List.take_prefix limit all, List.length_take⟩

/-- How many citations a step onto a screen has at most. -/
def screenLimit (caps : FeatureSettings) : Nat := min caps.screenEvidenceCap.toNat 3

/-- How many citations a step along an edge has at most. -/
def edgeLimit (caps : FeatureSettings) : Nat := min caps.stepEvidenceCap.toNat 2

theorem toNat_min (a b : UInt64) : (min a b).toNat = min a.toNat b.toNat := by
  have hmin : min a b = if a ≤ b then a else b := rfl
  rw [hmin, apply_ite UInt64.toNat, Nat.min_def]
  simp only [UInt64.le_iff_toNat_le]

theorem screenCap_eq (caps : FeatureSettings) : screenCap caps = screenLimit caps := toNat_min _ _

theorem stepCap_eq (caps : FeatureSettings) : stepCap caps = edgeLimit caps := toNat_min _ _

/-- A step onto a screen. -/
structure Lands (g : Graph) (caps : FeatureSettings) (step : FlowStep) (screen : String) :
    Prop where
  kind  : step.kind = .screen
  node  : step.nodeId = screen
  edge  : step.edgeId = none
  cites : Cites (screenLimit caps) step.evidenceIds ((g.evidenceFor screen).map Evidence.id)

theorem lands_screenStep (g : Graph) (caps : FeatureSettings) (n : Node) :
    Lands g caps (screenStep g caps n) n.id := by
  refine ⟨rfl, rfl, rfl, ?_⟩
  rw [screenStep, screenCap_eq, List.map_take]
  exact cites_take _ _

/-- What a step along an edge of a kind does. -/
def stepKind? : EdgeKind → Option StepKind
  | .calls => some .apiCall
  | .reads | .writes => some .dbOperation
  | .callsExternal => some .externalCall
  | _ => none

/-- A step along a resolved edge. -/
structure Walks (caps : FeatureSettings) (step : FlowStep) (e : Edge) : Prop where
  kind  : stepKind? e.kind = some step.kind
  node  : e.target = .node step.nodeId
  edge  : step.edgeId = some e.id
  cites : Cites (edgeLimit caps) step.evidenceIds e.evidenceIds

theorem walks_edgeStep {kind : StepKind} {target : String} {e : Edge}
    (hkind : stepKind? e.kind = some kind) (htarget : e.target = .node target) :
    Walks caps (edgeStep caps kind target e) e := by
  refine ⟨hkind, htarget, rfl, ?_⟩
  rw [edgeStep, stepCap_eq]
  exact cites_take _ _

theorem nodeId?_eq_some_iff {target : Target} {id : String} :
    target.nodeId? = some id ↔ target = .node id := by
  cases target <;> simp [Target.nodeId?]

/-! ## The layout of a flow -/

/-- The calls of a screen that are resolved to one of some endpoints, in the order of the graph. -/
def callsInto (g : Graph) (endpoints : List String) (screen : String) : List Edge :=
  g.edges.filter fun e =>
    e.source = screen ∧ e.kind = .calls ∧ ∃ id ∈ e.target.nodeId?, id ∈ endpoints

/-- A table that is data of a feature: for the catalog one of the tables that the feature has, for
a group any table of the graph. -/
def InScope (g : Graph) (f : Feature) (id : String) : Prop :=
  match f.source with
  | .catalog => id ∈ f.tables
  | .autoDetected => ∃ n ∈ g.node? id, n.kind = .table

instance (g : Graph) (f : Feature) (id : String) : Decidable (InScope g f id) :=
  match h : f.source with
  | .catalog => decidable_of_iff (id ∈ f.tables) (by simp only [InScope, h])
  | .autoDetected =>
    decidable_of_iff (∃ n ∈ g.node? id, n.kind = .table) (by simp only [InScope, h])

/-- The accesses of an endpoint to tables in scope and to services, in the order of the graph. -/
def accessesOf (g : Graph) (f : Feature) (endpoint : String) : List Edge :=
  g.edges.filter fun e =>
    e.source = endpoint ∧ ∃ id ∈ e.target.nodeId?,
      (e.kind = .reads ∨ e.kind = .writes) ∧ InScope g f id ∨ e.kind = .callsExternal

/-- The part of a flow at a screen: the step onto it and the steps along its calls. -/
structure Visit where
  landing : FlowStep
  calls   : List FlowStep

/-- The steps of a visit. -/
def Visit.steps (v : Visit) : List FlowStep := v.landing :: v.calls

/-- The flow of a feature as visits of its screens and accesses of its endpoints. -/
structure LaidOut (g : Graph) (caps : FeatureSettings) (f : Feature) (visits : List Visit)
    (accesses : List FlowStep) : Prop where
  flow     : f.flow = visits.flatMap Visit.steps ++ accesses
  landings : List.Forall₂ (Lands g caps) (visits.map Visit.landing) f.screens
  calls    : ∀ v ∈ visits, List.Forall₂ (Walks caps) v.calls
    (callsInto g f.endpoints v.landing.nodeId)
  accesses : List.Forall₂ (Walks caps) accesses (f.endpoints.flatMap (accessesOf g f))

/-! ## Steps and edges one by one -/

theorem callStep?_eq_some_iff {endpoints : List String} {e : Edge} {step : FlowStep} :
    callStep? caps endpoints e = some step ↔ e.kind = .calls ∧
      ∃ id, e.target = .node id ∧ id ∈ endpoints ∧ edgeStep caps .apiCall id e = step := by
  rw [callStep?]
  split
  · next hkind =>
    simp only [hkind, true_and, Option.map_eq_some_iff, Option.filter_eq_some_iff,
      nodeId?_eq_some_iff, List.contains_iff_mem, and_assoc]
  · next hkind => simp [hkind]

theorem accessStep?_eq_some_iff {scope : TableScope} {e : Edge} {step : FlowStep} :
    accessStep? g caps scope e = some step ↔ ∃ id, e.target = .node id ∧
      ((e.kind = .reads ∨ e.kind = .writes) ∧ scope.holds g id = true ∧
          edgeStep caps .dbOperation id e = step ∨
        e.kind = .callsExternal ∧ edgeStep caps .externalCall id e = step) := by
  rw [accessStep?, Option.bind_eq_some_iff]
  simp only [nodeId?_eq_some_iff]
  refine exists_congr fun id => and_congr_right fun _ => ?_
  cases hkind : e.kind <;> simp

theorem walks_of_callStep? {endpoints : List String} {e : Edge} {step : FlowStep}
    (h : callStep? caps endpoints e = some step) : Walks caps step e := by
  obtain ⟨hkind, id, htarget, -, rfl⟩ := callStep?_eq_some_iff.1 h
  exact walks_edgeStep (by rw [hkind]; rfl) htarget

theorem walks_of_accessStep? {scope : TableScope} {e : Edge} {step : FlowStep}
    (h : accessStep? g caps scope e = some step) : Walks caps step e := by
  obtain ⟨id, htarget, ⟨hkind | hkind, -, rfl⟩ | ⟨hkind, rfl⟩⟩ := accessStep?_eq_some_iff.1 h
  all_goals exact walks_edgeStep (by rw [hkind]; rfl) htarget

/-- The steps along those edges that have one. -/
theorem forall₂_filterMap {step? : Edge → Option FlowStep} {p : Edge → Prop} [DecidablePred p]
    (hp : ∀ e, (step? e).isSome = true ↔ p e)
    (hstep : ∀ e step, step? e = some step → Walks caps step e) :
    ∀ edges : List Edge,
      List.Forall₂ (Walks caps) (edges.filterMap step?) (edges.filter fun e => p e)
  | [] => .nil
  | e :: edges => by
    have ih := forall₂_filterMap hp hstep edges
    cases h : step? e with
    | none =>
      have hno : ¬p e := by simp [← hp, h]
      rw [List.filterMap_cons_none h, List.filter_cons_of_neg (by simpa using hno)]
      exact ih
    | some step =>
      have hyes : p e := by simp [← hp, h]
      rw [List.filterMap_cons_some h, List.filter_cons_of_pos (by simpa using hyes)]
      exact .cons (hstep e step h) ih

/-- Choosing edges of a node is choosing edges of the graph. -/
theorem filter_edgesFrom (g : Graph) (source : String) (p : Edge → Prop) [DecidablePred p] :
    (g.edgesFrom source).filter (fun e => p e) =
      g.edges.filter fun e => e.source = source ∧ p e := by
  rw [Graph.edgesFrom, List.filter_filter]
  refine List.filter_congr fun e _ => ?_
  rw [Bool.eq_iff_iff]
  simp [and_comm]

theorem forall₂_callSteps (endpoints : List String) (screen : String) :
    List.Forall₂ (Walks caps) ((g.edgesFrom screen).filterMap (callStep? caps endpoints))
      (callsInto g endpoints screen) := by
  rw [callsInto, ← filter_edgesFrom]
  refine forall₂_filterMap (fun e => ?_) (fun _ _ => walks_of_callStep?) _
  simp [Option.isSome_iff_exists, callStep?_eq_some_iff, nodeId?_eq_some_iff]

theorem forall₂_accessSteps {scope : TableScope}
    (hscope : ∀ id, scope.holds g id = true ↔ InScope g f id) (endpoint : String) :
    List.Forall₂ (Walks caps) ((g.edgesFrom endpoint).filterMap (accessStep? g caps scope))
      (accessesOf g f endpoint) := by
  rw [accessesOf, ← filter_edgesFrom]
  refine forall₂_filterMap (fun e => ?_) (fun _ _ => walks_of_accessStep?) _
  simp only [Option.isSome_iff_exists, accessStep?_eq_some_iff, Option.mem_def,
    nodeId?_eq_some_iff, hscope]
  rw [exists_comm]
  simp [exists_or]

/-! ## Whole flows -/

/-- The visit of a screen. -/
def visitOf (g : Graph) (caps : FeatureSettings) (endpoints : List String) (screen : Node) :
    Visit where
  landing := screenStep g caps screen
  calls := (g.edgesFrom screen.id).filterMap (callStep? caps endpoints)

/-- What a feature is made of decides how its flow is laid out. -/
theorem MadeOf.laidOut {screens endpoints : List Node} {scope : TableScope}
    (made : MadeOf g caps screens endpoints scope f)
    (hscope : ∀ id, scope.holds g id = true ↔ InScope g f id) :
    LaidOut g caps f
      ((screens.mergeSort shallowFirst).map (visitOf g caps (endpoints.map Node.id)))
      (endpoints.flatMap fun e => (g.edgesFrom e.id).filterMap (accessStep? g caps scope)) where
  flow := by
    rw [made.flow, Discovery.flow, List.flatMap_map]
    rfl
  landings := by
    rw [made.screens, List.map_map, List.forall₂_map_left_iff, List.forall₂_map_right_iff,
      List.forall₂_same]
    exact fun n _ => lands_screenStep g caps n
  calls := by
    intro v hv
    obtain ⟨n, -, rfl⟩ := List.mem_map.1 hv
    rw [made.endpoints]
    exact forall₂_callSteps _ _
  accesses := by
    rw [made.endpoints, List.flatMap_map]
    -- both sides go through the same endpoints, so that their blocks are compared one by one
    refine List.rel_flatMap (List.forall₂_same.2 fun _ _ => rfl) ?_
    rintro e _ rfl
    exact forall₂_accessSteps hscope e.id

theorem exists_of_forall₂ {α β : Type} {r : α → β → Prop} {l : List α} {l' : List β}
    (h : List.Forall₂ r l l') {a : α} (ha : a ∈ l) : ∃ b ∈ l', r a b := by
  induction h with
  | nil => exact absurd ha List.not_mem_nil
  | cons hr _ ih =>
    rcases List.mem_cons.1 ha with rfl | ha
    · exact ⟨_, List.mem_cons_self, hr⟩
    · obtain ⟨b, hb, hab⟩ := ih ha
      exact ⟨b, List.mem_cons_of_mem _ hb, hab⟩

namespace LaidOut

variable {visits : List Visit} {accesses : List FlowStep} {v : Visit} {step : FlowStep}

theorem kind_landing (h : LaidOut g caps f visits accesses) (hv : v ∈ visits) :
    v.landing.kind = .screen := by
  obtain ⟨screen, -, hlands⟩ := exists_of_forall₂ h.landings (List.mem_map_of_mem hv)
  exact hlands.kind

theorem kind_of_mem_calls (h : LaidOut g caps f visits accesses) (hv : v ∈ visits)
    (hstep : step ∈ v.calls) : step.kind = .apiCall := by
  obtain ⟨e, he, hwalks⟩ := exists_of_forall₂ (h.calls v hv) hstep
  obtain ⟨-, hkind, -⟩ := of_decide_eq_true (List.mem_filter.1 he).2
  have hstepKind := hwalks.kind
  rw [hkind] at hstepKind
  exact (Option.some.inj hstepKind).symm

/-- An access is one to a table in scope or to a service. -/
theorem access_cases (h : LaidOut g caps f visits accesses) (hstep : step ∈ accesses) :
    step.kind = .dbOperation ∧ InScope g f step.nodeId ∨ step.kind = .externalCall := by
  obtain ⟨e, he, hwalks⟩ := exists_of_forall₂ h.accesses hstep
  obtain ⟨endpoint, -, he⟩ := List.mem_flatMap.1 he
  obtain ⟨-, id, hid, haccess⟩ := of_decide_eq_true (List.mem_filter.1 he).2
  obtain rfl : step.nodeId = id :=
    Target.node.inj (hwalks.node.symm.trans (nodeId?_eq_some_iff.1 hid))
  have hstepKind := hwalks.kind
  rcases haccess with ⟨hkind | hkind, hscope⟩ | hkind <;> rw [hkind] at hstepKind
  · exact .inl ⟨(Option.some.inj hstepKind).symm, hscope⟩
  · exact .inl ⟨(Option.some.inj hstepKind).symm, hscope⟩
  · exact .inr (Option.some.inj hstepKind).symm

/-- The steps onto screens are the landings. -/
theorem steps_screen (h : LaidOut g caps f visits accesses) :
    f.steps .screen = visits.map Visit.landing := by
  -- a visit has one step onto a screen, its landing, and the accesses have none
  have haccesses : accesses.filter (·.kind = .screen) = [] := by
    rw [List.filter_eq_nil_iff]
    intro step hstep
    rcases h.access_cases hstep with ⟨hkind, -⟩ | hkind <;> simp [hkind]
  have hvisit : ∀ v ∈ visits, v.steps.filter (·.kind = .screen) = [v.landing] := by
    intro v hv
    have hcalls : v.calls.filter (·.kind = .screen) = [] := by
      rw [List.filter_eq_nil_iff]
      intro step hstep
      simp [h.kind_of_mem_calls hv hstep]
    rw [Visit.steps, List.filter_cons_of_pos (by simp [h.kind_landing hv]), hcalls]
  rw [Feature.steps, h.flow, List.filter_append, haccesses, List.append_nil, List.filter_flatMap,
    List.flatMap_congr hvisit, ← List.map_eq_flatMap]

theorem screens (h : LaidOut g caps f visits accesses) :
    (f.steps .screen).map (·.nodeId) = f.screens := by
  rw [h.steps_screen, ← List.forall₂_eq_eq_eq, List.forall₂_map_left_iff]
  exact h.landings.imp fun _ _ hlands => hlands.node

theorem inScope (h : LaidOut g caps f visits accesses) (hstep : step ∈ f.steps .dbOperation) :
    InScope g f step.nodeId := by
  obtain ⟨hmem, hkind⟩ := List.mem_filter.1 hstep
  have hkind := of_decide_eq_true hkind
  rw [h.flow, List.mem_append] at hmem
  rcases hmem with hmem | hmem
  · obtain ⟨v, hv, hstep⟩ := List.mem_flatMap.1 hmem
    rcases List.mem_cons.1 hstep with rfl | hstep
    · exact nomatch hkind.symm.trans (h.kind_landing hv)
    · exact nomatch hkind.symm.trans (h.kind_of_mem_calls hv hstep)
  · rcases h.access_cases hmem with ⟨-, hscope⟩ | hkind'
    · exact hscope
    · exact nomatch hkind.symm.trans hkind'

end LaidOut

/-- Steps land on what they are said to land on. -/
theorem mem_landings {steps : List FlowStep} {step : FlowStep} {kind : StepKind}
    (h : step ∈ steps.filter (·.kind = kind)) : step.nodeId ∈ landings steps kind := by
  rw [landings, Graph.mem_union]
  exact .inr (List.mem_map_of_mem h)

theorem nodup_landings (steps : List FlowStep) (kind : StepKind) :
    (landings steps kind).Nodup := by
  have hfirsts : ((Graph.firsts (fun s => s)
      ((steps.filter (·.kind = kind)).map (·.nodeId))).map fun s => s).Nodup :=
    Graph.nodup_firsts _
  rw [List.map_id'] at hfirsts
  rw [landings, Graph.union_eq, List.nil_append]
  exact hfirsts.filter _

/-- What screens are sorted by: the number of segments of their routes, then the routes. -/
def sortKey (n : Node) : Nat ×ₗ String := toLex (Route.depth (routeOf n), routeOf n)

/-- Screens in order: those with fewer segments first, and by their routes. -/
def Ordered (nodes : List Node) : Prop := nodes.Pairwise fun a b => sortKey a ≤ sortKey b

theorem shallowFirst_iff {a b : Node} : shallowFirst a b = true ↔ sortKey a ≤ sortKey b := by
  rw [sortKey, sortKey, Prod.Lex.toLex_le_toLex]
  simp [shallowFirst, Text.notAfter_iff]

theorem ordered_mergeSort (nodes : List Node) : Ordered (nodes.mergeSort shallowFirst) :=
  Text.pairwise_mergeSort_of_key sortKey (fun _ _ => shallowFirst_iff) nodes

/-- What is known about the flow of a feature. -/
structure WellFormed (g : Graph) (caps : FeatureSettings) (f : Feature) : Prop where
  screens  : (f.steps .screen).map (·.nodeId) = f.screens
  ordered  : ∃ nodes, nodes.map Node.id = f.screens ∧ Ordered nodes ∧
    ∀ n ∈ nodes, n ∈ g.nodes ∧ n.kind = .screen
  laidOut  : ∃ visits accesses, LaidOut g caps f visits accesses
  tables   : ∀ step ∈ f.steps .dbOperation, step.nodeId ∈ f.tables
  services : ∀ step ∈ f.steps .externalCall, step.nodeId ∈ f.services
  once     : f.services.Nodup

theorem MadeOf.wellFormed {screens endpoints : List Node} {scope : TableScope}
    (made : MadeOf g caps screens endpoints scope f)
    (hscreens : ∀ n ∈ screens, n ∈ g.nodes ∧ n.kind = .screen)
    (hscope : ∀ id, scope.holds g id = true ↔ InScope g f id)
    (htables : ∀ step ∈ f.steps .dbOperation, InScope g f step.nodeId → step.nodeId ∈ f.tables) :
    WellFormed g caps f := by
  have hlaid := made.laidOut hscope
  constructor
  · exact hlaid.screens
  · exact ⟨_, made.screens.symm, ordered_mergeSort screens,
      fun n hn => hscreens n (List.mem_mergeSort.1 hn)⟩
  · exact ⟨_, _, hlaid⟩
  · exact fun step hstep => htables step hstep (hlaid.inScope hstep)
  · rw [made.services]
    exact fun step hstep => mem_landings hstep
  · rw [made.services]
    exact nodup_landings _ _

theorem Defined.wellFormed {d : FeatureDefinition} (h : Defined g caps d f) :
    WellFormed g caps f := by
  refine h.made.wellFormed (fun n hn => ?_) (fun id => ?_) fun step _ hscope => ?_
  · have hkind := List.mem_filter.1 (List.mem_filter.1 hn).1
    exact ⟨hkind.1, of_decide_eq_true hkind.2⟩
  · rw [InScope, h.source, TableScope.holds, List.contains_iff_mem]
  · rwa [InScope, h.source] at hscope

theorem wellFormed_keyFeature (key : String) :
    WellFormed g caps (keyFeature g caps (freeScreens g catalog caps) key) := by
  have made := madeOf_keyFeature g caps (freeScreens g catalog caps) key
  refine made.wellFormed (fun n hn => ?_) (fun id => ?_) fun step hstep _ => mem_landings hstep
  · obtain ⟨hmem, hkind, -⟩ := mem_freeScreens.1 (mem_withKey.1 hn).1
    exact ⟨hmem, hkind⟩
  · have hsource : (keyFeature g caps (freeScreens g catalog caps) key).source = .autoDetected := rfl
    rw [InScope, hsource, TableScope.holds]
    cases g.node? id <;> simp

/-- **Flows are well formed.** In every feature of any graph, for any catalog and any limits, the
steps onto screens name the screens of the feature, shallow routes first; each is followed by the
steps along its calls into the feature and by no others; behind all of them come, endpoint by
endpoint, the steps along accesses to tables in scope and to services, which are the feature's;
and every step has the first citations of what it stands for, up to the limits. -/
theorem flows_wellFormed (catalog : List FeatureDefinition) (caps : FeatureSettings) (g : Graph) :
    ∀ f ∈ (features catalog caps g).features, WellFormed g caps f := by
  intro f hf
  rcases mem_features.1 hf with hknown | ⟨key, -, rfl⟩
  · obtain ⟨d, -, hdef⟩ := exists_of_mem_known hknown
    exact hdef.wellFormed
  · exact wellFormed_keyFeature key

/-- Two pages of projects, an endpoint that one of them calls, and what the endpoint accesses. The
second call of that page is not resolved and the mail service is no node. -/
def projectPages : Findings where
  nodes :=
    [("list", "/projects"), ("detail", "/projects/[id]")].map (fun (id, route) =>
      ⟨id, route, none, .screen ⟨route, "", Route.isDynamic route, none, none, .pagesRouter⟩⟩) ++
    [⟨"get", "GET /api/projects", none, .endpoint ⟨.get, "/api/projects", "", none, .pagesApi⟩⟩,
      ⟨"projects", "projects", none, .table ⟨"public", [], false, []⟩⟩]
  edges :=
    [⟨"call", "list", .node "get", .calls, .high, ["c1", "c2", "c3"], .plain⟩,
      ⟨"lost", "list", .pending "/api/tasks", .calls, .high, ["c4"], .plain⟩,
      ⟨"read", "get", .node "projects", .reads, .high, ["c5"], .plain⟩,
      ⟨"ask", "get", .node "mail", .callsExternal, .high, ["c6"], .plain⟩]

def projectGraph : Graph := [projectPages].foldl Graph.merge .empty

def projectsDefinition : FeatureDefinition where
  slug := "projects"
  name := "Projects"
  description := "Create, browse and manage projects."
  routes := ["/projects/[[...rest]]"]
  endpoints := ["/api/projects"]
  tables := ["projects"]

/-- The feature that the pages make up. -/
def projectsFeature : Feature where
  slug := "projects"
  name := "Projects"
  description := "Create, browse and manage projects."
  source := .catalog
  flow :=
    [⟨.screen, "list", none, []⟩, ⟨.apiCall, "get", some "call", ["c1", "c2"]⟩,
      ⟨.screen, "detail", none, []⟩, ⟨.dbOperation, "projects", some "read", ["c5"]⟩,
      ⟨.externalCall, "mail", some "ask", ["c6"]⟩]
  screens := ["list", "detail"]
  endpoints := ["get"]
  tables := ["projects"]
  services := ["mail"]

theorem catalogFeature?_projects :
    catalogFeature? projectGraph Settings.default.features projectsDefinition =
      some projectsFeature := by
  have hscreens : (projectGraph.nodesOf .screen).filter (onRoute projectsDefinition.routes) =
      projectPages.nodes.take 2 := by decide
  -- sorting does not compute, so it is taken out of what is evaluated
  have hsorted : (projectPages.nodes.take 2).mergeSort shallowFirst = projectPages.nodes.take 2 :=
    List.mergeSort_of_pairwise (by decide)
  rw [catalogFeature?, hscreens]
  simp only [hsorted]
  decide

theorem flows_wellFormed_projects :
    projectsFeature ∈
        (features [projectsDefinition] Settings.default.features projectGraph).features ∧
      WellFormed projectGraph Settings.default.features projectsFeature := by
  have hmem : projectsFeature ∈
      (features [projectsDefinition] Settings.default.features projectGraph).features :=
    mem_features.2 (.inl (List.mem_filterMap.2 ⟨_, List.mem_cons_self, catalogFeature?_projects⟩))
  exact ⟨hmem, flows_wellFormed _ _ _ _ hmem⟩

end ArchGraph.Discovery
