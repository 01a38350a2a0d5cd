import ArchGraph.Catalog.Feature
import ArchGraph.Graph.Store
import ArchGraph.Route.Matcher
import ArchGraph.Settings.Basic
import ArchGraph.Text.Sorted
/-!
# Discovering features

Features of the catalog have at least one screen on one of their routes. The screens that belong
to none of them are grouped by the first two segments of their routes, and every group that is
large enough is a feature of its own. A flow visits the screens, the shallowest first, each
followed by its calls of the feature's endpoints, and then the data and the services that the
endpoints access.
-/

namespace ArchGraph.Discovery

open Text (Chars)

/-! ## Flows -/

/-- The route of a node; empty without one. -/
def routeOf (n : Node) : String := n.route?.getD ""

/-- Shallow routes come first, equally deep ones in the order of their characters. -/
def shallowFirst (a b : Node) : Bool :=
  let (x, y) := (routeOf a, routeOf b)
  Route.depth x < Route.depth y || (Route.depth x == Route.depth y && Text.notAfter x y)

/-- Which tables count as data of a feature. -/
inductive TableScope where
  /-- The tables with these identifiers. -/
  | only (ids : List String)
  /-- Every table of the graph. -/
  | any

/-- Whether a node is a table that counts. -/
def TableScope.holds (g : Graph) (id : String) : TableScope → Bool
  | only ids => ids.contains id
  | any => (g.node? id).any (·.kind = .table)

/-- The greatest number of citations of a screen step. -/
def screenCap (caps : FeatureSettings) : Nat :=
  (min caps.screenEvidenceCap maxScreenEvidenceCap).toNat

/-- The greatest number of citations of a step along an edge. -/
def stepCap (caps : FeatureSettings) : Nat := (min caps.stepEvidenceCap maxStepEvidenceCap).toNat

/-- The step onto a screen. -/
def screenStep (g : Graph) (caps : FeatureSettings) (screen : Node) : FlowStep where
  kind := .screen
  nodeId := screen.id
  edgeId := none
  evidenceIds := ((g.evidenceFor screen.id).take (screenCap caps)).map (·.id)

/-- The step along an edge. -/
def edgeStep (caps : FeatureSettings) (kind : StepKind) (target : String) (e : Edge) :
    FlowStep where
  kind := kind
  nodeId := target
  edgeId := some e.id
  evidenceIds := e.evidenceIds.take (stepCap caps)

/-- The step along a call of one of the endpoints. -/
def callStep? (caps : FeatureSettings) (endpoints : List String) (e : Edge) : Option FlowStep :=
  if e.kind = .calls then
    (e.target.nodeId?.filter endpoints.contains).map fun target => edgeStep caps .apiCall target e
  else none

/-- The step along an access to a table that counts or to a service. -/
def accessStep? (g : Graph) (caps : FeatureSettings) (scope : TableScope) (e : Edge) :
    Option FlowStep :=
  e.target.nodeId?.bind fun target =>
    match e.kind with
    | .reads | .writes =>
      if scope.holds g target then some (edgeStep caps .dbOperation target e) else none
    | .callsExternal => some (edgeStep caps .externalCall target e)
    | _ => none

/-- The flow through screens, given in order, and endpoints. -/
def flow (g : Graph) (caps : FeatureSettings) (screens endpoints : List Node) (scope : TableScope) :
    List FlowStep :=
  let ids := endpoints.map (·.id)
  (screens.flatMap fun screen =>
    screenStep g caps screen :: (g.edgesFrom screen.id).filterMap (callStep? caps ids)) ++
  endpoints.flatMap fun endpoint => (g.edgesFrom endpoint.id).filterMap (accessStep? g caps scope)

/-- The nodes that the steps of one kind land on, each once. -/
def landings (steps : List FlowStep) (kind : StepKind) : List String :=
  Graph.union [] ((steps.filter (·.kind = kind)).map (·.nodeId))

/-! ## Features of the catalog -/

/-- Whether one of the routes takes the route of a node. -/
def onRoute (routes : List String) (n : Node) : Bool :=
  n.route?.any fun route => routes.any fun r => Route.accepts r route

/-- The feature with a definition, if it has a screen. -/
def catalogFeature? (g : Graph) (caps : FeatureSettings) (d : FeatureDefinition) : Option Feature :=
  let screens := (g.nodesOf .screen).filter (onRoute d.routes)
  if screens.isEmpty then none
  else
    let ordered := screens.mergeSort shallowFirst
    let endpoints := (g.nodesOf .endpoint).filter (onRoute d.endpoints)
    let tables := ((g.nodesOf .table).filter fun t => d.tables.contains t.label).map (·.id)
    let steps := flow g caps ordered endpoints (.only tables)
    some {
      slug := d.slug
      name := d.name
      description := d.description
      source := .catalog
      flow := steps
      screens := ordered.map (·.id)
      endpoints := endpoints.map (·.id)
      tables
      services := landings steps .externalCall }

/-! ## Groups of screens -/

/-- The first two segments of a node's route. -/
def groupKey (n : Node) : String :=
  "/" ++ "/".intercalate ((Route.segments (routeOf n)).take 2)

/-- Characters that are part of a route's spelling but not of a name. -/
def isRouteMark (c : Char) : Bool := "[].():".toList.contains c

/-- The name of a group in a slug; the group of the root is called home. -/
def groupSlug (key : String) : String :=
  let parts := ((Route.segments key).map fun s =>
    String.ofList (Text.lower (Text.trimMatches isRouteMark s.toList))).filter (· ≠ "")
  if parts.isEmpty then "home" else "-".intercalate parts

/-- Whether a route is that of a group or lies below it. -/
def inGroup (key route : String) : Bool :=
  match Text.dropStart? key.toList route.toList with
  | some [] => true
  | some (c :: _) => c = '/'
  | none => false

/-- The feature that a group of screens makes up. The group of the root has no endpoints. -/
def groupFeature (g : Graph) (caps : FeatureSettings) (key : String) (screens : List Node) :
    Feature :=
  let slug := groupSlug key
  let ordered := screens.mergeSort shallowFirst
  let endpoints := (g.nodesOf .endpoint).filter fun e =>
    key ≠ "/" && inGroup key (Route.stripMount (routeOf e))
  let steps := flow g caps ordered endpoints .any
  { slug
    name := Route.titleCase slug
    description := s!"{screens.length} screens under {key}"
    source := .autoDetected
    flow := steps
    screens := ordered.map (·.id)
    endpoints := endpoints.map (·.id)
    tables := landings steps .dbOperation
    services := landings steps .externalCall }

/-- Adds the feature of a group unless its slug is taken or the group is too small. -/
def addGroup (g : Graph) (caps : FeatureSettings) (free : List Node) (features : List Feature)
    (key : String) : List Feature :=
  let screens := free.filter fun s => groupKey s = key
  if screens.length < max caps.minAutoFeatureScreens.toNat 1 then features
  else if features.any (·.slug == groupSlug key) then features
  else features ++ [groupFeature g caps key screens]

/-- The features of a graph: those of the catalog, then those of groups in the order of their
keys. -/
def features (catalog : List FeatureDefinition) (settings : FeatureSettings) (g : Graph) :
    Findings :=
  let known := catalog.filterMap (catalogFeature? g settings)
  let covered := known.flatMap (·.screens)
  let free := (g.nodesOf .screen).filter fun s => !covered.contains s.id
  { features :=
      (Text.sortedSet (free.map groupKey)).foldl (addGroup g settings free) known }

end ArchGraph.Discovery
