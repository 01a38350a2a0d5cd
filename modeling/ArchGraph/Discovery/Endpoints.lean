import ArchGraph.Catalog.Service
import ArchGraph.Corpus.Basic
import ArchGraph.Discovery.Exports
import ArchGraph.Discovery.Site
import ArchGraph.Graph.Apps
import ArchGraph.Route.Convention
import ArchGraph.Route.Index
import ArchGraph.Settings.Basic
import ArchGraph.Sql.Name
/-!
# Discovering endpoints

The handlers of the repositories with what their lines access: tables, functions, storage,
authentication, other services. Afterwards every call that still points at a path is pointed at
the endpoint that serves it, if there is one.
-/

namespace ArchGraph.Discovery

open Text (Chars)

/-! ## Lines of handlers -/

/-- The access to a table at a match on a line. The operation is looked for behind it, up to the
next choice of a table; without one it is a selection, less surely. -/
def tableAccess (lines : List Chars) (lookahead : UInt64) (stop : Nat) (s : Site) (m : Match) :
    Findings :=
  let table := m.text 1
  let chain := Text.before ".from(".toList (s.ahead m.stop lines lookahead stop)
  let operation? := (Pattern.dbOp.first? chain).bind fun o => DbOperation.ofName? (o.text 1)
  let operation := operation?.getD .select
  s.citedEdge .backendClientCall
    (Edge.make operation.edgeKind s.nodeId (.node (Id.table Sql.defaultSchema table)) operation.name
      (.dataAccess operation table) (if operation?.isSome then .high else .medium))

/-- The access to a storage bucket at a match on a line. -/
def bucketAccess (s : Site) (m : Match) : Findings :=
  let bucket := m.text 1
  s.citedEdge .backendClientCall
    (Edge.make .stores s.nodeId (.node Id.storage) bucket (.storageAccess bucket) .high)

/-- The accesses to tables on a line, or the first access to a bucket if there is one. -/
def dataAt (lines : List Chars) (lookahead : UInt64) (stop : Nat) (s : Site) : Findings :=
  match Pattern.storageFrom.first? s.line with
  | some m => bucketAccess s m
  | none => .concat ((Pattern.tableFrom.all s.line).map (tableAccess lines lookahead stop s))

/-- Whether looking ahead from an access to a table on a line overflows. -/
def dataOverflows (lookahead : UInt64) (s : Site) : Bool :=
  (Pattern.storageFrom.first? s.line).isNone && !(Pattern.tableFrom.all s.line).isEmpty &&
    s.overflows lookahead

/-- The calls of database functions on a line. -/
def functionsAt (s : Site) : Findings :=
  .concat ((Pattern.rpc.all s.line).map fun m =>
    s.citedEdge .backendClientCall
      (Edge.make .usesFunction s.nodeId (.node (Id.function Sql.defaultSchema (m.text 1))) ""
        (.rpc (m.text 1)) .high))

/-- The request to an absolute address at a match on a line, unless its host is local. -/
def externalCall (s : Site) (m : Match) : Findings :=
  match Pattern.urlHost.first? (m.text 2).toList with
  | none => .empty
  | some address =>
    let host := Text.lowercase (address.text 1)
    if Service.localHosts.contains host then .empty
    else
      let node := match Service.ofHost? host with
        | some service => service.node (some host)
        | none => Service.hostNode host
      .node node ++
        s.citedEdge .externalApiCall
          (Edge.make .callsExternal s.nodeId (.node node.id) host
            (.externalCall (some host) (m.text 1)) .high)

/-- The construction of a service client at a match on a line. -/
def clientConstruction (s : Site) (m : Match) : Findings :=
  match Service.ofClientClass? (m.text 1) with
  | none => .empty
  | some service =>
    let node := service.node none
    .node node ++
      s.citedEdge .externalApiCall
        (Edge.make .callsExternal s.nodeId (.node node.id) ""
          (.externalCall none ("new " ++ m.text 1)) .medium)

/-- The calls of the authentication subsystem on a line. -/
def authCallsAt (s : Site) : Findings :=
  .concat ((Pattern.authCall.all s.line).map fun m =>
    let call := if (m.group? 1).isSome then m.text 1 else m.text 2
    s.citedEdge .backendClientCall
      (Edge.make .authenticates s.nodeId (.node Id.auth) "" (.authCall call) .high))

/-- A reference to the environment on a line is cited, even without an edge. -/
def environmentAt (s : Site) : Findings :=
  if Pattern.envRef.occursIn s.line then .citation (s.citation .envVar) else .empty

/-- What a line of a handler shows. -/
def handlerLine (lines : List Chars) (lookahead : UInt64) (stop : Nat) (s : Site) : Findings :=
  dataAt lines lookahead stop s ++ functionsAt s ++
    .concat ((Pattern.externalUrl.all s.line).map (externalCall s)) ++
    .concat ((Pattern.sdkConstructor.all s.line).map (clientConstruction s)) ++ authCallsAt s ++
    environmentAt s

/-- What a stretch of lines of a handler shows. -/
def handlerStretch (nodeId path : String) (lines : List Chars) (lookahead : UInt64)
    (stretch : Nat × Nat) : Findings :=
  .concat ((((Site.ofLines nodeId path lines).take stretch.2).drop stretch.1).map
    (handlerLine lines lookahead stretch.2))

/-! ## Handlers -/

/-- The node of an endpoint. -/
def endpointNode (repo path : String) (handler : Route.HandlerFile) (method : HttpMethod) :
    Node where
  id := Id.endpoint repo method handler.route
  label := method.name ++ " " ++ handler.route
  owningRepo := some repo
  detail := .endpoint {
    method
    route := handler.route
    filePath := path
    feature := Route.featureTag? handler.route
    handler := handler.handler }

/-- The citation of an endpoint by the line that exports it. -/
def endpointCitation (nodeId path : String) (lines : List Chars) (e : MethodExport) : Citation :=
  let citation : Citation :=
    { kind := .handler, nodeId, filePath := some path, confidence := e.confidence }
  citation.atLine (lines[e.line]?.map fun line => ((e.line + 1).toUInt32, line)) path.toList

/-- The endpoints of a handler file. -/
def handlerFindings (lookahead : UInt64) (apps : Apps) (repo : String) (content : Option String)
    (path : String) (handler : Route.HandlerFile) : Findings :=
  let exports := match content with
    | some text => MethodExport.ofContent text.toList
    | none => [.everything]
  let lines := (content.map fun text => Text.lines text.toList).getD []
  let first := (exports.head?.map (·.line)).getD 0
  .concat ((MethodExport.withNext exports).map fun (e, next) =>
    let node := endpointNode repo path handler e.method
    .node node ++ .citation (endpointCitation node.id path lines e) ++
      .concat ((apps.owner? path).toList.map fun app => .edge (Edge.containment app node.id)) ++
      .concat ((e.stretches lines.length first next).map
        (handlerStretch node.id path lines lookahead)))

/-- Whether looking ahead overflows on a line of a handler file. -/
def handlerOverflows (lookahead : UInt64) (path content : String) : Bool :=
  let exports := MethodExport.ofContent content.toList
  let lines := Text.lines content.toList
  let first := (exports.head?.map (·.line)).getD 0
  (MethodExport.withNext exports).any fun (e, next) =>
    (e.stretches lines.length first next).any fun stretch =>
      (((Site.ofLines "" path lines).take stretch.2).drop stretch.1).any (dataOverflows lookahead)

/-- The endpoints of a repository. -/
def endpointsOf (settings : AnalysisSettings) (p : Project) (g : Graph) (r : Repository) :
    Findings :=
  let repo := r.nodeId
  let apps := Apps.ofGraph g repo
  .concat (r.paths.map fun path =>
    match Route.handler? path with
    | some handler =>
      handlerFindings settings.tableOpLookahead apps repo (p.content? r path) path handler
    | none => .empty)

/-- Whether looking ahead overflows on a line of a handler. -/
def endpointsOverflow (settings : AnalysisSettings) (p : Project) : Bool :=
  p.repositories.any fun r =>
    (r.paths.filter fun path => (Route.handler? path).isSome).any fun path =>
      (p.content? r path).any (handlerOverflows settings.tableOpLookahead path)

/-! ## Resolving calls -/

/-- The repository that the source of an edge belongs to. -/
def sourceRepo? (g : Graph) (f : Findings) (source : String) : Option String :=
  ((g.node? source).or (f.nodes.find? (·.id == source))).bind (·.owningRepo)

/-- Points the calls of pending paths, in the graph and in the findings, at the endpoints that
serve them. -/
def resolveCalls (g : Graph) (f : Findings) : Findings :=
  let index := Route.Index.ofNodes (g.nodesOf .endpoint ++ f.nodesOf .endpoint)
  { retargets := (g.edges ++ f.edges).filterMap fun e =>
      match e.target with
      | .node _ => none
      | .pending path =>
        (index.resolve? path e.detail.method? (sourceRepo? g f e.source)).map fun target =>
          ⟨e.id, target⟩ }

/-- The endpoints of a project, and the calls that they serve. -/
def endpoints (settings : AnalysisSettings) (p : Project) (g : Graph) : Findings :=
  let found := Findings.concat (p.repositories.map (endpointsOf settings p g))
  found ++ resolveCalls g found

end ArchGraph.Discovery
