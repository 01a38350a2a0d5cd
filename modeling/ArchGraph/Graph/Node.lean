import ArchGraph.Graph.Kind
/-!
# Nodes

The things a project is made of. What is known about a node depends on what it stands for, so the
kind of a node is read off its details.
-/

namespace ArchGraph

/-- A repository. -/
structure RepoDetail where
  owner         : String
  name          : String
  provider      : String
  defaultBranch : String
  frameworks    : List String
  language      : Option String
  monorepo      : Bool
  monorepoTool  : Option String
deriving DecidableEq, Repr

/-- A deployable application. -/
structure AppDetail where
  root      : String
  framework : Option String
  language  : Option String
deriving DecidableEq, Repr

/-- A page of the user interface. -/
structure ScreenDetail where
  route     : String
  filePath  : String
  isDynamic : Bool
  feature   : Option String
  layout    : Option String
  router    : RouterKind
deriving DecidableEq, Repr

/-- A server handler for one method of one route. -/
structure EndpointDetail where
  method   : HttpMethod
  route    : String
  filePath : String
  feature  : Option String
  handler  : HandlerKind
deriving DecidableEq, Repr

/-- A scheduled job. -/
structure WorkerDetail where
  schedule : Option String
  path     : String
  filePath : String
deriving DecidableEq, Repr

/-- What a foreign key points at. -/
structure ColumnReference where
  schema : Option String
  table  : String
  column : Option String
deriving DecidableEq, Repr

/-- A column of a table. -/
structure Column where
  name       : String
  dataType   : String
  nullable   : Bool
  primaryKey : Bool
  foreignKey : Bool
  references : Option ColumnReference
deriving DecidableEq, Repr

/-- A database table. -/
structure TableDetail where
  schema   : String
  columns  : List Column
  hasRls   : Bool
  policies : List String
deriving DecidableEq, Repr

/-- A database function. -/
structure FunctionDetail where
  schema          : String
  language        : Option String
  securityDefiner : Bool
  returns         : Option String
deriving DecidableEq, Repr

/-- The storage subsystem. -/
structure StorageDetail where
  buckets : List String
deriving DecidableEq, Repr

/-- The authentication subsystem. -/
structure AuthDetail where
  provider : Option String
deriving DecidableEq, Repr

/-- A service outside the project. -/
structure ServiceDetail where
  service  : String
  category : String
  host     : Option String
deriving DecidableEq, Repr

/-- A platform that the project is deployed to. -/
structure DeploymentDetail where
  platform   : String
  configFile : Option String
  inferred   : Bool
  envVars    : List String
deriving DecidableEq, Repr

/-- A package of an ecosystem. -/
structure PackageDetail where
  name      : String
  version   : Option String
  ecosystem : String
deriving DecidableEq, Repr

/-- What is known about a node. -/
inductive NodeDetail where
  | repo (detail : RepoDetail)
  | app (detail : AppDetail)
  | screen (detail : ScreenDetail)
  | endpoint (detail : EndpointDetail)
  | worker (detail : WorkerDetail)
  | table (detail : TableDetail)
  | function (detail : FunctionDetail)
  | storage (detail : StorageDetail)
  | auth (detail : AuthDetail)
  | externalService (detail : ServiceDetail)
  | deployment (detail : DeploymentDetail)
  | package (detail : PackageDetail)
deriving DecidableEq, Repr

/-- The kind of node that has such details. -/
def NodeDetail.kind : NodeDetail → NodeKind
  | repo _ => .repo
  | app _ => .app
  | screen _ => .screen
  | endpoint _ => .endpoint
  | worker _ => .worker
  | table _ => .table
  | function _ => .function
  | storage _ => .storage
  | auth _ => .auth
  | externalService _ => .externalService
  | deployment _ => .deployment
  | package _ => .package

/-- A node of the graph. -/
structure Node where
  id         : String
  label      : String
  owningRepo : Option String
  detail     : NodeDetail
deriving DecidableEq, Repr

namespace Node

/-- The kind of a node. -/
def kind (n : Node) : NodeKind := n.detail.kind

/-- The route of a screen or an endpoint. -/
def route? (n : Node) : Option String :=
  match n.detail with
  | .screen d => some d.route
  | .endpoint d => some d.route
  | _ => none

/-- The method of an endpoint. -/
def method? (n : Node) : Option HttpMethod :=
  match n.detail with
  | .endpoint d => some d.method
  | _ => none

end Node
end ArchGraph
