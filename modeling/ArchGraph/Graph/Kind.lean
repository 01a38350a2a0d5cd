import ArchGraph.Text.Case
/-!
# Kinds of facts

The closed vocabularies of the graph: kinds of nodes, edges and citations, confidence, request
methods and table operations. Each member has a name in the written form of the graph, and the
members are listed in the order in which reports count them. Main statement: reading a written
name gives the member back.
-/

namespace ArchGraph

/-- The member of a vocabulary with a given name. -/
def named? {α : Type} (members : List α) (name : α → String) (s : String) : Option α :=
  members.find? fun m => name m == s

/-- What a node stands for. -/
inductive NodeKind where
  | repo
  | app
  | screen
  | endpoint
  | worker
  | table
  | function
  | storage
  | auth
  | externalService
  | deployment
  | package
deriving DecidableEq, Repr

namespace NodeKind

/-- All kinds of nodes. -/
def all : List NodeKind :=
  [repo, app, screen, endpoint, worker, table, function, storage, auth, externalService,
   deployment, package]

/-- The name of a kind of node. -/
def name : NodeKind → String
  | repo => "repo"
  | app => "app"
  | screen => "screen"
  | endpoint => "endpoint"
  | worker => "worker"
  | table => "table"
  | function => "function"
  | storage => "storage"
  | auth => "auth"
  | externalService => "external_service"
  | deployment => "deployment"
  | package => "package"

/-- The kind of node with a name. -/
def ofName? : String → Option NodeKind := named? all name

theorem ofName?_name (k : NodeKind) : ofName? k.name = some k := by cases k <;> rfl

end NodeKind

/-- How two nodes are related. -/
inductive EdgeKind where
  | contains
  | navigatesTo
  | calls
  | reads
  | writes
  | usesFunction
  | authenticates
  | stores
  | deploysTo
  | dependsOn
  | callsExternal
deriving DecidableEq, Repr

namespace EdgeKind

/-- All kinds of edges. -/
def all : List EdgeKind :=
  [contains, navigatesTo, calls, reads, writes, usesFunction, authenticates, stores, deploysTo,
   dependsOn, callsExternal]

/-- The name of a kind of edge. -/
def name : EdgeKind → String
  | contains => "contains"
  | navigatesTo => "navigates_to"
  | calls => "calls"
  | reads => "reads"
  | writes => "writes"
  | usesFunction => "uses_function"
  | authenticates => "authenticates"
  | stores => "stores"
  | deploysTo => "deploys_to"
  | dependsOn => "depends_on"
  | callsExternal => "calls_external"

/-- The kind of edge with a name. -/
def ofName? : String → Option EdgeKind := named? all name

theorem ofName?_name (k : EdgeKind) : ofName? k.name = some k := by cases k <;> rfl

end EdgeKind

/-- How sure an inferred fact is. -/
inductive Confidence where
  | low
  | medium
  | high
deriving DecidableEq, Repr

namespace Confidence

/-- All degrees of confidence, rising. -/
def all : List Confidence := [low, medium, high]

/-- The name of a degree of confidence. -/
def name : Confidence → String
  | low => "low"
  | medium => "medium"
  | high => "high"

/-- The degree of confidence with a name. -/
def ofName? : String → Option Confidence := named? all name

/-- The place of a degree in the rising order. -/
def rank : Confidence → Nat
  | low => 0
  | medium => 1
  | high => 2

theorem ofName?_name (c : Confidence) : ofName? c.name = some c := by cases c <;> rfl

end Confidence

/-- A request method; `all` serves every method. -/
inductive HttpMethod where
  | get
  | post
  | put
  | patch
  | delete
  | head
  | options
  | all
deriving DecidableEq, Repr

namespace HttpMethod

/-- The methods that a request can have. -/
def requests : List HttpMethod := [get, post, put, patch, delete, head, options]

/-- The name of a method. -/
def name : HttpMethod → String
  | get => "GET"
  | post => "POST"
  | put => "PUT"
  | patch => "PATCH"
  | delete => "DELETE"
  | head => "HEAD"
  | options => "OPTIONS"
  | all => "ALL"

/-- The method with a written name. -/
def ofName? : String → Option HttpMethod := named? (requests ++ [all]) name

/-- The request method that a word names in any ASCII letter case. -/
def parse? (word : String) : Option HttpMethod :=
  named? requests name (Text.asciiUppercase word)

/-- Whether a handler of one method serves a call of another. -/
def accepts (served call : HttpMethod) : Bool :=
  served = all || served = call

theorem ofName?_name (m : HttpMethod) : ofName? m.name = some m := by cases m <;> rfl

end HttpMethod

/-- An operation on a table. -/
inductive DbOperation where
  | select
  | insert
  | update
  | delete
  | upsert
deriving DecidableEq, Repr

namespace DbOperation

/-- All operations. -/
def all : List DbOperation := [select, insert, update, delete, upsert]

/-- The name of an operation. -/
def name : DbOperation → String
  | select => "select"
  | insert => "insert"
  | update => "update"
  | delete => "delete"
  | upsert => "upsert"

/-- The operation with a name. -/
def ofName? : String → Option DbOperation := named? all name

/-- A selection reads, everything else writes. -/
def edgeKind : DbOperation → EdgeKind
  | select => .reads
  | _ => .writes

theorem ofName?_name (o : DbOperation) : ofName? o.name = some o := by cases o <;> rfl

theorem edgeKind_eq_or (o : DbOperation) : o.edgeKind = .reads ∨ o.edgeKind = .writes := by
  cases o <;> decide

theorem edgeKind_ne_contains (o : DbOperation) : o.edgeKind ≠ .contains := by cases o <;> decide

end DbOperation

/-- What a citation points at. -/
inductive EvidenceKind where
  | routeDefinition
  | handler
  | pageComponent
  | dbTable
  | dbFunction
  | sqlMigration
  | envVar
  | fetchCall
  | backendClientCall
  | deploymentConfig
  | packageDependency
  | importStatement
  | externalApiCall
  | componentUsage
  | rlsPolicy
deriving DecidableEq, Repr

namespace EvidenceKind

/-- All kinds of citations. -/
def all : List EvidenceKind :=
  [routeDefinition, handler, pageComponent, dbTable, dbFunction, sqlMigration, envVar, fetchCall,
   backendClientCall, deploymentConfig, packageDependency, importStatement, externalApiCall,
   componentUsage, rlsPolicy]

/-- The name of a kind of citation. -/
def name : EvidenceKind → String
  | routeDefinition => "route_definition"
  | handler => "handler"
  | pageComponent => "page_component"
  | dbTable => "db_table"
  | dbFunction => "db_function"
  | sqlMigration => "sql_migration"
  | envVar => "env_var"
  | fetchCall => "fetch_call"
  | backendClientCall => "backend_client_call"
  | deploymentConfig => "deployment_config"
  | packageDependency => "package_dependency"
  | importStatement => "import_statement"
  | externalApiCall => "external_api_call"
  | componentUsage => "component_usage"
  | rlsPolicy => "rls_policy"

/-- The kind of citation with a name. -/
def ofName? : String → Option EvidenceKind := named? all name

theorem ofName?_name (k : EvidenceKind) : ofName? k.name = some k := by cases k <;> rfl

end EvidenceKind

/-- The convention by which a file is a screen. -/
inductive RouterKind where
  | appRouter
  | pagesRouter
  | svelteKit
deriving DecidableEq, Repr

namespace RouterKind

/-- All conventions for screens. -/
def all : List RouterKind := [appRouter, pagesRouter, svelteKit]

/-- The name of a convention. -/
def name : RouterKind → String
  | appRouter => "app_router"
  | pagesRouter => "pages_router"
  | svelteKit => "svelte_kit"

/-- The convention with a name. -/
def ofName? : String → Option RouterKind := named? all name

theorem ofName?_name (k : RouterKind) : ofName? k.name = some k := by cases k <;> rfl

end RouterKind

/-- The convention by which a file is a handler. -/
inductive HandlerKind where
  | routeHandler
  | pagesApi
  | svelteKitServer
  | edgeFunction
deriving DecidableEq, Repr

namespace HandlerKind

/-- All conventions for handlers. -/
def all : List HandlerKind := [routeHandler, pagesApi, svelteKitServer, edgeFunction]

/-- The name of a convention. -/
def name : HandlerKind → String
  | routeHandler => "route_handler"
  | pagesApi => "pages_api"
  | svelteKitServer => "svelte_kit_server"
  | edgeFunction => "edge_function"

/-- The convention with a name. -/
def ofName? : String → Option HandlerKind := named? all name

theorem ofName?_name (k : HandlerKind) : ofName? k.name = some k := by cases k <;> rfl

end HandlerKind

/-- Where a feature comes from. -/
inductive FeatureSource where
  | catalog
  | autoDetected
deriving DecidableEq, Repr

namespace FeatureSource

/-- Both sources of features. -/
def all : List FeatureSource := [catalog, autoDetected]

/-- The name of a source. -/
def name : FeatureSource → String
  | catalog => "catalog"
  | autoDetected => "auto_detected"

/-- The source with a name. -/
def ofName? : String → Option FeatureSource := named? all name

theorem ofName?_name (k : FeatureSource) : ofName? k.name = some k := by cases k <;> rfl

end FeatureSource

/-- What a step of a user flow lands on. -/
inductive StepKind where
  | screen
  | apiCall
  | dbOperation
  | externalCall
deriving DecidableEq, Repr

namespace StepKind

/-- All kinds of steps. -/
def all : List StepKind := [screen, apiCall, dbOperation, externalCall]

/-- The name of a kind of step. -/
def name : StepKind → String
  | screen => "screen"
  | apiCall => "api_call"
  | dbOperation => "db_operation"
  | externalCall => "external_call"

/-- The kind of step with a name. -/
def ofName? : String → Option StepKind := named? all name

theorem ofName?_name (k : StepKind) : ofName? k.name = some k := by cases k <;> rfl

end StepKind

end ArchGraph
