import ArchGraph.Graph.Edge
import ArchGraph.Graph.Evidence
import ArchGraph.Graph.Feature
import ArchGraph.Graph.Node
import ArchGraph.Json.Basic
/-!
# The written form of the graph

Nodes, edges, evidence and features as JSON values, and back. Optional fields are left out when
they are unset, except in the details of edges, where they are `null`. Reading ignores unknown
members, takes `null` and absence for an unset optional field, and refuses everything else that
does not have the written form.
-/

namespace ArchGraph

namespace Json

/-- A string that names a member of a vocabulary. -/
def member? {α : Type} (ofName? : String → Option α) (j : Json) : Option α :=
  j.str?.bind ofName?

/-- The written form of a line number. -/
def ofLine (number : UInt32) : Json := ofNat number.toNat

/-- The line number with a written form: a number of at most 32 bits. -/
def line? (j : Json) : Option UInt32 := (j.nat? (Nat.pow 2 32 - 1)).map Nat.toUInt32

end Json

open Json (str bool ofStrings ofMembers ofOption required? optional? member?)

namespace RepoDetail

/-- The written form of a repository's details. -/
def toJson (d : RepoDetail) : Json :=
  ofMembers
    [("owner", str d.owner), ("name", str d.name), ("provider", str d.provider),
     ("defaultBranch", str d.defaultBranch), ("frameworks", ofStrings d.frameworks),
     ("language", d.language.map str), ("monorepo", bool d.monorepo),
     ("monorepoTool", d.monorepoTool.map str)]

/-- The details with a written form. -/
def ofJson? (j : Json) : Option RepoDetail :=
  match j.record? ["owner", "name", "provider", "defaultBranch", "frameworks", "language",
      "monorepo", "monorepoTool"] true with
  | some [owner, name, provider, branch, frameworks, language, monorepo, tool] => do
    return ⟨← required? Json.str? owner, ← required? Json.str? name,
      ← required? Json.str? provider, ← required? Json.str? branch,
      ← required? Json.strings? frameworks, ← optional? Json.str? language,
      ← required? Json.bool? monorepo, ← optional? Json.str? tool⟩
  | _ => none

end RepoDetail

namespace AppDetail

/-- The written form of an app's details. -/
def toJson (d : AppDetail) : Json :=
  ofMembers
    [("root", str d.root), ("framework", d.framework.map str), ("language", d.language.map str)]

/-- The details with a written form. -/
def ofJson? (j : Json) : Option AppDetail :=
  match j.record? ["root", "framework", "language"] true with
  | some [root, framework, language] => do
    return ⟨← required? Json.str? root, ← optional? Json.str? framework,
      ← optional? Json.str? language⟩
  | _ => none

end AppDetail

namespace ScreenDetail

/-- The written form of a screen's details. -/
def toJson (d : ScreenDetail) : Json :=
  ofMembers
    [("route", str d.route), ("filePath", str d.filePath), ("isDynamic", bool d.isDynamic),
     ("feature", d.feature.map str), ("layout", d.layout.map str),
     ("router", str d.router.name)]

/-- The details with a written form. -/
def ofJson? (j : Json) : Option ScreenDetail :=
  match j.record? ["route", "filePath", "isDynamic", "feature", "layout", "router"] true with
  | some [route, file, isDynamic, feature, layout, router] => do
    return ⟨← required? Json.str? route, ← required? Json.str? file,
      ← required? Json.bool? isDynamic, ← optional? Json.str? feature,
      ← optional? Json.str? layout, ← required? (member? RouterKind.ofName?) router⟩
  | _ => none

end ScreenDetail

namespace EndpointDetail

/-- The written form of an endpoint's details. -/
def toJson (d : EndpointDetail) : Json :=
  ofMembers
    [("method", str d.method.name), ("route", str d.route), ("filePath", str d.filePath),
     ("feature", d.feature.map str), ("handler", str d.handler.name)]

/-- The details with a written form. -/
def ofJson? (j : Json) : Option EndpointDetail :=
  match j.record? ["method", "route", "filePath", "feature", "handler"] true with
  | some [method, route, file, feature, handler] => do
    return ⟨← required? (member? HttpMethod.ofName?) method, ← required? Json.str? route,
      ← required? Json.str? file, ← optional? Json.str? feature,
      ← required? (member? HandlerKind.ofName?) handler⟩
  | _ => none

end EndpointDetail

namespace WorkerDetail

/-- The written form of a job's details. -/
def toJson (d : WorkerDetail) : Json :=
  ofMembers [("schedule", d.schedule.map str), ("path", str d.path), ("filePath", str d.filePath)]

/-- The details with a written form. -/
def ofJson? (j : Json) : Option WorkerDetail :=
  match j.record? ["schedule", "path", "filePath"] true with
  | some [schedule, path, file] => do
    return ⟨← optional? Json.str? schedule, ← required? Json.str? path,
      ← required? Json.str? file⟩
  | _ => none

end WorkerDetail

namespace ColumnReference

/-- The written form of what a foreign key points at. -/
def toJson (r : ColumnReference) : Json :=
  ofMembers [("schema", r.schema.map str), ("table", str r.table), ("column", r.column.map str)]

/-- The reference with a written form. -/
def ofJson? (j : Json) : Option ColumnReference :=
  match j.record? ["schema", "table", "column"] true with
  | some [schema, table, column] => do
    return ⟨← optional? Json.str? schema, ← required? Json.str? table,
      ← optional? Json.str? column⟩
  | _ => none

end ColumnReference

namespace Column

/-- The written form of a column. -/
def toJson (c : Column) : Json :=
  ofMembers
    [("name", str c.name), ("dataType", str c.dataType), ("nullable", bool c.nullable),
     ("primaryKey", bool c.primaryKey), ("foreignKey", bool c.foreignKey),
     ("references", c.references.map ColumnReference.toJson)]

/-- The column with a written form. -/
def ofJson? (j : Json) : Option Column :=
  match j.record? ["name", "dataType", "nullable", "primaryKey", "foreignKey", "references"]
      true with
  | some [name, dataType, nullable, primaryKey, foreignKey, references] => do
    return ⟨← required? Json.str? name, ← required? Json.str? dataType,
      ← required? Json.bool? nullable, ← required? Json.bool? primaryKey,
      ← required? Json.bool? foreignKey, ← optional? ColumnReference.ofJson? references⟩
  | _ => none

end Column

namespace TableDetail

/-- The written form of a table's details. -/
def toJson (d : TableDetail) : Json :=
  ofMembers
    [("schema", str d.schema), ("columns", Json.arr (d.columns.map Column.toJson)),
     ("hasRls", bool d.hasRls), ("policies", ofStrings d.policies)]

/-- The details with a written form. -/
def ofJson? (j : Json) : Option TableDetail :=
  match j.record? ["schema", "columns", "hasRls", "policies"] true with
  | some [schema, columns, hasRls, policies] => do
    return ⟨← required? Json.str? schema, ← required? (Json.list? Column.ofJson?) columns,
      ← required? Json.bool? hasRls, ← required? Json.strings? policies⟩
  | _ => none

end TableDetail

namespace FunctionDetail

/-- The written form of a function's details. -/
def toJson (d : FunctionDetail) : Json :=
  ofMembers
    [("schema", str d.schema), ("language", d.language.map str),
     ("securityDefiner", bool d.securityDefiner), ("returns", d.returns.map str)]

/-- The details with a written form. -/
def ofJson? (j : Json) : Option FunctionDetail :=
  match j.record? ["schema", "language", "securityDefiner", "returns"] true with
  | some [schema, language, definer, returns] => do
    return ⟨← required? Json.str? schema, ← optional? Json.str? language,
      ← required? Json.bool? definer, ← optional? Json.str? returns⟩
  | _ => none

end FunctionDetail

namespace StorageDetail

/-- The written form of the storage subsystem's details. -/
def toJson (d : StorageDetail) : Json := ofMembers [("buckets", ofStrings d.buckets)]

/-- The details with a written form. -/
def ofJson? (j : Json) : Option StorageDetail :=
  match j.record? ["buckets"] true with
  | some [buckets] => do return ⟨← required? Json.strings? buckets⟩
  | _ => none

end StorageDetail

namespace AuthDetail

/-- The written form of the authentication subsystem's details. -/
def toJson (d : AuthDetail) : Json := ofMembers [("provider", d.provider.map str)]

/-- The details with a written form. -/
def ofJson? (j : Json) : Option AuthDetail :=
  match j.record? ["provider"] true with
  | some [provider] => do return ⟨← optional? Json.str? provider⟩
  | _ => none

end AuthDetail

namespace ServiceDetail

/-- The written form of a service's details. -/
def toJson (d : ServiceDetail) : Json :=
  ofMembers
    [("service", str d.service), ("category", str d.category), ("host", d.host.map str)]

/-- The details with a written form. -/
def ofJson? (j : Json) : Option ServiceDetail :=
  match j.record? ["service", "category", "host"] true with
  | some [service, category, host] => do
    return ⟨← required? Json.str? service, ← required? Json.str? category,
      ← optional? Json.str? host⟩
  | _ => none

end ServiceDetail

namespace DeploymentDetail

/-- The written form of a deployment's details. -/
def toJson (d : DeploymentDetail) : Json :=
  ofMembers
    [("platform", str d.platform), ("configFile", d.configFile.map str),
     ("inferred", bool d.inferred), ("envVars", ofStrings d.envVars)]

/-- The details with a written form. -/
def ofJson? (j : Json) : Option DeploymentDetail :=
  match j.record? ["platform", "configFile", "inferred", "envVars"] true with
  | some [platform, config, inferred, envVars] => do
    return ⟨← required? Json.str? platform, ← optional? Json.str? config,
      ← required? Json.bool? inferred, ← required? Json.strings? envVars⟩
  | _ => none

end DeploymentDetail

namespace PackageDetail

/-- The written form of a package's details. -/
def toJson (d : PackageDetail) : Json :=
  ofMembers
    [("name", str d.name), ("version", d.version.map str), ("ecosystem", str d.ecosystem)]

/-- The details with a written form. -/
def ofJson? (j : Json) : Option PackageDetail :=
  match j.record? ["name", "version", "ecosystem"] true with
  | some [name, version, ecosystem] => do
    return ⟨← required? Json.str? name, ← optional? Json.str? version,
      ← required? Json.str? ecosystem⟩
  | _ => none

end PackageDetail

namespace NodeDetail

/-- The written form of a node's details, without their kind. -/
def toJson : NodeDetail → Json
  | repo d => d.toJson
  | app d => d.toJson
  | screen d => d.toJson
  | endpoint d => d.toJson
  | worker d => d.toJson
  | table d => d.toJson
  | function d => d.toJson
  | storage d => d.toJson
  | auth d => d.toJson
  | externalService d => d.toJson
  | deployment d => d.toJson
  | package d => d.toJson

/-- The details of a kind with a written form. -/
def ofJson? (kind : NodeKind) (j : Json) : Option NodeDetail :=
  match kind with
  | .repo => (RepoDetail.ofJson? j).map repo
  | .app => (AppDetail.ofJson? j).map app
  | .screen => (ScreenDetail.ofJson? j).map screen
  | .endpoint => (EndpointDetail.ofJson? j).map endpoint
  | .worker => (WorkerDetail.ofJson? j).map worker
  | .table => (TableDetail.ofJson? j).map table
  | .function => (FunctionDetail.ofJson? j).map function
  | .storage => (StorageDetail.ofJson? j).map storage
  | .auth => (AuthDetail.ofJson? j).map auth
  | .externalService => (ServiceDetail.ofJson? j).map externalService
  | .deployment => (DeploymentDetail.ofJson? j).map deployment
  | .package => (PackageDetail.ofJson? j).map package

end NodeDetail

namespace Node

/-- The written form of a node. -/
def toJson (n : Node) : Json :=
  ofMembers
    [("id", str n.id), ("label", str n.label), ("owningRepoId", n.owningRepo.map str),
     ("type", str n.kind.name), ("metadata", n.detail.toJson)]

/-- The node with a written form, which is an object. -/
def ofJson? : Json → Option Node
  | .obj members =>
    match Json.objectFields? ["id", "label", "owningRepoId", "type", "metadata"] members with
    | some [id, label, repo, kind, detail] => do
      let kind ← required? (member? NodeKind.ofName?) kind
      return ⟨← required? Json.str? id, ← required? Json.str? label,
        ← optional? Json.str? repo, ← required? (NodeDetail.ofJson? kind) detail⟩
    | _ => none
  | _ => none

end Node

namespace EdgeDetail

/-- The name of a kind of details. -/
def kindName : EdgeDetail → String
  | plain => "none"
  | httpCall .. => "http_call"
  | navigation .. => "navigation"
  | dataAccess .. => "data_access"
  | rpc .. => "rpc"
  | externalCall .. => "external_call"
  | authCall .. => "auth_call"
  | storageAccess .. => "storage_access"
  | foreignKey .. => "foreign_key"
  | trigger .. => "trigger"
  | dependency .. => "dependency"
  | cron .. => "cron"
  | envVar .. => "env_var"

/-- The fields of details, in order. -/
def fields : EdgeDetail → List (String × Json)
  | plain => []
  | httpCall method path client =>
    [("method", str method.name), ("path", str path), ("client", str client)]
  | navigation path via => [("path", str path), ("via", str via)]
  | dataAccess operation table => [("operation", str operation.name), ("table", str table)]
  | rpc function => [("function", str function)]
  | externalCall host via => [("host", ofOption (host.map str)), ("via", str via)]
  | authCall call => [("call", str call)]
  | storageAccess bucket => [("bucket", str bucket)]
  | foreignKey column references => [("column", str column), ("references", str references)]
  | trigger name => [("trigger", str name)]
  | dependency version => [("version", ofOption (version.map str))]
  | cron schedule => [("schedule", ofOption (schedule.map str))]
  | envVar names => [("variables", ofStrings names)]

/-- The written form of an edge's details. -/
def toJson (d : EdgeDetail) : Json := Json.obj (("kind", str d.kindName) :: d.fields)

/-- The details of a kind whose fields are written in an object or, in order, in an array. -/
def ofFields? (kind : String) (j : Json) : Option EdgeDetail :=
  match kind with
  | "none" => some plain
  | "http_call" =>
    match j.record? ["method", "path", "client"] true with
    | some [method, path, client] => do
      return httpCall (← required? (member? HttpMethod.ofName?) method)
        (← required? Json.str? path) (← required? Json.str? client)
    | _ => none
  | "navigation" =>
    match j.record? ["path", "via"] true with
    | some [path, via] => do
      return navigation (← required? Json.str? path) (← required? Json.str? via)
    | _ => none
  | "data_access" =>
    match j.record? ["operation", "table"] true with
    | some [operation, table] => do
      return dataAccess (← required? (member? DbOperation.ofName?) operation)
        (← required? Json.str? table)
    | _ => none
  | "rpc" =>
    match j.record? ["function"] true with
    | some [function] => do return rpc (← required? Json.str? function)
    | _ => none
  | "external_call" =>
    match j.record? ["host", "via"] true with
    | some [host, via] => do
      return externalCall (← optional? Json.str? host) (← required? Json.str? via)
    | _ => none
  | "auth_call" =>
    match j.record? ["call"] true with
    | some [call] => do return authCall (← required? Json.str? call)
    | _ => none
  | "storage_access" =>
    match j.record? ["bucket"] true with
    | some [bucket] => do return storageAccess (← required? Json.str? bucket)
    | _ => none
  | "foreign_key" =>
    match j.record? ["column", "references"] true with
    | some [column, references] => do
      return foreignKey (← required? Json.str? column) (← required? Json.str? references)
    | _ => none
  | "trigger" =>
    match j.record? ["trigger"] true with
    | some [name] => do return trigger (← required? Json.str? name)
    | _ => none
  | "dependency" =>
    match j.record? ["version"] true with
    | some [version] => do return dependency (← optional? Json.str? version)
    | _ => none
  | "cron" =>
    match j.record? ["schedule"] true with
    | some [schedule] => do return cron (← optional? Json.str? schedule)
    | _ => none
  | "env_var" =>
    match j.record? ["variables"] true with
    | some [names] => do return envVar (← required? Json.strings? names)
    | _ => none
  | _ => none

/-- The details with a written form: an object that names their kind, or an array that starts
with it. -/
def ofJson? : Json → Option EdgeDetail
  | .obj members =>
    match Json.objectFields? ["kind"] members with
    | some [some (.str kind)] => ofFields? kind (.obj members)
    | _ => none
  | .arr (.str kind :: rest) => ofFields? kind (.arr rest)
  | _ => none

end EdgeDetail

namespace Edge

/-- The written form of an edge. -/
def toJson (e : Edge) : Json :=
  ofMembers
    [("id", str e.id), ("source", str e.source), ("target", str e.target.written),
     ("type", str e.kind.name), ("confidence", str e.confidence.name),
     ("evidenceIds", ofStrings e.evidenceIds), ("metadata", e.detail.toJson)]

/-- The edge with a written form. -/
def ofJson? (j : Json) : Option Edge :=
  match j.record? ["id", "source", "target", "type", "confidence", "evidenceIds", "metadata"]
      true with
  | some [id, source, target, kind, confidence, evidenceIds, detail] => do
    return ⟨← required? Json.str? id, ← required? Json.str? source,
      Target.ofWritten (← required? Json.str? target), ← required? (member? EdgeKind.ofName?) kind,
      ← required? (member? Confidence.ofName?) confidence,
      ← required? Json.strings? evidenceIds, ← required? EdgeDetail.ofJson? detail⟩
  | _ => none

end Edge

namespace Evidence

/-- The written form of a citation. -/
def toJson (e : Evidence) : Json :=
  ofMembers
    [("id", str e.id), ("kind", str e.kind.name), ("nodeId", str e.nodeId),
     ("edgeId", e.edgeId.map str), ("filePath", e.filePath.map str),
     ("lineStart", e.lineStart.map Json.ofLine), ("lineEnd", e.lineEnd.map Json.ofLine),
     ("excerpt", str e.excerpt), ("confidence", str e.confidence.name)]

/-- The citation with a written form. -/
def ofJson? (j : Json) : Option Evidence :=
  match j.record? ["id", "kind", "nodeId", "edgeId", "filePath", "lineStart", "lineEnd",
      "excerpt", "confidence"] true with
  | some [id, kind, nodeId, edgeId, file, lineStart, lineEnd, excerpt, confidence] => do
    return ⟨← required? Json.str? id, ← required? (member? EvidenceKind.ofName?) kind,
      ← required? Json.str? nodeId, ← optional? Json.str? edgeId, ← optional? Json.str? file,
      ← optional? Json.line? lineStart, ← optional? Json.line? lineEnd,
      ← required? Json.str? excerpt, ← required? (member? Confidence.ofName?) confidence⟩
  | _ => none

end Evidence

namespace FlowStep

/-- The written form of a step. -/
def toJson (s : FlowStep) : Json :=
  ofMembers
    [("kind", str s.kind.name), ("nodeId", str s.nodeId), ("edgeId", s.edgeId.map str),
     ("evidenceIds", ofStrings s.evidenceIds)]

/-- The step with a written form. -/
def ofJson? (j : Json) : Option FlowStep :=
  match j.record? ["kind", "nodeId", "edgeId", "evidenceIds"] true with
  | some [kind, nodeId, edgeId, evidenceIds] => do
    return ⟨← required? (member? StepKind.ofName?) kind, ← required? Json.str? nodeId,
      ← optional? Json.str? edgeId, ← required? Json.strings? evidenceIds⟩
  | _ => none

end FlowStep

namespace Feature

/-- The written form of a feature. -/
def toJson (f : Feature) : Json :=
  ofMembers
    [("slug", str f.slug), ("name", str f.name), ("description", str f.description),
     ("source", str f.source.name), ("flow", Json.arr (f.flow.map FlowStep.toJson)),
     ("screens", ofStrings f.screens), ("endpoints", ofStrings f.endpoints),
     ("tables", ofStrings f.tables), ("services", ofStrings f.services)]

/-- The feature with a written form. -/
def ofJson? (j : Json) : Option Feature :=
  match j.record? ["slug", "name", "description", "source", "flow", "screens", "endpoints",
      "tables", "services"] true with
  | some [slug, name, description, source, flow, screens, endpoints, tables, services] => do
    return ⟨← required? Json.str? slug, ← required? Json.str? name,
      ← required? Json.str? description, ← required? (member? FeatureSource.ofName?) source,
      ← required? (Json.list? FlowStep.ofJson?) flow, ← required? Json.strings? screens,
      ← required? Json.strings? endpoints, ← required? Json.strings? tables,
      ← required? Json.strings? services⟩
  | _ => none

end Feature
end ArchGraph
