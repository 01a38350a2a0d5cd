import ArchGraph.Catalog.Platform
import ArchGraph.Catalog.Service
import ArchGraph.Discovery.Inventory
import ArchGraph.Graph.Apps
import ArchGraph.Manifest.Cron
import ArchGraph.Route.Convention
import ArchGraph.Route.Index
/-!
# Discovering deployments

The platforms that repositories are deployed to, the environment variables that they read, the
services that these and the packages imply, and the requests that a platform schedules.
-/

namespace ArchGraph.Discovery

open Text (Chars)

/-! ## Platforms -/

/-- A platform with the files that show it: its own configuration, or the one of a framework from
which it is inferred. -/
structure PlatformUse where
  name     : String
  configs  : List String
  inferred : Bool
deriving DecidableEq, Repr

namespace PlatformUse

/-- The identifier of a platform's node. -/
def id (repo : String) (u : PlatformUse) : String := Id.deployment repo u.name

/-- An inferred platform is less sure. -/
def confidence (u : PlatformUse) : Confidence := if u.inferred then .medium else .high

/-- Adds a file that configures a platform. -/
def insert (name path : String) : List PlatformUse → List PlatformUse
  | [] => [⟨name, [path], false⟩]
  | u :: rest =>
    if u.name = name then { u with configs := u.configs ++ [path] } :: rest
    else u :: insert name path rest

/-- The platforms that files configure, in the order of their first files. -/
def configured (paths : List String) : List PlatformUse :=
  paths.foldl (fun found path =>
    match Platform.byConfig.lookup (Path.fileName path) with
    | some name => insert name path found
    | none => found) []

/-- The files whose names start with a text. -/
def filesStarting (start : String) (paths : List String) : List String :=
  paths.filter fun path => start.toList.isPrefixOf (Path.fileName path).toList

/-- The platforms that framework configurations imply. -/
def implied (paths : List String) : List PlatformUse :=
  (Platform.byFramework.map fun (start, name) => ⟨name, filesStarting start paths, true⟩).filter
    fun u => !u.configs.isEmpty

/-- The platforms of a repository. They are inferred only if none is configured. -/
def ofPaths (paths : List String) : List PlatformUse :=
  let found := configured paths
  if found.isEmpty then implied paths else found

end PlatformUse

/-- The app that a file belongs to: the one rooted in its directory, or the deepest one above. -/
def nearestApp? (apps : Apps) (path : String) : Option String :=
  (apps.rootedAt? (Path.parent path)).or (apps.owner? path)

/-- The apps that a configuration deploys: all of them from the root, otherwise the nearest. -/
def deployedApps (apps : Apps) (config : String) : List String :=
  if Path.parent config = "" then apps.ids else (nearestApp? apps config).toList

/-- The edge of an app that is deployed to a platform, cited by the first line of the
configuration that is not blank. -/
def deploymentEdge (repo : String) (u : PlatformUse) (config : String) (content : Option String)
    (app : String) : Findings :=
  let edge := Edge.make .deploysTo app (.node (u.id repo)) "" .plain u.confidence
  let citation : Citation :=
    { kind := .deploymentConfig, nodeId := u.id repo, edgeId := some edge.id
      filePath := some config, confidence := u.confidence }
  let line := content.bind fun text =>
    Text.findLine? (fun line => !Text.allBlank line) text.toList
  .citedEdge edge (citation.atLine line (Path.fileName config).toList)

/-- A platform with the apps that are deployed to it. -/
def platformFindings (p : Project) (r : Repository) (apps : Apps) (envVars : List String)
    (u : PlatformUse) : Findings :=
  let repo := r.nodeId
  let node : Node :=
    { id := u.id repo, label := u.name, owningRepo := some repo
      detail := .deployment {
        platform := u.name
        configFile := if u.inferred then none else u.configs.head?
        inferred := u.inferred
        envVars } }
  .node node ++
    .concat (u.configs.map fun config =>
      .concat ((deployedApps apps config).map
        (deploymentEdge repo u config (p.content? r config))))

/-! ## Environment variables -/

/-- Whether environment variables are looked for in a file. -/
def readsEnvironment (path : String) : Bool :=
  let name := Path.fileName path
  let startsWith (start : String) : Bool := start.toList.isPrefixOf name.toList
  startsWith ".env" || startsWith "env." || (Platform.byConfig.lookup name).isSome ||
    Platform.frameworkConfigs.any startsWith ||
    (Path.names path).dropLast.any Platform.configDirs.contains

/-- The environment variables that a file mentions: the assigned ones in an environment file, the
referenced ones elsewhere. -/
def variablesIn (path : String) (content : Chars) : List String :=
  if ".env".toList.isPrefixOf (Path.fileName path).toList then
    (Text.lines content).filterMap fun line =>
      (Pattern.envAssignment.first? line).map fun m => m.text 1
  else
    (Pattern.secretEnv.all content ++ Pattern.publicEnv.all content).map fun m => m.text 1

/-- An environment variable with the first file that mentions it. -/
structure VariableUse where
  name : String
  path : String
deriving DecidableEq, Repr

/-- The environment variables of a repository, sorted by name. -/
def variableUses (p : Project) (r : Repository) : List VariableUse :=
  let mentions := (r.paths.filter readsEnvironment).flatMap fun path =>
    match p.content? r path with
    | some text => (variablesIn path text.toList).map fun name => (name, path)
    | none => []
  (Text.sortedSet (mentions.map (·.1))).filterMap fun name =>
    (mentions.lookup name).map fun path => ⟨name, path⟩

/-! ## Services -/

/-- A service that environment variables imply. Its edge cites each of them. -/
def variableServiceFindings (source : String) (service : Service) (uses : List VariableUse) :
    Findings :=
  let node := service.node none
  let edge :=
    Edge.make .callsExternal source (.node node.id) "env" (.envVar (uses.map (·.name))) .high
  let citations := uses.map fun use =>
    Citation.evidence
      { kind := .envVar, nodeId := source, edgeId := some edge.id, filePath := some use.path
        excerpt := lineExcerpt use.name.toList }
  { nodes := [node], edges := [citations.foldl (fun e c => e.cite c.id) edge]
    evidence := citations }

/-- The services that environment variables imply, by their short names. -/
def variableServices (source : String) (uses : List VariableUse) : Findings :=
  let slugs := Text.sortedSet
    (uses.filterMap fun use => (Service.ofVariable? use.name).map (·.slug))
  .concat (slugs.map fun slug =>
    match Service.ofSlug? slug with
    | some service =>
      variableServiceFindings source service
        (uses.filter fun use => (Service.ofVariable? use.name).any (·.slug == slug))
    | none => .empty)

/-- The services whose client packages a manifest depends on. -/
def packageServices (path content : String) : Findings :=
  let names := (PackageManifest.dependencyNames? content).getD []
  .concat (Service.byClientPackage.map fun (start, slug) =>
    match names.find? (fun name => start.toList.isPrefixOf name.toList), Service.ofSlug? slug with
    | some package, some service =>
      let node := service.node none
      let citation : Citation :=
        { kind := .packageDependency, nodeId := node.id, filePath := some path }
      let quoted := Text.contains ("\"" ++ package ++ "\"").toList
      .node node ++
        .citation (citation.atLine (Text.findLine? quoted content.toList) package.toList)
    | _, _ => .empty)

/-! ## Scheduled requests -/

/-- The worker of a scheduled request: the endpoint that it calls, the platform that it runs on,
and the app that holds it. -/
def cronFindings (repo : String) (apps : Apps) (endpoints : Route.Index) (u : PlatformUse)
    (config content : String) (cron : Cron) : Findings :=
  let route := Route.normalize cron.path
  let worker := Id.worker repo route (cron.schedule.getD "")
  let node : Node :=
    { id := worker, label := "cron " ++ route, owningRepo := some repo
      detail := .worker ⟨cron.schedule, route, config⟩ }
  let cited (e : Edge) : Findings :=
    let citation : Citation :=
      { kind := .deploymentConfig, nodeId := worker, edgeId := some e.id, filePath := some config }
    .citedEdge e (citation.atLine
      (Text.findLine? (Text.contains cron.path.toList) content.toList) cron.path.toList)
  let target := match endpoints.resolve? route (some .get) (some repo) with
    | some endpoint => Target.node endpoint
    | none => .pending route
  let owner :=
    if Path.parent config = "" then apps.rootedAt? "" else nearestApp? apps config
  .node node ++ cited (Edge.make .calls worker target "cron" (.cron cron.schedule) .high) ++
    cited (Edge.make .deploysTo worker (.node (u.id repo)) "" .plain .high) ++
    .concat (owner.toList.map fun app => .edge (Edge.containment app worker))

/-- The scheduled requests of a platform's configurations. -/
def scheduled (p : Project) (r : Repository) (apps : Apps) (endpoints : Route.Index)
    (u : PlatformUse) : Findings :=
  .concat (u.configs.map fun config =>
    match p.content? r config with
    | none => .empty
    | some content =>
      match Cron.listOfText? content with
      | some crons => .concat (crons.map (cronFindings r.nodeId apps endpoints u config content))
      | none => malformed config "vercel.json")

/-! ## Repositories -/

/-- The deployments of a repository. Services that variables imply are used by the first platform,
or else by the first app, or else by the repository. -/
def deploymentOf (p : Project) (g : Graph) (endpoints : Route.Index) (r : Repository) : Findings :=
  let repo := r.nodeId
  let apps := Apps.ofGraph g repo
  let platforms := PlatformUse.ofPaths r.paths
  let uses := variableUses p r
  let source := ((platforms.head?.map (PlatformUse.id repo)).or apps.ids.head?).getD repo
  let manifests := (r.paths.filter (Path.fileName · = "package.json")).filterMap fun path =>
    (p.content? r path).map fun content => packageServices path content
  let vercel := platforms.find? fun u => u.name = "Vercel" && !u.inferred
  .concat (platforms.map (platformFindings p r apps (uses.map (·.name)))) ++
    variableServices source uses ++ .concat manifests ++
    .concat (vercel.toList.map (scheduled p r apps endpoints))

/-- The deployments of a project. -/
def deployment (p : Project) (g : Graph) : Findings :=
  let endpoints := Route.Index.ofNodes (g.nodesOf .endpoint)
  .concat (p.repositories.map (deploymentOf p g endpoints))

end ArchGraph.Discovery
