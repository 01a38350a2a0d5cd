import ArchGraph.Corpus.Basic
import ArchGraph.Discovery.Site
import ArchGraph.Graph.Apps
import ArchGraph.Route.Convention
import ArchGraph.Route.Index
import ArchGraph.Settings.Basic
/-!
# Discovering screens

The pages of the repositories, the endpoints that they call and the pages that they lead to. A
call points at a path until it is known which endpoint serves it; a link counts only if it leads
to another page of its repository.
-/

namespace ArchGraph.Discovery

open Text (Chars)

/-! ## Layouts -/

/-- Extensions of layouts. -/
def layoutExtensions : List String := ["tsx", "jsx", "ts", "js"]

/-- The names that a layout can have. -/
def layoutNames : RouterKind → List String
  | .svelteKit => ["+layout.svelte"]
  | .appRouter => layoutExtensions.map ("layout." ++ ·)
  | .pagesRouter => layoutExtensions.map ("_app." ++ ·)

/-- The first of the names that is a listed file in a directory. -/
def fileIn? (files names : List String) (dir : String) : Option String :=
  (names.map fun name => dir ++ "/" ++ name).find? files.contains

/-- The file with one of the names in the deepest directory, from the one whose names are given
last to first up to `root`. -/
def nearestFile? (files names : List String) (root : String) : List String → Option String
  | [] => fileIn? files names ""
  | last :: above =>
    let dir := Path.ofNames (last :: above).reverse
    match fileIn? files names dir with
    | some file => some file
    | none => if dir = root || dir = "" then none else nearestFile? files names root above

/-- The layout of a page: the nearest one above it, or the one of the whole pages router. -/
def layout? (files : List String) (path : String) (screen : Route.ScreenFile) : Option String :=
  let names := layoutNames screen.router
  if screen.router = .pagesRouter then fileIn? files names screen.routerDir
  else nearestFile? files names screen.routerDir (Path.names path).dropLast.reverse

/-! ## Pages -/

/-- The node of a page. -/
def screenNode (repo : String) (files : List String) (path : String) (screen : Route.ScreenFile) :
    Node where
  id := Id.screen repo screen.route
  label := screen.route
  owningRepo := some repo
  detail := .screen {
    route := screen.route
    filePath := path
    isDynamic := Route.isDynamic screen.route
    feature := Route.featureTag? screen.route
    layout := layout? files path screen
    router := screen.router }

/-- The line that stands for a page: the one with its default export, or the first one that is not
blank. -/
def pageAnchor? (content : Chars) : Option (UInt32 × Chars) :=
  match Text.findLine? (Text.contains "export default".toList) content with
  | some line => some line
  | none => Text.findLine? (fun line => !Text.allBlank line) content

/-- A call of a path. -/
def callAt (s : Site) (path : String) (method : HttpMethod) (confidence : Confidence)
    (client : String) : Findings :=
  s.citedEdge .fetchCall
    (Edge.make .calls s.nodeId (.pending path) method.name (.httpCall method path client)
      confidence)

/-- The fetches on a line. The method is looked for among the options: up to the end of the
statement or the next fetch. -/
def fetchesAt (lines : List Chars) (lookahead : UInt64) (s : Site) : Findings :=
  .concat ((Pattern.fetch.all s.line).map fun m =>
    let rest := s.ahead m.stop lines lookahead lines.length
    let options := Text.before "fetch(".toList (rest.takeWhile (· != ';'))
    let method := (Pattern.fetchMethod.first? options).bind fun o => HttpMethod.parse? (o.text 1)
    callAt s (Route.normalize (m.text 1)) (method.getD .get)
      (if method.isSome then .high else .medium) "fetch")

/-- Whether looking ahead from a fetch on a line overflows. -/
def fetchesOverflow (lookahead : UInt64) (s : Site) : Bool :=
  !(Pattern.fetch.all s.line).isEmpty && s.overflows lookahead

/-- The other calls on a line: of clients with one function a method, and of edge functions. -/
def clientCallsAt (s : Site) : Findings :=
  .concat ((Pattern.axios.all s.line).map fun m =>
    match HttpMethod.parse? (m.text 1) with
    | some method => callAt s (Route.normalize (m.text 2)) method .high "axios"
    | none => .empty) ++
  .concat ((Pattern.functionsInvoke.all s.line).map fun m =>
    callAt s ("/functions/v1/" ++ m.text 1) .post .medium "supabase")

/-- A link to a path, if another page of the repository serves it. -/
def linkAt (screens : Route.Index) (repo : String) (s : Site) (raw via : String) : Findings :=
  let path := Route.normalize raw
  if "/api/".toList.isPrefixOf path.toList then .empty
  else match screens.resolveIn? path repo with
    | some target =>
      if target = s.nodeId then .empty
      else
        s.citedEdge .componentUsage
          (Edge.make .navigatesTo s.nodeId (.node target) "" (.navigation path via) .high)
    | none => .empty

/-- The links on a line. -/
def linksAt (screens : Route.Index) (repo : String) (s : Site) : Findings :=
  let link := linkAt screens repo s
  let via := if Text.contains "<Link".toList s.line then "link" else "href"
  .concat ((Pattern.linkHref.all s.line).map fun m => link (m.text 1) via) ++
    .concat ((Pattern.routerNav.all s.line).map fun m => link (m.text 2) ("router." ++ m.text 1)) ++
    .concat ((Pattern.redirect.all s.line).map fun m => link (m.text 2) (m.text 1)) ++
    .concat ((Pattern.navigate.all s.line).map fun m => link (m.text 2) (m.text 1))

/-- The use of a backend client on a line of a page is cited only. -/
def clientUseAt (s : Site) : Findings :=
  let uses := [Pattern.storageFrom, Pattern.tableFrom, Pattern.rpc, Pattern.authCall]
  if uses.any (·.occursIn s.line) then .citation (s.citation .backendClientCall) else .empty

/-- A page: its node and citation, its place in an app, and what its lines show. -/
def pageFindings (settings : AnalysisSettings) (apps : Apps) (screens : Route.Index) (repo : String)
    (content : Option String) (path : String) (screen : Node) : Findings :=
  let text := content.map String.toList
  let citation : Citation := { kind := .pageComponent, nodeId := screen.id, filePath := some path }
  let lines := (text.map Text.lines).getD []
  .citation (citation.atLine (text.bind pageAnchor?) path.toList) ++ .node screen ++
    .concat ((apps.owner? path).toList.map fun app => .edge (Edge.containment app screen.id)) ++
    .concat ((Site.ofLines screen.id path lines).map fun s =>
      fetchesAt lines settings.fetchMethodLookahead s ++ clientCallsAt s ++
        linksAt screens repo s ++ clientUseAt s)

/-- The pages of a repository. All of them are known before any is read, so that a link can lead
to a page that is listed later. -/
def screensOf (settings : AnalysisSettings) (p : Project) (g : Graph) (r : Repository) : Findings :=
  let repo := r.nodeId
  let files := r.paths
  let nodes := files.filterMap fun path =>
    (Route.screen? path).map fun screen => (path, screenNode repo files path screen)
  let index := Route.Index.ofNodes (nodes.map (·.2))
  let apps := Apps.ofGraph g repo
  .concat (nodes.map fun (path, node) =>
    pageFindings settings apps index repo (p.content? r path) path node)

/-- Whether looking ahead overflows on a line of a page. -/
def screensOverflow (settings : AnalysisSettings) (p : Project) : Bool :=
  p.repositories.any fun r =>
    (r.paths.filter fun path => (Route.screen? path).isSome).any fun path =>
      let lines := ((p.content? r path).map fun text => Text.lines text.toList).getD []
      (Site.ofLines "" path lines).any (fetchesOverflow settings.fetchMethodLookahead)

/-- The pages of a project. -/
def screens (settings : AnalysisSettings) (p : Project) (g : Graph) : Findings :=
  .concat (p.repositories.map (screensOf settings p g))

end ArchGraph.Discovery
