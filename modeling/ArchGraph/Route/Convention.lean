import ArchGraph.Graph.Kind
import ArchGraph.Route.Basic
/-!
# Routing conventions

Which files serve a route, by where they lie and how they are called: pages and handlers below
an app directory, a pages directory or the routes of a SvelteKit project, and edge functions of a
Supabase project. A router directory counts only where a project can have one: at the top of the
repository or of a workspace member, perhaps inside `src`.
-/

namespace ArchGraph.Route

/-- A file that serves a page. -/
structure ScreenFile where
  route     : String
  router    : RouterKind
  /-- The directory in which the router's routes start. -/
  routerDir : String
deriving DecidableEq, Repr

/-- A file that serves requests. -/
structure HandlerFile where
  route   : String
  handler : HandlerKind
deriving DecidableEq, Repr

/-- Extensions of pages. -/
def pageExtensions : List String := ["tsx", "jsx", "ts", "js", "mdx"]

/-- Extensions of handlers. -/
def handlerExtensions : List String := ["ts", "js", "tsx", "jsx", "mjs"]

/-- Directories whose members are projects of their own. -/
def workspaceDirs : List String := ["apps", "packages", "services"]

/-- Top-level directories that never hold a router. -/
def nonRouteDirs : List String :=
  ["components", "lib", "utils", "hooks", "styles", "public", "test", "tests", "__tests__",
   "node_modules"]

/-- Whether a project can start in a directory, given by its names. A last `src` is passed over. -/
def isProjectRoot (dirs : List String) : Bool :=
  match if dirs.getLast? = some "src" then dirs.dropLast else dirs with
  | [] => true
  | [single] => !nonRouteDirs.contains single
  | [workspace, _] => workspaceDirs.contains workspace
  | _ => false

/-- Cuts directories at the first one called `dir` that lies in a project root, into those before
and those behind it. -/
def splitAtRouter? (dir : String) (front : List String) :
    List String → Option (List String × List String)
  | [] => none
  | name :: rest =>
    if name = dir ∧ isProjectRoot front then some (front, rest)
    else splitAtRouter? dir (front ++ [name]) rest

/-- Whether a segment groups routes without being part of them. -/
def isGroup (segment : String) : Bool := startsWith '(' segment && endsWith ')' segment

/-- The route of segments, without groups and parallel slots. -/
def ofSegments (segments : List String) : String :=
  "/" ++ "/".intercalate (segments.filter fun s => !isGroup s && !startsWith '@' s)

/-- The segments of a page of the pages router: its directories and, unless it is an index, its
own name. -/
def pageSegments (dirs : List String) (stem : String) : List String :=
  if stem = "index" then dirs else dirs ++ [stem]

/-- What a path says about the file: its directories, its name, and the name's stem and
extension. -/
structure FileName where
  dirs      : List String
  name      : String
  stem      : String
  extension : String

/-- A path taken apart. -/
def FileName.ofPath (path : String) : FileName :=
  let names := Path.names path
  let name := names.getLastD ""
  let (stem, extension) := Path.splitExtension name
  ⟨names.dropLast, name, stem, extension⟩

/-- The routes directory of a SvelteKit project: it lies in `src`. -/
def splitAtSvelteKit? (dirs : List String) : Option (List String × List String) :=
  (splitAtRouter? "routes" [] dirs).filter fun (front, _) => front.getLast? = some "src"

/-- The page that a file serves. -/
def screen? (path : String) : Option ScreenFile :=
  let file := FileName.ofPath path
  if file.name = "+page.svelte" then
    (splitAtSvelteKit? file.dirs).map fun (front, rest) =>
      ⟨ofSegments rest, .svelteKit, Path.ofNames (front ++ ["routes"])⟩
  else if !pageExtensions.contains file.extension then none
  else
    match if file.stem = "page" then splitAtRouter? "app" [] file.dirs else none with
    | some (front, rest) =>
      if rest.any (startsWith '_') then none
      else some ⟨ofSegments rest, .appRouter, Path.ofNames (front ++ ["app"])⟩
    | none =>
      match splitAtRouter? "pages" [] file.dirs with
      | some (front, rest) =>
        if rest.head? = some "api" || startsWith '_' file.stem then none
        else
          some ⟨ofSegments (pageSegments rest file.stem), .pagesRouter,
            Path.ofNames (front ++ ["pages"])⟩
      | none => none

/-- The name of the edge function in whose directory a file lies. -/
def edgeFunction? (dirs : List String) : Option String :=
  match dirs.reverse with
  | name :: "functions" :: "supabase" :: front =>
    if isProjectRoot front.reverse ∧ !startsWith '_' name then some name else none
  | _ => none

/-- The requests that a file serves. -/
def handler? (path : String) : Option HandlerFile :=
  let file := FileName.ofPath path
  if !handlerExtensions.contains file.extension then none
  else
    match if file.stem = "index" then edgeFunction? file.dirs else none with
    | some name => some ⟨"/functions/v1/" ++ name, .edgeFunction⟩
    | none =>
      if file.stem = "+server" then
        (splitAtSvelteKit? file.dirs).map fun (_, rest) => ⟨ofSegments rest, .svelteKitServer⟩
      else
        match if file.stem = "route" then splitAtRouter? "app" [] file.dirs else none with
        | some (_, rest) =>
          if rest.any (startsWith '_') then none else some ⟨ofSegments rest, .routeHandler⟩
        | none =>
          match splitAtRouter? "pages" [] file.dirs with
          | some (_, rest) =>
            if rest.head? ≠ some "api" || startsWith '_' file.stem then none
            else some ⟨ofSegments (pageSegments rest file.stem), .pagesApi⟩
          | none => none

end ArchGraph.Route
