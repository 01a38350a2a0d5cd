import ArchGraph.Catalog.Framework
import ArchGraph.Catalog.Language
import ArchGraph.Corpus.Basic
import ArchGraph.Graph.Findings
import ArchGraph.Manifest.Cargo
import ArchGraph.Manifest.Glob
import ArchGraph.Manifest.Package
import ArchGraph.Manifest.Workspace
/-!
# Taking the inventory

The repositories with their frameworks and their languages, the apps and libraries that their
manifests declare, and the notable packages that they depend on.
-/

namespace ArchGraph.Discovery

open Text (Chars)

/-! ## Manifests -/

/-- A listed file of a known name with what was read of it, if it is well formed. -/
structure Reading (α : Type) where
  path    : String
  content : String
  value   : Option α

/-- What is read of the listed files of a name whose content is known. -/
def readings {α : Type} (p : Project) (r : Repository) (name : String) (read : String → Option α) :
    List (Reading α) :=
  (r.paths.filter (Path.fileName · = name)).filterMap fun path =>
    (p.content? r path).map fun content => ⟨path, content, read content⟩

/-- The warning about a file that cannot be read. What the reader says about the mistake, with which
the warning goes on, is left out. -/
def malformed (place name : String) : Findings := .warning (place ++ ": malformed " ++ name)

/-- The warnings about the files of a name that cannot be read. -/
def malformedReadings {α : Type} (name : String) (rs : List (Reading α)) : Findings :=
  .concat ((rs.filter (·.value.isNone)).map fun r => malformed r.path name)

/-- A package manifest of a repository. -/
structure Manifest where
  path    : String
  content : String
  package : PackageManifest
deriving DecidableEq, Repr

namespace Manifest

/-- The directory of a manifest, empty at the root. -/
def dir (m : Manifest) : String := Path.parent m.path

/-- The manifest that was read, if it is well formed. -/
def ofReading? (r : Reading PackageManifest) : Option Manifest :=
  r.value.map fun package => ⟨r.path, r.content, package⟩

/-- The name of the package, or else of its directory. -/
def label (m : Manifest) : String := m.package.name.getD (Path.fileName m.dir)

/-- Whether the manifest lies in one of the directories of libraries. -/
def isLibrary (m : Manifest) : Bool :=
  Workspace.libraryDirs.any fun dir => (dir ++ "/").toList.isPrefixOf m.dir.toList

end Manifest

/-- What the dependency lists of crates name, with the directories of their manifests. -/
abbrev Crates := List (String × List String)

/-! ## Frameworks and languages -/

/-- The frameworks below a directory: those that files mark, or else those that manifests depend
on. -/
def frameworks (paths : List String) (manifests : List Manifest) (crates : Crates)
    (scope : String) : List String :=
  let names := (paths.filter (Path.isUnder · scope)).map Path.fileName
  let marked := Framework.byMarker.filter fun entry =>
    names.any fun name => entry.1.toList.isPrefixOf name.toList
  let packages := manifests.filter (Path.isUnder ·.path scope)
  let crates := crates.filter fun crate => scope.toList.isPrefixOf crate.1.toList
  let declared := Framework.byDependency.filter fun entry =>
    packages.any (·.package.dependsOn entry.1) || crates.any (·.2.contains entry.1)
  ((if marked.isEmpty then declared else marked).map (·.2)).eraseDups

/-- The language of a listed file, as listed or by its name. -/
def fileLanguage? (f : SourceFile) : Option String := f.language.or (Language.ofPath? f.path)

/-- The first item with the greatest count. -/
def mostFrequent? (count : String → Nat) : List String → Option String
  | [] => none
  | s :: rest =>
    match mostFrequent? count rest with
    | none => some s
    | some other => if count s < count other then some other else some s

/-- The language of most files below a directory, the alphabetically first one of several. -/
def dominantLanguage? (r : Repository) (scope : String) : Option String :=
  let languages := ((r.files.filter (Path.isUnder ·.path scope)).filterMap fileLanguage?).filter
    fun language => !Language.nonCode.contains language
  mostFrequent? (fun language => languages.count language) (Text.sortedSet languages)

/-! ## The layout of a workspace -/

/-- The globs that a workspace file lists, and the warning if it cannot be read. -/
def workspaceFile (p : Project) (r : Repository) : List String × Findings :=
  match p.content? r "pnpm-workspace.yaml" with
  | none => ([], .empty)
  | some text =>
    match Workspace.globs? text with
    | some globs => (globs, .empty)
    | none => ([], malformed r.name "pnpm-workspace.yaml")

/-- The tool of a monorepo: the one that a file marks, or the declaration of the root's manifest. -/
def workspaceTool? (r : Repository) (declared : List String) : Option String :=
  ((Workspace.byMarker.find? fun entry => r.hasFile entry.1).map (·.2)).or
    (if declared.isEmpty then none else some "workspaces")

/-- The manifests below the root that one of the globs accepts. -/
def workspaceMembers (manifests : List Manifest) (globs : List String) : List Manifest :=
  let globs := if globs.isEmpty then Workspace.defaultGlobs else globs
  manifests.filter fun m => m.dir ≠ "" && globs.any (Glob.accepts · m.dir)

/-! ## Nodes -/

/-- An app of a repository. -/
def appFindings (repo label : String) (detail : AppDetail) : Findings :=
  let node : Node :=
    { id := Id.app repo detail.root, label, owningRepo := some repo, detail := .app detail }
  .node node ++ .edge (Edge.containment repo node.id)

/-- A library of a workspace. -/
def libraryFindings (repo : String) (m : Manifest) : Findings :=
  let name := m.label
  let node : Node :=
    { id := Id.package "workspace" name, label := name, owningRepo := some repo
      detail := .package ⟨name, m.package.version, "workspace"⟩ }
  .node node ++ .edge (Edge.containment repo node.id)

/-- A package that a manifest depends on, cited by the line that names it. -/
def dependencyFindings (repo : String) (m : Manifest) (d : Dependency) : Findings :=
  let node : Node :=
    { id := Id.package "npm" d.name, label := d.name, owningRepo := none
      detail := .package ⟨d.name, d.version, "npm"⟩ }
  let edge := Edge.make .dependsOn repo (.node node.id) "" (.dependency d.version) .high
  let citation : Citation :=
    { kind := .packageDependency, nodeId := node.id, edgeId := some edge.id
      filePath := some m.path }
  let quoted := Text.contains ("\"" ++ d.name ++ "\"").toList
  .node node ++
    .citedEdge edge (citation.atLine (Text.findLine? quoted m.content.toList)
      (d.name ++ ": " ++ d.version.getD "*").toList)

/-- The notable packages that a manifest depends on. -/
def notableFindings (repo : String) (m : Manifest) : Findings :=
  .concat ((m.package.allDependencies.filter fun d =>
    Workspace.notablePackages.contains d.name).map (dependencyFindings repo m))

/-! ## Repositories -/

/-- The inventory of a repository. A repository without apps is one app. -/
def inventoryOf (p : Project) (r : Repository) : Findings :=
  let repo := r.nodeId
  let packages := readings p r "package.json" PackageManifest.ofText?
  let crates := readings p r "Cargo.toml" Cargo.dependencyNames?
  let manifests := packages.filterMap Manifest.ofReading?
  let crateNames : Crates :=
    crates.filterMap fun c => c.value.map fun names => (Path.parent c.path, names)
  let root := manifests.find? (·.dir = "")
  let declared := (root.map (·.package.workspaces)).getD []
  let (listed, fileWarning) := workspaceFile p r
  let tool := workspaceTool? r declared
  let members := workspaceMembers manifests (listed ++ declared)
  let libraries := members.filter (·.isLibrary)
  let apps := members.filter (!·.isLibrary)
  let frameworksIn := frameworks r.paths manifests crateNames
  let node : Node :=
    { id := repo, label := r.owner ++ "/" ++ r.name, owningRepo := none
      detail := .repo {
        owner := r.owner
        name := r.name
        provider := r.provider
        defaultBranch := r.defaultBranch
        frameworks := frameworksIn ""
        language := dominantLanguage? r ""
        monorepo := tool.isSome || !members.isEmpty
        monorepoTool := tool } }
  let app (root label : String) (framework : Option String) :=
    appFindings repo label ⟨root, framework, dominantLanguage? r root⟩
  let appNodes :=
    if apps.isEmpty then
      app "." ((root.bind (·.package.name)).getD r.name) (frameworksIn "").head?
    else .concat (apps.map fun m => app m.dir m.label (frameworksIn m.dir).head?)
  malformedReadings "package.json" packages ++ malformedReadings "Cargo.toml" crates ++
    fileWarning ++ .node node ++ appNodes ++ .concat (libraries.map (libraryFindings repo)) ++
    .concat (manifests.map (notableFindings repo))

/-- The inventory of a project. -/
def inventory (p : Project) : Findings := .concat (p.repositories.map (inventoryOf p))

end ArchGraph.Discovery
