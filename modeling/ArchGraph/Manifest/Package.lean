import ArchGraph.Json.Parser
import ArchGraph.Text.Sorted
/-!
# Package manifests

The manifest of a package: its name, its version, what it depends on, and the globs of the
workspace that it is the root of. A manifest is read strictly: a field of a wrong type, a field
that is written twice or a value that cannot be kept makes it malformed. Fields that are not
listed here only have to be well formed. Main statement: the names of what a manifest depends on
are sorted and distinct because they are a sorted set.
-/

namespace ArchGraph

/-- Something that a package depends on, with the versions it asks for. -/
structure Dependency where
  name    : String
  version : Option String
deriving DecidableEq, Repr

/-- The manifest of a package. -/
structure PackageManifest where
  name            : Option String
  version         : Option String
  dependencies    : List Dependency
  devDependencies : List Dependency
  /-- The globs of the members of a workspace. -/
  workspaces      : List String
deriving DecidableEq, Repr

namespace Dependency

/-- How many containers may nest inside the entry of a dependency. -/
def depthLimit : Nat := 125

/-- What an object lists, sorted by name; of repeated names the last one counts. Anything but a
string asks for no particular version. -/
def ofMembers (members : List (String × Json)) : List Dependency :=
  (Text.sortedSet (members.map (·.1))).map fun name =>
    ⟨name, ((Json.obj members).get? name).bind Json.str?⟩

/-- The dependencies with a written form. -/
def ofJson? : Json → Option (List Dependency)
  | .obj members =>
    if Json.keepableMembers depthLimit members then some (ofMembers members) else none
  | _ => none

end Dependency

namespace PackageManifest

/-- How many containers may nest inside the declaration of a workspace. -/
def workspaceDepthLimit : Nat := 126

/-- The globs that a manifest declares: a list, or an object that holds one. -/
def workspacesOfJson? (j : Json) : Option (List String) :=
  if !j.keepable workspaceDepthLimit then none
  else match j with
    | .obj members =>
      match Json.objectFields? ["packages"] members with
      | some [packages] => Json.required? Json.strings? packages
      | _ => none
    | _ => j.strings?

/-- The manifest with a written form. Every field may be missing. -/
def ofJson? (j : Json) : Option PackageManifest :=
  match j.record? ["name", "version", "dependencies", "devDependencies", "workspaces"] false with
  | some [name, version, dependencies, devDependencies, workspaces] => do
    return {
      name := ← Json.optional? Json.str? name
      version := ← Json.optional? Json.str? version
      dependencies := ← Json.default? [] Dependency.ofJson? dependencies
      devDependencies := ← Json.default? [] Dependency.ofJson? devDependencies
      workspaces := (← Json.optional? workspacesOfJson? workspaces).getD [] }
  | _ => none

/-- The manifest that a text holds. -/
def ofText? (text : String) : Option PackageManifest := (Json.ofText? text).bind ofJson?

/-- The names of what a text says a package depends on. All other fields of the manifest are left
unread. -/
def dependencyNames? (text : String) : Option (List String) := do
  let j ← Json.ofText? text
  match j.record? ["dependencies", "devDependencies"] false with
  | some [dependencies, devDependencies] =>
    let runtime ← Json.default? [] Dependency.ofJson? dependencies
    let development ← Json.default? [] Dependency.ofJson? devDependencies
    return (runtime ++ development).map (·.name)
  | _ => none

/-- Everything that a package depends on. -/
def allDependencies (m : PackageManifest) : List Dependency := m.dependencies ++ m.devDependencies

/-- Whether a package depends on another one. -/
def dependsOn (m : PackageManifest) (name : String) : Bool :=
  m.allDependencies.any (·.name == name)

end PackageManifest

/-- An object's dependencies are named by its keys. -/
theorem Dependency.map_name_ofMembers (members : List (String × Json)) :
    (Dependency.ofMembers members).map (·.name) = Text.sortedSet (members.map (·.1)) := by
  simp [Dependency.ofMembers, Function.comp_def]

end ArchGraph
