import ArchGraph.Graph.Id
import ArchGraph.Json.Basic
/-!
# The corpus

What is analysed: repositories with the files they list, and the contents of files that were
fetched. A content is kept under its path, or under its path behind the repository's identifier
and a colon; the qualified key comes first.
-/

namespace ArchGraph

/-- A file that a repository lists. -/
structure SourceFile where
  path     : String
  sha      : String
  language : Option String
deriving DecidableEq, Repr

/-- A repository. -/
structure Repository where
  id            : String
  owner         : String
  name          : String
  provider      : String
  defaultBranch : String
  files         : List SourceFile
deriving DecidableEq, Repr

/-- Texts by key, each key at most once. -/
structure Contents where
  entries : List (String × String)
deriving DecidableEq, Repr

namespace Contents

/-- No texts. -/
def empty : Contents := ⟨[]⟩

/-- The text under a key. -/
def get? (c : Contents) (key : String) : Option String := c.entries.lookup key

/-- The keys that hold a text. -/
def keys (c : Contents) : List String := c.entries.map (·.1)

/-- Puts a text under a key, in the place of the text that was there. -/
def insert (c : Contents) (key text : String) : Contents :=
  if c.entries.any (·.1 == key) then
    ⟨c.entries.map fun entry => if entry.1 = key then (key, text) else entry⟩
  else ⟨c.entries ++ [(key, text)]⟩

/-- Texts by key, of which later ones replace earlier ones. -/
def ofList (entries : List (String × String)) : Contents :=
  entries.foldl (fun c entry => c.insert entry.1 entry.2) empty

end Contents

/-- Everything that is analysed together. -/
structure Project where
  id           : String
  repositories : List Repository
  contents     : Contents
deriving DecidableEq, Repr

namespace Repository

/-- The paths of a repository's files, as listed. -/
def paths (r : Repository) : List String := r.files.map (·.path)

/-- Whether a repository lists a path. -/
def hasFile (r : Repository) (path : String) : Bool := r.files.any (·.path == path)

/-- The identifier of a repository's node. -/
def nodeId (r : Repository) : String := Id.repo r.id

/-- A repository on GitHub that lists paths of unknown content. -/
def ofPaths (id owner name : String) (paths : List String) : Repository :=
  ⟨id, owner, name, "github", "main", paths.map fun path => ⟨path, "", none⟩⟩

/-- The key of a content that belongs to this repository only. -/
def qualifiedKey (r : Repository) (path : String) : String := r.id ++ ":" ++ path

end Repository

namespace Project

/-- A project without repositories. -/
def empty (id : String) : Project := ⟨id, [], .empty⟩

/-- The content of a file of a repository, if it was fetched. -/
def content? (p : Project) (r : Repository) (path : String) : Option String :=
  (p.contents.get? (r.qualifiedKey path)).or (p.contents.get? path)

end Project

/-! ## Written form -/

namespace SourceFile

/-- The written form of a file. -/
def toJson (f : SourceFile) : Json :=
  Json.ofMembers
    [("path", Json.str f.path), ("sha", Json.str f.sha), ("language", f.language.map Json.str)]

/-- The file with a written form. -/
def ofJson? (j : Json) : Option SourceFile :=
  match j.record? ["path", "sha", "language"] false with
  | some [path, sha, language] => do
    return ⟨← Json.required? Json.str? path, ← Json.required? Json.str? sha,
      ← Json.optional? Json.str? language⟩
  | _ => none

end SourceFile

namespace Repository

/-- The written form of a repository. -/
def toJson (r : Repository) : Json :=
  Json.obj
    [("id", Json.str r.id), ("owner", Json.str r.owner), ("name", Json.str r.name),
     ("provider", Json.str r.provider), ("defaultBranch", Json.str r.defaultBranch),
     ("files", Json.arr (r.files.map SourceFile.toJson))]

/-- The repository with a written form. -/
def ofJson? (j : Json) : Option Repository :=
  match j.record? ["id", "owner", "name", "provider", "defaultBranch", "files"] true with
  | some [id, owner, name, provider, branch, files] => do
    return ⟨← Json.required? Json.str? id, ← Json.required? Json.str? owner,
      ← Json.required? Json.str? name, ← Json.required? Json.str? provider,
      ← Json.required? Json.str? branch, ← Json.required? (Json.list? SourceFile.ofJson?) files⟩
  | _ => none

end Repository

namespace Contents

/-- The written form of texts by key. -/
def toJson (c : Contents) : Json :=
  Json.obj (c.entries.map fun entry => (entry.1, Json.str entry.2))

/-- The texts with a written form. -/
def ofJson? : Json → Option Contents
  | .obj members =>
    (members.mapM fun (m : String × Json) => m.2.str?.map fun text => (m.1, text)).map ofList
  | _ => none

end Contents

namespace Project

/-- The written form of a project. -/
def toJson (p : Project) : Json :=
  Json.obj
    [("projectId", Json.str p.id),
     ("repositories", Json.arr (p.repositories.map Repository.toJson)),
     ("contents", p.contents.toJson)]

/-- The project with a written form. -/
def ofJson? (j : Json) : Option Project :=
  match j.record? ["projectId", "repositories", "contents"] true with
  | some [id, repositories, contents] => do
    return ⟨← Json.required? Json.str? id,
      ← Json.required? (Json.list? Repository.ofJson?) repositories,
      ← Json.required? Contents.ofJson? contents⟩
  | _ => none

end Project
end ArchGraph
