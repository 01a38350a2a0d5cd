import ArchGraph.Files.Tree
import ArchGraph.Ignore.Rule
import ArchGraph.Path
/-!
# The surroundings of a program

What a program can see: a file tree, a working directory, the variables of its environment, and
what the platform tells: where it keeps the settings of users, and which rules version control
keeps for them. Paths are followed name by name. The empty name and `.` stay, `..` goes up, and
every other name needs an entry; each of them needs a directory to start in.
-/

namespace ArchGraph

/-- The surroundings of a program. -/
structure Host where
  root        : FileTree
  /-- The names that lead to the working directory. -/
  workingDir  : List String
  environment : List (String × String)
  /-- The directory for the settings of the user, if the platform names one. -/
  configDir   : Option String
  /-- The rules that version control keeps in a file tree for the user and for linked work trees. -/
  git         : FileTree → Ignore.GitRules

namespace Host

/-- The names that lead to where a name leads from a place. -/
def follow? (h : Host) (place : List String) (name : String) : Option (List String) :=
  match h.root.find? place with
  | some (.dir entries) =>
    if name = "" || name = "." then some place
    else if name = ".." then some place.dropLast
    else if (entries.lookup name).isSome then some (place ++ [name])
    else none
  | _ => none

/-- The names that lead to where a path leads. -/
def resolve? (h : Host) (path : String) : Option (List String) :=
  if path = "" then none
  else
    let start := if path.toList.head? = some '/' then [] else h.workingDir
    (Path.names path).foldlM h.follow? start

/-- What a path leads to. -/
def find? (h : Host) (path : String) : Option FileTree := (h.resolve? path).bind h.root.find?

/-- Writes a text to a file whose directory exists. -/
def write? (h : Host) (path text : String) : Option Host := do
  let names := Path.names path
  let name ← names.getLast?
  if ["", ".", ".."].contains name then none
  let parent := Path.ofNames (names.dropLast ++ ["."])
  let place ← h.resolve? parent
  match h.root.find? (place ++ [name]) with
  | some (.dir _) => none
  | _ => return { h with root := h.root.put (place ++ [name]) (.file text.toUTF8) }

end Host
end ArchGraph
