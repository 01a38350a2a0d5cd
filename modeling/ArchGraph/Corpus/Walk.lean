import ArchGraph.Files.Tree
import ArchGraph.Ignore.Rule
import ArchGraph.Path
/-!
# Walking a directory

The files below a directory that no ignore file takes away. The rules of a directory hold for
everything below it; of the directories above a file the deepest one whose rules select it decides.
Rules written for the version control system count only inside a work tree, and none beyond its
root; rules of the walker's own come before them, and the rules that version control keeps for the
user behind them.
-/

namespace ArchGraph.Corpus

open Ignore (Rule rulesOf verdict?)

/-- What is the same for all directories of a walk. -/
structure Walk where
  /-- The names of directories that are left out. -/
  excluded : List String
  /-- What the user's rules say about an entry, by the names that lead to it. -/
  user     : List String → Bool → Option Bool
  /-- The rules for the directory of a `.git` file. -/
  linked   : ByteArray → List Rule

/-- The rules of a directory. -/
structure Level where
  own     : List Rule
  git     : List Rule
  exclude : List Rule
  /-- Whether the directory is the root of a work tree. -/
  isRoot  : Bool
  /-- The names that lead from the directory to where the walk is. -/
  below   : List String

namespace Level

/-- The rules of a file among entries; a missing file has none. -/
def rulesIn (entries : List (String × FileTree)) (name : String) : List Rule :=
  (((entries.lookup name).bind FileTree.bytes?).map rulesOf).getD []

/-- The rules that a repository excludes by, where its `.git` is a directory or a file. -/
def excludeRules (w : Walk) : Option FileTree → List Rule
  | some (.file bytes) => w.linked bytes
  | git => rulesIn (((git.bind (·.child? "info")).map FileTree.entries).getD []) "exclude"

/-- The rules of a directory with some entries. -/
def ofEntries (w : Walk) (entries : List (String × FileTree)) : Level :=
  let git := entries.lookup ".git"
  { own := rulesIn entries ".ignore"
    git := rulesIn entries ".gitignore"
    exclude := excludeRules w git
    isRoot := git.isSome
    below := [] }

/-- The level as it is seen from a directory below. -/
def descend (name : String) (l : Level) : Level := { l with below := l.below ++ [name] }

/-- What rules of the level say about an entry of the directory where the walk is. -/
def judge? (rules : Level → List Rule) (name : String) (isDir : Bool) (l : Level) : Option Bool :=
  verdict? (rules l) (Path.ofNames (l.below ++ [name])).toList isDir

/-- The levels of the work tree, the deepest first: up to its root, or none outside of one. -/
def workTree : List Level → List Level
  | [] => []
  | l :: above =>
    if l.isRoot then [l]
    else match workTree above with
      | [] => []
      | tree => l :: tree

/-- Whether rules ignore an entry of the directory where the walk is. What the user's rules say
about it counts last, and only inside a work tree. -/
def ignores (user : Option Bool) (levels : List Level) (name : String) (isDir : Bool) : Bool :=
  let tree := workTree levels
  ((((levels.findSome? (judge? own name isDir)).or (tree.findSome? (judge? git name isDir))).or
    (tree.findSome? (judge? exclude name isDir))).or
      (if levels.any isRoot then user else none)).getD false

end Level

/-- The levels of the directories from the root of a file tree down to a place, the deepest
first. -/
def levelsAbove (w : Walk) (levels : List Level) : FileTree → List String → List Level
  | _, [] => levels
  | t, name :: names =>
    let levels := (Level.ofEntries w t.entries :: levels).map (Level.descend name)
    match t.child? name with
    | some c => levelsAbove w levels c names
    | none => levels

/-- A file that the walk came upon: the names that lead to it, and its bytes. -/
structure FoundFile where
  names : List String
  bytes : ByteArray

mutual

/-- The files of an entry. Directories with one of the excluded names are left out. -/
def filesOf (w : Walk) (levels : List Level) (above : List String) (name : String) :
    FileTree → List FoundFile
  | .file bytes =>
    if Level.ignores (w.user (above ++ [name]) false) levels name false then []
    else [⟨above ++ [name], bytes⟩]
  | .dir entries =>
    if Level.ignores (w.user (above ++ [name]) true) levels name true || w.excluded.contains name
    then []
    else
      filesAmong w (Level.ofEntries w entries :: levels.map (Level.descend name))
        (above ++ [name]) entries

/-- The files of entries. -/
def filesAmong (w : Walk) (levels : List Level) (above : List String) :
    List (String × FileTree) → List FoundFile
  | [] => []
  | (name, t) :: rest => filesOf w levels above name t ++ filesAmong w levels above rest

end

/-- The files below the directory at a place of a file tree. -/
def filesBelow (w : Walk) (root : FileTree) (place : List String) : List FoundFile :=
  match root.find? place with
  | some (.dir entries) =>
    filesAmong w (Level.ofEntries w entries :: levelsAbove w [] root place) [] entries
  | _ => []

end ArchGraph.Corpus
