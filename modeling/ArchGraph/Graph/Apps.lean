import ArchGraph.Graph.Store
import ArchGraph.Path
/-!
# The apps of a repository

The root directories of the apps that a graph holds for one repository, longest first, so that
the first root above a file is the deepest one.
-/

namespace ArchGraph

/-- An app by its root directory. -/
structure AppRoot where
  root : String
  id   : String
deriving DecidableEq, Repr

namespace AppRoot

/-- Longer roots come first, equally long ones in the order of their characters. -/
def longestFirst (a b : AppRoot) : Bool :=
  b.root.utf8ByteSize < a.root.utf8ByteSize ||
    (a.root.utf8ByteSize == b.root.utf8ByteSize && !(b.root < a.root))

/-- The order of the roots' characters. -/
def alphabetic (a b : AppRoot) : Bool := !(b.root < a.root)

end AppRoot

/-- The apps of one repository, the longest root first. -/
structure Apps where
  roots : List AppRoot
deriving DecidableEq, Repr

namespace Apps

/-- The app that a node stands for, if it belongs to a repository. -/
def rootOf? (repo : String) (n : Node) : Option AppRoot :=
  match n.detail with
  | .app d => if n.owningRepo = some repo then some ⟨d.root, n.id⟩ else none
  | _ => none

/-- The apps that a graph holds for a repository. -/
def ofGraph (g : Graph) (repo : String) : Apps :=
  ⟨(g.nodes.filterMap (rootOf? repo)).mergeSort AppRoot.longestFirst⟩

/-- The app with the longest root above a path. -/
def owner? (apps : Apps) (path : String) : Option String :=
  (apps.roots.find? fun a => Path.isUnder path a.root).map (·.id)

/-- The app whose root is a directory. -/
def rootedAt? (apps : Apps) (dir : String) : Option String :=
  let dir := if dir = "" then "." else dir
  (apps.roots.find? fun a => a.root == dir).map (·.id)

/-- The apps in the order of their roots. -/
def ids (apps : Apps) : List String :=
  (apps.roots.mergeSort AppRoot.alphabetic).map (·.id)

end Apps
end ArchGraph
