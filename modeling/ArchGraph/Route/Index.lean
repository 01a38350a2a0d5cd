import ArchGraph.Graph.Node
import ArchGraph.Route.Matcher
/-!
# Resolving paths

The screens and endpoints that a path can lead to. Of those whose route matches, and that serve
the method of the call if one is given, the least in a ranking wins: an exact route before any
other, the caller's repository before others, then fewer dynamic segments, fewer catch-all
segments, and the identifier.
-/

namespace ArchGraph.Route

/-- A node with a route. -/
structure Entry where
  id     : String
  repo   : Option String
  method : Option HttpMethod
  route  : String
deriving DecidableEq, Repr

/-- The entry of a screen or an endpoint. The pattern of every route is taken to compile: a route is
never so long that it exceeds what patterns may take up. -/
def Entry.ofNode? (n : Node) : Option Entry :=
  n.route?.map fun route => ⟨n.id, n.owningRepo, n.method?, route⟩

/-- The place of an entry in the ranking for a call; lower is better. -/
structure Rank where
  inexact  : Bool
  foreign  : Bool
  dynamic  : Nat
  catchAll : Nat
  id       : String
deriving DecidableEq, Repr

namespace Rank

/-- The lexicographic order of ranks. -/
def before (a b : Rank) : Bool :=
  if a.inexact ≠ b.inexact then b.inexact
  else if a.foreign ≠ b.foreign then b.foreign
  else if a.dynamic ≠ b.dynamic then a.dynamic < b.dynamic
  else if a.catchAll ≠ b.catchAll then a.catchAll < b.catchAll
  else a.id < b.id

end Rank

namespace Entry

/-- The rank of an entry for a path that a repository asks for. -/
def rank (e : Entry) (path : String) (repo : Option String) : Rank :=
  ⟨e.route ≠ path, repo.isSome && e.repo ≠ repo, dynamicSegments e.route,
   catchAllSegments e.route, e.id⟩

/-- Whether an entry serves a call: a method counts only if both sides have one. -/
def serves (e : Entry) (method : Option HttpMethod) : Bool :=
  match e.method, method with
  | some served, some call => served.accepts call
  | _, _ => true

end Entry

/-- The first item that no other one precedes. -/
def least? {α : Type} (before : α → α → Bool) : List α → Option α
  | [] => none
  | a :: rest =>
    match least? before rest with
    | none => some a
    | some b => if before b a then some b else some a

/-- Nodes with routes, each identifier at most once. -/
structure Index where
  entries : List Entry
deriving DecidableEq, Repr

namespace Index

/-- The index without nodes. -/
def empty : Index := ⟨[]⟩

/-- Adds a node with a route unless its identifier is taken. -/
def insert (index : Index) (n : Node) : Index :=
  if index.entries.any (·.id == n.id) then index
  else ⟨index.entries ++ (Entry.ofNode? n).toList⟩

/-- The index of nodes. -/
def ofNodes (nodes : List Node) : Index := nodes.foldl insert empty

/-- The number of nodes in the index. -/
def size (index : Index) : Nat := index.entries.length

/-- The entries that a call can lead to. -/
def candidates (index : Index) (path : String) (method : Option HttpMethod) : List Entry :=
  index.entries.filter fun e => Route.accepts e.route path && e.serves method

/-- The node that a call leads to. The repository only ranks candidates. -/
def resolve? (index : Index) (path : String) (method : Option HttpMethod)
    (repo : Option String) : Option String :=
  (least? (fun a b => (a.rank path repo).before (b.rank path repo))
    (index.candidates path method)).map Entry.id

/-- The node that a path leads to among those of one repository. -/
def resolveIn? (index : Index) (path repo : String) : Option String :=
  (least? (fun a b => (a.rank path (some repo)).before (b.rank path (some repo)))
    ((index.candidates path none).filter (·.repo = some repo))).map Entry.id

end Index
end ArchGraph.Route
