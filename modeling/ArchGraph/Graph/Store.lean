import ArchGraph.Graph.Findings
/-!
# The graph

The graph that findings are merged into. Nodes, edges and citations have unique identifiers and
stay in the order in which they were first seen. A node or a citation is never changed; an edge
that is found again keeps its first form and gains the new citations; the target of an edge
changes only when findings retarget it.
-/

namespace ArchGraph

/-- The graph that has been merged so far. -/
structure Graph where
  nodes    : List Node := []
  edges    : List Edge := []
  evidence : List Evidence := []
  warnings : List String := []
deriving DecidableEq, Repr

/-- What a merge did. -/
structure MergeStats where
  nodesAdded      : Nat := 0
  nodesSkipped    : Nat := 0
  edgesAdded      : Nat := 0
  edgesMerged     : Nat := 0
  evidenceAdded   : Nat := 0
  edgesRetargeted : Nat := 0
  warnings        : Nat := 0
deriving DecidableEq, Repr

/-- What a merge did, on one line. -/
def MergeStats.text (s : MergeStats) : String :=
  ", ".intercalate
    [s!"+{s.nodesAdded} nodes ({s.nodesSkipped} dup)",
     s!"+{s.edgesAdded} edges ({s.edgesMerged} merged)", s!"+{s.evidenceAdded} evidence",
     s!"{s.edgesRetargeted} resolved", s!"{s.warnings} warnings"]

namespace Graph

/-- The empty graph. -/
def empty : Graph := {}

/-! ## Merging -/

/-- Appends an item unless its identifier is taken. -/
def insertNew {α : Type} (id : α → String) (held : List α) (item : α) : List α :=
  if held.any fun h => id h == id item then held else held ++ [item]

/-- Appends the strings that are not held yet. -/
def union (held : List String) (more : List String) : List String :=
  more.foldl (fun held s => if held.contains s then held else held ++ [s]) held

/-- Appends an edge, or adds its citations to the edge that has its identifier. -/
def insertEdge : List Edge → Edge → List Edge
  | [], e => [e]
  | h :: held, e =>
    if h.id = e.id then { h with evidenceIds := union h.evidenceIds e.evidenceIds } :: held
    else h :: insertEdge held e

/-- Points the edge with an identifier at a node. -/
def retargetEdge (held : List Edge) (r : Retarget) : List Edge :=
  held.map fun e => if e.id = r.edgeId then { e with target := .node r.target } else e

/-- Merges findings into the graph. Edges are retargeted last, so that findings can resolve
edges of their own. -/
def merge (g : Graph) (f : Findings) : Graph where
  nodes := f.nodes.foldl (insertNew Node.id) g.nodes
  edges := f.retargets.foldl retargetEdge (f.edges.foldl insertEdge g.edges)
  evidence := f.evidence.foldl (insertNew Evidence.id) g.evidence
  warnings := g.warnings ++ f.warnings

/-! ## Counting -/

/-- A graph that findings are being merged into, and what has been done so far. -/
structure Merging where
  graph : Graph
  stats : MergeStats := {}

namespace Merging

/-- Adds a node, or skips it if its identifier is taken. -/
def addNode (m : Merging) (n : Node) : Merging :=
  if m.graph.nodes.any (·.id == n.id) then
    { m with stats := { m.stats with nodesSkipped := m.stats.nodesSkipped + 1 } }
  else
    { graph := { m.graph with nodes := m.graph.nodes ++ [n] }
      stats := { m.stats with nodesAdded := m.stats.nodesAdded + 1 } }

/-- Adds an edge, or merges it into the edge that has its identifier. -/
def addEdge (m : Merging) (e : Edge) : Merging where
  graph := { m.graph with edges := insertEdge m.graph.edges e }
  stats :=
    if m.graph.edges.any (·.id == e.id) then
      { m.stats with edgesMerged := m.stats.edgesMerged + 1 }
    else { m.stats with edgesAdded := m.stats.edgesAdded + 1 }

/-- Adds a citation unless its identifier is taken. -/
def addEvidence (m : Merging) (ev : Evidence) : Merging :=
  if m.graph.evidence.any (·.id == ev.id) then m
  else
    { graph := { m.graph with evidence := m.graph.evidence ++ [ev] }
      stats := { m.stats with evidenceAdded := m.stats.evidenceAdded + 1 } }

/-- Carries out a request if its edge is there. -/
def retarget (m : Merging) (r : Retarget) : Merging :=
  if m.graph.edges.any (·.id == r.edgeId) then
    { graph := { m.graph with edges := retargetEdge m.graph.edges r }
      stats := { m.stats with edgesRetargeted := m.stats.edgesRetargeted + 1 } }
  else m

/-- Adds warnings. -/
def warn (m : Merging) (warnings : List String) : Merging where
  graph := { m.graph with warnings := m.graph.warnings ++ warnings }
  stats := { m.stats with warnings := warnings.length }

/-- Merges findings one by one: the nodes, the edges, the citations, then the requests. -/
def run (g : Graph) (f : Findings) : Merging :=
  let m := f.nodes.foldl addNode { graph := g }
  let m := f.edges.foldl addEdge m
  let m := f.evidence.foldl addEvidence m
  (f.retargets.foldl retarget m).warn f.warnings

end Merging

/-- What merging findings into the graph does. -/
def mergeStats (g : Graph) (f : Findings) : MergeStats := (Merging.run g f).stats

/-! ## Looking things up -/

/-- The node with an identifier. -/
def node? (g : Graph) (id : String) : Option Node := g.nodes.find? (·.id == id)

/-- Whether there is a node with an identifier. -/
def hasNode (g : Graph) (id : String) : Bool := g.nodes.any (·.id == id)

/-- The edge with an identifier. -/
def edge? (g : Graph) (id : String) : Option Edge := g.edges.find? (·.id == id)

/-- The nodes of a kind. -/
def nodesOf (g : Graph) (kind : NodeKind) : List Node := g.nodes.filter (·.kind = kind)

/-- The edges of a kind. -/
def edgesOf (g : Graph) (kind : EdgeKind) : List Edge := g.edges.filter (·.kind = kind)

/-- The edges that start at a node. -/
def edgesFrom (g : Graph) (source : String) : List Edge := g.edges.filter (·.source == source)

/-- The citations of a node itself, not of one of its edges. -/
def evidenceFor (g : Graph) (nodeId : String) : List Evidence :=
  g.evidence.filter fun e => e.nodeId == nodeId && e.edgeId.isNone

/-- Whether an edge points at a pending path or at a node that the graph does not hold. -/
def isDangling (g : Graph) (e : Edge) : Bool :=
  match e.target with
  | .pending _ => true
  | .node id => !g.hasNode id

/-- The edges that point at nothing. -/
def dangling (g : Graph) : List Edge := g.edges.filter g.isDangling

/-! ## Laws -/

/-- Merging findings one behind the other keeps the warnings in order. -/
theorem warnings_merge (g : Graph) (f : Findings) :
    (g.merge f).warnings = g.warnings ++ f.warnings := rfl

theorem nodes_merge_append (g : Graph) (a b : Findings) :
    (g.merge (a ++ b)).nodes = ((g.merge a).merge b).nodes := by
  simp [merge]

theorem evidence_merge_append (g : Graph) (a b : Findings) :
    (g.merge (a ++ b)).evidence = ((g.merge a).merge b).evidence := by
  simp [merge]

theorem node?_isSome (g : Graph) (id : String) : (g.node? id).isSome = g.hasNode id := by
  simp only [node?, hasNode]
  induction g.nodes with
  | nil => rfl
  | cons n rest ih => by_cases h : n.id == id <;> simp [h, ih]

end Graph
end ArchGraph
