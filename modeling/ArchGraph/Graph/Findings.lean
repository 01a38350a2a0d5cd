import ArchGraph.Graph.Codec
/-!
# Findings

What one stage of discovery contributes: nodes, edges, citations, targets to resolve, features
and warnings. Findings are put behind each other with `++`, which keeps the order of each part.
-/

namespace ArchGraph

/-- A request to point an existing edge at a node. -/
structure Retarget where
  edgeId : String
  target : String
deriving DecidableEq, Repr

/-- The facts that a stage found. -/
structure Findings where
  nodes     : List Node := []
  edges     : List Edge := []
  evidence  : List Evidence := []
  /-- Carried out after the edges of these findings are merged. -/
  retargets : List Retarget := []
  features  : List Feature := []
  /-- Problems that stop nothing: fragments that cannot be read, malformed manifests. -/
  warnings  : List String := []
deriving DecidableEq, Repr

namespace Findings

/-- No findings. -/
def empty : Findings := {}

/-- Findings behind findings. -/
def append (a b : Findings) : Findings where
  nodes := a.nodes ++ b.nodes
  edges := a.edges ++ b.edges
  evidence := a.evidence ++ b.evidence
  retargets := a.retargets ++ b.retargets
  features := a.features ++ b.features
  warnings := a.warnings ++ b.warnings

instance : Append Findings := ⟨append⟩

/-- Findings behind each other. -/
def concat (all : List Findings) : Findings where
  nodes := all.flatMap (·.nodes)
  edges := all.flatMap (·.edges)
  evidence := all.flatMap (·.evidence)
  retargets := all.flatMap (·.retargets)
  features := all.flatMap (·.features)
  warnings := all.flatMap (·.warnings)

/-- A single node. -/
def node (n : Node) : Findings := { nodes := [n] }

/-- A single edge. -/
def edge (e : Edge) : Findings := { edges := [e] }

/-- A single citation. -/
def citation (c : Citation) : Findings := { evidence := [c.evidence] }

/-- An edge and the citation that backs it. -/
def citedEdge (e : Edge) (c : Citation) : Findings :=
  let ev := c.evidence
  { edges := [e.cite ev.id], evidence := [ev] }

/-- A single warning. -/
def warning (message : String) : Findings := { warnings := [message] }

/-- Whether there are no facts; warnings are none. -/
def isEmpty (f : Findings) : Bool :=
  f.nodes.isEmpty && f.edges.isEmpty && f.evidence.isEmpty && f.retargets.isEmpty &&
    f.features.isEmpty

/-- The nodes of a kind. -/
def nodesOf (f : Findings) (kind : NodeKind) : List Node := f.nodes.filter (·.kind = kind)

/-- The edges that point at a pending path. -/
def pendingEdges (f : Findings) : List Edge := f.edges.filter (·.target.isPending)

/-- The written form of findings. -/
def toJson (f : Findings) : Json :=
  Json.obj
    [("nodes", Json.arr (f.nodes.map Node.toJson)), ("edges", Json.arr (f.edges.map Edge.toJson)),
     ("evidence", Json.arr (f.evidence.map Evidence.toJson)),
     ("rewrites",
      Json.arr (f.retargets.map fun r =>
        Json.obj [("edgeId", Json.str r.edgeId), ("target", Json.str r.target)])),
     ("features", Json.arr (f.features.map Feature.toJson)),
     ("warnings", Json.ofStrings f.warnings)]

/-- The request with a written form. -/
def retargetOfJson? (j : Json) : Option Retarget :=
  match j.record? ["edgeId", "target"] true with
  | some [edgeId, target] => do
    return ⟨← Json.required? Json.str? edgeId, ← Json.required? Json.str? target⟩
  | _ => none

/-- The findings with a written form. Every part may be missing, and `null` means none. -/
def ofJson? (j : Json) : Option Findings :=
  match j with
  | .null => some {}
  | _ =>
    match j.record? ["nodes", "edges", "evidence", "rewrites", "features", "warnings"] false with
    | some [nodes, edges, evidence, retargets, features, warnings] => do
      return {
        nodes := ← Json.default? [] (Json.list? Node.ofJson?) nodes
        edges := ← Json.default? [] (Json.list? Edge.ofJson?) edges
        evidence := ← Json.default? [] (Json.list? Evidence.ofJson?) evidence
        retargets := ← Json.default? [] (Json.list? retargetOfJson?) retargets
        features := ← Json.default? [] (Json.list? Feature.ofJson?) features
        warnings := ← Json.default? [] Json.strings? warnings }
    | _ => none

@[simp] theorem nodes_append (a b : Findings) : (a ++ b).nodes = a.nodes ++ b.nodes := rfl
@[simp] theorem edges_append (a b : Findings) : (a ++ b).edges = a.edges ++ b.edges := rfl
@[simp] theorem evidence_append (a b : Findings) :
    (a ++ b).evidence = a.evidence ++ b.evidence := rfl
@[simp] theorem retargets_append (a b : Findings) :
    (a ++ b).retargets = a.retargets ++ b.retargets := rfl
@[simp] theorem features_append (a b : Findings) :
    (a ++ b).features = a.features ++ b.features := rfl
@[simp] theorem warnings_append (a b : Findings) :
    (a ++ b).warnings = a.warnings ++ b.warnings := rfl

/-- Putting findings behind each other one by one is putting them behind each other at once. -/
theorem concat_cons (a : Findings) (all : List Findings) :
    concat (a :: all) = a ++ concat all := rfl

theorem mem_nodes_concat_map {α : Type} {xs : List α} {f : α → Findings} {n : Node} :
    n ∈ (concat (xs.map f)).nodes ↔ ∃ x ∈ xs, n ∈ (f x).nodes := by
  simp [concat, List.flatMap_map]

theorem mem_edges_concat_map {α : Type} {xs : List α} {f : α → Findings} {e : Edge} :
    e ∈ (concat (xs.map f)).edges ↔ ∃ x ∈ xs, e ∈ (f x).edges := by
  simp [concat, List.flatMap_map]

end Findings
end ArchGraph
