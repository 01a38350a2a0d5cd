import ArchGraph.Graph.Store
import ArchGraph.Number.Double
/-!
# Summaries

Counts and coverage of a graph, their written form and their text. Main statement: what is covered
never exceeds the whole it is part of.
-/

namespace ArchGraph

/-- How many of a whole are covered. -/
structure Coverage where
  covered : Nat
  total   : Nat
deriving DecidableEq, Repr

namespace Coverage

/-- The covered share in double precision, 0 of an empty whole. -/
def ratio (c : Coverage) : Double :=
  if c.total = 0 then ⟨0, 0⟩
  else (Double.ofQuotient c.covered 1).div (Double.ofQuotient c.total 1)

/-- The covered share in whole percent. -/
def percent (c : Coverage) : Nat := (c.ratio.scale 100).round

/-- How many of some items satisfy a condition. -/
def ofList {α : Type} (items : List α) (covers : α → Bool) : Coverage :=
  ⟨items.countP covers, items.length⟩

/-- The written form of a coverage. -/
def toJson (c : Coverage) : Json :=
  Json.obj
    [("covered", Json.ofNat c.covered), ("total", Json.ofNat c.total),
     ("ratio", Json.real c.ratio.shortest)]

theorem covered_le_total {α : Type} (items : List α) (covers : α → Bool) :
    (ofList items covers).covered ≤ (ofList items covers).total :=
  List.countP_le_length

end Coverage

/-- Counts and coverage of a graph. -/
structure Summary where
  nodesByKind             : List (NodeKind × Nat)
  edgesByKind             : List (EdgeKind × Nat)
  edgesByConfidence       : List (Confidence × Nat)
  evidenceByKind          : List (EvidenceKind × Nat)
  evidenceTotal           : Nat
  featureCount            : Nat
  danglingEdges           : Nat
  screensWithCalls        : Coverage
  endpointsWithDataAccess : Coverage
  tablesWithRls           : Coverage
  screensInFeatures       : Coverage
  warnings                : List String
deriving DecidableEq, Repr

/-- How often each key occurs, in the order of the keys; keys that do not occur are left out. -/
def tally {α κ : Type} [DecidableEq κ] (keys : List κ) (key : α → κ) (items : List α) :
    List (κ × Nat) :=
  (keys.map fun k => (k, items.countP fun item => key item = k)).filter fun count => count.2 ≠ 0

namespace Summary

/-- Whether a screen calls an endpoint that the graph holds. -/
def callsKnownNode (g : Graph) (screen : Node) : Bool :=
  (g.edgesFrom screen.id).any fun e =>
    e.kind = .calls && (match e.target with
      | .node id => g.hasNode id
      | .pending _ => false)

/-- Whether an endpoint reads or writes something. -/
def accessesData (g : Graph) (endpoint : Node) : Bool :=
  (g.edgesFrom endpoint.id).any fun e => e.kind = .reads || e.kind = .writes

/-- The summary of a graph and the features found in it. -/
def ofGraph (g : Graph) (features : List Feature) : Summary :=
  let screens := g.nodesOf .screen
  let featured := features.flatMap (·.screens)
  { nodesByKind := tally NodeKind.all Node.kind g.nodes
    edgesByKind := tally EdgeKind.all Edge.kind g.edges
    edgesByConfidence := tally Confidence.all Edge.confidence g.edges
    evidenceByKind := tally EvidenceKind.all Evidence.kind g.evidence
    evidenceTotal := g.evidence.length
    featureCount := features.length
    danglingEdges := g.dangling.length
    screensWithCalls := .ofList screens (callsKnownNode g)
    endpointsWithDataAccess := .ofList (g.nodesOf .endpoint) (accessesData g)
    tablesWithRls := .ofList (g.nodesOf .table) fun n =>
      match n.detail with
      | .table d => d.hasRls
      | _ => false
    screensInFeatures := .ofList screens fun n => featured.contains n.id
    warnings := g.warnings }

/-- How many nodes of a kind there are. -/
def nodesOf (s : Summary) (kind : NodeKind) : Nat := (s.nodesByKind.lookup kind).getD 0

/-- Counts as an object. -/
def countsJson {κ : Type} (name : κ → String) (counts : List (κ × Nat)) : Json :=
  Json.obj (counts.map fun count => (name count.1, Json.ofNat count.2))

/-- The written form of a summary. -/
def toJson (s : Summary) : Json :=
  Json.obj
    [("nodesByType", countsJson NodeKind.name s.nodesByKind),
     ("edgesByType", countsJson EdgeKind.name s.edgesByKind),
     ("edgesByConfidence", countsJson Confidence.name s.edgesByConfidence),
     ("evidenceByKind", countsJson EvidenceKind.name s.evidenceByKind),
     ("evidenceTotal", Json.ofNat s.evidenceTotal),
     ("featureCount", Json.ofNat s.featureCount),
     ("danglingEdges", Json.ofNat s.danglingEdges),
     ("coverage",
      Json.obj
        [("screensWithCalls", s.screensWithCalls.toJson),
         ("endpointsWithDataAccess", s.endpointsWithDataAccess.toJson),
         ("tablesWithRls", s.tablesWithRls.toJson),
         ("screensInFeatures", s.screensInFeatures.toJson)]),
     ("warnings", Json.ofStrings s.warnings)]

/-- A label filled up with blanks to a width. -/
def column (width : Nat) (label : String) : String :=
  label ++ String.ofList (List.replicate (width - label.length) ' ')

/-- Lines of counts. -/
def countLines {κ : Type} (name : κ → String) (counts : List (κ × Nat)) : List String :=
  counts.map fun count => "  " ++ column 18 (name count.1) ++ " " ++ toString count.2

/-- A line of coverage. -/
def coverageLine (label : String) (c : Coverage) : String :=
  "  " ++ column 26 label ++ " " ++
    s!"{c.covered}/{c.total} ({c.percent}%)"

/-- The text of a summary. -/
def text (s : Summary) : String :=
  "\n".intercalate <|
    ["Nodes:"] ++ countLines NodeKind.name s.nodesByKind ++
    ["Edges:"] ++ countLines EdgeKind.name s.edgesByKind ++
    ["Confidence:"] ++ countLines Confidence.name s.edgesByConfidence ++
    [s!"Evidence: {s.evidenceTotal}", s!"Features: {s.featureCount}",
     s!"Dangling edges: {s.danglingEdges}", "Coverage:",
     coverageLine "screens calling endpoints" s.screensWithCalls,
     coverageLine "endpoints touching data" s.endpointsWithDataAccess,
     coverageLine "tables with RLS" s.tablesWithRls,
     coverageLine "screens in features" s.screensInFeatures,
     s!"Warnings: {s.warnings.length}"]

end Summary
end ArchGraph
