import ArchGraph.Graph.Kind
/-!
# Features

Named clusters of nodes with an ordered user flow through them.
-/

namespace ArchGraph

/-- A step of a flow: the node it lands on and the edge it walks. -/
structure FlowStep where
  kind        : StepKind
  nodeId      : String
  edgeId      : Option String
  evidenceIds : List String
deriving DecidableEq, Repr

/-- A feature. -/
structure Feature where
  slug        : String
  name        : String
  description : String
  source      : FeatureSource
  flow        : List FlowStep
  screens     : List String
  endpoints   : List String
  tables      : List String
  services    : List String
deriving DecidableEq, Repr

/-- The steps of one kind, in flow order. -/
def Feature.steps (f : Feature) (kind : StepKind) : List FlowStep :=
  f.flow.filter (·.kind = kind)

end ArchGraph
