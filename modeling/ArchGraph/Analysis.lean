import ArchGraph.Discovery.Stage
/-!
# Analyses

The analysis of a project: its graph, its features and their summary. Settings that discovery
cannot work with are refused before anything is analysed.
-/

namespace ArchGraph

open Discovery (Progress Stage Task)

/-- What an analysis found. -/
structure Analysis where
  projectId : String
  graph     : Graph
  features  : List Feature
deriving DecidableEq, Repr

namespace Analysis

/-- Why nothing is analysed, in words. -/
def faultText (fault : SettingsFault) : String := "Configuration error: " ++ fault.text

/-- What stages find in a project. -/
def ofStages (t : Task) (stages : List Stage) : Analysis :=
  let s := Progress.start.run t stages
  ⟨t.project.id, s.graph, s.features⟩

/-- What stages find in a project where sums are checked. -/
def ofStages? (t : Task) (stages : List Stage) : Option Analysis :=
  (Progress.start.run? t stages).map fun s => ⟨t.project.id, s.graph, s.features⟩

/-- The analysis of a project, if its settings are valid. -/
def run (t : Task) (stages : List Stage) : Except SettingsFault Analysis :=
  match t.settings.fault? with
  | some fault => .error fault
  | none => .ok (ofStages t stages)

/-- The summary of an analysis. -/
def summary (a : Analysis) : Summary := .ofGraph a.graph a.features

/-- The feature with a short name. -/
def feature? (a : Analysis) (slug : String) : Option Feature := a.features.find? (·.slug == slug)

/-- The written form of an analysis. -/
def toJson (a : Analysis) : Json :=
  Json.obj
    [("projectId", Json.str a.projectId), ("nodes", Json.arr (a.graph.nodes.map Node.toJson)),
     ("edges", Json.arr (a.graph.edges.map Edge.toJson)),
     ("evidence", Json.arr (a.graph.evidence.map Evidence.toJson)),
     ("features", Json.arr (a.features.map Feature.toJson)), ("summary", a.summary.toJson)]

/-- Where sums are checked an analysis either stops at one that overflows or finds the same. -/
theorem ofStages?_eq (t : Task) (stages : List Stage) :
    ofStages? t stages = if stages.any t.overflows then none else some (ofStages t stages) := by
  rw [ofStages?, Progress.run?_eq]
  split <;> rfl

/-- An analysis fails exactly if its settings are at fault. -/
theorem run_eq_error_iff (t : Task) (stages : List Stage) (fault : SettingsFault) :
    run t stages = .error fault ↔ t.settings.fault? = some fault := by
  unfold run
  split <;> simp_all

end Analysis
end ArchGraph
