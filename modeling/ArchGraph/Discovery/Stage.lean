import ArchGraph.Discovery.Database
import ArchGraph.Discovery.Deployment
import ArchGraph.Discovery.Endpoints
import ArchGraph.Discovery.Features
import ArchGraph.Discovery.Screens
import ArchGraph.Graph.Summary
/-!
# Stages of discovery

The stages by their names, and what each finds in a project, given the graph of the stages before
it. Stages are carried out one after the other: what one finds is merged before the next one
starts. Main statement: carrying out stages one behind the other is carrying out all of them.
-/

namespace ArchGraph.Discovery

/-- A stage of discovery. -/
inductive Stage where
  | inventory
  | screens
  | endpoints
  | database
  | deployment
  | features
deriving DecidableEq, Repr

namespace Stage

/-- The stages in the order in which they build on each other. -/
def all : List Stage := [inventory, screens, endpoints, database, deployment, features]

/-- The name of a stage. -/
def name : Stage → String
  | inventory => "inventory"
  | screens => "routes"
  | endpoints => "endpoints"
  | database => "data_model"
  | deployment => "deployment"
  | features => "features"

/-- The stage with a name. -/
def ofName? : String → Option Stage := named? all name

theorem ofName?_name (s : Stage) : ofName? s.name = some s := by cases s <;> rfl

end Stage

/-- What a discovery works on: a project, the settings, and the catalog of known features. -/
structure Task where
  project  : Project
  settings : Settings
  catalog  : List FeatureDefinition
deriving DecidableEq, Repr

/-- What has been discovered so far. -/
structure Progress where
  graph    : Graph
  features : List Feature
deriving DecidableEq, Repr

/-- What a stage finds beside a graph. -/
def Task.findings (t : Task) (g : Graph) : Stage → Findings
  | .inventory => inventory t.project
  | .screens => screens t.settings.analysis t.project g
  | .endpoints => endpoints t.settings.analysis t.project g
  | .database => database t.project g
  | .deployment => deployment t.project g
  | .features => features t.catalog t.settings.features g

/-- Whether a sum overflows in a stage. -/
def Task.overflows (t : Task) : Stage → Bool
  | .screens => screensOverflow t.settings.analysis t.project
  | .endpoints => endpointsOverflow t.settings.analysis t.project
  | _ => false

/-- What a stage finds beside a graph where sums are checked: nothing if one overflows, since that
stops the program. -/
def Task.findings? (t : Task) (g : Graph) (stage : Stage) : Option Findings :=
  if t.overflows stage then none else some (t.findings g stage)

namespace Progress

/-- Nothing has been discovered. -/
def start : Progress := ⟨.empty, []⟩

/-- What is known once findings are merged. -/
def merge (s : Progress) (f : Findings) : Progress := ⟨s.graph.merge f, s.features ++ f.features⟩

/-- Carries out one stage. -/
def step (t : Task) (s : Progress) (stage : Stage) : Progress := s.merge (t.findings s.graph stage)

/-- Carries out stages one after the other. -/
def run (t : Task) (s : Progress) (stages : List Stage) : Progress := stages.foldl (step t) s

/-- Carries out stages one after the other where sums are checked. -/
def run? (t : Task) (s : Progress) (stages : List Stage) : Option Progress :=
  stages.foldlM (fun s stage => (t.findings? s.graph stage).map s.merge) s

/-- The summary of what has been discovered. -/
def summary (s : Progress) : Summary := .ofGraph s.graph s.features

theorem run_append (t : Task) (s : Progress) (a b : List Stage) :
    run t s (a ++ b) = run t (run t s a) b := by
  simp [run]

/-- Where sums are checked a run either stops at one that overflows or leads to the same. -/
theorem run?_eq (t : Task) : ∀ (stages : List Stage) (s : Progress),
    run? t s stages = if stages.any t.overflows then none else some (run t s stages)
  | [], s => rfl
  | stage :: stages, s => by
    rw [run?, List.foldlM_cons, Task.findings?, List.any_cons]
    cases t.overflows stage with
    | true => rfl
    | false => exact run?_eq t stages (step t s stage)

end Progress
end ArchGraph.Discovery
