import ArchGraph.Json.Parser
/-!
# Scheduled requests

The requests that the configuration of a platform schedules. It is read as strictly as a package
manifest.
-/

namespace ArchGraph

/-- A scheduled request. -/
structure Cron where
  path     : String
  schedule : Option String
deriving DecidableEq, Repr

namespace Cron

/-- The scheduled request with a written form. -/
def ofJson? (j : Json) : Option Cron :=
  match j.record? ["path", "schedule"] true with
  | some [path, schedule] => do
    return ⟨← Json.required? Json.str? path, ← Json.optional? Json.str? schedule⟩
  | _ => none

/-- The requests that a configuration schedules. -/
def listOfText? (text : String) : Option (List Cron) := do
  match (← Json.ofText? text).record? ["crons"] false with
  | some [crons] => Json.default? [] (Json.list? ofJson?) crons
  | _ => none

end Cron
end ArchGraph
