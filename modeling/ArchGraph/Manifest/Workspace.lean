import ArchGraph.Yaml.Parser
/-!
# Workspace files

The globs of the members of a workspace that a YAML file lists under `packages`. The items are the
characters of scalars, however they are written; all other keys are left unread.
-/

namespace ArchGraph.Workspace

/-- The globs that are listed under the key of a workspace file. -/
def globsOfPairs? (pairs : List (Yaml × Yaml)) : Option (List String) := do
  let keyed ← pairs.mapM fun (key, value) => key.str?.map fun key => (key, value)
  match keyed.filter (·.1 == "packages") with
  | [] => return []
  | [(_, value)] => (← value.items?).mapM Yaml.str?
  | _ => none

/-- The globs that a workspace file lists. -/
def globs? (text : String) : Option (List String) := do
  globsOfPairs? (← (← Yaml.ofText? text).pairs?)

end ArchGraph.Workspace
