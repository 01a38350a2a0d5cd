import ArchGraph.Toml.Parser
/-!
# Crate manifests

What the manifest of a crate depends on.
-/

namespace ArchGraph.Cargo

/-- The names of what a manifest depends on. -/
def dependencyNames? (text : String) : Option (List String) :=
  (Toml.ofText? text).map fun manifest =>
    ((manifest.get? "dependencies").bind Toml.keys?).getD []

end ArchGraph.Cargo
