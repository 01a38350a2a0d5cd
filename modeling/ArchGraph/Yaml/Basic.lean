/-!
# YAML values

The nodes of YAML documents. A scalar keeps its characters and whether it was written plainly,
without quotes: only a plain scalar without characters stands for a missing value. An alias is
replaced by the node that it stands for, unless it stands inside that node.
-/

namespace ArchGraph

/-- A node of a YAML document. -/
inductive Yaml where
  | scalar (plain : Bool) (value : String)
  | seq (items : List Yaml)
  | map (pairs : List (Yaml × Yaml))
  /-- An alias inside the node that its anchor names. No value has this form: it is accepted only
  where nobody reads it. -/
  | cycle
deriving Repr

namespace Yaml

instance : Inhabited Yaml := ⟨scalar true ""⟩

/-- The node of a value that is not written. -/
def missing : Yaml := scalar true ""

/-- Whether a value is not written. -/
def isMissing : Yaml → Bool
  | scalar plain value => plain && value == ""
  | _ => false

/-- The characters of a scalar. -/
def str? : Yaml → Option String
  | scalar _ value => some value
  | _ => none

/-- The items of a sequence; a missing value has none. -/
def items? (y : Yaml) : Option (List Yaml) :=
  match y with
  | seq items => some items
  | _ => if y.isMissing then some [] else none

/-- The pairs of a mapping; a missing value has none. -/
def pairs? (y : Yaml) : Option (List (Yaml × Yaml)) :=
  match y with
  | map pairs => some pairs
  | _ => if y.isMissing then some [] else none

end Yaml
end ArchGraph
