/-!
# TOML values

The values of TOML documents. Floating-point numbers and points in time are kept as they are
written. A table lists its entries in the order in which their keys first occur, each key once.
-/

namespace ArchGraph

/-- A TOML value. -/
inductive Toml where
  | str (value : String)
  | int (value : Int)
  | float (written : String)
  | bool (value : Bool)
  | moment (written : String)
  | arr (items : List Toml)
  | table (entries : List (String × Toml))
deriving Repr

namespace Toml

instance : Inhabited Toml := ⟨table []⟩

/-- The entry of a table with a key. -/
def get? (t : Toml) (key : String) : Option Toml :=
  match t with
  | table entries => entries.lookup key
  | _ => none

/-- The keys of a table. -/
def keys? : Toml → Option (List String)
  | table entries => some (entries.map (·.1))
  | _ => none

/-- The characters of a string. -/
def str? : Toml → Option String
  | str s => some s
  | _ => none

end Toml
end ArchGraph
