import ArchGraph.Number.Decimal
/-!
# JSON values

The values of JSON documents. Objects keep their members in the order they are written, repeated
keys included: who reads an object decides what a repetition means. A record is read either from
an object or from an array that lists its fields in order.
-/

namespace ArchGraph

/-- A JSON value. `broken` stands for a string, or an object with a key, that is well formed as
text but denotes no characters because it escapes half of a surrogate pair. -/
inductive Json where
  | null
  | bool (value : Bool)
  | int (value : Int)
  | real (value : Decimal)
  | str (value : String)
  | arr (items : List Json)
  | obj (members : List (String × Json))
  | broken
deriving Repr

namespace Json

instance : Inhabited Json := ⟨null⟩

/-- A natural number as a JSON value. -/
def ofNat (n : Nat) : Json := int n

/-- A list of strings as a JSON value. -/
def ofStrings (items : List String) : Json := arr (items.map str)

/-- A value or `null`. -/
def ofOption (value : Option Json) : Json := value.getD null

/-- An object of the members that have a value. -/
def ofMembers (members : List (String × Option Json)) : Json :=
  obj (members.filterMap fun (key, value) => value.map (key, ·))

/-- The value of the last member with a key. -/
def get? (j : Json) (key : String) : Option Json :=
  match j with
  | obj members => (members.findRev? fun member => member.1 == key).map (·.2)
  | _ => none

/-- The characters of a string. -/
def str? : Json → Option String
  | str s => some s
  | _ => none

/-- A truth value. -/
def bool? : Json → Option Bool
  | bool b => some b
  | _ => none

/-- A whole number from 0 up to a limit. -/
def nat? (limit : Nat) : Json → Option Nat
  | int n => if 0 ≤ n ∧ n ≤ limit then some n.toNat else none
  | _ => none

/-- A whole number of 64 bits. -/
def word64? (j : Json) : Option UInt64 :=
  (j.nat? (Nat.pow 2 64 - 1)).map Nat.toUInt64

/-- The items of an array. -/
def arr? : Json → Option (List Json)
  | arr items => some items
  | _ => none

/-- The items of an array, each read by `read`. -/
def list? {α : Type} (read : Json → Option α) (j : Json) : Option (List α) :=
  j.arr?.bind fun items => items.mapM read

/-- Strings in an array. -/
def strings? (j : Json) : Option (List String) :=
  j.list? str?

/-- An optional field: missing or `null` means none. -/
def optional? {α : Type} (read : Json → Option α) : Option Json → Option (Option α)
  | none => some none
  | some null => some none
  | some j => (read j).map some

/-- A required field. -/
def required? {α : Type} (read : Json → Option α) (field : Option Json) : Option α :=
  field.bind read

/-- A field with a default value. -/
def default? {α : Type} (value : α) (read : Json → Option α) : Option Json → Option α
  | none => some value
  | some j => read j

/-- The members with one of the given names, in the order of the names, each at most once. -/
def objectFields? (names : List String) (members : List (String × Json)) :
    Option (List (Option Json)) :=
  if names.any fun name => 2 ≤ (members.filter (·.1 == name)).length then none
  else some (names.map fun name => List.lookup name members)

/-- The fields of a record by their names. An object may hold other members, but no field twice.
An array lists the fields in order; it must list all of them if `complete`, and never more. -/
def record? (names : List String) (complete : Bool) : Json → Option (List (Option Json))
  | obj members => objectFields? names members
  | arr items =>
    if names.length < items.length ∨ (complete ∧ items.length < names.length) then none
    else some (items.map some ++ List.replicate (names.length - items.length) none)
  | _ => none

mutual

/-- Whether a value can be kept: no broken text, no number beyond every double, and at most
`depth` containers inside each other. -/
def keepable (depth : Nat) : Json → Bool
  | broken => false
  | int n => !Decimal.exceedsDouble ⟨n, 0⟩
  | real d => !d.exceedsDouble
  | arr items => 0 < depth && keepableItems (depth - 1) items
  | obj members => 0 < depth && keepableMembers (depth - 1) members
  | _ => true

/-- Whether all items can be kept. -/
def keepableItems (depth : Nat) : List Json → Bool
  | [] => true
  | item :: rest => keepable depth item && keepableItems depth rest

/-- Whether the values of all members can be kept. -/
def keepableMembers (depth : Nat) : List (String × Json) → Bool
  | [] => true
  | (_, value) :: rest => keepable depth value && keepableMembers depth rest

end

end Json
end ArchGraph
