import ArchGraph.Toml.Basic
/-!
# Tables of a document

A document is a list of statements: headers, which open tables, and assignments, which go into the
table that was opened last. A table can be opened once; one that a longer header implied can still
be opened, one that a dotted key made cannot, and a dotted key extends only tables that dotted keys
made. Main statement: a key that is taken cannot be assigned again.
-/

namespace ArchGraph.Toml

/-- What a key of an unfinished table holds. -/
inductive Entry where
  | value (v : Toml)
  /-- A table: whether a header opened it, and whether a dotted key made it. -/
  | table (opened dotted : Bool) (entries : List (String × Entry))
  /-- An array of tables, the last one first. -/
  | tables (items : List (List (String × Entry)))

/-- The entries of an unfinished table. -/
abbrev Entries := List (String × Entry)

namespace Entries

/-- Replaces what a key holds, or adds the key. -/
def update (key : String) (change : Option Entry → Option Entry) : Entries → Option Entries
  | [] => (change none).map fun e => [(key, e)]
  | (k, e) :: rest =>
    if k = key then (change (some e)).map fun e => (k, e) :: rest
    else (update key change rest).map ((k, e) :: ·)

/-- Assigns a value to a key behind a dotted path. `free` says whether the table itself takes
keys from here. -/
def assign (key : String) (v : Toml) (free : Bool) : List String → Entries → Option Entries
  | [], entries => entries.update key fun
    | none => if free then some (.value v) else none
    | some _ => none
  | name :: path, entries => entries.update name fun
    | none => (assign key v true path []).map (Entry.table false true)
    | some (.table false dotted inner) => (assign key v dotted path inner).map (.table false dotted)
    | some (.tables (last :: earlier)) =>
      (assign key v false path last).map fun last => .tables (last :: earlier)
    | _ => none

/-- Changes the table at a path of headers. Tables on the way are implied. -/
def within (change : Entries → Option Entries) : List String → Entries → Option Entries
  | [], entries => change entries
  | name :: path, entries => entries.update name fun
    | none => (within change path []).map (Entry.table false false)
    | some (.table opened dotted inner) => (within change path inner).map (.table opened dotted)
    | some (.tables (last :: earlier)) =>
      (within change path last).map fun last => .tables (last :: earlier)
    | _ => none

/-- Opens the table at a path. -/
def openTable (path : List String) (entries : Entries) : Option Entries :=
  entries.within (fun parent => parent.update (path.getLastD "") fun
    | none => some (.table true false [])
    | some (.table false false inner) => some (.table true false inner)
    | _ => none) path.dropLast

/-- Opens one more table of the array at a path. -/
def openItem (path : List String) (entries : Entries) : Option Entries :=
  entries.within (fun parent => parent.update (path.getLastD "") fun
    | none => some (.tables [[]])
    | some (.tables items) => some (.tables ([] :: items))
    | _ => none) path.dropLast

end Entries

mutual

/-- What a finished entry holds. -/
def Entry.toToml : Entry → Toml
  | .value v => v
  | .table _ _ entries => .table (entriesToToml entries)
  | .tables items => .arr (itemsToToml [] items)

/-- The entries of a finished table. -/
def entriesToToml : List (String × Entry) → List (String × Toml)
  | [] => []
  | (key, e) :: rest => (key, e.toToml) :: entriesToToml rest

/-- The finished tables of an array in front of later ones. -/
def itemsToToml (later : List Toml) : List (List (String × Entry)) → List Toml
  | [] => later
  | entries :: rest => itemsToToml (.table (entriesToToml entries) :: later) rest

end

/-- A key that is taken cannot be assigned again. -/
theorem Entries.assign_eq_none {key : String} {v : Toml} {free : Bool} {entries : Entries}
    (h : key ∈ entries.map (·.1)) : entries.assign key v free [] = none := by
  unfold Entries.assign
  induction entries with
  | nil => simp at h
  | cons entry rest ih =>
    obtain ⟨k, e⟩ := entry
    by_cases hk : k = key
    · simp [Entries.update, hk]
    · simp only [List.map_cons, List.mem_cons] at h
      have := ih (h.resolve_left (Ne.symm hk))
      simp [Entries.update, hk, this]

end ArchGraph.Toml
