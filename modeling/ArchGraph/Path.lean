import ArchGraph.Text.Lines
/-!
# Slash-separated paths

Paths relative to a repository: names joined by `/`. The empty path and `.` both stand for the
root directory.
-/

namespace ArchGraph.Path

open Text

/-- The names that a path joins; an empty path joins one empty name. -/
def names (path : String) : List String :=
  (pieces (· = '/') path.toList).map String.ofList

/-- The path that joins the names. -/
def ofNames (names : List String) : String :=
  String.intercalate "/" names

/-- The last name of a path. -/
def fileName (path : String) : String :=
  (names path).getLastD ""

/-- The path without its last name; empty for a path of one name. -/
def parent (path : String) : String :=
  ofNames (names path).dropLast

/-- Whether `path` lies below the directory `dir`. -/
def isUnder (path dir : String) : Bool :=
  dir = "" || dir = "." || match dropStart? dir.toList path.toList with
    | some ('/' :: _) => true
    | _ => false

/-- A file name cut at its last dot into stem and extension; without a dot the extension is
empty. -/
def splitExtension (name : String) : String × String :=
  let ps := pieces (· = '.') name.toList
  if ps.length ≤ 1 then (name, "")
  else (String.ofList (joinWith ['.'] ps.dropLast), String.ofList (ps.getLastD []))

end ArchGraph.Path
