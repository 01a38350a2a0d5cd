import ArchGraph.Corpus.Basic
import ArchGraph.Graph.Evidence
import ArchGraph.Sql.Lexer
import ArchGraph.Text.Sorted
/-!
# Migrations

The migration files of all repositories as one script: repository by repository, in the order of
their paths, with a line feed behind each. A part of the script that lies in one file is cited
with the file and its lines; a part that straddles files has no place.
-/

namespace ArchGraph.Sql

open Text (Chars)

/-- A migration file and where it starts in the script. -/
structure MigrationFile where
  repo    : String
  path    : String
  start   : Nat
  content : Chars
deriving DecidableEq, Repr

/-- Where a migration file ends. -/
def MigrationFile.stop (f : MigrationFile) : Nat := f.start + f.content.length

/-- Migration files one behind the other. -/
structure Migrations where
  text  : Chars
  files : List MigrationFile
deriving DecidableEq, Repr

/-- A place in a migration file. -/
structure Location where
  repo      : String
  path      : String
  lineStart : UInt32
  lineEnd   : UInt32
deriving DecidableEq, Repr

namespace Migrations

/-- No files. -/
def empty : Migrations := ⟨[], []⟩

/-- Whether a path is that of a migration. -/
def isMigration (path : String) : Bool :=
  ".sql".toList.isSuffixOf path.toList &&
    ("migrations/".toList.isPrefixOf path.toList || Text.contains "/migrations/".toList path.toList)

/-- Appends a file. -/
def push (m : Migrations) (repo path : String) (content : Chars) : Migrations where
  text := m.text ++ content ++ ['\n']
  files := m.files ++ [⟨repo, path, m.text.length, content⟩]

/-- The migrations of a repository that were fetched, by path. -/
def filesOf (p : Project) (r : Repository) : List (String × String) :=
  (Text.sorted (r.paths.filter isMigration)).filterMap fun path =>
    (p.content? r path).map fun content => (path, content)

/-- The migrations of a project. -/
def ofProject (p : Project) : Migrations :=
  p.repositories.foldl
    (fun m r => (filesOf p r).foldl (fun m file => m.push r.nodeId file.1 file.2.toList) m) empty

/-- The place of a part of the script, if it lies in one file. -/
def locate? (m : Migrations) (r : Region) : Option Location :=
  (m.files.find? fun f => f.start ≤ r.start && r.start ≤ f.stop).bind fun f =>
    if f.stop < r.stop then none
    else some ⟨f.repo, f.path, Text.lineAt f.content (r.start - f.start),
      Text.lineAt f.content (r.stop - f.start)⟩

/-- A citation of a part of the script. -/
def cite (m : Migrations) (kind : EvidenceKind) (nodeId : String) (r : Region) : Citation :=
  match m.locate? r with
  | some place =>
    { kind, nodeId, filePath := some place.path, lines := some (place.lineStart, place.lineEnd) }
  | none => { kind, nodeId }

/-- The repository in whose file a part of the script lies. -/
def repoOf? (m : Migrations) (r : Region) : Option String := (m.locate? r).map (·.repo)

end Migrations
end ArchGraph.Sql
