import ArchGraph.Graph.Findings
import ArchGraph.Text.Lines
/-!
# Lines of sources

A line of a source file together with the node that the file stands for. What is found on a line
is cited with the file, the line and its text.
-/

namespace ArchGraph.Discovery

open Text (Chars)

/-- A line of a source file. -/
structure Site where
  nodeId : String
  path   : String
  /-- The number of the line, from 1 on. -/
  number : Nat
  line   : Chars
deriving DecidableEq, Repr

namespace Site

/-- The lines of a source file. -/
def ofLines (nodeId path : String) (lines : List Chars) : List Site :=
  (lines.zipIdx 1).map fun (line, number) => ⟨nodeId, path, number, line⟩

/-- A citation of the line. Numbers of lines are cited as 32-bit words. -/
def citation (s : Site) (kind : EvidenceKind) : Citation :=
  let number := s.number.toUInt32
  { kind, nodeId := s.nodeId, filePath := some s.path, lines := some (number, number)
    excerpt := lineExcerpt s.line }

/-- An edge that the line backs. The citation is as sure as the edge. -/
def citedEdge (s : Site) (kind : EvidenceKind) (e : Edge) : Findings :=
  .citedEdge e { s.citation kind with edgeId := some e.id, confidence := e.confidence }

/-- How many lines below its own are looked at, when `lookahead` are in all. -/
def below (lookahead : UInt64) : UInt64 := if lookahead = 0 then 0 else lookahead - 1

/-- What stands behind a place of the line, and on the lines below it: `lookahead` lines in all,
none from `stop` on. -/
def ahead (s : Site) (place : Nat) (lines : List Chars) (lookahead : UInt64) (stop : Nat) : Chars :=
  s.line.drop place ++ '\n' :: Text.window lines s.number (below lookahead) stop

/-- Whether looking ahead from the line overflows. -/
def overflows (s : Site) (lookahead : UInt64) : Bool := Text.overflows s.number (below lookahead)

end Site
end ArchGraph.Discovery
