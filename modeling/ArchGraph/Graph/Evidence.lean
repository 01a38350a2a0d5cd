import ArchGraph.Graph.Id
/-!
# Evidence

Citations that tie a node or an edge to a place in a source. Excerpts are trimmed and cut: at 300
characters for a line, at 500 for a whole statement. The identifier of a citation is made from
its content.
-/

namespace ArchGraph

open Text (Chars trim)

/-- The greatest length of the excerpt of a line. -/
def lineExcerptCap : Nat := 300

/-- The greatest length of the excerpt of a statement. -/
def blockExcerptCap : Nat := 500

/-- The first `cap` characters of a text. -/
def boundExcerpt (text : Chars) (cap : Nat) : Chars := text.take cap

/-- The excerpt of a line. -/
def lineExcerpt (text : Chars) : String :=
  String.ofList (boundExcerpt (trim text) lineExcerptCap)

/-- The excerpt of a statement. -/
def blockExcerpt (text : Chars) : String :=
  String.ofList (boundExcerpt (trim text) blockExcerptCap)

/-- A citation. -/
structure Evidence where
  id         : String
  kind       : EvidenceKind
  nodeId     : String
  edgeId     : Option String
  filePath   : Option String
  lineStart  : Option UInt32
  lineEnd    : Option UInt32
  excerpt    : String
  confidence : Confidence
deriving DecidableEq, Repr

/-- A citation before it has an identifier. -/
structure Citation where
  kind       : EvidenceKind
  nodeId     : String
  edgeId     : Option String := none
  filePath   : Option String := none
  lines      : Option (UInt32 × UInt32) := none
  excerpt    : String := ""
  confidence : Confidence := .high
deriving DecidableEq, Repr

namespace Citation

/-- The parts that make up the identifier of a citation. -/
def idParts (c : Citation) : List String :=
  [c.kind.name, c.nodeId, c.edgeId.getD "", c.filePath.getD "",
   (c.lines.map fun lines => toString lines.1).getD "", c.excerpt]

/-- The citation as evidence. Its last line is never before its first. -/
def evidence (c : Citation) : Evidence :=
  { id := Id.evidence c.idParts
    kind := c.kind
    nodeId := c.nodeId
    edgeId := c.edgeId
    filePath := c.filePath
    lineStart := c.lines.map (·.1)
    lineEnd := c.lines.map fun lines => max lines.2 lines.1
    excerpt := c.excerpt
    confidence := c.confidence }

/-- The citation with one line as its place and that line as its excerpt, or with `fallback` as
its excerpt if no line is known. -/
def atLine (c : Citation) (line : Option (UInt32 × Chars)) (fallback : Chars) : Citation :=
  match line with
  | some (number, text) => { c with lines := some (number, number), excerpt := lineExcerpt text }
  | none => { c with excerpt := lineExcerpt fallback }

end Citation

theorem lineExcerpt_length_le (text : Chars) : (lineExcerpt text).length ≤ lineExcerptCap := by
  rw [lineExcerpt, boundExcerpt, String.length_ofList]
  exact List.length_take_le _ _

theorem blockExcerpt_length_le (text : Chars) : (blockExcerpt text).length ≤ blockExcerptCap := by
  rw [blockExcerpt, boundExcerpt, String.length_ofList]
  exact List.length_take_le _ _

end ArchGraph
