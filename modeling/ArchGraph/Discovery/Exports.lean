import ArchGraph.Graph.Kind
import ArchGraph.Pattern.Code
import ArchGraph.Text.Lines
/-!
# Exported methods

Which request methods a handler file serves, and which lines belong to which. Methods are exported
by functions, constants and lists; without any of them they are inferred from comparisons with the
request's method, and a file that shows none serves all of them. The lines of a method reach to
the next one; the lines above the first one belong to every method.
-/

namespace ArchGraph.Discovery

open Text (Chars)

/-- A method that a handler file serves, and the place of its line from 0 on. -/
structure MethodExport where
  method     : HttpMethod
  line       : Nat
  confidence : Confidence
deriving DecidableEq, Repr

namespace MethodExport

/-- The export of everything, by a file that shows no method. -/
def everything : MethodExport := ⟨.all, 0, .medium⟩

/-- The export of a named method at a place of a file. The number of its line is a 32-bit word. -/
def at? (content : Chars) (confidence : Confidence) (name : String) (place : Nat) :
    Option MethodExport :=
  let line := (Text.lineAt content place).toUInt64 - 1
  (HttpMethod.parse? name).map fun method => ⟨method, line.toNat, confidence⟩

/-- The exports at the first group of a pattern. -/
def ofPattern (content : Chars) (confidence : Confidence) (p : Pattern) : List MethodExport :=
  (p.all content).filterMap fun m =>
    (m.group? 1).bind fun name => at? content confidence name.text name.start

/-- The name under which an item of an export list is exported. -/
def exportedName (item : Chars) : Chars :=
  Text.trim ((Text.afterLast? " as ".toList item).getD item)

/-- The methods in export lists, at the places where the lists start. -/
def ofLists (content : Chars) : List MethodExport :=
  (Pattern.exportList.all content).flatMap fun m =>
    match m.group? 1 with
    | none => []
    | some list =>
      (Text.pieces (· = ',') list.chars).filterMap fun item =>
        let name := exportedName item
        if !name.isEmpty && name.all Char.isUpper then
          at? content .high (String.ofList name) list.start
        else none

/-- The methods that a file shows, in the order in which they are looked for. -/
def found (content : Chars) : List MethodExport :=
  let exported := ofPattern content .high Pattern.exportFunctionMethod ++
    ofPattern content .high Pattern.exportConstMethod ++ ofLists content
  if exported.isEmpty then ofPattern content .medium Pattern.reqMethod else exported

/-- The exports whose methods differ from those of all exports before them. -/
def firstOfEach (seen : List HttpMethod) : List MethodExport → List MethodExport
  | [] => []
  | e :: rest =>
    if seen.contains e.method then firstOfEach seen rest
    else e :: firstOfEach (e.method :: seen) rest

/-- The methods that a file serves, in the order of their lines. -/
def ofContent (content : Chars) : List MethodExport :=
  let exports := firstOfEach [] ((found content).mergeSort fun a b => a.line ≤ b.line)
  if exports.isEmpty then [everything] else exports

/-- The first line and the one behind the last line of each stretch that is read for an export of a
file of `count` lines: the lines above the first export, and its own up to the next export. -/
def stretches (count first : Nat) (e : MethodExport) (next : Option MethodExport) :
    List (Nat × Nat) :=
  if e.method = .all then [(0, count)]
  else
    let own := (e.line, min ((next.map (·.line)).getD count) count)
    if 0 < first then [(0, min first count), own] else [own]

/-- The exports, each with the next one. -/
def withNext : List MethodExport → List (MethodExport × Option MethodExport)
  | [] => []
  | e :: rest => (e, rest.head?) :: withNext rest

end MethodExport

/-- Every file serves something. -/
theorem MethodExport.ofContent_ne_nil (content : Chars) : MethodExport.ofContent content ≠ [] := by
  unfold ofContent
  simp only
  split
  · simp
  · next h => simpa using h

end ArchGraph.Discovery
