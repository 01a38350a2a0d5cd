import ArchGraph.Ignore.Glob
/-!
# Ignore files

The rules of an ignore file, one a line: globs of paths to ignore, or, behind an exclamation mark,
to keep. Of the rules that select a path the last one counts. A rule that ends with a slash is for
directories only; a rule with a slash elsewhere is for paths from the directory of the file on,
any other rule for names at any depth. Lines that are no well-formed rules are passed over, and
nothing is read behind a line that is no text. The reading follows what the walker of directories
documents of it; where version control keeps rules outside of the walked directories depends on the
machine (`GitRules`).
-/

namespace ArchGraph.Ignore

open Text (Chars isBlank dropEndWhile dropStart?)

/-- A rule of an ignore file. -/
structure Rule where
  pattern  : Pattern
  keeps    : Bool
  dirsOnly : Bool

namespace Rule

/-- The glob of a rule: at any depth unless it is anchored, and only inside a directory if it ends
with two stars. -/
def glob (anchored : Bool) (written : Chars) : Chars :=
  let glob :=
    if anchored || written.contains '/' || written = ['*', '*'] then written
    else ['*', '*', '/'] ++ written
  if ['/', '*', '*'].isSuffixOf glob then glob ++ ['/', '*'] else glob

/-- The glob of a rule without the slash that makes it one for directories, or nothing if it is
for files too. A backslash in front of the slash is dropped with it. -/
def dirGlob? (written : Chars) : Option Chars :=
  if written.getLast? = some '/' then
    let written := written.dropLast
    some (if written.getLast? = some '\\' then written.dropLast else written)
  else none

/-- The rule with a written glob. -/
def ofGlob? (keeps anchored : Bool) (written : Chars) : Option Rule :=
  let dir := dirGlob? written
  (parts? (glob anchored (dir.getD written))).map fun parts =>
    ⟨globPattern parts, keeps, dir.isSome⟩

/-- The rule on a line, if there is one. -/
def ofLine? (line : Chars) : Option Rule :=
  let line := if "\\ ".toList.isSuffixOf line then line else dropEndWhile isBlank line
  match line with
  | [] => none
  | '#' :: _ => none
  | '\\' :: '!' :: _ | '\\' :: '#' :: _ => ofGlob? false false line.tail
  | '!' :: '/' :: written => ofGlob? true true written
  | '!' :: written => ofGlob? true false written
  | '/' :: written => ofGlob? false true written
  | _ => ofGlob? false false line

end Rule

/-- The lines of a file up to the first one that is no text. `line` holds the bytes of the current
line, the last one first. -/
def textLines (line : List UInt8) : List UInt8 → List Chars
  | [] =>
    if line.isEmpty then []
    else ((String.fromUTF8? ⟨line.reverse.toArray⟩).map String.toList).toList
  | b :: rest =>
    if b = 10 then
      let line := match line with
        | 13 :: before => before
        | _ => line
      match String.fromUTF8? ⟨line.reverse.toArray⟩ with
      | some text => text.toList :: textLines [] rest
      | none => []
    else textLines (b :: line) rest

/-- The rules of a file. Byte order marks in front of it are passed over. -/
def rulesOf (bytes : ByteArray) : List Rule :=
  let lines := match textLines [] bytes.toList with
    | [] => []
    | first :: more => first.dropWhile (· = '\uFEFF') :: more
  lines.filterMap Rule.ofLine?

/-- Whether rules ignore a path or keep it: the last rule that selects it says. -/
def verdict? (rules : List Rule) (path : Chars) (isDir : Bool) : Option Bool :=
  (rules.findRev? fun r => (isDir || !r.dirsOnly) && selects r.pattern path).map fun r => !r.keeps

/-- What version control says about a walk from outside of the walked directories. -/
structure GitRules where
  /-- Whether the rules of the user ignore or keep an entry: by the path that the walk starts with,
  the names that lead on to the entry, and whether it is a directory. -/
  user   : String → List String → Bool → Option Bool
  /-- The rules for the directory of a `.git` file with some bytes, which lead to the repository. -/
  linked : ByteArray → List Rule

/-- Nothing is said. -/
def GitRules.none : GitRules := ⟨fun _ _ _ => Option.none, fun _ => []⟩

end ArchGraph.Ignore
