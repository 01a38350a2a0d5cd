import ArchGraph.Route.Basic
/-!
# Matching paths with routes

The pattern of a route. A segment in square brackets, or behind a colon, takes one name of a
path, `[...x]` takes one or more, `[[...x]]` any number, and every other segment itself. A path
may end in one slash more.
-/

namespace ArchGraph.Route

open Text (dropStart?)

/-- What a segment of a route takes of a path. -/
inductive Segment where
  /-- The name itself. -/
  | fixed (name : String)
  /-- Any one name. -/
  | single
  /-- One or more names. -/
  | rest
  /-- Any number of names. -/
  | optionalRest
deriving DecidableEq, Repr

namespace Segment

/-- What a segment takes. -/
def ofString (s : String) : Segment :=
  let cs := s.toList
  if (dropStart? ['[', '[', '.', '.', '.'] cs).isSome ∧
      (dropStart? [']', ']'] cs.reverse).isSome then
    optionalRest
  else if (dropStart? ['[', '.', '.', '.'] cs).isSome ∧ endsWith ']' s then rest
  else if (startsWith '[' s ∧ endsWith ']' s) ∨ startsWith ':' s then single
  else fixed s

/-- The pattern of a segment together with the slash in front of it. -/
def pattern : Segment → Pattern
  | fixed name => Pattern.lit "/" ++ Pattern.lit name
  | single => Pattern.lit "/" ++ .many (· != '/') 1
  | rest => Pattern.lit "/" ++ .many (· != '\n') 1
  | optionalRest => .opt (Pattern.lit "/" ++ .many (· != '\n') 0)

end Segment

/-- What the segments of a route take. -/
def shape (route : String) : List Segment := (segments route).map Segment.ofString

/-- The pattern of a route over whole paths. -/
def pattern (route : String) : Pattern :=
  .concat ((shape route).map Segment.pattern ++ [.opt (Pattern.lit "/"), .look .textEnd])

/-- Whether a route's pattern matches a whole path. -/
def accepts (route path : String) : Bool :=
  ((pattern route).matchAt? (Cursor.start path.toList)).isSome

end ArchGraph.Route
