import ArchGraph.Path
import ArchGraph.Pattern.Code
import ArchGraph.Text.Case
/-!
# Routes

A route joins segments by slashes. A segment in square brackets is dynamic, one with an ellipsis
takes several names of a path. Paths found in sources are normalized before they are compared
with routes. Main statement: a normalized path is never empty.
-/

namespace ArchGraph.Route

open Text (Chars)

/-- The non-empty segments of a route. -/
def segments (route : String) : List String :=
  (Path.names route).filter (· ≠ "")

/-- The number of segments of a route. -/
def depth (route : String) : Nat := (segments route).length

/-- Whether a string starts with a character. -/
def startsWith (c : Char) (s : String) : Bool := s.toList.head? == some c

/-- Whether a string ends with a character. -/
def endsWith (c : Char) (s : String) : Bool := s.toList.getLast? == some c

/-- The number of segments that start with a square bracket. -/
def dynamicSegments (route : String) : Nat :=
  (segments route).countP (startsWith '[')

/-- The number of segments with an ellipsis. -/
def catchAllSegments (route : String) : Nat :=
  (segments route).countP fun s => Text.contains ['.', '.', '.'] s.toList

/-- Whether a route has a dynamic segment. -/
def isDynamic (route : String) : Bool := 0 < dynamicSegments route

/-- What an expression inside a path becomes. -/
def parameter : Chars := [':', 'p', 'a', 'r', 'a', 'm']

/-- A path found in a source: expressions become parameters, query, fragment and trailing slashes
are dropped, and nothing becomes the root. -/
def normalizeChars (raw : Chars) : Chars :=
  let replaced := Pattern.templateExpr.replaceAll parameter (Text.trim raw)
  let path := Text.dropEndWhile (· == '/') (replaced.takeWhile fun c => c != '?' && c != '#')
  if path.isEmpty then ['/'] else path

/-- A path found in a source, normalized. -/
def normalize (raw : String) : String := String.ofList (normalizeChars raw.toList)

/-- The places under which handlers are mounted. -/
def mounts : List String := ["/api", "/functions/v1"]

/-- The route below a mount, if the route lies there. -/
def below? (mount route : String) : Option String :=
  match Text.dropStart? mount.toList route.toList with
  | some [] => some "/"
  | some ('/' :: rest) => some (String.ofList ('/' :: rest))
  | _ => none

/-- The route without the mount of handlers, so that handlers and screens share one space of
routes. -/
def stripMount (route : String) : String :=
  (mounts.findSome? fun mount => below? mount route).getD route

/-- The feature that the first segment of a route stands for. -/
def featureTags : List (String × String) :=
  [("auth", "auth"), ("login", "auth"), ("signin", "auth"), ("sign-in", "auth"),
   ("signup", "auth"), ("sign-up", "auth"), ("register", "auth"), ("logout", "auth"),
   ("dashboard", "dashboard"), ("settings", "settings"), ("account", "settings"),
   ("profile", "profile"), ("admin", "admin"), ("billing", "billing"), ("pricing", "billing"),
   ("checkout", "billing"), ("subscription", "billing"), ("projects", "projects"),
   ("tasks", "tasks"), ("chat", "chat"), ("messages", "chat"), ("onboarding", "onboarding"),
   ("team", "team"), ("teams", "team"), ("invite", "team"), ("notifications", "notifications"),
   ("search", "search"), ("analytics", "analytics"), ("reports", "analytics"),
   ("integrations", "integrations"), ("webhooks", "integrations"), ("blog", "content"),
   ("docs", "content")]

/-- The feature tag of a route. -/
def featureTag? (route : String) : Option String :=
  (segments (stripMount route)).head?.bind fun first => featureTags.lookup (Text.lowercase first)

/-- A slug as a title: its words with their first letters in upper case. -/
def titleCase (slug : String) : String :=
  let ws := (Text.pieces (fun c => c == '-' || c == '_' || c == ' ') slug.toList).filter
    (!·.isEmpty)
  String.ofList (Text.joinWith [' '] (ws.map Text.capitalize))

/-- A normalized path is never empty. -/
theorem normalizeChars_ne_nil (raw : Chars) : normalizeChars raw ≠ [] := by
  unfold normalizeChars
  simp only
  split
  · simp
  · next h => simpa using h

end ArchGraph.Route
