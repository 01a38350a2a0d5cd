import ArchGraph.Pattern.Basic
/-!
# Patterns of page and handler code

Calls, links, data access, exports and references to the environment, as they are written in
web application sources. A string literal opens with a single, a double or a back quote.
-/

namespace ArchGraph.Pattern

open Text (isBlank isWord)

/-- A quote that can open a string literal. -/
def isQuote (c : Char) : Bool := c == '\x60' || c == '\'' || c == '"'

/-- A quote that opens or closes a string literal. -/
def quote : Pattern := one isQuote

/-- A single or double quote. -/
def plainQuote : Pattern := one fun c => c == '\'' || c == '"'

/-- A character that neither closes a string literal nor is blank. -/
def isPathChar (c : Char) : Bool := !(isQuote c || isBlank c)

/-- The rest of a path in a string literal. -/
def pathTail : Pattern := many isPathChar 0

/-- An upper-case ASCII letter, a digit or an underscore. -/
def isUpperName (c : Char) : Bool := c.isUpper || c.isDigit || c == '_'

/-- An upper-case ASCII letter followed by at least `least` more characters of a variable name. -/
def varName (least : Nat) : Pattern := one Char.isUpper ++ many isUpperName least

/-- An identifier of ASCII letters, digits and underscores that starts with no digit. -/
def identifier : Pattern :=
  one (fun c => c.isAlpha || c == '_') ++ many Text.isAsciiWord 0

/-- An opening bracket and the quote of a first argument. -/
def openLiteral : Pattern := lit "(" ++ blanks ++ quote

/-! ## Calls of own endpoints -/

/-- A fetch of an endpoint; group 1 is its path. -/
def fetch : Pattern :=
  edge ++ lit "fetch" ++ openLiteral ++ group 1 (lit "/api/" ++ pathTail)

/-- A call of an endpoint by a client with one function a method; group 1 is the method, group 2
the path. -/
def axios : Pattern :=
  edge ++ lit "axios." ++ group 1 (anyOf ["get", "post", "put", "patch", "delete"]) ++
    openLiteral ++ group 2 (lit "/api/" ++ pathTail)

/-- A call of an edge function; group 1 is its name. -/
def functionsInvoke : Pattern :=
  lit ".functions.invoke" ++ openLiteral ++ group 1 (many (fun c => isWord c || c == '-') 1)

/-- A method among the options of a fetch; group 1 is the method. -/
def fetchMethod : Pattern :=
  edge ++ lit "method" ++ blanks ++ lit ":" ++ blanks ++ quote ++ group 1 (many Char.isAlpha 1) ++
    quote

/-! ## Navigation -/

/-- A path that starts at the root, in a string literal. -/
def rootedPath : Pattern := lit "/" ++ pathTail

/-- A link; group 1 is the path. -/
def linkHref : Pattern :=
  edge ++ lit "href=" ++ opt (lit "\x7b") ++ blanks ++ quote ++ group 1 rootedPath

/-- A move of the router; group 1 is the function, group 2 the path. -/
def routerNav : Pattern :=
  edge ++ lit "router." ++ group 1 (anyOf ["push", "replace"]) ++ openLiteral ++ group 2 rootedPath

/-- A redirection; group 1 is the function, group 2 the path. -/
def redirect : Pattern :=
  edge ++ group 1 (anyOf ["redirect", "permanentRedirect"]) ++ openLiteral ++ group 2 rootedPath

/-- A call that navigates; group 1 is the function, group 2 the path. -/
def navigate : Pattern :=
  edge ++ group 1 (anyOf ["navigate", "goto"]) ++ openLiteral ++ group 2 rootedPath

/-- An expression inside a template literal. -/
def templateExpr : Pattern :=
  lit "$\x7b" ++ many (· != '\x7d') 0 ++ lit "\x7d"

/-! ## Backend clients -/

/-- The choice of a table; group 1 is the table. -/
def tableFrom : Pattern :=
  lit ".from" ++ openLiteral ++ group 1 identifier ++ quote ++ blanks ++ lit ")"

/-- The choice of a storage bucket; group 1 is the bucket. -/
def storageFrom : Pattern :=
  lit ".storage" ++ blanks ++ lit ".from" ++ openLiteral ++
    group 1 (many (fun c => Text.isAsciiWord c || c == '-') 1) ++ quote

/-- An operation on a table; group 1 is its name. -/
def dbOp : Pattern :=
  lit "." ++ group 1 (anyOf ["select", "insert", "update", "delete", "upsert"]) ++ lit "("

/-- A call of a database function; group 1 is its name. -/
def rpc : Pattern := lit ".rpc" ++ openLiteral ++ group 1 identifier ++ quote

/-- A call of the authentication client (group 1) or of a session helper (group 2). -/
def authCall : Pattern :=
  alt
    (lit ".auth." ++ group 1 (opt (lit "admin.") ++ many Char.isAlpha 1) ++ lit "(")
    (edge ++ group 2 (anyOf ["getServerSession", "currentUser", "getAuth"]) ++ lit "(")

/-! ## External services -/

/-- The scheme of an absolute address. -/
def scheme : Pattern := lit "http" ++ opt (lit "s") ++ lit "://"

/-- A request to an absolute address; group 1 is the function, group 2 the address. -/
def externalUrl : Pattern :=
  edge ++ group 1 (alt (lit "fetch") (lit "axios" ++ opt (lit "." ++ many Char.isLower 1))) ++
    openLiteral ++ group 2 (scheme ++ many isPathChar 1)

/-- The host of an absolute address in group 1. -/
def urlHost : Pattern :=
  look .textStart ++ scheme ++
    group 1 (many (fun c => !("/:?#\x60'$".toList.contains c)) 1)

/-- The construction of a service client; group 1 is its class. -/
def sdkConstructor : Pattern :=
  edge ++ lit "new" ++ gap ++
    group 1 (anyOf ["Stripe", "OpenAI", "Anthropic", "Resend", "Twilio"]) ++ blanks ++ lit "("

/-- A reference to an environment variable, in one of three groups. -/
def envRef : Pattern :=
  oneOf
    [lit "process.env." ++ group 1 (varName 0),
     lit "import.meta.env." ++ group 2 (varName 0),
     lit "Deno.env.get(" ++ blanks ++ plainQuote ++ group 3 (varName 0) ++ plainQuote]

/-! ## Exports of handlers -/

/-- The names of the request methods. -/
def methodNames : List String := ["GET", "POST", "PUT", "PATCH", "DELETE", "HEAD", "OPTIONS"]

/-- An exported function named by a method; group 1 is the method. -/
def exportFunctionMethod : Pattern :=
  look .lineStart ++ blanks ++ lit "export" ++ gap ++ opt (lit "async" ++ gap) ++
    lit "function" ++ gap ++ group 1 (anyOf methodNames) ++ edge

/-- An exported constant named by a method; group 1 is the method. -/
def exportConstMethod : Pattern :=
  look .lineStart ++ blanks ++ lit "export" ++ gap ++ anyOf ["const", "let"] ++ gap ++
    group 1 (anyOf methodNames) ++ edge

/-- An export list; group 1 holds its items. -/
def exportList : Pattern :=
  look .lineStart ++ blanks ++ lit "export" ++ blanks ++ lit "\x7b" ++
    group 1 (many (· != '\x7d') 0) ++ lit "\x7d"

/-- A comparison of the request's method; group 1 is the method. -/
def reqMethod : Pattern :=
  edge ++ anyOf ["req", "request"] ++ lit ".method" ++ blanks ++ lit "==" ++ opt (lit "=") ++
    blanks ++ plainQuote ++ group 1 (anyOf methodNames) ++ plainQuote

/-! ## Environment variables -/

/-- An assignment in an environment file; group 1 is the variable. -/
def envAssignment : Pattern :=
  look .textStart ++ blanks ++ opt (lit "export" ++ gap) ++ group 1 (varName 2) ++ blanks ++ lit "="

/-- A reference to a secret variable; group 1 is the variable. -/
def secretEnv : Pattern :=
  oneOf
    [lit "process.env.", lit "import.meta.env.", lit "Deno.env.get(" ++ blanks ++ plainQuote,
     lit "env(" ++ blanks ++ plainQuote] ++
    group 1 (varName 2)

/-- A mention of a public variable in group 1. -/
def publicEnv : Pattern :=
  edge ++
    group 1
      (anyOf ["NEXT_PUBLIC", "VITE", "PUBLIC", "EXPO_PUBLIC", "REACT_APP", "NUXT_PUBLIC"] ++
        lit "_" ++ many isUpperName 1)

end ArchGraph.Pattern
