import ArchGraph.Yaml.Basic
import ArchGraph.Yaml.Token
/-!
# Nodes from tokens of YAML

A recursive descent over the tokens of a document. Every function takes the tokens from the first
one that it reads and returns the rest. An alias stands for the node of its name that began last;
inside that node it has no value. This is the documented behaviour of the reader of manifests. The
descent is bounded by a fuel that the number of tokens always covers.
-/

namespace ArchGraph.Yaml

/-- The nodes that anchors name, the last one first. -/
abbrev Anchors := List (String × Yaml)

/-- What has been read: a result, the anchors so far, and the tokens behind it. -/
abbrev Parsed (α : Type) := Option (α × Anchors × List Token)

namespace Parser

/-- The anchors when a node with an anchor begins. -/
def opened (name : Option String) (anchors : Anchors) : Anchors :=
  (name.map fun name => (name, cycle)).toList ++ anchors

/-- The anchors when a node with an anchor ends, in front of which there were `before` of them. -/
def closed (name : Option String) (before : Nat) (y : Yaml) (anchors : Anchors) : Anchors :=
  match name with
  | some name => anchors.set (anchors.length - 1 - before) (name, y)
  | none => anchors

/-- What stands in front of a node. -/
structure Properties where
  anchor : Option String
  tag    : Option String

/-- Reads an anchor and a tag in either order. -/
def properties : List Token → Properties × List Token
  | .anchor a :: .tag t :: rest => (⟨some a, some t⟩, rest)
  | .tag t :: .anchor a :: rest => (⟨some a, some t⟩, rest)
  | .anchor a :: rest => (⟨some a, none⟩, rest)
  | .tag t :: rest => (⟨none, some t⟩, rest)
  | tokens => (⟨none, none⟩, tokens)

/-- Whether no value stands between a key, a colon or a dash and the next token. -/
def endsEntry : List Token → Bool
  | [] => true
  | t :: _ => [.blockEntry, .key, .value, .blockEnd].contains t

/-- Whether no node stands between a mark of a flow collection and the next token. -/
def endsFlowEntry : List Token → Bool
  | [] => true
  | t :: _ => [.value, .flowEntry, .flowSeqEnd, .flowMapEnd].contains t

mutual

/-- Reads a node. `block` allows block collections, `indentless` sequences that are not indented
farther than their key; `handles` are the declared tag handles. -/
def node? (handles : List String) : Nat → Bool → Bool → Anchors → List Token → Parsed Yaml
  | 0, _, _, _, _ => none
  | fuel + 1, block, indentless, anchors, tokens =>
    match tokens with
    | .alias name :: rest => (anchors.lookup name).map fun y => (y, anchors, rest)
    | _ =>
      let (props, rest) := properties tokens
      if props.tag.any fun t => !handles.contains t then none
      else
        let before := anchors.length
        let anchors := opened props.anchor anchors
        let parsed : Parsed Yaml := match rest with
          | .scalar plain text :: rest => some (scalar plain text, anchors, rest)
          | .flowSeq :: rest =>
            (flowItems? handles fuel true anchors rest).map fun (ys, more) => (seq ys, more)
          | .flowMap :: rest =>
            (flowPairs? handles fuel true anchors rest).map fun (ps, more) => (map ps, more)
          | .blockEntry :: _ =>
            if indentless then
              (indentlessItems? handles fuel anchors rest).map fun (ys, more) => (seq ys, more)
            else if props.anchor.isSome || props.tag.isSome then some (missing, anchors, rest)
            else none
          | .blockSeq :: behind =>
            if block then
              (blockItems? handles fuel anchors behind).map fun (ys, more) => (seq ys, more)
            else if props.anchor.isSome || props.tag.isSome then some (missing, anchors, rest)
            else none
          | .blockMap :: behind =>
            if block then
              (blockPairs? handles fuel anchors behind).map fun (ps, more) => (map ps, more)
            else if props.anchor.isSome || props.tag.isSome then some (missing, anchors, rest)
            else none
          | _ =>
            if props.anchor.isSome || props.tag.isSome then some (missing, anchors, rest) else none
        parsed.map fun (y, anchors, rest) => (y, closed props.anchor before y anchors, rest)

/-- Reads the items of a block sequence. -/
def blockItems? (handles : List String) : Nat → Anchors → List Token → Parsed (List Yaml)
  | 0, _, _ => none
  | fuel + 1, anchors, tokens =>
    match tokens with
    | .blockEntry :: rest =>
      let item : Parsed Yaml := match rest with
        | .blockEntry :: _ | .blockEnd :: _ => some (missing, anchors, rest)
        | _ => node? handles fuel true false anchors rest
      match item with
      | none => none
      | some (y, anchors, rest) =>
        (blockItems? handles fuel anchors rest).map fun (ys, more) => (y :: ys, more)
    | .blockEnd :: rest => some ([], anchors, rest)
    | _ => none

/-- Reads the items of a sequence that is not indented farther than its key. -/
def indentlessItems? (handles : List String) : Nat → Anchors → List Token → Parsed (List Yaml)
  | 0, _, _ => none
  | fuel + 1, anchors, tokens =>
    match tokens with
    | .blockEntry :: rest =>
      let item : Parsed Yaml :=
        if endsEntry rest then some (missing, anchors, rest)
        else node? handles fuel true false anchors rest
      match item with
      | none => none
      | some (y, anchors, rest) =>
        (indentlessItems? handles fuel anchors rest).map fun (ys, more) => (y :: ys, more)
    | _ => some ([], anchors, tokens)

/-- Reads a key or a value of a block mapping, which may be missing. -/
def blockPart? (handles : List String) : Nat → Anchors → List Token → Parsed Yaml
  | 0, _, _ => none
  | fuel + 1, anchors, tokens =>
    match tokens with
    | .key :: _ | .value :: _ | .blockEnd :: _ => some (missing, anchors, tokens)
    | _ => node? handles fuel true true anchors tokens

/-- Reads the pairs of a block mapping. -/
def blockPairs? (handles : List String) :
    Nat → Anchors → List Token → Parsed (List (Yaml × Yaml))
  | 0, _, _ => none
  | fuel + 1, anchors, tokens =>
    match tokens with
    | .key :: rest =>
      match blockPart? handles fuel anchors rest with
      | none => none
      | some (k, anchors, rest) =>
        let value : Parsed Yaml := match rest with
          | .value :: rest => blockPart? handles fuel anchors rest
          | _ => some (missing, anchors, rest)
        match value with
        | none => none
        | some (v, anchors, rest) =>
          (blockPairs? handles fuel anchors rest).map fun (ps, more) => ((k, v) :: ps, more)
    | .blockEnd :: rest => some ([], anchors, rest)
    | _ => none

/-- Reads a key or a value inside a flow collection, which may be missing. -/
def flowPart? (handles : List String) : Nat → Anchors → List Token → Parsed Yaml
  | 0, _, _ => none
  | fuel + 1, anchors, tokens =>
    if endsFlowEntry tokens then some (missing, anchors, tokens)
    else node? handles fuel false false anchors tokens

/-- Reads a key behind its mark inside a flow collection, and its value. -/
def flowPair? (handles : List String) : Nat → Anchors → List Token → Parsed (Yaml × Yaml)
  | 0, _, _ => none
  | fuel + 1, anchors, tokens =>
    match flowPart? handles fuel anchors tokens with
    | none => none
    | some (k, anchors, rest) =>
      let value : Parsed Yaml := match rest with
        | .value :: rest => flowPart? handles fuel anchors rest
        | _ => some (missing, anchors, rest)
      value.map fun (v, more) => ((k, v), more)

/-- Reads the items of a flow sequence, `first` if none was read yet. A key makes a mapping of one
pair. -/
def flowItems? (handles : List String) : Nat → Bool → Anchors → List Token → Parsed (List Yaml)
  | 0, _, _, _ => none
  | fuel + 1, first, anchors, tokens =>
    match tokens with
    | .flowSeqEnd :: rest => some ([], anchors, rest)
    | _ =>
      let separated := match tokens with
        | .flowEntry :: rest => if first then none else some rest
        | _ => if first then some tokens else none
      match separated with
      | none => none
      | some tokens =>
        let item : Parsed (Option Yaml) := match tokens with
          | .flowSeqEnd :: _ => some (none, anchors, tokens)
          | .key :: rest =>
            (flowPair? handles fuel anchors rest).map fun (p, more) => (some (map [p]), more)
          | _ => (node? handles fuel false false anchors tokens).map fun (y, more) => (some y, more)
        match item with
        | none => none
        | some (item, anchors, rest) =>
          (flowItems? handles fuel false anchors rest).map fun (ys, more) =>
            (item.toList ++ ys, more)

/-- Reads the pairs of a flow mapping, `first` if none was read yet. A node without a key mark is a
key without a value. -/
def flowPairs? (handles : List String) :
    Nat → Bool → Anchors → List Token → Parsed (List (Yaml × Yaml))
  | 0, _, _, _ => none
  | fuel + 1, first, anchors, tokens =>
    match tokens with
    | .flowMapEnd :: rest => some ([], anchors, rest)
    | _ =>
      let separated := match tokens with
        | .flowEntry :: rest => if first then none else some rest
        | _ => if first then some tokens else none
      match separated with
      | none => none
      | some tokens =>
        let pair : Parsed (Option (Yaml × Yaml)) := match tokens with
          | .flowMapEnd :: _ => some (none, anchors, tokens)
          | .key :: rest =>
            (flowPair? handles fuel anchors rest).map fun (p, more) => (some p, more)
          | _ =>
            (node? handles fuel false false anchors tokens).map fun (y, more) =>
              (some (y, missing), more)
        match pair with
        | none => none
        | some (pair, anchors, rest) =>
          (flowPairs? handles fuel false anchors rest).map fun (ps, more) =>
            (pair.toList ++ ps, more)

end

/-- The handles that directives declare beside the ones that are always there; a handle may be
declared once, and a version may be given once. -/
def directives? (versions : Nat) (handles : List String) :
    List Token → Option (Nat × List String × List Token)
  | .directive :: rest => if versions = 0 then directives? 1 handles rest else none
  | .handle name :: rest =>
    if handles.contains name then none else directives? versions (name :: handles) rest
  | tokens => some (versions, handles, tokens)

/-- Reads the content of a document, which may be missing. -/
def content? (handles : List String) (tokens : List Token) : Option (Yaml × List Token) :=
  match tokens with
  | [] | .documentEnd :: _ | .documentStart :: _ | .directive :: _ | .handle _ :: _ =>
    some (missing, tokens)
  | _ => (node? ("" :: handles) (4 * tokens.length + 4) true false [] tokens).map
    fun (y, _, rest) => (y, rest)

/-- Reads the only document of a text, `missing` if there is none. Marks behind it may only end
it. -/
def document? (tokens : List Token) : Option Yaml :=
  match tokens with
  | [] => some missing
  | _ => do
    let (versions, handles, rest) ← directives? 0 [] tokens
    let (y, rest) ← match rest with
      | .documentStart :: rest => content? handles rest
      | _ =>
        if versions = 0 && handles.isEmpty && rest.head? ≠ some .documentEnd then
          content? handles rest
        else none
    if rest.all (· = .documentEnd) then some y else none

end Parser

/-- The node of a text that holds at most one document. -/
def ofText? (text : String) : Option Yaml := (tokens? text).bind Parser.document?

end ArchGraph.Yaml
