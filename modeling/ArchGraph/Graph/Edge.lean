import ArchGraph.Graph.Id
/-!
# Edges

Directed relations between nodes. An edge points at a node or, as long as nobody knows which
endpoint serves a path, at that path. The written form of a pending path starts with `api:`.
Main statements: the written form of a target read from text is that text, and only an identifier
that itself starts with `api:` is read back as something else.
-/

namespace ArchGraph

/-- What an edge points at. -/
inductive Target where
  /-- A node, by its identifier. -/
  | node (id : String)
  /-- A path whose endpoint is not known yet. -/
  | pending (path : String)
deriving DecidableEq, Repr

namespace Target

/-- What the written form of a pending path starts with. -/
def pendingMark : List Char := ['a', 'p', 'i', ':']

/-- The written form of a target. -/
def written : Target → String
  | node id => id
  | pending path => String.ofList (pendingMark ++ path.toList)

/-- The target with a written form. -/
def ofWritten (s : String) : Target :=
  match s.toList with
  | 'a' :: 'p' :: 'i' :: ':' :: path => pending (String.ofList path)
  | _ => node s

/-- Whether the target is a pending path. -/
def isPending : Target → Bool
  | node _ => false
  | pending _ => true

/-- The identifier of a resolved target. -/
def nodeId? : Target → Option String
  | node id => some id
  | pending _ => none

end Target

/-- What is known about an edge. -/
inductive EdgeDetail where
  | plain
  | httpCall (method : HttpMethod) (path client : String)
  | navigation (path via : String)
  | dataAccess (operation : DbOperation) (table : String)
  | rpc (function : String)
  | externalCall (host : Option String) (via : String)
  | authCall (call : String)
  | storageAccess (bucket : String)
  | foreignKey (column references : String)
  | trigger (trigger : String)
  | dependency (version : Option String)
  | cron (schedule : Option String)
  | envVar (names : List String)
deriving DecidableEq, Repr

/-- The method of an HTTP call. -/
def EdgeDetail.method? : EdgeDetail → Option HttpMethod
  | httpCall method _ _ => some method
  | _ => none

/-- An edge of the graph. Its identifier is made from its first target and stays when the target
is resolved. -/
structure Edge where
  id          : String
  source      : String
  target      : Target
  kind        : EdgeKind
  confidence  : Confidence
  evidenceIds : List String
  detail      : EdgeDetail
deriving DecidableEq, Repr

namespace Edge

/-- An edge without citations. The discriminator tells apart edges that share kind, source and
target. -/
def make (kind : EdgeKind) (source : String) (target : Target) (discriminator : String)
    (detail : EdgeDetail) (confidence : Confidence) : Edge :=
  { id := Id.edge kind source target.written discriminator
    source, target, kind, confidence, evidenceIds := [], detail }

/-- One node contains another. -/
def containment (source target : String) : Edge :=
  make .contains source (.node target) "" .plain .high

/-- The edge with one more citation. -/
def cite (e : Edge) (evidenceId : String) : Edge :=
  { e with evidenceIds := e.evidenceIds ++ [evidenceId] }

end Edge

namespace Target

/-- A written text that is read as a target is written as that text. -/
theorem written_ofWritten (s : String) : (ofWritten s).written = s := by
  unfold ofWritten
  split
  · next path h => simp [written, pendingMark, ← h]
  · rfl

theorem ofWritten_written_pending (path : String) :
    ofWritten (pending path).written = pending path := by
  simp [written, ofWritten, pendingMark]

end Target
end ArchGraph
