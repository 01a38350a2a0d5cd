import ArchGraph.Proofs.Discovery.Steps
/-!
# How findings are worded

What the identifiers of edges and of evidence digest can be read off the edges and the evidence
themselves (`Edge.use`, `Evidence.use`), and excerpts are cut at one of two lengths, the greater one
for statements that declare a table or a function (`Bounded`). One lemma for each function of a
stage, as for what findings are built from. Main statement: `worded_findings`.
-/

namespace ArchGraph

/-! ## Uses of the generator -/

/-- What tells an edge apart from others of its kind between the same nodes. -/
def EdgeDetail.discriminator : EdgeDetail → String
  | .plain | .navigation .. | .rpc _ | .authCall _ | .dependency _ => ""
  | .httpCall method _ _ => method.name
  | .dataAccess operation _ => operation.name
  | .externalCall host _ => host.getD ""
  | .storageAccess bucket => bucket
  | .foreignKey column _ => column
  | .trigger name => name
  | .cron _ => "cron"
  | .envVar _ => "env"

/-- The use of the generator for the identifier of an edge, as long as it points where it first
pointed. -/
def Edge.use (e : Edge) : String × List String :=
  ("edge", [e.kind.name, e.source, e.target.written, Id.normalize e.detail.discriminator])

/-- The use of the generator for the identifier of a piece of evidence. -/
def Evidence.use (r : Evidence) : String × List String :=
  ("ev", [r.kind.name, r.nodeId, r.edgeId.getD "", r.filePath.getD "",
    (r.lineStart.map fun line => toString line).getD "", r.excerpt])

theorem Citation.use_evidence (c : Citation) : c.evidence.use = ("ev", c.idParts) := by
  simp only [Evidence.use, Citation.evidence, Citation.idParts, Option.map_map]
  rfl

theorem Citation.id_evidence (c : Citation) :
    c.evidence.id = Id.ofParts c.evidence.use.1 c.evidence.use.2 := by
  rw [use_evidence]
  rfl

namespace Discovery

/-- An edge is named by what it says. -/
def Named (e : Edge) : Prop := e.id = Id.ofParts e.use.1 e.use.2

/-- An excerpt is not too long. Only a statement that declares a table or a function may be longer
than a line. -/
def Bounded (r : Evidence) : Prop :=
  r.excerpt.length ≤ lineExcerptCap ∨
    r.excerpt.length ≤ blockExcerptCap ∧ (r.kind = .dbTable ∨ r.kind = .dbFunction) ∧
      r.edgeId = none

/-- The edges of findings are named by what they say, and the excerpts are not too long. -/
structure Worded (f : Findings) : Prop where
  edges    : ∀ e ∈ f.edges, Named e
  excerpts : ∀ r ∈ f.evidence, Bounded r

/-! ## Laws -/

theorem named_make (kind : EdgeKind) (source : String) (target : Target) (detail : EdgeDetail)
    (confidence : Confidence) :
    Named (Edge.make kind source target detail.discriminator detail confidence) := rfl

theorem Named.cite {e : Edge} (h : Named e) (evidenceId : String) : Named (e.cite evidenceId) := h

theorem worded_none {f : Findings} (he : f.edges = []) (hr : f.evidence = []) : Worded f :=
  ⟨by simp [he], by simp [hr]⟩

theorem worded_empty : Worded .empty := worded_none rfl rfl

theorem worded_node (n : Node) : Worded (.node n) := worded_none rfl rfl

theorem Worded.append {a b : Findings} (ha : Worded a) (hb : Worded b) : Worded (a ++ b) where
  edges e he := (List.mem_append.1 he).elim (ha.edges e) (hb.edges e)
  excerpts r hr := (List.mem_append.1 hr).elim (ha.excerpts r) (hb.excerpts r)

theorem worded_concat : ∀ {all : List Findings}, (∀ f ∈ all, Worded f) → Worded (.concat all)
  | [], _ => worded_empty
  | f :: all, h => by
    rw [Findings.concat_cons]
    exact .append (h f (by simp)) (worded_concat fun f hf => h f (by simp [hf]))

theorem worded_concat_map {α : Type} {l : List α} {find : α → Findings}
    (h : ∀ a ∈ l, Worded (find a)) : Worded (.concat (l.map find)) :=
  worded_concat (List.forall_mem_map.2 h)

theorem worded_ite {c : Prop} [Decidable c] {a b : Findings} (ha : Worded a) (hb : Worded b) :
    Worded (if c then a else b) := by
  split
  · exact ha
  · exact hb

theorem worded_citation {c : Citation} (h : Bounded c.evidence) : Worded (.citation c) where
  edges _ he := absurd he List.not_mem_nil
  excerpts _ hr := List.mem_singleton.1 hr ▸ h

theorem worded_containment (a b : String) : Worded (.edge (Edge.containment a b)) where
  edges _ he := List.mem_singleton.1 he ▸ rfl
  excerpts _ hr := absurd hr List.not_mem_nil

theorem worded_citedEdge {e : Edge} {c : Citation} (he : Named e) (hc : Bounded c.evidence) :
    Worded (.citedEdge e c) where
  edges _ h := List.mem_singleton.1 h ▸ he.cite _
  excerpts _ h := List.mem_singleton.1 h ▸ hc

/-! ## Excerpts -/

theorem bounded_line {c : Citation} {text : Text.Chars} (h : c.excerpt = lineExcerpt text) :
    Bounded c.evidence := by
  refine .inl ?_
  rw [show c.evidence.excerpt = lineExcerpt text from h]
  exact lineExcerpt_length_le text

theorem bounded_atLine (c : Citation) (line : Option (UInt32 × Text.Chars))
    (fallback : Text.Chars) : Bounded (c.atLine line fallback).evidence := by
  unfold Citation.atLine
  split
  · exact bounded_line rfl
  · exact bounded_line rfl

theorem bounded_site (s : Site) (kind : EvidenceKind) : Bounded (s.citation kind).evidence :=
  bounded_line rfl

/-- An edge that is cited by a line. -/
theorem worded_citedAt {s : Site} {kind : EvidenceKind} {e : Edge} (he : Named e) :
    Worded (s.citedEdge kind e) := worded_citedEdge he (bounded_line rfl)

/-! ## The inventory -/

theorem worded_warning (message : String) : Worded (.warning message) := worded_none rfl rfl

theorem worded_malformedReadings {α : Type} (name : String) (rs : List (Reading α)) :
    Worded (malformedReadings name rs) :=
  worded_concat_map fun _ _ => worded_warning _

theorem worded_workspaceFile (p : Project) (r : Repository) : Worded (workspaceFile p r).2 := by
  unfold workspaceFile
  split
  · exact worded_empty
  · split
    · exact worded_empty
    · exact worded_warning _

theorem worded_appFindings (repo label : String) (detail : AppDetail) :
    Worded (appFindings repo label detail) :=
  .append (worded_node _) (worded_containment _ _)

theorem worded_libraryFindings (repo : String) (m : Manifest) : Worded (libraryFindings repo m) :=
  .append (worded_node _) (worded_containment _ _)

theorem worded_dependencyFindings (repo : String) (m : Manifest) (d : Dependency) :
    Worded (dependencyFindings repo m d) :=
  .append (worded_node _)
    (worded_citedEdge (named_make .dependsOn _ _ (.dependency d.version) .high)
      (bounded_atLine _ _ _))

theorem worded_inventoryOf (p : Project) (r : Repository) : Worded (inventoryOf p r) :=
  .append (.append (.append (.append (.append (.append (worded_malformedReadings _ _)
    (worded_malformedReadings _ _)) (worded_workspaceFile p r)) (worded_node _))
    (worded_ite (worded_appFindings _ _ _) (worded_concat_map fun _ _ => worded_appFindings _ _ _)))
    (worded_concat_map fun m _ => worded_libraryFindings _ m))
    (worded_concat_map fun m _ => worded_concat_map fun d _ => worded_dependencyFindings _ m d)

/-! ## Screens -/

section Screens

variable (s : Site)

theorem worded_callAt (path : String) (method : HttpMethod) (confidence : Confidence)
    (client : String) : Worded (callAt s path method confidence client) :=
  worded_citedAt (named_make .calls _ _ (.httpCall method path client) confidence)

theorem worded_fetchesAt (lines : List Text.Chars) (lookahead : UInt64) :
    Worded (fetchesAt lines lookahead s) :=
  worded_concat_map fun _ _ => worded_callAt s _ _ _ _

theorem worded_clientCallsAt : Worded (clientCallsAt s) := by
  refine .append (worded_concat_map fun m _ => ?_)
    (worded_concat_map fun m _ => worded_callAt s _ _ _ _)
  split
  · exact worded_callAt s _ _ _ _
  · exact worded_empty

theorem worded_clientUseAt : Worded (clientUseAt s) := by
  simp only [clientUseAt]
  split
  · exact worded_citation (bounded_site s _)
  · exact worded_empty

theorem worded_linkAt (screens : Route.Index) (repo raw via : String) :
    Worded (linkAt screens repo s raw via) := by
  simp only [linkAt]
  split
  · exact worded_empty
  · split
    · split
      · exact worded_empty
      · exact worded_citedAt (named_make .navigatesTo _ _ (.navigation _ via) .high)
    · exact worded_empty

theorem worded_linksAt (screens : Route.Index) (repo : String) :
    Worded (linksAt screens repo s) := by
  have hlink (raw via : String) := worded_linkAt s screens repo raw via
  exact .append (.append (.append (worded_concat_map fun _ _ => hlink _ _)
    (worded_concat_map fun _ _ => hlink _ _)) (worded_concat_map fun _ _ => hlink _ _))
    (worded_concat_map fun _ _ => hlink _ _)

theorem worded_pageFindings (settings : AnalysisSettings) (apps : Apps) (screens : Route.Index)
    (repo : String) (content : Option String) (path : String) (screen : Node) :
    Worded (pageFindings settings apps screens repo content path screen) := by
  refine .append (.append (.append (worded_citation (bounded_atLine _ _ _)) (worded_node _))
    (worded_concat_map fun _ _ => worded_containment _ _)) (worded_concat_map fun s _ => ?_)
  exact .append (.append (.append (worded_fetchesAt s _ _) (worded_clientCallsAt s))
    (worded_linksAt s _ _)) (worded_clientUseAt s)

theorem worded_screensOf (settings : AnalysisSettings) (p : Project) (g : Graph) (r : Repository) :
    Worded (screensOf settings p g r) :=
  worded_concat_map fun _ _ => worded_pageFindings _ _ _ _ _ _ _

end Screens

/-! ## Endpoints -/

section Endpoints

variable (s : Site)

theorem worded_tableAccess (lines : List Text.Chars) (lookahead : UInt64) (stop : Nat) (m : Match) :
    Worded (tableAccess lines lookahead stop s m) :=
  worded_citedAt (named_make _ _ _ (.dataAccess _ _) _)

theorem worded_dataAt (lines : List Text.Chars) (lookahead : UInt64) (stop : Nat) :
    Worded (dataAt lines lookahead stop s) := by
  unfold dataAt
  split
  · exact worded_citedAt (named_make .stores _ _ (.storageAccess _) .high)
  · exact worded_concat_map fun m _ => worded_tableAccess s lines lookahead stop m

theorem worded_functionsAt : Worded (functionsAt s) :=
  worded_concat_map fun _ _ => worded_citedAt (named_make .usesFunction _ _ (.rpc _) .high)

theorem worded_externalCall (m : Match) : Worded (externalCall s m) := by
  unfold externalCall
  split
  · exact worded_empty
  · simp only
    split
    · exact worded_empty
    · exact .append (worded_node _)
        (worded_citedAt (named_make .callsExternal _ _ (.externalCall (some _) _) .high))

theorem worded_clientConstruction (m : Match) : Worded (clientConstruction s m) := by
  unfold clientConstruction
  split
  · exact worded_empty
  · exact .append (worded_node _)
      (worded_citedAt (named_make .callsExternal _ _ (.externalCall none _) .medium))

theorem worded_authCallsAt : Worded (authCallsAt s) :=
  worded_concat_map fun _ _ => worded_citedAt (named_make .authenticates _ _ (.authCall _) .high)

theorem worded_environmentAt : Worded (environmentAt s) := by
  unfold environmentAt
  split
  · exact worded_citation (bounded_site s _)
  · exact worded_empty

theorem worded_handlerLine (lines : List Text.Chars) (lookahead : UInt64) (stop : Nat) :
    Worded (handlerLine lines lookahead stop s) :=
  .append (.append (.append (.append (.append (worded_dataAt s _ _ _) (worded_functionsAt s))
    (worded_concat_map fun m _ => worded_externalCall s m))
    (worded_concat_map fun m _ => worded_clientConstruction s m)) (worded_authCallsAt s))
    (worded_environmentAt s)

theorem worded_handlerFindings (lookahead : UInt64) (apps : Apps) (repo : String)
    (content : Option String) (path : String) (handler : Route.HandlerFile) :
    Worded (handlerFindings lookahead apps repo content path handler) := by
  refine worded_concat_map fun export_ _ => ?_
  exact .append (.append (.append (worded_node _) (worded_citation (bounded_atLine _ _ _)))
    (worded_concat_map fun _ _ => worded_containment _ _))
    (worded_concat_map fun stretch _ => worded_concat_map fun s _ => worded_handlerLine s _ _ _)

theorem worded_endpointsOf (settings : AnalysisSettings) (p : Project) (g : Graph)
    (r : Repository) : Worded (endpointsOf settings p g r) := by
  refine worded_concat_map fun path _ => ?_
  split
  · exact worded_handlerFindings _ _ _ _ _ _
  · exact worded_empty

end Endpoints

/-! ## The database -/

section Database

open Sql (Migrations Schema Region)

variable (m : Migrations) (s : Schema)

theorem bounded_citePart (kind : EvidenceKind) (nodeId : String) (r : Region) :
    Bounded (citePart m kind nodeId r).evidence := bounded_line rfl

theorem kind_cite (kind : EvidenceKind) (nodeId : String) (r : Region) :
    (m.cite kind nodeId r).kind = kind := by
  unfold Migrations.cite
  split <;> rfl

theorem bounded_citeBlock {kind : EvidenceKind} (h : kind = .dbTable ∨ kind = .dbFunction)
    (nodeId : String) (r : Region) : Bounded (citeBlock m kind nodeId r).evidence := by
  refine .inr ⟨blockExcerpt_length_le _, ?_, edgeId_cite m kind nodeId r⟩
  have hkind : (citeBlock m kind nodeId r).evidence.kind = kind := kind_cite m kind nodeId r
  rwa [hkind]

theorem bounded_citeMention (nodeId : String) (found : Match) :
    Bounded (citeMention m nodeId found).evidence := bounded_line rfl

theorem worded_foreignKeyEdge (t : Sql.Table) (key : String × Region) :
    Worded (foreignKeyEdge m t key) := by
  unfold foreignKeyEdge
  simp only
  split
  · exact worded_empty
  · split
    · exact worded_empty
    · exact worded_citedEdge (named_make .reads _ _ (.foreignKey key.1 _) .high) (bounded_line rfl)

theorem worded_tableFindings (t : Sql.Table) : Worded (tableFindings m s t) := by
  refine .append (.append (.append (.append (worded_node _)
    (worded_citation (bounded_citeBlock m (.inl rfl) _ _)))
    (worded_concat (List.forall_mem_map.2 fun r _ => ?_)))
    (worded_concat (List.forall_mem_map.2 fun p _ => ?_)))
    (worded_concat_map fun key _ => worded_foreignKeyEdge m t key)
  · exact worded_citation (bounded_citePart m _ _ _)
  · exact worded_citation (bounded_citePart m _ _ _)

theorem worded_functionFindings (f : Sql.Function) : Worded (functionFindings m f) :=
  .append (worded_node _) (worded_citation (bounded_citeBlock m (.inr rfl) _ _))

theorem worded_triggerFindings (t : Sql.Trigger) : Worded (triggerFindings m s t) := by
  unfold triggerFindings
  split
  · exact worded_empty
  · exact worded_citedEdge (named_make .usesFunction _ _ (.trigger t.name) .high) (bounded_line rfl)

theorem worded_profileEdge (t : Sql.Table) : Worded (profileEdge m t) :=
  worded_citedEdge (named_make .writes _ _ (.dataAccess .insert _) .medium) (bounded_line rfl)

theorem worded_authFindings (g : Graph) : Worded (authFindings m s g) := by
  simp only [authFindings]
  split
  · exact worded_empty
  · exact .append (.append (worded_node _)
      (worded_concat_map fun found _ => worded_citation (bounded_citeMention m _ _)))
      (worded_concat_map fun t _ => worded_profileEdge m t)

theorem worded_storageFindings (g : Graph) : Worded (storageFindings m g) := by
  simp only [storageFindings]
  split
  · exact worded_empty
  · exact .append (worded_node _)
      (worded_concat_map fun found _ => worded_citation (bounded_citeMention m _ _))

theorem worded_database (p : Project) (g : Graph) : Worded (database p g) :=
  .append (.append (.append (.append (.append (worded_none rfl rfl)
    (worded_concat_map fun t _ => worded_tableFindings _ _ t))
    (worded_concat_map fun f _ => worded_functionFindings _ f))
    (worded_concat_map fun t _ => worded_triggerFindings _ _ t)) (worded_authFindings _ _ g))
    (worded_storageFindings _ g)

end Database

/-! ## Deployments -/

section Deployment

theorem worded_platformFindings (p : Project) (r : Repository) (apps : Apps) (envVars : List String)
    (u : PlatformUse) : Worded (platformFindings p r apps envVars u) := by
  refine .append (worded_node _) (worded_concat_map fun config _ => ?_)
  exact worded_concat_map fun _ _ =>
    worded_citedEdge (named_make .deploysTo _ _ .plain _) (bounded_atLine _ _ _)

theorem named_foldl_cite {e : Edge} (h : Named e) (rs : List Evidence) :
    Named (rs.foldl (fun e r => e.cite r.id) e) := by
  induction rs generalizing e with
  | nil => exact h
  | cons r rs ih => exact ih (h.cite r.id)

theorem worded_variableServiceFindings (source : String) (service : Service)
    (uses : List VariableUse) : Worded (variableServiceFindings source service uses) where
  edges e he := by
    rw [List.mem_singleton.1 he]
    exact named_foldl_cite (named_make .callsExternal _ _ (.envVar _) .high) _
  excerpts r hr := by
    obtain ⟨use, -, rfl⟩ := List.mem_map.1 hr
    exact bounded_line rfl

theorem worded_variableServices (source : String) (uses : List VariableUse) :
    Worded (variableServices source uses) := by
  refine worded_concat_map fun slug _ => ?_
  split
  · exact worded_variableServiceFindings _ _ _
  · exact worded_empty

theorem worded_packageServices (path content : String) : Worded (packageServices path content) := by
  refine worded_concat_map fun entry _ => ?_
  obtain ⟨start, slug⟩ := entry
  simp only
  split
  · exact .append (worded_node _) (worded_citation (bounded_atLine _ _ _))
  · exact worded_empty

theorem worded_cronFindings (repo : String) (apps : Apps) (endpoints : Route.Index)
    (u : PlatformUse) (config content : String) (cron : Cron) :
    Worded (cronFindings repo apps endpoints u config content cron) :=
  .append (.append (.append (worded_node _)
    (worded_citedEdge (named_make .calls _ _ (.cron cron.schedule) .high) (bounded_atLine _ _ _)))
    (worded_citedEdge (named_make .deploysTo _ _ .plain .high) (bounded_atLine _ _ _)))
    (worded_concat_map fun _ _ => worded_containment _ _)

theorem worded_scheduled (p : Project) (r : Repository) (apps : Apps) (endpoints : Route.Index)
    (u : PlatformUse) : Worded (scheduled p r apps endpoints u) := by
  refine worded_concat_map fun config _ => ?_
  split
  · exact worded_empty
  · split
    · exact worded_concat_map fun cron _ => worded_cronFindings _ _ _ _ _ _ _
    · exact worded_warning _

theorem worded_deploymentOf (p : Project) (g : Graph) (endpoints : Route.Index) (r : Repository) :
    Worded (deploymentOf p g endpoints r) := by
  refine .append (.append (.append
    (worded_concat_map fun u _ => worded_platformFindings _ _ _ _ u) (worded_variableServices _ _))
    (worded_concat fun f hf => ?_)) (worded_concat_map fun u _ => worded_scheduled _ _ _ _ u)
  obtain ⟨path, -, hf⟩ := List.mem_filterMap.1 hf
  obtain ⟨content, -, rfl⟩ := Option.map_eq_some_iff.1 hf
  exact worded_packageServices path content

end Deployment

/-! ## All stages -/

/-- **How a stage words its findings.** Edges are named by what they say, and excerpts are not too
long. -/
theorem worded_findings (t : Task) (g : Graph) (stage : Stage) : Worded (t.findings g stage) := by
  cases stage with
  | inventory => exact worded_concat_map fun r _ => worded_inventoryOf _ r
  | screens => exact worded_concat_map fun r _ => worded_screensOf _ _ g r
  | endpoints =>
    refine .append (worded_concat_map fun r _ => worded_endpointsOf _ _ g r) (worded_none rfl rfl)
  | database => exact worded_database _ g
  | deployment => exact worded_concat_map fun r _ => worded_deploymentOf _ g _ r
  | features => exact worded_none rfl rfl

end Discovery
end ArchGraph
