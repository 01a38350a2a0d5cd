import ArchGraph.Proofs.Discovery.History
import ArchGraph.Proofs.Discovery.Wording
import Mathlib.Data.List.Nodup
/-!
# The ledger of evidence

Edges and evidence name each other: every edge that claims more than containment lists evidence that
names the edge, and all evidence that names an edge is listed there. The findings of each stage keep
such a ledger among themselves (`Built.ledger`), the findings of a run taken together therefore keep
one too (`ledger_allFindings`), and merging, which takes the first occurrence of each identifier and
gathers citations, carries it over to the graph as long as identifiers do not collide
(`Ledger.merges`). Main statement: `edges_and_evidence_agree`.
-/

namespace ArchGraph.Discovery

open ArchGraph.Graph (exists_first firsts inHistory mem_of_mem_firsts)

/-! ## Ledgers -/

/-- Edges and evidence that name each other, beside nodes of which those of a cited kind have
evidence of their own. All evidence is about nodes that are known. -/
structure Ledger (known : String → Prop) (nodes : List Node) (edges : List Edge)
    (evidence : List Evidence) : Prop where
  cited   : ∀ e ∈ edges, e.evidenceIds = [] ↔ e.kind = .contains
  records : ∀ e ∈ edges, ∀ id ∈ e.evidenceIds, ∃ r ∈ evidence, r.id = id ∧ r.edgeId = some e.id
  listed  : ∀ r ∈ evidence, ∀ id, r.edgeId = some id → ∃ e ∈ edges, e.id = id ∧ r.id ∈ e.evidenceIds
  subject : ∀ r ∈ evidence, known r.nodeId
  own     : ∀ n ∈ nodes, isCitedKind n.kind = true → ∃ r ∈ evidence, r.nodeId = n.id ∧ r.edgeId = none

variable {known : String → Prop}

theorem ledger_nil : Ledger known [] [] [] := by constructor <;> simp

theorem Ledger.append {nodes nodes' : List Node} {edges edges' : List Edge}
    {evidence evidence' : List Evidence} (h : Ledger known nodes edges evidence)
    (h' : Ledger known nodes' edges' evidence') :
    Ledger known (nodes ++ nodes') (edges ++ edges') (evidence ++ evidence') := by
  constructor
  · intro e he
    exact (List.mem_append.1 he).elim (h.cited e) (h'.cited e)
  · intro e he id hid
    rcases List.mem_append.1 he with he | he
    · obtain ⟨r, hr, hrid⟩ := h.records e he id hid
      exact ⟨r, List.mem_append_left _ hr, hrid⟩
    · obtain ⟨r, hr, hrid⟩ := h'.records e he id hid
      exact ⟨r, List.mem_append_right _ hr, hrid⟩
  · intro r hr id hid
    rcases List.mem_append.1 hr with hr | hr
    · obtain ⟨e, he, heid⟩ := h.listed r hr id hid
      exact ⟨e, List.mem_append_left _ he, heid⟩
    · obtain ⟨e, he, heid⟩ := h'.listed r hr id hid
      exact ⟨e, List.mem_append_right _ he, heid⟩
  · intro r hr
    exact (List.mem_append.1 hr).elim (h.subject r) (h'.subject r)
  · intro n hn hk
    rcases List.mem_append.1 hn with hn | hn
    · obtain ⟨r, hr, hrn⟩ := h.own n hn hk
      exact ⟨r, List.mem_append_left _ hr, hrn⟩
    · obtain ⟨r, hr, hrn⟩ := h'.own n hn hk
      exact ⟨r, List.mem_append_right _ hr, hrn⟩

/-! ## Findings -/

variable {p : Project} {g : Graph} {stage : Stage}

theorem Relation.evidenceIds_eq_nil {e : Edge} (h : Relation p g known stage e) :
    e.evidenceIds = [] := by
  cases h <;> rfl

theorem evidenceIds_foldl_cite (cs : List Citation) (e : Edge) :
    cs.foldl (fun e c => e.cite c.evidence.id) e =
      { e with evidenceIds := e.evidenceIds ++ cs.map fun c => c.evidence.id } := by
  induction cs generalizing e with
  | nil => simp
  | cons c cs ih => rw [List.foldl_cons, ih]; simp [Edge.cite]

/-- The findings of a stage keep a ledger among themselves. -/
theorem Built.ledger {f : Findings} (h : Built p g known stage f) (hk : Covers known f) :
    Ledger known f.nodes f.edges f.evidence := by
  induction h with
  | remarks => exact ledger_nil
  | append _ _ iha ihb =>
    rw [covers_append] at hk
    exact (iha hk.1).append (ihb hk.2)
  | node _ hb =>
    constructor <;> simp [Findings.node, hb.isCitedKind]
  | @citedNode n c _ hn he =>
    have hknown : known n.id := by simpa using (covers_append.1 hk).1
    constructor
    · simp [Findings.node, Findings.citation]
    · simp [Findings.node, Findings.citation]
    · simp [Findings.node, Findings.citation, Citation.evidence, he]
    · simpa [Findings.node, Findings.citation, Citation.evidence, hn] using hknown
    · simp [Findings.node, Findings.citation, Citation.evidence, hn, he]
  | @backedNode n f _ hkind _ _ ih =>
    have hnode : Ledger known [n] [] [] := by constructor <;> simp [hkind]
    exact hnode.append (ih (covers_append.1 hk).2)
  | citation hn he =>
    constructor
    · simp [Findings.citation]
    · simp [Findings.citation]
    · simp [Findings.citation, Citation.evidence, he]
    · simpa [Findings.citation, Citation.evidence] using hn
    · simp [Findings.citation]
  | contained _ _ _ _ _ ih =>
    refine (ih (covers_append.1 hk).1).append ?_
    constructor <;> simp [Findings.edge, Edge.containment, Edge.make]
  | @relation e hrel hkind cs hne hc =>
    rw [evidenceIds_foldl_cite, hrel.evidenceIds_eq_nil, List.nil_append]
    constructor
    · simpa [hkind] using hne
    · intro x hx id hid
      rw [List.mem_singleton.1 hx] at hid ⊢
      obtain ⟨c, hmem, rfl⟩ := List.mem_map.1 hid
      exact ⟨c.evidence, List.mem_map_of_mem hmem, rfl, (hc c hmem).2⟩
    · intro r hr id hid
      obtain ⟨c, hmem, rfl⟩ := List.mem_map.1 hr
      have hedge : some e.id = some id := (hc c hmem).2.symm.trans hid
      exact ⟨_, List.mem_singleton_self _, Option.some.inj hedge, List.mem_map_of_mem hmem⟩
    · intro r hr
      obtain ⟨c, hmem, rfl⟩ := List.mem_map.1 hr
      exact (hc c hmem).1
    · simp

/-- All evidence is made from a citation. -/
theorem Built.exists_citation {f : Findings} (h : Built p g known stage f) :
    ∀ r ∈ f.evidence, ∃ c : Citation, r = c.evidence := by
  induction h with
  | remarks => simp
  | append _ _ iha ihb => exact fun r hr => (List.mem_append.1 hr).elim (iha r) (ihb r)
  | node => simp [Findings.node]
  | citedNode | citation =>
    intro r hr
    exact ⟨_, List.mem_singleton.1 hr⟩
  | backedNode _ _ _ _ ih => exact ih
  | contained _ _ _ _ _ ih => simpa [Findings.edge] using ih
  | @relation _ _ _ cs =>
    intro r hr
    obtain ⟨c, -, rfl⟩ := List.mem_map.1 hr
    exact ⟨c, rfl⟩

/-! ## Merging -/

/-- Edges with one identifier are of one kind, and evidence with one identifier is about one node
and one edge. -/
structure Unambiguous (edges : List Edge) (evidence : List Evidence) : Prop where
  kind   : ∀ e ∈ edges, ∀ e' ∈ edges, e.id = e'.id → e.kind = e'.kind
  nodeId : ∀ r ∈ evidence, ∀ r' ∈ evidence, r.id = r'.id → r.nodeId = r'.nodeId
  edgeId : ∀ r ∈ evidence, ∀ r' ∈ evidence, r.id = r'.id → r.edgeId = r'.edgeId

variable {outs : List Findings}

/-- An edge ends up with the citations of all edges that were found with its identifier. -/
theorem mem_evidenceIds_inHistory {e : Edge} (he : e ∈ outs.flatMap (·.edges)) {id : String} :
    id ∈ (inHistory outs e).evidenceIds ↔
      ∃ x ∈ outs.flatMap (·.edges), x.id = e.id ∧ id ∈ x.evidenceIds := by
  have hunion : (inHistory outs e).evidenceIds =
      Graph.union e.evidenceIds (Graph.citations (outs.flatMap (·.edges)) e.id) := by
    rw [Graph.inHistory_eq]
    rfl
  rw [hunion, Graph.mem_union, Graph.mem_citations]
  constructor
  · rintro (hid | hfound)
    · exact ⟨e, he, rfl, hid⟩
    · exact hfound
  · exact .inr

/-- Citations are gathered in the order in which they were found, each once. -/
example :
    let e : Edge := ⟨"e", "a", .node "b", .calls, .high, ["x"], .plain⟩
    (inHistory [.edge e, .edge { e with evidenceIds := ["y", "x"] }] e).evidenceIds = ["x", "y"] := by
  decide +kernel

/-- Exactly the containments end up without citations: other edges with the identifier are of the
same kind, so that they bring citations to an edge that has some already, or bring none. -/
theorem Ledger.cited_inHistory
    (h : Ledger known (outs.flatMap (·.nodes)) (outs.flatMap (·.edges))
      (outs.flatMap (·.evidence)))
    (hu : Unambiguous (outs.flatMap (·.edges)) (outs.flatMap (·.evidence))) {e : Edge}
    (he : e ∈ outs.flatMap (·.edges)) :
    (inHistory outs e).evidenceIds = [] ↔ (inHistory outs e).kind = .contains := by
  have hkind : (inHistory outs e).kind = e.kind := rfl
  rw [hkind]
  constructor
  · intro hnone
    refine (h.cited e he).1 (List.eq_nil_iff_forall_not_mem.2 fun id hid => ?_)
    have hmem := (mem_evidenceIds_inHistory he).2 ⟨e, he, rfl, hid⟩
    rw [hnone] at hmem
    exact List.not_mem_nil hmem
  · intro hcontains
    refine List.eq_nil_iff_forall_not_mem.2 fun id hid => ?_
    obtain ⟨x, hx, hxid, hcited⟩ := (mem_evidenceIds_inHistory he).1 hid
    have hempty := (h.cited x hx).2 ((hu.kind x hx e he hxid).trans hcontains)
    rw [hempty] at hcited
    exact List.not_mem_nil hcited

/-- **Merging keeps ledgers.** The graph that findings are merged into keeps the ledger that the
findings keep taken together. -/
theorem Ledger.merges
    (h : Ledger known (outs.flatMap (·.nodes)) (outs.flatMap (·.edges))
      (outs.flatMap (·.evidence)))
    (hu : Unambiguous (outs.flatMap (·.edges)) (outs.flatMap (·.evidence))) :
    let g := outs.foldl Graph.merge .empty
    Ledger known g.nodes g.edges g.evidence := by
  intro g
  have hnodes : g.nodes = firsts Node.id (outs.flatMap (·.nodes)) := by
    rw [Graph.nodes_merges]
    simp [Graph.empty, Graph.fresh]
  have hevidence : g.evidence = firsts Evidence.id (outs.flatMap (·.evidence)) := by
    rw [Graph.evidence_merges]
    simp [Graph.empty, Graph.fresh]
  have hedges : g.edges = (firsts Edge.id (outs.flatMap (·.edges))).map (inHistory outs) :=
    Graph.edges_merges outs
  rw [hnodes, hevidence, hedges]
  constructor
  case cited =>
    intro e he
    obtain ⟨e₀, hfirst, rfl⟩ := List.mem_map.1 he
    exact h.cited_inHistory hu (mem_of_mem_firsts hfirst)
  case records =>
    intro e he id hid
    obtain ⟨e₀, hfirst, rfl⟩ := List.mem_map.1 he
    obtain ⟨x, hx, hxid, hcited⟩ :=
      (mem_evidenceIds_inHistory (mem_of_mem_firsts hfirst)).1 hid
    obtain ⟨r, hr, rfl, hedge⟩ := h.records x hx id hcited
    obtain ⟨r₁, hr₁, hid₁⟩ := exists_first hr
    have hsame := hu.edgeId r₁ (mem_of_mem_firsts hr₁) r hr hid₁
    exact ⟨r₁, hr₁, hid₁, hsame.trans (hedge.trans (congrArg some hxid))⟩
  case listed =>
    intro r hr id hid
    obtain ⟨x, hx, hxid, hlists⟩ := h.listed r (mem_of_mem_firsts hr) id hid
    obtain ⟨e₀, hfirst, hid₀⟩ := exists_first hx
    refine ⟨inHistory outs e₀, List.mem_map_of_mem hfirst, hid₀.trans hxid, ?_⟩
    exact (mem_evidenceIds_inHistory (mem_of_mem_firsts hfirst)).2 ⟨x, hx, hid₀.symm, hlists⟩
  case subject =>
    intro r hr
    exact h.subject r (mem_of_mem_firsts hr)
  case own =>
    intro n hn hk
    obtain ⟨r, hr, hnode, hnone⟩ := h.own n (mem_of_mem_firsts hn) hk
    obtain ⟨r₁, hr₁, hid₁⟩ := exists_first hr
    have hmem₁ := mem_of_mem_firsts hr₁
    exact ⟨r₁, hr₁, (hu.nodeId r₁ hmem₁ r hr hid₁).trans hnode,
      (hu.edgeId r₁ hmem₁ r hr hid₁).trans hnone⟩

/-! ## Identifiers -/

/-- The uses of the generator for the identifiers of found edges and evidence. -/
def ledgerUses (outs : List Findings) : List (String × List String) :=
  (outs.flatMap (·.edges)).map Edge.use ++ (outs.flatMap (·.evidence)).map Evidence.use

/-- Evidence is named by what it says, and names a node and perhaps an edge by their identifiers. -/
structure Signed (r : Evidence) : Prop where
  id     : r.id = Id.ofParts r.use.1 r.use.2
  nodeId : ∀ c ∈ r.nodeId.toList, c ∈ Id.letters
  edgeId : ∀ id, r.edgeId = some id → ∃ parts, id = Id.ofParts "edge" parts

theorem Signed.edgeId_subset {r : Evidence} (h : Signed r) :
    ∀ c ∈ (r.edgeId.getD "").toList, c ∈ Id.letters := by
  cases hid : r.edgeId with
  | none => simp
  | some id =>
    obtain ⟨parts, rfl⟩ := h.edgeId id hid
    exact Id.ofParts_subset (by decide) parts

/-- Whether evidence is about an edge can be told from what is digested of it. -/
theorem Signed.edgeId_inj {r r' : Evidence} (h : Signed r) (h' : Signed r')
    (heq : r.edgeId.getD "" = r'.edgeId.getD "") : r.edgeId = r'.edgeId := by
  cases hid : r.edgeId with
  | none =>
    cases hid' : r'.edgeId with
    | none => rfl
    | some id' =>
      obtain ⟨parts, rfl⟩ := h'.edgeId id' hid'
      rw [hid, hid'] at heq
      exact absurd heq.symm (Id.ofParts_ne_empty _ _)
  | some id =>
    cases hid' : r'.edgeId with
    | none =>
      obtain ⟨parts, rfl⟩ := h.edgeId id hid
      rw [hid, hid'] at heq
      exact absurd heq (Id.ofParts_ne_empty _ _)
    | some id' =>
      rw [hid, hid'] at heq
      exact congrArg some heq

theorem edgeKind_subset (k : EdgeKind) : ∀ c ∈ k.name.toList, c ∈ Id.letters := by
  cases k <;> decide

theorem evidenceKind_subset (k : EvidenceKind) : ∀ c ∈ k.name.toList, c ∈ Id.letters := by
  cases k <;> decide

/-- What is digested of two edges tells their kinds apart. -/
theorem kind_eq_of_message_eq {e e' : Edge}
    (h : Id.message e.use.1 e.use.2 = Id.message e'.use.1 e'.use.2) : e.kind = e'.kind := by
  have htag : ∀ c ∈ "edge".toList, c ∈ Id.letters := by decide
  obtain ⟨-, hkind⟩ := Id.message_inj htag htag h
  obtain ⟨hname, -⟩ :=
    Id.message_inj (edgeKind_subset e.kind) (edgeKind_subset e'.kind) hkind
  have hof := congrArg EdgeKind.ofName? hname
  rw [EdgeKind.ofName?_name, EdgeKind.ofName?_name] at hof
  exact Option.some.inj hof

/-- What is digested of two pieces of evidence tells apart what they are about. -/
theorem Signed.subject_eq {r r' : Evidence} (h : Signed r) (h' : Signed r')
    (hm : Id.message r.use.1 r.use.2 = Id.message r'.use.1 r'.use.2) :
    r.nodeId = r'.nodeId ∧ r.edgeId = r'.edgeId := by
  have htag : ∀ c ∈ "ev".toList, c ∈ Id.letters := by decide
  obtain ⟨-, hm⟩ := Id.message_inj htag htag hm
  obtain ⟨-, hm⟩ := Id.message_inj (evidenceKind_subset r.kind) (evidenceKind_subset r'.kind) hm
  obtain ⟨hnode, hm⟩ := Id.message_inj h.nodeId h'.nodeId hm
  obtain ⟨hedge, -⟩ := Id.message_inj h.edgeId_subset h'.edgeId_subset hm
  exact ⟨hnode, h.edgeId_inj h' hedge⟩

/-- Found edges and evidence are unambiguous as long as identifiers do not collide. -/
theorem unambiguous (hids : Id.CollisionFree (ledgerUses outs))
    (he : ∀ e ∈ outs.flatMap (·.edges), Named e)
    (hr : ∀ r ∈ outs.flatMap (·.evidence), Signed r) :
    Unambiguous (outs.flatMap (·.edges)) (outs.flatMap (·.evidence)) := by
  have hsubject : ∀ r ∈ outs.flatMap (·.evidence), ∀ r' ∈ outs.flatMap (·.evidence),
      r.id = r'.id → r.nodeId = r'.nodeId ∧ r.edgeId = r'.edgeId := by
    intro r hmem r' hmem' hid
    have huse (r : Evidence) (h : r ∈ outs.flatMap (·.evidence)) : r.use ∈ ledgerUses outs :=
      List.mem_append_right _ (List.mem_map_of_mem h)
    rw [(hr r hmem).id, (hr r' hmem').id] at hid
    exact (hr r hmem).subject_eq (hr r' hmem') (hids _ (huse r hmem) _ (huse r' hmem') hid)
  constructor
  · intro e hmem e' hmem' hid
    have huse (e : Edge) (h : e ∈ outs.flatMap (·.edges)) : e.use ∈ ledgerUses outs :=
      List.mem_append_left _ (List.mem_map_of_mem h)
    rw [he e hmem, he e' hmem'] at hid
    exact kind_eq_of_message_eq (hids _ (huse e hmem) _ (huse e' hmem') hid)
  · exact fun r hmem r' hmem' hid => (hsubject r hmem r' hmem' hid).1
  · exact fun r hmem r' hmem' hid => (hsubject r hmem r' hmem' hid).2

/-! ## Runs -/

variable {t : Task}

/-- Findings that keep a ledger each keep one taken together. -/
theorem ledger_flatMap : ∀ {outs : List Findings},
    (∀ f ∈ outs, Ledger known f.nodes f.edges f.evidence) →
      Ledger known (outs.flatMap (·.nodes)) (outs.flatMap (·.edges)) (outs.flatMap (·.evidence))
  | [], _ => ledger_nil
  | f :: outs, h => by
    rw [List.flatMap_cons, List.flatMap_cons, List.flatMap_cons]
    exact (h f (by simp)).append (ledger_flatMap fun f hf => h f (by simp [hf]))

/-- The ledger of what a stage finds. -/
theorem FoundBy.ledger {f : Findings} (h : FoundBy t stage g f) :
    Ledger (Known (Analysis.ofStages t Stage.all).graph) f.nodes f.edges f.evidence := by
  have hcovers := h.covers
  rw [Covers, h.nodes_eq] at hcovers
  rw [h.nodes_eq, h.edges_eq, h.evidence_eq]
  exact h.built.ledger hcovers

theorem node_letters {p : Project} {g : Graph} (hs : Sound p g) {id : String} (h : Known g id) :
    ∀ c ∈ id.toList, c ∈ Id.letters := by
  obtain ⟨n, hn, rfl⟩ := List.mem_map.1 h
  obtain ⟨stage, hentity⟩ := hs.entities n hn
  obtain ⟨parts, hparts⟩ := hentity.id_eq
  rw [hparts]
  exact Id.node_subset _ _

/-- The findings of an analysis keep a ledger beside the nodes that are there in the end. -/
theorem ledger_allFindings (t : Task) : Ledger (Known (Analysis.ofStages t Stage.all).graph)
    ((allFindings t).flatMap (·.nodes)) ((allFindings t).flatMap (·.edges))
    ((allFindings t).flatMap (·.evidence)) := by
  refine ledger_flatMap fun f hf => ?_
  obtain ⟨stage, g, hfound⟩ := exists_foundBy hf
  exact hfound.ledger

theorem worded_allFindings : ∀ f ∈ allFindings t, Worded f := by
  intro f hf
  obtain ⟨stage, g, hfound⟩ := exists_foundBy hf
  rw [hfound.findings]
  exact worded_findings t g stage

theorem named_allFindings : ∀ e ∈ (allFindings t).flatMap (·.edges), Named e := by
  intro e he
  obtain ⟨f, hf, hmem⟩ := List.mem_flatMap.1 he
  exact (worded_allFindings f hf).edges e hmem

/-- The identifiers of found edges, by what the edges say. -/
theorem ids_allFindings (t : Task) : ((allFindings t).flatMap (·.edges)).map Edge.id =
    (((allFindings t).flatMap (·.edges)).map Edge.use).map fun u => Id.ofParts u.1 u.2 := by
  rw [List.map_map]
  exact List.map_congr_left named_allFindings

theorem signed_allFindings : ∀ r ∈ (allFindings t).flatMap (·.evidence), Signed r := by
  have hledger := ledger_allFindings t
  intro r hr
  obtain ⟨f, hf, hmem⟩ := List.mem_flatMap.1 hr
  obtain ⟨stage, g, hfound⟩ := exists_foundBy hf
  rw [hfound.evidence_eq] at hmem
  obtain ⟨c, hc⟩ := hfound.built.exists_citation r hmem
  constructor
  · rw [hc]
    exact c.id_evidence
  · exact node_letters (sound_all t) (hledger.subject r hr)
  · intro id hid
    obtain ⟨e, he, rfl, -⟩ := hledger.listed r hr id hid
    exact ⟨_, named_allFindings e he⟩

theorem unambiguous_allFindings (hids : Id.CollisionFree (ledgerUses (allFindings t))) :
    Unambiguous ((allFindings t).flatMap (·.edges)) ((allFindings t).flatMap (·.evidence)) :=
  unambiguous hids named_allFindings signed_allFindings

/-- The evidence of an analysis is the found evidence, each identifier once. -/
theorem evidence_all (t : Task) : (Analysis.ofStages t Stage.all).graph.evidence =
    firsts Evidence.id ((allFindings t).flatMap (·.evidence)) := by
  rw [graph_allFindings, Graph.evidence_merges]
  simp [Graph.empty, Graph.fresh]

/-- **The ledger of evidence.** In the graph of a whole analysis, as long as identifiers of edges
and evidence do not collide, exactly the containments go without evidence, edges and evidence name
each other, all evidence is about a node of the graph, screens, endpoints, tables and functions have
evidence of their own, and excerpts are not too long. -/
theorem edges_and_evidence_agree (t : Task) (hids : Id.CollisionFree (ledgerUses (allFindings t))) :
    let g := (Analysis.ofStages t Stage.all).graph
    Ledger (Known g) g.nodes g.edges g.evidence ∧ ∀ r ∈ g.evidence, Bounded r := by
  intro g
  constructor
  · have hmerges := (ledger_allFindings t).merges (unambiguous_allFindings hids)
    rwa [← graph_allFindings] at hmerges
  · intro r hr
    rw [show g.evidence = _ from evidence_all t] at hr
    obtain ⟨f, hf, hmem⟩ := List.mem_flatMap.1 (mem_of_mem_firsts hr)
    exact (worded_allFindings f hf).excerpts r hmem

/-- A single page, which calls an endpoint that is not there. -/
def lonePage : Task where
  project := {
    id := "p"
    repositories := [.ofPaths "r" "o" "n" ["pages/a.js"]]
    contents := .ofList [("pages/a.js", "fetch('/api/b')")] }
  settings := .default
  catalog := []

set_option maxRecDepth 10000 in
/-- Its repository, its app and its screen are found, with the containments that come with them, and
the call with the line that backs it. -/
theorem found_lonePage :
    foundNodes lonePage =
      [⟨"repo_13198440993904f8", "o/n", none,
         .repo ⟨"o", "n", "github", "main", [], some "JavaScript", false, none⟩⟩,
       ⟨"app_7895caf4947c5e0d", "n", some "repo_13198440993904f8",
         .app ⟨".", none, some "JavaScript"⟩⟩,
       ⟨"screen_a744ca4a7b2de4dd", "/a", some "repo_13198440993904f8",
         .screen ⟨"/a", "pages/a.js", false, none, none, .pagesRouter⟩⟩] ∧
    ledgerUses (allFindings lonePage) =
      [("edge", ["contains", "repo_13198440993904f8", "app_7895caf4947c5e0d", ""]),
       ("edge", ["contains", "app_7895caf4947c5e0d", "screen_a744ca4a7b2de4dd", ""]),
       ("edge", ["calls", "screen_a744ca4a7b2de4dd", "api:/api/b", "get"]),
       ("ev",
         ["page_component", "screen_a744ca4a7b2de4dd", "", "pages/a.js", "1", "fetch('/api/b')"]),
       ("ev", ["fetch_call", "screen_a744ca4a7b2de4dd", "edge_f556c596a60629a0", "pages/a.js", "1",
         "fetch('/api/b')"])] := by
  decide +kernel

theorem collisionFree_lonePage : Id.CollisionFree (ledgerUses (allFindings lonePage)) := by
  rw [found_lonePage.2]
  refine Id.collisionFree_of_nodup ?_
  simp only [List.map_cons, List.map_nil, Id.ofParts_eq]
  decide +kernel

theorem lonePage_agrees : Id.CollisionFree (ledgerUses (allFindings lonePage)) ∧
    (let g := (Analysis.ofStages lonePage Stage.all).graph
     Ledger (Known g) g.nodes g.edges g.evidence ∧ ∀ r ∈ g.evidence, Bounded r) :=
  ⟨collisionFree_lonePage, edges_and_evidence_agree lonePage collisionFree_lonePage⟩

end ArchGraph.Discovery
