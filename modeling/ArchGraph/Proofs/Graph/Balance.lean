import ArchGraph.Graph.Summary
import ArchGraph.Proofs.Graph.Merge
import Mathlib.Algebra.BigOperators.Group.Finset.Basic
import Mathlib.Algebra.GroupWithZero.Nat
/-!
# Summaries that balance

The numbers of a summary measured against the graph they are taken of. A tally names each key once,
with the items that have it, so that its counts add up to all items (`Counts`); a coverage is a part
of the nodes of one kind (`Covers`). Findings without edges only add nodes that edges may already
point at, so that what dangles can get fewer, and a screen that calls a node goes on calling it
(`Improves`). Main statement: `summary_balances`.
-/

namespace ArchGraph

/-! ## Tallies -/

/-- The sum of some counts. -/
def sumOfCounts {κ : Type} (counts : List (κ × Nat)) : Nat := (counts.map Prod.snd).sum

/-- How often each key occurs, each key that occurs named once. -/
structure Counts {α κ : Type} [DecidableEq κ] (key : α → κ) (items : List α)
    (counts : List (κ × Nat)) : Prop where
  once  : (counts.map Prod.fst).Nodup
  count : ∀ k n, (k, n) ∈ counts ↔ n ≠ 0 ∧ items.countP (fun item => key item = k) = n
  total : sumOfCounts counts = items.length

/-- Counts of nothing add nothing. -/
theorem sumOfCounts_filter {κ : Type} : ∀ counts : List (κ × Nat),
    sumOfCounts (counts.filter fun count => count.2 ≠ 0) = sumOfCounts counts
  | [] => rfl
  | (k, n) :: counts => by
    have ih := sumOfCounts_filter counts
    simp only [sumOfCounts] at ih ⊢
    by_cases hn : n = 0
    · rw [List.filter_cons_of_neg (by simpa using hn), ih, hn, List.map_cons, List.sum_cons,
        Nat.zero_add]
    · rw [List.filter_cons_of_pos (by simpa using hn), List.map_cons, List.sum_cons, ih,
        List.map_cons, List.sum_cons]

section
variable {α κ : Type} [DecidableEq κ] {keys : List κ} {key : α → κ} {items : List α}
  {counts : List (κ × Nat)}

theorem mem_tally {k : κ} {n : Nat} : (k, n) ∈ tally keys key items ↔
    k ∈ keys ∧ n ≠ 0 ∧ items.countP (fun item => key item = k) = n := by
  simp only [tally, List.mem_filter, List.mem_map, Prod.mk.injEq, decide_eq_true_eq]
  constructor
  · rintro ⟨⟨k, hk, rfl, rfl⟩, hn⟩
    exact ⟨hk, hn, rfl⟩
  · rintro ⟨hk, hn, rfl⟩
    exact ⟨⟨k, hk, rfl, rfl⟩, hn⟩

/-- Under keys that are all there are, every item is counted once. -/
theorem sumOfCounts_tally (hkeys : keys.Nodup) (hall : ∀ item ∈ items, key item ∈ keys) :
    sumOfCounts (tally keys key items) = items.length := by
  -- a count is the multiplicity of its key among the keys of all items
  have hcount : ∀ k, items.countP (fun item => key item = k) =
      (items.map key : Multiset κ).count k := by
    intro k
    rw [Multiset.coe_count, List.count, List.countP_map]
    exact List.countP_congr fun item _ => by simp
  have hmem : ∀ k ∈ (items.map key : Multiset κ), k ∈ keys.toFinset := by
    simpa using hall
  calc sumOfCounts (tally keys key items)
    _ = (keys.map fun k => (items.map key : Multiset κ).count k).sum := by
      rw [tally, sumOfCounts_filter, sumOfCounts, List.map_map]
      exact congrArg List.sum (List.map_congr_left fun k _ => hcount k)
    _ = ∑ k ∈ keys.toFinset, (items.map key : Multiset κ).count k :=
      (List.sum_toFinset _ hkeys).symm
    _ = items.length := by
      rw [Multiset.sum_count_eq_card hmem, Multiset.coe_card, List.length_map]

theorem counts_tally (hkeys : keys.Nodup) (hall : ∀ k, k ∈ keys) :
    Counts key items (tally keys key items) where
  once := by
    have hfst : (keys.map fun k => (k, items.countP fun item => key item = k)).map Prod.fst =
        keys := by rw [List.map_map]; exact List.map_id keys
    exact (hfst.symm ▸ hkeys).sublist (List.filter_sublist.map Prod.fst)
  count k n := by simp [mem_tally, hall k]
  total := sumOfCounts_tally hkeys fun _ _ => hall _

/-- A key that is looked up gives the number of its items, none if it is not named. -/
theorem Counts.lookup (h : Counts key items counts) (k : κ) :
    (counts.lookup k).getD 0 = items.countP fun item => key item = k := by
  cases hlookup : counts.lookup k with
  | some n =>
    obtain ⟨front, rest, hsplit, -⟩ := List.lookup_eq_some_iff.1 hlookup
    have hmem : (k, n) ∈ counts := by simp [hsplit]
    exact ((h.count k n).1 hmem).2.symm
  | none =>
    by_contra hne
    have hmem := (h.count k _).2 ⟨Ne.symm hne, rfl⟩
    simpa using List.lookup_eq_none_iff.1 hlookup _ hmem

end

theorem NodeKind.mem_all (k : NodeKind) : k ∈ all := by cases k <;> decide

theorem EdgeKind.mem_all (k : EdgeKind) : k ∈ all := by cases k <;> decide

theorem Confidence.mem_all (c : Confidence) : c ∈ all := by cases c <;> decide

theorem EvidenceKind.mem_all (k : EvidenceKind) : k ∈ all := by cases k <;> decide

/-! ## What is counted -/

namespace Graph

/-- An edge points at a pending path, or at an identifier that no node has. -/
def Dangles (g : Graph) (e : Edge) : Prop :=
  (∃ path, e.target = .pending path) ∨ ∃ id, e.target = .node id ∧ id ∉ g.nodes.map Node.id

/-- A node calls a node that the graph holds. -/
def Calls (g : Graph) (n : Node) : Prop :=
  ∃ e ∈ g.edges, e.source = n.id ∧ e.kind = .calls ∧ ∃ m ∈ g.nodes, e.target = .node m.id

/-- A node reads or writes something. -/
def Accesses (g : Graph) (n : Node) : Prop :=
  ∃ e ∈ g.edges, e.source = n.id ∧ (e.kind = .reads ∨ e.kind = .writes)

theorem isDangling_iff {g : Graph} {e : Edge} : g.isDangling e = true ↔ g.Dangles e := by
  cases htarget : e.target <;> simp [isDangling, Dangles, htarget, hasNode]

theorem callsKnownNode_iff {g : Graph} {n : Node} :
    Summary.callsKnownNode g n = true ↔ g.Calls n := by
  simp only [Summary.callsKnownNode, Calls, edgesFrom, List.any_eq_true, List.mem_filter,
    Bool.and_eq_true, decide_eq_true_eq, beq_iff_eq, and_assoc]
  refine exists_congr fun e => and_congr_right fun _ => and_congr_right fun _ =>
    and_congr_right fun _ => ?_
  cases e.target with
  | node id => simp [hasNode, @eq_comm _ id]
  | pending path => simp

theorem accessesData_iff {g : Graph} {n : Node} :
    Summary.accessesData g n = true ↔ g.Accesses n := by
  simp [Summary.accessesData, Accesses, edgesFrom]

instance (g : Graph) : DecidablePred g.Dangles := fun _ => decidable_of_iff _ isDangling_iff

instance (g : Graph) : DecidablePred g.Calls := fun _ => decidable_of_iff _ callsKnownNode_iff

end Graph

/-- A table is guarded row by row. -/
def Node.HasRls (n : Node) : Prop := ∃ d, n.detail = .table d ∧ d.hasRls = true

/-- A node is a screen of a feature. -/
def InFeature (features : List Feature) (n : Node) : Prop := ∃ f ∈ features, n.id ∈ f.screens

/-- A coverage tells how many nodes of a kind have a property, each counted once. -/
structure Covers (g : Graph) (s : Summary) (kind : NodeKind) (p : Node → Prop) (c : Coverage) :
    Prop where
  part   : c.covered ≤ c.total
  whole  : c.total = s.nodesOf kind
  listed : ∃ ids, ids.length = c.covered ∧ g.Enumerates (fun n => n.kind = kind ∧ p n) ids

/-- The numbers of a summary are those of a graph. -/
structure Balances (g : Graph) (features : List Feature) (s : Summary) : Prop where
  nodes         : Counts Node.kind g.nodes s.nodesByKind
  edges         : Counts Edge.kind g.edges s.edgesByKind
  confidence    : Counts Edge.confidence g.edges s.edgesByConfidence
  evidence      : Counts Evidence.kind g.evidence s.evidenceByKind
  evidenceTotal : s.evidenceTotal = g.evidence.length
  dangling      : s.danglingEdges = g.edges.countP fun e => g.Dangles e
  calls         : Covers g s .screen g.Calls s.screensWithCalls
  accesses      : Covers g s .endpoint g.Accesses s.endpointsWithDataAccess
  rls           : Covers g s .table Node.HasRls s.tablesWithRls
  inFeatures    : Covers g s .screen (InFeature features) s.screensInFeatures

section
variable {g : Graph} {features : List Feature}

theorem dangling_ofGraph :
    (Summary.ofGraph g features).danglingEdges = g.edges.countP fun e => g.Dangles e := by
  rw [Summary.ofGraph, Graph.dangling, ← List.countP_eq_length_filter]
  exact List.countP_congr fun e _ => by rw [Graph.isDangling_iff, decide_eq_true_eq]

theorem calls_ofGraph : (Summary.ofGraph g features).screensWithCalls.covered =
    (g.nodesOf .screen).countP fun n => g.Calls n := by
  rw [Summary.ofGraph, Coverage.ofList]
  exact List.countP_congr fun n _ => by rw [Graph.callsKnownNode_iff, decide_eq_true_eq]

/-- The nodes of a kind that pass a test, out of all nodes of that kind. -/
theorem covers_ofList {s : Summary} {kind : NodeKind} {p : Node → Prop} {q : Node → Bool}
    (hg : g.Distinct) (hs : Counts Node.kind g.nodes s.nodesByKind)
    (hq : ∀ n, q n = true ↔ p n) : Covers g s kind p (.ofList (g.nodesOf kind) q) where
  part := Coverage.covered_le_total _ _
  whole := by
    rw [Coverage.ofList, Graph.nodesOf, ← List.countP_eq_length_filter]
    exact (hs.lookup kind).symm
  listed := by
    refine ⟨_, ?_, hg.enumerates hq (.refl _)⟩
    rw [List.length_map, ← List.countP_eq_length_filter]
    rfl

theorem balances_ofGraph (hg : g.Distinct) (features : List Feature) :
    Balances g features (.ofGraph g features) := by
  have hnodes : Counts Node.kind g.nodes (Summary.ofGraph g features).nodesByKind :=
    counts_tally (by decide) NodeKind.mem_all
  constructor
  · exact hnodes
  · exact counts_tally (by decide) EdgeKind.mem_all
  · exact counts_tally (by decide) Confidence.mem_all
  · exact counts_tally (by decide) EvidenceKind.mem_all
  · rfl
  · exact dangling_ofGraph
  · exact covers_ofList hg hnodes fun _ => Graph.callsKnownNode_iff
  · exact covers_ofList hg hnodes fun _ => Graph.accessesData_iff
  · refine covers_ofList hg hnodes fun n => ?_
    cases hdetail : n.detail <;> simp [Node.HasRls, hdetail]
  · refine covers_ofList hg hnodes fun n => ?_
    simp [InFeature]

end

/-! ## Findings without edges -/

/-- Findings neither hold an edge nor point one anywhere. -/
def Findings.Edgeless (f : Findings) : Prop := f.edges = [] ∧ f.retargets = []

namespace Graph

/-- A graph has become another one by nodes alone. -/
structure GainsNodes (g g' : Graph) : Prop where
  nodes : g.nodes <+: g'.nodes
  edges : g'.edges = g.edges

namespace GainsNodes
variable {g g' g'' : Graph}

theorem refl (g : Graph) : GainsNodes g g := ⟨List.prefix_rfl, rfl⟩

theorem trans (h : GainsNodes g g') (h' : GainsNodes g' g'') : GainsNodes g g'' :=
  ⟨h.nodes.trans h'.nodes, h'.edges.trans h.edges⟩

theorem merge (g : Graph) {f : Findings} (hf : f.Edgeless) : GainsNodes g (g.merge f) where
  nodes := ⟨_, (nodes_merge g f).symm⟩
  edges := by rw [Graph.merge, hf.1, hf.2, List.foldl_nil, List.foldl_nil]

theorem merges (g : Graph) {later : List Findings} (h : ∀ f ∈ later, f.Edgeless) :
    GainsNodes g (later.foldl Graph.merge g) := by
  induction later generalizing g with
  | nil => exact refl g
  | cons f later ih =>
    exact (merge g (h f List.mem_cons_self)).trans
      (ih (g.merge f) fun f hf => h f (List.mem_cons_of_mem _ hf))

theorem dangles (h : GainsNodes g g') {e : Edge} (he : g'.Dangles e) : g.Dangles e := by
  refine he.imp_right ?_
  rintro ⟨id, htarget, hid⟩
  exact ⟨id, htarget, fun hold => hid (List.map_subset _ h.nodes.subset hold)⟩

theorem calls (h : GainsNodes g g') {n : Node} (hn : g.Calls n) : g'.Calls n := by
  obtain ⟨e, he, hsource, hkind, m, hm, htarget⟩ := hn
  exact ⟨e, h.edges ▸ he, hsource, hkind, m, h.nodes.subset hm, htarget⟩

theorem nodesOf (h : GainsNodes g g') (kind : NodeKind) : g.nodesOf kind <+: g'.nodesOf kind :=
  h.nodes.filter _

end GainsNodes
end Graph

/-- A later summary is no worse: no more edges dangle, and the screens that there were go on
calling what they call. -/
structure Improves (g g' : Graph) (s s' : Summary) : Prop where
  dangling : s'.danglingEdges ≤ s.danglingEdges
  calls    : ∀ n ∈ g.nodesOf .screen, g.Calls n → g'.Calls n
  screens  : s.screensWithCalls.covered ≤ (g.nodesOf .screen).countP fun n => g'.Calls n
  covered  : s.screensWithCalls.covered ≤ s'.screensWithCalls.covered

theorem Graph.GainsNodes.improves {g g' : Graph} (h : g.GainsNodes g')
    (features features' : List Feature) :
    Improves g g' (.ofGraph g features) (.ofGraph g' features') := by
  have hscreens : (g.nodesOf .screen).countP (fun n => g.Calls n) ≤
      (g.nodesOf .screen).countP fun n => g'.Calls n :=
    List.countP_mono_left fun n _ hn => decide_eq_true (h.calls (of_decide_eq_true hn))
  constructor
  · rw [dangling_ofGraph, dangling_ofGraph, h.edges]
    exact List.countP_mono_left fun e _ he => decide_eq_true (h.dangles (of_decide_eq_true he))
  · exact fun n _ => h.calls
  · rw [calls_ofGraph]
    exact hscreens
  · rw [calls_ofGraph, calls_ofGraph]
    exact hscreens.trans (h.nodesOf .screen).sublist.countP_le

/-- **A summary balances.** Its tallies add up to the nodes, the edges and the citations of the
graph that a history of findings leads to, its coverages are parts of the nodes of their kinds, and
it counts the edges that dangle. Later findings that bring no edges and point none anywhere let
no more edges dangle, and no screen stops calling what it calls. -/
theorem summary_balances (history : List Findings) (features : List Feature) :
    let g := history.foldl Graph.merge .empty
    Balances g features (.ofGraph g features) ∧
      ∀ later : List Findings, (∀ f ∈ later, f.Edgeless) → ∀ features' : List Feature,
        let g' := later.foldl Graph.merge g
        Improves g g' (.ofGraph g features) (.ofGraph g' features') :=
  ⟨balances_ofGraph (Graph.distinct_empty.merges history) features,
    fun _ hlater features' => (Graph.GainsNodes.merges _ hlater).improves features features'⟩

/-- A page with a call of an endpoint that is not found yet. -/
def callingPage : Findings where
  nodes := [⟨"page", "/projects", none, .screen ⟨"/projects", "", false, none, none, .pagesRouter⟩⟩]
  edges := [⟨"call", "page", .node "get", .calls, .high, [], .plain⟩]

/-- The endpoint that the page calls. -/
def calledEndpoint : Findings where
  nodes := [⟨"get", "GET /api/projects", none, .endpoint ⟨.get, "/api/projects", "", none, .pagesApi⟩⟩]

theorem summary_balances_calledEndpoint :
    let g := [callingPage].foldl Graph.merge .empty
    let g' := [calledEndpoint].foldl Graph.merge g
    (∀ f ∈ [calledEndpoint], f.Edgeless) ∧
      Improves g g' (.ofGraph g []) (.ofGraph g' []) ∧
      (Summary.ofGraph g []).danglingEdges = 1 ∧ (Summary.ofGraph g' []).danglingEdges = 0 := by
  have hlater : ∀ f ∈ [calledEndpoint], f.Edgeless := by
    intro f hf
    rw [List.mem_singleton.1 hf]
    exact ⟨rfl, rfl⟩
  exact ⟨hlater, (summary_balances [callingPage] []).2 [calledEndpoint] hlater [], by
    decide, by decide⟩

end ArchGraph
