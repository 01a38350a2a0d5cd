import ArchGraph.Proofs.Graph.Counting
import Mathlib.Data.List.Induction
import Mathlib.Data.List.TakeWhile
/-!
# A graph as a function of what was merged

The graph that a history of findings leads to, read off the history alone: first occurrences of
nodes, citations and edges, where an edge has also the later citations and the last node that it
was pointed at since it was first found. Main statement: `merges_hold_first_occurrences`.
-/

namespace ArchGraph.Graph

/-! ## What a history says -/

/-- The findings from the first that holds an edge with an identifier on. -/
def sinceEdge (id : String) (outs : List Findings) : List Findings :=
  outs.dropWhile fun f => id ∉ f.edges.map Edge.id

/-- What a history makes of the first occurrence of an edge. It points at the last node that it is
retargeted to once it has been found, and cites behind its own citations those of all edges with
its identifier. -/
def inHistory (outs : List Findings) (e : Edge) : Edge :=
  { e with
    target :=
      (lastTarget? ((sinceEdge e.id outs).flatMap (·.retargets)) e.id).elim e.target .node
    evidenceIds := e.evidenceIds ++
      (firsts (fun s => s) (citations (outs.flatMap (·.edges)) e.id)).filter (· ∉ e.evidenceIds) }

/-- What is left of a graph `g` in a later one: all nodes and citations, and each edge in its
place, with its citations and with no pending path where there was a node. -/
structure Keeps (g g' : Graph) : Prop where
  nodes    : g.nodes <+: g'.nodes
  evidence : g.evidence <+: g'.evidence
  edges    : ∀ (i : Nat) (e : Edge), g.edges[i]? = some e → ∃ target cited,
    g'.edges[i]? = some { e with target := target, evidenceIds := e.evidenceIds ++ cited } ∧
      (target = e.target ∨ target.isPending = false)

/-- The numbers of a merge of `f` that leads from `g` to `g'` add up. -/
structure Balanced (s : MergeStats) (f : Findings) (g g' : Graph) : Prop where
  offeredNodes  : s.nodesAdded + s.nodesSkipped = f.nodes.length
  offeredEdges  : s.edgesAdded + s.edgesMerged = f.edges.length
  nodeCount     : g'.nodes.length = g.nodes.length + s.nodesAdded
  edgeCount     : g'.edges.length = g.edges.length + s.edgesAdded
  evidenceCount : g'.evidence.length = g.evidence.length + s.evidenceAdded

/-! ## One more merge -/

theorem sinceEdge_append_of_mem {id : String} {outs : List Findings} (f : Findings)
    (h : id ∈ (outs.flatMap (·.edges)).map Edge.id) :
    sinceEdge id (outs ++ [f]) = sinceEdge id outs ++ [f] := by
  obtain ⟨e, he, rfl⟩ := List.mem_map.1 h
  obtain ⟨o, ho, heo⟩ := List.mem_flatMap.1 he
  rw [sinceEdge, List.dropWhile_append, if_neg]
  · rfl
  · intro hnil
    have hall := List.dropWhile_eq_nil_iff.1 (List.isEmpty_iff.1 hnil)
    exact of_decide_eq_true (hall o ho) (List.mem_map_of_mem heo)

theorem sinceEdge_append_of_notMem {id : String} {outs : List Findings} {f : Findings}
    (h : id ∉ (outs.flatMap (·.edges)).map Edge.id) (hf : id ∈ f.edges.map Edge.id) :
    sinceEdge id (outs ++ [f]) = [f] := by
  rw [sinceEdge, List.dropWhile_append_of_pos]
  · rw [List.dropWhile_cons, if_neg (by simpa using hf)]
  · intro o ho
    refine decide_eq_true fun hid => h ?_
    obtain ⟨e, he, rfl⟩ := List.mem_map.1 hid
    exact List.mem_map_of_mem (List.mem_flatMap.2 ⟨o, ho, he⟩)

theorem inHistory_eq (outs : List Findings) (e : Edge) :
    inHistory outs e =
      redirect ((sinceEdge e.id outs).flatMap (·.retargets))
        (absorb (outs.flatMap (·.edges)) e) := by
  simp only [inHistory, redirect, absorb, union_eq]

/-- A merge does to an edge of the history what the longer history says. -/
theorem settle_inHistory {outs : List Findings} {e : Edge} (f : Findings)
    (h : e.id ∈ (outs.flatMap (·.edges)).map Edge.id) :
    settle f (inHistory outs e) = inHistory (outs ++ [f]) e := by
  simp only [inHistory_eq, sinceEdge_append_of_mem f h, List.flatMap_append,
    List.flatMap_singleton, redirect_append, absorb_append]
  rfl

/-- A merge does to an edge that it finds first what the longer history says. -/
theorem settle_of_notMem {outs : List Findings} {e : Edge} {f : Findings}
    (h : e.id ∉ (outs.flatMap (·.edges)).map Edge.id) (hf : e ∈ f.edges) :
    settle f e = inHistory (outs ++ [f]) e := by
  have hne : ∀ x ∈ outs.flatMap (·.edges), x.id ≠ e.id :=
    fun x hx hid => h (hid ▸ List.mem_map_of_mem hx)
  rw [inHistory_eq, sinceEdge_append_of_notMem h (List.mem_map_of_mem hf), List.flatMap_append,
    absorb_append, absorb_of_ne hne]
  simp [settle]

/-! ## Whole histories -/

theorem nodes_merges (outs : List Findings) (g : Graph) :
    (outs.foldl merge g).nodes = g.nodes ++ fresh Node.id g.nodes (outs.flatMap (·.nodes)) := by
  rw [← foldl_insertNew]
  induction outs generalizing g with
  | nil => rfl
  | cons f outs ih => rw [List.foldl_cons, ih, List.flatMap_cons, List.foldl_append]; rfl

theorem evidence_merges (outs : List Findings) (g : Graph) :
    (outs.foldl merge g).evidence =
      g.evidence ++ fresh Evidence.id g.evidence (outs.flatMap (·.evidence)) := by
  rw [← foldl_insertNew]
  induction outs generalizing g with
  | nil => rfl
  | cons f outs ih => rw [List.foldl_cons, ih, List.flatMap_cons, List.foldl_append]; rfl

/-- The edges that a history leads to. -/
theorem edges_merges (outs : List Findings) :
    (outs.foldl merge empty).edges =
      (firsts Edge.id (outs.flatMap (·.edges))).map (inHistory outs) := by
  induction outs using List.reverseRecOn with
  | nil => rfl
  | append_singleton outs f ih =>
    have hids : ((firsts Edge.id (outs.flatMap (·.edges))).map (inHistory outs)).map Edge.id =
        (firsts Edge.id (outs.flatMap (·.edges))).map Edge.id := by
      rw [List.map_map]; rfl
    have hfresh : fresh Edge.id (outs.foldl merge empty).edges f.edges =
        fresh Edge.id (outs.flatMap (·.edges)) f.edges :=
      fresh_congr (fun s => by rw [ih, hids]; exact mem_ids_firsts _) f.edges
    rw [List.foldl_append, List.foldl_cons, List.foldl_nil,
      edges_merge (distinct_empty.merges outs), hfresh, ih, List.map_append, List.map_map,
      List.flatMap_append, List.flatMap_singleton, firsts_append, List.map_append]
    congr 1
    · refine List.map_congr_left fun e he => settle_inHistory f ?_
      exact List.mem_map_of_mem (mem_of_mem_firsts he)
    · refine List.map_congr_left fun e he => ?_
      exact settle_of_notMem (mem_fresh he).2 (mem_fresh he).1

/-! ## Single merges -/

theorem isPending_redirect (retargets : List Retarget) (e : Edge) :
    (redirect retargets e).target = e.target ∨
      (redirect retargets e).target.isPending = false := by
  cases h : lastTarget? retargets e.id with
  | none => exact .inl (by simp [redirect, h])
  | some t => exact .inr (by simp [redirect, h, Target.isPending])

theorem keeps_merge {g : Graph} (hg : g.Distinct) (f : Findings) : Keeps g (g.merge f) where
  nodes := ⟨_, (nodes_merge g f).symm⟩
  evidence := ⟨_, (evidence_merge g f).symm⟩
  edges := by
    intro i e hi
    refine ⟨(settle f e).target,
      (firsts (fun s => s) (citations f.edges e.id)).filter (· ∉ e.evidenceIds), ?_, ?_⟩
    · have hlt := (List.getElem?_eq_some_iff.1 hi).1
      rw [edges_merge hg, List.getElem?_map, List.getElem?_append_left hlt, hi, Option.map_some,
        ← union_eq]
      rfl
    · exact isPending_redirect f.retargets (absorb f.edges e)

/-- The counters of a merge, each of which goes up where its fact is added or not. -/
theorem balanced_mergeStats (g : Graph) (f : Findings) :
    Balanced (g.mergeStats f) f g (g.merge f) := by
  obtain ⟨_, _, _, _, _, hrun, hoffered, hoffered', hnodes, hedges, hevidence⟩ :=
    Merging.run_eq g f
  rw [mergeStats, hrun]
  exact ⟨hoffered, hoffered', hnodes, hedges, hevidence⟩

/-- **Merging keeps first occurrences.** Merged in order into the empty graph, findings lead to the
first occurrence of each node and citation, unchanged and in order, and to the first occurrence of
each edge with the later citations and the last target. No merge on the way takes anything back,
and its numbers add up. -/
theorem merges_hold_first_occurrences (outs : List Findings) :
    let g := outs.foldl merge empty
    (g.nodes = firsts Node.id (outs.flatMap (·.nodes)) ∧
      g.evidence = firsts Evidence.id (outs.flatMap (·.evidence)) ∧
      g.edges = (firsts Edge.id (outs.flatMap (·.edges))).map (inHistory outs)) ∧
    ∀ f, Keeps g (g.merge f) ∧ Balanced (g.mergeStats f) f g (g.merge f) := by
  have hd := distinct_empty.merges outs
  refine ⟨⟨?_, ?_, edges_merges outs⟩, fun f => ⟨keeps_merge hd f, balanced_mergeStats _ f⟩⟩
  · rw [nodes_merges]; simp [empty, fresh]
  · rw [evidence_merges]; simp [empty, fresh]

end ArchGraph.Graph
