import ArchGraph.Proofs.Graph.Merge
/-!
# The numbers of a merge

What a merge reports is counted while it goes through the findings one by one. It leads to the
merged graph (`Merging.run_eq`), and the counts of each kind of fact are those of the facts that
were offered and of those by which the graph has grown.
-/

namespace ArchGraph.Graph

theorem any_id_iff {α : Type} {id : α → String} {held : List α} {s : String} :
    held.any (id · == s) = true ↔ s ∈ held.map id := by
  simp [List.any_eq_true]

theorem length_foldl_retargetEdge (retargets : List Retarget) (held : List Edge) :
    (retargets.foldl retargetEdge held).length = held.length := by
  rw [foldl_retargetEdge, List.length_map]

theorem length_edges_merge (g : Graph) (f : Findings) :
    (g.merge f).edges.length = (f.edges.foldl insertEdge g.edges).length :=
  length_foldl_retargetEdge _ _

theorem length_insertEdge (e : Edge) : ∀ held : List Edge, (insertEdge held e).length =
    if e.id ∈ held.map Edge.id then held.length else held.length + 1
  | [] => rfl
  | h :: held => by
    have ih := length_insertEdge e held
    rw [insertEdge]
    by_cases hid : h.id = e.id
    · rw [if_pos hid, if_pos (by simp [hid]), List.length_cons, List.length_cons]
    · have hmem : e.id ∈ (h :: held).map Edge.id ↔ e.id ∈ held.map Edge.id := by
        simp [Ne.symm hid]
      rw [if_neg hid, List.length_cons, ih, List.length_cons]
      simp only [hmem]
      split <;> rfl

namespace Merging

/-! ## One kind of fact after the other -/

/-- Of the nodes that are offered each one is counted: the graph grows by those that are added. -/
theorem foldl_addNode : ∀ (nodes : List Node) (m : Merging), ∃ added skipped,
    nodes.foldl addNode m =
        { graph := { m.graph with nodes := nodes.foldl (insertNew Node.id) m.graph.nodes }
          stats := { m.stats with
            nodesAdded := m.stats.nodesAdded + added
            nodesSkipped := m.stats.nodesSkipped + skipped } } ∧
      added + skipped = nodes.length ∧
      (nodes.foldl (insertNew Node.id) m.graph.nodes).length = m.graph.nodes.length + added
  | [], m => ⟨0, 0, rfl, rfl, rfl⟩
  | n :: nodes, m => by
    rw [List.foldl_cons, List.foldl_cons, addNode, insertNew]
    split
    · obtain ⟨added, skipped, hrun, hoffered, hlength⟩ := foldl_addNode nodes
        { m with stats := { m.stats with nodesSkipped := m.stats.nodesSkipped + 1 } }
      refine ⟨added, skipped + 1, ?_, by rw [List.length_cons]; omega, hlength⟩
      rw [hrun, Nat.add_assoc, Nat.add_comm 1]
    · obtain ⟨added, skipped, hrun, hoffered, hlength⟩ := foldl_addNode nodes
        { graph := { m.graph with nodes := m.graph.nodes ++ [n] }
          stats := { m.stats with nodesAdded := m.stats.nodesAdded + 1 } }
      refine ⟨added + 1, skipped, ?_, by rw [List.length_cons]; omega, ?_⟩
      · rw [hrun, Nat.add_assoc, Nat.add_comm 1]
      · rw [hlength, List.length_append, List.length_singleton]
        omega

/-- Of the edges that are offered each one is counted: the graph grows by those that are added. -/
theorem foldl_addEdge : ∀ (edges : List Edge) (m : Merging), ∃ added merged,
    edges.foldl addEdge m =
        { graph := { m.graph with edges := edges.foldl insertEdge m.graph.edges }
          stats := { m.stats with
            edgesAdded := m.stats.edgesAdded + added
            edgesMerged := m.stats.edgesMerged + merged } } ∧
      added + merged = edges.length ∧
      (edges.foldl insertEdge m.graph.edges).length = m.graph.edges.length + added
  | [], m => ⟨0, 0, rfl, rfl, rfl⟩
  | e :: edges, m => by
    have hgrown := length_insertEdge e m.graph.edges
    rw [List.foldl_cons, List.foldl_cons, addEdge]
    split
    · next htaken =>
      rw [if_pos (any_id_iff.1 htaken)] at hgrown
      obtain ⟨added, merged, hrun, hoffered, hlength⟩ := foldl_addEdge edges
        { graph := { m.graph with edges := insertEdge m.graph.edges e }
          stats := { m.stats with edgesMerged := m.stats.edgesMerged + 1 } }
      refine ⟨added, merged + 1, ?_, by rw [List.length_cons]; omega,
        hlength.trans (by rw [hgrown])⟩
      rw [hrun, Nat.add_assoc, Nat.add_comm 1]
    · next hfree =>
      rw [if_neg (mt any_id_iff.2 hfree)] at hgrown
      obtain ⟨added, merged, hrun, hoffered, hlength⟩ := foldl_addEdge edges
        { graph := { m.graph with edges := insertEdge m.graph.edges e }
          stats := { m.stats with edgesAdded := m.stats.edgesAdded + 1 } }
      refine ⟨added + 1, merged, ?_, by rw [List.length_cons]; omega, ?_⟩
      · rw [hrun, Nat.add_assoc, Nat.add_comm 1]
      · rw [hlength, hgrown]
        omega

/-- The graph grows by the citations that are counted as added. -/
theorem foldl_addEvidence : ∀ (evidence : List Evidence) (m : Merging), ∃ added,
    evidence.foldl addEvidence m =
        { graph := { m.graph with
            evidence := evidence.foldl (insertNew Evidence.id) m.graph.evidence }
          stats := { m.stats with evidenceAdded := m.stats.evidenceAdded + added } } ∧
      (evidence.foldl (insertNew Evidence.id) m.graph.evidence).length =
        m.graph.evidence.length + added
  | [], m => ⟨0, rfl, rfl⟩
  | ev :: evidence, m => by
    rw [List.foldl_cons, List.foldl_cons, addEvidence, insertNew]
    split
    · exact foldl_addEvidence evidence m
    · obtain ⟨added, hrun, hlength⟩ := foldl_addEvidence evidence
        { graph := { m.graph with evidence := m.graph.evidence ++ [ev] }
          stats := { m.stats with evidenceAdded := m.stats.evidenceAdded + 1 } }
      refine ⟨added + 1, ?_, ?_⟩
      · rw [hrun, Nat.add_assoc, Nat.add_comm 1]
      · rw [hlength, List.length_append, List.length_singleton]
        omega

/-- A request without an edge changes nothing. -/
theorem retargetEdge_of_notMem {held : List Edge} {r : Retarget}
    (h : r.edgeId ∉ held.map Edge.id) : retargetEdge held r = held := by
  refine (List.map_congr_left fun e he => ?_).trans (List.map_id held)
  have hne : e.id ≠ r.edgeId := fun hid => h (hid ▸ List.mem_map_of_mem he)
  rw [if_neg hne, id]

/-- The requests that are counted are those whose edge was there before any was carried out. -/
theorem foldl_retarget : ∀ (retargets : List Retarget) (m : Merging),
    retargets.foldl retarget m =
      { graph := { m.graph with edges := retargets.foldl retargetEdge m.graph.edges }
        stats := { m.stats with
          edgesRetargeted := m.stats.edgesRetargeted +
            retargets.countP fun r => m.graph.edges.any (·.id == r.edgeId) } }
  | [], m => rfl
  | r :: retargets, m => by
    have hids (r' : Retarget) : (retargetEdge m.graph.edges r).any (·.id == r'.edgeId) =
        m.graph.edges.any (·.id == r'.edgeId) := by
      rw [retargetEdge, List.any_map]
      refine congrArg (List.any m.graph.edges) (funext fun e => ?_)
      simp only [Function.comp_apply]
      split <;> rfl
    rw [List.foldl_cons, List.foldl_cons, List.countP_cons, retarget]
    split
    · next hthere =>
      rw [foldl_retarget retargets]
      simp only [hids, Nat.add_assoc, Nat.add_comm 1]
    · next hmissing =>
      have hsame : retargetEdge m.graph.edges r = m.graph.edges :=
        retargetEdge_of_notMem (mt any_id_iff.2 hmissing)
      rw [foldl_retarget retargets, hsame, Nat.add_zero]

/-! ## All of them -/

/-- **What a merge counts.** It leads to the merged graph. Each node and each edge that is offered
is counted once, and the graph grows by those that are counted as added. -/
theorem run_eq (g : Graph) (f : Findings) :
    ∃ nodesAdded nodesSkipped edgesAdded edgesMerged evidenceAdded,
      run g f = ⟨g.merge f, nodesAdded, nodesSkipped, edgesAdded, edgesMerged, evidenceAdded,
        f.retargets.countP fun r => (f.edges.foldl insertEdge g.edges).any (·.id == r.edgeId),
        f.warnings.length⟩ ∧
      nodesAdded + nodesSkipped = f.nodes.length ∧ edgesAdded + edgesMerged = f.edges.length ∧
      (g.merge f).nodes.length = g.nodes.length + nodesAdded ∧
      (g.merge f).edges.length = g.edges.length + edgesAdded ∧
      (g.merge f).evidence.length = g.evidence.length + evidenceAdded := by
  obtain ⟨nodesAdded, nodesSkipped, hnodes, hoffered, hgrown⟩ :=
    foldl_addNode f.nodes { graph := g }
  obtain ⟨edgesAdded, edgesMerged, hedges, hoffered', hgrown'⟩ :=
    foldl_addEdge f.edges (f.nodes.foldl addNode { graph := g })
  obtain ⟨evidenceAdded, hevidence, hgrown''⟩ :=
    foldl_addEvidence f.evidence (f.edges.foldl addEdge (f.nodes.foldl addNode { graph := g }))
  rw [hnodes] at hedges hgrown' hevidence hgrown''
  rw [hedges] at hevidence hgrown''
  refine ⟨nodesAdded, nodesSkipped, edgesAdded, edgesMerged, evidenceAdded, ?_, hoffered, hoffered',
    hgrown, ?_, hgrown''⟩
  · rw [run, hnodes, hedges, hevidence, foldl_retarget]
    simp only [warn, Nat.zero_add]
    rfl
  · rw [length_edges_merge]
    exact hgrown'

/-- Merging findings one by one leads to the merged graph. -/
theorem graph_run (g : Graph) (f : Findings) : (run g f).graph = g.merge f := by
  obtain ⟨_, _, _, _, _, hrun, -⟩ := run_eq g f
  rw [hrun]

end Merging

/-- The counts as lengths of what was offered and of what it led to. -/
theorem mergeStats_eq (g : Graph) (f : Findings) : g.mergeStats f =
    { nodesAdded := (g.merge f).nodes.length - g.nodes.length
      nodesSkipped := f.nodes.length - ((g.merge f).nodes.length - g.nodes.length)
      edgesAdded := (g.merge f).edges.length - g.edges.length
      edgesMerged := f.edges.length - ((g.merge f).edges.length - g.edges.length)
      evidenceAdded := (g.merge f).evidence.length - g.evidence.length
      edgesRetargeted :=
        f.retargets.countP fun r => (f.edges.foldl insertEdge g.edges).any (·.id == r.edgeId)
      warnings := f.warnings.length } := by
  obtain ⟨_, _, _, _, _, hrun, hnodes, hedges, hnodes', hedges', hevidence⟩ := Merging.run_eq g f
  rw [mergeStats, hrun]
  simp only [MergeStats.mk.injEq, and_true]
  omega

end ArchGraph.Graph
