import ArchGraph.Proofs.Graph.Counting
/-!
# Findings merged at once

Findings can be put behind each other and merged once instead of one after the other, as long as
no request of the first waits for an edge that only the second brings: in the single merge that
edge is there when the request is carried out. Main statement: `merge_append_iff`.
-/

namespace ArchGraph

/-- The numbers of two merges taken together. -/
def MergeStats.add (s t : MergeStats) : MergeStats where
  nodesAdded := s.nodesAdded + t.nodesAdded
  nodesSkipped := s.nodesSkipped + t.nodesSkipped
  edgesAdded := s.edgesAdded + t.edgesAdded
  edgesMerged := s.edgesMerged + t.edgesMerged
  evidenceAdded := s.evidenceAdded + t.evidenceAdded
  edgesRetargeted := s.edgesRetargeted + t.edgesRetargeted
  warnings := s.warnings + t.warnings

namespace Graph

/-- No request of `a` names an edge that neither the graph nor `a` holds but `b` brings. -/
def Prompt (g : Graph) (a b : Findings) : Prop :=
  ∀ r ∈ a.retargets, r.edgeId ∈ b.edges.map Edge.id →
    r.edgeId ∈ g.edges.map Edge.id ∨ r.edgeId ∈ a.edges.map Edge.id

/-! ## The identifiers of merged edges -/

theorem ids_retargetEdge (held : List Edge) (r : Retarget) :
    (retargetEdge held r).map Edge.id = held.map Edge.id := by
  rw [retargetEdge_eq_map, List.map_map]
  rfl

theorem ids_foldl_retargetEdge (retargets : List Retarget) (held : List Edge) :
    (retargets.foldl retargetEdge held).map Edge.id = held.map Edge.id := by
  rw [foldl_retargetEdge, List.map_map]
  rfl

theorem ids_insertEdge (e : Edge) : ∀ held : List Edge,
    (insertEdge held e).map Edge.id = insertNew (fun s => s) (held.map Edge.id) e.id
  | [] => rfl
  | h :: held => by
    rw [insertEdge]
    by_cases he : h.id = e.id
    · rw [if_pos he, insertNew_of_mem (by simp [he])]
      rfl
    · rw [if_neg he, List.map_cons, ids_insertEdge e held]
      by_cases hm : e.id ∈ held.map Edge.id
      · rw [insertNew_of_mem (by simpa using hm),
          insertNew_of_mem (by simpa using List.mem_cons_of_mem h.id hm)]
        rfl
      · have hm' : e.id ∉ (h :: held).map Edge.id := by
          rw [List.map_cons, List.mem_cons, not_or]
          exact ⟨Ne.symm he, hm⟩
        rw [insertNew_of_notMem (by simpa using hm), insertNew_of_notMem (by simpa using hm')]
        rfl

/-- The identifiers of edges are merged like strings. -/
theorem ids_foldl_insertEdge : ∀ (found held : List Edge),
    (found.foldl insertEdge held).map Edge.id =
      held.map Edge.id ++ fresh (fun s => s) (held.map Edge.id) (found.map Edge.id)
  | [], held => by simp [fresh, firsts]
  | e :: found, held => by
    rw [List.foldl_cons, ids_foldl_insertEdge found, ids_insertEdge, ← foldl_insertNew,
      ← foldl_insertNew]
    rfl

theorem length_foldl_insertEdge (found held : List Edge) :
    (found.foldl insertEdge held).length =
      held.length + (fresh (fun s => s) (held.map Edge.id) (found.map Edge.id)).length := by
  have := congrArg List.length (ids_foldl_insertEdge found held)
  simpa using this

theorem ids_foldl_insertEdge_congr (found : List Edge) {held held' : List Edge}
    (h : held.map Edge.id = held'.map Edge.id) :
    (found.foldl insertEdge held).map Edge.id = (found.foldl insertEdge held').map Edge.id := by
  rw [ids_foldl_insertEdge, ids_foldl_insertEdge, h]

theorem ids_merge (g : Graph) (f : Findings) :
    (g.merge f).edges.map Edge.id = (f.edges.foldl insertEdge g.edges).map Edge.id :=
  ids_foldl_retargetEdge _ _

theorem length_eq_of_ids_eq {a b : List Edge} (h : a.map Edge.id = b.map Edge.id) :
    a.length = b.length := by
  simpa using congrArg List.length h

theorem mem_ids_foldl_insertEdge {s : String} {found held : List Edge} :
    s ∈ (found.foldl insertEdge held).map Edge.id ↔
      s ∈ held.map Edge.id ∨ s ∈ found.map Edge.id := by
  rw [ids_foldl_insertEdge, List.mem_append]
  constructor
  · rintro (h | h)
    · exact .inl h
    · exact .inr (mem_fresh h).1
  · intro h
    by_cases hh : s ∈ held.map Edge.id
    · exact .inl hh
    · have hf : s ∈ (firsts (fun s => s) (found.map Edge.id)).map fun s => s :=
        (mem_ids_firsts _).2 (by simpa [hh] using h)
      refine .inr (List.mem_filter.2 ⟨by simpa using hf, ?_⟩)
      simpa using hh

/-! ## Requests and edges pass each other -/

/-- A request and a found edge can be carried out in either order unless the request waits for
that edge. -/
theorem insertEdge_retargetEdge (r : Retarget) (e : Edge) : ∀ held : List Edge,
    (e.id = r.edgeId → e.id ∈ held.map Edge.id) →
      insertEdge (retargetEdge held r) e = retargetEdge (insertEdge held e) r
  | [], h => by
    have hne : e.id ≠ r.edgeId := fun he => by simpa using h he
    simp [retargetEdge, insertEdge, hne]
  | x :: held, h => by
    have hcons : ∀ y l, retargetEdge (y :: l) r =
        (if y.id = r.edgeId then { y with target := .node r.target } else y) ::
          retargetEdge l r := fun _ _ => rfl
    by_cases hx : x.id = e.id
    · rw [hcons, insertEdge, insertEdge, if_pos hx, hcons]
      by_cases hr : x.id = r.edgeId <;> simp [hr, hx ▸ hr, hx]
    · have ih := insertEdge_retargetEdge r e held fun he =>
        (List.mem_cons.1 (h he)).resolve_left (Ne.symm hx)
      rw [hcons, insertEdge, insertEdge, if_neg hx, hcons, ih]
      by_cases hr : x.id = r.edgeId
      · have hne : r.edgeId ≠ e.id := hr ▸ hx
        simp [hr, hne]
      · simp [hr, hx]

theorem foldl_insertEdge_retargetEdge (r : Retarget) : ∀ found held : List Edge,
    (∀ e ∈ found, e.id = r.edgeId → e.id ∈ held.map Edge.id) →
      found.foldl insertEdge (retargetEdge held r) =
        retargetEdge (found.foldl insertEdge held) r
  | [], _, _ => rfl
  | e :: found, held, h => by
    rw [List.foldl_cons, List.foldl_cons, insertEdge_retargetEdge r e held (h e (by simp))]
    refine foldl_insertEdge_retargetEdge r found _ fun x hx hr => ?_
    have hx' : x.id ∈ ([e].foldl insertEdge held).map Edge.id :=
      mem_ids_foldl_insertEdge.2 (.inl (h x (by simp [hx]) hr))
    exact hx'

theorem foldl_insertEdge_foldl_retargetEdge (found : List Edge) :
    ∀ (retargets : List Retarget) (held : List Edge),
      (∀ r ∈ retargets, ∀ e ∈ found, e.id = r.edgeId → e.id ∈ held.map Edge.id) →
        found.foldl insertEdge (retargets.foldl retargetEdge held) =
          retargets.foldl retargetEdge (found.foldl insertEdge held)
  | [], _, _ => rfl
  | r :: retargets, held, h => by
    rw [List.foldl_cons, List.foldl_cons, foldl_insertEdge_foldl_retargetEdge found retargets,
      foldl_insertEdge_retargetEdge r found held (h r (by simp))]
    intro r' hr' e he hid
    rw [ids_retargetEdge]
    exact h r' (by simp [hr']) e he hid

theorem edges_merge_append {g : Graph} {a b : Findings} (h : Prompt g a b) :
    (g.merge (a ++ b)).edges = ((g.merge a).merge b).edges := by
  simp only [merge, Findings.edges_append, Findings.retargets_append, List.foldl_append]
  rw [foldl_insertEdge_foldl_retargetEdge]
  intro r hr e he hid
  exact mem_ids_foldl_insertEdge.2 (hid ▸ h r hr (hid ▸ List.mem_map_of_mem he))

/-! ## Numbers -/

theorem any_ids (edges : List Edge) (s : String) :
    edges.any (·.id == s) = (edges.map Edge.id).contains s := by
  rw [Bool.eq_iff_iff, any_id_iff, List.contains_iff_mem]

theorem length_le_foldl_insertNew {α : Type} (id : α → String) (items held : List α) :
    held.length ≤ (items.foldl (insertNew id) held).length ∧
      (items.foldl (insertNew id) held).length ≤ held.length + items.length := by
  have : (fresh id held items).length ≤ items.length := length_fresh_le held items
  rw [foldl_insertNew, List.length_append]
  omega

theorem length_le_foldl_insertEdge (found held : List Edge) :
    held.length ≤ (found.foldl insertEdge held).length ∧
      (found.foldl insertEdge held).length ≤ held.length + found.length := by
  have : (fresh (fun s => s) (held.map Edge.id) (found.map Edge.id)).length ≤
      (found.map Edge.id).length := length_fresh_le _ _
  rw [length_foldl_insertEdge]
  simp only [List.length_map] at this
  omega

/-- Of two conditions, one of which implies the other, as many items satisfy the weaker one only
if all that do satisfy the stronger one. -/
theorem countP_eq_iff {α : Type} {p q : α → Bool} : ∀ {l : List α}, (∀ x ∈ l, q x → p x) →
    (l.countP p = l.countP q ↔ ∀ x ∈ l, p x → q x)
  | [], _ => by simp
  | x :: l, h => by
    have ih := countP_eq_iff (l := l) fun y hy => h y (by simp [hy])
    have hle : l.countP q ≤ l.countP p := List.countP_mono_left fun y hy => h y (by simp [hy])
    have hx := h x (by simp)
    rw [List.forall_mem_cons, ← ih, List.countP_cons, List.countP_cons]
    by_cases hp : p x = true <;> by_cases hq : q x = true <;> simp [hp, hq] at hx ⊢
    omega

/-- The second findings add nothing to what the requests of the first find exactly if none of
these waits. -/
theorem countP_retargets_eq_iff (g : Graph) (a b : Findings) :
    (let held := a.edges.foldl insertEdge g.edges
     a.retargets.countP (fun r =>
        ((b.edges.foldl insertEdge held).map Edge.id).contains r.edgeId) =
      a.retargets.countP fun r => (held.map Edge.id).contains r.edgeId) ↔ Prompt g a b := by
  have hstep : ∀ r : Retarget,
      ((b.edges.foldl insertEdge (a.edges.foldl insertEdge g.edges)).map Edge.id).contains
        r.edgeId = true ↔
      (r.edgeId ∈ g.edges.map Edge.id ∨ r.edgeId ∈ a.edges.map Edge.id) ∨
        r.edgeId ∈ b.edges.map Edge.id := fun r => by
    rw [List.contains_iff_mem, mem_ids_foldl_insertEdge, mem_ids_foldl_insertEdge]
  simp only
  rw [countP_eq_iff]
  · simp only [hstep, List.contains_iff_mem, mem_ids_foldl_insertEdge, Prompt]
    refine forall₂_congr fun r _ => ⟨fun h hb => h (.inr hb), ?_⟩
    rintro h (ha | hb)
    · exact ha
    · exact h hb
  · intro r _ h
    rw [List.contains_iff_mem, mem_ids_foldl_insertEdge] at h
    exact (hstep r).2 (.inl h)

theorem mergeStats_append_iff (g : Graph) (a b : Findings) :
    g.mergeStats (a ++ b) = (g.mergeStats a).add ((g.merge a).mergeStats b) ↔ Prompt g a b := by
  rw [← countP_retargets_eq_iff]
  have hids := ids_foldl_insertEdge_congr b.edges (ids_merge g a)
  have hheld := length_eq_of_ids_eq (ids_merge g a)
  have hlen := length_eq_of_ids_eq hids
  have n1 := length_le_foldl_insertNew Node.id a.nodes g.nodes
  have n2 := length_le_foldl_insertNew Node.id b.nodes (a.nodes.foldl (insertNew Node.id) g.nodes)
  have v1 := length_le_foldl_insertNew Evidence.id a.evidence g.evidence
  have v2 := length_le_foldl_insertNew Evidence.id b.evidence
    (a.evidence.foldl (insertNew Evidence.id) g.evidence)
  have e1 := length_le_foldl_insertEdge a.edges g.edges
  have e2 := length_le_foldl_insertEdge b.edges (a.edges.foldl insertEdge g.edges)
  simp only [mergeStats_eq, length_edges_merge, MergeStats.add, any_ids, hlen, hheld, hids,
    Findings.nodes_append, Findings.edges_append, Findings.retargets_append,
    Findings.warnings_append, List.foldl_append, List.length_append, List.countP_append,
    MergeStats.mk.injEq, and_true]
  simp only [merge, Findings.nodes_append, Findings.evidence_append, List.foldl_append]
  omega

/-- **Merging at once.** If no request of `a` waits for an edge that only `b` brings, findings put
behind each other and merged once lead to the graph to which they lead one after the other; and
exactly then the numbers of the one merge are those of the two together. -/
theorem merge_append_iff (g : Graph) (a b : Findings) :
    (Prompt g a b → g.merge (a ++ b) = (g.merge a).merge b) ∧
      (Prompt g a b ↔
        g.mergeStats (a ++ b) = (g.mergeStats a).add ((g.merge a).mergeStats b)) := by
  refine ⟨fun h => ?_, (mergeStats_append_iff g a b).symm⟩
  have he := edges_merge_append h
  have hn := nodes_merge_append g a b
  have hv := evidence_merge_append g a b
  have hw : (g.merge (a ++ b)).warnings = ((g.merge a).merge b).warnings := by
    simp [merge, List.append_assoc]
  cases hl : g.merge (a ++ b)
  cases hr : (g.merge a).merge b
  simp_all

/-- A call that both findings bring. -/
def sampleCall (evidenceIds : List String) : Edge :=
  ⟨"e", "n", .pending "/api", .calls, .high, evidenceIds, .plain⟩

/-- The first findings retarget a call that the second bring again. -/
theorem merge_sample_append :
    let a : Findings := { edges := [sampleCall ["x"]], retargets := [⟨"e", "t"⟩] }
    let b : Findings := { edges := [sampleCall ["x", "y"]] }
    Prompt empty a b ∧ empty.merge (a ++ b) = (empty.merge a).merge b ∧
      ((empty.merge a).merge b).edges = [{ sampleCall ["x", "y"] with target := .node "t" }] := by
  intro a b
  have hp : Prompt empty a b := by
    unfold Prompt
    decide
  exact ⟨hp, (merge_append_iff empty a b).1 hp, by decide⟩

end Graph
end ArchGraph
