import ArchGraph.Graph.Store
/-!
# One merge as an equation

A merge goes through the found items one by one. Seen as a whole it appends the items whose
identifiers are new (`foldl_insertNew`), adds the citations of every found edge to the edge that
is held (`foldl_insertEdge`), and redirects each edge to the last node that it is pointed at
(`foldl_retargetEdge`). Main statement: `edges_merge`, all three in one equation.
-/

namespace ArchGraph.Graph

/-! ## First occurrences -/

section
variable {α : Type} (id : α → String)

/-- The first item with each identifier, in the order in which they occur. -/
def firsts : List α → List α
  | [] => []
  | a :: rest => a :: (firsts rest).filter fun b => id b ≠ id a

/-- The first items with identifiers that are not held. -/
def fresh (held items : List α) : List α := (firsts id items).filter fun a => id a ∉ held.map id

variable {id}

theorem firsts_sublist : ∀ l : List α, (firsts id l).Sublist l
  | [] => .slnil
  | a :: rest => (List.filter_sublist.trans (firsts_sublist rest)).cons_cons a

theorem mem_of_mem_firsts {a : α} {l : List α} (h : a ∈ firsts id l) : a ∈ l :=
  (firsts_sublist l).subset h

theorem nodup_firsts : ∀ l : List α, ((firsts id l).map id).Nodup
  | [] => .nil
  | a :: rest => by
    rw [firsts, List.map_cons, List.nodup_cons]
    constructor
    · simp [List.mem_map]
    · exact (nodup_firsts rest).sublist (List.filter_sublist.map id)

theorem mem_ids_firsts {s : String} : ∀ l : List α, s ∈ (firsts id l).map id ↔ s ∈ l.map id
  | [] => Iff.rfl
  | a :: rest => by
    have ih := mem_ids_firsts (s := s) rest
    simp only [List.mem_map] at ih
    simp only [firsts, List.map_cons, List.mem_cons, List.mem_map, List.mem_filter]
    by_cases hs : s = id a
    · simp [hs]
    · simp only [hs, false_or, ← ih]
      constructor
      · rintro ⟨b, ⟨hb, -⟩, rfl⟩; exact ⟨b, hb, rfl⟩
      · rintro ⟨b, hb, rfl⟩; exact ⟨b, ⟨hb, by simpa using hs⟩, rfl⟩

/-- Of things with one identifier one is first. -/
theorem exists_first {a : α} {l : List α} (h : a ∈ l) : ∃ b ∈ firsts id l, id b = id a :=
  List.mem_map.1 ((mem_ids_firsts l).2 (List.mem_map_of_mem h))

theorem fresh_nil (held : List α) : fresh id held [] = [] := rfl

theorem fresh_cons_of_mem {a : α} {held rest : List α} (h : id a ∈ held.map id) :
    fresh id held (a :: rest) = fresh id held rest := by
  simp only [fresh, firsts, List.filter_cons, h, not_true_eq_false, decide_false,
    Bool.false_eq_true, ite_false, List.filter_filter]
  refine List.filter_congr fun b _ => ?_
  by_cases hb : id b = id a
  · simp [hb, h]
  · simp [hb]

theorem fresh_cons_of_notMem {a : α} {held rest : List α} (h : id a ∉ held.map id) :
    fresh id held (a :: rest) = a :: fresh id (held ++ [a]) rest := by
  simp only [fresh, firsts, List.filter_cons, h, not_false_eq_true, decide_true, ite_true,
    List.filter_filter]
  congr 1
  refine List.filter_congr fun b _ => ?_
  simp [Bool.and_comm]

theorem fresh_congr {held held' : List α} (h : ∀ s, s ∈ held.map id ↔ s ∈ held'.map id)
    (items : List α) : fresh id held items = fresh id held' items := by
  simp only [fresh, h]

theorem mem_fresh {a : α} {held items : List α} (h : a ∈ fresh id held items) :
    a ∈ items ∧ id a ∉ held.map id := by
  simp only [fresh, List.mem_filter, decide_eq_true_eq] at h
  exact ⟨mem_of_mem_firsts h.1, h.2⟩

theorem length_fresh_le (held items : List α) : (fresh id held items).length ≤ items.length :=
  (List.filter_sublist.trans (firsts_sublist items)).length_le

/-- The first occurrences in two lists: those of the first list, then those that are new. -/
theorem firsts_append : ∀ a b : List α, firsts id (a ++ b) = firsts id a ++ fresh id a b
  | [], b => by
    rw [List.nil_append, firsts, List.nil_append, fresh, List.filter_eq_self.2 (by simp)]
  | x :: a, b => by
    simp only [List.cons_append, firsts, firsts_append a b, List.filter_append, fresh,
      List.filter_filter]
    congr 2
    refine List.filter_congr fun y _ => ?_
    simp

theorem nodup_append_fresh {held : List α} (h : (held.map id).Nodup) (items : List α) :
    ((held ++ fresh id held items).map id).Nodup := by
  rw [List.map_append, List.nodup_append]
  refine ⟨h, (nodup_firsts items).sublist (List.filter_sublist.map id), ?_⟩
  rintro s hs t ht rfl
  obtain ⟨a, ha, rfl⟩ := List.mem_map.1 ht
  exact (mem_fresh ha).2 hs

theorem firsts_of_nodup : ∀ {l : List α}, (l.map id).Nodup → firsts id l = l
  | [], _ => rfl
  | a :: rest, h => by
    rw [List.map_cons, List.nodup_cons] at h
    rw [firsts, firsts_of_nodup h.2, List.filter_eq_self.2]
    intro b hb
    exact decide_eq_true fun e => h.1 (e ▸ List.mem_map_of_mem hb)

/-- Items can be chosen before or after the first occurrences are taken, if an identifier decides
the choice. -/
theorem firsts_filter {q : α → Bool} : ∀ {l : List α}, (∀ a ∈ l, ∀ b ∈ l, id a = id b → q a = q b) →
    (firsts id l).filter q = firsts id (l.filter q)
  | [], _ => rfl
  | a :: rest, h => by
    have ih := firsts_filter (q := q) (l := rest) fun b hb c hc => h b (by simp [hb]) c (by simp [hc])
    rw [firsts, List.filter_cons, List.filter_cons, List.filter_filter]
    by_cases hq : q a = true
    · rw [if_pos hq, if_pos hq, firsts, ← ih, List.filter_filter]
      simp only [Bool.and_comm]
    · rw [if_neg hq, if_neg hq, ← ih]
      refine List.filter_congr fun b hb => ?_
      -- an item with the identifier of `a` is not chosen either
      by_cases hid : id b = id a
      · have hqb := h b (by simp [mem_of_mem_firsts hb]) a (by simp) hid
        simp [hid, hqb, hq]
      · simp [hid]

/-- Items that stand for others are first when those are. -/
theorem firsts_map {β : Type} (f : β → α) : ∀ l : List β,
    firsts id (l.map f) = (firsts (fun b => id (f b)) l).map f
  | [] => rfl
  | b :: rest => by
    rw [List.map_cons, firsts, firsts_map f rest, List.filter_map, firsts, List.map_cons]
    rfl

theorem insertNew_of_mem {held : List α} {a : α} (h : id a ∈ held.map id) :
    insertNew id held a = held := by
  have : (held.any fun b => id b == id a) = true := by simpa [List.any_eq_true] using h
  rw [insertNew, if_pos this]

theorem insertNew_of_notMem {held : List α} {a : α} (h : id a ∉ held.map id) :
    insertNew id held a = held ++ [a] := by
  have : ¬ (held.any fun b => id b == id a) = true := by simpa [List.any_eq_true] using h
  rw [insertNew, if_neg this]

/-- Merging items appends those that are fresh. -/
theorem foldl_insertNew : ∀ items held : List α,
    items.foldl (insertNew id) held = held ++ fresh id held items
  | [], held => by simp [fresh_nil]
  | a :: rest, held => by
    rw [List.foldl_cons]
    by_cases h : id a ∈ held.map id
    · rw [insertNew_of_mem h, foldl_insertNew rest held, fresh_cons_of_mem h]
    · rw [insertNew_of_notMem h, foldl_insertNew rest, fresh_cons_of_notMem h]
      simp

end

/-! ## Citations -/

theorem union_append (held a b : List String) :
    union held (a ++ b) = union (union held a) b := List.foldl_append

/-- Strings are held in front of those that are new. -/
theorem union_eq (held more : List String) :
    union held more = held ++ (firsts (fun s => s) more).filter (· ∉ held) := by
  have hstep : (fun held s => if held.contains s then held else held ++ [s]) =
      insertNew fun s : String => s := by
    funext held s
    by_cases h : s ∈ held
    · rw [insertNew_of_mem (by simpa using h)]; simp [h]
    · rw [insertNew_of_notMem (by simpa using h)]; simp [h]
  rw [union, hstep, foldl_insertNew]
  simp [fresh]

theorem union_of_subset {held more : List String} (h : ∀ s ∈ more, s ∈ held) :
    union held more = held := by
  rw [union_eq, List.filter_eq_nil_iff.2, List.append_nil]
  intro s hs
  simpa using h s (mem_of_mem_firsts hs)

theorem mem_union {held more : List String} {s : String} :
    s ∈ union held more ↔ s ∈ held ∨ s ∈ more := by
  have hfirst := @mem_ids_firsts _ (fun s : String => s) s more
  rw [List.map_id', List.map_id'] at hfirst
  rw [union_eq, List.mem_append, List.mem_filter, hfirst, decide_eq_true_eq]
  by_cases h : s ∈ held <;> simp [h]

/-- What the edges with an identifier cite. -/
def citations (edges : List Edge) (id : String) : List String :=
  (edges.filter (·.id = id)).flatMap (·.evidenceIds)

theorem mem_citations {edges : List Edge} {id s : String} :
    s ∈ citations edges id ↔ ∃ e ∈ edges, e.id = id ∧ s ∈ e.evidenceIds := by
  simp only [citations, List.mem_flatMap, List.mem_filter, decide_eq_true_eq, and_assoc]

theorem citations_append (a b : List Edge) (id : String) :
    citations (a ++ b) id = citations a id ++ citations b id := by
  simp [citations]

theorem citations_of_ne {edges : List Edge} {id : String} (h : ∀ e ∈ edges, e.id ≠ id) :
    citations edges id = [] := by
  rw [citations, List.filter_eq_nil_iff.2 (by simpa using h)]
  rfl

/-- An edge with the citations of all found edges that have its identifier. -/
def absorb (found : List Edge) (e : Edge) : Edge :=
  { e with evidenceIds := union e.evidenceIds (citations found e.id) }

theorem absorb_nil (e : Edge) : absorb [] e = e := rfl

theorem absorb_append (a b : List Edge) (e : Edge) :
    absorb (a ++ b) e = absorb b (absorb a e) := by
  simp [absorb, citations_append, union_append]

theorem absorb_of_ne {found : List Edge} {e : Edge} (h : ∀ x ∈ found, x.id ≠ e.id) :
    absorb found e = e := by
  rw [absorb, citations_of_ne h]
  rfl

theorem absorb_singleton_of_ne {e x : Edge} (h : e.id ≠ x.id) : absorb [e] x = x :=
  absorb_of_ne (by simpa using h)

theorem absorb_self (e : Edge) : absorb [e] e = e := by
  have : union e.evidenceIds (citations [e] e.id) = e.evidenceIds :=
    union_of_subset (by simp [citations])
  rw [absorb, this]

/-! ## Edges -/

theorem insertEdge_of_notMem {e : Edge} : ∀ {held : List Edge}, e.id ∉ held.map Edge.id →
    insertEdge held e = held ++ [e]
  | [], _ => rfl
  | h :: held, hn => by
    simp only [List.map_cons, List.mem_cons, not_or] at hn
    rw [insertEdge, if_neg (Ne.symm hn.1), insertEdge_of_notMem hn.2]
    rfl

theorem insertEdge_of_mem {e : Edge} : ∀ {held : List Edge}, (held.map Edge.id).Nodup →
    e.id ∈ held.map Edge.id → insertEdge held e = held.map (absorb [e])
  | [], _, hm => by simp at hm
  | h :: held, hd, hm => by
    rw [List.map_cons, List.nodup_cons] at hd
    rw [insertEdge]
    by_cases he : h.id = e.id
    · -- the other edges have other identifiers and stay as they are
      have hrest : held.map (absorb [e]) = held := by
        refine (List.map_congr_left fun x hx => absorb_singleton_of_ne ?_).trans (List.map_id held)
        exact fun h => hd.1 (he.trans h ▸ List.mem_map_of_mem hx)
      rw [if_pos he, List.map_cons, hrest]
      simp [absorb, citations, he]
    · have hm' : e.id ∈ held.map Edge.id := by
        simpa [Ne.symm he] using hm
      rw [if_neg he, insertEdge_of_mem hd.2 hm', List.map_cons,
        absorb_singleton_of_ne (Ne.symm he)]

/-- Merging edges appends those that are fresh, and every edge takes over all citations. -/
theorem foldl_insertEdge : ∀ (found held : List Edge), (held.map Edge.id).Nodup →
    found.foldl insertEdge held = (held ++ fresh Edge.id held found).map (absorb found)
  | [], held, _ => by
    have : absorb [] = fun e => e := funext absorb_nil
    simp [fresh_nil, this]
  | e :: found, held, hd => by
    have hsplit : absorb (e :: found) = absorb found ∘ absorb [e] :=
      funext fun x => absorb_append [e] found x
    rw [List.foldl_cons]
    by_cases hm : e.id ∈ held.map Edge.id
    · have hids : (held.map (absorb [e])).map Edge.id = held.map Edge.id := by
        rw [List.map_map]; rfl
      have hfresh : fresh Edge.id (held.map (absorb [e])) found = fresh Edge.id held found :=
        fresh_congr (fun s => by rw [hids]) found
      have hkeep : (fresh Edge.id held found).map (absorb found) =
          (fresh Edge.id held found).map (absorb (e :: found)) := by
        refine List.map_congr_left fun x hx => ?_
        have hne : e.id ≠ x.id := fun h => (mem_fresh hx).2 (h ▸ hm)
        rw [hsplit, Function.comp_apply, absorb_singleton_of_ne hne]
      rw [insertEdge_of_mem hd hm, foldl_insertEdge found _ (hids ▸ hd), hfresh,
        fresh_cons_of_mem hm, List.map_append, hkeep, List.map_map, ← hsplit, List.map_append]
    · have hd' : ((held ++ [e]).map Edge.id).Nodup := by
        rw [List.map_append, List.nodup_append]
        refine ⟨hd, by simp, fun s hs t ht h => hm ?_⟩
        rw [List.map_singleton, List.mem_singleton] at ht
        exact ht ▸ h ▸ hs
      have hkeep : ∀ x ∈ held ++ e :: fresh Edge.id (held ++ [e]) found,
          absorb found x = absorb (e :: found) x := by
        intro x hx
        rw [hsplit, Function.comp_apply]
        rcases List.mem_append.1 hx with hx | hx
        · have hne : e.id ≠ x.id := fun h => hm (h ▸ List.mem_map_of_mem hx)
          rw [absorb_singleton_of_ne hne]
        · rcases List.mem_cons.1 hx with rfl | hx
          · rw [absorb_self]
          · have hne : e.id ≠ x.id := fun h => (mem_fresh hx).2 (by simp [h])
            rw [absorb_singleton_of_ne hne]
      rw [insertEdge_of_notMem hm, foldl_insertEdge found _ hd', fresh_cons_of_notMem hm,
        List.append_assoc, List.singleton_append]
      exact List.map_congr_left hkeep

/-! ## Targets -/

/-- The node that an edge is pointed at last. -/
def lastTarget? (retargets : List Retarget) (id : String) : Option String :=
  (retargets.filter (·.edgeId = id)).getLast?.map (·.target)

/-- An edge that is pointed at the node it is pointed at last. -/
def redirect (retargets : List Retarget) (e : Edge) : Edge :=
  { e with target := (lastTarget? retargets e.id).elim e.target .node }

theorem lastTarget?_append (a b : List Retarget) (id : String) :
    lastTarget? (a ++ b) id = (lastTarget? b id).or (lastTarget? a id) := by
  rw [lastTarget?, List.filter_append, List.getLast?_append]
  cases h : (b.filter (·.edgeId = id)).getLast? <;> simp [lastTarget?, h]

theorem redirect_nil (e : Edge) : redirect [] e = e := rfl

theorem redirect_append (a b : List Retarget) (e : Edge) :
    redirect (a ++ b) e = redirect b (redirect a e) := by
  simp only [redirect, lastTarget?_append]
  cases lastTarget? b e.id <;> rfl

theorem retargetEdge_eq_map (held : List Edge) (r : Retarget) :
    retargetEdge held r = held.map (redirect [r]) := by
  refine List.map_congr_left fun e _ => ?_
  by_cases h : e.id = r.edgeId
  · simp [redirect, lastTarget?, h]
  · simp [redirect, lastTarget?, h, Ne.symm h]

theorem foldl_retargetEdge : ∀ (retargets : List Retarget) (held : List Edge),
    retargets.foldl retargetEdge held = held.map (redirect retargets)
  | [], held => by
    have : redirect [] = fun e => e := funext redirect_nil
    simp [this]
  | r :: retargets, held => by
    rw [List.foldl_cons, retargetEdge_eq_map, foldl_retargetEdge retargets, List.map_map]
    exact List.map_congr_left fun e _ => (redirect_append [r] retargets e).symm

/-! ## Merges -/

/-- A graph holds each identifier of a node, of an edge and of a citation once. -/
structure Distinct (g : Graph) : Prop where
  nodes    : (g.nodes.map Node.id).Nodup
  edges    : (g.edges.map Edge.id).Nodup
  evidence : (g.evidence.map Evidence.id).Nodup

theorem distinct_empty : empty.Distinct := ⟨.nil, .nil, .nil⟩

theorem nodes_merge (g : Graph) (f : Findings) :
    (g.merge f).nodes = g.nodes ++ fresh Node.id g.nodes f.nodes := foldl_insertNew _ _

theorem evidence_merge (g : Graph) (f : Findings) :
    (g.merge f).evidence = g.evidence ++ fresh Evidence.id g.evidence f.evidence := foldl_insertNew _ _

/-- What becomes of an edge, held or found, in a merge. -/
def settle (f : Findings) (e : Edge) : Edge := redirect f.retargets (absorb f.edges e)

/-- **A merge of edges.** The edges that are held are followed by those that are fresh; each takes
over the found citations and is then pointed at the last node that it is retargeted to. -/
theorem edges_merge {g : Graph} (hg : g.Distinct) (f : Findings) :
    (g.merge f).edges = (g.edges ++ fresh Edge.id g.edges f.edges).map (settle f) := by
  rw [merge, foldl_insertEdge _ _ hg.edges, foldl_retargetEdge, List.map_map]
  rfl

theorem mem_edges_merge {g : Graph} (hg : g.Distinct) {f : Findings} {e : Edge} :
    e ∈ (g.merge f).edges ↔
      ∃ e₀, (e₀ ∈ g.edges ∨ e₀ ∈ fresh Edge.id g.edges f.edges) ∧ settle f e₀ = e := by
  rw [edges_merge hg, List.mem_map]
  simp only [List.mem_append]

theorem Distinct.merge {g : Graph} (hg : g.Distinct) (f : Findings) : (g.merge f).Distinct where
  nodes := by rw [nodes_merge]; exact nodup_append_fresh hg.nodes _
  edges := by
    rw [edges_merge hg, List.map_map]
    exact nodup_append_fresh hg.edges _
  evidence := by rw [evidence_merge]; exact nodup_append_fresh hg.evidence _

/-! ## Nodes after a merge -/

theorem nodes_merge_firsts {g : Graph} (hg : g.Distinct) (f : Findings) :
    (g.merge f).nodes = firsts Node.id (g.nodes ++ f.nodes) := by
  rw [nodes_merge, firsts_append, firsts_of_nodup hg.nodes]

theorem mem_nodes_merge {g : Graph} {f : Findings} {n : Node} (h : n ∈ (g.merge f).nodes) :
    n ∈ g.nodes ∨ n ∈ f.nodes := by
  rw [nodes_merge, List.mem_append] at h
  exact h.imp_right fun hn => (mem_fresh hn).1

theorem nodes_subset_merge (g : Graph) (f : Findings) : g.nodes ⊆ (g.merge f).nodes := by
  rw [nodes_merge]
  exact List.subset_append_left _ _

/-- A merge covers the identifiers of the found nodes. -/
theorem mem_ids_merge {g : Graph} (hg : g.Distinct) {f : Findings} {n : Node} (h : n ∈ f.nodes) :
    n.id ∈ (g.merge f).nodes.map Node.id := by
  rw [nodes_merge_firsts hg, mem_ids_firsts, List.map_append, List.mem_append]
  exact .inr (List.mem_map_of_mem h)

theorem node?_merge {g : Graph} {f : Findings} {id : String} (h : id ∈ g.nodes.map Node.id) :
    (g.merge f).node? id = g.node? id := by
  obtain ⟨n, hn, rfl⟩ := List.mem_map.1 h
  have hsome : (g.node? n.id).isSome := List.find?_isSome.2 ⟨n, hn, by simp⟩
  rw [node?, nodes_merge, List.find?_append, ← node?, Option.or_of_isSome hsome]

/-- The nodes of a kind are merged on their own, if an identifier decides the kind. -/
theorem nodesOf_merge {g : Graph} (hg : g.Distinct) {f : Findings}
    (hk : ∀ a ∈ g.nodes ++ f.nodes, ∀ b ∈ g.nodes ++ f.nodes, a.id = b.id → a.kind = b.kind)
    (kind : NodeKind) :
    (g.merge f).nodesOf kind = firsts Node.id (g.nodesOf kind ++ f.nodesOf kind) := by
  rw [nodesOf, nodes_merge_firsts hg, firsts_filter, List.filter_append, nodesOf, Findings.nodesOf]
  intro a ha b hb hid
  rw [hk a ha b hb hid]

theorem nodesOf_merge_of_ne {g : Graph} {f : Findings} {kind : NodeKind}
    (h : ∀ n ∈ f.nodes, n.kind ≠ kind) : (g.merge f).nodesOf kind = g.nodesOf kind := by
  have hnone : (fresh Node.id g.nodes f.nodes).filter (·.kind = kind) = [] := by
    rw [List.filter_eq_nil_iff]
    intro n hn
    simpa using h n (mem_fresh hn).1
  rw [nodesOf, nodes_merge, List.filter_append, hnone, List.append_nil, nodesOf]

theorem nodes_merge_filterMap {α : Type} {g : Graph} {f : Findings} {read : Node → Option α}
    (h : ∀ n ∈ f.nodes, read n = none) :
    (g.merge f).nodes.filterMap read = g.nodes.filterMap read := by
  have hnone : (fresh Node.id g.nodes f.nodes).filterMap read = [] :=
    List.filterMap_eq_nil_iff.2 fun n hn => h n (mem_fresh hn).1
  rw [nodes_merge, List.filterMap_append, hnone, List.append_nil]

/-! ## What a graph lists -/

/-- Identifiers that list the nodes with a property, each once. -/
structure Enumerates (g : Graph) (p : Node → Prop) (ids : List String) : Prop where
  nodup : ids.Nodup
  mem   : ∀ id, id ∈ ids ↔ ∃ n ∈ g.nodes, p n ∧ n.id = id

/-- The nodes of a kind that pass a test are listed by their identifiers, in any order. -/
theorem Distinct.enumerates {g : Graph} (hg : g.Distinct) {kind : NodeKind} {p : Node → Prop}
    {q : Node → Bool} (hq : ∀ n, q n = true ↔ p n) {nodes : List Node}
    (hnodes : nodes.Perm ((g.nodesOf kind).filter q)) :
    g.Enumerates (fun n => n.kind = kind ∧ p n) (nodes.map Node.id) where
  nodup := by
    rw [(hnodes.map Node.id).nodup_iff]
    exact hg.nodes.sublist ((List.filter_sublist.trans List.filter_sublist).map Node.id)
  mem id := by
    rw [(hnodes.map Node.id).mem_iff, List.mem_map]
    simp only [nodesOf, List.mem_filter, decide_eq_true_eq, hq, and_assoc]

/-! ## Several merges -/

theorem Distinct.merges {g : Graph} (hg : g.Distinct) :
    ∀ outs : List Findings, (outs.foldl Graph.merge g).Distinct
  | [] => hg
  | f :: outs => (hg.merge f).merges outs

end ArchGraph.Graph
