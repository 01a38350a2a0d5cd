import ArchGraph.Proofs.Route.Ranking
import Mathlib.Data.List.Nodup
/-!
# Resolving is an optimum

What a path resolves to, said about the nodes and not about the index: the node that comes first in
the ranking among those that answer the call (`Best`). There is at most one, since identifiers take
part in the ranking, so that neither the order of the nodes nor the fold over them matters. Main
statement: `resolve?_optimal`.
-/

namespace ArchGraph.Route

/-! ## Nodes that answer a call -/

/-- A node answers a call of a path: the pattern of its route matches the path, and an endpoint
accepts the method, if the call has one. -/
structure Answers (n : Node) (path : String) (method : Option HttpMethod) : Prop where
  path   : ∃ route, n.route? = some route ∧ accepts route path = true
  method : ∀ served, n.method? = some served → ∀ call, method = some call →
    served.accepts call = true

/-- The place of a node in the ranking for a path that a repository asks for, in lexicographic
order: an exact route, a node of the repository, fewer dynamic segments, fewer catch-all segments,
the identifier. -/
def place (n : Node) (path : String) (repo : Option String) :
    Bool ×ₗ Bool ×ₗ Nat ×ₗ Nat ×ₗ String :=
  let route := n.route?.getD ""
  toLex (decide (route ≠ path), toLex (repo.isSome && decide (n.owningRepo ≠ repo),
    toLex (dynamicSegments route, toLex (catchAllSegments route, n.id))))

/-- A node that answers a call and has its place before all others that do. -/
structure Best (nodes : List Node) (path : String) (method : Option HttpMethod)
    (repo : Option String) (n : Node) : Prop where
  mem     : n ∈ nodes
  answers : Answers n path method
  first   : ∀ m ∈ nodes, Answers m path method → m ≠ n → place n path repo < place m path repo

variable {nodes nodes' : List Node} {path : String} {method : Option HttpMethod}
  {repo : Option String} {n m : Node}

theorem Best.unique (hn : Best nodes path method repo n) (hm : Best nodes path method repo m) :
    n = m := by
  by_contra hne
  have hlt := hn.first m hm.mem hm.answers (Ne.symm hne)
  have hgt := hm.first n hn.mem hn.answers hne
  exact lt_asymm hlt hgt

theorem Best.perm (hp : nodes'.Perm nodes) (h : Best nodes path method repo n) :
    Best nodes' path method repo n where
  mem := hp.mem_iff.2 h.mem
  answers := h.answers
  first m hm := h.first m (hp.mem_iff.1 hm)

/-! ## Entries of nodes -/

namespace Entry

theorem key_rank {e : Entry} (h : ofNode? n = some e) : (e.rank path repo).key = place n path repo := by
  obtain ⟨route, hroute, rfl⟩ := Option.map_eq_some_iff.1 h
  simp only [place, hroute]
  rfl

/-- An entry can be led to exactly if its node answers the call. -/
theorem answers_iff {e : Entry} (h : ofNode? n = some e) :
    accepts e.route path = true ∧ e.serves method = true ↔ Answers n path method := by
  obtain ⟨route, hroute, rfl⟩ := Option.map_eq_some_iff.1 h
  have hserves : serves ⟨n.id, n.owningRepo, n.method?, route⟩ method = true ↔
      ∀ served, n.method? = some served → ∀ call, method = some call →
        served.accepts call = true := by
    cases hm : n.method? <;> cases method <;> simp [serves]
  rw [hserves]
  constructor
  · rintro ⟨hpath, hmethod⟩
    exact ⟨⟨route, hroute, hpath⟩, hmethod⟩
  · rintro ⟨⟨route', hroute', hpath⟩, hmethod⟩
    rw [hroute] at hroute'
    exact ⟨Option.some.inj hroute' ▸ hpath, hmethod⟩

end Entry

theorem routed_of_kind (h : n.kind = .screen ∨ n.kind = .endpoint) : n.route?.isSome := by
  unfold Node.kind at h
  unfold Node.route?
  cases hd : n.detail <;> simp_all [NodeDetail.kind]

namespace Index

section Distinct

variable (hr : ∀ n ∈ nodes, n.kind = .screen ∨ n.kind = .endpoint)
  (hd : (nodes.map Node.id).Nodup)
include hr hd

/-- The entries of routed nodes with identifiers of their own. -/
theorem entries_of_nodup : (ofNodes nodes).entries = nodes.filterMap Entry.ofNode? := by
  rw [entries_ofNodes fun n hn => routed_of_kind (hr n hn), Graph.firsts_of_nodup hd]

theorem mem_candidates_iff {e : Entry} : e ∈ (ofNodes nodes).candidates path method ↔
    ∃ n ∈ nodes, Entry.ofNode? n = some e ∧ Answers n path method := by
  rw [mem_candidates, entries_of_nodup hr hd, List.mem_filterMap]
  constructor
  · rintro ⟨⟨n, hn, hne⟩, hcall⟩
    exact ⟨n, hn, hne, (Entry.answers_iff hne).1 hcall⟩
  · rintro ⟨n, hn, hne, hcall⟩
    exact ⟨⟨n, hn, hne⟩, (Entry.answers_iff hne).2 hcall⟩

theorem isSome_resolve?_iff :
    ((ofNodes nodes).resolve? path method repo).isSome = true ↔
      ∃ n ∈ nodes, Answers n path method := by
  rw [Option.isSome_iff_ne_none, ne_eq, resolve?_eq_none_iff, List.eq_nil_iff_forall_not_mem,
    not_forall_not]
  constructor
  · rintro ⟨e, he⟩
    obtain ⟨n, hn, -, hcall⟩ := (mem_candidates_iff hr hd).1 he
    exact ⟨n, hn, hcall⟩
  · rintro ⟨n, hn, hcall⟩
    obtain ⟨e, hne⟩ := Option.isSome_iff_exists.1
      (Entry.ofNode?_isSome.trans (routed_of_kind (hr n hn)))
    exact ⟨e, (mem_candidates_iff hr hd).2 ⟨n, hn, hne, hcall⟩⟩

theorem best_of_resolve? {id : String} (h : (ofNodes nodes).resolve? path method repo = some id) :
    ∃ n, Best nodes path method repo n ∧ n.id = id := by
  obtain ⟨e, he, rfl, hfirst⟩ := resolve?_eq_some h
  obtain ⟨n, hn, hne, hcall⟩ := (mem_candidates_iff hr hd).1 he
  refine ⟨n, ⟨hn, hcall, fun m hm hcall' hdiff => ?_⟩, (Entry.id_ofNode? hne).symm⟩
  obtain ⟨c, hmc⟩ := Option.isSome_iff_exists.1
    (Entry.ofNode?_isSome.trans (routed_of_kind (hr m hm)))
  have hid : c.id ≠ e.id := by
    rw [Entry.id_ofNode? hmc, Entry.id_ofNode? hne]
    exact fun heq => hdiff (List.inj_on_of_nodup_map hd hm hn heq)
  have hbefore := hfirst c ((mem_candidates_iff hr hd).2 ⟨m, hm, hmc, hcall'⟩) hid
  rwa [Rank.before_iff, Entry.key_rank hne, Entry.key_rank hmc] at hbefore

theorem resolve?_eq_some_iff {id : String} :
    (ofNodes nodes).resolve? path method repo = some id ↔
      ∃ n, Best nodes path method repo n ∧ n.id = id := by
  refine ⟨best_of_resolve? hr hd, ?_⟩
  rintro ⟨n, hbest, rfl⟩
  have hfound : ((ofNodes nodes).resolve? path method repo).isSome = true :=
    (isSome_resolve?_iff hr hd).2 ⟨n, hbest.mem, hbest.answers⟩
  obtain ⟨id, hid⟩ := Option.isSome_iff_exists.1 hfound
  obtain ⟨m, hm, rfl⟩ := best_of_resolve? hr hd hid
  rw [hid, hbest.unique hm]

theorem resolve?_perm (hp : nodes'.Perm nodes) :
    (ofNodes nodes').resolve? path method repo = (ofNodes nodes).resolve? path method repo := by
  have hr' : ∀ n ∈ nodes', n.kind = .screen ∨ n.kind = .endpoint :=
    fun n hn => hr n (hp.mem_iff.1 hn)
  have hd' : (nodes'.map Node.id).Nodup := (hp.map Node.id).nodup_iff.2 hd
  ext id
  rw [resolve?_eq_some_iff hr hd, resolve?_eq_some_iff hr' hd']
  exact exists_congr fun n => and_congr_left fun _ => ⟨Best.perm hp.symm, Best.perm hp⟩

theorem resolveIn?_eq_resolve? (owner : String) : (ofNodes nodes).resolveIn? path owner =
    (ofNodes (nodes.filter (·.owningRepo = some owner))).resolve? path none (some owner) := by
  have hr' : ∀ n ∈ nodes.filter (·.owningRepo = some owner), n.kind = .screen ∨ n.kind = .endpoint :=
    fun n hn => hr n (List.mem_filter.1 hn).1
  have hd' : ((nodes.filter (·.owningRepo = some owner)).map Node.id).Nodup :=
    hd.sublist (List.filter_sublist.map Node.id)
  have hentries : (ofNodes (nodes.filter (·.owningRepo = some owner))).entries =
      (ofNodes nodes).entries.filter (·.repo = some owner) := by
    rw [entries_of_nodup hr hd, entries_of_nodup hr' hd', List.filterMap_filter,
      List.filter_filterMap]
    refine List.filterMap_congr fun n _ => ?_
    cases hroute : n.route? <;> simp [Entry.ofNode?, hroute, Option.filter]
  rw [resolveIn?, resolve?, candidates, candidates, hentries, List.filter_comm]

end Distinct

end Index

/-! ## The optimum -/

/-- What resolving a call among nodes comes to. -/
structure Optimal (nodes : List Node) (path : String) (method : Option HttpMethod)
    (repo : Option String) : Prop where
  /-- There is an answer exactly if a node answers the call. -/
  found  : ((Index.ofNodes nodes).resolve? path method repo).isSome = true ↔
    ∃ n ∈ nodes, Answers n path method
  /-- The answer is the one node that comes first. -/
  best   : ∀ id, (Index.ofNodes nodes).resolve? path method repo = some id ↔
    ∃ n, Best nodes path method repo n ∧ n.id = id
  unique : ∀ n m, Best nodes path method repo n → Best nodes path method repo m → n = m
  /-- The order of the nodes does not matter. -/
  order  : ∀ nodes' : List Node, nodes'.Perm nodes →
    (Index.ofNodes nodes').resolve? path method repo =
      (Index.ofNodes nodes).resolve? path method repo
  /-- To resolve a path in a repository is to resolve it among the nodes of the repository. -/
  inRepo : ∀ owner, (Index.ofNodes nodes).resolveIn? path owner =
    (Index.ofNodes (nodes.filter (·.owningRepo = some owner))).resolve? path none (some owner)

/-- **Resolving is an optimum that does not depend on the order.** Among screens and endpoints with
identifiers of their own, a call leads to the node that comes first of those that answer it, if
there is one, in whatever order the nodes are given. -/
theorem resolve?_optimal {nodes : List Node}
    (hr : ∀ n ∈ nodes, n.kind = .screen ∨ n.kind = .endpoint) (hd : (nodes.map Node.id).Nodup)
    (path : String) (method : Option HttpMethod) (repo : Option String) :
    Optimal nodes path method repo where
  found := Index.isSome_resolve?_iff hr hd
  best _ := Index.resolve?_eq_some_iff hr hd
  unique _ _ hn hm := hn.unique hm
  order _ hp := Index.resolve?_perm hr hd hp
  inRepo := Index.resolveIn?_eq_resolve? hr hd

/-- An endpoint with a dynamic segment, one without, and one for another method. -/
def userEndpoints : List Node :=
  [("e1", HttpMethod.get, "/api/users/[id]"), ("e2", .get, "/api/users/me"),
    ("e3", .post, "/api/users/me")].map fun (id, method, route) =>
      ⟨id, route, some "r", .endpoint ⟨method, route, "", none, .routeHandler⟩⟩

theorem userEndpoints_optimal :
    (∀ n ∈ userEndpoints, n.kind = .screen ∨ n.kind = .endpoint) ∧
      (userEndpoints.map Node.id).Nodup ∧
      Optimal userEndpoints "/api/users/me" (some .get) (some "r") :=
  have hr : ∀ n ∈ userEndpoints, n.kind = .screen ∨ n.kind = .endpoint := by decide
  have hd : (userEndpoints.map Node.id).Nodup := by decide
  ⟨hr, hd, resolve?_optimal hr hd "/api/users/me" (some .get) (some "r")⟩

end ArchGraph.Route
