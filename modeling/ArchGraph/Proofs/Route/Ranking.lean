import ArchGraph.Proofs.Graph.Merge
import ArchGraph.Route.Index
import Mathlib.Data.Prod.Lex
import Mathlib.Data.String.Basic
/-!
# What a path resolves to

The ranking of candidates is a linear order (`Rank.before_iff`), an index holds the first of the
routed nodes with each identifier (`Index.entries_ofNodes`), and a path resolves to the least of
the entries that serve the call, if there is one. Main statements: `Index.resolve?_eq_some` and
`Index.resolve?_eq_none_iff`.
-/

namespace ArchGraph.Route

/-! ## The ranking -/

namespace Rank

/-- The parts of a rank, compared one after the other. -/
def key (r : Rank) : Bool ×ₗ Bool ×ₗ Nat ×ₗ Nat ×ₗ String :=
  toLex (r.inexact, toLex (r.foreign, toLex (r.dynamic, toLex (r.catchAll, r.id))))

theorem before_iff (a b : Rank) : a.before b = true ↔ a.key < b.key := by
  obtain ⟨inexact, foreign, dynamic, catchAll, id⟩ := a
  obtain ⟨inexact', foreign', dynamic', catchAll', id'⟩ := b
  simp only [before, key, Prod.Lex.toLex_lt_toLex, Bool.lt_iff]
  by_cases h1 : inexact = inexact'
  · subst h1
    by_cases h2 : foreign = foreign'
    · subst h2
      by_cases h3 : dynamic = dynamic'
      · by_cases h4 : catchAll = catchAll' <;> simp [h3, h4]
      · simp [h3]
    · revert h2
      cases foreign <;> cases foreign' <;> simp
  · revert h1
    cases inexact <;> cases inexact' <;> simp

theorem id_eq_of_key_eq {a b : Rank} (h : a.key = b.key) : a.id = b.id := by
  simp only [key, EmbeddingLike.apply_eq_iff_eq, Prod.mk.injEq] at h
  exact h.2.2.2.2

end Rank

/-! ## Least items -/

theorem least?_eq_none_iff {α : Type} {before : α → α → Bool} :
    ∀ {l : List α}, least? before l = none ↔ l = []
  | [] => by simp [least?]
  | a :: rest => by
    rw [least?]
    cases least? before rest with
    | none => simp
    | some b => simp only []; split <;> simp

theorem least?_spec {α β : Type} [LinearOrder β] {key : α → β} {before : α → α → Bool}
    (hb : ∀ a b, before a b = true ↔ key a < key b) :
    ∀ {l : List α} {a : α}, least? before l = some a → a ∈ l ∧ ∀ b ∈ l, key a ≤ key b
  | [], _, h => by simp [least?] at h
  | x :: rest, a, h => by
    rw [least?] at h
    cases hr : least? before rest with
    | none =>
      rw [hr] at h
      obtain rfl := Option.some.inj h
      rw [least?_eq_none_iff.1 hr]
      simp
    | some y =>
      obtain ⟨hy, hmin⟩ := least?_spec hb hr
      simp only [hr, hb] at h
      split at h
      · next hlt =>
        obtain rfl := Option.some.inj h
        exact ⟨List.mem_cons_of_mem _ hy, List.forall_mem_cons.2 ⟨hlt.le, hmin⟩⟩
      · next hle =>
        obtain rfl := Option.some.inj h
        have hxy := not_lt.1 hle
        exact ⟨List.mem_cons_self, List.forall_mem_cons.2 ⟨le_rfl, fun b hm => hxy.trans (hmin b hm)⟩⟩

/-- The least of some entries in the ranking for a path that a repository asks for. -/
theorem least?_rank {path : String} {repo : Option String} {l : List Entry} {e : Entry}
    (h : least? (fun a b => (a.rank path repo).before (b.rank path repo)) l = some e) :
    e ∈ l ∧ ∀ c ∈ l, (e.rank path repo).key ≤ (c.rank path repo).key :=
  least?_spec (fun a b => Rank.before_iff (a.rank path repo) (b.rank path repo)) h

/-! ## Entries -/

theorem Entry.id_ofNode? {n : Node} {e : Entry} (h : Entry.ofNode? n = some e) : e.id = n.id := by
  obtain ⟨route, -, rfl⟩ := Option.map_eq_some_iff.1 h
  rfl

theorem Entry.ofNode?_isSome {n : Node} : (Entry.ofNode? n).isSome = n.route?.isSome := by
  simp [Entry.ofNode?]

namespace Index

open ArchGraph.Graph (insertNew firsts foldl_insertNew fresh)

theorem any_entries {held : List Node} (hr : ∀ n ∈ held, n.route?.isSome) (id : String) :
    ((held.filterMap Entry.ofNode?).any fun e => e.id == id) = held.any fun n => n.id == id := by
  induction held with
  | nil => rfl
  | cons n held ih =>
    obtain ⟨e, he⟩ := Option.isSome_iff_exists.1 (Entry.ofNode?_isSome.trans (hr n (by simp)))
    rw [List.filterMap_cons_some he, List.any_cons, List.any_cons, Entry.id_ofNode? he,
      ih fun m hm => hr m (by simp [hm])]

theorem foldl_insert : ∀ (nodes held : List Node), (∀ n ∈ held ++ nodes, n.route?.isSome) →
    (nodes.foldl insert ⟨held.filterMap Entry.ofNode?⟩).entries =
      (nodes.foldl (insertNew Node.id) held).filterMap Entry.ofNode?
  | [], _, _ => rfl
  | n :: nodes, held, hr => by
    have hheld : ∀ m ∈ held, m.route?.isSome := fun m hm => hr m (by simp [hm])
    have hstep : insert ⟨held.filterMap Entry.ofNode?⟩ n =
        ⟨(insertNew Node.id held n).filterMap Entry.ofNode?⟩ := by
      rw [insert, insertNew, any_entries hheld]
      split
      · rfl
      · rw [List.filterMap_append, List.filterMap_cons]
        cases Entry.ofNode? n <;> rfl
    rw [List.foldl_cons, List.foldl_cons, hstep, foldl_insert nodes]
    intro m hm
    refine hr m ?_
    rw [insertNew] at hm
    split at hm
    · simp only [List.mem_append, List.mem_cons] at hm ⊢
      exact hm.imp id Or.inr
    · simpa using hm

/-- An index of routed nodes holds the first with each identifier. -/
theorem entries_ofNodes {nodes : List Node} (hr : ∀ n ∈ nodes, n.route?.isSome) :
    (ofNodes nodes).entries = (firsts Node.id nodes).filterMap Entry.ofNode? := by
  have h := foldl_insert nodes [] (by simpa using hr)
  rw [foldl_insertNew] at h
  simpa [fresh, ofNodes, empty] using h

/-- Later nodes with an identifier leave no trace in an index. -/
theorem ofNodes_firsts {nodes : List Node} (hr : ∀ n ∈ nodes, n.route?.isSome) :
    ofNodes (firsts Node.id nodes) = ofNodes nodes := by
  have hentries : (ofNodes (firsts Node.id nodes)).entries = (ofNodes nodes).entries := by
    rw [entries_ofNodes fun n hn => hr n (Graph.mem_of_mem_firsts hn), entries_ofNodes hr,
      Graph.firsts_of_nodup (Graph.nodup_firsts nodes)]
  cases h : ofNodes (firsts Node.id nodes)
  cases h' : ofNodes nodes
  rw [h, h'] at hentries
  exact congrArg Index.mk hentries

theorem exists_of_mem_entries {nodes : List Node} (hr : ∀ n ∈ nodes, n.route?.isSome) {e : Entry}
    (he : e ∈ (ofNodes nodes).entries) : ∃ n ∈ nodes, Entry.ofNode? n = some e := by
  rw [entries_ofNodes hr] at he
  obtain ⟨n, hn, hne⟩ := List.mem_filterMap.1 he
  exact ⟨n, Graph.mem_of_mem_firsts hn, hne⟩

/-! ## Resolving -/

variable {index : Index} {path : String} {method : Option HttpMethod} {repo : Option String}

theorem mem_candidates {e : Entry} : e ∈ index.candidates path method ↔
    e ∈ index.entries ∧ accepts e.route path = true ∧ e.serves method = true := by
  simp [candidates, List.mem_filter]

/-- **The winner.** A path resolves to a candidate that ranks before every other one. -/
theorem resolve?_eq_some {id : String} (h : index.resolve? path method repo = some id) :
    ∃ e ∈ index.candidates path method, e.id = id ∧
      ∀ c ∈ index.candidates path method, c.id ≠ id →
        (e.rank path repo).before (c.rank path repo) = true := by
  obtain ⟨e, he, rfl⟩ := Option.map_eq_some_iff.1 h
  obtain ⟨hmem, hmin⟩ := least?_rank he
  refine ⟨e, hmem, rfl, fun c hc hne => ?_⟩
  have hkey : (e.rank path repo).key ≠ (c.rank path repo).key :=
    fun heq => hne (Rank.id_eq_of_key_eq heq).symm
  exact (Rank.before_iff _ _).2 (lt_of_le_of_ne (hmin c hc) hkey)

theorem resolve?_eq_none_iff :
    index.resolve? path method repo = none ↔ index.candidates path method = [] := by
  rw [resolve?, Option.map_eq_none_iff, least?_eq_none_iff]

theorem resolveIn?_eq_some {id owner : String} (h : index.resolveIn? path owner = some id) :
    ∃ e ∈ index.entries, e.id = id ∧ e.repo = some owner := by
  obtain ⟨e, he, rfl⟩ := Option.map_eq_some_iff.1 h
  obtain ⟨hc, ho⟩ := List.mem_filter.1 (least?_rank he).1
  exact ⟨e, (mem_candidates.1 hc).1, rfl, by simpa using ho⟩

end Index
end ArchGraph.Route
