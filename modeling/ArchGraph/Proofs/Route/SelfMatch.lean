import ArchGraph.Proofs.Route.Ranking
import ArchGraph.Proofs.Route.Wildcards
/-!
# A route finds its own node

Every segment takes its own spelling, so the pattern of a normalized route matches the route
(`accepts_self`), and an exact route comes before all others in the ranking, so the route leads to
its own node or to one with the same route. Main statement: `route_finds_itself`.
-/

namespace ArchGraph.Route

/-! ## Normalized routes -/

/-- A normalized path is the root, or starts with a slash and has no empty name behind it and no
line feed. -/
theorem normal_iff {path : String} : Normal path ↔ path = "/" ∨
    startsWith '/' path = true ∧ (∀ name ∈ (Path.names path).tail, name ≠ "") ∧
      '\n' ∉ path.toList := by
  constructor
  · rintro ⟨names, hnames, rfl⟩
    refine or_iff_not_imp_left.2 fun hroot => ?_
    have hne : names ≠ [] := fun h => hroot (by rw [h]; decide)
    rw [names_slash, Path.names_ofNames hne fun n hn => (hnames n hn).noSlash,
      toList_slash_ofNames hne]
    exact ⟨startsWith_iff.2 ⟨(Path.ofNames names).toList, by simp⟩,
      fun n hn => (hnames n hn).ne_empty, line_notMem_below hnames⟩
  · rintro (rfl | ⟨hstart, hnames, hline⟩)
    · exact ⟨[], by simp, by decide⟩
    · obtain ⟨rest, hrest⟩ := startsWith_iff.1 hstart
      obtain rfl : path = "/" ++ String.ofList rest := by
        rw [← String.toList_inj, hrest]
        simp
      rw [names_slash, List.tail_cons] at hnames
      rw [← Path.ofNames_names (String.ofList rest), toList_slash_ofNames (Path.names_ne_nil _)]
        at hline
      refine ⟨Path.names (String.ofList rest), fun n hn => ⟨hnames n hn, ?_, fun h => ?_⟩, ?_⟩
      · exact Path.slash_notMem_of_mem_names hn
      · exact hline (List.mem_flatMap.2 ⟨n, hn, List.mem_cons_of_mem _ h⟩)
      · rw [Path.ofNames_names]

/-- The pattern of a normalized route matches the route. -/
theorem accepts_self {route : String} (h : Normal route) : accepts route route = true := by
  have hfits : Fits (segments route) ((segments route).flatMap fun s => [s]) :=
    fits_flatMap fun s _ => takes_singleton (.inr rfl)
  rw [List.flatMap_singleton'] at hfits
  exact (accepts_iff_fits route h).2 hfits

/-! ## Indexes -/

namespace Index

theorem nodup_insert {index : Index} (h : (index.entries.map Entry.id).Nodup) (n : Node) :
    ((index.insert n).entries.map Entry.id).Nodup := by
  unfold insert
  split
  · exact h
  · next hfresh =>
    cases hn : Entry.ofNode? n with
    | none => simpa using h
    | some e =>
      have hid : e.id ∉ index.entries.map Entry.id := by
        simpa [Entry.id_ofNode? hn] using hfresh
      rw [Option.toList_some, List.map_append, List.map_singleton]
      exact h.append (List.nodup_singleton _) (by simpa using hid)

/-- The entries of an index have identifiers of their own. -/
theorem nodup_entries (nodes : List Node) : ((ofNodes nodes).entries.map Entry.id).Nodup := by
  suffices ∀ index : Index, (index.entries.map Entry.id).Nodup →
      ((nodes.foldl insert index).entries.map Entry.id).Nodup from this empty .nil
  induction nodes with
  | nil => exact fun _ h => h
  | cons n nodes ih => exact fun index h => ih _ (nodup_insert h n)

theorem eq_of_id_eq {nodes : List Node} {a b : Entry} (ha : a ∈ (ofNodes nodes).entries)
    (hb : b ∈ (ofNodes nodes).entries) (h : a.id = b.id) : a = b :=
  List.inj_on_of_nodup_map (nodup_entries nodes) ha hb h

/-- Where a repository has a node that a path leads to, the path leads to the first such node in the
ranking. -/
theorem exists_resolveIn? {index : Index} {path owner : String} {e : Entry}
    (he : e ∈ index.candidates path none) (howner : e.repo = some owner) :
    ∃ best ∈ index.candidates path none, best.repo = some owner ∧
      index.resolveIn? path owner = some best.id ∧
        (best.rank path (some owner)).key ≤ (e.rank path (some owner)).key := by
  have hmem : e ∈ (index.candidates path none).filter (·.repo = some owner) :=
    List.mem_filter.2 ⟨he, by simpa using howner⟩
  rw [resolveIn?]
  cases hleast : least? (fun a b => (a.rank path (some owner)).before (b.rank path (some owner)))
      ((index.candidates path none).filter (·.repo = some owner)) with
  | none => exact absurd hmem (by rw [least?_eq_none_iff.1 hleast]; exact List.not_mem_nil)
  | some best =>
    obtain ⟨hbest, hmin⟩ := least?_rank hleast
    obtain ⟨hcandidate, hrepo⟩ := List.mem_filter.1 hbest
    exact ⟨best, hcandidate, by simpa using hrepo, rfl, hmin e hmem⟩

end Index

/-- What comes before an exact route has that route as well. -/
theorem Entry.route_eq_of_key_le {a b : Entry} {path : String} {repo : Option String}
    (h : (a.rank path repo).key ≤ (b.rank path repo).key) (hb : b.route = path) :
    a.route = path := by
  rw [Rank.key, Rank.key, Prod.Lex.toLex_le_toLex] at h
  have hexact : (b.rank path repo).inexact = false := by simp [rank, hb]
  rw [hexact] at h
  have hinexact : (a.rank path repo).inexact = false :=
    h.elim (fun hlt => absurd hlt not_lt_bot) fun heq => heq.1
  simpa [rank] using hinexact

/-- **A route finds its own node.** The pattern of a route that a node of a repository has matches
the route itself, if the route is the root or starts with a slash and has no empty segment and no
line feed; and in that repository the route leads to a node with exactly that route, whatever other
nodes the index holds. -/
theorem route_finds_itself {nodes : List Node} {e : Entry} {owner : String}
    (he : e ∈ (Index.ofNodes nodes).entries) (howner : e.repo = some owner)
    (hroute : e.route = "/" ∨ startsWith '/' e.route = true ∧
      (∀ name ∈ (Path.names e.route).tail, name ≠ "") ∧ '\n' ∉ e.route.toList) :
    accepts e.route e.route = true ∧
      ∃ found ∈ (Index.ofNodes nodes).entries,
        (Index.ofNodes nodes).resolveIn? e.route owner = some found.id ∧
          found.route = e.route ∧ found.repo = some owner ∧
            ∀ x ∈ (Index.ofNodes nodes).entries, x.id = found.id → x = found := by
  have haccepts := accepts_self (normal_iff.2 hroute)
  have hserves : e.serves none = true := by
    unfold Entry.serves
    cases e.method <;> rfl
  have hcandidate := Index.mem_candidates.2 ⟨he, haccepts, hserves⟩
  obtain ⟨found, hfound, hrepo, hresolve, hle⟩ := Index.exists_resolveIn? hcandidate howner
  have hentry := (Index.mem_candidates.1 hfound).1
  exact ⟨haccepts, found, hentry, hresolve, Entry.route_eq_of_key_le hle rfl, hrepo,
    fun x hx hid => Index.eq_of_id_eq hx hentry hid⟩

/-- A page with a name in brackets beside a catch-all and a page of its own name. -/
def slugPages : List Node :=
  [("p1", "/[...all]"), ("p2", "/blog/[slug]"), ("p3", "/blog/new")].map fun (id, route) =>
    ⟨id, route, some "r", .screen ⟨route, "", true, none, none, .appRouter⟩⟩

/-- The entry of the page with a name in brackets. -/
def slugEntry : Entry := ⟨"p2", some "r", none, "/blog/[slug]"⟩

theorem route_finds_itself_slug :
    slugEntry ∈ (Index.ofNodes slugPages).entries ∧ slugEntry.repo = some "r" ∧
      accepts slugEntry.route slugEntry.route = true ∧
        ∃ found ∈ (Index.ofNodes slugPages).entries,
          (Index.ofNodes slugPages).resolveIn? slugEntry.route "r" = some found.id ∧
            found.route = slugEntry.route ∧ found.repo = some "r" ∧
              ∀ x ∈ (Index.ofNodes slugPages).entries, x.id = found.id → x = found :=
  have he : slugEntry ∈ (Index.ofNodes slugPages).entries := by decide
  ⟨he, rfl, route_finds_itself he rfl (.inr (by decide))⟩

end ArchGraph.Route
