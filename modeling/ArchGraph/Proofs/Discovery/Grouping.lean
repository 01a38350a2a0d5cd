import ArchGraph.Discovery.Features
import ArchGraph.Proofs.Graph.Merge
import ArchGraph.Proofs.Route.Fit
import ArchGraph.Proofs.Text.Order
import Mathlib.Data.List.Nodup
/-!
# Which features a graph has

The features of a graph are those that the catalog defines and, behind them, those of the groups of
screens that the catalog does not cover. Going through the groups adds the feature of every group
that is large enough and whose slug is not taken; seen as a whole, of the large groups with one
slug the first in the order of the keys gets it (`features_eq`). A key stands for the first two
segments of a route and for nothing else (`groupKey_eq_iff`). Main statements: `screens_partitioned`, and
`group_kept_iff`, which says when a large group is lost. `userGroups_lost` shows that one can be:
a slug leaves out what tells `/users/[id]` from `/users/id`.
-/

namespace ArchGraph

namespace Graph

/-- In an ordered list the first item with an identifier is the least one. -/
theorem mem_firsts_iff_le {id : String → String} {a : String} : ∀ {l : List String},
    l.Pairwise (· < ·) → (a ∈ firsts id l ↔ a ∈ l ∧ ∀ b ∈ l, id b = id a → a ≤ b)
  | [], _ => by simp [firsts]
  | x :: rest, h => by
    obtain ⟨hx, hrest⟩ := List.pairwise_cons.1 h
    rw [firsts, List.mem_cons, List.mem_filter, mem_firsts_iff_le hrest, List.mem_cons]
    constructor
    · rintro (rfl | ⟨⟨ha, hmin⟩, hne⟩)
      · refine ⟨.inl rfl, fun b hb _ => ?_⟩
        rcases List.mem_cons.1 hb with rfl | hb
        · exact le_refl _
        · exact (hx b hb).le
      · refine ⟨.inr ha, fun b hb hid => ?_⟩
        rcases List.mem_cons.1 hb with rfl | hb
        · exact absurd hid.symm (of_decide_eq_true hne)
        · exact hmin b hb hid
    · rintro ⟨rfl | ha, hmin⟩
      · exact .inl rfl
      -- `x` comes before `a`, so that it has another identifier if `a` is least
      · refine .inr ⟨⟨ha, fun b hb => hmin b (List.mem_cons_of_mem _ hb)⟩, decide_eq_true ?_⟩
        intro hid
        exact absurd (hx a ha) (not_lt.2 (hmin x List.mem_cons_self hid.symm))

end Graph

namespace Discovery

open ArchGraph.Graph (firsts fresh)

variable {g : Graph} {catalog : List FeatureDefinition} {caps : FeatureSettings}

/-! ## Groups of screens -/

/-- The first two segments of a node's route. -/
def start (n : Node) : List String := (Route.segments (routeOf n)).take 2

/-- The key of the group whose routes start with some segments. -/
def keyOf (start : List String) : String := "/" ++ Path.ofNames start

theorem groupKey_eq (n : Node) : groupKey n = keyOf (start n) := rfl

theorem isSegment_of_mem_start {n : Node} {s : String} (h : s ∈ start n) : Route.IsSegment s :=
  Route.isSegment_of_mem (List.mem_of_mem_take h)

/-- The segments that a key joins are read back. -/
theorem segments_groupKey (n : Node) : Route.segments (groupKey n) = start n :=
  Route.segments_joined fun _ => isSegment_of_mem_start

theorem groupKey_eq_iff {a b : Node} : groupKey a = groupKey b ↔ start a = start b := by
  constructor
  · intro h
    rw [← segments_groupKey a, h, segments_groupKey b]
  · exact congrArg keyOf

/-- The number of screens that make a group large enough. -/
def leastScreens (caps : FeatureSettings) : Nat := max 1 caps.minAutoFeatureScreens.toNat

/-- A group that is large enough has a screen. -/
theorem exists_of_large {screens : List Node} (h : leastScreens caps ≤ screens.length) :
    ∃ n, n ∈ screens :=
  List.exists_mem_of_length_pos (Nat.lt_of_lt_of_le (by simp [leastScreens]) h)

/-- The screens with a key. -/
def withKey (free : List Node) (key : String) : List Node := free.filter (groupKey · = key)

theorem mem_withKey {free : List Node} {key : String} {n : Node} :
    n ∈ withKey free key ↔ n ∈ free ∧ groupKey n = key := by
  rw [withKey, List.mem_filter, decide_eq_true_eq]

/-- The feature of the screens with a key. -/
def keyFeature (g : Graph) (caps : FeatureSettings) (free : List Node) (key : String) : Feature :=
  groupFeature g caps key (withKey free key)

theorem addGroup_eq (free : List Node) (fs : List Feature) (key : String) :
    addGroup g caps free fs key =
      if leastScreens caps ≤ (withKey free key).length then
        Graph.insertNew Feature.slug fs (keyFeature g caps free key)
      else fs := by
  have hsmall : (free.filter (groupKey · = key)).length < max caps.minAutoFeatureScreens.toNat 1 ↔
      ¬leastScreens caps ≤ (withKey free key).length := by
    rw [Nat.max_comm, Nat.not_le]
    rfl
  by_cases hlarge : leastScreens caps ≤ (withKey free key).length
  · rw [addGroup, if_neg (hsmall.not.2 (not_not_intro hlarge)), if_pos hlarge]
    rfl
  · rw [addGroup, if_pos (hsmall.2 hlarge), if_neg hlarge]

/-- The keys of the groups that are large enough, in order. -/
def largeKeys (caps : FeatureSettings) (free : List Node) : List String :=
  (Text.sortedSet (free.map groupKey)).filter fun key =>
    leastScreens caps ≤ (withKey free key).length

theorem pairwise_largeKeys (caps : FeatureSettings) (free : List Node) :
    (largeKeys caps free).Pairwise (· < ·) :=
  (Text.pairwise_sortedSet _).filter _

/-- A group that is large enough has a screen, so that its key is gone through. -/
theorem mem_largeKeys_iff {free : List Node} {key : String} :
    key ∈ largeKeys caps free ↔ leastScreens caps ≤ (withKey free key).length := by
  rw [largeKeys, List.mem_filter, decide_eq_true_eq, Text.mem_sortedSet]
  refine and_iff_right_of_imp fun hlarge => ?_
  obtain ⟨n, hn⟩ := exists_of_large hlarge
  obtain ⟨hfree, rfl⟩ := mem_withKey.1 hn
  exact List.mem_map_of_mem hfree

/-- Going through the groups adds the features of the large ones whose slugs are new. -/
theorem foldl_addGroup (g : Graph) (caps : FeatureSettings) (free : List Node)
    (fs : List Feature) :
    (Text.sortedSet (free.map groupKey)).foldl (addGroup g caps free) fs =
      fs ++ fresh Feature.slug fs ((largeKeys caps free).map (keyFeature g caps free)) := by
  have hstep : addGroup g caps free = fun fs key =>
      if decide (leastScreens caps ≤ (withKey free key).length) = true then
        Graph.insertNew Feature.slug fs (keyFeature g caps free key)
      else fs := by
    funext fs key
    simp only [decide_eq_true_eq, addGroup_eq]
  rw [hstep, ← List.foldl_filter, ← Graph.foldl_insertNew, List.foldl_map]
  rfl

/-! ## The features of a graph -/

/-- The features of the catalog that a graph has. -/
def known (g : Graph) (catalog : List FeatureDefinition) (caps : FeatureSettings) : List Feature :=
  catalog.filterMap (catalogFeature? g caps)

/-- The screens that belong to no feature of the catalog. -/
def freeScreens (g : Graph) (catalog : List FeatureDefinition) (caps : FeatureSettings) :
    List Node :=
  (g.nodesOf .screen).filter fun s => !((known g catalog caps).flatMap (·.screens)).contains s.id

/-- The keys of the groups that become features. -/
def keptKeys (g : Graph) (catalog : List FeatureDefinition) (caps : FeatureSettings) :
    List String :=
  (firsts groupSlug (largeKeys caps (freeScreens g catalog caps))).filter fun key =>
    groupSlug key ∉ (known g catalog caps).map Feature.slug

theorem features_eq_fresh (catalog : List FeatureDefinition) (caps : FeatureSettings) (g : Graph) :
    (features catalog caps g).features =
      known g catalog caps ++ fresh Feature.slug (known g catalog caps)
        ((largeKeys caps (freeScreens g catalog caps)).map
          (keyFeature g caps (freeScreens g catalog caps))) :=
  foldl_addGroup g caps (freeScreens g catalog caps) (known g catalog caps)

/-- **The features of a graph.** Those of the catalog come first, then those of the large groups
that are the first with a slug. -/
theorem features_eq (catalog : List FeatureDefinition) (caps : FeatureSettings) (g : Graph) :
    (features catalog caps g).features =
      known g catalog caps ++
        (keptKeys g catalog caps).map (keyFeature g caps (freeScreens g catalog caps)) := by
  rw [features_eq_fresh, fresh, Graph.firsts_map, List.filter_map]
  rfl

/-! ## What features are made of -/

/-- A feature made of screens, which it sorts, of endpoints, and of the tables in a scope. -/
structure MadeOf (g : Graph) (caps : FeatureSettings) (screens endpoints : List Node)
    (scope : TableScope) (f : Feature) : Prop where
  flow      : f.flow = flow g caps (screens.mergeSort shallowFirst) endpoints scope
  screens   : f.screens = (screens.mergeSort shallowFirst).map Node.id
  endpoints : f.endpoints = endpoints.map Node.id
  services  : f.services = landings f.flow .externalCall

theorem MadeOf.perm {screens endpoints : List Node} {scope : TableScope} {f : Feature}
    (h : MadeOf g caps screens endpoints scope f) : f.screens.Perm (screens.map Node.id) :=
  h.screens ▸ (List.mergeSort_perm screens shallowFirst).map Node.id

/-- A feature that a definition has in a graph. -/
structure Defined (g : Graph) (caps : FeatureSettings) (d : FeatureDefinition) (f : Feature) :
    Prop where
  slug   : f.slug = d.slug
  source : f.source = .catalog
  tables : f.tables = ((g.nodesOf .table).filter fun t => d.tables.contains t.label).map Node.id
  made   : MadeOf g caps ((g.nodesOf .screen).filter (onRoute d.routes))
    ((g.nodesOf .endpoint).filter (onRoute d.endpoints)) (.only f.tables) f

theorem catalogFeature?_eq_none_iff {d : FeatureDefinition} :
    catalogFeature? g caps d = none ↔ (g.nodesOf .screen).filter (onRoute d.routes) = [] := by
  rw [catalogFeature?, ← List.isEmpty_iff]
  split
  · next hempty => exact iff_of_true rfl hempty
  · next hscreen => exact iff_of_false (Option.some_ne_none _) hscreen

theorem defined_of_catalogFeature? {d : FeatureDefinition} {f : Feature}
    (h : catalogFeature? g caps d = some f) : Defined g caps d f := by
  rw [catalogFeature?] at h
  split at h
  · exact nomatch h
  · obtain rfl := Option.some.inj h
    exact ⟨rfl, rfl, rfl, ⟨rfl, rfl, rfl, rfl⟩⟩

theorem exists_of_mem_known {f : Feature} (h : f ∈ known g catalog caps) :
    ∃ d ∈ catalog, Defined g caps d f := by
  obtain ⟨d, hd, hf⟩ := List.mem_filterMap.1 h
  exact ⟨d, hd, defined_of_catalogFeature? hf⟩

/-- The endpoints of a group. -/
def endpointsOfKey (g : Graph) (key : String) : List Node :=
  (g.nodesOf .endpoint).filter fun e => key ≠ "/" && inGroup key (Route.stripMount (routeOf e))

theorem madeOf_keyFeature (g : Graph) (caps : FeatureSettings) (free : List Node) (key : String) :
    MadeOf g caps (withKey free key) (endpointsOfKey g key) .any (keyFeature g caps free key) :=
  ⟨rfl, rfl, rfl, rfl⟩

theorem mem_features {f : Feature} : f ∈ (features catalog caps g).features ↔
    f ∈ known g catalog caps ∨
      ∃ key ∈ keptKeys g catalog caps, keyFeature g caps (freeScreens g catalog caps) key = f := by
  rw [features_eq, List.mem_append, List.mem_map]

/-- Where a feature comes from tells the features of the catalog from the others. -/
theorem mem_known_iff {f : Feature} : f ∈ known g catalog caps ↔
    f ∈ (features catalog caps g).features ∧ f.source = .catalog := by
  rw [mem_features]
  constructor
  · intro h
    obtain ⟨d, -, hf⟩ := exists_of_mem_known h
    exact ⟨.inl h, hf.source⟩
  · rintro ⟨h | ⟨key, -, rfl⟩, hsource⟩
    · exact h
    · exact nomatch hsource

theorem exists_key {f : Feature} (h : f ∈ (features catalog caps g).features)
    (hsource : f.source = .autoDetected) :
    ∃ key ∈ keptKeys g catalog caps, keyFeature g caps (freeScreens g catalog caps) key = f := by
  refine (mem_features.1 h).resolve_left fun hknown => ?_
  exact nomatch hsource.symm.trans (mem_known_iff.1 hknown).2

/-! ## Screens are partitioned -/

/-- A node on one of some routes. -/
def OnRoute (routes : List String) (n : Node) : Prop :=
  ∃ route, n.route? = some route ∧ ∃ pattern ∈ routes, Route.accepts pattern route = true

theorem onRoute_iff {routes : List String} {n : Node} :
    onRoute routes n = true ↔ OnRoute routes n := by
  simp only [onRoute, OnRoute, Option.any_eq_true_iff_get, List.any_eq_true]
  cases n.route? <;> simp

/-- A feature has exactly the nodes that its definition asks for. -/
structure Gathered (g : Graph) (d : FeatureDefinition) (f : Feature) : Prop where
  screens   : g.Enumerates (fun n => n.kind = .screen ∧ OnRoute d.routes n) f.screens
  endpoints : g.Enumerates (fun n => n.kind = .endpoint ∧ OnRoute d.endpoints n) f.endpoints
  tables    : g.Enumerates (fun n => n.kind = .table ∧ n.label ∈ d.tables) f.tables

theorem Defined.gathered (hg : g.Distinct) {d : FeatureDefinition} {f : Feature}
    (h : Defined g caps d f) : Gathered g d f where
  screens := by
    rw [h.made.screens]
    exact hg.enumerates (fun _ => onRoute_iff) (List.mergeSort_perm _ _)
  endpoints := by
    rw [h.made.endpoints]
    exact hg.enumerates (fun _ => onRoute_iff) (.refl _)
  tables := by
    rw [h.tables]
    exact hg.enumerates (fun _ => List.contains_iff_mem) (.refl _)

/-- A definition has a feature exactly if a screen is on one of its routes. -/
theorem isSome_catalogFeature?_iff {d : FeatureDefinition} :
    (catalogFeature? g caps d).isSome = true ↔
      ∃ n ∈ g.nodes, n.kind = .screen ∧ OnRoute d.routes n := by
  rw [← Option.ne_none_iff_isSome, ne_eq, catalogFeature?_eq_none_iff, List.filter_eq_nil_iff]
  simp [Graph.nodesOf, onRoute_iff]

/-- How the features of a graph divide its screens. -/
structure Partitioned (g : Graph) (catalog : List FeatureDefinition) (caps : FeatureSettings)
    (fs : List Feature) : Prop where
  /-- A definition has a feature exactly if a screen is on one of its routes. -/
  gated    : ∀ d ∈ catalog, (∃ f ∈ fs, f.source = .catalog ∧ f.slug = d.slug) ↔
    ∃ n ∈ g.nodes, n.kind = .screen ∧ OnRoute d.routes n
  /-- The feature of a definition has what the definition asks for. -/
  gathered : ∀ f ∈ fs, f.source = .catalog → ∃ d ∈ catalog, f.slug = d.slug ∧ Gathered g d f
  /-- The feature of a group has enough screens, and their routes start alike. -/
  grouped  : ∀ f ∈ fs, f.source = .autoDetected →
    f.screens.Nodup ∧ leastScreens caps ≤ f.screens.length ∧
      ∃ segments, ∀ id ∈ f.screens, ∃ n ∈ g.nodes,
        n.kind = .screen ∧ start n = segments ∧ n.id = id
  /-- The feature of a group shares no screen with any other feature. -/
  apart    : ∀ f ∈ fs, ∀ f' ∈ fs, f.source = .autoDetected → f' ≠ f →
    f.screens.Disjoint f'.screens
  slugs    : (fs.map Feature.slug).Nodup

theorem mem_freeScreens {n : Node} : n ∈ freeScreens g catalog caps ↔
    n ∈ g.nodes ∧ n.kind = .screen ∧ ∀ f ∈ known g catalog caps, n.id ∉ f.screens := by
  rw [freeScreens, List.mem_filter, Graph.nodesOf, List.mem_filter, decide_eq_true_eq, and_assoc]
  simp

theorem nodup_withKey (hg : g.Distinct) (key : String) :
    ((withKey (freeScreens g catalog caps) key).map Node.id).Nodup := by
  have hsub : (withKey (freeScreens g catalog caps) key).Sublist g.nodes :=
    List.filter_sublist.trans (List.filter_sublist.trans List.filter_sublist)
  exact hg.nodes.sublist (hsub.map Node.id)

theorem mem_screens_keyFeature {key id : String} :
    id ∈ (keyFeature g caps (freeScreens g catalog caps) key).screens ↔
      ∃ n ∈ freeScreens g catalog caps, groupKey n = key ∧ n.id = id := by
  rw [(madeOf_keyFeature g caps (freeScreens g catalog caps) key).perm.mem_iff, List.mem_map]
  simp only [mem_withKey, and_assoc]

theorem large_of_mem_keptKeys {key : String} (h : key ∈ keptKeys g catalog caps) :
    leastScreens caps ≤ (withKey (freeScreens g catalog caps) key).length :=
  mem_largeKeys_iff.1 (Graph.mem_of_mem_firsts (List.mem_filter.1 h).1)

/-- A screen that no feature of the catalog has belongs to the group of its key only. -/
theorem apart_of_key (hg : g.Distinct) {key : String} {f : Feature}
    (hf : f ∈ (features catalog caps g).features)
    (hne : f ≠ keyFeature g caps (freeScreens g catalog caps) key) :
    (keyFeature g caps (freeScreens g catalog caps) key).screens.Disjoint f.screens := by
  intro id hid hid'
  obtain ⟨n, hfree, hkey, rfl⟩ := mem_screens_keyFeature.1 hid
  obtain ⟨hn, -, hnone⟩ := mem_freeScreens.1 hfree
  rcases mem_features.1 hf with hknown | ⟨key', -, rfl⟩
  · exact hnone f hknown hid'
  · obtain ⟨m, hfree', hkey', hm⟩ := mem_screens_keyFeature.1 hid'
    obtain rfl : m = n := List.inj_on_of_nodup_map hg.nodes (mem_freeScreens.1 hfree').1 hn hm
    exact hne (by rw [← hkey, ← hkey'])

/-- The features of the catalog come in its order. -/
theorem slugs_known_sublist : ∀ catalog : List FeatureDefinition,
    ((known g catalog caps).map Feature.slug).Sublist (catalog.map (·.slug))
  | [] => .slnil
  | d :: rest => by
    have ih := slugs_known_sublist rest
    cases h : catalogFeature? g caps d with
    | none =>
      rw [known, List.filterMap_cons_none h, List.map_cons]
      exact ih.cons _
    | some f =>
      rw [known, List.filterMap_cons_some h, List.map_cons, List.map_cons,
        (defined_of_catalogFeature? h).slug]
      exact ih.cons_cons _

/-- With distinct slugs, a feature of the catalog with the slug of a definition is that of the
definition. -/
theorem exists_known_iff (hslugs : (catalog.map (·.slug)).Nodup) {d : FeatureDefinition}
    (hd : d ∈ catalog) :
    (∃ f ∈ (features catalog caps g).features, f.source = .catalog ∧ f.slug = d.slug) ↔
      (catalogFeature? g caps d).isSome = true := by
  rw [Option.isSome_iff_exists]
  constructor
  · rintro ⟨f, hf, hsource, hslug⟩
    obtain ⟨d', hd', hf'⟩ := List.mem_filterMap.1 (mem_known_iff.2 ⟨hf, hsource⟩)
    obtain rfl : d' = d := List.inj_on_of_nodup_map hslugs hd' hd
      ((defined_of_catalogFeature? hf').slug.symm.trans hslug)
    exact ⟨f, hf'⟩
  · rintro ⟨f, hf⟩
    have hknown : f ∈ known g catalog caps := List.mem_filterMap.2 ⟨d, hd, hf⟩
    exact ⟨f, (mem_known_iff.1 hknown).1, (mem_known_iff.1 hknown).2,
      (defined_of_catalogFeature? hf).slug⟩

/-- The screens of a key have routes that start with its segments. -/
theorem start_of_mem_screens {key id : String}
    (hid : id ∈ (keyFeature g caps (freeScreens g catalog caps) key).screens) :
    ∃ n ∈ g.nodes, n.kind = .screen ∧ start n = Route.segments key ∧ n.id = id := by
  obtain ⟨n, hfree, rfl, hn⟩ := mem_screens_keyFeature.1 hid
  obtain ⟨hmem, hkind, -⟩ := mem_freeScreens.1 hfree
  exact ⟨n, hmem, hkind, (segments_groupKey n).symm, hn⟩

/-- **Features partition screens.** If the slugs of the catalog are distinct, a definition has a
feature exactly if a screen is on one of its routes, and the feature consists of all that matches;
groups of screens that no such feature has are disjoint from each other and from the rest, large
enough, and each of routes that start alike; and no two features have one slug. -/
theorem screens_partitioned (history : List Findings) {catalog : List FeatureDefinition}
    (hslugs : (catalog.map (·.slug)).Nodup) (caps : FeatureSettings) :
    let g := history.foldl Graph.merge .empty
    Partitioned g catalog caps (features catalog caps g).features := by
  intro g
  have hg : g.Distinct := Graph.distinct_empty.merges history
  constructor
  · exact fun d hd => (exists_known_iff hslugs hd).trans isSome_catalogFeature?_iff
  · intro f hf hsource
    obtain ⟨d, hd, hdef⟩ := exists_of_mem_known (mem_known_iff.2 ⟨hf, hsource⟩)
    exact ⟨d, hd, hdef.slug, hdef.gathered hg⟩
  · intro f hf hsource
    obtain ⟨key, hkey, rfl⟩ := exists_key hf hsource
    have hperm := (madeOf_keyFeature g caps (freeScreens g catalog caps) key).perm
    refine ⟨hperm.nodup_iff.2 (nodup_withKey hg key), ?_, _, fun id => start_of_mem_screens⟩
    rw [hperm.length_eq, List.length_map]
    exact large_of_mem_keptKeys hkey
  · intro f hf f' hf' hsource hne
    obtain ⟨key, -, rfl⟩ := exists_key hf hsource
    exact apart_of_key hg hf' hne
  · rw [features_eq_fresh]
    exact Graph.nodup_append_fresh (hslugs.sublist (slugs_known_sublist catalog)) _

/-- A screen of a page. -/
def pageScreen (id route : String) : Node :=
  ⟨id, route, some "r", .screen ⟨route, "pages" ++ route ++ ".js", Route.isDynamic route, none,
    none, .pagesRouter⟩⟩

/-- Four screens in two groups that get one slug, since brackets are no part of a slug. -/
def userGroups : Findings where
  nodes := [pageScreen "s1" "/users/[id]", pageScreen "s2" "/users/[id]/edit",
    pageScreen "s3" "/users/id", pageScreen "s4" "/users/id/edit"]

/-- The graph of the four screens. -/
def userGraph : Graph := [userGroups].foldl Graph.merge .empty

/-- The features of the four screens, with the known features and the default limits. -/
def userFeatures : List Feature :=
  (features FeatureDefinition.catalog Settings.default.features userGraph).features

/-- A screen that a feature of the catalog has, and an endpoint for it. -/
def loginPage : Findings where
  nodes := [pageScreen "s5" "/login",
    ⟨"e1", "POST /api/auth/login", some "r", .endpoint
      ⟨.post, "/api/auth/login", "pages/api/auth/login.js", none, .pagesApi⟩⟩]

/-- The four screens beside the one of the catalog. -/
theorem screens_partitioned_users :
    let g := [userGroups, loginPage].foldl Graph.merge .empty
    let fs := (features FeatureDefinition.catalog Settings.default.features g).features
    (FeatureDefinition.catalog.map (·.slug)).Nodup ∧
      (∃ f ∈ fs, f.source = .catalog ∧ f.screens = ["s5"] ∧ f.endpoints = ["e1"]) ∧
      Partitioned g FeatureDefinition.catalog Settings.default.features fs := by
  intro g fs
  have hslugs : (FeatureDefinition.catalog.map (·.slug)).Nodup := by decide
  have hlogin : ∃ f ∈ known g FeatureDefinition.catalog Settings.default.features,
      f.screens = ["s5"] ∧ f.endpoints = ["e1"] := by decide +kernel
  obtain ⟨f, hf, hmade⟩ := hlogin
  obtain ⟨hmem, hsource⟩ := mem_known_iff.1 hf
  refine ⟨hslugs, ⟨f, hmem, hsource, hmade⟩, ?_⟩
  exact screens_partitioned [userGroups, loginPage] hslugs Settings.default.features

/-! ## Which groups are kept -/

/-- A screen that belongs to no feature of the catalog. -/
def IsFree (fs : List Feature) (n : Node) : Prop :=
  n.kind = .screen ∧ ∀ f ∈ fs, f.source = .catalog → n.id ∉ f.screens

instance (fs : List Feature) (n : Node) : Decidable (IsFree fs n) :=
  inferInstanceAs (Decidable (_ ∧ _))

/-- The screens that belong to no feature of the catalog and whose routes start with segments. -/
def group (g : Graph) (fs : List Feature) (segments : List String) : List Node :=
  g.nodes.filter fun n => IsFree fs n ∧ start n = segments

theorem freeScreens_eq (g : Graph) (catalog : List FeatureDefinition) (caps : FeatureSettings) :
    freeScreens g catalog caps =
      g.nodes.filter fun n => IsFree (features catalog caps g).features n := by
  rw [freeScreens, Graph.nodesOf, List.filter_filter]
  refine List.filter_congr fun n _ => ?_
  have hfree : (!((known g catalog caps).flatMap (·.screens)).contains n.id) = true ↔
      ∀ f ∈ (features catalog caps g).features, f.source = .catalog → n.id ∉ f.screens := by
    simp only [Bool.not_eq_true', ← Bool.not_eq_true, List.contains_iff_mem, List.mem_flatMap,
      mem_known_iff, not_exists, not_and, and_imp]
  rw [Bool.eq_iff_iff, Bool.and_eq_true, hfree, decide_eq_true_eq, decide_eq_true_eq]
  exact and_comm

theorem withKey_groupKey (n : Node) :
    withKey (freeScreens g catalog caps) (groupKey n) =
      group g (features catalog caps g).features (start n) := by
  rw [withKey, freeScreens_eq, List.filter_filter, group]
  refine List.filter_congr fun m _ => ?_
  rw [Bool.eq_iff_iff, Bool.and_eq_true, decide_eq_true_eq, groupKey_eq_iff, decide_eq_true_eq,
    decide_eq_true_eq]
  exact and_comm

theorem start_of_mem_group {fs : List Feature} {segments : List String} {n : Node}
    (h : n ∈ group g fs segments) : start n = segments :=
  (of_decide_eq_true (List.mem_filter.1 h).2).2

/-- The group of some segments, if it is large enough, is that of their key. -/
theorem withKey_keyOf {segments : List String}
    (hlarge : leastScreens caps ≤ (group g (features catalog caps g).features segments).length) :
    withKey (freeScreens g catalog caps) (keyOf segments) =
      group g (features catalog caps g).features segments := by
  obtain ⟨n, hn⟩ := exists_of_large hlarge
  rw [← start_of_mem_group hn]
  exact withKey_groupKey n

/-- A large group whose slug is free becomes a feature if no large group with the slug has a
smaller key. -/
theorem mem_keptKeys_iff {segments : List String}
    (hlarge : leastScreens caps ≤ (group g (features catalog caps g).features segments).length) :
    keyOf segments ∈ keptKeys g catalog caps ↔
      groupSlug (keyOf segments) ∉ (known g catalog caps).map Feature.slug ∧
      ∀ others, leastScreens caps ≤ (group g (features catalog caps g).features others).length →
        groupSlug (keyOf others) = groupSlug (keyOf segments) → keyOf segments ≤ keyOf others := by
  have hmem : keyOf segments ∈ largeKeys caps (freeScreens g catalog caps) := by
    rw [mem_largeKeys_iff, withKey_keyOf hlarge]
    exact hlarge
  rw [keptKeys, List.mem_filter, decide_eq_true_eq, and_comm,
    Graph.mem_firsts_iff_le (pairwise_largeKeys caps _)]
  refine and_congr_right fun _ => ⟨?_, ?_⟩
  · rintro ⟨-, hmin⟩ others hothers hslug
    refine hmin (keyOf others) ?_ hslug
    rw [mem_largeKeys_iff, withKey_keyOf hothers]
    exact hothers
  · refine fun hmin => ⟨hmem, fun key hkey hslug => ?_⟩
    rw [mem_largeKeys_iff] at hkey
    obtain ⟨n, hn⟩ := exists_of_large hkey
    obtain ⟨-, rfl⟩ := mem_withKey.1 hn
    rw [withKey_groupKey] at hkey
    exact hmin (start n) hkey hslug

theorem filter_catalog (g : Graph) (catalog : List FeatureDefinition) (caps : FeatureSettings) :
    (features catalog caps g).features.filter (·.source = .catalog) = known g catalog caps := by
  rw [features_eq, List.filter_append, List.filter_eq_self.2, List.filter_eq_nil_iff.2,
    List.append_nil]
  · intro f hf
    obtain ⟨key, -, rfl⟩ := List.mem_map.1 hf
    exact Bool.false_ne_true
  · intro f hf
    exact decide_eq_true (mem_known_iff.1 hf).2

/-- A group that is large enough has a feature of its own exactly if its key is kept. -/
theorem exists_feature_iff (hg : g.Distinct) {segments : List String}
    (hlarge : leastScreens caps ≤ (group g (features catalog caps g).features segments).length) :
    (∃ f ∈ (features catalog caps g).features, f.source = .autoDetected ∧ f.screens.Perm
      ((group g (features catalog caps g).features segments).map Node.id)) ↔
    keyOf segments ∈ keptKeys g catalog caps := by
  constructor
  · rintro ⟨f, hf, hsource, hperm⟩
    obtain ⟨key, hkey, rfl⟩ := exists_key hf hsource
    -- a screen of the group leads from the feature back to the key of the group
    obtain ⟨n, hn⟩ := exists_of_large hlarge
    obtain ⟨m, hfree, hm, hid⟩ := mem_screens_keyFeature.1
      (hperm.mem_iff.2 (List.mem_map_of_mem hn))
    obtain rfl : m = n := List.inj_on_of_nodup_map hg.nodes (mem_freeScreens.1 hfree).1
      (List.mem_filter.1 hn).1 hid
    rwa [← start_of_mem_group hn, ← groupKey_eq, hm]
  · intro hkey
    refine ⟨_, mem_features.2 (.inr ⟨_, hkey, rfl⟩), rfl, ?_⟩
    rw [← withKey_keyOf hlarge]
    exact (madeOf_keyFeature g caps _ _).perm

/-- No route of the catalog takes one of the four screens. -/
theorem known_userGraph :
    known userGraph FeatureDefinition.catalog Settings.default.features = [] := by
  decide

theorem freeScreens_userGraph :
    freeScreens userGraph FeatureDefinition.catalog Settings.default.features =
      userGroups.nodes := by
  rw [freeScreens, known_userGraph]
  decide

/-- Both groups are large enough. -/
theorem large_userGroups {segments : List String} (h : segments ∈ userGroups.nodes.map start) :
    leastScreens Settings.default.features ≤
      (group userGraph userFeatures segments).length := by
  obtain ⟨n, hn, rfl⟩ := List.mem_map.1 h
  rw [userFeatures, ← withKey_groupKey, freeScreens_userGraph]
  clear h
  revert n
  decide

theorem slugs_userFeatures (slug : String) :
    slug ∉ (userFeatures.filter (·.source = .catalog)).map Feature.slug := by
  rw [userFeatures, filter_catalog, known_userGraph]
  exact List.not_mem_nil

/-- **Which groups become features.** A group of screens that is large enough and whose slug no
feature of the catalog has is the group of a feature exactly if it is the first, in the order of the
keys, of the large groups with its slug. -/
theorem group_kept_iff (history : List Findings) (catalog : List FeatureDefinition)
    (caps : FeatureSettings) (segments : List String) :
    let g := history.foldl Graph.merge .empty
    let fs := (features catalog caps g).features
    leastScreens caps ≤ (group g fs segments).length →
    groupSlug (keyOf segments) ∉ (fs.filter (·.source = .catalog)).map Feature.slug →
    ((∃ f ∈ fs, f.source = .autoDetected ∧
        f.screens.Perm ((group g fs segments).map Node.id)) ↔
      ∀ others, leastScreens caps ≤ (group g fs others).length →
        groupSlug (keyOf others) = groupSlug (keyOf segments) →
        keyOf segments ≤ keyOf others) := by
  intro g fs hlarge hslug
  have hg : g.Distinct := Graph.distinct_empty.merges history
  rw [filter_catalog] at hslug
  rw [exists_feature_iff hg hlarge, mem_keptKeys_iff hlarge, and_iff_right hslug]

theorem group_kept_iff_users :
    leastScreens Settings.default.features ≤
        (group userGraph userFeatures ["users", "[id]"]).length ∧
      groupSlug (keyOf ["users", "[id]"]) ∉
        (userFeatures.filter (·.source = .catalog)).map Feature.slug ∧
      ((∃ f ∈ userFeatures, f.source = .autoDetected ∧
          f.screens.Perm ((group userGraph userFeatures ["users", "[id]"]).map Node.id)) ↔
        ∀ others, leastScreens Settings.default.features ≤
            (group userGraph userFeatures others).length →
          groupSlug (keyOf others) = groupSlug (keyOf ["users", "[id]"]) →
          keyOf ["users", "[id]"] ≤ keyOf others) := by
  have hlarge : leastScreens Settings.default.features ≤
      (group userGraph userFeatures ["users", "[id]"]).length :=
    large_userGroups (by decide)
  have hslug := slugs_userFeatures (groupSlug (keyOf ["users", "[id]"]))
  exact ⟨hlarge, hslug, group_kept_iff [userGroups] FeatureDefinition.catalog
    Settings.default.features ["users", "[id]"] hlarge hslug⟩

/-- The group of `/users/id` is large enough and no feature of the catalog has its slug, but it has
no feature: that of `/users/[id]` comes first. -/
theorem userGroups_lost :
    leastScreens Settings.default.features ≤
        (group userGraph userFeatures ["users", "id"]).length ∧
      groupSlug (keyOf ["users", "id"]) ∉
        (userFeatures.filter (·.source = .catalog)).map Feature.slug ∧
      ¬∃ f ∈ userFeatures, f.source = .autoDetected ∧
        f.screens.Perm ((group userGraph userFeatures ["users", "id"]).map Node.id) := by
  have hlarge : leastScreens Settings.default.features ≤
      (group userGraph userFeatures ["users", "id"]).length := large_userGroups (by decide)
  refine ⟨hlarge, slugs_userFeatures _, fun hfound => ?_⟩
  have hg : userGraph.Distinct := Graph.distinct_empty.merges [userGroups]
  have hmin := ((mem_keptKeys_iff hlarge).1 ((exists_feature_iff hg hlarge).1 hfound)).2
  have hle := hmin ["users", "[id]"] (large_userGroups (by decide)) (by decide)
  exact absurd hle (by decide)

end Discovery
end ArchGraph
