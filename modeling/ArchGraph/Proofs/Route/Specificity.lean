import ArchGraph.Proofs.Route.SelfMatch
/-!
# Of two routes the narrower one

A route is narrower than another when the other one matches every normalized path that it matches,
and more. The ranking does not compare what routes match but counts wildcards. Every fixed segment
of the wider route stands in the narrower one too (`Included.fixedIn_le`), so the counts follow the
inclusion as long as the narrower route has no catch-all and no more segments than the wider one,
as is always so if the wider one has no catch-all (`Narrower.counts_lt`,
`Narrower.noCatchAll`). Main statement: `narrower_preferred_unless`; a wider route that is
preferred, because it takes with one wildcard what the narrower one takes with two, is in
`wider_preferred`.
-/

namespace ArchGraph.Route

/-- The second route matches all normalized paths that the first one matches, and more. -/
structure Narrower (first second : String) : Prop where
  matched : ∀ path, Normal path → accepts first path = true → accepts second path = true
  more    : ∃ path, Normal path ∧ accepts second path = true ∧ accepts first path = false

/-- All names that fit some segments fit others as well. -/
def Included (first second : List String) : Prop :=
  ∀ names, (∀ n ∈ names, IsName n) → Fits first names → Fits second names

theorem Narrower.included {a b : String} (h : Narrower a b) : Included (segments a) (segments b) := by
  intro names hnames hfits
  exact (accepts_joined_iff hnames).1
    (h.matched _ (normal_joined hnames) ((accepts_joined_iff hnames).2 hfits))

theorem Narrower.not_included {a b : String} (h : Narrower a b) :
    ¬Included (segments b) (segments a) := by
  obtain ⟨path, ⟨names, hnames, rfl⟩, hb, ha⟩ := h.more
  intro hincluded
  have hfits := hincluded names hnames ((accepts_joined_iff hnames).1 hb)
  rw [(accepts_joined_iff hnames).2 hfits] at ha
  cases ha

theorem Narrower.ne {a b : String} (h : Narrower a b) : a ≠ b := by
  rintro rfl
  exact h.not_included h.included

/-! ## Fixed segments -/

/-- The number of segments that are no wildcards. -/
def fixedIn (segments : List String) : Nat :=
  segments.countP fun s => !(Segment.ofString s).isWildcard

theorem depth_eq (route : String) : depth route = wildcards route + fixedIn (segments route) := by
  rw [depth, wildcards, shape, List.countP_map, fixedIn,
    List.length_eq_countP_add_countP (Segment.isWildcard ∘ Segment.ofString)]
  congr 2
  funext s
  simp

section

variable {segments a b : List String} {s name : String}

/-- Each fixed segment takes a name of its own. -/
theorem Fits.fixedIn_le {q : String → Bool} : ∀ {segments names : List String},
    Fits segments names →
      (∀ s ∈ segments, (Segment.ofString s).isWildcard = false → q s = true) →
        fixedIn segments ≤ names.countP q
  | [], _, _, _ => Nat.zero_le _
  | s :: more, _, ⟨run, left, rfl, hrun, hleft⟩, hq => by
    obtain ⟨hs, hmore⟩ := List.forall_mem_cons.1 hq
    have ih : fixedIn more ≤ left.countP q := hleft.fixedIn_le hmore
    rw [fixedIn, List.countP_cons, ← fixedIn, List.countP_append]
    cases hwild : (Segment.ofString s).isWildcard with
    | true => simp; omega
    | false =>
      have hone : run.countP q = 1 := by
        rw [(takes_fixed_iff hwild).1 hrun]
        simp [hs hwild]
      simp; omega

/-- With a new name in the place of the wildcards, all fixed segments have to take fixed ones. -/
theorem fixedIn_le_of_fits_filled (hname : name ∉ b) (h : Fits b (a.map (filled name))) :
    fixedIn b ≤ fixedIn a := by
  have hle : fixedIn b ≤ (a.map (filled name)).countP (· != name) := by
    refine h.fixedIn_le fun s hs _ => ?_
    simpa using fun heq : s = name => hname (heq ▸ hs)
  rw [List.countP_map] at hle
  refine hle.trans (List.countP_mono_left fun s _ hs => ?_)
  rcases filled_eq_or name s with heq | ⟨hfixed, -⟩
  · simp [heq] at hs
  · simp [hfixed]

/-- **Fixed segments are kept.** What is narrower has no fewer fixed segments. -/
theorem Included.fixedIn_le (h : Included a b) (ha : FixedAreNames a) : fixedIn b ≤ fixedIn a := by
  obtain ⟨name, hname, hfresh⟩ := exists_fresh b
  exact fixedIn_le_of_fits_filled hfresh (h _ (ha.filled hname) (fits_filled name a))

/-! ## Segments without catch-alls -/

/-- No segment can take several names. -/
def NoCatchAll (segments : List String) : Prop :=
  ∀ s ∈ segments, (Segment.ofString s).isCatchAll = false

/-- Without catch-alls each segment takes one name. -/
theorem Fits.length_eq : ∀ {segments names : List String}, Fits segments names →
    NoCatchAll segments → names.length = segments.length
  | [], _, rfl, _ => rfl
  | s :: more, _, ⟨run, left, rfl, hrun, hleft⟩, hnone => by
    obtain ⟨hs, hmore⟩ := List.forall_mem_cons.1 hnone
    obtain ⟨name, rfl⟩ := exists_of_takes hs hrun
    simp [hleft.length_eq hmore]

/-- A name for each segment, and one more for a catch-all. -/
def doubled (name s : String) : List String :=
  if (Segment.ofString s).isCatchAll then [name, name] else [filled name s]

theorem takes_doubled (name s : String) : Takes s (doubled name s) := by
  unfold doubled
  cases h : (Segment.ofString s).isCatchAll with
  | true => exact takes_pair h (name, name)
  | false => exact takes_filled name s

theorem FixedAreNames.doubled (h : FixedAreNames segments) (hname : IsName name) :
    ∀ n ∈ segments.flatMap (doubled name), IsName n := by
  intro n hn
  obtain ⟨s, hs, hn⟩ := List.mem_flatMap.1 hn
  have hfilled : IsName (Route.filled name s) := h.filled hname _ (List.mem_map_of_mem hs)
  unfold Route.doubled at hn
  split at hn
  · simp only [List.mem_cons, List.not_mem_nil, or_false, or_self] at hn
    exact hn ▸ hname
  · exact List.mem_singleton.1 hn ▸ hfilled

/-- What is narrower than segments without catch-alls has none either, and as many segments. -/
theorem Included.noCatchAll (h : Included a b) (ha : FixedAreNames a) (hb : NoCatchAll b) :
    NoCatchAll a ∧ a.length = b.length := by
  obtain ⟨name, hname, -⟩ := exists_fresh []
  have hlength : (a.map (filled name)).length = b.length :=
    (h _ (ha.filled hname) (fits_filled name a)).length_eq hb
  have hdoubled : (a.flatMap (doubled name)).length = b.length :=
    (h _ (ha.doubled hname) (fits_flatMap fun s _ => takes_doubled name s)).length_eq hb
  have hmore : (a.flatMap (doubled name)).length =
      a.length + a.countP fun s => (Segment.ofString s).isCatchAll := by
    clear hlength hdoubled h ha
    induction a with
    | nil => rfl
    | cons s a ih =>
      rw [List.flatMap_cons, List.length_append, ih, List.countP_cons, doubled]
      cases (Segment.ofString s).isCatchAll <;> simp <;> omega
  rw [List.length_map] at hlength
  have hzero : (a.countP fun s => (Segment.ofString s).isCatchAll) = 0 := by omega
  exact ⟨by simpa [NoCatchAll, List.countP_eq_zero] using hzero, hlength⟩

/-- Without catch-alls, what is narrower without having more fixed segments is not narrower at all:
the fixed segments stand in the same places. -/
theorem fits_of_fits_filled : ∀ {b a : List String}, NoCatchAll b → name ∉ b →
    Fits b (a.map (filled name)) → fixedIn a ≤ fixedIn b → ∀ names, Fits b names → Fits a names
  | [], a, _, _, hfilled, _, _, hnames => by
    obtain rfl : a = [] := List.map_eq_nil_iff.1 hfilled
    exact hnames
  | t :: b, [], hnone, _, ⟨run, left, hsplit, hrun, _⟩, _, _, _ => by
    obtain ⟨x, rfl⟩ := exists_of_takes (hnone t List.mem_cons_self) hrun
    cases hsplit
  | t :: b, s :: a, hnone, hname, ⟨run, left, hsplit, hrun, hleft⟩, hle, _,
      ⟨run', left', rfl, hrun', hleft'⟩ => by
    obtain ⟨ht, hb⟩ := List.forall_mem_cons.1 hnone
    rw [List.mem_cons, not_or] at hname
    obtain ⟨x, rfl⟩ := exists_of_takes ht hrun
    obtain ⟨y, rfl⟩ := exists_of_takes ht hrun'
    obtain ⟨rfl, rfl⟩ : filled name s = x ∧ a.map (filled name) = left := by simpa using hsplit
    have hkept := fixedIn_le_of_fits_filled hname.2 hleft
    simp only [fixedIn, List.countP_cons] at hle
    simp only [fixedIn] at hkept
    have hrest : fixedIn a ≤ fixedIn b → Takes s [y] → Fits (s :: a) ([y] ++ left') :=
      fun hle hs => ⟨[y], left', rfl, hs, fits_of_fits_filled hb hname.2 hleft hle left' hleft'⟩
    cases hwild : (Segment.ofString t).isWildcard with
    | true =>
      cases hs : (Segment.ofString s).isWildcard with
      | true =>
        refine hrest ?_ (takes_singleton (.inl hs))
        simpa [fixedIn, hwild, hs] using hle
      | false =>
        -- a fixed segment more in front would have to be made up for behind it
        simp [hwild, hs] at hle
        omega
    | false =>
      -- the fixed segment takes a name other than the new one, so the same segment stands there
      have heq : filled name s = t := by simpa using (takes_fixed_iff hwild).1 hrun
      have hy : y = t := by simpa using (takes_fixed_iff hwild).1 hrun'
      rcases filled_eq_or name s with hnew | ⟨hs, hsame⟩
      · exact absurd (hnew.symm.trans heq) hname.1
      · obtain rfl : s = t := hsame.symm.trans heq
        refine hrest ?_ (takes_singleton (.inr hy))
        simpa [fixedIn, hs] using hle

end

/-! ## Counts of narrower routes -/

theorem catchAlls_eq_zero_iff {route : String} :
    catchAlls route = 0 ↔ NoCatchAll (segments route) := by
  simp [catchAlls, shape, NoCatchAll, List.countP_eq_zero]

namespace Narrower

variable {a b : String}

theorem noCatchAll (h : Narrower a b) (ha : FixedAreNames (segments a))
    (hb : catchAlls b = 0) : catchAlls a = 0 ∧ depth a = depth b := by
  obtain ⟨hnone, hlength⟩ := h.included.noCatchAll ha (catchAlls_eq_zero_iff.1 hb)
  exact ⟨catchAlls_eq_zero_iff.2 hnone, hlength⟩

/-- **Counts follow the inclusion** where the narrower route has no catch-all and no more segments
than the wider one. -/
theorem counts_lt (h : Narrower a b) (ha : FixedAreNames (segments a))
    (hnone : catchAlls a = 0) (hdepth : depth a ≤ depth b) :
    wildcards a < wildcards b ∨ wildcards a = wildcards b ∧ catchAlls a < catchAlls b := by
  have hfixed := h.included.fixedIn_le ha
  have hdepth_a := depth_eq a
  have hdepth_b := depth_eq b
  by_cases hlt : wildcards a < wildcards b
  · exact .inl hlt
  · refine .inr ⟨by omega, ?_⟩
    rw [hnone, Nat.pos_iff_ne_zero]
    intro hb
    obtain ⟨name, hname, hfresh⟩ := exists_fresh (segments b)
    have hfilled := h.included _ (ha.filled hname) (fits_filled name _)
    have hle : fixedIn (segments a) ≤ fixedIn (segments b) := by omega
    exact h.not_included fun names _ =>
      fits_of_fits_filled (catchAlls_eq_zero_iff.1 hb) hfresh hfilled hle names

end Narrower

/-! ## Pairs of pages -/

/-- A page of a repository. -/
def page (id route : String) : Entry := ⟨id, some "r", none, route⟩

/-- Two pages of one repository. -/
def pages (first second : String) : List Node :=
  [("first", first), ("second", second)].map fun (id, route) =>
    ⟨id, route, some "r", .screen ⟨route, "", true, none, none, .appRouter⟩⟩

theorem entries_pages (first second : String) : (Index.ofNodes (pages first second)).entries =
    [page "first" first, page "second" second] := rfl

theorem mem_candidates_pages {first second path : String} {method : Option HttpMethod} {e : Entry} :
    e ∈ (Index.ofNodes (pages first second)).candidates path method ↔
      (e = page "first" first ∨ e = page "second" second) ∧ accepts e.route path = true := by
  rw [Index.mem_candidates, entries_pages, List.mem_cons, List.mem_singleton]
  refine and_congr_right fun he => and_iff_left ?_
  rcases he with rfl | rfl <;> rfl

/-- Segments that take less, in front of what is narrower. -/
theorem Included.cons {a b : List String} {s t : String} (h : Included a b)
    (hst : ∀ run, Takes s run → Takes t run) : Included (s :: a) (t :: b) := by
  rintro _ hnames ⟨run, left, rfl, hrun, hleft⟩
  exact ⟨run, left, rfl, hst run hrun, h left (List.forall_mem_append.1 hnames).2 hleft⟩

/-- A catch-all takes what segments take of which the first one is no catch-all. -/
theorem Included.rest {a : List String} {s t : String}
    (hs : (Segment.ofString s).isCatchAll = false) (ht : (Segment.ofString t).isCatchAll = true) :
    Included (s :: a) [t] := by
  rintro _ - ⟨run, left, rfl, hrun, -⟩
  obtain ⟨name, rfl⟩ := exists_of_takes hs hrun
  refine ⟨[name] ++ left, [], by simp, ?_, rfl⟩
  rw [takes_iff]
  cases hshape : Segment.ofString t <;> simp_all [Segment.isCatchAll]

theorem Included.narrower {a b : String} (h : Included (segments a) (segments b))
    (names : List String) (hnames : ∀ n ∈ names, IsName n)
    (hb : accepts b ("/" ++ Path.ofNames names) = true)
    (ha : accepts a ("/" ++ Path.ofNames names) = false) : Narrower a b where
  matched path := by
    rintro ⟨names, hnames, rfl⟩ haccepts
    exact (accepts_joined_iff hnames).2 (h names hnames ((accepts_joined_iff hnames).1 haccepts))
  more := ⟨_, normal_joined hnames, hb, ha⟩

theorem narrower_page : Narrower "/docs/[page]" "/docs/[...slug]" := by
  have hincluded : Included (segments "/docs/[page]") (segments "/docs/[...slug]") :=
    (Included.rest (by decide) (by decide)).cons fun _ h => h
  exact hincluded.narrower ["docs", "en", "intro"] (by decide) (by decide) (by decide)

/-! ## What is preferred -/

/-- The counters of a route count what its pattern reads. -/
structure CountedAsRead (route : String) : Prop where
  dynamic  : dynamicSegments route = wildcards route
  catchAll : catchAllSegments route = catchAlls route

namespace Entry

/-- The place of an entry among those of one repository that are no exact routes. -/
def counts (e : Entry) : ℕ ×ₗ ℕ ×ₗ String :=
  toLex (dynamicSegments e.route, toLex (catchAllSegments e.route, e.id))

theorem key_lt_iff_counts_lt {a b : Entry} {path : String} {repo : Option String}
    (hrepo : a.repo = b.repo) (ha : a.route ≠ path) (hb : b.route ≠ path) :
    (b.rank path repo).key < (a.rank path repo).key ↔ b.counts < a.counts := by
  simp [Rank.key, rank, counts, Prod.Lex.toLex_lt_toLex, hrepo, ha, hb]

theorem counts_lt_of_narrower {a b : Entry}
    (hcounted : CountedAsRead a.route ∧ CountedAsRead b.route) (h : Narrower a.route b.route)
    (ha : FixedAreNames (segments a.route)) (hnone : catchAlls a.route = 0)
    (hdepth : depth a.route ≤ depth b.route) : a.counts < b.counts := by
  have hless := h.counts_lt ha hnone hdepth
  rw [← hcounted.1.dynamic, ← hcounted.2.dynamic, ← hcounted.1.catchAll,
    ← hcounted.2.catchAll] at hless
  rw [counts, counts, Prod.Lex.toLex_lt_toLex, Prod.Lex.toLex_lt_toLex]
  exact hless.imp_right fun h => ⟨h.1, .inl h.2⟩

end Entry

section

variable {nodes : List Node} {path : String} {method : Option HttpMethod} {repo : Option String}
  {a b : Entry}

/-- Of two candidates of one repository, neither an exact route, the one that a call leads to comes
first by its counts. -/
theorem Index.counts_lt_of_resolve? (ha : a ∈ (ofNodes nodes).candidates path method)
    (hb : b ∈ (ofNodes nodes).candidates path method) (hrepo : a.repo = b.repo)
    (hpath : a.route ≠ path ∧ b.route ≠ path) (hne : a ≠ b)
    (h : (ofNodes nodes).resolve? path method repo = some b.id) : b.counts < a.counts := by
  obtain ⟨e, he, hid, hfirst⟩ := resolve?_eq_some h
  obtain rfl : e = b := eq_of_id_eq (mem_candidates.1 he).1 (mem_candidates.1 hb).1 hid
  have hbefore := hfirst a ha fun h =>
    hne (eq_of_id_eq (mem_candidates.1 ha).1 (mem_candidates.1 hb).1 h)
  exact (Entry.key_lt_iff_counts_lt hrepo hpath.1 hpath.2).1 ((Rank.before_iff _ _).1 hbefore)

/-- If there are no other candidates, a call leads to the one that comes first by its counts. -/
theorem Index.resolve?_of_counts_lt (hb : b ∈ (ofNodes nodes).candidates path method)
    (hrepo : a.repo = b.repo) (hpath : a.route ≠ path ∧ b.route ≠ path) (hne : a ≠ b)
    (honly : ∀ c ∈ (ofNodes nodes).candidates path method, c = a ∨ c = b)
    (h : b.counts < a.counts) : (ofNodes nodes).resolve? path method repo = some b.id := by
  cases hresolve : (ofNodes nodes).resolve? path method repo with
  | none =>
    rw [resolve?_eq_none_iff] at hresolve
    rw [hresolve] at hb
    cases hb
  | some id =>
    obtain ⟨e, he, rfl, -⟩ := resolve?_eq_some hresolve
    rcases honly e he with rfl | rfl
    · exact absurd h (lt_asymm (counts_lt_of_resolve? hb he hrepo.symm hpath.symm hne.symm hresolve))
    · rfl

end

/-- **Of two routes the narrower one is preferred**, unless counting wildcards says otherwise. Let
two entries of one repository answer a call, neither with the path as its route, the first with a
narrower route than the second, one that matches some normalized path, and both counted as their
patterns read them. Then the call leads to the second one only if its route has a catch-all, the
first one has a catch-all too or more segments, and the second one has fewer dynamic segments, or as
many and fewer catch-alls, or as many of both and the smaller identifier; and if there is no other
candidate, it does then lead to the second one. -/
theorem narrower_preferred_unless {nodes : List Node} {path : String} {method : Option HttpMethod}
    (repo : Option String) {a b : Entry}
    (ha : a ∈ (Index.ofNodes nodes).candidates path method)
    (hb : b ∈ (Index.ofNodes nodes).candidates path method) (hrepo : a.repo = b.repo)
    (hpath : a.route ≠ path ∧ b.route ≠ path)
    (hcounted : CountedAsRead a.route ∧ CountedAsRead b.route)
    (hmatched : ∃ p, Normal p ∧ accepts a.route p = true) (hnarrower : Narrower a.route b.route) :
    ((Index.ofNodes nodes).resolve? path method repo = some b.id →
      0 < catchAlls b.route ∧ (0 < catchAlls a.route ∨ depth b.route < depth a.route) ∧
        b.counts < a.counts) ∧
    ((∀ c ∈ (Index.ofNodes nodes).candidates path method, c = a ∨ c = b) →
      b.counts < a.counts → (Index.ofNodes nodes).resolve? path method repo = some b.id) := by
  have hne : a ≠ b := fun h => hnarrower.ne (congrArg Entry.route h)
  refine ⟨fun hresolve => ?_, Index.resolve?_of_counts_lt hb hrepo hpath hne⟩
  have hcounts := Index.counts_lt_of_resolve? ha hb hrepo hpath hne hresolve
  have hfixed : FixedAreNames (segments a.route) := by
    obtain ⟨_, ⟨names, hnames, rfl⟩, haccepts⟩ := hmatched
    exact ((accepts_joined_iff hnames).1 haccepts).fixedAreNames hnames
  -- counts that follow the inclusion put the first one in front
  have hnot (hnone : catchAlls a.route = 0) : ¬depth a.route ≤ depth b.route := fun hdepth =>
    lt_asymm hcounts (Entry.counts_lt_of_narrower hcounted hnarrower hfixed hnone hdepth)
  refine ⟨Nat.pos_of_ne_zero fun hzero => ?_, ?_, hcounts⟩
  · obtain ⟨hnone, hdepth⟩ := hnarrower.noCatchAll hfixed hzero
    exact hnot hnone hdepth.le
  · by_cases hnone : catchAlls a.route = 0
    · exact .inr (not_le.1 (hnot hnone))
    · exact .inl (Nat.pos_of_ne_zero hnone)

theorem narrower_preferred_page :
    Narrower "/docs/[page]" "/docs/[...slug]" ∧
      (Index.ofNodes (pages "/docs/[page]" "/docs/[...slug]")).resolve? "/docs/intro" none none ≠
        some "second" := by
  refine ⟨narrower_page, fun hsecond => ?_⟩
  have hfirst : page "first" "/docs/[page]" ∈ (Index.ofNodes
      (pages "/docs/[page]" "/docs/[...slug]")).candidates "/docs/intro" none :=
    mem_candidates_pages.2 ⟨.inl rfl, by decide⟩
  have hlast : page "second" "/docs/[...slug]" ∈ (Index.ofNodes
      (pages "/docs/[page]" "/docs/[...slug]")).candidates "/docs/intro" none :=
    mem_candidates_pages.2 ⟨.inr rfl, by decide⟩
  have hmatched : ∃ p, Normal p ∧ accepts "/docs/[page]" p = true :=
    ⟨"/docs/intro", ⟨["docs", "intro"], by decide, by decide⟩, by decide⟩
  have hunless := narrower_preferred_unless none hfirst hlast rfl (by decide)
    ⟨⟨by decide, by decide⟩, ⟨by decide, by decide⟩⟩ hmatched narrower_page
  exact absurd (hunless.1 hsecond).2.1 (by decide)

/-! ## Where the wider route is preferred -/

/-- Of two candidates of one repository, neither of them an exact route, an index never prefers the
one whose route matches more. -/
def PrefersNarrower (index : Index) : Prop :=
  ∀ (path : String) (method : Option HttpMethod) (repo : Option String),
    ∀ a ∈ index.candidates path method, ∀ b ∈ index.candidates path method,
      a.repo = b.repo → a.route ≠ path → b.route ≠ path → Narrower a.route b.route →
        index.resolve? path method repo ≠ some b.id

theorem not_prefersNarrower {first second : String} (hnarrower : Narrower first second)
    (path : String) (haccepts : accepts first path = true ∧ accepts second path = true)
    (hpath : first ≠ path ∧ second ≠ path)
    (hsecond : (Index.ofNodes (pages first second)).resolve? path none none = some "second") :
    ¬PrefersNarrower (Index.ofNodes (pages first second)) := fun h =>
  h path none none _ (mem_candidates_pages.2 ⟨.inl rfl, haccepts.1⟩) _
    (mem_candidates_pages.2 ⟨.inr rfl, haccepts.2⟩) rfl hpath.1 hpath.2 hnarrower hsecond

/-- The wider route is preferred where it takes with one wildcard what the narrower one takes with
two, where an unclosed bracket of the narrower one is counted but a colon of the wider one is not,
and where the narrower one holds a line feed and so matches no normalized path at all. -/
theorem wider_preferred :
    ¬PrefersNarrower (Index.ofNodes (pages "/docs/[lang]/[page]" "/docs/[...slug]")) ∧
      ¬PrefersNarrower (Index.ofNodes (pages "/[x/[y]" "/:x/[y]")) ∧
        ¬PrefersNarrower (Index.ofNodes (pages "/a\nb/[[...x]]/[[...y]]" "/[x]")) := by
  refine ⟨?_, ?_, ?_⟩
  · have hincluded : Included (segments "/docs/[lang]/[page]") (segments "/docs/[...slug]") :=
      (Included.rest (by decide) (by decide)).cons fun _ h => h
    exact not_prefersNarrower
      (hincluded.narrower ["docs", "en"] (by decide) (by decide) (by decide)) "/docs/en/intro"
      (by decide) (by decide) (by decide)
  · have htakes : ∀ run, Takes "[x" run → Takes ":x" run := by
      intro run hrun
      rw [(takes_fixed_iff (by decide)).1 hrun]
      exact takes_singleton (.inl (by decide))
    have hincluded : Included (segments "/[x/[y]") (segments "/:x/[y]") :=
      Included.cons (fun _ _ h => h) htakes
    exact not_prefersNarrower
      (hincluded.narrower ["z", "z"] (by decide) (by decide) (by decide)) "/[x/z"
      (by decide) (by decide) (by decide)
  · have hincluded : Included (segments "/a\nb/[[...x]]/[[...y]]") (segments "/[x]") := by
      intro names hnames hfits
      have hname := hfits.fixedAreNames hnames "a\nb" (by decide) (by decide)
      exact absurd hname (by decide)
    exact not_prefersNarrower
      (hincluded.narrower ["z"] (by decide) (by decide) (by decide)) "/a\nb"
      (by decide) (by decide) (by decide)

end ArchGraph.Route
