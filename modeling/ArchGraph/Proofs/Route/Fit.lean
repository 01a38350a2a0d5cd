import ArchGraph.Proofs.Path.Names
import ArchGraph.Proofs.Pattern.Leads
import ArchGraph.Route.Matcher
/-!
# Routes match segment by segment

What the pattern of a route matches, said without patterns: the names of the path can be cut into
runs, one for each segment of the route, such that every segment takes its run (`Fits`). A segment
`[[...x]]` takes any run, `[...x]` any but the empty one, `[x]` and `:x` a run of one name, and all
other segments themselves. Main statement: `accepts_iff_fits`. It needs paths without empty names,
since the pattern of a catch-all runs over slashes.
-/

namespace ArchGraph.Route

open Text (Chars)

/-! ## Segments and names -/

/-- A segment written `[[...x]]`. -/
def IsOptionalRest (segment : String) : Prop := ∃ x, segment = "[[..." ++ x ++ "]]"

/-- A segment written `[...x]`. -/
def IsRest (segment : String) : Prop := ∃ x, segment = "[..." ++ x ++ "]"

/-- A segment written `[x]` or `:x`. -/
def IsSingle (segment : String) : Prop := ∃ x, segment = "[" ++ x ++ "]" ∨ segment = ":" ++ x

/-- The runs of names that a segment takes. -/
inductive Takes (segment : String) (names : List String) : Prop where
  | optionalRest : IsOptionalRest segment → Takes segment names
  | rest : IsRest segment → names ≠ [] → Takes segment names
  | single : IsSingle segment → ¬IsOptionalRest segment → ¬IsRest segment →
      (∃ name, names = [name]) → Takes segment names
  | fixed : ¬IsSingle segment → names = [segment] → Takes segment names

/-- Names fit the segments of a route: they can be cut into runs that the segments take. -/
def Fits : List String → List String → Prop
  | [], names => names = []
  | segment :: more, names =>
    ∃ run left, names = run ++ left ∧ Takes segment run ∧ Fits more left

/-- A name in a normalized path. -/
structure IsName (name : String) : Prop where
  ne_empty : name ≠ ""
  noSlash  : '/' ∉ name.toList
  noLine   : '\n' ∉ name.toList

instance (name : String) : Decidable (IsName name) :=
  decidable_of_iff (name ≠ "" ∧ '/' ∉ name.toList ∧ '\n' ∉ name.toList)
    ⟨fun h => ⟨h.1, h.2.1, h.2.2⟩, fun h => ⟨h.ne_empty, h.noSlash, h.noLine⟩⟩

/-- A normalized path: the root, or names joined by slashes behind a slash. -/
def Normal (path : String) : Prop :=
  ∃ names : List String, (∀ name ∈ names, IsName name) ∧ path = "/" ++ Path.ofNames names

/-! ## How segments are written -/

theorem startsWith_iff {c : Char} {s : String} : startsWith c s = true ↔ ∃ x, s.toList = c :: x := by
  rw [startsWith, beq_iff_eq, List.head?_eq_some_iff]

theorem endsWith_iff {c : Char} {s : String} : endsWith c s = true ↔ ∃ x, s.toList = x ++ [c] := by
  rw [endsWith, beq_iff_eq, List.getLast?_eq_some_iff]

theorem isSome_dropStart?_iff {start text : Chars} :
    (Text.dropStart? start text).isSome = true ↔ ∃ rest, text = start ++ rest := by
  simp [Option.isSome_iff_exists, Text.dropStart?_eq_some_iff]

/-- A text that starts and ends with given texts has a part between them, unless they overlap. -/
theorem exists_between {front back x y : Chars} (hlast : ∀ c ∈ front, c ∉ back)
    (h : front ++ x = y ++ back) : ∃ between, x = between ++ back := by
  rcases List.append_eq_append_iff.1 h with ⟨as, -, hx⟩ | ⟨bs, hfront, hback⟩
  · exact ⟨as, hx⟩
  · cases bs with
    | nil => exact ⟨[], hback.symm⟩
    | cons b bs =>
      have hmem : b ∈ front := by simp [hfront]
      exact absurd (by simp [hback]) (hlast b hmem)

theorem isOptionalRest_iff {s : String} : IsOptionalRest s ↔
    (Text.dropStart? ['[', '[', '.', '.', '.'] s.toList).isSome = true ∧
      (Text.dropStart? [']', ']'] s.toList.reverse).isSome = true := by
  rw [isSome_dropStart?_iff, isSome_dropStart?_iff]
  constructor
  · rintro ⟨x, rfl⟩
    exact ⟨⟨x.toList ++ [']', ']'], by simp⟩, ⟨x.toList.reverse ++ ['.', '.', '.', '[', '['], by simp⟩⟩
  · rintro ⟨⟨x, hx⟩, ⟨y, hy⟩⟩
    have hend : s.toList = y.reverse ++ [']', ']'] := by
      rw [← List.reverse_reverse s.toList, hy]
      simp
    obtain ⟨between, rfl⟩ := exists_between (by decide) (hx.symm.trans hend)
    refine ⟨String.ofList between, ?_⟩
    rw [← String.toList_inj, hx]
    simp

theorem isRest_iff {s : String} : IsRest s ↔
    (Text.dropStart? ['[', '.', '.', '.'] s.toList).isSome = true ∧ endsWith ']' s = true := by
  rw [isSome_dropStart?_iff, endsWith_iff]
  constructor
  · rintro ⟨x, rfl⟩
    exact ⟨⟨x.toList ++ [']'], by simp⟩, ⟨['[', '.', '.', '.'] ++ x.toList, by simp⟩⟩
  · rintro ⟨⟨x, hx⟩, ⟨y, hy⟩⟩
    obtain ⟨between, rfl⟩ := exists_between (by decide) (hx.symm.trans hy)
    refine ⟨String.ofList between, ?_⟩
    rw [← String.toList_inj, hx]
    simp

theorem isSingle_iff {s : String} : IsSingle s ↔
    (startsWith '[' s = true ∧ endsWith ']' s = true) ∨ startsWith ':' s = true := by
  rw [startsWith_iff, endsWith_iff, startsWith_iff]
  constructor
  · rintro ⟨x, rfl | rfl⟩
    · exact .inl ⟨⟨x.toList ++ [']'], by simp⟩, ⟨'[' :: x.toList, by simp⟩⟩
    · exact .inr ⟨x.toList, by simp⟩
  · rintro (⟨⟨x, hx⟩, ⟨y, hy⟩⟩ | ⟨x, hx⟩)
    · have hends : ['['] ++ x = y ++ [']'] := hx.symm.trans hy
      obtain ⟨between, rfl⟩ := exists_between (by decide) hends
      refine ⟨String.ofList between, .inl ?_⟩
      rw [← String.toList_inj, hx]
      simp
    · refine ⟨String.ofList x, .inr ?_⟩
      rw [← String.toList_inj, hx]
      simp

theorem IsOptionalRest.isSingle {s : String} (h : IsOptionalRest s) : IsSingle s := by
  obtain ⟨x, rfl⟩ := h
  refine ⟨"[..." ++ x ++ "]", .inl ?_⟩
  rw [← String.toList_inj]
  simp

theorem IsRest.isSingle {s : String} (h : IsRest s) : IsSingle s := by
  obtain ⟨x, rfl⟩ := h
  refine ⟨"..." ++ x, .inl ?_⟩
  rw [← String.toList_inj]
  simp

/-! ## What the patterns of segments take -/

namespace Segment

/-- The texts that the pattern of a segment takes. -/
def Covers : Segment → Chars → Prop
  | fixed name, text => text = '/' :: name.toList
  | single, text => ∃ body, text = '/' :: body ∧ body ≠ [] ∧ '/' ∉ body
  | rest, text => ∃ body, text = '/' :: body ∧ body ≠ [] ∧ '\n' ∉ body
  | optionalRest, text => text = [] ∨ ∃ body, text = '/' :: body ∧ '\n' ∉ body

theorem leads_slash {p : Pattern} {s t : Cursor} : (Pattern.lit "/" ++ p).Leads s t ↔
    ∃ left, s.rest = '/' :: left ∧ p.Leads (s.behind ['/'] left) t := by
  constructor
  · rintro ⟨between, hslash, hp⟩
    obtain ⟨left, hleft, rfl⟩ := Pattern.leads_lit.1 hslash
    exact ⟨left, hleft, hp⟩
  · rintro ⟨left, hleft, hp⟩
    exact ⟨_, Pattern.leads_lit.2 ⟨left, hleft, rfl⟩, hp⟩

/-- Behind a slash a repetition takes a body of its class. -/
theorem leads_slash_many {d : Char} {least : Nat} {s t : Cursor} :
    (Pattern.lit "/" ++ .many (· != d) least).Leads s t ↔
      ∃ body left, s.rest = '/' :: body ++ left ∧ least ≤ body.length ∧ d ∉ body ∧
        t = s.behind ('/' :: body) left := by
  have hclass (body : Chars) : (∀ c ∈ body, (c != d) = true) ↔ d ∉ body := by
    constructor
    · intro h hd
      simpa using h d hd
    · intro h c hc
      simp only [bne_iff_ne, ne_eq]
      rintro rfl
      exact h hc
  rw [leads_slash]
  constructor
  · rintro ⟨left, hleft, body, left', hbody, hchars, hleast, rfl⟩
    obtain rfl : left = body ++ left' := hbody
    rw [Cursor.behind_behind]
    exact ⟨body, left', hleft, hleast, (hclass body).1 hchars, rfl⟩
  · rintro ⟨body, left, hleft, hleast, hd, rfl⟩
    refine ⟨body ++ left, hleft, body, left, rfl, (hclass body).2 hd, hleast, ?_⟩
    rw [Cursor.behind_behind]
    rfl

theorem behind_nil (s : Cursor) : s.behind [] s.rest = s := by
  simp [Cursor.behind]

/-- **The pattern of a segment** takes the texts that the segment covers. -/
theorem leads_pattern {segment : Segment} {s t : Cursor} : segment.pattern.Leads s t ↔
    ∃ taken left, s.rest = taken ++ left ∧ segment.Covers taken ∧ t = s.behind taken left := by
  cases segment with
  | fixed name =>
    simp only [pattern, leads_slash, Pattern.leads_lit, Covers]
    constructor
    · rintro ⟨_, hslash, left, hname, rfl⟩
      rw [Cursor.behind_behind]
      refine ⟨_, left, ?_, rfl, rfl⟩
      rw [hslash, List.cons_append]
      exact congrArg _ hname
    · rintro ⟨_, left, hleft, rfl, rfl⟩
      refine ⟨_, hleft, left, rfl, ?_⟩
      rw [Cursor.behind_behind]
      rfl
  | single =>
    simp only [pattern, leads_slash_many, Covers]
    constructor
    · rintro ⟨body, left, hleft, hleast, hd, rfl⟩
      exact ⟨_, left, hleft, ⟨body, rfl, List.ne_nil_of_length_pos hleast, hd⟩, rfl⟩
    · rintro ⟨_, left, hleft, ⟨body, rfl, hne, hd⟩, rfl⟩
      exact ⟨body, left, hleft, List.length_pos_iff.2 hne, hd, rfl⟩
  | rest =>
    simp only [pattern, leads_slash_many, Covers]
    constructor
    · rintro ⟨body, left, hleft, hleast, hd, rfl⟩
      exact ⟨_, left, hleft, ⟨body, rfl, List.ne_nil_of_length_pos hleast, hd⟩, rfl⟩
    · rintro ⟨_, left, hleft, ⟨body, rfl, hne, hd⟩, rfl⟩
      exact ⟨body, left, hleft, List.length_pos_iff.2 hne, hd, rfl⟩
  | optionalRest =>
    simp only [pattern, Pattern.Leads, leads_slash_many, Covers]
    constructor
    · rintro (⟨body, left, hleft, -, hd, rfl⟩ | rfl)
      · exact ⟨_, left, hleft, .inr ⟨body, rfl, hd⟩, rfl⟩
      · exact ⟨[], t.rest, rfl, .inl rfl, (behind_nil t).symm⟩
    · rintro ⟨_, left, hleft, rfl | ⟨body, rfl, hd⟩, rfl⟩
      · obtain rfl : left = s.rest := hleft.symm
        exact .inr (behind_nil s)
      · exact .inl ⟨body, left, hleft, Nat.zero_le _, hd, rfl⟩

end Segment

/-- A text is cut into texts that the segments cover, perhaps with a slash left over. -/
def Covered : List Segment → Chars → Prop
  | [], text => text = [] ∨ text = ['/']
  | segment :: more, text =>
    ∃ taken left, text = taken ++ left ∧ segment.Covers taken ∧ Covered more left

theorem exists_leads_iff_covered : ∀ {segments : List Segment} {s : Cursor},
    (∃ t, (Pattern.concat (segments.map Segment.pattern ++
      [.opt (Pattern.lit "/"), .look .textEnd])).Leads s t) ↔ Covered segments s.rest
  | [], s => by
    have hend (s : Cursor) : s.satisfies .textEnd = true ↔ s.rest = [] := by
      simp [Cursor.satisfies]
    constructor
    · rintro ⟨t, between, hslash | rfl, hplace, rfl⟩
      · obtain ⟨left, hleft, rfl⟩ := Pattern.leads_lit.1 hslash
        obtain rfl : left = [] := (hend _).1 hplace
        exact .inr hleft
      · exact .inl ((hend _).1 hplace)
    · rintro (hempty | hslash)
      · exact ⟨s, s, .inr rfl, (hend s).2 hempty, rfl⟩
      · exact ⟨_, _, .inl (Pattern.leads_lit.2 ⟨[], hslash, rfl⟩), rfl, rfl⟩
  | segment :: more, s => by
    simp only [List.map_cons, List.cons_append, Pattern.leads_concat_cons, Covered]
    constructor
    · rintro ⟨t, between, hsegment, hmore⟩
      obtain ⟨taken, left, htext, hcovers, rfl⟩ := Segment.leads_pattern.1 hsegment
      exact ⟨taken, left, htext, hcovers, exists_leads_iff_covered.1 ⟨t, hmore⟩⟩
    · rintro ⟨taken, left, htext, hcovers, hmore⟩
      obtain ⟨t, ht⟩ := (exists_leads_iff_covered (s := s.behind taken left)).2 hmore
      exact ⟨t, _, Segment.leads_pattern.2 ⟨taken, left, htext, hcovers, rfl⟩, ht⟩

theorem accepts_iff_covered {route path : String} :
    accepts route path = true ↔ Covered (shape route) path.toList := by
  rw [accepts, Pattern.isSome_matchAt?_iff]
  exact exists_leads_iff_covered

/-! ## Names as texts -/

/-- The text of names, each behind a slash. -/
def below (names : List String) : Chars := names.flatMap fun name => '/' :: name.toList

theorem below_cons (name : String) (names : List String) :
    below (name :: names) = '/' :: (name.toList ++ below names) := rfl

theorem below_append (front back : List String) : below (front ++ back) = below front ++ below back :=
  List.flatMap_append

/-- Only the text of no names is free of slashes. -/
theorem eq_nil_of_slash_notMem_below {names : List String} (h : '/' ∉ below names) : names = [] := by
  cases names with
  | nil => rfl
  | cons name names => simp [below_cons] at h

theorem toList_ne_nil {s : String} (h : s ≠ "") : s.toList ≠ [] := by
  intro hnil
  exact h (String.toList_inj.1 hnil)

theorem line_notMem_below : ∀ {names : List String}, (∀ name ∈ names, IsName name) →
    '\n' ∉ below names
  | [], _ => by simp [below]
  | name :: names, h => by
    obtain ⟨hname, hnames⟩ := List.forall_mem_cons.1 h
    simp [below_cons, hname.noLine, line_notMem_below hnames]

/-- Where a text of names is cut in front of a slash, it is cut between names. -/
theorem exists_of_below_eq_append : ∀ {names : List String} {taken left : Chars},
    (∀ name ∈ names, '/' ∉ name.toList) → (∀ c ∈ left.head?, c = '/') →
      below names = taken ++ left →
        ∃ front back, names = front ++ back ∧ taken = below front ∧ left = below back
  | names, [], left, _, _, h => ⟨[], names, rfl, rfl, h.symm⟩
  | [], c :: taken, left, _, _, h => by cases h
  | name :: names, c :: taken, left, hnames, hleft, h => by
    obtain ⟨hname, hnames⟩ := List.forall_mem_cons.1 hnames
    obtain rfl : '/' = c := (List.cons.inj h).1
    have h : name.toList ++ below names = taken ++ left := (List.cons.inj h).2
    rcases List.append_eq_append_iff.1 h with ⟨more, rfl, hmore⟩ | ⟨more, hsplit, rfl⟩
    · obtain ⟨front, back, rfl, rfl, rfl⟩ := exists_of_below_eq_append hnames hleft hmore
      exact ⟨name :: front, back, rfl, rfl, rfl⟩
    · -- what is left starts inside of the name, where there is no slash
      cases more with
      | nil =>
        rw [List.append_nil] at hsplit
        exact ⟨[name], names, rfl, by rw [below_cons, ← hsplit]; simp [below], rfl⟩
      | cons d more =>
        obtain rfl : d = '/' := hleft d rfl
        exact absurd (by simp [hsplit]) hname

/-! ## Segments take what they cover -/

/-- A segment of a route: it is not empty and holds no slash. -/
def IsSegment (segment : String) : Prop := segment ≠ "" ∧ '/' ∉ segment.toList

theorem isSegment_of_mem {route segment : String} (h : segment ∈ segments route) :
    IsSegment segment := by
  obtain ⟨hmem, hne⟩ := List.mem_filter.1 h
  exact ⟨by simpa using hne, Path.slash_notMem_of_mem_names hmem⟩

theorem single_covers_iff {names : List String} (hnames : ∀ name ∈ names, IsName name) :
    Segment.single.Covers (below names) ↔ ∃ name, names = [name] := by
  constructor
  · rintro ⟨body, hbody, -, hslash⟩
    cases names with
    | nil => cases hbody
    | cons name names =>
      obtain rfl : name.toList ++ below names = body := (List.cons.inj hbody).2
      rw [List.mem_append, not_or] at hslash
      exact ⟨name, by rw [eq_nil_of_slash_notMem_below hslash.2]⟩
  · rintro ⟨name, rfl⟩
    have hname := hnames name List.mem_cons_self
    exact ⟨name.toList, by simp [below], toList_ne_nil hname.ne_empty, hname.noSlash⟩

theorem rest_covers_iff {names : List String} (hnames : ∀ name ∈ names, IsName name) :
    Segment.rest.Covers (below names) ↔ names ≠ [] := by
  constructor
  · rintro ⟨body, hbody, -⟩ rfl
    cases hbody
  · intro hne
    cases names with
    | nil => exact absurd rfl hne
    | cons name names =>
      have hline := line_notMem_below hnames
      obtain ⟨hname, -⟩ := List.forall_mem_cons.1 hnames
      rw [below_cons, List.mem_cons, not_or] at hline
      exact ⟨_, rfl, by simp [toList_ne_nil hname.ne_empty], hline.2⟩

theorem optionalRest_covers {names : List String} (hnames : ∀ name ∈ names, IsName name) :
    Segment.optionalRest.Covers (below names) := by
  cases names with
  | nil => exact .inl rfl
  | cons name names =>
    have hline := line_notMem_below hnames
    rw [below_cons, List.mem_cons, not_or] at hline
    exact .inr ⟨_, rfl, hline.2⟩

theorem fixed_covers_iff {segment : String} (hsegment : '/' ∉ segment.toList)
    {names : List String} : (Segment.fixed segment).Covers (below names) ↔ names = [segment] := by
  constructor
  · intro h
    cases names with
    | nil => cases h
    | cons name names =>
      have hbody : name.toList ++ below names = segment.toList := (List.cons.inj h).2
      rw [← hbody, List.mem_append, not_or] at hsegment
      obtain rfl := eq_nil_of_slash_notMem_below hsegment.2
      rw [String.toList_inj.1 (show name.toList = segment.toList by simpa [below] using hbody)]
  · rintro rfl
    simp [below, Segment.Covers]

/-- How a segment is read: the first form that it has decides. -/
theorem ofString_cases (segment : String) :
    (IsOptionalRest segment ∧ Segment.ofString segment = .optionalRest) ∨
      (¬IsOptionalRest segment ∧ IsRest segment ∧ Segment.ofString segment = .rest) ∨
        (¬IsOptionalRest segment ∧ ¬IsRest segment ∧ IsSingle segment ∧
          Segment.ofString segment = .single) ∨
          (¬IsSingle segment ∧ Segment.ofString segment = .fixed segment) := by
  unfold Segment.ofString
  by_cases hoptional : IsOptionalRest segment
  · exact .inl ⟨hoptional, if_pos (isOptionalRest_iff.1 hoptional)⟩
  · right
    rw [if_neg (isOptionalRest_iff.not.1 hoptional)]
    by_cases hrest : IsRest segment
    · exact .inl ⟨hoptional, hrest, if_pos (isRest_iff.1 hrest)⟩
    · right
      rw [if_neg (isRest_iff.not.1 hrest)]
      by_cases hsingle : IsSingle segment
      · exact .inl ⟨hoptional, hrest, hsingle, if_pos (isSingle_iff.1 hsingle)⟩
      · exact .inr ⟨hsingle, if_neg (isSingle_iff.not.1 hsingle)⟩

/-- The runs that a segment takes, by how its pattern reads it. -/
theorem takes_iff {s : String} {run : List String} : Takes s run ↔
    match Segment.ofString s with
    | .fixed _ => run = [s]
    | .single => ∃ name, run = [name]
    | .rest => run ≠ []
    | .optionalRest => True := by
  rcases ofString_cases s with ⟨ho, hs⟩ | ⟨ho, hr, hs⟩ | ⟨ho, hr, hsingle, hs⟩ |
    ⟨hsingle, hs⟩ <;> simp only [hs]
  · exact iff_of_true (.optionalRest ho) trivial
  · refine ⟨?_, .rest hr⟩
    rintro (h | ⟨-, h⟩ | ⟨-, -, h, -⟩ | ⟨h, -⟩)
    · exact absurd h ho
    · exact h
    · exact absurd hr h
    · exact absurd hr.isSingle h
  · refine ⟨?_, .single hsingle ho hr⟩
    rintro (h | ⟨h, -⟩ | ⟨-, -, -, h⟩ | ⟨h, -⟩)
    · exact absurd h ho
    · exact absurd h hr
    · exact h
    · exact absurd hsingle h
  · refine ⟨?_, .fixed hsingle⟩
    rintro (h | ⟨h, -⟩ | ⟨h, -⟩ | ⟨-, h⟩)
    · exact absurd h.isSingle hsingle
    · exact absurd h.isSingle hsingle
    · exact absurd h hsingle
    · exact h

/-- **What a segment takes.** The pattern of a segment covers the text of a run of names exactly if
the segment takes the run. -/
theorem covers_below_iff {segment : String} (hsegment : IsSegment segment) {names : List String}
    (hnames : ∀ name ∈ names, IsName name) :
    (Segment.ofString segment).Covers (below names) ↔ Takes segment names := by
  rw [takes_iff]
  rcases ofString_cases segment with ⟨-, hshape⟩ | ⟨-, -, hshape⟩ | ⟨-, -, -, hshape⟩ | ⟨-, hshape⟩ <;>
    simp only [hshape]
  · exact iff_of_true (optionalRest_covers hnames) trivial
  · exact rest_covers_iff hnames
  · exact single_covers_iff hnames
  · exact fixed_covers_iff hsegment.2

/-! ## Routes take what they cover -/

theorem Covered.head : ∀ {segments : List Segment} {text : Chars}, Covered segments text →
    ∀ c ∈ text.head?, c = '/'
  | [], _, h, c, hc => by
    rcases h with rfl | rfl
    · cases hc
    · exact (Option.some.inj hc).symm
  | segment :: more, _, ⟨taken, left, rfl, hcovers, hmore⟩, c, hc => by
    cases taken with
    | nil => exact hmore.head c hc
    | cons d taken =>
      obtain rfl : d = c := Option.some.inj hc
      cases segment with
      | fixed name => exact (List.cons.inj hcovers).1
      | single =>
        obtain ⟨body, hbody, -⟩ := hcovers
        exact (List.cons.inj hbody).1
      | rest =>
        obtain ⟨body, hbody, -⟩ := hcovers
        exact (List.cons.inj hbody).1
      | optionalRest =>
        rcases hcovers with hnil | ⟨body, hbody, -⟩
        · cases hnil
        · exact (List.cons.inj hbody).1

/-- A text of names is covered exactly if the names fit. -/
theorem covered_below_iff : ∀ {segments : List String}, (∀ s ∈ segments, IsSegment s) →
    ∀ {names : List String}, (∀ name ∈ names, IsName name) →
      (Covered (segments.map Segment.ofString) (below names) ↔ Fits segments names)
  | [], _, names, hnames => by
    constructor
    · rintro (hempty | hslash)
      · exact eq_nil_of_slash_notMem_below (by simp [hempty])
      · cases names with
        | nil => cases hslash
        | cons name names =>
          obtain ⟨hname, -⟩ := List.forall_mem_cons.1 hnames
          have hnil := (List.append_eq_nil_iff.1 (List.cons.inj hslash).2).1
          exact absurd hnil (toList_ne_nil hname.ne_empty)
    · rintro rfl
      exact .inl rfl
  | segment :: more, hsegments, names, hnames => by
    obtain ⟨hsegment, hmoreSegments⟩ := List.forall_mem_cons.1 hsegments
    constructor
    · rintro ⟨taken, left, htext, hcovers, hmore⟩
      obtain ⟨run, back, rfl, rfl, rfl⟩ := exists_of_below_eq_append
        (fun name hname => (hnames name hname).noSlash) hmore.head htext
      obtain ⟨hrun, hback⟩ := List.forall_mem_append.1 hnames
      exact ⟨run, back, rfl, (covers_below_iff hsegment hrun).1 hcovers,
        (covered_below_iff hmoreSegments hback).1 hmore⟩
    · rintro ⟨run, back, rfl, htakes, hmore⟩
      obtain ⟨hrun, hback⟩ := List.forall_mem_append.1 hnames
      exact ⟨below run, below back, below_append run back,
        (covers_below_iff hsegment hrun).2 htakes, (covered_below_iff hmoreSegments hback).2 hmore⟩

/-- What covers a lone slash covers nothing as well. -/
theorem covers_nil_of_slash {segment : String} (hsegment : IsSegment segment)
    (h : (Segment.ofString segment).Covers ['/']) : (Segment.ofString segment).Covers [] := by
  rcases ofString_cases segment with ⟨-, hshape⟩ | ⟨-, -, hshape⟩ | ⟨-, -, -, hshape⟩ | ⟨-, hshape⟩
  · rw [hshape]
    exact .inl rfl
  · rw [hshape] at h
    obtain ⟨body, hbody, hne, -⟩ := h
    exact absurd (List.cons.inj hbody).2.symm hne
  · rw [hshape] at h
    obtain ⟨body, hbody, hne, -⟩ := h
    exact absurd (List.cons.inj hbody).2.symm hne
  · rw [hshape] at h
    exact absurd (List.cons.inj h).2.symm (toList_ne_nil hsegment.1)

/-- The root is covered exactly if no names at all fit. -/
theorem covered_root_iff : ∀ {segments : List String}, (∀ s ∈ segments, IsSegment s) →
    (Covered (segments.map Segment.ofString) ['/'] ↔ Fits segments [])
  | [], _ => iff_of_true (.inr rfl) rfl
  | segment :: more, hsegments => by
    obtain ⟨hsegment, hmoreSegments⟩ := List.forall_mem_cons.1 hsegments
    have hnone : ∀ name ∈ ([] : List String), IsName name := by simp
    have ih := covered_root_iff hmoreSegments
    constructor
    · rintro ⟨taken, left, htext, hcovers, hmore⟩
      have hsplit : (Segment.ofString segment).Covers [] ∧ Fits more [] := by
        rcases List.append_eq_singleton_iff.1 htext.symm with ⟨rfl, rfl⟩ | ⟨rfl, rfl⟩
        · exact ⟨hcovers, ih.1 hmore⟩
        · exact ⟨covers_nil_of_slash hsegment hcovers,
            (covered_below_iff hmoreSegments hnone).1 hmore⟩
      exact ⟨[], [], rfl, (covers_below_iff hsegment hnone).1 hsplit.1, hsplit.2⟩
    · rintro ⟨run, left, hnames, htakes, hmore⟩
      obtain ⟨rfl, rfl⟩ := List.append_eq_nil_iff.1 hnames.symm
      exact ⟨[], ['/'], rfl, (covers_below_iff hsegment hnone).2 htakes, ih.2 hmore⟩

/-! ## Routes and normalized paths -/

/-- The text of a normalized path other than the root is that of its names. -/
theorem toList_slash_ofNames : ∀ {names : List String}, names ≠ [] →
    ("/" ++ Path.ofNames names).toList = below names
  | [name], _ => by simp [Path.ofNames, String.intercalate_singleton, below]
  | name :: next :: more, _ => by
    have ih := toList_slash_ofNames (List.cons_ne_nil next more)
    rw [Path.ofNames] at ih ⊢
    rw [String.intercalate_cons_cons, below_cons, ← ih]
    simp

/-- Behind a slash stand the names of the path, and an empty one in front of it. -/
theorem names_slash (path : String) : Path.names ("/" ++ path) = "" :: Path.names path := by
  have happend := Path.names_append_slash "" path
  rwa [Path.names_of_notMem (show '/' ∉ "".toList by simp), String.empty_append,
    List.singleton_append] at happend

/-- Segments that are joined behind a slash are read back. -/
theorem segments_joined {names : List String} (h : ∀ name ∈ names, IsSegment name) :
    segments ("/" ++ Path.ofNames names) = names := by
  have hfilter : names.filter (· ≠ "") = names := by
    rw [List.filter_eq_self]
    intro name hname
    simpa using (h name hname).1
  cases names with
  | nil => decide
  | cons name more =>
    rw [segments, names_slash, Path.names_ofNames (List.cons_ne_nil _ _) fun n hn => (h n hn).2,
      List.filter_cons_of_neg (by simp), hfilter]

theorem segments_slash_ofNames {names : List String} (h : ∀ name ∈ names, IsName name) :
    segments ("/" ++ Path.ofNames names) = names :=
  segments_joined fun name hname => ⟨(h name hname).ne_empty, (h name hname).noSlash⟩

/-- **Matching is fitting.** A route matches a normalized path exactly if the names of the path fit
the segments of the route. -/
theorem accepts_iff_fits (route : String) {path : String} (h : Normal path) :
    accepts route path = true ↔ Fits (segments route) (segments path) := by
  obtain ⟨names, hnames, rfl⟩ := h
  have hsegments : ∀ s ∈ segments route, IsSegment s := fun s hs => isSegment_of_mem hs
  rw [accepts_iff_covered, segments_slash_ofNames hnames, shape]
  by_cases hempty : names = []
  · subst hempty
    exact covered_root_iff hsegments
  · rw [toList_slash_ofNames hempty]
    exact covered_below_iff hsegments hnames

theorem accepts_iff_fits_docs : Normal "/docs/en/a/b" ∧
    (accepts "/docs/[lang]/[[...slug]]" "/docs/en/a/b" = true ↔
      Fits (segments "/docs/[lang]/[[...slug]]") (segments "/docs/en/a/b")) := by
  have hnormal : Normal "/docs/en/a/b" := ⟨["docs", "en", "a", "b"], by decide, by decide⟩
  exact ⟨hnormal, accepts_iff_fits _ hnormal⟩

end ArchGraph.Route
