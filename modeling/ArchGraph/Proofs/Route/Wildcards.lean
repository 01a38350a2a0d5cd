import ArchGraph.Proofs.Route.Fit
import ArchGraph.Route.Convention
import Mathlib.Data.Finset.Preimage
/-!
# Which segments are wildcards

The pattern of a route and the counters that rank routes read a segment in two ways. To the pattern
a segment is a wildcard when it is closed in square brackets or stands behind a colon, and a
catch-all when it has the whole form of one; the counters look for the opening bracket and for an
ellipsis alone. Main statement: `counters_agree_iff`, which says for every route where the two
agree; a route of a file where they do not is `counters_apart`.
-/

namespace ArchGraph

/-- A text contains what stands somewhere in it. -/
theorem Text.contains_iff {needle : Chars} : ∀ {text : Chars},
    contains needle text = true ↔ needle <:+: text
  | [] => by simp [contains]
  | c :: text => by
    rw [contains, Bool.or_eq_true, List.isPrefixOf_iff_prefix, contains_iff, List.infix_cons_iff]

namespace Route

open Text (Chars)

namespace Segment

/-- Whether a segment takes other names than its own. -/
def isWildcard : Segment → Bool
  | fixed _ => false
  | _ => true

/-- Whether a segment can take several names. -/
def isCatchAll : Segment → Bool
  | rest | optionalRest => true
  | _ => false

end Segment

/-- The number of segments that the pattern of a route reads as wildcards. -/
def wildcards (route : String) : Nat := (shape route).countP Segment.isWildcard

/-- The number of segments that the pattern of a route reads as catch-alls. -/
def catchAlls (route : String) : Nat := (shape route).countP Segment.isCatchAll

theorem isWildcard_ofString {s : String} :
    (Segment.ofString s).isWildcard = true ↔ IsSingle s := by
  rcases ofString_cases s with ⟨h, hs⟩ | ⟨-, h, hs⟩ | ⟨-, -, h, hs⟩ | ⟨h, hs⟩ <;> rw [hs]
  · exact iff_of_true rfl h.isSingle
  · exact iff_of_true rfl h.isSingle
  · exact iff_of_true rfl h
  · exact iff_of_false Bool.false_ne_true h

theorem isCatchAll_ofString {s : String} :
    (Segment.ofString s).isCatchAll = true ↔ IsRest s ∨ IsOptionalRest s := by
  rcases ofString_cases s with ⟨h, hs⟩ | ⟨-, h, hs⟩ | ⟨ho, hr, -, hs⟩ | ⟨h, hs⟩ <;> rw [hs]
  · exact iff_of_true rfl (.inr h)
  · exact iff_of_true rfl (.inl h)
  · exact iff_of_false Bool.false_ne_true (not_or.2 ⟨hr, ho⟩)
  · exact iff_of_false Bool.false_ne_true
      (not_or.2 ⟨fun hr => h hr.isSingle, fun ho => h ho.isSingle⟩)

/-! ## Names for wildcards -/

section

variable {segments names : List String} {s name : String}

theorem takes_fixed_iff (h : (Segment.ofString s).isWildcard = false) {run : List String} :
    Takes s run ↔ run = [s] := by
  rw [takes_iff]
  cases hs : Segment.ofString s <;> simp_all [Segment.isWildcard]

/-- Every segment takes its own name, and a wildcard any one name. -/
theorem takes_singleton (h : (Segment.ofString s).isWildcard = true ∨ name = s) :
    Takes s [name] := by
  rw [takes_iff]
  cases hs : Segment.ofString s <;> simp_all [Segment.isWildcard]

theorem takes_pair (h : (Segment.ofString s).isCatchAll = true) (names : String × String) :
    Takes s [names.1, names.2] := by
  rw [takes_iff]
  cases hs : Segment.ofString s <;> simp_all [Segment.isCatchAll]

/-- A segment that is no catch-all takes runs of one name. -/
theorem exists_of_takes (h : (Segment.ofString s).isCatchAll = false) {run : List String}
    (ht : Takes s run) : ∃ name, run = [name] := by
  rw [takes_iff] at ht
  cases hs : Segment.ofString s <;> simp_all [Segment.isCatchAll]

theorem fits_flatMap {run : String → List String} : ∀ {segments : List String},
    (∀ s ∈ segments, Takes s (run s)) → Fits segments (segments.flatMap run)
  | [], _ => rfl
  | s :: more, h => by
    obtain ⟨hs, hmore⟩ := List.forall_mem_cons.1 h
    exact ⟨run s, more.flatMap run, rfl, hs, fits_flatMap hmore⟩

/-- A name in the place of a wildcard. -/
def filled (name s : String) : String := if (Segment.ofString s).isWildcard then name else s

theorem takes_filled (name s : String) : Takes s [filled name s] := by
  apply takes_singleton
  by_cases h : (Segment.ofString s).isWildcard <;> simp [filled, h]

/-- Segments take the names that are put in the place of their wildcards. -/
theorem fits_filled (name : String) (segments : List String) :
    Fits segments (segments.map (filled name)) := by
  rw [← List.flatMap_singleton' (segments.map (filled name)), List.flatMap_map]
  exact fits_flatMap fun s _ => takes_filled name s

theorem filled_eq_or (name s : String) :
    filled name s = name ∨ (Segment.ofString s).isWildcard = false ∧ filled name s = s := by
  unfold filled
  cases (Segment.ofString s).isWildcard <;> simp

/-- The fixed segments can stand in a path. -/
def FixedAreNames (segments : List String) : Prop :=
  ∀ s ∈ segments, (Segment.ofString s).isWildcard = false → IsName s

theorem FixedAreNames.filled (h : FixedAreNames segments) (hname : IsName name) :
    ∀ n ∈ segments.map (filled name), IsName n := by
  intro n hn
  obtain ⟨s, hs, rfl⟩ := List.mem_map.1 hn
  rcases filled_eq_or name s with heq | ⟨hfixed, heq⟩ <;> rw [heq]
  · exact hname
  · exact h s hs hfixed

/-- What segments take holds their fixed ones. -/
theorem Fits.mem_of_fixed : ∀ {segments names : List String}, Fits segments names →
    ∀ s ∈ segments, (Segment.ofString s).isWildcard = false → s ∈ names
  | t :: more, _, ⟨run, left, rfl, hrun, hleft⟩, s, hs, hfixed => by
    rw [List.mem_append]
    rcases List.mem_cons.1 hs with rfl | hs
    · rw [(takes_fixed_iff hfixed).1 hrun]
      exact .inl (List.mem_singleton_self s)
    · exact .inr (hleft.mem_of_fixed s hs hfixed)

theorem Fits.fixedAreNames (h : Fits segments names) (hnames : ∀ n ∈ names, IsName n) :
    FixedAreNames segments := fun s hs hfixed => hnames s (h.mem_of_fixed s hs hfixed)

/-- Fixed segments take themselves alone. -/
theorem Fits.eq_of_fixed : ∀ {segments names : List String}, Fits segments names →
    (∀ s ∈ segments, (Segment.ofString s).isWildcard = false) → names = segments
  | [], _, h, _ => h
  | t :: more, _, ⟨run, left, rfl, hrun, hleft⟩, hfixed => by
    obtain ⟨ht, hmore⟩ := List.forall_mem_cons.1 hfixed
    rw [(takes_fixed_iff ht).1 hrun, hleft.eq_of_fixed hmore, List.singleton_append]

end

/-- There are names enough. -/
theorem exists_fresh (used : List String) : ∃ name, IsName name ∧ name ∉ used := by
  let letters (n : Nat) : String := String.ofList (List.replicate (n + 1) 'x')
  have hinj : Function.Injective letters := by
    intro m n h
    have hlength := congrArg List.length (String.ofList_injective h)
    simpa using hlength
  obtain ⟨n, hn⟩ := Infinite.exists_notMem_finset (used.toFinset.preimage letters hinj.injOn)
  refine ⟨letters n, ⟨?_, ?_, ?_⟩, by simpa using hn⟩
  · intro h
    have hnil := congrArg String.toList h
    simp [letters] at hnil
  · simp [letters, List.mem_replicate]
  · simp [letters, List.mem_replicate]

/-! ## Paths other than the route -/

/-- The pattern of a route matches a normalized path other than the route. -/
def MatchesOther (route : String) : Prop :=
  ∃ path, Normal path ∧ path ≠ route ∧ accepts route path = true

theorem normal_joined {names : List String} (h : ∀ n ∈ names, IsName n) :
    Normal ("/" ++ Path.ofNames names) := ⟨names, h, rfl⟩

theorem accepts_joined_iff {route : String} {names : List String} (h : ∀ n ∈ names, IsName n) :
    accepts route ("/" ++ Path.ofNames names) = true ↔ Fits (segments route) names := by
  rw [accepts_iff_fits route (normal_joined h), segments_slash_ofNames h]

/-- A fixed segment of a route can stand in a path unless it holds a line feed. -/
theorem fixedAreNames_iff {route : String} : FixedAreNames (segments route) ↔
    ∀ s ∈ segments route, ¬IsSingle s → '\n' ∉ s.toList := by
  refine forall₂_congr fun s hs => ?_
  obtain ⟨hne, hslash⟩ := isSegment_of_mem hs
  rw [← isWildcard_ofString, Bool.not_eq_true]
  exact forall_congr' fun _ => ⟨IsName.noLine, fun hline => ⟨hne, hslash, hline⟩⟩

/-- **What else a route matches.** A route matches a normalized path other than itself exactly if no
fixed segment holds a line feed and it has a wildcard or is no normalized path. -/
theorem matchesOther_iff {route : String} : MatchesOther route ↔
    FixedAreNames (segments route) ∧
      ((∃ s ∈ segments route, IsSingle s) ∨ ¬Normal route) := by
  simp only [← isWildcard_ofString]
  constructor
  · rintro ⟨path, ⟨names, hnames, rfl⟩, hne, haccepts⟩
    have hfits := (accepts_joined_iff hnames).1 haccepts
    refine ⟨hfits.fixedAreNames hnames, or_iff_not_imp_left.2 fun hnone => ?_⟩
    have heq : names = segments route := hfits.eq_of_fixed (by simpa using hnone)
    rintro ⟨names', hnames', rfl⟩
    rw [segments_slash_ofNames hnames'] at heq
    exact hne (heq ▸ rfl)
  · rintro ⟨hfixed, hother⟩
    obtain ⟨name, hname, hfresh⟩ := exists_fresh (segments route)
    have hnames := hfixed.filled hname
    refine ⟨_, normal_joined hnames, ?_, (accepts_joined_iff hnames).2 (fits_filled name _)⟩
    intro heq
    rcases hother with ⟨s, hs, hwild⟩ | hnormal
    · -- the path has the fresh name in the place of the wildcard, which the route has not
      have hsame : (segments route).map (filled name) = segments route := by
        rw [← segments_slash_ofNames hnames, heq]
      have hmem : filled name s ∈ segments route := hsame ▸ List.mem_map_of_mem hs
      rw [filled, if_pos hwild] at hmem
      exact hfresh hmem
    · exact hnormal (heq ▸ normal_joined hnames)

/-! ## Counting -/

/-- A segment in square brackets. -/
def bracketed (s : String) : Bool := startsWith '[' s && endsWith ']' s

/-- A segment with an opening bracket that does not end with a closing one. -/
def unclosed (s : String) : Bool := startsWith '[' s && !endsWith ']' s

/-- A segment with an ellipsis that is no catch-all. -/
def dotted (s : String) : Bool :=
  Text.contains ['.', '.', '.'] s.toList && !(Segment.ofString s).isCatchAll

/-- Items are counted by parts. -/
theorem countP_eq_add {α : Type} {p q r : α → Bool} (hp : ∀ a, p a = (q a || r a))
    (hqr : ∀ a, q a = true → r a = false) : ∀ l : List α, l.countP p = l.countP q + l.countP r
  | [] => rfl
  | a :: l => by
    have ih := countP_eq_add hp hqr l
    cases hq : q a with
    | true => simp [hp, hq, hqr a hq, ih]; omega
    | false => cases hr : r a <;> simp [hp, hq, hr, ih]; omega

theorem dynamicSegments_eq (route : String) : dynamicSegments route =
    (segments route).countP bracketed + (segments route).countP unclosed := by
  refine countP_eq_add (fun s => ?_) (fun s hs => ?_) _
  · cases h : endsWith ']' s <;> simp [bracketed, unclosed, h]
  · simp_all [bracketed, unclosed]

theorem wildcards_eq (route : String) : wildcards route =
    (segments route).countP bracketed + (segments route).countP (startsWith ':') := by
  rw [wildcards, shape, List.countP_map]
  refine countP_eq_add (fun s => ?_) (fun s hs => ?_) _
  · rw [Bool.eq_iff_iff, Function.comp_apply, isWildcard_ofString, isSingle_iff]
    simp [bracketed]
  · obtain ⟨x, hx⟩ := startsWith_iff.1 (Bool.and_eq_true_iff.1 hs).1
    simp [startsWith, hx]

theorem dots_of_isCatchAll {s : String} (h : (Segment.ofString s).isCatchAll = true) :
    Text.contains ['.', '.', '.'] s.toList = true := by
  rw [Text.contains_iff]
  rcases isCatchAll_ofString.1 h with ⟨x, rfl⟩ | ⟨x, rfl⟩
  · exact ⟨['['], x.toList ++ [']'], by simp⟩
  · exact ⟨['[', '['], x.toList ++ [']', ']'], by simp⟩

theorem catchAllSegments_eq (route : String) : catchAllSegments route =
    catchAlls route + (segments route).countP dotted := by
  rw [catchAlls, shape, List.countP_map]
  refine countP_eq_add (fun s => ?_) (fun s hs => ?_) _
  · cases h : (Segment.ofString s).isCatchAll with
    | true => simp [h, dots_of_isCatchAll h]
    | false => simp [dotted, h]
  · simp_all [dotted]

/-! ## Counters and pattern -/

section

variable {route : String}

theorem isDynamic_iff : isDynamic route = true ↔
    (∃ s ∈ segments route, bracketed s) ∨ ∃ s ∈ segments route, unclosed s := by
  rw [isDynamic, decide_eq_true_eq, dynamicSegments_eq, Nat.add_pos_iff_pos_or_pos,
    List.countP_pos_iff, List.countP_pos_iff]

theorem exists_isSingle_iff : (∃ s ∈ segments route, IsSingle s) ↔
    (∃ s ∈ segments route, bracketed s) ∨ ∃ s ∈ segments route, startsWith ':' s := by
  simp only [isSingle_iff, bracketed, Bool.and_eq_true, and_or_left, exists_or]

theorem Normal.fixedAreNames (h : Normal route) : FixedAreNames (segments route) := by
  obtain ⟨names, hnames, rfl⟩ := h
  rw [segments_slash_ofNames hnames]
  exact fun s hs _ => hnames s hs

end

/-- **Where counters and pattern agree.** For every route, the dynamic segments are counted as the
pattern reads them exactly if as many segments have an opening bracket without a closing one as
stand behind a colon, and the catch-alls exactly if no other segment has an ellipsis. That a route
is called dynamic exactly if its pattern matches a normalized path other than the route is right for
a normalized route exactly if a segment stands in brackets, or if there are either both segments
with an unclosed bracket and segments behind a colon or none of both; any other route matches a
normalized path unless a fixed segment holds a line feed. -/
theorem counters_agree_iff (route : String) :
    (dynamicSegments route = wildcards route ↔
      (segments route).countP unclosed = (segments route).countP (startsWith ':')) ∧
    (catchAllSegments route = catchAlls route ↔
      ∀ s ∈ segments route, Text.contains ['.', '.', '.'] s.toList = true →
        IsRest s ∨ IsOptionalRest s) ∧
    ((isDynamic route = true ↔ MatchesOther route) ↔
      Normal route ∧ ((∃ s ∈ segments route, bracketed s) ∨
        ((∃ s ∈ segments route, unclosed s) ↔
          ∃ s ∈ segments route, startsWith ':' s)) ∨
      ¬Normal route ∧ (isDynamic route = true ↔
        ∀ s ∈ segments route, ¬IsSingle s → '\n' ∉ s.toList)) := by
  refine ⟨?_, ?_, ?_⟩
  · rw [dynamicSegments_eq, wildcards_eq, Nat.add_left_cancel_iff]
  · rw [catchAllSegments_eq, Nat.add_eq_left, List.countP_eq_zero]
    refine forall₂_congr fun s _ => ?_
    rw [← isCatchAll_ofString]
    simp [dotted]
  · rw [matchesOther_iff]
    by_cases hnormal : Normal route
    · have hfixed := hnormal.fixedAreNames
      simp only [hnormal, hfixed, true_and, not_true, false_and, or_false]
      rw [isDynamic_iff, exists_isSingle_iff]
      by_cases hbracketed : ∃ s ∈ segments route, bracketed s = true
      · simp only [hbracketed, true_or]
      · simp only [hbracketed, false_or]
    · simp only [hnormal, not_false_eq_true, or_true, and_true, true_and, false_and, false_or,
        fixedAreNames_iff]

/-- A page whose name opens with a bracket counts as dynamic, although its pattern matches nothing
but the route, and an ellipsis in a name counts as a catch-all that the pattern does not have. -/
theorem counters_apart :
    screen? "pages/[id].test.tsx" = some ⟨"/[id].test", .pagesRouter, "pages"⟩ ∧
      dynamicSegments "/[id].test" = 1 ∧ wildcards "/[id].test" = 0 ∧
      isDynamic "/[id].test" = true ∧ ¬MatchesOther "/[id].test" ∧
    screen? "app/(...)photo/page.tsx" = some ⟨"/(...)photo", .appRouter, "app"⟩ ∧
      catchAllSegments "/(...)photo" = 1 ∧ catchAlls "/(...)photo" = 0 := by
  have hnormal : Normal "/[id].test" := ⟨["[id].test"], by decide, by decide⟩
  have hfixed : ∀ s ∈ segments "/[id].test", (Segment.ofString s).isWildcard = false := by
    decide
  refine ⟨by decide, by decide, by decide, by decide, ?_, by decide, by decide, by decide⟩
  rw [matchesOther_iff]
  rintro ⟨-, ⟨s, hs, hsingle⟩ | hnot⟩
  · exact absurd (isWildcard_ofString.2 hsingle) (by simp [hfixed s hs])
  · exact hnot hnormal

end Route
end ArchGraph
