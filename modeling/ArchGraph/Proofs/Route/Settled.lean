import ArchGraph.Proofs.Pattern.Replacing
import ArchGraph.Proofs.Text.Words
import ArchGraph.Route.Basic
/-!
# Normalized paths

Normalizing a path trims it first and shortens it at its end afterwards, so that blanks which were
inside come to stand at the end. Main statement: `normalize_settled_iff`, everything else that
normalizing takes away is gone for good, and normalizing again changes the path exactly if it ends
in such a blank; a path that does is `blank_left_by_query`.
-/

namespace ArchGraph.Route

open Text (Chars isBlank trim dropEndWhile)
open Pattern (Replaced replaced_replaceAll)

variable {path text out : Chars}

/-! ## Expressions -/

/-- A text holds a whole template expression. -/
def HasExpression (text : Chars) : Prop :=
  ∃ front back, text = front ++ '$' :: '\x7b' :: back ∧ '\x7d' ∈ back

theorem HasExpression.append (h : HasExpression text) (front back : Chars) :
    HasExpression (front ++ text ++ back) := by
  obtain ⟨before, behind, rfl, hclosed⟩ := h
  exact ⟨front ++ before, behind ++ back, by simp, List.mem_append_left _ hclosed⟩

theorem spells_templateExpr : Pattern.templateExpr.Spells text ↔
    ∃ inner, '\x7d' ∉ inner ∧ text = '$' :: '\x7b' :: (inner ++ ['\x7d']) := by
  constructor
  · rintro ⟨_, _, rfl, ⟨_, inner, rfl, hopen, hinner, -⟩, hclose⟩
    rw [Pattern.spells_lit] at hopen hclose
    refine ⟨inner, fun hclosed => ?_, by simp [hopen, hclose]⟩
    simpa using hinner _ hclosed
  · rintro ⟨inner, hinner, rfl⟩
    refine ⟨_, ['\x7d'], rfl, ⟨['$', '\x7b'], inner, rfl, Pattern.spells_lit.2 (by simp), ?_⟩,
      Pattern.spells_lit.2 (by simp)⟩
    refine ⟨fun c hc => ?_, Nat.zero_le _⟩
    rw [bne_iff_ne]
    rintro rfl
    exact hinner hc

/-- A text opens with an expression if one is opened there and closed later. -/
theorem opens_templateExpr : Pattern.templateExpr.Opens text ↔
    ∃ back, text = '$' :: '\x7b' :: back ∧ '\x7d' ∈ back := by
  simp only [Pattern.Opens, spells_templateExpr]
  constructor
  · rintro ⟨_, rest, rfl, inner, -, rfl⟩
    exact ⟨inner ++ '\x7d' :: rest, by simp, by simp⟩
  · rintro ⟨back, rfl, hclosed⟩
    obtain ⟨inner, rest, rfl, hinner⟩ := List.eq_append_cons_of_mem hclosed
    exact ⟨_, rest, by simp, inner, hinner, rfl⟩

/-- The trimmed path with its expressions replaced. -/
def spelled (raw : Chars) : Chars := Pattern.templateExpr.replaceAll parameter (trim raw)

theorem replaced_templateExpr (text : Chars) :
    Replaced .templateExpr parameter text (Pattern.templateExpr.replaceAll parameter text) := by
  refine replaced_replaceAll (by decide) ?_ parameter text
  rw [spells_templateExpr]
  rintro ⟨inner, -, hnil⟩
  cases hnil

/-- No expression is left, and none arises. -/
theorem not_hasExpression_of_replaced (h : Replaced .templateExpr parameter text out) :
    ¬HasExpression out := by
  induction h with
  | nil => rintro ⟨front, back, hsplit, -⟩; simp at hsplit
  | @keep c rest out hopens hrest ih =>
    rintro ⟨front, back, hsplit, hclosed⟩
    cases front with
    | cons d front => exact ih ⟨front, back, (List.cons.inj hsplit).2, hclosed⟩
    | nil =>
      obtain ⟨rfl, rfl⟩ := List.cons.inj hsplit
      -- an opening brace is no parameter, so that it was there before
      generalize hbrace : '\x7b' :: back = out at hrest
      cases hrest with
      | nil => cases hbrace
      | put => cases hbrace
      | @keep d rest out _ hrest =>
        obtain ⟨rfl, rfl⟩ := List.cons.inj hbrace
        have hkept : '\x7d' ∈ rest := (hrest.mem hclosed).resolve_right (by decide)
        exact hopens (opens_templateExpr.2 ⟨rest, rfl, hkept⟩)
  | @put taken rest out _ _ _ ih =>
    rintro ⟨front, back, hsplit, hclosed⟩
    rcases List.append_eq_append_iff.1 hsplit with ⟨more, -, hout⟩ | ⟨more, hnew, hout⟩
    · exact ih ⟨more, back, hout, hclosed⟩
    · -- no expression opens inside of a parameter
      cases more with
      | nil => exact ih ⟨[], back, hout.symm, hclosed⟩
      | cons c more =>
        obtain rfl : '$' = c := (List.cons.inj hout).1
        have hmem : '$' ∈ parameter := by rw [hnew]; simp
        revert hmem
        decide

/-- A text without expressions stays as it is. -/
theorem replaceAll_eq_self (h : ¬HasExpression text) :
    Pattern.templateExpr.replaceAll parameter text = text := by
  refine (replaced_templateExpr text).eq_self fun front back hsplit hopens => h ?_
  obtain ⟨rest, rfl, hclosed⟩ := opens_templateExpr.1 hopens
  exact ⟨front, rest, hsplit, hclosed⟩

/-- A trimmed path without dollar signs is spelled as it is. -/
theorem spelled_eq_self (htrim : trim path = path) (hdollar : '$' ∉ path) :
    spelled path = path := by
  rw [spelled, htrim]
  refine replaceAll_eq_self ?_
  rintro ⟨front, back, rfl, -⟩
  simp at hdollar

/-! ## Normalized paths -/

/-- What normalizing a path takes away for good: what is left is a path without query, fragment and
expressions that starts with no blank and ends with no slash, unless it is the root. -/
structure Clean (path : Chars) : Prop where
  nonempty     : path ≠ []
  noQuery      : '?' ∉ path
  noFragment   : '#' ∉ path
  noExpression : ¬HasExpression path
  noBlank      : ∀ c ∈ path.head?, isBlank c = false
  noSlash      : path.getLast? = some '/' → path = ['/']

/-- A path up to its query or fragment. -/
def cut (text : Chars) : Chars := text.takeWhile fun c => c != '?' && c != '#'

/-- A path without slashes at its end, or the root. -/
def stripped (path : Chars) : Chars :=
  let path := dropEndWhile (· == '/') path
  if path.isEmpty then ['/'] else path

theorem normalizeChars_eq (raw : Chars) : normalizeChars raw = stripped (cut (spelled raw)) := rfl

theorem exists_cut (text : Chars) : ∃ rest, text = cut text ++ rest ∧
    ∀ mark ∈ rest.head?, mark ∈ ['?', '#'] := by
  refine ⟨text.dropWhile fun c => c != '?' && c != '#', List.takeWhile_append_dropWhile.symm, ?_⟩
  intro mark hmark
  have hstop := List.head?_dropWhile_not (fun c => c != '?' && c != '#') text
  rw [hmark] at hstop
  by_contra hother
  simp only [List.mem_cons, List.not_mem_nil, or_false, not_or] at hother
  simp [hother.1, hother.2] at hstop

theorem notMem_cut {mark : Char} (hmark : mark ∈ ['?', '#']) (text : Chars) : mark ∉ cut text := by
  intro hmem
  have hkept := List.mem_takeWhile_imp hmem
  simp only [List.mem_cons, List.not_mem_nil, or_false] at hmark
  rcases hmark with rfl | rfl <;> simp at hkept

/-- What is stripped is the root, or a front part behind which only slashes stood. -/
theorem stripped_cases (path : Chars) : stripped path = ['/'] ∨ ∃ slashes,
    path = stripped path ++ slashes ∧ (∀ c ∈ slashes, c = '/') ∧ stripped path ≠ [] ∧
      (stripped path).getLast? ≠ some '/' := by
  obtain ⟨slashes, hsplit, hslashes⟩ := Text.exists_dropEndWhile (· == '/') path
  rw [stripped]
  split
  · exact .inl rfl
  · next hne =>
    refine .inr ⟨slashes, hsplit, fun c hc => beq_iff_eq.1 (hslashes c hc), ?_, fun hlast => ?_⟩
    · simpa using hne
    · simpa using Text.keeps_getLast_dropEndWhile (· == '/') path '/' hlast

theorem clean_root : Clean ['/'] := by
  refine ⟨by decide, by decide, by decide, ?_, ?_, fun _ => rfl⟩
  · rintro ⟨front, back, hsplit, -⟩
    have hlength := congrArg List.length hsplit
    simp only [List.length_append, List.length_cons, List.length_nil] at hlength
    omega
  · intro c hc
    obtain rfl : '/' = c := Option.some.inj hc
    decide

/-- A spelled path starts with no blank and ends with none. -/
theorem spelled_ends (raw : Chars) : (∀ c ∈ (spelled raw).head?, isBlank c = false) ∧
    ∀ c ∈ (spelled raw).getLast?, isBlank c = false := by
  have hreplaced : Replaced _ _ (trim raw) (spelled raw) := replaced_templateExpr (trim raw)
  have hnew : parameter ≠ [] := by decide
  constructor
  · intro c hc
    rcases hreplaced.head hnew hc with hc | hc
    · exact Text.isBlank_of_head_trim hc
    · obtain rfl : ':' = c := Option.some.inj hc
      decide
  · intro c hc
    rcases hreplaced.getLast hnew hc with hc | hc
    · exact Text.isBlank_of_getLast_trim hc
    · obtain rfl : 'm' = c := Option.some.inj hc
      decide

/-- Normalizing leaves a clean path: the root or a front part of the spelled path. -/
theorem clean_normalizeChars (raw : Chars) : Clean (normalizeChars raw) := by
  rw [normalizeChars_eq]
  rcases stripped_cases (cut (spelled raw)) with hroot | ⟨slashes, hsplit, -, hne, hslash⟩
  · rw [hroot]
    exact clean_root
  · have hcut : stripped (cut (spelled raw)) <+: cut (spelled raw) := ⟨slashes, hsplit.symm⟩
    have hfront : stripped (cut (spelled raw)) <+: spelled raw :=
      hcut.trans (List.takeWhile_prefix _)
    refine ⟨hne, ?_, ?_, ?_, ?_, fun hlast => absurd hlast hslash⟩
    · exact fun hmem => notMem_cut (by simp) _ (hcut.subset hmem)
    · exact fun hmem => notMem_cut (by simp) _ (hcut.subset hmem)
    · intro hexpr
      obtain ⟨more, hmore⟩ := hfront
      refine not_hasExpression_of_replaced (replaced_templateExpr (trim raw)) ?_
      have hwhole := hexpr.append [] more
      rw [List.nil_append, hmore] at hwhole
      exact hwhole
    · obtain ⟨more, hmore⟩ := hfront
      obtain ⟨c, rest, hpath⟩ := List.exists_cons_of_ne_nil hne
      rw [hpath]
      intro d hd
      obtain rfl : c = d := Option.some.inj hd
      refine (spelled_ends raw).1 c ?_
      rw [← hmore, hpath]
      rfl

/-- Normalizing a clean path trims it and strips slashes. -/
theorem Clean.normalizeChars (h : Clean path) : normalizeChars path = stripped (trim path) := by
  obtain ⟨front, back, hsplit, -, -⟩ := Text.exists_trim path
  have hspelled : spelled path = trim path := by
    refine replaceAll_eq_self fun hexpr => h.noExpression ?_
    rw [hsplit]
    exact hexpr.append front back
  have hcut : cut (trim path) = trim path := by
    refine List.takeWhile_eq_self_iff.2 fun c hc => ?_
    have hmem : c ∈ path := by
      rw [hsplit]
      exact List.mem_append_left _ (List.mem_append_right _ hc)
    have hquery : c ≠ '?' := fun heq => h.noQuery (heq ▸ hmem)
    have hfragment : c ≠ '#' := fun heq => h.noFragment (heq ▸ hmem)
    simp [hquery, hfragment]
  rw [normalizeChars_eq, hspelled, hcut]

/-- A clean path is settled exactly if it ends with no blank. -/
theorem Clean.normalizeChars_eq_self_iff (h : Clean path) :
    Route.normalizeChars path = path ↔ ∀ c ∈ path.getLast?, isBlank c = false := by
  rw [h.normalizeChars, ← Text.trim_eq_self_iff h.noBlank]
  constructor
  · intro hsettled
    rcases stripped_cases (trim path) with hroot | ⟨slashes, hsplit, -⟩
    · rw [← hsettled, hroot]
      decide
    · -- trimming makes nothing longer, and stripping nothing that is as long
      obtain ⟨front, back, htrim, -, -⟩ := Text.exists_trim path
      rw [hsettled] at hsplit
      have hlength := congrArg List.length htrim
      have hlength' := congrArg List.length hsplit
      simp only [List.length_append] at hlength hlength'
      have hnil : slashes = [] := List.length_eq_zero_iff.1 (by omega)
      rw [hsplit, hnil, List.append_nil]
  · intro htrim
    rw [htrim, stripped]
    by_cases hroot : path = ['/']
    · rw [hroot]
      decide
    · have hkept : dropEndWhile (· == '/') path = path := by
        refine Text.dropEndWhile_eq_self_iff.2 fun c hc => ?_
        rw [beq_eq_false_iff_ne]
        rintro rfl
        exact hroot (h.noSlash hc)
      rw [hkept, if_neg (by simpa using h.nonempty)]

/-- A blank at the end was inside of the spelled path, in front of a slash, a query or a
fragment. -/
theorem exists_mark_of_blank {raw : Chars} {c : Char} (hc : c ∈ (normalizeChars raw).getLast?)
    (hblank : isBlank c = true) :
    ∃ mark ∈ ['/', '?', '#'], ∃ more, spelled raw = normalizeChars raw ++ mark :: more := by
  obtain ⟨rest, hrest, hmark⟩ := exists_cut (spelled raw)
  rw [normalizeChars_eq] at hc ⊢
  rcases stripped_cases (cut (spelled raw)) with hroot | ⟨slashes, hsplit, hslashes, -, -⟩
  · rw [hroot] at hc
    obtain rfl : '/' = c := Option.some.inj hc
    exact absurd hblank (by decide)
  · cases slashes with
    | cons d slashes =>
      obtain rfl := hslashes d List.mem_cons_self
      refine ⟨'/', by simp, slashes ++ rest, ?_⟩
      rw [← List.cons_append, ← List.append_assoc, ← hsplit, ← hrest]
    | nil =>
      rw [List.append_nil] at hsplit
      rw [← hsplit] at hc ⊢
      cases rest with
      | nil =>
        rw [List.append_nil] at hrest
        rw [← hrest] at hc
        exact absurd ((spelled_ends raw).2 c hc) (by simp [hblank])
      | cons mark more => exact ⟨mark, List.mem_cons_of_mem _ (hmark mark rfl), more, hrest⟩

/-- **Normalized paths are normal up to blanks at their end.** For every path the normalized path is
not empty, holds no query, no fragment and no whole expression, starts with no blank and ends with
no slash unless it is the root. Normalizing it again leaves it as it is exactly if it ends with no
blank; such a blank stood in front of a slash, a query or a fragment. -/
theorem normalize_settled_iff (raw : String) :
    let path := normalize raw
    Clean path.toList ∧
      (normalize path = path ↔ ∀ c ∈ path.toList.getLast?, isBlank c = false) ∧
      ∀ c ∈ path.toList.getLast?, isBlank c = true →
        ∃ mark ∈ ['/', '?', '#'], ∃ more, spelled raw.toList = path.toList ++ mark :: more := by
  intro path
  have hpath : path.toList = normalizeChars raw.toList := by simp [path, normalize]
  have hclean : Clean path.toList := hpath ▸ clean_normalizeChars raw.toList
  refine ⟨hclean, ?_, ?_⟩
  · rw [← hclean.normalizeChars_eq_self_iff, ← String.toList_inj, normalize, String.toList_ofList]
  · rw [hpath]
    exact fun c hc hblank => exists_mark_of_blank hc hblank

/-- A blank in front of a query is left at the end, and normalizing again takes it away. -/
theorem blank_left_by_query : normalize "/a ?x" = "/a " ∧ normalize "/a " = "/a" := by
  have hspelled : spelled "/a ?x".toList = "/a ?x".toList :=
    spelled_eq_self (by decide) (by decide)
  constructor
  · rw [normalize, normalizeChars_eq, hspelled]
    decide
  · decide

end ArchGraph.Route
