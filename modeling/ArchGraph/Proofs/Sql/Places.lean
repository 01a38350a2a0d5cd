import ArchGraph.Proofs.Pattern.Leads
import ArchGraph.Proofs.Sql.Blanking
import ArchGraph.Sql.Migrations
import Mathlib.Data.List.Pairwise
/-!
# Where statements lie

The files of a script lie in it one behind the other, a line feed behind each (`laid_ofProject`).
A statement starts at a letter and ends right behind a semicolon or with the script
(`stated_of_mem_tables` and its siblings). So a statement that ends with a semicolon is placed in
the one file that holds all its characters but white space, if there is one
(`Migrations.Laid.traced`); a statement without its semicolon runs up to the end of the script, which
no file holds, and has no place.
-/

namespace ArchGraph.Sql

open Pattern
open Text (Chars isBlank isWord sameLetter)

/-! ## Files one behind the other -/

/-- The files of migrations lie in the script one behind the other, a line feed behind each. -/
structure Migrations.Laid (m : Migrations) : Prop where
  content : ∀ f ∈ m.files, Region.chars ⟨f.start, f.stop⟩ m.text = f.content
  within  : ∀ f ∈ m.files, f.stop < m.text.length
  ordered : m.files.Pairwise fun f g => f.stop < g.start
  ends    : m.text = [] ∨ m.text.getLast? = some '\n'
  opens   : ∀ f ∈ m.files, f.start = 0 ∨ m.text[f.start - 1]? = some '\n'

namespace Migrations

theorem laid_empty : Laid empty where
  content := by simp [empty]
  within := by simp [empty]
  ordered := .nil
  ends := .inl rfl
  opens := by simp [empty]

/-- A file that is appended lies behind the ones before. -/
theorem Laid.push {m : Migrations} (h : Laid m) (repo path : String) (content : Chars) :
    Laid (m.push repo path content) := by
  have hlength : (m.push repo path content).text.length =
      m.text.length + content.length + 1 := by
    unfold Migrations.push
    rw [List.length_append, List.length_append, List.length_singleton]
  constructor
  · intro f hf
    rcases List.mem_append.1 hf with hf | hf
    · have hwithin := h.within f hf
      have htake : (m.push repo path content).text.take f.stop = m.text.take f.stop := by
        unfold Migrations.push
        rw [List.append_assoc, List.take_append_of_le_length (by omega)]
      unfold Region.chars
      rw [htake]
      exact h.content f hf
    · obtain rfl := List.mem_singleton.1 hf
      have htake : (m.push repo path content).text.take (m.text.length + content.length) =
          m.text ++ content := by
        unfold Migrations.push
        rw [← List.length_append, List.take_left]
      unfold Region.chars MigrationFile.stop
      rw [htake, List.drop_left]
  · intro f hf
    rw [hlength]
    rcases List.mem_append.1 hf with hf | hf
    · have hwithin := h.within f hf
      omega
    · obtain rfl := List.mem_singleton.1 hf
      exact Nat.lt_succ_self _
  · refine List.pairwise_append.2 ⟨h.ordered, List.pairwise_singleton _ _, ?_⟩
    intro f hf g hg
    obtain rfl := List.mem_singleton.1 hg
    exact h.within f hf
  · right
    simp [Migrations.push]
  · intro f hf
    unfold Migrations.push
    rcases List.mem_append.1 hf with hf | hf
    · have hwithin := h.within f hf
      unfold MigrationFile.stop at hwithin
      rw [List.append_assoc, List.getElem?_append_left (by omega)]
      exact h.opens f hf
    · obtain rfl := List.mem_singleton.1 hf
      rcases h.ends with hnil | hlast
      · exact .inl (List.length_eq_zero_iff.2 hnil)
      · have hpos : m.text ≠ [] := by
          intro hnil
          simp [hnil] at hlast
        have hlt : m.text.length - 1 < m.text.length :=
          Nat.sub_lt (List.length_pos_iff.2 hpos) Nat.one_pos
        rw [List.append_assoc, List.getElem?_append_left hlt, ← List.getLast?_eq_getElem?]
        exact .inr hlast

theorem laid_foldl {α : Type} {step : Migrations → α → Migrations}
    (hstep : ∀ m a, Laid m → Laid (step m a)) {m : Migrations} (as : List α) (h : Laid m) :
    Laid (as.foldl step m) := by
  induction as generalizing m with
  | nil => exact h
  | cons a as ih => exact ih (hstep m a h)

/-- The migrations of a project lie one behind the other. -/
theorem laid_ofProject (p : Project) : Laid (ofProject p) := by
  apply laid_foldl _ _ laid_empty
  intro m r hm
  apply laid_foldl _ _ hm
  intro m file hm
  exact hm.push _ _ _

/-- The files of the migrations are files of the project. -/
theorem content_of_mem_files {p : Project} {f : MigrationFile} (hf : f ∈ (ofProject p).files) :
    ∃ r ∈ p.repositories, ∃ content, p.content? r f.path = some content ∧
      f.content = content.toList := by
  have hall : ∀ f ∈ (ofProject p).files, ∃ r ∈ p.repositories, ∃ content,
      p.content? r f.path = some content ∧ f.content = content.toList := by
    unfold ofProject
    apply List.foldlRecOn (motive := fun m : Migrations => ∀ f ∈ m.files, ∃ r ∈ p.repositories,
      ∃ content, p.content? r f.path = some content ∧ f.content = content.toList)
    · intro f hf
      cases hf
    · intro m hm r hr
      apply List.foldlRecOn (motive := fun m : Migrations => ∀ f ∈ m.files, ∃ r ∈ p.repositories,
        ∃ content, p.content? r f.path = some content ∧ f.content = content.toList)
      · exact hm
      · intro m hm file hfile f hf
        rcases List.mem_append.1 hf with hf | hf
        · exact hm f hf
        · obtain ⟨path, -, hread⟩ := List.mem_filterMap.1 hfile
          obtain ⟨content, hcontent, rfl⟩ := Option.map_eq_some_iff.1 hread
          rw [List.mem_singleton.1 hf]
          exact ⟨r, hr, content, hcontent, rfl⟩
  exact hall f hf

/-- A place lies in one file, its line feed included. -/
theorem Laid.unique {m : Migrations} (h : Laid m) {f g : MigrationFile} (hf : f ∈ m.files)
    (hg : g ∈ m.files) {place : Nat} (hstart : f.start ≤ place) (hstop : place ≤ f.stop)
    (hstart' : g.start ≤ place) (hstop' : place ≤ g.stop) : f = g := by
  let Apart (f g : MigrationFile) : Prop := f.stop < g.start ∨ g.stop < f.start
  have hsymm : Std.Symm Apart := ⟨fun _ _ => Or.symm⟩
  have happart : m.files.Pairwise Apart := h.ordered.imp Or.inl
  by_contra hne
  rcases happart.forall hf hg hne with hlt | hlt
  · omega
  · omega

end Migrations

/-! ## Parts and files -/

/-- A part of a part is a part. -/
theorem Region.chars_chars {text : Chars} {outer inner : Region}
    (h : outer.start + inner.stop ≤ outer.stop) : inner.chars (outer.chars text) =
      Region.chars ⟨outer.start + inner.start, outer.start + inner.stop⟩ text := by
  unfold Region.chars
  rw [List.take_drop, List.drop_drop, List.take_take, Nat.min_eq_left h]

/-- All characters of a part but white space lie in a file. -/
def LiesIn (text : Chars) (r : Region) (f : MigrationFile) : Prop :=
  ∀ place c, r.start ≤ place → place < r.stop → text[place]? = some c → isBlank c = false →
    f.start ≤ place ∧ place < f.stop

/-- A part ends with a semicolon. -/
def Ended (text : Chars) (r : Region) : Prop := (r.chars text).getLast? = some ';'

/-- A part that is a statement: it starts at a character that is no white space, and ends behind a
semicolon or with the script. -/
structure Stated (text : Chars) (r : Region) : Prop where
  opens : ∃ c, text[r.start]? = some c ∧ isBlank c = false
  lt    : r.start < r.stop
  le    : r.stop ≤ text.length
  stop  : text[r.stop - 1]? = some ';' ∨ r.stop = text.length

theorem Stated.ended_iff {text : Chars} {r : Region} (h : Stated text r) :
    Ended text r ↔ text[r.stop - 1]? = some ';' := by
  have hlt := h.lt
  have hle := h.le
  have hlast : r.stop - r.start - 1 + r.start = r.stop - 1 := by omega
  have hlength : (r.chars text).length - 1 = r.stop - r.start - 1 := by
    unfold Region.chars
    rw [List.length_drop, List.length_take]
    omega
  unfold Ended
  rw [List.getLast?_eq_getElem?, hlength]
  unfold Region.chars
  rw [List.getElem?_drop, Nat.add_comm, hlast, List.getElem?_take_of_lt (by omega)]

namespace Migrations

variable {m : Migrations} {r : Region} {f : MigrationFile}

/-- **When a file holds a statement.** All its characters but white space lie in the file and it
ends with a semicolon exactly if it lies between the ends of the file. -/
theorem Laid.liesIn_iff (hm : Laid m) (hr : Stated m.text r) (hf : f ∈ m.files) :
    LiesIn m.text r f ∧ Ended m.text r ↔ f.start ≤ r.start ∧ r.stop ≤ f.stop := by
  have hlt := hr.lt
  rw [hr.ended_iff]
  constructor
  · rintro ⟨hlies, hlast⟩
    obtain ⟨c, hc, hblank⟩ := hr.opens
    have hfirst := hlies r.start c (Nat.le_refl _) hlt hc hblank
    have hend := hlies (r.stop - 1) ';' (by omega) (by omega) hlast (by decide)
    omega
  · rintro ⟨hstart, hstop⟩
    constructor
    · intro place c hplace hplace' _ _
      omega
    · have hwithin := hm.within f hf
      rcases hr.stop with hlast | hall
      · exact hlast
      · omega

theorem Laid.locate?_eq (hm : Laid m) (hf : f ∈ m.files) (hstart : f.start ≤ r.start)
    (hle : r.start ≤ f.stop) : m.locate? r = if f.stop < r.stop then none
      else some ⟨f.repo, f.path, Text.lineAt f.content (r.start - f.start),
        Text.lineAt f.content (r.stop - f.start)⟩ := by
  have hfind : (m.files.find? fun f => f.start ≤ r.start && r.start ≤ f.stop) = some f := by
    cases hfound : m.files.find? fun f => f.start ≤ r.start && r.start ≤ f.stop with
    | none =>
      have hnot := List.find?_eq_none.1 hfound f hf
      simp [hstart, hle] at hnot
    | some g =>
      have hg := List.find?_some hfound
      simp only [Bool.and_eq_true, decide_eq_true_eq] at hg
      rw [hm.unique hf (List.mem_of_find?_eq_some hfound) hstart hle hg.1 hg.2]
  unfold locate?
  rw [hfind]
  rfl

/-- A part that has a place lies in the file of its place. -/
theorem exists_of_locate? {place : Location} (h : m.locate? r = some place) :
    ∃ f ∈ m.files, f.start ≤ r.start ∧ r.start ≤ f.stop ∧ r.stop ≤ f.stop ∧ place.path = f.path ∧
      place.lineStart = Text.lineAt f.content (r.start - f.start) := by
  unfold locate? at h
  obtain ⟨f, hfound, hplace⟩ := Option.bind_eq_some_iff.1 h
  have hstart := List.find?_some hfound
  simp only [Bool.and_eq_true, decide_eq_true_eq] at hstart
  split at hplace
  · cases hplace
  · next hstop =>
    obtain rfl := Option.some.inj hplace
    exact ⟨f, List.mem_of_find?_eq_some hfound, hstart.1, hstart.2, Nat.le_of_not_lt hstop, rfl, rfl⟩

theorem locate?_eq_none (h : ∀ f ∈ m.files, ¬(f.start ≤ r.start ∧ r.stop ≤ f.stop)) :
    m.locate? r = none := by
  unfold locate?
  cases hfound : m.files.find? fun f => f.start ≤ r.start && r.start ≤ f.stop with
  | none => rfl
  | some f =>
    have hf := List.find?_some hfound
    simp only [Bool.and_eq_true, decide_eq_true_eq] at hf
    have hnot := h f (List.mem_of_find?_eq_some hfound)
    have hlt : f.stop < r.stop := by omega
    simp [hlt]

/-- **Where a statement is placed.** A statement has a place exactly if it ends with a semicolon and
a file holds all its characters but white space, and then the file is its place. -/
theorem Laid.traced (hm : Laid m) (hr : Stated m.text r) : ∃ f? : Option MigrationFile,
    (∀ f, f ∈ f? ↔ f ∈ m.files ∧ LiesIn m.text r f ∧ Ended m.text r) ∧
      (m.locate? r).map (·.path) = f?.map (·.path) ∧ m.repoOf? r = f?.map (·.repo) := by
  have hlt := hr.lt
  by_cases h : ∃ f ∈ m.files, f.start ≤ r.start ∧ r.stop ≤ f.stop
  · obtain ⟨f, hf, hstart, hstop⟩ := h
    have hplace := hm.locate?_eq hf hstart (by omega)
    rw [if_neg (by omega)] at hplace
    refine ⟨some f, ?_, by rw [hplace]; rfl, by unfold repoOf?; rw [hplace]; rfl⟩
    intro g
    rw [Option.mem_some_iff]
    constructor
    · rintro rfl
      exact ⟨hf, (hm.liesIn_iff hr hf).2 ⟨hstart, hstop⟩⟩
    · rintro ⟨hg, hlies⟩
      obtain ⟨hstart', hstop'⟩ := (hm.liesIn_iff hr hg).1 hlies
      exact hm.unique hf hg hstart (by omega) hstart' (by omega)
  · have hnone : m.locate? r = none := by
      apply locate?_eq_none
      intro f hf hin
      exact h ⟨f, hf, hin⟩
    refine ⟨none, ?_, by rw [hnone]; rfl, by unfold repoOf?; rw [hnone]; rfl⟩
    intro f
    constructor
    · intro hf
      cases hf
    · rintro ⟨hf, hlies⟩
      exact absurd ⟨f, hf, (hm.liesIn_iff hr hf).1 hlies⟩ h

end Migrations

/-! ## Heads -/

/-- Wherever a pattern matches a character of a class comes first. -/
def Opens (p : Pattern) (accepts : Char → Bool) : Prop :=
  ∀ s t, p.Leads s t → ∃ c rest, s.rest = c :: rest ∧ accepts c = true

theorem Opens.append {p : Pattern} {accepts : Char → Bool} (h : Opens p accepts) (q : Pattern) :
    Opens (p ++ q) accepts := by
  rintro s t ⟨between, hp, -⟩
  exact h s between hp

theorem opens_concat {p : Pattern} {accepts : Char → Bool} (h : Opens p accepts)
    (ps : List Pattern) : Opens (concat (p :: ps)) accepts := by
  intro s t hleads
  obtain ⟨between, hp, -⟩ := leads_concat_cons.1 hleads
  exact h s between hp

theorem opens_one (accepts : Char → Bool) : Opens (one accepts) accepts := by
  rintro s t ⟨c, rest, hrest, hc, -⟩
  exact ⟨c, rest, hrest, hc⟩

/-- A phrase starts with the first letter of its first word. -/
theorem opens_phrase {s : String} {letter : Char} {word : Chars} {words : List Chars}
    (h : Text.words s.toList = (letter :: word) :: words) : Opens (phrase s) (sameLetter letter) := by
  have hkeyword : Opens (keyword (String.ofList (letter :: word))) (sameLetter letter) := by
    unfold keyword
    rw [String.toList_ofList, List.map_cons]
    exact opens_concat (opens_one _) _
  unfold phrase
  rw [h, List.map_cons]
  cases words with
  | nil => exact opens_concat hkeyword []
  | cons next words => exact opens_concat hkeyword _

theorem opens_edge {p : Pattern} {accepts : Char → Bool} (h : Opens p accepts) :
    Opens (edge ++ p) accepts := by
  rintro s t ⟨between, ⟨-, rfl⟩, hp⟩
  exact h _ t hp

theorem isBlank_of_sameLetter {c : Char} (h : sameLetter 'c' c = true) : isBlank c = false := by
  have hlower : c.toLower = 'c' := by simpa [sameLetter] using h
  unfold Char.toLower at hlower
  split at hlower
  · next hupper =>
    have hbounds : 65 ≤ c.toNat ∧ c.toNat ≤ 90 := hupper
    unfold isBlank
    simp
    omega
  · rw [hlower]
    decide

/-- The heads of statements that are declared start with the same letter. -/
theorem opens_heads : ∀ head ∈ [createTable, createPolicy, createFunction, createTrigger],
    Opens head (sameLetter 'c') := by
  have hwords : Text.words "create".toList = ['c', 'r', 'e', 'a', 't', 'e'] :: [] := by decide
  have hwords' : Text.words "create policy".toList =
      ['c', 'r', 'e', 'a', 't', 'e'] :: [['p', 'o', 'l', 'i', 'c', 'y']] := by decide
  have hcreate := opens_edge (opens_phrase hwords)
  have hpolicy := opens_edge (opens_phrase hwords')
  intro head hhead
  simp only [List.mem_cons, List.not_mem_nil, or_false] at hhead
  -- the letter comes before everything that is appended
  rcases hhead with rfl | rfl | rfl | rfl
  · unfold createTable
    repeat first | exact hcreate | apply Opens.append
  · unfold createPolicy
    repeat first | exact hpolicy | apply Opens.append
  · unfold createFunction
    repeat first | exact hcreate | apply Opens.append
  · unfold createTrigger
    repeat first | exact hcreate | apply Opens.append

/-- **Where a head stands.** The head of a statement lies in the text and starts at a character that
is no white space. -/
theorem stands_of_mem_all {head : Pattern}
    (hhead : head ∈ [createTable, createPolicy, createFunction, createTrigger]) {text : Chars}
    {m : Match} (h : m ∈ head.all text) :
    (∃ c, text[m.start]? = some c ∧ isBlank c = false) ∧ m.start ≤ m.stop := by
  obtain ⟨front, rest, htext, hmatch⟩ := exists_of_mem_allFrom h
  obtain ⟨hstart, hle⟩ := Pattern.start_le_stop hmatch
  obtain ⟨t, -, hleads, -⟩ := exists_leads_of_run head hmatch
  obtain ⟨c, rest', hrest, hc⟩ := opens_heads head hhead _ t hleads
  have hplace : m.start = front.length := by
    rw [hstart]
    exact Nat.zero_add _
  obtain rfl : rest = c :: rest' := hrest
  refine ⟨⟨c, ?_, isBlank_of_sameLetter hc⟩, hle⟩
  rw [hplace, htext]
  simp

/-! ## Statements of a schema -/

section

variable {text : Chars} {start place : Nat}

/-- A part that goes on to the end of a statement is one. -/
theorem stated_statementEnd (hopens : ∃ c, text[start]? = some c ∧ isBlank c = false)
    (hle : start ≤ place) : Stated text ⟨start, statementEnd text place⟩ := by
  have hlt : start < text.length := by
    obtain ⟨c, hc, -⟩ := hopens
    exact (List.getElem?_eq_some_iff.1 hc).1
  unfold statementEnd
  cases hsemicolon : semicolon? text place with
  | none => exact ⟨hopens, hlt, Nat.le_refl _, .inr rfl⟩
  | some stop =>
    obtain ⟨hbehind, hget⟩ := getElem?_of_semicolon? hsemicolon
    have hstop := (List.getElem?_eq_some_iff.1 hget).1
    exact ⟨hopens, by simp only; omega, hstop, .inl hget⟩

theorem le_matchingParen {close : Nat} (h : matchingParen? text place = some close) :
    place ≤ close := by
  obtain ⟨more, -, rfl⟩ := Option.map_eq_some_iff.1 h
  exact Nat.le_add_right _ _

variable {m : Match}

theorem stated_statementOf {head : Pattern}
    (hhead : head ∈ [createTable, createPolicy, createFunction, createTrigger])
    (h : m ∈ head.all text) : Stated text (statementOf text m) := by
  obtain ⟨hopens, hle⟩ := stands_of_mem_all hhead h
  exact stated_statementEnd hopens hle

/-- The text in front of the first semicolon ends at it, if there is one. -/
theorem getElem?_length_takeWhile : ∀ {text : Chars},
    (text.takeWhile (· != ';')).length < text.length →
      text[(text.takeWhile (· != ';')).length]? = some ';'
  | c :: text, h => by
    by_cases hc : c = ';'
    · simp [hc]
    · rw [List.takeWhile_cons_of_pos (by simpa using hc)] at h ⊢
      exact getElem?_length_takeWhile (Nat.lt_of_succ_lt_succ h)

/-- A function without a body ends behind the next semicolon, comments or not. -/
theorem stated_plainEnd (hopens : ∃ c, text[start]? = some c ∧ isBlank c = false)
    (hle : start ≤ place) : Stated text ⟨start,
      min (place + ((text.drop place).takeWhile (· != ';')).length + 1) text.length⟩ := by
  have hlt : start < text.length := by
    obtain ⟨c, hc, -⟩ := hopens
    exact (List.getElem?_eq_some_iff.1 hc).1
  have hhead := (List.takeWhile_prefix (p := (· != ';')) (l := text.drop place)).length_le
  refine ⟨hopens, by simp only; omega, by simp only; omega, ?_⟩
  simp only
  rcases Nat.lt_or_eq_of_le hhead with hsemicolon | hall
  · have hget := getElem?_length_takeWhile hsemicolon
    rw [List.getElem?_drop] at hget
    have hstop := (List.getElem?_eq_some_iff.1 hget).1
    left
    rw [Nat.min_eq_left hstop]
    exact hget
  · rw [List.length_drop] at hall
    right
    omega

theorem stated_of_function? {f : Function} (hm : m ∈ createFunction.all text)
    (h : function? text m = some f) : Stated text f.region := by
  obtain ⟨hopens, hle⟩ := stands_of_mem_all (by simp) hm
  unfold function? at h
  obtain ⟨argsEnd, hargs, h⟩ := Option.bind_eq_some_iff.1 h
  obtain ⟨body?, hbody, h⟩ := Option.bind_eq_some_iff.1 h
  have hargs := le_matchingParen hargs
  obtain rfl := Option.some.inj h
  cases body? with
  | none => exact stated_plainEnd hopens (by omega)
  | some body =>
    have hbehind : argsEnd ≤ body.stop := by
      unfold dollarBody? at hbody
      simp only at hbody
      split at hbody
      · split at hbody
        · obtain ⟨cut, -, hcut⟩ := Option.map_eq_some_iff.1 hbody
          obtain rfl := Option.some.inj hcut
          simp only
          omega
        · cases Option.some.inj hbody
      · cases Option.some.inj hbody
    exact stated_statementEnd hopens (by omega)

end

/-! ## Schemas -/

section

variable {text : Chars}

/-- Tables are statements. Alterations add columns to them and leave their parts of the script. -/
theorem stated_of_mem_tables {t : Table} (ht : t ∈ (Schema.ofScript text).tables) :
    Stated text t.region := by
  revert t
  apply Schema.forall_mem_tables
  · intro m hm close hclose
    obtain ⟨hopens, hle⟩ := stands_of_mem_all (by simp) hm
    have hclose := le_matchingParen hclose
    exact stated_statementEnd hopens (by omega)
  · intro m _ t ht
    exact ht

theorem stated_of_mem_policies {policy : Policy} (h : policy ∈ (Schema.ofScript text).policies) :
    Stated text policy.region := by
  have hadded : ∀ policy ∈ (createPolicy.all text).foldl (addPolicy text) [],
      Stated text policy.region := by
    apply List.foldlRecOn (motive := fun found : List Policy => ∀ policy ∈ found,
      Stated text policy.region)
    · intro policy hpolicy
      cases hpolicy
    · intro found hfound m hm policy hpolicy
      unfold addPolicy at hpolicy
      extract_lets declared at hpolicy
      split at hpolicy
      · exact hfound policy hpolicy
      · rcases List.mem_append.1 hpolicy with hpolicy | hpolicy
        · exact hfound policy hpolicy
        · rw [List.mem_singleton.1 hpolicy]
          exact stated_statementOf (by simp) hm
  exact hadded policy h

theorem stated_of_mem_functions {f : Function} (h : f ∈ (Schema.ofScript text).functions) :
    Stated text f.region := by
  have hadded : ∀ f ∈ ((createFunction.all text).foldl (addFunction text) ([], [])).1,
      Stated text f.region := by
    apply List.foldlRecOn (motive := fun found : List Function × List String =>
      ∀ f ∈ found.1, Stated text f.region)
    · intro f hf
      cases hf
    · intro found hfound m hm f hf
      unfold addFunction at hf
      simp only at hf
      split at hf
      · exact hfound f hf
      · split at hf
        · next f' hf' =>
          rcases List.mem_append.1 hf with hf | hf
          · exact hfound f hf
          · rw [List.mem_singleton.1 hf]
            exact stated_of_function? hm hf'
        · exact hfound f hf
  exact hadded f h

theorem stated_of_mem_triggers {t : Trigger} (h : t ∈ (Schema.ofScript text).triggers) :
    Stated text t.region := by
  obtain ⟨m, hm, rfl⟩ := List.mem_map.1 h
  exact stated_statementOf (by simp) hm

end

end ArchGraph.Sql
