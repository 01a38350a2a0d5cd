import ArchGraph.Proofs.Pattern.Leads
/-!
# What a pattern spells

A pattern that asks nothing about its place is matched by the same characters wherever these stand:
it leads from a place exactly behind the texts that it spells (`Pattern.leads_iff_spells`). Where it
has a match therefore shows in the text. A search for all matches leaves out matches that start
inside of another one, and only these: if a character opens what a pattern spells and does not come
back in it, each place where the pattern matches is found (`Pattern.mem_all_of_mark`).
-/

namespace ArchGraph

open Text (Chars)

namespace Pattern

/-! ## Runs of a class -/

theorem takeWhile_append_of_exists {α : Type} {accepts : α → Bool} {taken : List α}
    (h : ∃ a ∈ taken, accepts a = false) (rest : List α) :
    (taken ++ rest).takeWhile accepts = taken.takeWhile accepts := by
  rw [List.takeWhile_append, if_neg]
  intro hlength
  obtain ⟨a, ha, hnot⟩ := h
  rw [← (List.takeWhile_prefix accepts).eq_of_length hlength] at ha
  rw [List.mem_takeWhile_imp ha] at hnot
  cases hnot

section

variable {accepts : Char → Bool} {taken rest : Chars}

theorem takeWhile_append_of_stop (htaken : ∀ c ∈ taken, accepts c = true)
    (hrest : rest.head?.any accepts = false) : (taken ++ rest).takeWhile accepts = taken := by
  rw [List.takeWhile_append_of_pos htaken]
  cases rest with
  | nil => simp
  | cons c rest =>
    rw [List.takeWhile_cons_of_neg (by simpa using hrest), List.append_nil]

/-- A text is split at the end of a run of characters of a class in one way. -/
theorem eq_of_append_eq {taken' rest' : Chars} (h : taken ++ rest = taken' ++ rest')
    (htaken : ∀ c ∈ taken, accepts c = true) (htaken' : ∀ c ∈ taken', accepts c = true)
    (hrest : rest.head?.any accepts = false) (hrest' : rest'.head?.any accepts = false) :
    taken = taken' ∧ rest = rest' := by
  have hrun := congrArg (List.takeWhile accepts) h
  rw [takeWhile_append_of_stop htaken hrest, takeWhile_append_of_stop htaken' hrest'] at hrun
  subst hrun
  exact ⟨rfl, List.append_cancel_left h⟩

end

/-! ## Spellings -/

/-- Whether a pattern asks nothing about places. -/
def placeless : Pattern → Bool
  | look _ => false
  | nothing | one _ | many .. | few _ => true
  | seq first second | alt first second => first.placeless && second.placeless
  | opt body | group _ body => body.placeless

/-- The texts that a pattern is matched by, if it asks nothing about places. -/
def Spells : Pattern → Chars → Prop
  | nothing, text | look _, text => text = []
  | one accepts, text => ∃ c, text = [c] ∧ accepts c = true
  | many accepts least, text => (∀ c ∈ text, accepts c = true) ∧ least ≤ text.length
  | few accepts, text => ∀ c ∈ text, accepts c = true
  | seq first second, text => ∃ front back, text = front ++ back ∧ first.Spells front ∧
      second.Spells back
  | alt first second, text => first.Spells text ∨ second.Spells text
  | opt body, text => body.Spells text ∨ text = []
  | group _ body, text => body.Spells text

theorem eq_iff_behind_nil {s t : Cursor} : t = s ↔
    ∃ taken rest, s.rest = taken ++ rest ∧ taken = [] ∧ t = s.behind taken rest := by
  constructor
  · rintro rfl
    exact ⟨[], t.rest, rfl, rfl, rfl⟩
  · rintro ⟨_, rest, hrest, rfl, rfl⟩
    obtain rfl : s.rest = rest := hrest
    rfl

/-- **Patterns spell texts.** A pattern that asks nothing about places leads behind what it
spells. -/
theorem leads_iff_spells : ∀ {p : Pattern} {s t : Cursor}, p.placeless = true →
    (p.Leads s t ↔ ∃ taken rest, s.rest = taken ++ rest ∧ p.Spells taken ∧ t = s.behind taken rest)
  | nothing, _, _, _ => eq_iff_behind_nil
  | one accepts, s, t, _ => by
    constructor
    · rintro ⟨c, rest, hrest, hc, rfl⟩
      exact ⟨[c], rest, hrest, ⟨c, rfl, hc⟩, rfl⟩
    · rintro ⟨_, rest, hrest, ⟨c, rfl, hc⟩, rfl⟩
      exact ⟨c, rest, hrest, hc, rfl⟩
  | many _ _, _, _, _ => by simp only [Leads, Spells, and_assoc]
  | few _, _, _, _ => Iff.rfl
  | seq first second, s, t, hp => by
    obtain ⟨hfirst, hsecond⟩ := Bool.and_eq_true_iff.1 hp
    constructor
    · rintro ⟨between, h, h'⟩
      obtain ⟨front, rest, hrest, hfront, rfl⟩ := (leads_iff_spells hfirst).1 h
      obtain ⟨back, rest', hrest', hback, rfl⟩ := (leads_iff_spells hsecond).1 h'
      obtain rfl : rest = back ++ rest' := hrest'
      refine ⟨front ++ back, rest', ?_, ⟨front, back, rfl, hfront, hback⟩, ?_⟩
      · rw [hrest, List.append_assoc]
      · rw [Cursor.behind_behind]
    · rintro ⟨_, rest, hrest, ⟨front, back, rfl, hfront, hback⟩, rfl⟩
      rw [List.append_assoc] at hrest
      refine ⟨s.behind front (back ++ rest), ?_, ?_⟩
      · exact (leads_iff_spells hfirst).2 ⟨front, back ++ rest, hrest, hfront, rfl⟩
      · refine (leads_iff_spells hsecond).2 ⟨back, rest, rfl, hback, ?_⟩
        rw [Cursor.behind_behind]
  | alt first second, s, t, hp => by
    obtain ⟨hfirst, hsecond⟩ := Bool.and_eq_true_iff.1 hp
    simp only [Leads, Spells, leads_iff_spells hfirst, leads_iff_spells hsecond, or_and_right,
      and_or_left, exists_or]
  | opt body, s, t, hp => by
    have hbody : body.placeless = true := hp
    simp only [Leads, Spells, leads_iff_spells hbody, or_and_right, and_or_left, exists_or,
      @eq_iff_behind_nil s]
  | group _ body, s, t, hp => leads_iff_spells (p := body) hp

section

variable {text : Chars}

theorem spells_concat_cons {p : Pattern} {ps : List Pattern} : (concat (p :: ps)).Spells text ↔
    ∃ front back, text = front ++ back ∧ p.Spells front ∧ (concat ps).Spells back := by
  cases ps with
  | nil => simp [concat, Spells]
  | cons q ps => exact Iff.rfl

theorem spells_chars : ∀ {cs text : Chars}, (concat (cs.map char)).Spells text ↔ text = cs
  | [], _ => Iff.rfl
  | c :: cs, text => by
    rw [List.map_cons, spells_concat_cons]
    simp only [spells_chars, char, Spells, beq_iff_eq]
    constructor
    · rintro ⟨_, _, rfl, ⟨d, rfl, rfl⟩, rfl⟩
      rfl
    · rintro rfl
      exact ⟨[c], cs, rfl, ⟨c, rfl, rfl⟩, rfl⟩

/-- A literal spells its characters. -/
@[simp] theorem spells_lit {literal : String} : (lit literal).Spells text ↔ text = literal.toList :=
  spells_chars

end

section

variable {p : Pattern} {s : Cursor} {taken rest : Chars}

theorem spells_of_leads_behind (hp : p.placeless = true) (hrest : s.rest = taken ++ rest)
    (h : p.Leads s (s.behind taken rest)) : p.Spells taken := by
  obtain ⟨taken', rest', hrest', htaken, hbehind⟩ := (leads_iff_spells hp).1 h
  obtain rfl : rest = rest' := congrArg Cursor.rest hbehind
  rwa [List.append_cancel_right (hrest.symm.trans hrest')]

end

theorem placeless_chars : ∀ cs : Chars, (concat (cs.map char)).placeless = true
  | [] => rfl
  | [_] => rfl
  | _ :: d :: cs => placeless_chars (d :: cs)

@[simp] theorem placeless_lit (literal : String) : (lit literal).placeless = true :=
  placeless_chars _

/-! ## Matches -/

/-- What a match takes is spelt by the pattern. -/
theorem spells_of_matchAt? {p : Pattern} {s : Cursor} {m : Match} (hp : p.placeless = true)
    (h : p.matchAt? s = some m) :
    ∃ taken rest, s.rest = taken ++ rest ∧ p.Spells taken ∧ m.stop = s.offset + taken.length := by
  obtain ⟨t, more, hleads, -, hfound⟩ := exists_leads_of_run p h
  obtain ⟨taken, rest, hrest, htaken, rfl⟩ := (leads_iff_spells hp).1 hleads
  obtain rfl := Option.some.inj hfound
  exact ⟨taken, rest, hrest, htaken, rfl⟩

/-- What a group takes is spelt by its body, between what is spelt in front of it and behind it. -/
theorem spells_of_group {lead body tail : Pattern} {index : Nat} {s : Cursor} {m : Match}
    (hlead : lead.placeless = true) (hbody : body.placeless = true) (htail : tail.placeless = true)
    (hindex : index ∉ tail.indices) (h : (lead ++ group index body ++ tail).matchAt? s = some m) :
    ∃ opened closed rest, s.rest = opened ++ ((m.text index).toList ++ (closed ++ rest)) ∧
      lead.Spells opened ∧ body.Spells (m.text index).toList ∧ tail.Spells closed := by
  obtain ⟨t, taken, rest, u, hopens, hrest, htakes, hcloses, -, rfl, -⟩ := exists_of_group hindex h
  obtain ⟨opened, rest', hsplit, hopened, rfl⟩ := (leads_iff_spells hlead).1 hopens
  obtain ⟨closed, rest'', hrest'', hclosed, -⟩ := (leads_iff_spells htail).1 hcloses
  obtain rfl : rest' = (m.text index).toList ++ rest := hrest
  obtain rfl : rest = closed ++ rest'' := hrest''
  exact ⟨opened, closed, rest'', hsplit, hopened, spells_of_leads_behind hbody rfl htakes, hclosed⟩

/-- A pattern matches in front of what it spells. -/
theorem exists_match_of_spells {p : Pattern} {taken : Chars} (front rest : Chars)
    (hp : p.placeless = true) (h : p.Spells taken) :
    ∃ s m, Cursor.Stands (front ++ (taken ++ rest)) front s ∧ s.rest = taken ++ rest ∧
      p.matchAt? s = some m := by
  let s := (Cursor.start (front ++ (taken ++ rest))).behind front (taken ++ rest)
  have hleads : p.Leads s (s.behind taken rest) :=
    (leads_iff_spells hp).2 ⟨taken, rest, rfl, h, rfl⟩
  obtain ⟨m, hm⟩ := Option.isSome_iff_exists.1 (isSome_matchAt?_iff.2 ⟨_, hleads⟩)
  exact ⟨s, m, (Cursor.stands_start _).behind rfl, rfl, hm⟩

/-! ## All matches -/

/-- A match is found if no match in front of it reaches behind its start. -/
theorem mem_allFrom {p : Pattern} {m : Match} : ∀ {front rest : Chars} {resume : Nat}
    {previous : Option Char} {offset : Nat},
    p.matchAt? (Cursor.behind ⟨previous, offset, front ++ rest⟩ front rest) = some m →
    resume ≤ offset + front.length →
    (∀ before after m', front = before ++ after → after ≠ [] →
      p.matchAt? (Cursor.behind ⟨previous, offset, front ++ rest⟩ before (after ++ rest)) =
        some m' → m'.stop ≤ offset + front.length) →
    m ∈ p.allFrom resume previous offset (front ++ rest)
  | [], rest, resume, previous, offset, hmatch, hresume, _ => by
    have hmatch : p.matchAt? ⟨previous, offset, rest⟩ = some m := hmatch
    have hresume : ¬offset < resume := Nat.not_lt.2 hresume
    cases rest with
    | nil => simp [allFrom, hresume, hmatch]
    | cons c rest => simp [allFrom, hresume, hmatch]
  | c :: front, rest, resume, previous, offset, hmatch, hresume, hapart => by
    have hbehind (before after : Chars) :
        Cursor.behind ⟨previous, offset, c :: front ++ rest⟩ (c :: before) after =
          Cursor.behind ⟨some c, offset + 1, front ++ rest⟩ before after :=
      (Cursor.behind_behind ⟨previous, offset, c :: front ++ rest⟩ [c] before _ after).symm
    have hlength : offset + (c :: front).length = offset + 1 + front.length := by
      rw [List.length_cons]
      omega
    -- behind the first character nothing changes, whatever the search resumes at
    have later {resume' : Nat} (h : resume' ≤ offset + 1 + front.length) :
        m ∈ p.allFrom resume' (some c) (offset + 1) (front ++ rest) := by
      refine mem_allFrom (hbehind front rest ▸ hmatch) h fun before after m' hsplit hafter hm' => ?_
      rw [← hlength]
      exact hapart (c :: before) after m' (congrArg (c :: ·) hsplit) hafter (hbehind before _ ▸ hm')
    rw [hlength] at hresume
    rw [List.cons_append, allFrom]
    split
    · exact later hresume
    · split
      · next found hfound =>
        refine List.mem_cons_of_mem _ (later ?_)
        have hstop := hapart [] (c :: front) found rfl (List.cons_ne_nil _ _) hfound
        rw [hlength] at hstop
        exact Nat.max_le.2 ⟨hstop, Nat.le_add_right _ _⟩
      · exact later hresume

/-- **All matches are found.** If a character opens what a pattern spells and does not come back in
it, no match starts inside of another one. -/
theorem mem_all_of_mark {p : Pattern} {mark : Char} (hp : p.placeless = true)
    (hmark : ∀ taken, p.Spells taken → ∃ inner, taken = mark :: inner ∧ mark ∉ inner)
    {text front : Chars} {s : Cursor} (hs : s.Stands text front) {m : Match}
    (h : p.matchAt? s = some m) : m ∈ p.all text := by
  obtain ⟨opened, behind, hopened, hspells, -⟩ := spells_of_matchAt? hp h
  obtain ⟨inner, rfl, -⟩ := hmark opened hspells
  rw [all, hs.split]
  refine mem_allFrom ?_ (Nat.zero_le _) fun before after m' hsplit hafter hm' => ?_
  · rw [hs.eq_behind, hs.split] at h
    exact h
  · obtain ⟨taken, rest, hrest, htaken, hstop⟩ := spells_of_matchAt? hp hm'
    obtain ⟨inner', rfl, hinner⟩ := hmark taken htaken
    have hrest : after ++ s.rest = mark :: inner' ++ rest := hrest
    have hstop : m'.stop = 0 + before.length + (mark :: inner').length := hstop
    have hshort : (mark :: inner').length ≤ after.length := by
      rcases List.append_eq_append_iff.1 hrest with ⟨more, hmore, hopens⟩ | ⟨more, hmore, -⟩
      · -- the match would reach into the next one, whose mark it would hold
        cases more with
        | nil => rw [hmore, List.append_nil]
        | cons c more =>
          obtain rfl : mark = c := (List.cons.inj (hopened.symm.trans hopens)).1
          obtain ⟨d, after, rfl⟩ := List.exists_cons_of_ne_nil hafter
          rw [(List.cons.inj hmore).2] at hinner
          exact absurd (List.mem_append_right _ List.mem_cons_self) hinner
      · rw [hmore, List.length_append]
        exact Nat.le_add_right _ _
    rw [hstop, hsplit, List.length_append]
    omega

end Pattern
end ArchGraph
