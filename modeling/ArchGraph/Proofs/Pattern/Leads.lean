import ArchGraph.Proofs.Pattern.Run
/-!
# Where a pattern leads

The matcher hands each way to match on to what stands behind and takes the first that succeeds.
Which ways there are can be said without an order: a pattern leads from one place to another
(`Pattern.Leads`). Main statement: a pattern matches at a place exactly if it leads somewhere from
there (`Pattern.isSome_matchAt?_iff`), so that neither the order of preference nor the hand-over
decides whether there is a match. Where there is one, its groups hold what their bodies lead over
(`Pattern.exists_of_group`).
-/

namespace ArchGraph

open Text (Chars)

/-! ## Repetition -/

theorem mem_reach_of_mem {accepts : Char → Bool} {s : Cursor} : ∀ {text : Chars}
    {previous : Option Char} {offset : Nat} {passed : List Cursor},
    s ∈ passed → s ∈ reach accepts previous offset passed text
  | [], _, _, _, h => List.mem_cons_of_mem _ h
  | c :: text, _, _, _, h => by
    rw [reach]
    split
    · exact mem_reach_of_mem (List.mem_cons_of_mem _ h)
    · exact List.mem_cons_of_mem _ h

/-- A repetition reaches every place behind characters of its class. -/
theorem mem_reach {accepts : Char → Bool} {rest : Chars} : ∀ {taken : Chars}
    {previous : Option Char} {offset : Nat} {passed : List Cursor},
    (∀ c ∈ taken, accepts c = true) →
      Cursor.behind ⟨previous, offset, taken ++ rest⟩ taken rest ∈
        reach accepts previous offset passed (taken ++ rest)
  | [], previous, offset, passed, _ => by
    have hhere : (⟨previous, offset, rest⟩ : Cursor) ∈
        reach accepts previous offset passed rest := by
      cases rest with
      | nil => exact List.mem_cons_self
      | cons c rest =>
        rw [reach]
        split
        · exact mem_reach_of_mem List.mem_cons_self
        · exact List.mem_cons_self
    exact hhere
  | c :: taken, previous, offset, passed, h => by
    obtain ⟨hc, htaken⟩ := List.forall_mem_cons.1 h
    have ih : Cursor.behind ⟨some c, offset + 1, taken ++ rest⟩ taken rest ∈ reach accepts (some c)
        (offset + 1) (⟨previous, offset, c :: (taken ++ rest)⟩ :: passed) (taken ++ rest) :=
      mem_reach htaken
    rw [List.cons_append, reach, if_pos hc]
    convert ih using 1
    simp only [Cursor.behind, List.getLast?_cons, List.length_cons, Cursor.mk.injEq, and_true]
    constructor
    · cases taken.getLast? <;> rfl
    · omega

/-- The places that a repetition reaches come with the farthest first. -/
theorem pairwise_reach {accepts : Char → Bool} : ∀ {text : Chars} {previous : Option Char}
    {offset : Nat} {passed : List Cursor},
    (∀ s ∈ passed, s.offset ≤ offset) → passed.Pairwise (fun s t => t.offset ≤ s.offset) →
      (reach accepts previous offset passed text).Pairwise fun s t => t.offset ≤ s.offset
  | [], _, _, _, hle, h => List.pairwise_cons.2 ⟨hle, h⟩
  | c :: text, _, offset, passed, hle, h => by
    rw [reach]
    split
    · refine pairwise_reach ?_ (List.pairwise_cons.2 ⟨hle, h⟩)
      intro s hs
      rcases List.mem_cons.1 hs with rfl | hs
      · exact Nat.le_succ _
      · exact Nat.le_succ_of_le (hle s hs)
    · exact List.pairwise_cons.2 ⟨hle, h⟩

/-- A member of a list stands in its front part where the condition holds if the condition passes
from every member to those in front of it. -/
theorem mem_takeWhile_of_pairwise {α : Type} {holds : α → Bool} : ∀ {l : List α} {a : α},
    l.Pairwise (fun b c => holds c = true → holds b = true) → a ∈ l → holds a = true →
      a ∈ l.takeWhile holds
  | b :: l, a, hl, ha, hholds => by
    obtain ⟨hb, hl⟩ := List.pairwise_cons.1 hl
    rcases List.mem_cons.1 ha with rfl | ha
    · rw [List.takeWhile_cons_of_pos hholds]
      exact List.mem_cons_self
    · rw [List.takeWhile_cons_of_pos (hb a ha hholds)]
      exact List.mem_cons_of_mem _ (mem_takeWhile_of_pairwise hl ha hholds)

namespace Pattern

/-- A pattern can be matched from a place up to another. -/
def Leads : Pattern → Cursor → Cursor → Prop
  | nothing, s, t => t = s
  | one accepts, s, t => ∃ c rest, s.rest = c :: rest ∧ accepts c = true ∧ t = s.behind [c] rest
  | many accepts least, s, t => ∃ taken rest, s.rest = taken ++ rest ∧
      (∀ c ∈ taken, accepts c = true) ∧ least ≤ taken.length ∧ t = s.behind taken rest
  | few accepts, s, t => ∃ taken rest, s.rest = taken ++ rest ∧
      (∀ c ∈ taken, accepts c = true) ∧ t = s.behind taken rest
  | look place, s, t => s.satisfies place = true ∧ t = s
  | seq first second, s, t => ∃ between, first.Leads s between ∧ second.Leads between t
  | alt first second, s, t => first.Leads s t ∨ second.Leads s t
  | opt body, s, t => body.Leads s t ∨ t = s
  | group _ body, s, t => body.Leads s t

section

variable {α : Type} {a : α}

/-- What succeeds behind a pattern succeeds where the pattern leads, with groups of the pattern
filled. -/
theorem exists_leads_of_run : ∀ (p : Pattern) {s : Cursor} {g : Groups}
    {next : Cursor → Groups → Option α}, p.run s g next = some a →
      ∃ t more, p.Leads s t ∧ (∀ i ∈ more.map Prod.fst, i ∈ p.indices) ∧ next t (more ++ g) = some a
  | nothing, s, _, _, h => ⟨s, [], rfl, by simp, h⟩
  | one _, _, _, _, h => by
    obtain ⟨c, rest, hrest, hc, hnext⟩ := run_one h
    exact ⟨_, [], ⟨c, rest, hrest, hc, rfl⟩, by simp, hnext⟩
  | many _ _, _, _, _, h => by
    obtain ⟨taken, rest, hrest, htaken, hleast, hnext⟩ := run_many h
    exact ⟨_, [], ⟨taken, rest, hrest, htaken, hleast, rfl⟩, by simp, hnext⟩
  | few _, _, _, _, h => by
    obtain ⟨taken, rest, hrest, htaken, hnext⟩ := run_few h
    exact ⟨_, [], ⟨taken, rest, hrest, htaken, rfl⟩, by simp, hnext⟩
  | look _, s, _, _, h => by
    obtain ⟨hplace, hnext⟩ := run_look h
    exact ⟨s, [], ⟨hplace, rfl⟩, by simp, hnext⟩
  | seq first second, _, g, _, h => by
    obtain ⟨between, more, hfirst, hmore, hrun⟩ := exists_leads_of_run first h
    obtain ⟨t, more', hsecond, hmore', hnext⟩ := exists_leads_of_run second hrun
    rw [← List.append_assoc] at hnext
    refine ⟨t, more' ++ more, ⟨between, hfirst, hsecond⟩, ?_, hnext⟩
    intro i hi
    rw [List.map_append, List.mem_append] at hi
    exact List.mem_append.2 (hi.elim (fun h => .inr (hmore' i h)) fun h => .inl (hmore i h))
  | alt first second, s, g, next, h => by
    rw [run] at h
    split at h
    · next found hfound =>
      obtain ⟨t, more, hleads, hmore, hnext⟩ := exists_leads_of_run first (hfound.trans h)
      exact ⟨t, more, .inl hleads, fun i hi => List.mem_append_left _ (hmore i hi), hnext⟩
    · obtain ⟨t, more, hleads, hmore, hnext⟩ := exists_leads_of_run second h
      exact ⟨t, more, .inr hleads, fun i hi => List.mem_append_right _ (hmore i hi), hnext⟩
  | opt body, s, _, _, h => by
    rcases run_opt h with h | h
    · obtain ⟨t, more, hleads, hmore, hnext⟩ := exists_leads_of_run body h
      exact ⟨t, more, .inl hleads, hmore, hnext⟩
    · exact ⟨s, [], .inr rfl, by simp, h⟩
  | group index body, s, _, _, h => by
    obtain ⟨t, more, hleads, hmore, hnext⟩ := exists_leads_of_run body h
    refine ⟨t, (index, ⟨s.offset, t.offset, s.rest⟩) :: more, hleads, ?_, hnext⟩
    rw [List.map_cons, List.forall_mem_cons]
    exact ⟨List.mem_cons_self, fun i hi => List.mem_cons_of_mem _ (hmore i hi)⟩

/-- A pattern succeeds if what stands behind it does at some place where it leads. -/
theorem isSome_run_of_leads : ∀ (p : Pattern) {s t : Cursor} {g : Groups}
    {next : Cursor → Groups → Option α}, p.Leads s t → (∀ g', (next t g').isSome) →
      (p.run s g next).isSome
  | nothing, _, _, g, _, h, hnext => by
    subst h
    exact hnext g
  | one _, s, _, g, _, ⟨c, rest, hrest, hc, ht⟩, hnext => by
    subst ht
    simp only [run, hrest, hc, if_true]
    exact hnext g
  | many accepts least, ⟨previous, offset, _⟩, _, g, _,
      ⟨taken, rest, hrest, htaken, hleast, ht⟩, hnext => by
    subst ht hrest
    simp only [run, List.findSome?_isSome_iff]
    refine ⟨_, mem_takeWhile_of_pairwise ?_ (mem_reach htaken) ?_, hnext g⟩
    · refine (pairwise_reach (by simp) .nil).imp ?_
      intro b c hle hc
      simp only [decide_eq_true_eq] at hc ⊢
      omega
    · simpa [Cursor.behind] using hleast
  | few _, ⟨previous, offset, _⟩, _, g, _, ⟨taken, rest, hrest, htaken, ht⟩, hnext => by
    subst ht hrest
    simp only [run, List.findSome?_isSome_iff]
    exact ⟨_, List.mem_reverse.2 (mem_reach htaken), hnext g⟩
  | look _, s, _, g, _, ⟨hplace, ht⟩, hnext => by
    subst ht
    simp only [run, hplace, if_true]
    exact hnext g
  | seq first second, _, _, _, _, ⟨between, hfirst, hsecond⟩, hnext =>
    isSome_run_of_leads first hfirst fun _ => isSome_run_of_leads second hsecond hnext
  | alt first second, _, _, g, _, h, hnext => by
    rw [run]
    split
    · rfl
    · next hnone =>
      rcases h with h | h
      · have hsome := isSome_run_of_leads first (g := g) h hnext
        rw [hnone] at hsome
        cases hsome
      · exact isSome_run_of_leads second h hnext
  | opt body, s, _, g, next, h, hnext => by
    rcases h with h | h
    · have hsome := isSome_run_of_leads body (g := g) h hnext
      rw [run]
      split
      · rfl
      · next hnone =>
        rw [hnone] at hsome
        cases hsome
    · subst h
      exact isSome_run_opt (hnext g)
  | group _ body, _, _, _, _, h, hnext => isSome_run_of_leads body h fun g' => hnext _

end

/-- **When a pattern matches.** A pattern matches at a place exactly if it leads somewhere. -/
theorem isSome_matchAt?_iff {p : Pattern} {s : Cursor} :
    (p.matchAt? s).isSome = true ↔ ∃ t, p.Leads s t := by
  constructor
  · intro h
    obtain ⟨m, hm⟩ := Option.isSome_iff_exists.1 h
    obtain ⟨t, -, hleads, -⟩ := exists_leads_of_run p hm
    exact ⟨t, hleads⟩
  · rintro ⟨t, hleads⟩
    exact isSome_run_of_leads p hleads fun _ => rfl

/-! ## Bounds and groups of matches -/

/-- A match lies in the text. -/
theorem bounds_of_matchAt? {p : Pattern} {text front : Chars} {s : Cursor} {m : Match}
    (hs : s.Stands text front) (h : p.matchAt? s = some m) :
    m.start ≤ m.stop ∧ m.stop ≤ text.length := by
  refine ⟨(start_le_stop h).2, ?_⟩
  obtain ⟨taken, rest, more, hrest, -, hnext⟩ := exists_run p h
  obtain rfl := Option.some.inj hnext
  have hstands := hs.behind hrest
  have hsplit := congrArg List.length hstands.split
  rw [List.length_append, ← hstands.offset] at hsplit
  simp only [Match.stop]
  omega

theorem bounds_of_mem_all {p : Pattern} {text : Chars} {m : Match} (h : m ∈ p.all text) :
    m.start ≤ m.stop ∧ m.stop ≤ text.length := by
  obtain ⟨front, s, hs, hmatch⟩ := exists_of_mem_all h
  exact bounds_of_matchAt? hs hmatch

theorem bounds_of_first? {p : Pattern} {text : Chars} {m : Match} (h : p.first? text = some m) :
    m.start ≤ m.stop ∧ m.stop ≤ text.length := by
  obtain ⟨front, s, hs, hmatch⟩ := first?_eq_some h
  exact bounds_of_matchAt? hs hmatch

/-- Whether a group takes part in every match of a pattern. -/
def fills : Pattern → Nat → Bool
  | seq first second, index => first.fills index || second.fills index
  | alt first second, index => first.fills index && second.fills index
  | group index' body, index => index' == index || body.fills index
  | _, _ => false

/-- What succeeds behind a pattern has been handed the groups that take part in every match. -/
theorem filled_of_run {α : Type} {a : α} : ∀ (p : Pattern) {s : Cursor} {g : Groups}
    {next : Cursor → Groups → Option α}, p.run s g next = some a →
      ∃ t more, next t (more ++ g) = some a ∧ ∀ i, p.fills i = true → i ∈ more.map Prod.fst
  | nothing, s, _, _, h => ⟨s, [], h, by simp [fills]⟩
  | one _, _, _, _, h => by
    obtain ⟨c, rest, -, -, hnext⟩ := run_one h
    exact ⟨_, [], hnext, by simp [fills]⟩
  | many _ _, _, _, _, h => by
    obtain ⟨taken, rest, -, -, -, hnext⟩ := run_many h
    exact ⟨_, [], hnext, by simp [fills]⟩
  | few _, _, _, _, h => by
    obtain ⟨taken, rest, -, -, hnext⟩ := run_few h
    exact ⟨_, [], hnext, by simp [fills]⟩
  | look _, s, _, _, h => ⟨s, [], (run_look h).2, by simp [fills]⟩
  | seq first second, _, g, _, h => by
    obtain ⟨between, more, hrun, hfirst⟩ := filled_of_run first h
    obtain ⟨t, more', hnext, hsecond⟩ := filled_of_run second hrun
    rw [← List.append_assoc] at hnext
    refine ⟨t, more' ++ more, hnext, fun i hi => ?_⟩
    rw [List.map_append, List.mem_append]
    rw [fills, Bool.or_eq_true] at hi
    exact hi.elim (fun h => .inr (hfirst i h)) fun h => .inl (hsecond i h)
  | alt first second, _, _, _, h => by
    rw [run] at h
    split at h
    · next found hfound =>
      obtain ⟨t, more, hnext, hfirst⟩ := filled_of_run first (hfound.trans h)
      refine ⟨t, more, hnext, fun i hi => hfirst i ?_⟩
      rw [fills, Bool.and_eq_true] at hi
      exact hi.1
    · obtain ⟨t, more, hnext, hsecond⟩ := filled_of_run second h
      refine ⟨t, more, hnext, fun i hi => hsecond i ?_⟩
      rw [fills, Bool.and_eq_true] at hi
      exact hi.2
  | opt body, s, _, _, h => by
    rcases run_opt h with h | h
    · obtain ⟨t, more, hnext, -⟩ := filled_of_run body h
      exact ⟨t, more, hnext, by simp [fills]⟩
    · exact ⟨s, [], h, by simp [fills]⟩
  | group index body, s, g, _, h => by
    obtain ⟨t, more, hnext, hbody⟩ := filled_of_run body h
    refine ⟨t, (index, ⟨s.offset, t.offset, s.rest⟩) :: more, hnext, fun i hi => ?_⟩
    rw [fills, Bool.or_eq_true, beq_iff_eq] at hi
    rcases hi with rfl | hi
    · exact List.mem_cons_self
    · exact List.mem_cons_of_mem _ (hbody i hi)

/-- A group that takes part in every match of a pattern takes part in a match. -/
theorem isSome_group? {p : Pattern} {index : Nat} (h : p.fills index = true) {s : Cursor}
    {m : Match} (hm : p.matchAt? s = some m) : (m.group? index).isSome = true := by
  obtain ⟨t, more, hnext, hfilled⟩ := filled_of_run p hm
  obtain rfl := Option.some.inj hnext
  have hmem := hfilled index h
  rw [Match.group?, List.append_nil]
  clear hnext hfilled hm
  induction more with
  | nil => cases hmem
  | cons entry more ih =>
    rw [List.lookup_cons]
    split
    · rfl
    · next hne =>
      rw [List.map_cons, List.mem_cons] at hmem
      exact ih (hmem.resolve_left (by rintro rfl; simp at hne))

/-! ## Patterns made of parts -/

section

variable {s t : Cursor}

theorem leads_concat_cons {p : Pattern} {ps : List Pattern} :
    (concat (p :: ps)).Leads s t ↔ ∃ between, p.Leads s between ∧ (concat ps).Leads between t := by
  cases ps with
  | nil => simp [concat, Leads]
  | cons q ps => exact Iff.rfl

theorem leads_char {c : Char} :
    (char c).Leads s t ↔ ∃ rest, s.rest = c :: rest ∧ t = s.behind [c] rest := by
  constructor
  · rintro ⟨d, rest, hrest, hd, rfl⟩
    obtain rfl : d = c := by simpa using hd
    exact ⟨rest, hrest, rfl⟩
  · rintro ⟨rest, hrest, rfl⟩
    exact ⟨c, rest, hrest, by simp, rfl⟩

/-- A literal leads behind its characters. -/
theorem leads_chars : ∀ {cs : Chars} {s t : Cursor}, (concat (cs.map char)).Leads s t ↔
    ∃ rest, s.rest = cs ++ rest ∧ t = s.behind cs rest
  | [], s, t => by simp [concat, Leads, Cursor.behind]
  | c :: cs, s, t => by
    rw [List.map_cons, leads_concat_cons]
    constructor
    · rintro ⟨between, hc, hcs⟩
      obtain ⟨rest, hrest, rfl⟩ := leads_char.1 hc
      obtain ⟨rest', hrest', rfl⟩ := leads_chars.1 hcs
      rw [Cursor.behind_behind]
      obtain rfl : rest = cs ++ rest' := hrest'
      exact ⟨rest', hrest, rfl⟩
    · rintro ⟨rest, hrest, rfl⟩
      have hbehind : s.behind (c :: cs) rest = (s.behind [c] (cs ++ rest)).behind cs rest := by
        rw [Cursor.behind_behind]
        rfl
      rw [hbehind]
      exact ⟨_, leads_char.2 ⟨cs ++ rest, hrest, rfl⟩, leads_chars.2 ⟨rest, rfl, rfl⟩⟩

theorem leads_lit {text : String} :
    (lit text).Leads s t ↔ ∃ rest, s.rest = text.toList ++ rest ∧ t = s.behind text.toList rest :=
  leads_chars

end

/-! ## Lengths -/

/-- The least number of characters that a pattern takes. -/
def least : Pattern → Nat
  | nothing | few _ | look _ | opt _ => 0
  | one _ => 1
  | many _ least => least
  | seq first second => first.least + second.least
  | alt first second => min first.least second.least
  | group _ body => body.least

/-- A pattern leads behind characters, and not behind too few. -/
theorem Leads.exists_taken : ∀ {p : Pattern} {s t : Cursor}, p.Leads s t →
    ∃ taken rest, s.rest = taken ++ rest ∧ t = s.behind taken rest ∧ p.least ≤ taken.length
  | nothing, s, _, h | look _, s, _, ⟨_, h⟩ => ⟨[], s.rest, rfl, h, Nat.zero_le _⟩
  | one _, _, _, ⟨c, rest, hrest, _, ht⟩ => ⟨[c], rest, hrest, ht, Nat.le_refl _⟩
  | many _ _, _, _, ⟨taken, rest, hrest, _, hleast, ht⟩ => ⟨taken, rest, hrest, ht, hleast⟩
  | few _, _, _, ⟨taken, rest, hrest, _, ht⟩ => ⟨taken, rest, hrest, ht, Nat.zero_le _⟩
  | seq first second, s, t, ⟨between, hfirst, hsecond⟩ => by
    obtain ⟨taken, rest, hrest, rfl, hle⟩ := hfirst.exists_taken
    obtain ⟨taken', rest', hrest', rfl, hle'⟩ := hsecond.exists_taken
    have hrest' : rest = taken' ++ rest' := hrest'
    refine ⟨taken ++ taken', rest', ?_, ?_, ?_⟩
    · rw [hrest, hrest', List.append_assoc]
    · rw [Cursor.behind_behind]
    · rw [least, List.length_append]
      omega
  | alt first second, s, t, h => by
    rcases h with h | h
    · obtain ⟨taken, rest, hrest, ht, hle⟩ := h.exists_taken
      exact ⟨taken, rest, hrest, ht, Nat.le_trans (Nat.min_le_left _ _) hle⟩
    · obtain ⟨taken, rest, hrest, ht, hle⟩ := h.exists_taken
      exact ⟨taken, rest, hrest, ht, Nat.le_trans (Nat.min_le_right _ _) hle⟩
  | opt body, s, t, h => by
    rcases h with h | h
    · obtain ⟨taken, rest, hrest, ht, -⟩ := h.exists_taken
      exact ⟨taken, rest, hrest, ht, Nat.zero_le _⟩
    · exact ⟨[], s.rest, rfl, h, Nat.zero_le _⟩
  | group _ body, _, _, h => h.exists_taken (p := body)

/-- What a group takes stands behind what leads to it and in front of what leads on from it. -/
theorem exists_of_group {lead body tail : Pattern} {index : Nat} {s : Cursor} {m : Match}
    (hindex : index ∉ tail.indices) (h : (lead ++ group index body ++ tail).matchAt? s = some m) :
    ∃ t taken rest u, lead.Leads s t ∧ t.rest = taken ++ rest ∧ body.Leads t (t.behind taken rest) ∧
      tail.Leads (t.behind taken rest) u ∧
        m.group? index = some ⟨t.offset, t.offset + taken.length, t.rest⟩ ∧
          (m.text index).toList = taken ∧ m.stop = u.offset := by
  unfold matchAt? at h
  rw [run_seq, run_seq] at h
  obtain ⟨t, more, hlead, -, hgroup⟩ := exists_leads_of_run lead h
  rw [run_group] at hgroup
  obtain ⟨between, more', hbody, -, htail⟩ := exists_leads_of_run body hgroup
  obtain ⟨u, more'', hleads, hmore, hfound⟩ := exists_leads_of_run tail htail
  obtain rfl := Option.some.inj hfound
  obtain ⟨taken, rest, hrest, rfl, -⟩ := hbody.exists_taken
  have hgroup : (more'' ++ (index, (⟨t.offset, t.offset + taken.length, t.rest⟩ : Span)) ::
      (more' ++ (more ++ []))).lookup index = some ⟨t.offset, t.offset + taken.length, t.rest⟩ := by
    rw [lookup_of_notMem hmore hindex, List.lookup_cons_self]
  refine ⟨t, taken, rest, u, hlead, hrest, hbody, hleads, hgroup, ?_, rfl⟩
  have hchars := chars_behind hrest
  simp only [Match.text, Match.group?, Cursor.behind] at hchars ⊢
  rw [hgroup]
  simp [Span.text, hchars]

/-- A group with something to take, in it or behind it, starts at a character of the text. -/
theorem start_lt_of_group {lead body tail : Pattern} {index : Nat} {text : Chars} {m : Match}
    {span : Span} (hindex : index ∉ tail.indices) (hleast : 0 < (body ++ tail).least)
    (hm : m ∈ (lead ++ group index body ++ tail).all text) (hspan : m.group? index = some span) :
    span.start < text.length := by
  obtain ⟨front, s, hs, hmatch⟩ := exists_of_mem_all hm
  obtain ⟨t, taken, rest, u, hlead, hrest, hbody, htail, hgroup, -, -⟩ :=
    exists_of_group hindex hmatch
  obtain ⟨before, back, hback, rfl, -⟩ := hlead.exists_taken
  -- something is taken where the group starts
  obtain ⟨inner, behind, hinner, -, hle⟩ :=
    Leads.exists_taken (p := body ++ tail) ⟨_, hbody, htail⟩
  have hsplit : text = front ++ before ++ (inner ++ behind) := by
    rw [(hs.behind hback).split, hinner]
  have hstart : span.start = front.length + before.length := by
    rw [← Option.some.inj (hgroup.symm.trans hspan)]
    exact congrArg (· + before.length) hs.offset
  rw [hstart, hsplit]
  simp only [List.length_append]
  omega

end Pattern
end ArchGraph
