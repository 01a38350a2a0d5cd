import ArchGraph.Proofs.Pattern.Spelling
/-!
# Replacing all matches

All matches are replaced in one go, by their places in the text. Read from left to right that is a
relation between a text and what becomes of it (`Pattern.Replaced`): where the text opens with what
the pattern spells, that is replaced as a whole, and elsewhere a character is kept. Main statement:
`Pattern.replaced_replaceAll`, for patterns that ask nothing about places and take something.
-/

namespace ArchGraph

open Text (Chars)

namespace Pattern

variable {p : Pattern} {new text out rest : Chars}

/-! ## Left to right -/

/-- A text starts with what a pattern spells. -/
def Opens (p : Pattern) (text : Chars) : Prop :=
  ∃ taken rest, text = taken ++ rest ∧ p.Spells taken

/-- A text and what becomes of it when everything that a pattern spells is replaced. -/
inductive Replaced (p : Pattern) (new : Chars) : Chars → Chars → Prop where
  | nil : Replaced p new [] []
  | keep {c : Char} {rest out : Chars} : ¬p.Opens (c :: rest) → Replaced p new rest out →
      Replaced p new (c :: rest) (c :: out)
  | put {taken rest out : Chars} : p.Spells taken → taken ≠ [] → Replaced p new rest out →
      Replaced p new (taken ++ rest) (new ++ out)

theorem isSome_matchAt?_iff_opens {s : Cursor} (hp : p.placeless = true) :
    (p.matchAt? s).isSome = true ↔ p.Opens s.rest := by
  simp only [isSome_matchAt?_iff, leads_iff_spells hp, Opens]
  constructor
  · rintro ⟨t, taken, rest, hrest, htaken, -⟩
    exact ⟨taken, rest, hrest, htaken⟩
  · rintro ⟨taken, rest, hrest, htaken⟩
    exact ⟨_, taken, rest, hrest, htaken, rfl⟩

/-- Every character comes from the text or from what is put into it. -/
theorem Replaced.mem (h : Replaced p new text out) {c : Char} (hc : c ∈ out) :
    c ∈ text ∨ c ∈ new := by
  induction h with
  | nil => exact .inl hc
  | keep _ _ ih =>
    rcases List.mem_cons.1 hc with rfl | hc
    · exact .inl List.mem_cons_self
    · exact (ih hc).imp_left (List.mem_cons_of_mem _)
  | put _ _ _ ih =>
    rcases List.mem_append.1 hc with hc | hc
    · exact .inr hc
    · exact (ih hc).imp_left (List.mem_append_right _)

/-- A text that a pattern spells nothing of stays as it is. -/
theorem Replaced.eq_self (h : Replaced p new text out)
    (hnone : ∀ front back, text = front ++ back → ¬p.Opens back) : out = text := by
  induction h with
  | nil => rfl
  | @keep c rest out _ _ ih =>
    rw [ih fun front back hsplit => hnone (c :: front) back (by rw [hsplit, List.cons_append])]
  | put htaken _ _ _ => exact absurd ⟨_, _, rfl, htaken⟩ (hnone [] _ rfl)

/-- Only an empty text can become empty. -/
theorem Replaced.eq_nil (h : Replaced p new text []) (hnew : new ≠ []) : text = [] := by
  generalize hout : [] = out at h
  cases h with
  | nil => rfl
  | keep => cases hout
  | put => exact absurd (List.append_eq_nil_iff.1 hout.symm).1 hnew

/-- What comes out starts with the first character of the text or of what is put into it. -/
theorem Replaced.head (h : Replaced p new text out) (hnew : new ≠ []) {c : Char}
    (hc : c ∈ out.head?) : c ∈ text.head? ∨ c ∈ new.head? := by
  cases h with
  | nil => cases hc
  | keep => exact .inl hc
  | put =>
    obtain ⟨d, new, rfl⟩ := List.exists_cons_of_ne_nil hnew
    exact .inr hc

/-- What comes out ends with the last character of the text or of what is put into it. -/
theorem Replaced.getLast (h : Replaced p new text out) (hnew : new ≠ []) {c : Char}
    (hc : c ∈ out.getLast?) : c ∈ text.getLast? ∨ c ∈ new.getLast? := by
  induction h with
  | nil => cases hc
  | @keep d rest out _ hrest ih =>
    cases out with
    | nil =>
      rw [hrest.eq_nil hnew]
      exact .inl hc
    | cons e out =>
      rw [List.getLast?_cons_cons] at hc
      refine (ih hc).imp_left fun hlast => ?_
      obtain ⟨front, rfl⟩ := List.getLast?_eq_some_iff.1 hlast
      rw [← List.cons_append, List.getLast?_concat]
      rfl
  | @put taken rest out _ _ _ ih =>
    rw [List.getLast?_append] at hc
    cases hout : out.getLast? with
    | none =>
      rw [hout] at hc
      exact .inr hc
    | some d =>
      rw [hout] at hc ih
      refine (ih hc).imp_left fun hlast => ?_
      have hlast : rest.getLast? = some c := hlast
      rw [List.getLast?_append, hlast]
      rfl

/-! ## Searching on -/

/-- Where a search resumes does not matter once it is passed. -/
theorem allFrom_of_le : ∀ {text : Chars} {resume offset : Nat} {previous : Option Char},
    resume ≤ offset → p.allFrom resume previous offset text = p.allFrom 0 previous offset text
  | [], resume, offset, _, h => by
    rw [allFrom, allFrom, if_neg (Nat.not_lt.2 h), if_neg (Nat.not_lt_zero _)]
  | c :: text, resume, offset, previous, h => by
    rw [allFrom, allFrom, if_neg (Nat.not_lt.2 h), if_neg (Nat.not_lt_zero _),
      allFrom_of_le (Nat.le_succ_of_le h), allFrom_of_le (Nat.zero_le _)]

/-- Behind a match the search goes on as if it started there. -/
theorem allFrom_append : ∀ {taken rest : Chars} {previous : Option Char} {offset : Nat},
    p.allFrom (offset + taken.length) previous offset (taken ++ rest) =
      p.allFrom 0 (taken.getLast?.or previous) (offset + taken.length) rest
  | [], rest, previous, offset => allFrom_of_le (Nat.le_refl _)
  | c :: taken, rest, previous, offset => by
    have hlength : offset + (c :: taken).length = offset + 1 + taken.length := by
      rw [List.length_cons]
      omega
    have hlast : (c :: taken).getLast?.or previous = taken.getLast?.or (some c) := by
      rw [List.getLast?_cons]
      cases taken.getLast? <;> rfl
    rw [List.cons_append, allFrom, if_pos (by omega), hlength, allFrom_append, hlast]

/-- What stands in front of all matches is kept. -/
theorem splice_cons (new : Chars) (c : Char) (text : Chars) {offset : Nat} {ms : List Match}
    (h : ∀ m ∈ ms, offset < m.start ∧ m.start ≤ m.stop) :
    replaceAll.splice new offset (c :: text) ms =
      c :: replaceAll.splice new (offset + 1) text ms := by
  cases ms with
  | nil => rfl
  | cons m more =>
    obtain ⟨hstart, hstop⟩ := h m List.mem_cons_self
    have htake : m.start - offset = (m.start - (offset + 1)) + 1 := by omega
    have hdrop : m.stop - offset = (m.stop - (offset + 1)) + 1 := by omega
    rw [replaceAll.splice, replaceAll.splice, htake, hdrop, List.take_succ_cons,
      List.drop_succ_cons, List.cons_append, List.cons_append]

theorem replaced_splice (hp : p.placeless = true) (hne : ¬p.Spells []) (new : Chars) :
    ∀ (text : Chars) (previous : Option Char) (offset : Nat), Replaced p new text
      (replaceAll.splice new offset text (p.allFrom 0 previous offset text))
  | [], previous, offset => by
    have hnone : p.matchAt? ⟨previous, offset, []⟩ = none := by
      rw [← Option.not_isSome_iff_eq_none, isSome_matchAt?_iff_opens hp]
      rintro ⟨taken, rest, hrest, htaken⟩
      rw [(List.append_eq_nil_iff.1 hrest.symm).1] at htaken
      exact hne htaken
    rw [allFrom, if_neg (Nat.not_lt_zero _), hnone]
    exact .nil
  | c :: text, previous, offset => by
    rw [allFrom, if_neg (Nat.not_lt_zero _)]
    cases hmatch : p.matchAt? ⟨previous, offset, c :: text⟩ with
    | none =>
      have hopens : ¬p.Opens (c :: text) := by
        rw [← isSome_matchAt?_iff_opens (s := ⟨previous, offset, c :: text⟩) hp, hmatch]
        exact Bool.false_ne_true
      rw [splice_cons new c text]
      · exact .keep hopens (replaced_splice hp hne new text (some c) (offset + 1))
      · intro m hm
        obtain ⟨front, rest, -, hm⟩ := exists_of_mem_allFrom hm
        obtain ⟨hstart, hstop⟩ := start_le_stop hm
        have hstart : m.start = offset + 1 + front.length := hstart
        exact ⟨by omega, hstop⟩
    | some m =>
      obtain ⟨taken, rest, hrest, htaken, hstop⟩ := spells_of_matchAt? hp hmatch
      have hstart : m.start = offset := (start_le_stop hmatch).1
      have hstop : m.stop = offset + taken.length := hstop
      have hrest : c :: text = taken ++ rest := hrest
      have hnonempty : taken ≠ [] := fun hnil => hne (hnil ▸ htaken)
      have hlength : taken.length + rest.length = text.length + 1 := by
        rw [← List.length_append, ← hrest, List.length_cons]
      have hpos : 0 < taken.length := List.length_pos_iff.2 hnonempty
      have hmore : p.allFrom (max m.stop (offset + 1)) (some c) (offset + 1) text =
          p.allFrom 0 (taken.getLast?.or previous) m.stop rest := by
        rw [Nat.max_eq_left (by omega), hstop, ← allFrom_append, ← hrest, allFrom,
          if_pos (by omega)]
      simp only [hmore]
      rw [replaceAll.splice, hstart, Nat.sub_self, List.take_zero, List.nil_append, hrest,
        hstop, Nat.add_sub_cancel_left, List.drop_left]
      exact .put htaken hnonempty (replaced_splice hp hne new rest _ _)
termination_by text => text.length

/-- **Replacing all matches goes from left to right.** -/
theorem replaced_replaceAll (hp : p.placeless = true) (hne : ¬p.Spells []) (new text : Chars) :
    Replaced p new text (p.replaceAll new text) :=
  replaced_splice hp hne new text none 0

end Pattern
end ArchGraph
