import ArchGraph.Proofs.Text.Words
/-!
# Lower case is settled

A character of a text in lower case has no lower case but itself: no run of code points is moved
into the reach of another one (`lowerRuns_settled`), and no capital sigma is left, so that nothing
in such a text depends on its neighbours any more. Main statement: `lower_eq_self`, and from it
that a text in lower case stays as it is (`lower_lower`).
-/

namespace ArchGraph.Text

/-! ## Sets of code points -/

/-- A set of code points as the bits of a number, so that two of them are compared at once. -/
def bits : List Nat → Nat
  | [] => 0
  | code :: codes => 1 <<< code ||| bits codes

theorem testBit_bits (code : Nat) (codes : List Nat) :
    (bits codes).testBit code = true ↔ code ∈ codes := by
  induction codes with
  | nil => simp [bits]
  | cons first codes ih =>
    rw [bits, Nat.testBit_or, Bool.or_eq_true, ih, Nat.one_shiftLeft, Nat.testBit_two_pow,
      decide_eq_true_eq, List.mem_cons, eq_comm]

theorem notMem_of_bits {codes codes' : List Nat} (h : bits codes &&& bits codes' = 0) {code : Nat}
    (hcode : code ∈ codes) : code ∉ codes' := by
  intro hcode'
  have hboth : (bits codes &&& bits codes').testBit code = true := by
    rw [Nat.testBit_and, (testBit_bits code codes).2 hcode, (testBit_bits code codes').2 hcode']
    rfl
  rw [h, Nat.zero_testBit] at hboth
  cases hboth

/-! ## Runs -/

/-- The code points that a run moves. -/
def CaseRun.codes (run : CaseRun) : List Nat :=
  List.range' run.first ((run.last - run.first) / run.step + 1) run.step

/-- Where a run moves its code points. -/
def CaseRun.images (run : CaseRun) : List Nat :=
  run.codes.map fun code : Nat => ((code : Int) + run.shift).toNat

theorem CaseRun.mem_codes {run : CaseRun} {code : Nat} (h : run.holds code = true) :
    code ∈ run.codes := by
  simp only [holds, Bool.and_eq_true, decide_eq_true_eq, beq_iff_eq] at h
  obtain ⟨⟨hfirst, hlast⟩, hstep⟩ := h
  have hdiv := Nat.div_add_mod (code - run.first) run.step
  refine List.mem_range'.2 ⟨(code - run.first) / run.step, ?_, by omega⟩
  exact Nat.lt_succ_of_le (Nat.div_le_div_right (by omega))

/-- The code points whose characters are not in lower case: the capital I with a dot, which has two
characters for its lower case, and those that a run moves. -/
def upperCodes : List Nat := 0x130 :: lowerRuns.flatMap CaseRun.codes

/-- **No run leads into another one**, and none to a blank. -/
theorem lowerRuns_settled :
    bits (lowerRuns.flatMap CaseRun.images) &&& bits (upperCodes ++ blankCodes) = 0 := by
  decide +kernel

theorem notMem_of_shifted {code : Nat} {d : Char} (h : shifted lowerRuns code = some d) :
    d.toNat ∉ upperCodes ∧ d.toNat ∉ blankCodes := by
  obtain ⟨run, hrun, hholds, hcode⟩ := exists_of_shifted h
  have himage : d.toNat ∈ lowerRuns.flatMap CaseRun.images :=
    List.mem_flatMap.2 ⟨run, hrun, List.mem_map.2 ⟨code, CaseRun.mem_codes hholds, hcode.symm⟩⟩
  have hnot := notMem_of_bits lowerRuns_settled himage
  rwa [List.mem_append, not_or] at hnot

theorem shifted_eq_none {code : Nat} (h : code ∉ upperCodes) : shifted lowerRuns code = none := by
  cases hshifted : shifted lowerRuns code with
  | none => rfl
  | some d =>
    obtain ⟨run, hrun, hholds, -⟩ := exists_of_shifted hshifted
    refine absurd (List.mem_cons_of_mem _ ?_) h
    exact List.mem_flatMap.2 ⟨run, hrun, CaseRun.mem_codes hholds⟩

/-! ## Characters -/

theorem lowerChar_ne_nil (c : Char) : lowerChar c ≠ [] := by
  unfold lowerChar
  split
  · simp
  · split <;> simp

/-- A character that is its own lower case, whatever stands around it. -/
structure IsLower (c : Char) : Prop where
  ne_sigma : c ≠ 'Σ'
  self     : lowerChar c = [c]

instance (c : Char) : Decidable (IsLower c) :=
  decidable_of_iff (c ≠ 'Σ' ∧ lowerChar c = [c]) ⟨fun h => ⟨h.1, h.2⟩, fun h => ⟨h.1, h.2⟩⟩

/-- What the lower case of an ASCII letter is. -/
theorem isLower_toLower {c : Char} (h : c.toNat < 0x80) :
    IsLower c.toLower ∧ (isBlank c.toLower = true → c.toLower = c) := by
  have hall : ∀ n < 0x80, IsLower (Char.ofNat n).toLower ∧
      (isBlank (Char.ofNat n).toLower = true → (Char.ofNat n).toLower = Char.ofNat n) := by
    decide
  rw [← Char.ofNat_toNat c]
  exact hall _ h

theorem isLower_of_beyond {c : Char} (hbeyond : ¬c.toNat < 0x80) (hcode : c.toNat ∉ upperCodes) :
    IsLower c where
  ne_sigma := by
    rintro rfl
    have hsome : (shifted lowerRuns 'Σ'.toNat).isSome = true := by decide
    rw [shifted_eq_none hcode] at hsome
    cases hsome
  self := by
    have hdot : c ≠ 'İ' := by
      rintro rfl
      exact hcode List.mem_cons_self
    rw [lowerChar, if_neg hbeyond, if_neg hdot, shifted_eq_none hcode, Option.getD_none]

/-- **The lower case of a character is settled**, and blanks come from blanks only. -/
theorem isLower_of_mem_lowerChar {c d : Char} (h : d ∈ lowerChar c) :
    IsLower d ∧ (isBlank d = true → d = c) := by
  by_cases hascii : c.toNat < 0x80
  · rw [lowerChar, if_pos hascii, List.mem_singleton] at h
    subst h
    exact isLower_toLower hascii
  by_cases hdot : c = 'İ'
  · subst hdot
    have hall : (lowerChar 'İ').all (fun d => IsLower d ∧ isBlank d = false) = true := by decide
    obtain ⟨hlower, hblank⟩ := of_decide_eq_true (List.all_eq_true.1 hall d h)
    exact ⟨hlower, fun hd => absurd hd (by simp [hblank])⟩
  rw [lowerChar, if_neg hascii, if_neg hdot, List.mem_singleton] at h
  cases hshifted : shifted lowerRuns c.toNat with
  | none =>
    rw [hshifted, Option.getD_none] at h
    subst h
    refine ⟨⟨?_, by rw [lowerChar, if_neg hascii, if_neg hdot, hshifted, Option.getD_none]⟩,
      fun _ => rfl⟩
    rintro rfl
    revert hshifted
    decide
  | some e =>
    rw [hshifted, Option.getD_some] at h
    subst h
    obtain ⟨hupper, hblank⟩ := notMem_of_shifted hshifted
    refine ⟨?_, fun hd => absurd (mem_blankCodes hd) hblank⟩
    rcases toNat_shifted hshifted with rfl | hbeyond
    · decide
    · exact isLower_of_beyond (by omega) hupper

/-! ## Texts -/

theorem isLower_of_mem_lowerAfter : ∀ {text : Chars} {afterCased : Bool},
    ∀ c ∈ lowerAfter afterCased text, IsLower c
  | [], _, _, h => by cases h
  | c :: text, afterCased, d, h => by
    rw [lowerAfter] at h
    split at h
    · rcases List.mem_cons.1 h with rfl | h
      · split <;> decide
      · exact isLower_of_mem_lowerAfter d h
    · rcases List.mem_append.1 h with h | h
      · exact (isLower_of_mem_lowerChar h).1
      · exact isLower_of_mem_lowerAfter d h

/-- The characters of a text in lower case are in lower case. -/
theorem isLower_of_mem_lower {text : Chars} : ∀ c ∈ lower text, IsLower c :=
  isLower_of_mem_lowerAfter

theorem lowerAfter_eq_self : ∀ {text : Chars} (afterCased : Bool), (∀ c ∈ text, IsLower c) →
    lowerAfter afterCased text = text
  | [], _, _ => rfl
  | c :: text, afterCased, h => by
    obtain ⟨hc, htext⟩ := List.forall_mem_cons.1 h
    rw [lowerAfter, if_neg hc.ne_sigma, hc.self, lowerAfter_eq_self _ htext, List.singleton_append]

/-- **A text in lower case stays as it is.** -/
theorem lower_eq_self {text : Chars} (h : ∀ c ∈ text, IsLower c) : lower text = text :=
  lowerAfter_eq_self false h

theorem lower_lower (text : Chars) : lower (lower text) = lower text :=
  lower_eq_self isLower_of_mem_lower

/-- Lower-casing puts no blank at the front of a text. -/
theorem isBlank_of_head_lower {text : Chars} (h : ∀ c ∈ text.head?, isBlank c = false) :
    ∀ d ∈ (lower text).head?, isBlank d = false := by
  cases text with
  | nil => exact fun d hd => absurd hd (by simp [lower, lowerAfter])
  | cons c text =>
    have hc := h c rfl
    intro d hd
    rw [lower, lowerAfter] at hd
    split at hd
    · rw [List.head?_cons, Option.mem_some_iff] at hd
      subst hd
      split <;> decide
    · have hmem : d ∈ lowerChar c := by
        cases hlower : lowerChar c with
        | nil => exact absurd hlower (lowerChar_ne_nil c)
        | cons e rest =>
          rw [hlower, List.cons_append, List.head?_cons, Option.mem_some_iff] at hd
          subst hd
          exact List.mem_cons_self
      cases hblank : isBlank d with
      | false => rfl
      | true =>
        rw [(isLower_of_mem_lowerChar hmem).2 hblank, hc] at hblank
        cases hblank

end ArchGraph.Text
