import ArchGraph.Pattern.Basic
import Mathlib.Data.List.TakeWhile
/-!
# What a run of a pattern says about the text

A run hands the ways in which a pattern can end to what is matched behind it. Said without the
hand-over: some front part of the rest is taken and groups of the pattern are filled before what is
behind succeeds (`Pattern.exists_run`), characters of a class are taken as far as they go if
anything can stand behind them (`Pattern.run_many_of_total`), and a search succeeds exactly where
the pattern matches (`Pattern.first?_eq_some`, `Pattern.isSome_first?`).
-/

namespace ArchGraph

open Text (Chars)

/-! ## Places -/

/-- The cursor behind a part of what is to be matched. -/
def Cursor.behind (s : Cursor) (taken rest : Chars) : Cursor :=
  ⟨taken.getLast?.or s.previous, s.offset + taken.length, rest⟩

theorem Cursor.behind_behind (s : Cursor) (taken taken' rest rest' : Chars) :
    (s.behind taken rest).behind taken' rest' = s.behind (taken ++ taken') rest' := by
  simp only [behind, List.getLast?_append, List.length_append, Option.or_assoc, Nat.add_assoc]

/-- A cursor stands in a text behind its front part. -/
structure Cursor.Stands (text front : Chars) (s : Cursor) : Prop where
  split    : text = front ++ s.rest
  previous : s.previous = front.getLast?
  offset   : s.offset = front.length

theorem Cursor.stands_start (text : Chars) : (Cursor.start text).Stands text [] := ⟨rfl, rfl, rfl⟩

theorem Cursor.Stands.behind {text front taken rest : Chars} {s : Cursor} (h : s.Stands text front)
    (hs : s.rest = taken ++ rest) : (s.behind taken rest).Stands text (front ++ taken) where
  split := by rw [h.split, hs, List.append_assoc]; rfl
  previous := by rw [List.getLast?_append, ← h.previous]; rfl
  offset := by rw [List.length_append, ← h.offset]; rfl

theorem Cursor.Stands.eq_behind {text front : Chars} {s : Cursor} (h : s.Stands text front) :
    s = (Cursor.start text).behind front s.rest := by
  obtain ⟨previous, offset, rest⟩ := s
  obtain ⟨-, rfl, rfl⟩ := h
  simp [Cursor.behind, Cursor.start]

/-! ## Repetition -/

/-- The places that a repetition reaches are those behind characters of its class. -/
theorem exists_of_mem_reach {accepts : Char → Bool} {s' : Cursor} : ∀ {text : Chars}
    {previous : Option Char} {offset : Nat} {passed : List Cursor},
    s' ∈ reach accepts previous offset passed text → s' ∈ passed ∨ ∃ taken rest,
      text = taken ++ rest ∧ (∀ c ∈ taken, accepts c = true) ∧
        s' = Cursor.behind ⟨previous, offset, text⟩ taken rest
  | [], _, _, _, h => by
    rcases List.mem_cons.1 h with rfl | h
    · exact .inr ⟨[], [], rfl, by simp, rfl⟩
    · exact .inl h
  | c :: text, previous, offset, passed, h => by
    rw [reach] at h
    by_cases hc : accepts c = true
    · rw [if_pos hc] at h
      rcases exists_of_mem_reach h with h | ⟨taken, rest, rfl, htaken, rfl⟩
      · rcases List.mem_cons.1 h with rfl | h
        · exact .inr ⟨[], c :: text, rfl, by simp, rfl⟩
        · exact .inl h
      · refine .inr ⟨c :: taken, rest, rfl, List.forall_mem_cons.2 ⟨hc, htaken⟩, ?_⟩
        simp only [Cursor.behind, List.getLast?_cons, List.length_cons, Cursor.mk.injEq, and_true]
        constructor
        · cases taken.getLast? <;> rfl
        · omega
    · rw [if_neg hc] at h
      rcases List.mem_cons.1 h with rfl | h
      · exact .inr ⟨[], c :: text, rfl, by simp, rfl⟩
      · exact .inl h

/-- The farthest place is the one that a repetition prefers. -/
theorem reach_eq_cons (accepts : Char → Bool) : ∀ (text : Chars) (previous : Option Char)
    (offset : Nat) (passed : List Cursor), ∃ more, reach accepts previous offset passed text =
      Cursor.behind ⟨previous, offset, text⟩ (text.takeWhile accepts) (text.dropWhile accepts) ::
        more
  | [], _, _, passed => ⟨passed, rfl⟩
  | c :: text, previous, offset, passed => by
    rw [reach, List.takeWhile_cons, List.dropWhile_cons]
    by_cases hc : accepts c = true
    · obtain ⟨more, hmore⟩ := reach_eq_cons accepts text (some c) (offset + 1)
        (⟨previous, offset, c :: text⟩ :: passed)
      refine ⟨more, ?_⟩
      rw [if_pos hc, if_pos hc, if_pos hc, hmore]
      simp only [Cursor.behind, List.getLast?_cons, List.length_cons, List.cons.injEq,
        Cursor.mk.injEq, and_true]
      constructor
      · cases (text.takeWhile accepts).getLast? <;> rfl
      · omega
    · refine ⟨passed, ?_⟩
      rw [if_neg hc, if_neg hc, if_neg hc]
      rfl

namespace Pattern

/-! ## Runs -/

/-- The groups that a pattern can fill. -/
def indices : Pattern → List Nat
  | nothing | one _ | many .. | few _ | look _ => []
  | seq first second | alt first second => first.indices ++ second.indices
  | opt body => body.indices
  | group index body => index :: body.indices

section

variable {α : Type} {s : Cursor} {g : Groups} {next : Cursor → Groups → Option α} {a : α}

theorem run_seq (first second : Pattern) : (first ++ second).run s g next =
    first.run s g fun s' g' => second.run s' g' next := rfl

theorem run_group (index : Nat) (body : Pattern) : (group index body).run s g next =
    body.run s g fun s' g' => next s' ((index, ⟨s.offset, s'.offset, s.rest⟩) :: g') := rfl

theorem run_one {accepts : Char → Bool} (h : (one accepts).run s g next = some a) :
    ∃ c rest, s.rest = c :: rest ∧ accepts c = true ∧ next (s.behind [c] rest) g = some a := by
  rw [run] at h
  split at h
  · cases h
  · next c rest hrest =>
    split at h
    · next hc => exact ⟨c, rest, hrest, hc, h⟩
    · cases h

theorem run_many {accepts : Char → Bool} {least : Nat}
    (h : (many accepts least).run s g next = some a) :
    ∃ taken rest, s.rest = taken ++ rest ∧ (∀ c ∈ taken, accepts c = true) ∧
      least ≤ taken.length ∧ next (s.behind taken rest) g = some a := by
  obtain ⟨s', hs', hnext⟩ := List.exists_of_findSome?_eq_some h
  have hfar := List.mem_takeWhile_imp hs'
  rcases exists_of_mem_reach ((List.takeWhile_sublist _).subset hs') with hmem |
    ⟨taken, rest, hrest, htaken, rfl⟩
  · cases hmem
  · refine ⟨taken, rest, hrest, htaken, ?_, hnext⟩
    exact Nat.le_of_add_le_add_left (of_decide_eq_true hfar)

/-- Characters of a class are taken as far as they go if anything can stand behind them. -/
theorem run_many_takeWhile {accepts : Char → Bool} {least : Nat}
    (hnext : ∀ s g, (next s g).isSome) (h : (many accepts least).run s g next = some a) :
    least ≤ (s.rest.takeWhile accepts).length ∧
      next (s.behind (s.rest.takeWhile accepts) (s.rest.dropWhile accepts)) g = some a := by
  obtain ⟨more, hmore⟩ := reach_eq_cons accepts s.rest s.previous s.offset []
  rw [run] at h
  simp only [hmore, List.takeWhile_cons] at h
  split at h
  · next hfar =>
    refine ⟨Nat.le_of_add_le_add_left (of_decide_eq_true hfar), ?_⟩
    exact (List.findSome?_cons_of_isSome (f := fun s => next s g) (hnext _ g)).symm.trans h
  · cases h

theorem run_many_of_total {accepts : Char → Bool} {least : Nat}
    (hnext : ∀ s g, (next s g).isSome) (h : (many accepts least).run s g next = some a) :
    ∃ taken rest, s.rest = taken ++ rest ∧ (∀ c ∈ taken, accepts c = true) ∧
      rest.head?.any accepts = false ∧ next (s.behind taken rest) g = some a := by
  refine ⟨s.rest.takeWhile accepts, s.rest.dropWhile accepts, List.takeWhile_append_dropWhile.symm,
    fun c hc => List.mem_takeWhile_imp hc, ?_, (run_many_takeWhile hnext h).2⟩
  cases hrest : s.rest.dropWhile accepts with
  | nil => rfl
  | cons c rest =>
    have hhead := List.head?_dropWhile_not accepts s.rest
    rw [hrest] at hhead
    simpa using hhead

theorem run_few {accepts : Char → Bool} (h : (few accepts).run s g next = some a) :
    ∃ taken rest, s.rest = taken ++ rest ∧ (∀ c ∈ taken, accepts c = true) ∧
      next (s.behind taken rest) g = some a := by
  obtain ⟨s', hs', hnext⟩ := List.exists_of_findSome?_eq_some h
  rcases exists_of_mem_reach (List.mem_reverse.1 hs') with hmem | ⟨taken, rest, hrest, htaken, rfl⟩
  · cases hmem
  · exact ⟨taken, rest, hrest, htaken, hnext⟩

theorem run_look {place : Place} (h : (look place).run s g next = some a) :
    s.satisfies place = true ∧ next s g = some a := by
  rw [run] at h
  split at h
  · next hplace => exact ⟨hplace, h⟩
  · cases h

theorem run_opt {body : Pattern} (h : (opt body).run s g next = some a) :
    body.run s g next = some a ∨ next s g = some a := by
  rw [run] at h
  split at h
  · next found hfound => exact .inl (hfound.trans h)
  · exact .inr h

/-- An optional pattern stops nothing. -/
theorem isSome_run_opt {body : Pattern} (h : (next s g).isSome) :
    ((opt body).run s g next).isSome := by
  rw [run]
  split
  · rfl
  · exact h

/-- **What a run says.** A part of the text is taken and groups of the pattern are filled, and then
what is behind the pattern succeeds. -/
theorem exists_run : ∀ (p : Pattern) {s : Cursor} {g : Groups} {next : Cursor → Groups → Option α},
    p.run s g next = some a → ∃ taken rest more, s.rest = taken ++ rest ∧
      (∀ i ∈ more.map Prod.fst, i ∈ p.indices) ∧ next (s.behind taken rest) (more ++ g) = some a
  | nothing, s, _, _, h => ⟨[], s.rest, [], rfl, by simp, h⟩
  | one _, _, _, _, h => by
    obtain ⟨c, rest, hrest, -, hnext⟩ := run_one h
    exact ⟨[c], rest, [], hrest, by simp, hnext⟩
  | many _ _, _, _, _, h => by
    obtain ⟨taken, rest, hrest, -, -, hnext⟩ := run_many h
    exact ⟨taken, rest, [], hrest, by simp, hnext⟩
  | few _, _, _, _, h => by
    obtain ⟨taken, rest, hrest, -, hnext⟩ := run_few h
    exact ⟨taken, rest, [], hrest, by simp, hnext⟩
  | look _, s, _, _, h => ⟨[], s.rest, [], rfl, by simp, (run_look h).2⟩
  | seq first second, s, g, _, h => by
    obtain ⟨taken, rest, more, hrest, hmore, hnext⟩ := exists_run first h
    obtain ⟨taken', rest', more', hrest', hmore', hnext'⟩ := exists_run second hnext
    have hrest' : rest = taken' ++ rest' := hrest'
    rw [Cursor.behind_behind, ← List.append_assoc] at hnext'
    refine ⟨taken ++ taken', rest', more' ++ more, by rw [hrest, hrest', List.append_assoc], ?_,
      hnext'⟩
    intro i hi
    rw [List.map_append, List.mem_append] at hi
    exact List.mem_append.2 (hi.elim (fun h => .inr (hmore' i h)) fun h => .inl (hmore i h))
  | alt first second, s, g, _, h => by
    rw [run] at h
    split at h
    · next found hfound =>
      obtain ⟨taken, rest, more, hrest, hmore, hnext⟩ := exists_run first (hfound.trans h)
      exact ⟨taken, rest, more, hrest, fun i hi => List.mem_append_left _ (hmore i hi), hnext⟩
    · obtain ⟨taken, rest, more, hrest, hmore, hnext⟩ := exists_run second h
      exact ⟨taken, rest, more, hrest, fun i hi => List.mem_append_right _ (hmore i hi), hnext⟩
  | opt body, s, _, _, h => by
    rcases run_opt h with h | h
    · exact exists_run body h
    · exact ⟨[], s.rest, [], rfl, by simp, h⟩
  | group index body, s, g, _, h => by
    obtain ⟨taken, rest, more, hrest, hmore, hnext⟩ := exists_run body h
    refine ⟨taken, rest, (index, ⟨s.offset, s.offset + taken.length, s.rest⟩) :: more, hrest, ?_,
      hnext⟩
    rw [List.map_cons, List.forall_mem_cons]
    exact ⟨List.mem_cons_self, fun i hi => List.mem_cons_of_mem _ (hmore i hi)⟩

end

/-! ## Groups -/

/-- What a group that starts at a place has taken. -/
theorem chars_behind {s : Cursor} {taken rest : Chars} (h : s.rest = taken ++ rest) :
    (⟨s.offset, (s.behind taken rest).offset, s.rest⟩ : Span).chars = taken := by
  rw [Span.chars, Cursor.behind, Nat.add_sub_cancel_left, h, List.take_left]

/-- Groups that a pattern cannot fill are not filled by it. -/
theorem lookup_of_notMem {more g : Groups} {index : Nat} {indices : List Nat}
    (h : ∀ i ∈ more.map Prod.fst, i ∈ indices) (hindex : index ∉ indices) :
    (more ++ g).lookup index = g.lookup index := by
  induction more with
  | nil => rfl
  | cons entry more ih =>
    rw [List.map_cons, List.forall_mem_cons] at h
    have hne : (index == entry.1) = false := by
      rw [beq_eq_false_iff_ne]
      rintro rfl
      exact hindex h.1
    rw [List.cons_append, List.lookup_cons, hne]
    exact ih h.2

/-! ## Searches -/

theorem searchFrom_eq_some {p : Pattern} {m : Match} : ∀ {text : Chars} {previous : Option Char}
    {offset : Nat}, p.searchFrom previous offset text = some m →
      ∃ front rest, text = front ++ rest ∧
        p.matchAt? (Cursor.behind ⟨previous, offset, text⟩ front rest) = some m
  | [], _, _, h => ⟨[], [], rfl, h⟩
  | c :: text, previous, offset, h => by
    rw [searchFrom] at h
    split at h
    · next found hfound => exact ⟨[], c :: text, rfl, hfound.trans h⟩
    · obtain ⟨front, rest, rfl, hmatch⟩ := searchFrom_eq_some h
      refine ⟨c :: front, rest, rfl, ?_⟩
      have hbehind : Cursor.behind ⟨previous, offset, c :: (front ++ rest)⟩ (c :: front) rest =
          Cursor.behind ⟨some c, offset + 1, front ++ rest⟩ front rest := by
        simp only [Cursor.behind, List.getLast?_cons, List.length_cons, Cursor.mk.injEq, and_true]
        constructor
        · cases front.getLast? <;> rfl
        · omega
      rw [hbehind]
      exact hmatch

/-- What a search finds is a match at a place of the text. -/
theorem first?_eq_some {p : Pattern} {text : Chars} {m : Match} (h : p.first? text = some m) :
    ∃ front s, Cursor.Stands text front s ∧ p.matchAt? s = some m := by
  obtain ⟨front, rest, hsplit, hmatch⟩ := searchFrom_eq_some h
  exact ⟨front, _, (Cursor.stands_start text).behind hsplit, hmatch⟩

/-- What a search for all matches finds are matches at places of the text. -/
theorem exists_of_mem_allFrom {p : Pattern} {m : Match} : ∀ {text : Chars} {resume : Nat}
    {previous : Option Char} {offset : Nat}, m ∈ p.allFrom resume previous offset text →
      ∃ front rest, text = front ++ rest ∧
        p.matchAt? (Cursor.behind ⟨previous, offset, text⟩ front rest) = some m
  | [], _, _, _, h => by
    rw [allFrom] at h
    split at h
    · cases h
    · exact ⟨[], [], rfl, Option.mem_toList.1 h⟩
  | c :: text, resume, previous, offset, h => by
    have later {resume : Nat} (h : m ∈ p.allFrom resume (some c) (offset + 1) text) :
        ∃ front rest, c :: text = front ++ rest ∧
          p.matchAt? (Cursor.behind ⟨previous, offset, c :: text⟩ front rest) = some m := by
      obtain ⟨front, rest, rfl, hmatch⟩ := exists_of_mem_allFrom h
      refine ⟨c :: front, rest, rfl, ?_⟩
      have hbehind := Cursor.behind_behind ⟨previous, offset, c :: (front ++ rest)⟩ [c] front
        (front ++ rest) rest
      exact hbehind ▸ hmatch
    rw [allFrom] at h
    split at h
    · exact later h
    · split at h
      · next found hfound =>
        rcases List.mem_cons.1 h with rfl | h
        · exact ⟨[], c :: text, rfl, hfound⟩
        · exact later h
      · exact later h

theorem exists_of_mem_all {p : Pattern} {text : Chars} {m : Match} (h : m ∈ p.all text) :
    ∃ front s, Cursor.Stands text front s ∧ p.matchAt? s = some m := by
  obtain ⟨front, rest, hsplit, hmatch⟩ := exists_of_mem_allFrom h
  exact ⟨front, _, (Cursor.stands_start text).behind hsplit, hmatch⟩

theorem isSome_searchFrom {p : Pattern} : ∀ {front rest : Chars} {previous : Option Char}
    {offset : Nat},
    (p.matchAt? (Cursor.behind ⟨previous, offset, front ++ rest⟩ front rest)).isSome →
      (p.searchFrom previous offset (front ++ rest)).isSome
  | [], [], _, _, h => h
  | [], c :: rest, previous, offset, h => by
    rw [List.nil_append, searchFrom]
    split
    · rfl
    · next hnone =>
      have hsome : (p.matchAt? ⟨previous, offset, c :: rest⟩).isSome := h
      rw [hnone] at hsome
      cases hsome
  | c :: front, rest, previous, offset, h => by
    rw [List.cons_append, searchFrom]
    split
    · rfl
    · refine isSome_searchFrom ?_
      have hbehind : Cursor.behind ⟨some c, offset + 1, front ++ rest⟩ front rest =
          Cursor.behind ⟨previous, offset, c :: front ++ rest⟩ (c :: front) rest := by
        simp only [Cursor.behind, List.getLast?_cons, List.length_cons, Cursor.mk.injEq, and_true]
        constructor
        · cases front.getLast? <;> rfl
        · omega
      rw [hbehind]
      exact h

/-- A pattern that matches at a place of the text is found. -/
theorem isSome_first? {p : Pattern} {text front : Chars} {s : Cursor} (hs : s.Stands text front)
    (h : (p.matchAt? s).isSome) : (p.first? text).isSome := by
  rw [first?, hs.split]
  refine isSome_searchFrom ?_
  rw [hs.eq_behind, hs.split] at h
  exact h

end Pattern
end ArchGraph
