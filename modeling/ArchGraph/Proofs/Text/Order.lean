import ArchGraph.Text.Sorted
import Mathlib.Data.String.Basic
/-!
# The order of sorted lists

What sorting by a key leaves behind is in the order of the keys (`pairwise_mergeSort_of_key`). Main
statement: in a sorted set of strings every string comes before all that follow it
(`pairwise_sortedSet`).
-/

namespace ArchGraph.Text

/-- A list that is sorted by a key. -/
theorem pairwise_mergeSort_of_key {α β : Type} [LinearOrder β] {le : α → α → Bool} (key : α → β)
    (h : ∀ a b, le a b = true ↔ key a ≤ key b) (l : List α) :
    (l.mergeSort le).Pairwise fun a b => key a ≤ key b := by
  refine (List.pairwise_mergeSort ?_ ?_ l).imp fun hab => (h _ _).1 hab
  · intro a b c hab hbc
    exact (h a c).2 (((h a b).1 hab).trans ((h b c).1 hbc))
  · intro a b
    rw [Bool.or_eq_true, h, h]
    exact le_total _ _

theorem notAfter_iff {a b : String} : notAfter a b = true ↔ a ≤ b := by
  rw [notAfter, Bool.not_eq_true', decide_eq_false_iff_not, not_lt]

theorem pairwise_sorted (strings : List String) : (sorted strings).Pairwise (· ≤ ·) :=
  pairwise_mergeSort_of_key id (fun _ _ => notAfter_iff) strings

theorem nodup_eraseDups : ∀ strings : List String, strings.eraseDups.Nodup
  | [] => by simp
  | s :: rest => by
    rw [List.eraseDups_cons, List.nodup_cons]
    exact ⟨by simp, nodup_eraseDups _⟩
termination_by strings => strings.length
decreasing_by exact Nat.lt_succ_of_le (List.length_filter_le _ _)

/-- A sorted set is strictly increasing. -/
theorem pairwise_sortedSet (strings : List String) : (sortedSet strings).Pairwise (· < ·) := by
  have hnodup : (sortedSet strings).Nodup :=
    (sorted_perm _).nodup_iff.2 (nodup_eraseDups strings)
  exact ((pairwise_sorted strings.eraseDups).and hnodup).imp fun h => lt_of_le_of_ne h.1 h.2

/-! ## Items taken out -/

/-- A list is split where a condition starts to hold in one way. -/
theorem append_inj_of_split {α : Type} {p : α → Prop} : ∀ {u u' v v' : List α},
    u ++ v = u' ++ v' → (∀ a ∈ u, ¬p a) → (∀ a ∈ u', ¬p a) → (∀ a ∈ v, p a) → (∀ a ∈ v', p a) →
      u = u' ∧ v = v'
  | [], [], _, _, h, _, _, _, _ => ⟨rfl, h⟩
  | [], a :: u', v, v', h, _, hu', hv, _ => by
    have ha : a ∈ v := by
      rw [List.nil_append] at h
      rw [h]
      exact List.mem_cons_self
    exact absurd (hv a ha) (hu' a List.mem_cons_self)
  | a :: u, [], v, v', h, hu, _, _, hv' => by
    have ha : a ∈ v' := by
      rw [List.nil_append] at h
      rw [← h]
      exact List.mem_cons_self
    exact absurd (hv' a ha) (hu a List.mem_cons_self)
  | a :: u, a' :: u', _, _, h, hu, hu', hv, hv' => by
    obtain ⟨rfl, hrest⟩ := List.cons.inj h
    obtain ⟨rfl, rfl⟩ := append_inj_of_split hrest (fun b hb => hu b (List.mem_cons_of_mem _ hb))
      (fun b hb => hu' b (List.mem_cons_of_mem _ hb)) hv hv'
    exact ⟨rfl, rfl⟩

/-- An item that is taken out of a list leaves the order of the others alone. -/
theorem mergeSort_middle {α : Type} {le : α → α → Bool}
    (trans : ∀ a b c, le a b = true → le b c = true → le a c = true)
    (total : ∀ a b, (le a b || le b a) = true) (x : α) (back : List α) : ∀ front : List α,
      ∃ before behind, (front ++ x :: back).mergeSort le = before ++ x :: behind ∧
        (front ++ back).mergeSort le = before ++ behind
  | [] => by
    obtain ⟨before, behind, hwith, hwithout, -⟩ := List.mergeSort_cons trans total x back
    exact ⟨before, behind, hwith, hwithout⟩
  | b :: front => by
    obtain ⟨before, behind, hwith, hwithout⟩ := mergeSort_middle trans total x back front
    -- `b` is put in front of all that it may stand before, with `x` and without it
    have hinsert (l : List α) : ∃ u v, (b :: l).mergeSort le = u ++ b :: v ∧
        l.mergeSort le = u ++ v ∧ (∀ c ∈ u, ¬le b c = true) ∧ ∀ c ∈ v, le b c = true := by
      obtain ⟨u, v, hcons, hl, hu⟩ := List.mergeSort_cons trans total b l
      have hsorted := List.pairwise_mergeSort trans total (b :: l)
      rw [hcons, List.pairwise_append, List.pairwise_cons] at hsorted
      exact ⟨u, v, hcons, hl, fun c hc => by simpa using hu c hc, hsorted.2.1.1⟩
    obtain ⟨u, v, hb, hsame, hu, hv⟩ := hinsert (front ++ x :: back)
    obtain ⟨u', v', hb', hsame', hu', hv'⟩ := hinsert (front ++ back)
    rw [List.cons_append, List.cons_append, hb, hb']
    rw [hwith] at hsame
    rw [hwithout] at hsame'
    rcases List.append_eq_append_iff.1 hsame with ⟨more, hmore, hx⟩ | ⟨more, hmore, hx⟩
    · cases more with
      | nil =>
        rw [List.append_nil] at hmore
        subst hmore
        obtain rfl : v = x :: behind := hx.symm
        obtain ⟨rfl, rfl⟩ := append_inj_of_split hsame'.symm hu' hu hv'
          (fun c hc => hv c (List.mem_cons_of_mem _ hc))
        exact ⟨u' ++ [b], v', by simp, by simp⟩
      | cons y more =>
        obtain ⟨rfl, rfl⟩ := List.cons.inj hx
        subst hmore
        have hsplit : u' ++ v' = (before ++ more) ++ v := by simp [← hsame']
        obtain ⟨rfl, rfl⟩ := append_inj_of_split hsplit hu'
          (fun c hc => hu c (by
            rcases List.mem_append.1 hc with hc | hc
            · exact List.mem_append_left _ hc
            · exact List.mem_append_right _ (List.mem_cons_of_mem _ hc))) hv' hv
        exact ⟨before, more ++ b :: v', by simp, by simp⟩
    · subst hmore hx
      have hsplit : u' ++ v' = u ++ (more ++ behind) := by simp [← hsame']
      obtain ⟨rfl, rfl⟩ := append_inj_of_split hsplit hu' hu hv' (fun c hc => hv c (by
        rcases List.mem_append.1 hc with hc | hc
        · exact List.mem_append_left _ hc
        · exact List.mem_append_right _ (List.mem_cons_of_mem _ hc)))
      exact ⟨u' ++ b :: more, behind, by simp, by simp⟩

end ArchGraph.Text
