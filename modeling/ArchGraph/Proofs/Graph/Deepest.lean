import ArchGraph.Graph.Apps
import ArchGraph.Proofs.Path.Names
import ArchGraph.Proofs.Text.Order
import Mathlib.Data.Prod.Lex
/-!
# A file belongs to its deepest app

The owner of a file is the first app above it when longer roots come first. A directory has fewer
bytes than its subdirectories, so the first app is the deepest one, with one exception: the root
directory spelled as a dot has a byte itself and comes before a directory whose name is a single
letter. Main statement: `owner?_deepest_iff`; the exception's instance is `owner?_of_behindDot`.
-/

namespace ArchGraph

namespace AppRoot

/-- The place of an app among others: longer roots first, then the order of characters. -/
def place (a : AppRoot) : ℕᵒᵈ ×ₗ String := toLex (OrderDual.toDual a.root.utf8ByteSize, a.root)

theorem place_le_iff {a b : AppRoot} : a.place ≤ b.place ↔
    b.root.utf8ByteSize < a.root.utf8ByteSize ∨
      b.root.utf8ByteSize = a.root.utf8ByteSize ∧ a.root ≤ b.root := by
  rw [place, place, Prod.Lex.toLex_le_toLex, OrderDual.toDual_lt_toDual, OrderDual.toDual_inj,
    eq_comm]

theorem longestFirst_iff (a b : AppRoot) : longestFirst a b = true ↔ a.place ≤ b.place := by
  rw [place_le_iff, longestFirst, Bool.or_eq_true, Bool.and_eq_true, decide_eq_true_eq, beq_iff_eq,
    Bool.not_eq_true', decide_eq_false_iff_not, not_lt, eq_comm]

end AppRoot

namespace Apps

/-- An app that a graph holds for a repository. -/
def Held (g : Graph) (repo : String) (a : AppRoot) : Prop :=
  ∃ n ∈ g.nodes, n.id = a.id ∧ n.owningRepo = some repo ∧ ∃ d, n.detail = .app d ∧ d.root = a.root

variable {g : Graph} {repo path : String} {a : AppRoot}

theorem rootOf?_eq_some_iff {n : Node} : rootOf? repo n = some a ↔
    n.id = a.id ∧ n.owningRepo = some repo ∧ ∃ d, n.detail = .app d ∧ d.root = a.root := by
  obtain ⟨root, id⟩ := a
  unfold rootOf?
  cases n.detail with
  | app d =>
    by_cases hrepo : n.owningRepo = some repo <;> simp [hrepo, and_comm]
  | _ => simp

theorem mem_roots_ofGraph : a ∈ (ofGraph g repo).roots ↔ Held g repo a := by
  simp only [ofGraph, List.mem_mergeSort, List.mem_filterMap, rootOf?_eq_some_iff, Held]

/-! ## The first app above a path -/

/-- The first item with a property comes before all others with that property. -/
theorem le_of_find?_eq_some {α β : Type} [Preorder β] {key : α → β} {p : α → Bool} {l : List α}
    {a : α} (hl : l.Pairwise fun a b => key a ≤ key b) (h : l.find? p = some a) :
    ∀ b ∈ l, p b = true → key a ≤ key b := by
  obtain ⟨-, front, back, rfl, hfront⟩ := List.find?_eq_some_iff_append.1 h
  obtain ⟨-, hback, -⟩ := List.pairwise_append.1 hl
  intro b hb hpb
  rcases List.mem_append.1 hb with hb | hb
  · simpa [hpb] using hfront b hb
  · rcases List.mem_cons.1 hb with rfl | hb
    · exact le_rfl
    · exact List.rel_of_pairwise_cons hback hb

theorem owner?_eq_none_iff : (ofGraph g repo).owner? path = none ↔
    ∀ a, Held g repo a → ¬Path.LiesIn path a.root := by
  rw [owner?, Option.map_eq_none_iff, List.find?_eq_none]
  simp only [mem_roots_ofGraph, Path.isUnder_iff_liesIn]

/-- The owner of a path is the app above it that comes first. -/
theorem first_of_owner? {id : String} (h : (ofGraph g repo).owner? path = some id) :
    ∃ a, Held g repo a ∧ a.id = id ∧ Path.LiesIn path a.root ∧
      ∀ b, Held g repo b → Path.LiesIn path b.root → a.place ≤ b.place := by
  obtain ⟨a, ha, rfl⟩ := Option.map_eq_some_iff.1 h
  have hsorted : (ofGraph g repo).roots.Pairwise fun a b => a.place ≤ b.place :=
    Text.pairwise_mergeSort_of_key AppRoot.place AppRoot.longestFirst_iff _
  have hunder : Path.isUnder path a.root = true := by simpa using List.find?_some ha
  refine ⟨a, mem_roots_ofGraph.1 (List.mem_of_find?_eq_some ha), rfl,
    Path.isUnder_iff_liesIn.1 hunder, fun b hb hpath => ?_⟩
  exact le_of_find?_eq_some hsorted ha b (mem_roots_ofGraph.2 hb) (Path.isUnder_iff_liesIn.2 hpath)

/-! ## The deepest app -/

/-- A directory whose name is a single byte, and behind the dot in the order of characters. -/
def IsBehindDot (dir : String) : Prop := dir.utf8ByteSize = 1 ∧ "." < dir

theorem IsBehindDot.isSubdir {dir : String} (h : IsBehindDot dir) : Path.IsSubdir dir "." := by
  refine ⟨?_, .inl (.inr rfl)⟩
  rintro (rfl | rfl)
  · exact absurd h.1 (by decide)
  · exact lt_irrefl _ h.2

/-- An app in a subdirectory comes first, unless the dot comes before the subdirectory. -/
theorem place_lt_of_isSubdir {b : AppRoot} (h : Path.IsSubdir b.root a.root)
    (hbehind : ¬(a.root = "." ∧ IsBehindDot b.root)) : b.place < a.place := by
  rw [lt_iff_not_ge, AppRoot.place_le_iff]
  by_cases hdot : a.root = "."
  · have hsize : a.root.utf8ByteSize = 1 := by rw [hdot]; rfl
    have hne : b.root.utf8ByteSize ≠ 0 :=
      fun h0 => h.1 (.inl (String.utf8ByteSize_eq_zero_iff.1 h0))
    rintro (hlt | ⟨heq, hle⟩)
    · omega
    · refine hbehind ⟨hdot, heq.trans hsize, lt_of_le_of_ne (hdot ▸ hle) ?_⟩
      exact fun hb => h.1 (.inr hb.symm)
  · have hsize := h.size_lt hdot
    omega

/-- **A file belongs to its deepest app**, but for directories behind the dot. A path has an owner
exactly if it lies in the root of some app of the repository. The owner is an app whose root the
path lies in, and no other such app has its root in a subdirectory, except where the owner's root
is spelled as a dot and the path lies in an app whose root is called by a single byte behind the
dot. -/
theorem owner?_deepest_iff (g : Graph) (repo path : String) :
    ((ofGraph g repo).owner? path = none ↔ ∀ a, Held g repo a → ¬Path.LiesIn path a.root) ∧
      ∀ id, (ofGraph g repo).owner? path = some id →
        ∃ a, Held g repo a ∧ a.id = id ∧ Path.LiesIn path a.root ∧
          ((∀ b, Held g repo b → Path.LiesIn path b.root → ¬Path.IsSubdir b.root a.root) ↔
            ¬(a.root = "." ∧
              ∃ b, Held g repo b ∧ Path.LiesIn path b.root ∧ IsBehindDot b.root)) := by
  refine ⟨owner?_eq_none_iff, fun id hid => ?_⟩
  obtain ⟨a, ha, rfl, hpath, hfirst⟩ := first_of_owner? hid
  refine ⟨a, ha, rfl, hpath, ?_, ?_⟩
  · rintro hdeepest ⟨hdot, b, hb, hbpath, hbehind⟩
    exact hdeepest b hb hbpath (hdot ▸ hbehind.isSubdir)
  · intro hno b hb hbpath hsub
    have hbehind : ¬(a.root = "." ∧ IsBehindDot b.root) :=
      fun h => hno ⟨h.1, b, hb, hbpath, h.2⟩
    exact absurd (hfirst b hb hbpath) (not_le_of_gt (place_lt_of_isSubdir hsub hbehind))

/-- A graph with an app in the root directory and one in the directory `a`. -/
def dotApps : Graph :=
  { nodes := [("top", "."), ("letter", "a")].map fun (id, root) =>
      ⟨id, root, some "r", .app ⟨root, none, none⟩⟩ }

/-- The app in the root directory owns a file in `a`, although the app there is deeper. -/
theorem owner?_of_behindDot :
    (ofGraph dotApps "r").owner? "a/page.tsx" = some "top" ∧
      ¬∃ a, Held dotApps "r" a ∧ a.id = "top" ∧ Path.LiesIn "a/page.tsx" a.root ∧
        ∀ b, Held dotApps "r" b → Path.LiesIn "a/page.tsx" b.root →
          ¬Path.IsSubdir b.root a.root := by
  constructor
  · have hroots : dotApps.nodes.filterMap (rootOf? "r") = [⟨".", "top"⟩, ⟨"a", "letter"⟩] := by
      decide
    rw [ofGraph, hroots, List.mergeSort_of_pairwise (by decide)]
    decide
  · rintro ⟨a, ⟨n, hn, hid, -, d, hd, hroot⟩, htop, -, hdeepest⟩
    have hdot : a.root = "." := by
      rw [htop] at hid
      simp only [dotApps, List.map_cons, List.map_nil, List.mem_cons, List.not_mem_nil] at hn
      rcases hn with rfl | rfl | hn
      · cases hd
        exact hroot.symm
      · exact absurd hid (by decide)
      · cases hn
    have hbehind : IsBehindDot "a" := ⟨rfl, by decide⟩
    refine hdeepest ⟨"a", "letter"⟩ ⟨_, List.mem_cons_of_mem _ List.mem_cons_self, rfl, rfl, _, rfl, rfl⟩
      (.inr ⟨["page.tsx"], by decide, by decide⟩) ?_
    rw [hdot]
    exact hbehind.isSubdir

end Apps
end ArchGraph
