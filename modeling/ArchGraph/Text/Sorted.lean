/-!
# Sorted strings

Strings in the order of their characters. Main statements: sorting keeps the strings, and a sorted
set has the members of its list.
-/

namespace ArchGraph.Text

/-- Whether a string stands before another one or is the same. -/
def notAfter (a b : String) : Bool := !decide (b < a)

/-- The strings in order. -/
def sorted (strings : List String) : List String := strings.mergeSort notAfter

/-- The strings in order, each once. -/
def sortedSet (strings : List String) : List String := sorted strings.eraseDups

theorem sorted_perm (strings : List String) : (sorted strings).Perm strings :=
  List.mergeSort_perm strings notAfter

theorem mem_sorted {s : String} {strings : List String} : s ∈ sorted strings ↔ s ∈ strings :=
  (sorted_perm strings).mem_iff

theorem mem_sortedSet {s : String} {strings : List String} :
    s ∈ sortedSet strings ↔ s ∈ strings := by
  simp [sortedSet, mem_sorted]

end ArchGraph.Text
