import ArchGraph.Text.Lines
/-!
# Workspace globs

Patterns for the directories of a workspace's members: names joined by `/`, of which `*` stands
for any one name and `**` for whatever is left. A glob that starts with `!` excludes and accepts
nothing.
-/

namespace ArchGraph.Glob

open Text (Chars pieces)

/-- Whether names of a glob accept the names of a directory. -/
def fits : List Chars → List Chars → Bool
  | [], [] => true
  | [], _ :: _ => false
  | g :: glob, dir =>
    g = ['*', '*'] ||
      match dir with
      | [] => false
      | d :: dir => (g = ['*'] || g = d) && fits glob dir

/-- A glob without the `./` in front of it. -/
def dropHere : Chars → Chars
  | '.' :: '/' :: rest => dropHere rest
  | glob => glob

/-- Whether a glob accepts a directory. Slashes at its end do not matter. -/
def accepts (glob dir : String) : Bool :=
  let chars := glob.toList
  chars.head? ≠ some '!' &&
    fits (pieces (· = '/') (Text.dropEndWhile (· = '/') (dropHere chars)))
      (pieces (· = '/') dir.toList)

/-- What is left is accepted by `**` behind names that are accepted. -/
theorem fits_rest (names rest : List Chars) :
    fits (names ++ [['*', '*']]) (names ++ rest) = true := by
  induction names with
  | nil => simp [fits]
  | cons n names ih => simp [fits, ih]

/-- Names accept themselves. -/
theorem fits_self (names : List Chars) : fits names names = true := by
  induction names with
  | nil => rfl
  | cons n names ih => simp [fits, ih]

end ArchGraph.Glob
