import ArchGraph.Proofs.Sql.Places
import ArchGraph.Proofs.Text.Bytes
/-!
# Where parts of a script come from

A script is what files leave behind that are pushed one after the other, so every file of a script
is one that was pushed (`files_ofPushes`) and a project is a list of pushes (`ofProject_eq`). Because
a line feed keeps two files apart, at most one of them holds a part, even if the part is empty and
stands right behind a file or in an empty one (`filter_holds`). Main statement: a part has a place
exactly if a file holds it, and its text and its lines are those of the file (`located_iff`).
-/

namespace ArchGraph.Sql

open Text (Chars bytesBefore)

/-- A part lies in a file; it may end where the file ends. -/
def MigrationFile.Holds (f : MigrationFile) (r : Region) : Prop :=
  f.start ≤ r.start ∧ r.stop ≤ f.stop

instance (f : MigrationFile) (r : Region) : Decidable (f.Holds r) :=
  inferInstanceAs (Decidable (_ ∧ _))

/-- A part of the script that lies in a file, as a part of the file. -/
def MigrationFile.within (f : MigrationFile) (r : Region) : Region :=
  ⟨r.start - f.start, r.stop - f.start⟩

namespace Migrations

/-! ## Pushes -/

/-- What files leave behind that are pushed one after the other, each with its repository and its
path. -/
def ofPushes (pushes : List (String × String × Chars)) : Migrations :=
  pushes.foldl (fun m file => m.push file.1 file.2.1 file.2.2) empty

theorem laid_ofPushes (pushes : List (String × String × Chars)) : Laid (ofPushes pushes) :=
  laid_foldl (fun _ _ hm => hm.push _ _ _) pushes laid_empty

/-- A script ends with a line feed, if it is not empty. -/
theorem Laid.getLast?_ne {m : Migrations} (hm : Laid m) : m.text.getLast? ≠ some ';' := by
  rcases hm.ends with hnil | hlast
  · rw [hnil]
    decide
  · rw [hlast]
    decide

/-- Pushing keeps every file as it is, in order. -/
theorem files_ofPushes (pushes : List (String × String × Chars)) :
    (ofPushes pushes).files.map (fun f => (f.repo, f.path, f.content)) = pushes := by
  have hrun : ∀ (pushes : List (String × String × Chars)) (m : Migrations),
      (pushes.foldl (fun m file => m.push file.1 file.2.1 file.2.2) m).files.map
          (fun f => (f.repo, f.path, f.content)) =
        m.files.map (fun f => (f.repo, f.path, f.content)) ++ pushes := by
    intro pushes
    induction pushes with
    | nil => simp
    | cons file pushes ih =>
      intro m
      rw [List.foldl_cons, ih, push, List.map_append, List.append_assoc]
      rfl
  exact hrun pushes empty

/-- The migrations of a project are pushed repository by repository. -/
theorem ofProject_eq (p : Project) :
    ofProject p = ofPushes (p.repositories.flatMap fun r =>
      (filesOf p r).map fun file => (r.nodeId, file.1, file.2.toList)) := by
  unfold ofProject ofPushes
  rw [List.foldl_flatMap]
  simp only [List.foldl_map]

/-! ## The file of a part -/

section

variable {m : Migrations} {r : Region} {f : MigrationFile}

/-- **One file at most holds a part.** -/
theorem Laid.filter_holds (hm : Laid m) (hr : r.start ≤ r.stop) (hf : f ∈ m.files)
    (hholds : f.Holds r) : m.files.filter (·.Holds r) = [f] := by
  have hmem : f ∈ m.files.filter (·.Holds r) := List.mem_filter.2 ⟨hf, decide_eq_true hholds⟩
  have hall : ∀ g ∈ m.files.filter (·.Holds r), g.Holds r := by
    intro g hg
    exact of_decide_eq_true (List.mem_filter.1 hg).2
  have hordered := hm.ordered.filter (·.Holds r)
  generalize m.files.filter (·.Holds r) = found at hmem hall hordered
  match found with
  | [] => cases hmem
  | [g] => rw [List.mem_singleton.1 hmem]
  | g :: g' :: more =>
    -- a part that two files hold would end in front of where it starts
    have hlt := (List.pairwise_cons.1 hordered).1 g' (by simp)
    have hg := hall g (by simp)
    have hg' := hall g' (by simp)
    unfold MigrationFile.Holds at hg hg'
    omega

theorem Laid.chars_within (hm : Laid m) (hr : r.start ≤ r.stop) (hf : f ∈ m.files)
    (hholds : f.Holds r) : (f.within r).chars f.content = r.chars m.text := by
  obtain ⟨hstart, hstop⟩ := hholds
  have hopen : f.start + (r.start - f.start) = r.start := by omega
  have hclose : f.start + (r.stop - f.start) = r.stop := by omega
  rw [← hm.content f hf, Region.chars_chars (by simp only [MigrationFile.within]; omega)]
  simp only [MigrationFile.within, hopen, hclose]

/-- In bytes, too, a place of a file is counted from where the file starts. -/
theorem Laid.bytesBefore_within (hm : Laid m) (hf : f ∈ m.files) {place : Nat}
    (hstart : f.start ≤ place) (hstop : place ≤ f.stop) : bytesBefore m.text place =
      bytesBefore m.text f.start + bytesBefore f.content (place - f.start) := by
  have hplace : f.start + (place - f.start) = place := by omega
  have hback : m.text.drop f.start = f.content ++ m.text.drop f.stop := by
    have hcontent := hm.content f hf
    have hsplit := List.take_append_drop f.content.length (m.text.drop f.start)
    rw [List.take_drop, List.drop_drop] at hsplit
    exact hsplit.symm.trans (congrArg (· ++ m.text.drop f.stop) hcontent)
  have hlength : place - f.start ≤ f.content.length := by
    unfold MigrationFile.stop at hstop
    omega
  rw [← Text.bytesBefore_append f.content (m.text.drop f.stop) hlength, ← hback,
    ← Text.bytesBefore_add, hplace]

end

/-- What is known about a part of a script and the file that holds it: no other file does, the part
reads as it reads in the file, its place names the file and the lines on which it starts and ends
there, and its bounds are as far behind the start of the file as in the file, in bytes, too. Lines
are numbered in 32-bit words, which are the numbers themselves in a file with fewer lines. -/
structure Origin (m : Migrations) (r : Region) (f : MigrationFile) : Prop where
  unique : m.files.filter (·.Holds r) = [f]
  chars  : r.chars m.text = (f.within r).chars f.content
  place  : m.locate? r = some {
    repo := f.repo
    path := f.path
    lineStart := (1 + (f.content.take (r.start - f.start)).count '\n').toUInt32
    lineEnd := (1 + (f.content.take (r.stop - f.start)).count '\n').toUInt32 }
  exact  : 1 + f.content.count '\n' < UInt32.size → ∀ place ∈ m.locate? r,
    place.lineStart.toNat = 1 + (f.content.take (r.start - f.start)).count '\n' ∧
      place.lineEnd.toNat = 1 + (f.content.take (r.stop - f.start)).count '\n'
  bytes  : ∀ place ∈ [r.start, r.stop], bytesBefore m.text place =
    bytesBefore m.text f.start + bytesBefore f.content (place - f.start)

/-- **Places lead back to files.** Whatever files were pushed, a part of the script has a place
exactly if one of them holds it, and then it is this part of this file. -/
theorem located_iff (pushes : List (String × String × Chars)) {r : Region}
    (hr : r.start ≤ r.stop) :
    (ofPushes pushes).files.map (fun f => (f.repo, f.path, f.content)) = pushes ∧
      (((ofPushes pushes).locate? r).isSome ↔ ∃ f ∈ (ofPushes pushes).files, f.Holds r) ∧
      ∀ f ∈ (ofPushes pushes).files, f.Holds r → (ofPushes pushes).Origin r f := by
  have hm := laid_ofPushes pushes
  have horigin : ∀ f ∈ (ofPushes pushes).files, f.Holds r → (ofPushes pushes).Origin r f := by
    intro f hf hholds
    have ⟨hstart, hstop⟩ := hholds
    have hplace := hm.locate?_eq hf hstart (by omega)
    rw [if_neg (by omega)] at hplace
    refine ⟨hm.filter_holds hr hf hholds, (hm.chars_within hr hf hholds).symm, ?_, ?_, ?_⟩
    · rw [hplace]
      simp only [Text.lineAt, Nat.add_comm 1]
    · intro hfits place hlocated
      have hexact (offset : Nat) :
          (Text.lineAt f.content offset).toNat = 1 + (f.content.take offset).count '\n' := by
        rw [Text.toNat_lineAt_of_count (by omega), Nat.add_comm]
      obtain rfl := Option.some.inj (hplace.symm.trans hlocated)
      exact ⟨hexact _, hexact _⟩
    · intro place hplace
      simp only [List.mem_cons, List.not_mem_nil, or_false] at hplace
      exact hm.bytesBefore_within hf (by omega) (by omega)
  refine ⟨files_ofPushes pushes, ?_, horigin⟩
  constructor
  · intro hsome
    obtain ⟨place, hplace⟩ := Option.isSome_iff_exists.1 hsome
    obtain ⟨f, hf, hstart, -, hstop, -⟩ := exists_of_locate? hplace
    exact ⟨f, hf, hstart, hstop⟩
  · rintro ⟨f, hf, hholds⟩
    rw [(horigin f hf hholds).place]
    rfl

/-- Two files with an empty one in between. -/
def threePushes : List (String × String × Chars) :=
  [("r", "migrations/1.sql", "a;\nb;".toList), ("r", "migrations/2.sql", []),
   ("s", "migrations/3.sql", "é;".toList)]

theorem located_second_line : (⟨3, 5⟩ : Region).start ≤ (⟨3, 5⟩ : Region).stop ∧
    (ofPushes threePushes).locate? ⟨3, 5⟩ = some ⟨"r", "migrations/1.sql", 2, 2⟩ := by
  have h := located_iff threePushes (r := ⟨3, 5⟩) (by decide)
  exact ⟨by decide, (h.2.2 ⟨"r", "migrations/1.sql", 0, "a;\nb;".toList⟩ (by decide)
    (by decide)).place⟩

/-- The empty file holds nothing but its own place, and a part that spans two files has no place. -/
example : (ofPushes threePushes).locate? ⟨6, 6⟩ = some ⟨"r", "migrations/2.sql", 1, 1⟩ ∧
    (ofPushes threePushes).locate? ⟨6, 7⟩ = none := by decide

end Migrations
end ArchGraph.Sql
