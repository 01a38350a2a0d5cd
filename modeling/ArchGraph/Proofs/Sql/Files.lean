import ArchGraph.Proofs.Sql.Blanking
import ArchGraph.Sql.Migrations
/-!
# Migration files without their comments

Taking the comments out of every migration file takes the comments out of the script that the files
make up, if no file ends inside of a string or a block comment (`text_of_blanked`): a line comment
ends with its file.
-/

namespace ArchGraph.Sql

open Text (Chars)

/-- A text does not end inside of a string or a block comment. -/
def Closed (text : Chars) : Prop :=
  modeFrom .code text text.length = .code ∨ modeFrom .code text text.length = .lineComment

instance (text : Chars) : Decidable (Closed text) := inferInstanceAs (Decidable (_ ∨ _))

/-- A line feed behind a character is no part of the mark of a comment. -/
theorem Mode.look_line (mode : Mode) (c : Char) :
    mode.after c (some '\n') = mode.after c none ∧ mode.read? c (some '\n') = mode.read? c none := by
  cases mode <;> simp [after, read?]

/-- A line feed behind a text does not change how the text is read. -/
theorem modeFrom_append_line (text : Chars) (mode : Mode) :
    modeFrom mode (text ++ ['\n']) text.length = modeFrom mode text text.length := by
  have hline : modeFrom mode (text ++ ['\n']) text.length =
      modeFrom mode (text ++ []) text.length :=
    modeFrom_append (fun mode c => by simpa using (mode.look_line c).1) text mode
  rwa [List.append_nil] at hline

/-- What stands behind a line feed does not change how the text up to it is read. -/
theorem modeFrom_append_lines (back : Chars) : ∀ (text : Chars) (mode : Mode),
    modeFrom mode (text ++ '\n' :: back) (text.length + 1) =
      modeFrom mode (text ++ ['\n']) (text.length + 1)
  | [], mode => by
    rw [List.nil_append, List.nil_append, List.length_nil, modeFrom_cons, modeFrom_cons,
      modeFrom_zero, modeFrom_zero]
    cases mode <;> simp [Mode.after]
  | [c], mode => modeFrom_append_lines back [] (mode.after c (some '\n'))
  | c :: d :: text, mode => modeFrom_append_lines back (d :: text) (mode.after c (some d))

/-- A line feed behind a text that is closed is read. -/
theorem lexFrom_append_line : ∀ (text : Chars) (mode : Mode) (offset : Nat),
    modeFrom mode text text.length = .code ∨ modeFrom mode text text.length = .lineComment →
      lexFrom mode offset (text ++ ['\n']) =
        lexFrom mode offset text ++ [⟨offset + text.length, '\n', false⟩]
  | [], mode, offset, h => by
    rw [List.length_nil, modeFrom_zero] at h
    rcases h with rfl | rfl <;> rfl
  | [c], mode, offset, h => by
    have ih := lexFrom_append_line [] (mode.after c none) (offset + 1) h
    rw [List.cons_append, lexFrom_cons, List.nil_append, List.head?_cons, (mode.look_line c).1,
      (mode.look_line c).2, lexFrom_cons mode offset c [], List.append_assoc]
    exact congrArg (_ ++ ·) ih
  | c :: d :: text, mode, offset, h => by
    have ih := lexFrom_append_line (d :: text) (mode.after c (some d)) (offset + 1) h
    rw [List.cons_append, lexFrom_cons, lexFrom_cons mode offset c, List.append_assoc]
    refine congrArg (_ ++ ·) (ih.trans ?_)
    rw [List.length_cons (a := c), Nat.add_right_comm offset 1, Nat.add_assoc offset _ 1]
    rfl

theorem read_append_line {text : Chars} (h : Closed text) :
    read (text ++ ['\n']) = read text ++ ['\n'] := by
  rw [read, lex, lexFrom_append_line text .code 0 h, List.map_append]
  rfl

theorem modeFrom_line {text : Chars} (h : Closed text) :
    modeFrom .code (text ++ ['\n']) (text ++ ['\n']).length = .code := by
  rw [List.length_append, modeFrom_add, modeFrom_append_line, List.drop_left]
  rcases h with h | h <;> rw [h] <;> rfl

/-! ## Scripts of files -/

/-- A script that nothing or a line feed ends, outside of comments and strings. -/
def Ready (text : Chars) : Prop :=
  text = [] ∨ ∃ front, text = front ++ ['\n'] ∧ modeFrom .code text text.length = .code

theorem Ready.outside {text : Chars} (h : Ready text) (back : Chars) :
    Outside (text ++ back) text.length where
  le := by simp
  mode := by
    rcases h with rfl | ⟨front, rfl, hmode⟩
    · rw [List.length_nil, modeFrom_zero]
    · rw [List.length_append, List.length_singleton] at hmode ⊢
      rw [List.append_assoc, List.singleton_append, modeFrom_append_lines, hmode]

/-- The text of a migration file without its comments. -/
def blank (content : String) : String := String.ofList (read content.toList)

/-- Migrations with a script that is ready for the next file, and migrations with that script
without its comments. -/
structure Blanks (m m' : Migrations) : Prop where
  text  : m'.text = read m.text
  ready : Ready m.text

theorem Blanks.push {m m' : Migrations} (h : Blanks m m') {repo path content : String}
    (hclosed : Closed content.toList) :
    Blanks (m.push repo path content.toList) (m'.push repo path (blank content).toList) := by
  have htext : (m.push repo path content.toList).text = m.text ++ (content.toList ++ ['\n']) :=
    List.append_assoc _ _ _
  have hout := h.ready.outside (content.toList ++ ['\n'])
  constructor
  · rw [htext, hout.read_eq, List.take_left, List.drop_left, read_append_line hclosed, ← h.text,
      Migrations.push, blank, String.toList_ofList, List.append_assoc]
  · refine .inr ⟨m.text ++ content.toList, rfl, ?_⟩
    rw [htext, List.length_append, modeFrom_add, hout.mode, List.drop_left]
    exact modeFrom_line hclosed

/-- A project whose migration files are those of a project without their comments. -/
structure Blanked (p p' : Project) : Prop where
  repositories : p'.repositories = p.repositories
  files : ∀ r ∈ p.repositories, Migrations.filesOf p' r =
    (Migrations.filesOf p r).map fun file => (file.1, blank file.2)

instance (p p' : Project) : Decidable (Blanked p p') :=
  decidable_of_iff (p'.repositories = p.repositories ∧ ∀ r ∈ p.repositories,
      Migrations.filesOf p' r = (Migrations.filesOf p r).map fun file => (file.1, blank file.2))
    ⟨fun h => ⟨h.1, h.2⟩, fun h => ⟨h.repositories, h.files⟩⟩

theorem blanks_files {repo : String} : ∀ {files : List (String × String)} {m m' : Migrations},
    Blanks m m' → (∀ file ∈ files, Closed file.2.toList) →
      Blanks (files.foldl (fun m file => m.push repo file.1 file.2.toList) m)
        ((files.map fun file => (file.1, blank file.2)).foldl
          (fun m file => m.push repo file.1 file.2.toList) m')
  | [], _, _, h, _ => h
  | file :: files, m, m', h, hclosed => by
    obtain ⟨hfile, hfiles⟩ := List.forall_mem_cons.1 hclosed
    rw [List.map_cons, List.foldl_cons, List.foldl_cons]
    exact blanks_files (h.push hfile) hfiles

theorem blanks_repositories {p p' : Project} : ∀ {rs : List Repository} {m m' : Migrations},
    Blanks m m' → (∀ r ∈ rs, Migrations.filesOf p' r =
      (Migrations.filesOf p r).map fun file => (file.1, blank file.2)) →
      (∀ r ∈ rs, ∀ file ∈ Migrations.filesOf p r, Closed file.2.toList) →
        Blanks
          (rs.foldl (fun m r => (Migrations.filesOf p r).foldl
            (fun m file => m.push r.nodeId file.1 file.2.toList) m) m)
          (rs.foldl (fun m r => (Migrations.filesOf p' r).foldl
            (fun m file => m.push r.nodeId file.1 file.2.toList) m) m')
  | [], _, _, h, _, _ => h
  | r :: rs, m, m', h, hfiles, hclosed => by
    obtain ⟨hr, hrs⟩ := List.forall_mem_cons.1 hfiles
    obtain ⟨hrClosed, hrsClosed⟩ := List.forall_mem_cons.1 hclosed
    rw [List.foldl_cons, List.foldl_cons, hr]
    exact blanks_repositories (blanks_files h hrClosed) hrs hrsClosed

/-- **Blanking file by file.** The script of files without their comments is the script of the files
without its comments. -/
theorem text_of_blanked {p p' : Project} (h : Blanked p p')
    (hclosed : ∀ r ∈ p.repositories, ∀ file ∈ Migrations.filesOf p r, Closed file.2.toList) :
    (Migrations.ofProject p').text = read (Migrations.ofProject p).text := by
  have hempty : Blanks .empty .empty := ⟨rfl, .inl rfl⟩
  have hblanks := blanks_repositories hempty h.files hclosed
  rw [Migrations.ofProject, h.repositories]
  exact hblanks.text

end ArchGraph.Sql
