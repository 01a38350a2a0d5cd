import ArchGraph.Path
/-!
# The names of a path

Taking a path apart at its slashes and joining names by slashes undo each other
(`names_ofNames`, `ofNames_names`), and a slash between two paths separates their names
(`names_append_slash`). A path below another directory than the root lies behind the directory and a
slash (`isUnder_iff`), which is to say that it has more names behind those of the directory
(`isUnder_iff_liesIn`).
-/

namespace ArchGraph

/-- The pieces of a text are what the library splits it into. -/
theorem Text.pieces_eq_splitOnP (isSep : Char → Bool) : ∀ text : Chars,
    pieces isSep text = text.splitOnP isSep
  | [] => rfl
  | c :: text => by
    rw [pieces, List.splitOnP_cons_eq_if_modifyHead, pieces_eq_splitOnP isSep text]
    split
    · rfl
    · cases h : text.splitOnP isSep with
      | nil => exact absurd h (List.splitOnP_ne_nil isSep text)
      | cons piece more => rfl

theorem Text.not_isSep_of_mem_pieces {isSep : Char → Bool} : ∀ {text piece : Chars},
    piece ∈ pieces isSep text → ∀ c ∈ piece, isSep c = false
  | [], piece, h, _, hc => by
    rw [pieces, List.mem_singleton] at h
    simp [h] at hc
  | d :: text, piece, h, c, hc => by
    rw [pieces] at h
    split at h
    · rcases List.mem_cons.1 h with rfl | h
      · simp at hc
      · exact not_isSep_of_mem_pieces h c hc
    · next hd =>
      split at h
      · next hnil => exact absurd hnil (pieces_ne_nil isSep text)
      · next first more hpieces =>
        have hmem {piece : Chars} (h : piece ∈ first :: more) : ∀ c ∈ piece, isSep c = false :=
          not_isSep_of_mem_pieces (hpieces ▸ h)
        rcases List.mem_cons.1 h with rfl | h
        · rcases List.mem_cons.1 hc with rfl | hc
          · simpa using hd
          · exact hmem List.mem_cons_self c hc
        · exact hmem (List.mem_cons_of_mem _ h) c hc

namespace Path

theorem names_eq (path : String) : names path = (path.toList.splitOn '/').map String.ofList := by
  rw [names, Text.pieces_eq_splitOnP, List.splitOn_eq_splitOnP]
  rfl

theorem names_ne_nil (path : String) : names path ≠ [] := by
  simp [names_eq, List.splitOn_ne_nil]

/-- A slash between two paths separates their names. -/
theorem names_append_slash (front back : String) :
    names (front ++ "/" ++ back) = names front ++ names back := by
  have htext : (front ++ "/" ++ back).toList = front.toList ++ '/' :: back.toList := by simp
  rw [names_eq, htext, List.splitOn_append_cons_self, List.map_append, ← names_eq, ← names_eq]

theorem names_of_notMem {name : String} (h : '/' ∉ name.toList) : names name = [name] := by
  rw [names_eq, List.splitOn_eq_singleton h, List.map_singleton, String.ofList_toList]

/-- Names that are joined are read back. -/
theorem names_ofNames : ∀ {path : List String}, path ≠ [] → (∀ name ∈ path, '/' ∉ name.toList) →
    names (ofNames path) = path
  | [name], _, h => by
    rw [ofNames, String.intercalate_singleton]
    exact names_of_notMem (h name List.mem_cons_self)
  | name :: next :: more, _, h => by
    obtain ⟨hname, hmore⟩ := List.forall_mem_cons.1 h
    have ih := names_ofNames (List.cons_ne_nil next more) hmore
    rw [ofNames] at ih ⊢
    rw [String.intercalate_cons_cons, names_append_slash, names_of_notMem hname, ih,
      List.singleton_append]

/-- No name of a path holds a slash. -/
theorem slash_notMem_of_mem_names {path name : String} (h : name ∈ names path) :
    '/' ∉ name.toList := by
  obtain ⟨piece, hpiece, rfl⟩ := List.mem_map.1 h
  rw [String.toList_ofList]
  intro hslash
  have hsep := Text.not_isSep_of_mem_pieces hpiece _ hslash
  simp at hsep

theorem ofNames_cons (name : String) {names : List String} (h : names ≠ []) :
    ofNames (name :: names) = name ++ "/" ++ ofNames names := by
  cases names with
  | nil => exact absurd rfl h
  | cons next names => rw [ofNames, String.intercalate_cons_cons, ← ofNames]

/-- Names joined in two parts, with a slash between the parts. -/
theorem ofNames_append {back : List String} (hback : back ≠ []) : ∀ {front : List String},
    front ≠ [] → ofNames (front ++ back) = ofNames front ++ "/" ++ ofNames back
  | [first], _ => ofNames_cons first hback
  | first :: next :: more, _ => by
    have ih := ofNames_append hback (List.cons_ne_nil next more)
    rw [List.cons_append, ofNames_cons first (by simp), ofNames_cons first (by simp), ih]
    simp only [String.append_assoc]

/-- A path joins its names. -/
theorem ofNames_names (path : String) : ofNames (names path) = path := by
  have hjoin : ∀ pieces : List (List Char),
      (ofNames (pieces.map String.ofList)).toList = ['/'].intercalate pieces := by
    intro pieces
    induction pieces with
    | nil => rfl
    | cons piece pieces ih =>
      cases pieces with
      | nil => simp [ofNames, String.intercalate_singleton]
      | cons next pieces =>
        rw [List.map_cons, ofNames_cons _ (by simp), List.intercalate_cons_cons, ← ih]
        simp
  apply String.toList_injective
  rw [names_eq, hjoin, List.intercalate_splitOn]

/-! ## Below a directory -/

/-- A path with a parent other than the root lies behind its parent and a slash. -/
theorem eq_parent_append {path : String} (h : parent path ≠ "") :
    path = parent path ++ "/" ++ fileName path := by
  have hfront : (names path).dropLast ≠ [] := by
    intro hnil
    unfold parent at h
    rw [hnil] at h
    exact h rfl
  have hlast := List.dropLast_concat_getLast (names_ne_nil path)
  have hname : fileName path = (names path).getLast (names_ne_nil path) := by
    unfold fileName
    rw [List.getLastD_eq_getLast?, List.getLast?_eq_some_getLast (names_ne_nil path),
      Option.getD_some]
  calc path = ofNames (names path) := (ofNames_names path).symm
    _ = ofNames ((names path).dropLast ++ [fileName path]) := by rw [hname, hlast]
    _ = parent path ++ "/" ++ fileName path := ofNames_append (List.cons_ne_nil _ _) hfront

/-- What lies below a directory other than the root: the paths behind it and a slash. -/
theorem isUnder_iff {path dir : String} (h : dir ≠ "") (hdot : dir ≠ ".") :
    isUnder path dir = true ↔ ∃ rest, path.toList = dir.toList ++ '/' :: rest := by
  unfold isUnder
  simp only [h, hdot, decide_false, Bool.false_or]
  constructor
  · intro hunder
    split at hunder
    · next rest hrest => exact ⟨rest, Text.dropStart?_eq_some_iff.1 hrest⟩
    · cases hunder
  · rintro ⟨rest, hrest⟩
    rw [Text.dropStart?_eq_some_iff.2 hrest]
    rfl

/-- The root directory, in both of its spellings. -/
def IsTop (dir : String) : Prop := dir = "" ∨ dir = "."

/-- What lies in a directory: everything in the root directory, and in another one the paths that
have more names behind those of the directory. -/
def LiesIn (path dir : String) : Prop :=
  IsTop dir ∨ ∃ more, more ≠ [] ∧ names path = names dir ++ more

/-- A directory that lies in another one. The root directory lies in none. -/
def IsSubdir (inner outer : String) : Prop := ¬IsTop inner ∧ LiesIn inner outer

theorem names_eq_append_iff {path dir : String} :
    (∃ more, more ≠ [] ∧ names path = names dir ++ more) ↔ ∃ rest, path = dir ++ "/" ++ rest := by
  constructor
  · rintro ⟨more, hmore, hnames⟩
    refine ⟨ofNames more, ?_⟩
    calc path = ofNames (names dir ++ more) := by rw [← hnames, ofNames_names]
      _ = dir ++ "/" ++ ofNames more := by
        rw [ofNames_append hmore (names_ne_nil dir), ofNames_names]
  · rintro ⟨rest, rfl⟩
    exact ⟨names rest, names_ne_nil rest, names_append_slash dir rest⟩

theorem isUnder_iff_liesIn {path dir : String} : isUnder path dir = true ↔ LiesIn path dir := by
  by_cases htop : IsTop dir
  · refine iff_of_true ?_ (.inl htop)
    rcases htop with rfl | rfl <;> simp [isUnder]
  · obtain ⟨hempty, hdot⟩ := not_or.1 htop
    rw [isUnder_iff hempty hdot, LiesIn, or_iff_right htop, names_eq_append_iff]
    constructor
    · rintro ⟨rest, hrest⟩
      exact ⟨String.ofList rest, by rw [← String.toList_inj, hrest]; simp⟩
    · rintro ⟨rest, rfl⟩
      exact ⟨rest.toList, by simp⟩

/-- A directory has fewer bytes than its subdirectories, but for the root directory that is spelled
as a dot. -/
theorem IsSubdir.size_lt {inner outer : String} (h : IsSubdir inner outer) (hdot : outer ≠ ".") :
    outer.utf8ByteSize < inner.utf8ByteSize := by
  obtain ⟨htop, (hempty | hsame) | hnames⟩ := h
  · subst hempty
    have hne : inner.utf8ByteSize ≠ 0 := fun h => htop (.inl (String.utf8ByteSize_eq_zero_iff.1 h))
    exact Nat.pos_of_ne_zero hne
  · exact absurd hsame hdot
  · obtain ⟨rest, rfl⟩ := names_eq_append_iff.1 hnames
    simp only [String.utf8ByteSize_append]
    have hslash : "/".utf8ByteSize = 1 := rfl
    omega

end Path
end ArchGraph
