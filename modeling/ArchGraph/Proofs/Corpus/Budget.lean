import ArchGraph.Proofs.Corpus.Keys
import Mathlib.Algebra.GroupWithZero.Nat
/-!
# The budget of a repository

Candidates are walked in their order. Those that are too large and those that are no text are passed
over and cost nothing, and the walk ends at the first one that is not too large but exceeds what is
left of the budget, whether it is text or not (`Visit`). What a walk has cost when it comes to a
candidate is `spent?`; the rest of the walk depends on the candidates before it through that number
only (`select_append`). Main statements: `budget_respected`, the loaded files are candidates in
their order and within both limits, and a larger budget adds files at the end only; and the case in
which a loaded text is not found under its path, two files with one path (`spelling_lost`).
-/

namespace ArchGraph.Corpus

variable {s : CorpusSettings} {cs : List Candidate} {used : UInt64}

/-! ## Walks -/

/-- The bytes of some files, added up in words. -/
def total : List LoadedFile → UInt64
  | [] => 0
  | f :: files => f.size + total files

/-- What a candidate is loaded as, if it is not too large and text. -/
def Candidate.file? (s : CorpusSettings) (c : Candidate) : Option LoadedFile :=
  if s.maxFileSize < c.size then none else c.content.map fun text => ⟨c.path, c.size, text⟩

/-- The candidate that a loaded file was. -/
def LoadedFile.candidate (f : LoadedFile) : Candidate := ⟨f.path, f.size, some f.content⟩

/-- A candidate that ends a walk that has cost `used` bytes. -/
structure Exceeds (s : CorpusSettings) (used : UInt64) (c : Candidate) : Prop where
  small  : c.size ≤ s.maxFileSize
  beyond : s.maxTotalSize < used + c.size

/-- What a walk has cost behind some candidates, if it does not end at one of them. -/
def spent? (s : CorpusSettings) (used : UInt64) : List Candidate → Option UInt64
  | [] => some used
  | c :: rest =>
    if s.maxFileSize < c.size then spent? s used rest
    else if s.maxTotalSize < used + c.size then none
    else match c.content with
      | none => spent? s used rest
      | some _ => spent? s (used + c.size) rest

/-- What a walk that has cost `used` bytes does at a candidate: it ends, passes it over or loads
it. -/
inductive Visit (s : CorpusSettings) (used : UInt64) (c : Candidate) : Prop where
  | ends : Exceeds s used c → (∀ rest, select s used (c :: rest) = []) →
      (∀ rest, spent? s used (c :: rest) = none) → Visit s used c
  | passes : ¬Exceeds s used c → c.file? s = none →
      (∀ rest, select s used (c :: rest) = select s used rest) →
      (∀ rest, spent? s used (c :: rest) = spent? s used rest) → Visit s used c
  | loads (f : LoadedFile) : c.file? s = some f → used + f.size ≤ s.maxTotalSize →
      (∀ rest, select s used (c :: rest) = f :: select s (used + f.size) rest) →
      (∀ rest, spent? s used (c :: rest) = spent? s (used + f.size) rest) → Visit s used c

theorem visit (s : CorpusSettings) (used : UInt64) (c : Candidate) : Visit s used c := by
  by_cases hsize : s.maxFileSize < c.size
  · refine .passes (fun h => absurd h.small (UInt64.not_le.2 hsize)) (if_pos hsize) ?_ ?_
    · exact fun rest => by rw [select, if_pos hsize]
    · exact fun rest => by rw [spent?, if_pos hsize]
  · by_cases hover : s.maxTotalSize < used + c.size
    · refine .ends ⟨UInt64.not_lt.1 hsize, hover⟩ ?_ ?_
      · exact fun rest => by rw [select, if_neg hsize, if_pos hover]
      · exact fun rest => by rw [spent?, if_neg hsize, if_pos hover]
    · obtain ⟨path, size, content⟩ := c
      cases content with
      | none =>
        refine .passes (fun h => hover h.beyond) (if_neg hsize) ?_ ?_
        · exact fun rest => by rw [select, if_neg hsize, if_neg hover]
        · exact fun rest => by rw [spent?, if_neg hsize, if_neg hover]
      | some text =>
        refine .loads ⟨path, size, text⟩ (if_neg hsize) (UInt64.not_lt.1 hover) ?_ ?_
        · exact fun rest => by rw [select, if_neg hsize, if_neg hover]
        · exact fun rest => by rw [spent?, if_neg hsize, if_neg hover]

/-- The walk behind some candidates depends on what they have cost only. -/
theorem select_append (s : CorpusSettings) (back : List Candidate) :
    ∀ (used : UInt64) (front : List Candidate), select s used (front ++ back) =
      select s used front ++ ((spent? s used front).elim [] fun used => select s used back)
  | used, [] => rfl
  | used, c :: front => by
    rw [List.cons_append]
    cases visit s used c with
    | ends _ hselect hspent =>
      rw [hselect, hselect, hspent]
      rfl
    | passes _ _ hselect hspent =>
      rw [hselect, hselect, hspent, select_append s back used front]
    | loads f _ _ hselect hspent =>
      rw [hselect, hselect, hspent, select_append s back (used + f.size) front, List.cons_append]

/-- A walk that has come behind some candidates has loaded those that could be loaded, and paid for
them only. -/
theorem spent?_eq_some : ∀ {cs : List Candidate} {used paid : UInt64}, spent? s used cs = some paid →
    select s used cs = cs.filterMap (Candidate.file? s) ∧ paid = used + total (select s used cs)
  | [], used, paid, h => by
    obtain rfl := Option.some.inj h
    exact ⟨rfl, (UInt64.add_zero used).symm⟩
  | c :: cs, used, paid, h => by
    cases visit s used c with
    | ends _ _ hspent =>
      rw [hspent] at h
      cases h
    | passes _ hfile hselect hspent =>
      rw [hspent] at h
      rw [hselect, List.filterMap_cons, hfile]
      exact spent?_eq_some h
    | loads f hfile _ hselect hspent =>
      rw [hspent] at h
      obtain ⟨hfiles, hpaid⟩ := spent?_eq_some h
      rw [hselect, List.filterMap_cons, hfile, ← hfiles]
      exact ⟨rfl, hpaid.trans (UInt64.add_assoc used f.size _)⟩

/-- A walk that does not come behind all candidates ends at one of them. -/
theorem spent?_eq_none : ∀ {cs : List Candidate} {used : UInt64}, spent? s used cs = none →
    ∃ front c back paid, cs = front ++ c :: back ∧ spent? s used front = some paid ∧
      Exceeds s paid c
  | [], _, h => by cases h
  | c :: cs, used, h => by
    cases visit s used c with
    | ends hend => exact ⟨[], c, cs, used, rfl, rfl, hend⟩
    | passes _ _ _ hspent =>
      rw [hspent] at h
      obtain ⟨front, c', back, paid, rfl, hpaid, hend⟩ := spent?_eq_none h
      exact ⟨c :: front, c', back, paid, rfl, by rw [hspent, hpaid], hend⟩
    | loads f _ _ _ hspent =>
      rw [hspent] at h
      obtain ⟨front, c', back, paid, rfl, hpaid, hend⟩ := spent?_eq_none h
      exact ⟨c :: front, c', back, paid, rfl, by rw [hspent, hpaid], hend⟩

/-- Nothing is loaded from the candidate on that ends the walk. -/
theorem select_of_exceeds {front back : List Candidate} {c : Candidate} {paid : UInt64}
    (hpaid : spent? s used front = some paid) (hend : Exceeds s paid c) :
    select s used (front ++ c :: back) = select s used front := by
  have hnothing : select s paid (c :: back) = [] := by
    cases visit s paid c with
    | ends _ hselect => exact hselect back
    | passes hgo => exact absurd hend hgo
    | loads f hfile hfits =>
      rw [Candidate.file?, if_neg (UInt64.not_lt.2 hend.small)] at hfile
      obtain ⟨text, -, rfl⟩ := Option.map_eq_some_iff.1 hfile
      exact absurd hend.beyond (UInt64.not_lt.2 hfits)
  rw [select_append, hpaid, Option.elim_some, hnothing, List.append_nil]

/-! ## Limits -/

theorem candidate_of_file? {c : Candidate} {f : LoadedFile} (h : c.file? s = some f) :
    f.candidate = c ∧ f.size ≤ s.maxFileSize := by
  rw [Candidate.file?] at h
  split at h
  · cases h
  · next hsize =>
    obtain ⟨text, htext, rfl⟩ := Option.map_eq_some_iff.1 h
    obtain ⟨path, size, content⟩ := c
    obtain rfl : content = some text := htext
    exact ⟨rfl, UInt64.not_lt.1 hsize⟩

/-- The loaded files are candidates, in their order. -/
theorem select_sublist : ∀ (used : UInt64) (cs : List Candidate),
    ((select s used cs).map LoadedFile.candidate).Sublist cs
  | _, [] => List.Sublist.refl []
  | used, c :: cs => by
    cases visit s used c with
    | ends _ hselect =>
      rw [hselect]
      exact List.nil_sublist _
    | passes _ _ hselect =>
      rw [hselect]
      exact (select_sublist used cs).cons c
    | loads f hfile _ hselect =>
      rw [hselect, List.map_cons, (candidate_of_file? hfile).1]
      exact (select_sublist _ cs).cons_cons c

/-- The loaded files fit into what is left of the budget, if no sum of sizes overflows: none does
where all sizes add up to a word, or both limits do. -/
theorem sum_select_le : ∀ {used : UInt64} (cs : List Candidate), used ≤ s.maxTotalSize →
    used.toNat + (cs.map (·.size.toNat)).sum < UInt64.size ∨
      s.maxTotalSize.toNat + s.maxFileSize.toNat < UInt64.size →
    used.toNat + ((select s used cs).map (·.size.toNat)).sum ≤ s.maxTotalSize.toNat
  | _, [], h, _ => UInt64.le_iff_toNat_le.1 h
  | used, c :: cs, h, hfits => by
    rw [List.map_cons, List.sum_cons] at hfits
    have hused : used.toNat ≤ s.maxTotalSize.toNat := UInt64.le_iff_toNat_le.1 h
    cases visit s used c with
    | ends _ hselect =>
      rw [hselect]
      exact hused
    | passes _ _ hselect =>
      rw [hselect]
      exact sum_select_le cs h (hfits.imp_left fun hsum => by omega)
    | loads f hfile hbudget hselect =>
      obtain ⟨hcandidate, hsmall⟩ := candidate_of_file? hfile
      have hsize : f.size = c.size := congrArg Candidate.size hcandidate
      have hsum : (used + f.size).toNat = used.toNat + f.size.toNat := by
        have hle : f.size.toNat ≤ s.maxFileSize.toNat := UInt64.le_iff_toNat_le.1 hsmall
        rw [UInt64.toNat_add]
        refine Nat.mod_eq_of_lt ?_
        rw [← hsize] at hfits
        change used.toNat + f.size.toNat < UInt64.size
        omega
      rw [← hsize, ← Nat.add_assoc, ← hsum] at hfits
      have ih := sum_select_le cs hbudget hfits
      rwa [hselect, List.map_cons, List.sum_cons, ← Nat.add_assoc, ← hsum]

/-- The settings with another budget. -/
def withTotal (s : CorpusSettings) (size : UInt64) : CorpusSettings :=
  { s with maxTotalSize := size }

/-- A larger budget adds files at the end. -/
theorem select_withTotal {size : UInt64} (h : s.maxTotalSize ≤ size) :
    ∀ (used : UInt64) (cs : List Candidate), select s used cs <+: select (withTotal s size) used cs
  | _, [] => List.prefix_rfl
  | used, c :: cs => by
    have hsame : c.file? (withTotal s size) = c.file? s := rfl
    cases visit s used c with
    | ends _ hselect =>
      rw [hselect]
      exact List.nil_prefix
    | passes hgo hfile hselect =>
      rw [hselect]
      cases visit (withTotal s size) used c with
      | ends hend => exact absurd ⟨hend.small, UInt64.lt_of_le_of_lt h hend.beyond⟩ hgo
      | passes _ _ hselect' =>
        rw [hselect']
        exact select_withTotal h used cs
      | loads f hfile' =>
        rw [hsame, hfile] at hfile'
        cases hfile'
    | loads f hfile hfits hselect =>
      rw [hselect]
      cases visit (withTotal s size) used c with
      | ends hend =>
        have hsize : f.size = c.size := congrArg Candidate.size (candidate_of_file? hfile).1
        exact absurd (UInt64.lt_of_le_of_lt h hend.beyond) (UInt64.not_lt.2 (hsize ▸ hfits))
      | passes _ hfile' =>
        rw [hsame, hfile] at hfile'
        cases hfile'
      | loads f' hfile' _ hselect' =>
        obtain rfl : f = f' := Option.some.inj (hfile.symm.trans hfile')
        rw [hselect']
        exact (List.prefix_cons_inj f).2 (select_withTotal h _ cs)

/-! ## Texts -/

/-- A loaded file's text stands under its path, unless a later file has the same path. -/
theorem get?_ofFiles {front back : List LoadedFile} {f : LoadedFile} (name : String)
    (hback : ∀ g ∈ back, g.path ≠ f.path) :
    (Loaded.ofFiles name (front ++ f :: back)).contents.get? f.path = some f.content := by
  have hlater : ∀ entry ∈ (back.map fun f => (f.path, f.content)).reverse,
      (f.path != entry.1) = true := by
    intro entry hentry
    obtain ⟨g, hg, rfl⟩ := List.mem_map.1 (List.mem_reverse.1 hentry)
    exact bne_iff_ne.2 (hback g hg).symm
  rw [Loaded.ofFiles, Contents.get?_ofList, List.map_append, List.map_cons, List.reverse_append,
    List.reverse_cons, List.append_assoc, List.lookup_append,
    List.lookup_eq_none_iff.2 hlater, Option.none_or]
  simp

/-- Under the path of every loaded file stands a text. -/
theorem exists_text_ofFiles {files : List LoadedFile} {f : LoadedFile} (name : String)
    (hf : f ∈ files) : ∃ text, (Loaded.ofFiles name files).contents.get? f.path = some text := by
  have hkey : f.path ∈ (files.map fun f => (f.path, f.content)).map (·.1) := by
    rw [List.map_map]
    exact List.mem_map_of_mem hf
  obtain ⟨text, htext, -⟩ := Contents.exists_get?_ofList hkey
  exact ⟨text, htext⟩

/-- What stands under the path of a loaded file is the text of a loaded file with that path. -/
theorem exists_file_of_get? {files : List LoadedFile} {path text : String} (name : String)
    (h : (Loaded.ofFiles name files).contents.get? path = some text) :
    ∃ g ∈ files, g.path = path ∧ g.content = text := by
  rw [Loaded.ofFiles, Contents.get?_ofList] at h
  obtain ⟨front, back, hentries, -⟩ := List.lookup_eq_some_iff.1 h
  have hmem : (path, text) ∈ (files.map fun f => (f.path, f.content)).reverse := by
    rw [hentries]
    exact List.mem_append_right _ List.mem_cons_self
  obtain ⟨g, hg, hentry⟩ := List.mem_map.1 (List.mem_reverse.1 hmem)
  exact ⟨g, hg, congrArg Prod.fst hentry, congrArg Prod.snd hentry⟩

/-- Every loaded file's text stands under its path exactly if files of one path have one text. -/
theorem get?_ofFiles_iff (name : String) (files : List LoadedFile) :
    (∀ f ∈ files, (Loaded.ofFiles name files).contents.get? f.path = some f.content) ↔
      ∀ f ∈ files, ∀ g ∈ files, g.path = f.path → g.content = f.content := by
  constructor
  · intro h f hf g hg hpath
    have hsame := h g hg
    rw [hpath, h f hf] at hsame
    exact (Option.some.inj hsame).symm
  · intro h f hf
    obtain ⟨text, htext⟩ := exists_text_ofFiles name hf
    obtain ⟨g, hg, hpath, rfl⟩ := exists_file_of_get? name htext
    rw [htext, h f hf g hg hpath]

/-! ## The loaded repository -/

/-- How far a walk comes: the candidates up to one that ends it, if there is one, of which those are
loaded that can be. -/
theorem exists_walk (s : CorpusSettings) (cs : List Candidate) : ∃ front back, cs = front ++ back ∧
    select s 0 cs = front.filterMap (Candidate.file? s) ∧
      ∀ c ∈ back.head?, Exceeds s (total (select s 0 cs)) c := by
  cases hspent : spent? s 0 cs with
  | some paid =>
    exact ⟨cs, [], (List.append_nil cs).symm, (spent?_eq_some hspent).1, by simp⟩
  | none =>
    obtain ⟨front, c, back, paid, rfl, hpaid, hend⟩ := spent?_eq_none hspent
    obtain ⟨hfiles, hcost⟩ := spent?_eq_some hpaid
    refine ⟨front, c :: back, rfl, ?_, ?_⟩
    · rw [select_of_exceeds hpaid hend, hfiles]
    · rw [select_of_exceeds hpaid hend]
      rw [UInt64.zero_add] at hcost
      simpa [← hcost] using hend

/-- **The loader respects its budget.** For all candidates the loaded files are candidates in their
order, none too large and all together within the budget, as long as all sizes or both limits add up
to a word, and a text stands under the path of each: that of the last file with the path, so that
each file has its own text exactly if files of one path have one text. They are all that can be
loaded of the candidates up to the first one that exceeds what they leave of the budget, and a
larger budget only adds files behind them. -/
theorem budget_respected (s : CorpusSettings) (name : String) (cs : List Candidate) :
    let files := select s 0 cs
    let loaded := Loaded.ofFiles name files
    loaded.repository.paths = files.map (·.path) ∧
      (files.map LoadedFile.candidate).Sublist cs ∧
      (∀ f ∈ files, f.size ≤ s.maxFileSize) ∧
      ((cs.map (·.size.toNat)).sum < UInt64.size ∨
          s.maxTotalSize.toNat + s.maxFileSize.toNat < UInt64.size →
        (files.map (·.size.toNat)).sum ≤ s.maxTotalSize.toNat) ∧
      (∀ f ∈ files, ∃ text, loaded.contents.get? f.path = some text) ∧
      (∀ front f back, files = front ++ f :: back → (∀ g ∈ back, g.path ≠ f.path) →
        loaded.contents.get? f.path = some f.content) ∧
      ((∀ f ∈ files, loaded.contents.get? f.path = some f.content) ↔
        ∀ f ∈ files, ∀ g ∈ files, g.path = f.path → g.content = f.content) ∧
      (∃ front back, cs = front ++ back ∧ files = front.filterMap (Candidate.file? s) ∧
        ∀ c ∈ back.head?, Exceeds s (total files) c) ∧
      ∀ size, s.maxTotalSize ≤ size → files <+: select (withTotal s size) 0 cs := by
  intro files loaded
  refine ⟨?_, select_sublist 0 cs, fun f hf => size_le_of_mem_select hf, ?_,
    fun f hf => exists_text_ofFiles name hf, ?_, get?_ofFiles_iff name files, exists_walk s cs,
    fun size h => select_withTotal h 0 cs⟩
  · simp [loaded, Loaded.ofFiles, Repository.paths, LoadedFile.listed]
  · intro hfits
    have hle := sum_select_le cs (UInt64.zero_le (a := s.maxTotalSize)) (by simpa using hfits)
    simpa using hle
  · intro front f back hfiles hback
    have htext : (Loaded.ofFiles name (front ++ f :: back)).contents.get? f.path =
        some f.content := get?_ofFiles name hback
    rwa [← hfiles] at htext

/-- The usual limits add up to a word. -/
example : CorpusSettings.default.maxTotalSize.toNat + CorpusSettings.default.maxFileSize.toNat <
    UInt64.size := by decide

/-- A table `x` in a file `b.sql` below `a`, and a table `y` in a file whose name is `a`, a
backslash and `b.sql`. -/
def spellings : List FoundFile :=
  [⟨["migrations", "a", "b.sql"], "create table x (id int);".toUTF8⟩,
   ⟨["migrations", "a\\b.sql"], "create table y (id int);".toUTF8⟩]

/-- A text that is lost: a backslash in a name counts as a slash in its path, both files have one
path, and only one text can stand under it. -/
theorem spelling_lost :
    let files := select .default 0 (spellings.map Candidate.ofFile)
    let loaded := Loaded.ofFiles "repo" files
    loaded.repository.paths = ["migrations/a/b.sql", "migrations/a/b.sql"] ∧
      files.map (·.content) = ["create table x (id int);", "create table y (id int);"] ∧
      loaded.contents.keys = ["migrations/a/b.sql"] ∧
      ∃ f ∈ files, loaded.contents.get? f.path ≠ some f.content := by
  decide +kernel

end ArchGraph.Corpus
