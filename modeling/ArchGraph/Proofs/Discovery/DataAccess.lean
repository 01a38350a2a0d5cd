import ArchGraph.Proofs.Discovery.Attribution
import ArchGraph.Proofs.Pattern.Spelling
import ArchGraph.Proofs.Text.Mention
/-!
# Accesses to data on a line

A line of a handler is searched for the first choice of a bucket, and for choices of tables only if
there is none. What a choice is can be read in the text of the line (`ChoosesBucket`,
`ChoosesTable`), and each search finds what it looks for: the first choice of a bucket is found if
there is one, and all choices of tables are. So nothing on a line is lost exactly if all choices of
buckets on it name one bucket and no table is chosen beside them (`accesses_found_iff`); a second
bucket is lost, and so is a table beside a bucket (`accesses_lost`).
-/

namespace ArchGraph

open Text (Chars isBlank isAsciiWord)

/-! ## Choices in the text -/

namespace Pattern

/-- A character of a bucket's name. -/
def isBucketChar (c : Char) : Bool := isAsciiWord c || c == '-'

/-- A name of letters, digits and underscores that starts with no digit. -/
def IsIdentifier (text : Chars) : Prop :=
  ∃ c rest, text = c :: rest ∧ (c.isAlpha || c == '_') = true ∧ ∀ d ∈ rest, isAsciiWord d = true

/-- A call of a function up to the end of the string literal that is its first argument. -/
def LiteralCall (function word text : Chars) : Prop :=
  ∃ gap q q', text = function ++ '(' :: (gap ++ q :: (word ++ [q'])) ∧
    (∀ c ∈ gap, isBlank c = true) ∧ isQuote q = true ∧ isQuote q' = true

/-- A bucket is chosen on a line. -/
def ChoosesBucket (line bucket : Chars) : Prop :=
  ∃ front gap call back, line = front ++ (".storage".toList ++ (gap ++ (call ++ back))) ∧
    (∀ c ∈ gap, isBlank c = true) ∧ LiteralCall ".from".toList bucket call ∧
      bucket ≠ [] ∧ ∀ c ∈ bucket, isBucketChar c = true

/-- A text ends where a bucket is about to be chosen. -/
def BehindStorage (front : Chars) : Prop :=
  ∃ before gap, front = before ++ (".storage".toList ++ gap) ∧ ∀ c ∈ gap, isBlank c = true

/-- A table is chosen on a line, by a call that chooses no bucket. -/
def ChoosesTable (line table : Chars) : Prop :=
  ∃ front call gap back, line = front ++ (call ++ (gap ++ ')' :: back)) ∧ ¬BehindStorage front ∧
    LiteralCall ".from".toList table call ∧ IsIdentifier table ∧ ∀ c ∈ gap, isBlank c = true

theorem not_behindStorage {front : Chars} {c : Char} (h : front.getLast? = some c) (hc : c ≠ 'e')
    (hblank : isBlank c = false) : ¬BehindStorage front := by
  rintro ⟨before, gap, rfl, hgap⟩
  rw [List.getLast?_append, List.getLast?_append] at h
  cases hlast : gap.getLast? with
  | none =>
    rw [hlast] at h
    exact hc (Option.some.inj h).symm
  | some d =>
    obtain rfl : d = c := by simpa [hlast] using h
    rw [hgap d (List.mem_of_getLast? hlast)] at hblank
    cases hblank

theorem spells_blanks {text : Chars} : blanks.Spells text ↔ ∀ c ∈ text, isBlank c = true := by
  simp [blanks, Spells]

theorem spells_openLiteral {text : Chars} : openLiteral.Spells text ↔
    ∃ gap q, text = '(' :: (gap ++ [q]) ∧ (∀ c ∈ gap, isBlank c = true) ∧ isQuote q = true := by
  constructor
  · rintro ⟨_, _, rfl, ⟨_, gap, rfl, hbracket, hgap⟩, q, rfl, hq⟩
    obtain rfl := spells_lit.1 hbracket
    exact ⟨gap, q, by simp, spells_blanks.1 hgap, hq⟩
  · rintro ⟨gap, q, rfl, hgap, hq⟩
    have hopen : (lit "(" ++ blanks).Spells ('(' :: gap) :=
      ⟨['('], gap, rfl, spells_lit.2 rfl, spells_blanks.2 hgap⟩
    exact ⟨'(' :: gap, [q], rfl, hopen, q, rfl, hq⟩

theorem spells_identifier {text : Chars} : identifier.Spells text ↔ IsIdentifier text := by
  constructor
  · rintro ⟨_, rest, rfl, ⟨c, rfl, hc⟩, hrest, -⟩
    exact ⟨c, rest, rfl, hc, hrest⟩
  · rintro ⟨c, rest, rfl, hc, hrest⟩
    exact ⟨[c], rest, rfl, ⟨c, rfl, hc⟩, hrest, Nat.zero_le _⟩

theorem IsIdentifier.isAsciiWord {text : Chars} (h : IsIdentifier text) :
    ∀ c ∈ text, isAsciiWord c = true := by
  obtain ⟨c, rest, rfl, hc, hrest⟩ := h
  refine List.forall_mem_cons.2 ⟨?_, hrest⟩
  rcases Bool.or_eq_true_iff.1 hc with hc | hc
  · simp [Text.isAsciiWord, Char.isAlphanum, hc]
  · simp [Text.isAsciiWord, hc]

theorem not_isBlank_of_isQuote {q : Char} (h : isQuote q = true) : isBlank q = false := by
  simp only [isQuote, Bool.or_eq_true, beq_iff_eq] at h
  rcases h with (rfl | rfl) | rfl <;> decide

theorem not_isAsciiWord_of_isQuote {q : Char} (h : isQuote q = true) : isAsciiWord q = false := by
  simp only [isQuote, Bool.or_eq_true, beq_iff_eq] at h
  rcases h with (rfl | rfl) | rfl <;> decide

/-- The word in a string literal is cut out of a text in one way. -/
theorem literal_unique {gap gap' word word' rest rest' : Chars} {q q' r r' : Char}
    (h : gap ++ q :: (word ++ r :: rest) = gap' ++ q' :: (word' ++ r' :: rest'))
    (hgap : ∀ c ∈ gap, isBlank c = true) (hgap' : ∀ c ∈ gap', isBlank c = true)
    (hword : IsIdentifier word) (hword' : IsIdentifier word') (hq : isQuote q = true)
    (hq' : isQuote q' = true) (hr : isQuote r = true) (hr' : isQuote r' = true) : word = word' := by
  obtain ⟨-, hliteral⟩ := eq_of_append_eq h hgap hgap' (by simp [not_isBlank_of_isQuote hq])
    (by simp [not_isBlank_of_isQuote hq'])
  exact (eq_of_append_eq (List.cons.inj hliteral).2 hword.isAsciiWord hword'.isAsciiWord
    (by simp [not_isAsciiWord_of_isQuote hr]) (by simp [not_isAsciiWord_of_isQuote hr'])).1

/-! ## Searches -/

section

variable {line : Chars}

/-- What is found for a bucket is chosen on the line. -/
theorem choosesBucket_of_first? {m : Match} (h : storageFrom.first? line = some m) :
    ChoosesBucket line (m.text 1).toList := by
  obtain ⟨front, s, hs, hmatch⟩ := first?_eq_some h
  obtain ⟨opened, closed, rest, hrest, hopened, hbucket, q', rfl, hq'⟩ :=
    spells_of_group rfl rfl rfl (by decide) hmatch
  obtain ⟨_, opening, rfl, ⟨_, from', rfl, ⟨storage, gap, rfl, hstorage, hgap⟩, hfrom⟩, hopening⟩ :=
    hopened
  obtain ⟨gap', q, rfl, hgap', hq⟩ := spells_openLiteral.1 hopening
  obtain rfl := spells_lit.1 hstorage
  obtain rfl := spells_lit.1 hfrom
  refine ⟨front, gap, _, rest, ?_, spells_blanks.1 hgap, ⟨gap', q, q', rfl, hgap', hq, hq'⟩,
    List.length_pos_iff.1 hbucket.2, hbucket.1⟩
  rw [hs.split, hrest]
  simp

/-- A bucket that is chosen makes the search succeed. -/
theorem isSome_of_choosesBucket {bucket : Chars} (h : ChoosesBucket line bucket) :
    (storageFrom.first? line).isSome = true := by
  obtain ⟨front, gap, _, back, hline, hgap, ⟨gap', q, q', rfl, hgap', hq, hq'⟩, hne, hbucket⟩ := h
  have hspells : storageFrom.Spells (".storage".toList ++ gap ++ ".from".toList ++
      '(' :: (gap' ++ [q]) ++ bucket ++ [q']) :=
    ⟨_, _, rfl, ⟨_, _, rfl, ⟨_, _, rfl, ⟨_, _, rfl, ⟨_, gap, rfl, spells_lit.2 rfl,
      spells_blanks.2 hgap⟩, spells_lit.2 rfl⟩, spells_openLiteral.2 ⟨gap', q, rfl, hgap', hq⟩⟩,
      hbucket, List.length_pos_iff.2 hne⟩, q', rfl, hq'⟩
  obtain ⟨s, m, hs, -, hm⟩ := exists_match_of_spells front back rfl hspells
  have hs : s.Stands line front := by
    rw [hline]
    simpa using hs
  exact isSome_first? hs (Option.isSome_iff_exists.2 ⟨m, hm⟩)

/-- A choice of a table starts with its only dot. -/
theorem mark_tableFrom (taken : Chars) (h : tableFrom.Spells taken) :
    ∃ inner, taken = '.' :: inner ∧ '.' ∉ inner := by
  obtain ⟨_, bracket, rfl, ⟨_, gap', rfl, ⟨_, _, rfl, ⟨_, table, rfl, ⟨from', opening, rfl, hfrom,
    hopening⟩, htable⟩, q', rfl, hq'⟩, hgap'⟩, hbracket⟩ := h
  obtain ⟨gap, q, rfl, hgap, hq⟩ := spells_openLiteral.1 hopening
  obtain ⟨c, rest, rfl, hc, hrest⟩ := spells_identifier.1 htable
  obtain rfl := spells_lit.1 hfrom
  obtain rfl := spells_lit.1 hbracket
  have hblank (text : Chars) (h : ∀ d ∈ text, isBlank d = true) : '.' ∉ text := fun hmem =>
    absurd (h _ hmem) (by decide)
  have hquote {d : Char} (h : isQuote d = true) : '.' ≠ d := by
    rintro rfl
    exact absurd h (by decide)
  have hword : '.' ∉ c :: rest := by
    intro hmem
    rcases List.mem_cons.1 hmem with rfl | hmem
    · exact absurd hc (by decide)
    · exact absurd (hrest _ hmem) (by decide)
  refine ⟨"from(".toList ++ (gap ++ [q] ++ (c :: rest) ++ [q'] ++ gap' ++ ")".toList), by simp, ?_⟩
  simp only [List.mem_append, List.mem_singleton, not_or]
  exact ⟨by decide, ⟨⟨⟨⟨hblank _ hgap, hquote hq⟩, hword⟩, hquote hq'⟩,
    hblank _ (spells_blanks.1 hgap')⟩, by decide⟩

/-- A table that is chosen is found. -/
theorem exists_mem_all_of_choosesTable {table : Chars} (h : ChoosesTable line table) :
    ∃ m ∈ tableFrom.all line, (m.text 1).toList = table := by
  obtain ⟨front, _, gap', back, hline, -, ⟨gap, q, q', rfl, hgap, hq, hq'⟩, htable, hgap'⟩ := h
  have hspells : tableFrom.Spells (".from".toList ++ '(' :: (gap ++ [q]) ++ table ++ [q'] ++ gap' ++
      ")".toList) :=
    ⟨_, _, rfl, ⟨_, gap', rfl, ⟨_, _, rfl, ⟨_, table, rfl, ⟨_, _, rfl, spells_lit.2 rfl,
      spells_openLiteral.2 ⟨gap, q, rfl, hgap, hq⟩⟩, spells_identifier.2 htable⟩, q', rfl, hq'⟩,
      spells_blanks.2 hgap'⟩, spells_lit.2 rfl⟩
  obtain ⟨s, m, hs, hrest, hm⟩ := exists_match_of_spells front back rfl hspells
  have hs : s.Stands line front := by
    rw [hline]
    simpa using hs
  refine ⟨m, mem_all_of_mark rfl mark_tableFrom hs hm, ?_⟩
  have hmatch : (lit ".from" ++ openLiteral ++ group 1 identifier ++
      (quote ++ blanks ++ lit ")")).matchAt? s = some m := hm
  obtain ⟨_, _, rest, hrest', ⟨_, _, rfl, hfrom, hopening⟩, hword, _, closing, rfl,
    ⟨_, blank, rfl, ⟨r, rfl, hr⟩, -⟩, -⟩ := spells_of_group rfl rfl rfl (by decide) hmatch
  obtain ⟨gap₂, r', rfl, hgap₂, hr'⟩ := spells_openLiteral.1 hopening
  obtain rfl := spells_lit.1 hfrom
  have hboth : gap₂ ++ r' :: ((m.text 1).toList ++ r :: (blank ++ (closing ++ rest))) =
      gap ++ q :: (table ++ q' :: (gap' ++ ')' :: back)) := by
    simpa using hrest'.symm.trans hrest
  exact literal_unique hboth hgap₂ hgap (spells_identifier.1 hword) htable hr' hq hr hq'

end

end Pattern

namespace Discovery

open Pattern (ChoosesBucket ChoosesTable)

/-! ## Edges of a line -/

/-- Findings show that a node stores in a bucket. -/
def StoresIn (f : Findings) (id : String) (bucket : Chars) : Prop :=
  ∃ e ∈ f.edges, e.source = id ∧ e.kind = .stores ∧ e.target = .node Id.storage ∧
    e.detail = .storageAccess (String.ofList bucket)

/-- Findings show that a node reads or writes a table. -/
def AccessesTable (f : Findings) (id : String) (table : Chars) : Prop :=
  ∃ e ∈ f.edges, e.source = id ∧ (e.kind = .reads ∨ e.kind = .writes) ∧
    e.target = .node (Id.table Sql.defaultSchema (String.ofList table)) ∧
      ∃ operation, e.detail = .dataAccess operation (String.ofList table)

/-- Whether an edge leads to data: to a table or to the storage. -/
def toData (e : Edge) : Bool := e.kind == .stores || e.kind == .reads || e.kind == .writes

section

variable {lines : List Chars} {lookahead : UInt64} {stop : Nat} {s : Site} {e : Edge}

theorem toData_functionsAt (he : e ∈ (functionsAt s).edges) : toData e = false := by
  obtain ⟨m, -, he⟩ := Findings.mem_edges_concat_map.1 he
  rw [List.mem_singleton.1 he]
  rfl

theorem toData_externalCall {m : Match} (he : e ∈ (externalCall s m).edges) : toData e = false := by
  unfold externalCall at he
  split at he
  · cases he
  · simp only at he
    split at he
    · cases he
    · rw [List.mem_singleton.1 he]
      rfl

theorem toData_clientConstruction {m : Match} (he : e ∈ (clientConstruction s m).edges) :
    toData e = false := by
  unfold clientConstruction at he
  split at he
  · cases he
  · rw [List.mem_singleton.1 he]
    rfl

theorem toData_authCallsAt (he : e ∈ (authCallsAt s).edges) : toData e = false := by
  obtain ⟨m, -, he⟩ := Findings.mem_edges_concat_map.1 he
  rw [List.mem_singleton.1 he]
  rfl

theorem edges_environmentAt (s : Site) : (environmentAt s).edges = [] := by
  unfold environmentAt
  split <;> rfl

/-- The edges to data of a line come from the search for choices. -/
theorem mem_dataAt_of_toData (he : e ∈ (handlerLine lines lookahead stop s).edges)
    (hdata : toData e = true) : e ∈ (dataAt lines lookahead stop s).edges := by
  have hnot (h : toData e = false) : e ∈ (dataAt lines lookahead stop s).edges := by
    rw [h] at hdata
    cases hdata
  simp only [handlerLine, Findings.edges_append, edges_environmentAt, List.append_nil,
    List.mem_append, Findings.mem_edges_concat_map] at he
  rcases he with (((he | he) | ⟨m, -, he⟩) | ⟨m, -, he⟩) | he
  · exact he
  · exact hnot (toData_functionsAt he)
  · exact hnot (toData_externalCall he)
  · exact hnot (toData_clientConstruction he)
  · exact hnot (toData_authCallsAt he)

theorem mem_handlerLine (he : e ∈ (dataAt lines lookahead stop s).edges) :
    e ∈ (handlerLine lines lookahead stop s).edges := by
  simp only [handlerLine, Findings.edges_append, List.mem_append]
  exact .inl (.inl (.inl (.inl (.inl he))))

/-- Beside the first choice of a bucket nothing on a line leads to data. -/
theorem detail_of_first? {m : Match} (h : Pattern.storageFrom.first? s.line = some m)
    (he : e ∈ (handlerLine lines lookahead stop s).edges) (hdata : toData e = true) :
    e.kind = .stores ∧ e.detail = .storageAccess (m.text 1) := by
  have he := mem_dataAt_of_toData he hdata
  simp only [dataAt, h] at he
  rw [List.mem_singleton.1 he]
  exact ⟨rfl, rfl⟩

theorem storesIn_of_first? {m : Match} (h : Pattern.storageFrom.first? s.line = some m) :
    StoresIn (handlerLine lines lookahead stop s) s.nodeId (m.text 1).toList := by
  refine ⟨_, mem_handlerLine (by rw [dataAt, h]; exact List.mem_cons_self), rfl, rfl, rfl, ?_⟩
  rw [String.ofList_toList]
  rfl

theorem accessesTable_of_mem {m : Match} (h : Pattern.storageFrom.first? s.line = none)
    (hm : m ∈ Pattern.tableFrom.all s.line) :
    AccessesTable (handlerLine lines lookahead stop s) s.nodeId (m.text 1).toList := by
  have hedges : (tableAccess lines lookahead stop s m).edges ⊆
      (dataAt lines lookahead stop s).edges := by
    rw [dataAt, h]
    exact (inside_concat_map hm _).edges
  have htext : String.ofList (m.text 1).toList = m.text 1 := String.ofList_toList
  rw [AccessesTable, htext]
  exact ⟨_, mem_handlerLine (hedges List.mem_cons_self), rfl, DbOperation.edgeKind_eq_or _, rfl, _,
    rfl⟩

end

section

variable {lines : List Chars} {lookahead : UInt64} {stop : Nat} {s : Site} {m : Match}

theorem eq_of_storesIn (h : Pattern.storageFrom.first? s.line = some m) {bucket : Chars}
    (hstores : StoresIn (handlerLine lines lookahead stop s) s.nodeId bucket) :
    bucket = (m.text 1).toList := by
  obtain ⟨e, he, -, hkind, -, hdetail⟩ := hstores
  have hfirst := (detail_of_first? h he (by rw [toData, hkind]; rfl)).2
  rw [hdetail, EdgeDetail.storageAccess.injEq] at hfirst
  rw [← hfirst, String.toList_ofList]

theorem not_accessesTable (h : Pattern.storageFrom.first? s.line = some m) {table : Chars} :
    ¬AccessesTable (handlerLine lines lookahead stop s) s.nodeId table := by
  rintro ⟨e, he, -, hkind, -⟩
  have hdata : toData e = true := by
    rcases hkind with hkind | hkind <;> rw [toData, hkind] <;> rfl
  have hstores := (detail_of_first? h he hdata).1
  rcases hkind with hkind | hkind <;> rw [hkind] at hstores <;> cases hstores

end

/-- **Accesses to data on a line.** Whatever stands on a line of a handler, each choice of a bucket
on it gives an edge to the storage for the bucket, and each other choice of a table an edge that
reads or writes the table, exactly if all choices of buckets name one bucket and none of them has a
choice of a table beside it. -/
theorem accesses_found_iff (lines : List Chars) (lookahead : UInt64) (stop : Nat) (s : Site) :
    let shown := handlerLine lines lookahead stop s
    ((∀ bucket, ChoosesBucket s.line bucket → StoresIn shown s.nodeId bucket) ∧
      ∀ table, ChoosesTable s.line table → AccessesTable shown s.nodeId table) ↔
    (∀ bucket bucket', ChoosesBucket s.line bucket → ChoosesBucket s.line bucket' →
      bucket = bucket') ∧
    ∀ bucket table, ChoosesBucket s.line bucket → ¬ChoosesTable s.line table := by
  intro shown
  constructor
  · rintro ⟨hbuckets, htables⟩
    refine ⟨fun bucket bucket' h h' => ?_, fun bucket table h htable => ?_⟩
    · obtain ⟨m, hm⟩ := Option.isSome_iff_exists.1 (Pattern.isSome_of_choosesBucket h)
      rw [eq_of_storesIn hm (hbuckets bucket h), eq_of_storesIn hm (hbuckets bucket' h')]
    · obtain ⟨m, hm⟩ := Option.isSome_iff_exists.1 (Pattern.isSome_of_choosesBucket h)
      exact not_accessesTable hm (htables table htable)
  · rintro ⟨hone, hnone⟩
    cases hfirst : Pattern.storageFrom.first? s.line with
    | some m =>
      have hchosen := Pattern.choosesBucket_of_first? hfirst
      refine ⟨fun bucket h => ?_, fun table h => absurd h (hnone _ table hchosen)⟩
      rw [hone bucket _ h hchosen]
      exact storesIn_of_first? hfirst
    | none =>
      refine ⟨fun bucket h => ?_, fun table h => ?_⟩
      · have hsome := Pattern.isSome_of_choosesBucket h
        rw [hfirst] at hsome
        cases hsome
      · obtain ⟨m, hm, rfl⟩ := Pattern.exists_mem_all_of_choosesTable h
        exact accessesTable_of_mem hfirst hm

/-- A line with three choices. -/
def threeChoices : Chars :=
  "db.storage.from('a').list(); db.storage.from('b').list(); db.from('t').select();".toList

/-- The second bucket on a line and a table beside a bucket are lost. -/
theorem accesses_lost :
    let shown := handlerLine [threeChoices] 5 1 ⟨"endpoint", "app/api/x/route.ts", 1, threeChoices⟩
    ChoosesBucket threeChoices "b".toList ∧ ¬StoresIn shown "endpoint" "b".toList ∧
      ChoosesTable threeChoices "t".toList ∧ ¬AccessesTable shown "endpoint" "t".toList := by
  intro shown
  obtain ⟨m, hm, hbucket⟩ : ∃ m, Pattern.storageFrom.first? threeChoices = some m ∧
      m.text 1 = "a" := Option.map_eq_some_iff.1 (by decide)
  refine ⟨?_, ?_, ?_, not_accessesTable hm⟩
  · exact ⟨"db.storage.from('a').list(); db".toList, [], ".from('b'".toList,
      ").list(); db.from('t').select();".toList, rfl, by simp,
      ⟨[], '\'', '\'', rfl, by simp, rfl, rfl⟩, by decide, by decide⟩
  · intro hstores
    have heq := eq_of_storesIn (s := ⟨"endpoint", "app/api/x/route.ts", 1, threeChoices⟩) hm hstores
    rw [hbucket] at heq
    exact absurd heq (by decide)
  · exact ⟨"db.storage.from('a').list(); db.storage.from('b').list(); db".toList,
      ".from('t'".toList, [], ".select();".toList, rfl,
      Pattern.not_behindStorage (c := 'b') rfl (by decide) (by decide),
      ⟨[], '\'', '\'', rfl, by simp, rfl, rfl⟩, ⟨'t', [], rfl, by decide, by simp⟩, by simp⟩

end Discovery
end ArchGraph
