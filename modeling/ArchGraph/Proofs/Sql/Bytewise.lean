import ArchGraph.Proofs.Sql.Places
import ArchGraph.Proofs.Sql.Transparency
import ArchGraph.Proofs.Text.Bytes
import ArchGraph.Proofs.Text.Search
/-!
# Reading a script byte by byte

A script is read here with its places counted in bytes, and every part that is read is cut out of
the script first, which fails between bounds that are out of order, behind the end or inside of a
character (`Text.slice?`). Ends of brackets, statements, items, bodies and quotes are computed by
adding up such places, so that nothing but the order of these additions keeps the bounds apart. Main
statement: no cut fails, and what is read is the schema of the script with each place counted in
bytes (`schema?_eq`).
-/

namespace ArchGraph

/-- A match with its bounds at other places. What the groups say stays the same. -/
def Match.moved (f : Nat → Nat) (m : Match) : Match :=
  { m with span := ⟨f m.span.start, f m.span.stop, m.span.tail⟩ }

@[simp] theorem Match.moved_start (f : Nat → Nat) (m : Match) : (m.moved f).start = f m.start := rfl

@[simp] theorem Match.moved_stop (f : Nat → Nat) (m : Match) : (m.moved f).stop = f m.stop := rfl

namespace Sql

@[simp] theorem Table.any_moved (f : Nat → Nat) (tables : List Table) (name : Name) :
    (tables.map (·.moved f)).any (·.name = name) = tables.any (·.name = name) := by
  rw [List.any_map]
  rfl

/-- A function at another place. -/
def Function.moved (f : Nat → Nat) (x : Function) : Function := { x with region := x.region.moved f }

@[simp] theorem Function.moved_region (f : Nat → Nat) (x : Function) :
    (x.moved f).region = x.region.moved f := rfl

@[simp] theorem Function.any_moved (f : Nat → Nat) (functions : List Function) (name : Name) :
    (functions.map (·.moved f)).any (·.name = name) = functions.any (·.name = name) := by
  rw [List.any_map]
  rfl

/-- A schema with everything that it declares at other places. -/
def Schema.moved (f : Nat → Nat) (s : Schema) : Schema where
  tables := s.tables.map (·.moved f)
  rls := s.rls.map fun entry => (entry.1, entry.2.moved f)
  policies := s.policies.map (·.moved f)
  functions := s.functions.map (·.moved f)
  triggers := s.triggers.map (·.moved f)
  warnings := s.warnings

@[simp] theorem Schema.moved_tables (f : Nat → Nat) (s : Schema) :
    (s.moved f).tables = s.tables.map (·.moved f) := rfl

@[simp] theorem Schema.moved_functions (f : Nat → Nat) (s : Schema) :
    (s.moved f).functions = s.functions.map (·.moved f) := rfl

@[simp] theorem Schema.moved_triggers (f : Nat → Nat) (s : Schema) :
    (s.moved f).triggers = s.triggers.map (·.moved f) := rfl

namespace Bytewise

open Text (Chars byteLength bytesBefore slice?)

/-! ## Scanners -/

/-- The characters outside of comments from a place on. -/
def lexFrom (mode : Mode) (offset : Nat) : Chars → List Lexeme
  | [] => []
  | c :: rest =>
    ((mode.read? c rest.head?).map fun r => ⟨offset, r.1, r.2⟩).toList ++
      lexFrom (mode.after c rest.head?) (offset + c.utf8Size) rest

/-- The characters of a script outside of comments and strings. -/
def code (text : Chars) : List Lexeme := (lexFrom .code 0 text).filter (!·.quoted)

/-- The place of the bracket that closes the one just before `start`. -/
def matchingParen? (text : Chars) (start : Nat) : Option (Option Nat) :=
  (slice? text start (byteLength text)).map fun rest => (closing? 1 (code rest)).map (start + ·)

/-- The place behind the statement that goes on at `start`. -/
def statementEnd? (text : Chars) (start : Nat) : Option Nat :=
  (slice? text start (byteLength text)).map fun rest =>
    match (code rest).find? (·.char = ';') with
    | some l => start + l.offset + 1
    | none => byteLength text

/-- The parts of a text between the places of separators, the first one starting at `start`, each
with its bounds counted from `base` on. -/
def cutAt? (text : Chars) (base : Nat) : Nat → List Nat → Option (List (Region × Chars))
  | start, [] =>
    (slice? text start (byteLength text)).map fun part =>
      [(⟨base + start, base + byteLength text⟩, part)]
  | start, place :: places => do
    let part ← slice? text start place
    let more ← cutAt? text base (place + 1) places
    return (⟨base + start, base + place⟩, part) :: more

/-- The parts of a region of a script between the commas outside of brackets. -/
def items? (text : Chars) (r : Region) : Option (List (Region × Chars)) :=
  (slice? text r.start r.stop).bind fun inner =>
    cutAt? inner r.start 0 (topCommas 0 (code inner))

/-! ## What the scanners find -/

/-- **Lexemes in bytes.** -/
theorem lexFrom_eq : ∀ (front rest : Chars) (mode : Mode),
    lexFrom mode (byteLength front) rest =
      (Sql.lexFrom mode front.length rest).map (·.moved (bytesBefore (front ++ rest)))
  | _, [], _ => rfl
  | front, c :: rest, mode => by
    have ih := lexFrom_eq (front ++ [c]) rest (mode.after c rest.head?)
    have hplace : bytesBefore (front ++ c :: rest) front.length = byteLength front := by
      rw [bytesBefore, List.take_left]
    rw [Text.byteLength_append, Text.byteLength_cons, Text.byteLength_nil, Nat.add_zero,
      List.length_append, List.length_singleton, List.append_assoc, List.singleton_append] at ih
    rw [lexFrom, lexFrom_cons, ih, List.map_append]
    cases mode.read? c rest.head? with
    | none => rfl
    | some r => simp [Lexeme.moved, hplace]

theorem code_eq (text : Chars) : code text = (Sql.code text).map (·.moved (bytesBefore text)) := by
  have hlex : lexFrom .code 0 text = (lex text).map (·.moved (bytesBefore text)) :=
    lexFrom_eq [] text .code
  rw [code, hlex, List.filter_map]
  rfl

section

variable (text : Chars)

/-- The closing bracket, in bytes. -/
theorem matchingParen?_eq (start : Nat) : matchingParen? text (bytesBefore text start) =
    some ((Sql.matchingParen? text start).map (bytesBefore text)) := by
  rw [matchingParen?, Text.slice?_from, Option.map_some, code_eq, closing?_map,
    Sql.matchingParen?, Option.map_map, Option.map_map]
  refine congrArg (fun f => some (Option.map f _)) ?_
  funext place
  exact (Text.bytesBefore_add text start place).symm

/-- The end of a statement, in bytes: a semicolon takes one. -/
theorem statementEnd?_eq (start : Nat) : statementEnd? text (bytesBefore text start) =
    some (bytesBefore text (statementEnd text start)) := by
  rw [statementEnd?, Text.slice?_from, Option.map_some, code_eq, List.find?_map, statementEnd]
  cases hsemicolon : semicolon? text start with
  | none =>
    have hnone := Option.map_eq_none_iff.1 hsemicolon
    simp only [Function.comp_def, Lexeme.moved, hnone, Option.map_none, Text.bytesBefore_length]
  | some place =>
    obtain ⟨l, hl, rfl⟩ := Option.map_eq_some_iff.1 hsemicolon
    have hchar : l.char = ';' := by simpa using List.find?_some hl
    have hget := (outside_of_mem_code (List.mem_of_find?_eq_some hl) (by rw [hchar]; decide)).1
    rw [List.getElem?_drop, hchar] at hget
    simp only [Function.comp_def, Lexeme.moved, hl, Option.map_some,
      Text.bytesBefore_succ text hget rfl, Text.bytesBefore_add]

end

/-- The bounds of a part of a part, in bytes. -/
theorem bytesBefore_chars {text : Chars} {r : Region} {place : Nat}
    (h : r.start + place ≤ r.stop) : bytesBefore text r.start + bytesBefore (r.chars text) place =
      bytesBefore text (r.start + place) := by
  unfold Region.chars
  rw [Text.bytesBefore_add, List.drop_take, Text.bytesBefore_take _ (by omega)]

theorem byteLength_chars {text : Chars} {r : Region} (h : r.start ≤ r.stop) :
    bytesBefore text r.start + byteLength (r.chars text) = bytesBefore text r.stop := by
  have hstop : r.start + (r.stop - r.start) = r.stop := by omega
  have hall : bytesBefore (r.chars text) (r.stop - r.start) = byteLength (r.chars text) := by
    unfold Region.chars bytesBefore
    rw [List.take_of_length_le (by rw [List.length_drop, List.length_take]; omega)]
  rw [← hall, bytesBefore_chars (by omega), hstop]

/-- A part of a script, with its characters. -/
def cutOut (text : Chars) (r : Region) : Region × Chars := (r.moved (bytesBefore text), r.chars text)

/-- The parts between separators of one byte that stand in order, in bytes. -/
theorem cutAt?_eq {text : Chars} {r : Region} : ∀ {places : List Nat} {start : Nat},
    r.start + start ≤ r.stop → (∀ place ∈ places, start ≤ place) → places.Pairwise (· < ·) →
      (∀ place ∈ places, (r.chars text)[place]? = some ',') →
        cutAt? (r.chars text) (bytesBefore text r.start) (bytesBefore (r.chars text) start)
            (places.map (bytesBefore (r.chars text))) =
          some ((cutAt (r.start + start) r.stop (places.map (r.start + ·))).map (cutOut text))
  | [], start, hstart, _, _, _ => by
    have hpart : (r.chars text).drop start = Region.chars ⟨r.start + start, r.stop⟩ text := by
      unfold Region.chars
      rw [List.drop_drop]
    rw [List.map_nil, cutAt?, Text.slice?_from, Option.map_some, bytesBefore_chars hstart,
      byteLength_chars (by omega), hpart]
    rfl
  | place :: places, start, hstart, hle, hordered, hcommas => by
    obtain ⟨hplace, hcommas⟩ := List.forall_mem_cons.1 hcommas
    obtain ⟨hlt, hordered⟩ := List.pairwise_cons.1 hordered
    have hle := hle place List.mem_cons_self
    have hlength := (List.getElem?_eq_some_iff.1 hplace).1
    unfold Region.chars at hlength
    rw [List.length_drop, List.length_take] at hlength
    have hinside : r.start + place ≤ r.stop := by omega
    have hnext : r.start + (place + 1) ≤ r.stop := by omega
    have ih := cutAt?_eq hnext hlt hordered hcommas
    have hchars : Region.chars ⟨start, place⟩ (r.chars text) =
        Region.chars ⟨r.start + start, r.start + place⟩ text := Region.chars_chars hinside
    have hpart := (Text.slice?_bytesBefore (r.chars text) hle).trans (congrArg some hchars)
    rw [Text.bytesBefore_succ _ hplace rfl] at ih
    simp only [List.map_cons, cutAt?, hpart, ih, Option.bind_eq_bind, Option.bind_some,
      Option.pure_def, bytesBefore_chars hstart, bytesBefore_chars hinside]
    rfl

/-- The commas of a text that separate items stand in order. -/
theorem topCommas_sublist : ∀ (ls : List Lexeme) (depth : Int),
    (topCommas depth ls).Sublist (ls.map (·.offset))
  | [], _ => List.Sublist.slnil
  | l :: ls, depth => by
    rw [topCommas, List.map_cons]
    split
    · exact (topCommas_sublist ls _).cons _
    · split
      · exact (topCommas_sublist ls _).cons _
      · split
        · exact (topCommas_sublist ls _).cons_cons _
        · exact (topCommas_sublist ls _).cons _

theorem pairwise_topCommas (text : Chars) : (topCommas 0 (Sql.code text)).Pairwise (· < ·) := by
  refine List.Pairwise.sublist (topCommas_sublist _ 0) (List.pairwise_map.2 ?_)
  exact List.Pairwise.sublist List.filter_sublist (pairwise_lexFrom text .code 0)

variable (text : Chars) in
/-- Between bounds in order a region can be cut out. -/
theorem slice?_moved {r : Region} (h : r.start ≤ r.stop) :
    slice? text (bytesBefore text r.start) (bytesBefore text r.stop) = some (r.chars text) :=
  Text.slice?_bytesBefore text h

variable (text : Chars) in
/-- The items of a region, in bytes. -/
theorem items?_eq {r : Region} (h : r.start ≤ r.stop) :
    items? text (r.moved (bytesBefore text)) = some ((items text r).map (cutOut text)) := by
  have hinner := slice?_moved text h
  unfold items? Region.moved
  rw [hinner, Option.bind_some, code_eq, topCommas_map]
  refine cutAt?_eq (Nat.add_zero _ ▸ h) (fun _ _ => Nat.zero_le _) (pairwise_topCommas _) ?_
  intro place hplace
  obtain ⟨l, hl, hchar, rfl⟩ := exists_of_mem_topCommas hplace
  rw [← hchar]
  exact (outside_of_mem_code hl (by rw [hchar]; decide)).1

/-! ## Bodies of tables -/

/-- The body of a table between its brackets. -/
def tableBody? (text : Chars) (r : Region) : Option TableBody :=
  (items? text r).map fun parts =>
    parts.foldl (fun body part => body.addPart part.1 part.2) ⟨[], []⟩

section

variable {text : Chars}

/-- Adding parts that have been cut out is adding them where they stand. -/
theorem foldl_cutOut {add : TableBody → Region → Chars → TableBody}
    (hadd : ∀ f body region part, add (TableBody.moved f body) (Region.moved f region) part =
      (add body region part).moved f) (regions : List Region) (body : TableBody) :
    (regions.map (cutOut text)).foldl (fun body part => add body part.1 part.2)
        (body.moved (bytesBefore text)) =
      (regions.foldl (fun body region => add body region (region.chars text)) body).moved
        (bytesBefore text) := by
  rw [List.foldl_map]
  exact List.foldl_hom (TableBody.moved (bytesBefore text)) fun body region => hadd _ body region _

variable (text) in
/-- The body of a table, in bytes. -/
theorem tableBody?_eq {r : Region} (h : r.start ≤ r.stop) :
    tableBody? text (r.moved (bytesBefore text)) =
      some ((TableBody.ofRegion text r).moved (bytesBefore text)) := by
  have hadd (f : Nat → Nat) (body : TableBody) (region : Region) (part : Chars) :
      (body.moved f).addPart (region.moved f) part = (body.addPart region part).moved f :=
    addPart_moved rfl f body region
  rw [tableBody?, items?_eq text h]
  exact congrArg some (foldl_cutOut hadd (items text r) ⟨[], []⟩)

end

/-! ## Tables -/

/-- Adds the table whose definition starts with a match. -/
def addTable? (text : Chars) (found : List Table × List String) (m : Match) :
    Option (List Table × List String) := do
  let name := Name.ofMatch m 1
  match ← matchingParen? text m.stop with
  | none => return (found.1, found.2 ++ ["Unterminated CREATE TABLE " ++ name.text])
  | some close =>
    if name.isInternal || found.1.any (·.name = name) then return found
    else
      let stop ← statementEnd? text close
      let body ← tableBody? text ⟨m.stop, close⟩
      return (found.1 ++ [⟨name, body, ⟨m.start, stop⟩⟩], found.2)

/-- Where the clauses of an alteration end: in front of the semicolon of the statement, if it has
one. -/
def clausesEnd? (text : Chars) (start : Nat) : Option Nat := do
  let stop ← statementEnd? text start
  let front ← slice? text 0 stop
  return if front.getLast? = some ';' then stop - 1 else stop

/-- Carries out the alteration that starts with a match. -/
def alterTables? (text : Chars) (tables : List Table) (m : Match) : Option (List Table) := do
  if tables.any (·.name = Name.ofMatch m 1) then
    let close ← clausesEnd? text m.stop
    let clauses ← items? text ⟨m.stop, close⟩
    return tables.map fun t =>
      if t.name = Name.ofMatch m 1 then
        { t with body := clauses.foldl (fun body part => body.addClausePart part.1 part.2) t.body }
      else t
  else return tables

section

variable {text : Chars} {m : Match}

theorem addTable?_eq (found : List Table × List String) :
    addTable? text (found.1.map (·.moved (bytesBefore text)), found.2)
        (m.moved (bytesBefore text)) =
      some ((addTable text found m).1.map (·.moved (bytesBefore text)),
        (addTable text found m).2) := by
  have hname : Name.ofMatch (m.moved (bytesBefore text)) 1 = Name.ofMatch m 1 := rfl
  unfold addTable? addTable
  simp only [hname, Match.moved_start, Match.moved_stop, Table.any_moved,
    matchingParen?_eq, Option.bind_eq_bind, Option.bind_some]
  cases hclose : Sql.matchingParen? text m.stop with
  | none => rfl
  | some close =>
    have hbody : tableBody? text ⟨bytesBefore text m.stop, bytesBefore text close⟩ =
        some ((TableBody.ofRegion text ⟨m.stop, close⟩).moved (bytesBefore text)) :=
      tableBody?_eq text (r := ⟨m.stop, close⟩) (le_matchingParen hclose)
    simp only [Option.map_some]
    split
    · rfl
    · simp only [statementEnd?_eq, hbody, Option.bind_some, List.map_append, Option.pure_def]
      rfl

/-- The end of the clauses, in bytes. Nothing is taken off the end of a script that does not end
with a semicolon itself. -/
theorem clausesEnd?_eq (hend : text.getLast? ≠ some ';') (start : Nat) :
    clausesEnd? text (bytesBefore text start) =
      some (bytesBefore text ((semicolon? text start).getD text.length)) := by
  have hfront (stop : Nat) : slice? text 0 (bytesBefore text stop) = some (text.take stop) :=
    Text.slice?_bytesBefore text (Nat.zero_le stop)
  simp only [clausesEnd?, statementEnd?_eq, hfront, Option.bind_eq_bind, Option.bind_some,
    Option.pure_def, Option.some.injEq]
  unfold statementEnd
  cases hsemicolon : semicolon? text start with
  | none =>
    rw [List.take_length, if_neg hend]
    rfl
  | some place =>
    obtain ⟨-, hget⟩ := getElem?_of_semicolon? hsemicolon
    have hlt := (List.getElem?_eq_some_iff.1 hget).1
    have hlast : (text.take (place + 1)).getLast? = some ';' := by
      rw [List.getLast?_eq_getElem?, List.length_take, Nat.min_eq_left hlt, Nat.succ_sub_one,
        List.getElem?_take_of_lt (Nat.lt_succ_self _), hget]
    rw [if_pos hlast, Text.bytesBefore_succ text hget rfl]
    rfl

/-- The clauses of an alteration lie behind its head and inside of the script. -/
theorem bounds_of_clausesEnd (hm : m.stop ≤ text.length) :
    m.stop ≤ (semicolon? text m.stop).getD text.length ∧
      (semicolon? text m.stop).getD text.length ≤ text.length := by
  cases hsemicolon : semicolon? text m.stop with
  | none => exact ⟨hm, Nat.le_refl _⟩
  | some place =>
    obtain ⟨hbehind, hget⟩ := getElem?_of_semicolon? hsemicolon
    exact ⟨hbehind, Nat.le_of_lt (List.getElem?_eq_some_iff.1 hget).1⟩

theorem alterTables?_eq (hend : text.getLast? ≠ some ';') (hm : m.stop ≤ text.length)
    (tables : List Table) :
    alterTables? text (tables.map (·.moved (bytesBefore text))) (m.moved (bytesBefore text)) =
      some ((alterTables text tables m).map (·.moved (bytesBefore text))) := by
  have hname : Name.ofMatch (m.moved (bytesBefore text)) 1 = Name.ofMatch m 1 := rfl
  have hadd (f : Nat → Nat) (body : TableBody) (region : Region) (part : Chars) :
      (body.moved f).addClausePart (region.moved f) part = (body.addClausePart region part).moved f :=
    addClausePart_moved rfl f body region
  have hclose := clausesEnd?_eq hend m.stop
  have hle := (bounds_of_clausesEnd hm).1
  unfold alterTables? alterTables
  simp only [hname, Match.moved_stop, Table.any_moved, hclose, Option.bind_eq_bind,
    Option.bind_some]
  generalize (semicolon? text m.stop).getD text.length = close at hle ⊢
  have hclauses : items? text ⟨bytesBefore text m.stop, bytesBefore text close⟩ =
      some ((items text ⟨m.stop, close⟩).map (cutOut text)) :=
    items?_eq text (r := ⟨m.stop, close⟩) hle
  split
  · rw [hclauses, Option.bind_some, List.map_map, List.map_map]
    refine congrArg some (List.map_congr_left fun t _ => ?_)
    simp only [Function.comp_apply]
    rw [show (t.moved (bytesBefore text)).name = t.name from rfl]
    split
    · exact congrArg (fun body => Table.mk _ body _) (foldl_cutOut hadd _ t.body)
    · rfl
  · next hnone =>
    have hother : ∀ t ∈ tables, t.name ≠ Name.ofMatch m 1 := by simpa using hnone
    rw [List.map_map]
    refine congrArg some (List.map_congr_left fun t ht => ?_)
    rw [Function.comp_apply, if_neg (hother t ht)]

end

/-! ## Policies and triggers -/

/-- Adds the policy whose definition starts with a match, unless its table has it. -/
def addPolicy? (text : Chars) (found : List Policy) (m : Match) : Option (List Policy) :=
  (statementEnd? text m.stop).map fun stop =>
    let policy : Policy :=
      ⟨Name.ofMatch m 3, if (m.group? 1).isSome then m.text 1 else m.text 2, ⟨m.start, stop⟩⟩
    if found.any fun p => p.table = policy.table ∧ p.name = policy.name then found
    else found ++ [policy]

/-- The trigger of a match. -/
def trigger? (text : Chars) (m : Match) : Option Trigger :=
  (statementEnd? text m.stop).map fun stop =>
    ⟨m.text 1, Name.ofMatch m 2, Name.ofMatch m 4, ⟨m.start, stop⟩⟩

section

variable {text : Chars} (m : Match)

theorem addPolicy?_eq (found : List Policy) :
    addPolicy? text (found.map (·.moved (bytesBefore text))) (m.moved (bytesBefore text)) =
      some ((addPolicy text found m).map (·.moved (bytesBefore text))) := by
  rw [addPolicy?, addPolicy, Match.moved_stop, statementEnd?_eq, Option.map_some]
  dsimp only
  rw [List.any_map, apply_ite (List.map fun p : Policy => p.moved (bytesBefore text)),
    List.map_append]
  rfl

theorem trigger?_eq : trigger? text (m.moved (bytesBefore text)) =
    some ((triggerOf text m).moved (bytesBefore text)) := by
  rw [trigger?, Match.moved_stop, statementEnd?_eq]
  rfl

end

/-! ## Functions -/

/-- The dollar-quoted body of a function whose arguments end at `argsEnd`. -/
def dollarBody? (text : Chars) (argsEnd : Nat) : Option (Option (Option Region)) := do
  let rest ← slice? text argsEnd (byteLength text)
  let head := rest.takeWhile (· != ';')
  match (Pattern.dollarQuote.first? rest).map (·.moved (bytesBefore rest)) with
  | some m =>
    if head.length = rest.length ∨ m.start < byteLength head then
      let closing := '$' :: (m.text 1).toList ++ ['$']
      let behind ← slice? text (argsEnd + m.stop) (byteLength text)
      return (Text.cut? closing behind).map fun (body, _) =>
        some ⟨argsEnd + m.start, argsEnd + m.stop + byteLength body + byteLength closing⟩
    else return some none
  | none => return some none

/-- The place behind the next semicolon, comments or not. -/
def plainEnd? (text : Chars) (argsEnd : Nat) : Option Nat :=
  (slice? text argsEnd (byteLength text)).map fun rest =>
    let head := rest.takeWhile (· != ';')
    if head.length = rest.length then byteLength text else argsEnd + byteLength head + 1

/-- The body of a function, empty at the end of a function that has none, and the place behind the
function. -/
def ends? (text : Chars) (argsEnd : Nat) : Option Region → Option (Region × Nat)
  | some body => (statementEnd? text body.stop).map fun stop => (body, stop)
  | none => (plainEnd? text argsEnd).map fun stop => (⟨stop, stop⟩, stop)

/-- The function of a match with its attributes. -/
def functionOf (m : Match) (attributes : Chars) (region : Region) : Function where
  name := Name.ofMatch m 1
  language := (Pattern.functionLanguage.first? attributes).map fun m => Text.lowercase (m.text 1)
  securityDefiner := Pattern.securityDefiner.occursIn attributes
  returns := (Pattern.functionReturns.first? attributes).map fun m => Text.lowercase (m.text 1)
  region

/-- The function whose definition starts with a match. -/
def function? (text : Chars) (m : Match) : Option (Option Function) := do
  match ← matchingParen? text m.stop with
  | none => return none
  | some argsEnd =>
    match ← dollarBody? text argsEnd with
    | none => return none
    | some body? =>
      let (body, stop) ← ends? text argsEnd body?
      let front ← slice? text m.start body.start
      let back ← slice? text body.stop stop
      return some (functionOf m (front ++ ' ' :: back) ⟨m.start, stop⟩)

/-- Adds the function whose definition starts with a match. -/
def addFunction? (text : Chars) (found : List Function × List String) (m : Match) :
    Option (List Function × List String) := do
  let name := Name.ofMatch m 1
  if name.isInternal || found.1.any (·.name = name) then return found
  else match ← function? text m with
    | some f => return (found.1 ++ [f], found.2)
    | none => return (found.1, found.2 ++ ["Unterminated CREATE FUNCTION " ++ name.text])

section

variable {text : Chars}

/-- The bytes in front of the first semicolon. -/
theorem byteLength_takeWhile (rest : Chars) : byteLength (rest.takeWhile (· != ';')) =
    bytesBefore rest (rest.takeWhile (· != ';')).length := by
  have hhead := List.prefix_iff_eq_take.1 (List.takeWhile_prefix (p := (· != ';')) (l := rest))
  rw [bytesBefore, ← hhead]

/-- The end of a function without a body, in bytes. -/
theorem plainEnd?_eq (argsEnd : Nat) : plainEnd? text (bytesBefore text argsEnd) =
    some (bytesBefore text
      (min (argsEnd + ((text.drop argsEnd).takeWhile (· != ';')).length + 1) text.length)) := by
  have hhead := (List.takeWhile_prefix (p := (· != ';')) (l := text.drop argsEnd)).length_le
  rw [plainEnd?, Text.slice?_from, Option.map_some]
  dsimp only
  rw [byteLength_takeWhile]
  rcases Nat.lt_or_eq_of_le hhead with hlt | hall
  · have hget := getElem?_length_takeWhile hlt
    rw [List.getElem?_drop] at hget
    have hstop := (List.getElem?_eq_some_iff.1 hget).1
    rw [if_neg (Nat.ne_of_lt hlt), Nat.min_eq_left hstop, Text.bytesBefore_succ text hget rfl,
      Text.bytesBefore_add]
  · have hstop : text.length ≤ argsEnd + ((text.drop argsEnd).takeWhile (· != ';')).length + 1 := by
      rw [hall, List.length_drop]
      omega
    rw [if_pos hall, Nat.min_eq_right hstop, Text.bytesBefore_length]

/-- The body of a function, in bytes. -/
theorem dollarBody?_eq (argsEnd : Nat) : dollarBody? text (bytesBefore text argsEnd) =
    some ((Sql.dollarBody? text argsEnd).map (Option.map (·.moved (bytesBefore text)))) := by
  simp only [dollarBody?, Sql.dollarBody?, Text.slice?_from, Option.bind_eq_bind, Option.bind_some,
    byteLength_takeWhile]
  cases hquote : Pattern.dollarQuote.first? (text.drop argsEnd) with
  | none => rfl
  | some m =>
    have hhead :=
      (List.takeWhile_prefix (p := (· != ';')) (l := text.drop argsEnd)).length_le
    simp only [Option.map_some, Match.moved_start, Match.moved_stop, ← Text.bytesBefore_add,
      Text.slice?_from, Option.bind_some, List.drop_drop, Text.bytesBefore_lt_iff _ hhead]
    split
    · rw [Option.map_map]
      refine congrArg some (Option.map_congr fun found hfound => ?_)
      have hbytes := Text.bytesBefore_behind text (Text.eq_of_cut? hfound)
      rw [Text.byteLength_append, List.length_append, ← Nat.add_assoc, ← Nat.add_assoc] at hbytes
      exact congrArg (fun stop => some (Region.mk _ stop)) hbytes.symm
    · rfl

theorem lt_of_matchingParen? {start close : Nat}
    (h : Sql.matchingParen? text start = some close) : close < text.length := by
  obtain ⟨place, hplace, rfl⟩ := Option.map_eq_some_iff.1 h
  obtain ⟨l, hl, -, rfl⟩ := exists_of_closing? hplace
  have hlt := (offset_of_mem_lexFrom (List.mem_filter.1 hl).1).2
  rw [List.length_drop] at hlt
  omega

/-- The body of a function stands behind its arguments, in order and inside of the script. -/
theorem bounds_of_dollarBody? {argsEnd : Nat} {body : Region}
    (h : Sql.dollarBody? text argsEnd = some (some body)) :
    argsEnd ≤ body.start ∧ body.start ≤ body.stop ∧ body.stop ≤ text.length := by
  unfold Sql.dollarBody? at h
  dsimp only at h
  split at h
  · next m hquote =>
    split at h
    · obtain ⟨found, hfound, hbody⟩ := Option.map_eq_some_iff.1 h
      obtain rfl := Option.some.inj hbody
      obtain ⟨front, s, hs, hmatch⟩ := Pattern.first?_eq_some hquote
      have hle := (Pattern.start_le_stop hmatch).2
      have hlength := congrArg List.length (Text.eq_of_cut? hfound)
      simp only [List.length_drop, List.length_append, List.length_cons] at hlength
      simp only [List.length_append, List.length_cons]
      omega
    · cases Option.some.inj h
  · cases Option.some.inj h

end

/-- The body of a function and the place behind the function, by characters. -/
def ends (text : Chars) (argsEnd : Nat) : Option Region → Region × Nat
  | some body => (body, statementEnd text body.stop)
  | none =>
    let stop := min (argsEnd + ((text.drop argsEnd).takeWhile (· != ';')).length + 1) text.length
    (⟨stop, stop⟩, stop)

section

variable {text : Chars} {m : Match}

theorem ends?_eq (argsEnd : Nat) (body? : Option Region) :
    ends? text (bytesBefore text argsEnd) (body?.map (·.moved (bytesBefore text))) =
      some ((ends text argsEnd body?).1.moved (bytesBefore text),
        bytesBefore text (ends text argsEnd body?).2) := by
  cases body? with
  | none =>
    rw [Option.map_none, ends?, plainEnd?_eq]
    rfl
  | some body =>
    have hstop : statementEnd? text (body.moved (bytesBefore text)).stop =
        some (bytesBefore text (statementEnd text body.stop)) := statementEnd?_eq text body.stop
    rw [Option.map_some, ends?, hstop]
    rfl

/-- The arguments, the body and the end of a function stand in order. -/
theorem bounds_of_ends {argsEnd : Nat} {body? : Option Region} (hargs : argsEnd ≤ text.length)
    (h : Sql.dollarBody? text argsEnd = some body?) : argsEnd ≤ (ends text argsEnd body?).1.start ∧
      (ends text argsEnd body?).1.stop ≤ (ends text argsEnd body?).2 := by
  cases body? with
  | none =>
    simp only [ends]
    omega
  | some body =>
    obtain ⟨hstart, -, hstop⟩ := bounds_of_dollarBody? h
    exact ⟨hstart, le_statementEnd hstop⟩

/-- The attributes of a function stand around its body. -/
theorem function?_eq_ends : Sql.function? text m =
    (Sql.matchingParen? text m.stop).bind fun argsEnd =>
      (Sql.dollarBody? text argsEnd).map fun body? =>
        functionOf m (Region.chars ⟨m.start, (ends text argsEnd body?).1.start⟩ text ++
          ' ' :: Region.chars ⟨(ends text argsEnd body?).1.stop, (ends text argsEnd body?).2⟩ text)
          ⟨m.start, (ends text argsEnd body?).2⟩ := by
  unfold Sql.function?
  refine congrArg (Option.bind _) (funext fun argsEnd => ?_)
  cases Sql.dollarBody? text argsEnd with
  | none => rfl
  | some body? => cases body? <;> rfl

/-- A function, in bytes. -/
theorem function?_eq (hm : m.start ≤ m.stop) : function? text (m.moved (bytesBefore text)) =
    some ((Sql.function? text m).map (·.moved (bytesBefore text))) := by
  unfold function?
  simp only [Match.moved_start, Match.moved_stop, matchingParen?_eq, function?_eq_ends,
    Option.bind_eq_bind, Option.bind_some]
  cases hargs : Sql.matchingParen? text m.stop with
  | none => rfl
  | some argsEnd =>
    have hlt := lt_of_matchingParen? hargs
    have hle := le_matchingParen hargs
    simp only [Option.map_some, dollarBody?_eq, Option.bind_some]
    cases hbody : Sql.dollarBody? text argsEnd with
    | none => rfl
    | some body? =>
      obtain ⟨hfront, hback⟩ := bounds_of_ends (Nat.le_of_lt hlt) hbody
      simp only [Option.map_some, ends?_eq, Option.bind_some]
      generalize ends text argsEnd body? = found at hfront hback ⊢
      have hfront := slice?_moved text (r := ⟨m.start, found.1.start⟩) (by simp only; omega)
      have hback := slice?_moved text (r := ⟨found.1.stop, found.2⟩) hback
      simp only [Region.moved, hfront, hback, Option.bind_some]
      rfl

theorem addFunction?_eq (hm : m.start ≤ m.stop) (found : List Function × List String) :
    addFunction? text (found.1.map (·.moved (bytesBefore text)), found.2)
        (m.moved (bytesBefore text)) =
      some ((addFunction text found m).1.map (·.moved (bytesBefore text)),
        (addFunction text found m).2) := by
  have hname : Name.ofMatch (m.moved (bytesBefore text)) 1 = Name.ofMatch m 1 := rfl
  unfold addFunction? addFunction
  simp only [hname, Function.any_moved, function?_eq hm, Option.bind_eq_bind,
    Option.bind_some]
  split
  · rfl
  · cases Sql.function? text m with
    | none => rfl
    | some f =>
      simp only [Option.map_some, List.map_append]
      rfl

end

/-! ## Schemas -/

/-- The matches of a pattern, with their bounds in bytes. -/
def heads (text : Chars) (p : Pattern) : List Match := (p.all text).map (·.moved (bytesBefore text))

/-- The schema that a script declares. -/
def schema? (text : Chars) : Option Schema := do
  let (tables, tableWarnings) ← (heads text .createTable).foldlM (addTable? text) ([], [])
  let tables ← (heads text .alterTable).foldlM (alterTables? text) tables
  let policies ← (heads text .createPolicy).foldlM (addPolicy? text) []
  let (functions, functionWarnings) ←
    (heads text .createFunction).foldlM (addFunction? text) ([], [])
  let triggers ← (heads text .createTrigger).mapM (trigger? text)
  return {
    tables
    rls := (heads text .enableRls).map fun m => (Name.ofMatch m 1, ⟨m.start, m.stop⟩)
    policies
    functions
    triggers
    warnings := tableWarnings ++ functionWarnings }

/-- A run in which no step fails. -/
theorem foldlM_eq_some {α β γ δ : Type} {step? : α → γ → Option α} {step : β → δ → β} (F : β → α)
    (move : δ → γ) : ∀ (ms : List δ) (found : β),
      (∀ found, ∀ m ∈ ms, step? (F found) (move m) = some (F (step found m))) →
        (ms.map move).foldlM step? (F found) = some (F (ms.foldl step found))
  | [], _, _ => rfl
  | m :: ms, found, h => by
    rw [List.map_cons, List.foldlM_cons, h found m List.mem_cons_self, List.foldl_cons]
    exact foldlM_eq_some F move ms _ fun found m hm => h found m (List.mem_cons_of_mem _ hm)

theorem mapM_eq_some {α β γ : Type} {make? : β → Option γ} {make : α → γ} (move : α → β) :
    ∀ (ms : List α), (∀ m ∈ ms, make? (move m) = some (make m)) →
      (ms.map move).mapM make? = some (ms.map make)
  | [], _ => rfl
  | m :: ms, h => by
    have ih := mapM_eq_some move ms fun m' hm => h m' (List.mem_cons_of_mem m hm)
    rw [List.map_cons, List.mapM_cons, h m List.mem_cons_self, Option.bind_eq_bind,
      Option.bind_some, ih]
    rfl

/-- **No cut fails.** The schema of a script is read byte by byte, with every place counted in
bytes. -/
theorem schema?_eq {text : Chars} (hend : text.getLast? ≠ some ';') :
    schema? text = some ((Schema.ofScript text).moved (bytesBefore text)) := by
  let f := bytesBefore text
  let movedTables (found : List Table × List String) := (found.1.map (·.moved f), found.2)
  let movedFunctions (found : List Function × List String) := (found.1.map (·.moved f), found.2)
  have htables := foldlM_eq_some movedTables (Match.moved f) (Pattern.createTable.all text) ([], [])
    fun found m _ => addTable?_eq found
  have halter := foldlM_eq_some (List.map (Table.moved f)) (Match.moved f)
    (Pattern.alterTable.all text)
    ((Pattern.createTable.all text).foldl (addTable text) ([], [])).1 fun tables m hm =>
      alterTables?_eq hend (Pattern.bounds_of_mem_all hm).2 tables
  have hpolicies := foldlM_eq_some (List.map (Policy.moved f)) (Match.moved f)
    (Pattern.createPolicy.all text) [] fun found m _ => addPolicy?_eq m found
  have hfunctions := foldlM_eq_some movedFunctions (Match.moved f)
    (Pattern.createFunction.all text) ([], []) fun found m hm =>
      addFunction?_eq (Pattern.bounds_of_mem_all hm).1 found
  have htriggers := mapM_eq_some (Match.moved f) (Pattern.createTrigger.all text)
    fun m _ => trigger?_eq m
  simp only [movedTables, movedFunctions, List.map_nil] at htables hpolicies hfunctions
  simp only [schema?, heads, f, htables, halter, hpolicies, hfunctions, htriggers,
    Option.bind_eq_bind, Option.bind_some, Option.pure_def]
  simp only [Schema.moved, Schema.ofScript, List.map_map]
  rfl

end Sql.Bytewise
end ArchGraph
