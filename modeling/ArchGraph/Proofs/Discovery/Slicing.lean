import ArchGraph.Discovery.Database
import ArchGraph.Proofs.Sql.Origins
import ArchGraph.Proofs.Sql.Spans
import Mathlib.Data.List.Find
/-!
# Finding the database byte by byte

The database is found here in a script whose places are counted in bytes: the schema is read byte by
byte, the file of a part is the one between whose bytes it starts, and files, parts and excerpts are
cut out of the texts that they stand in, which can fail. Main statement: nothing fails, and what is
found is what is found by characters (`slices_in_bounds`).
-/

namespace ArchGraph.Discovery

namespace Bytewise

open Sql (Location Migrations MigrationFile Region Schema)
open Sql.Bytewise (mapM_eq_some)
open Text (Chars IsBound byteLength bytesBefore slice? trim)

/-! ## Places -/

/-- How many line feeds stand among the first bytes of a text. -/
def feedsBefore : Nat → Chars → Nat
  | 0, _ | _ + 1, [] => 0
  | bytes + 1, c :: rest => (if c = '\n' then 1 else 0) + feedsBefore (bytes + 1 - c.utf8Size) rest

/-- Where a file starts and ends, in bytes. -/
def segment (m : Migrations) (f : MigrationFile) : Region :=
  Region.moved (bytesBefore m.text) ⟨f.start, f.stop⟩

/-- The place of a part of the script, if it lies in one file. A part that ends in front of the file
in which it starts is an error. -/
def locate? (m : Migrations) (r : Region) : Option (Option Location) :=
  match m.files.find? fun f => (segment m f).start ≤ r.start && r.start ≤ (segment m f).stop with
  | none => some none
  | some f =>
    let s := segment m f
    if s.stop < r.stop then some none
    else if r.stop < s.start then none
    else (slice? m.text s.start s.stop).map fun content =>
      some ⟨f.repo, f.path, (feedsBefore (r.start - s.start) content + 1).toUInt32,
        (feedsBefore (r.stop - s.start) content + 1).toUInt32⟩

theorem feedsBefore_bytesBefore : ∀ (text : Chars) (place : Nat),
    feedsBefore (bytesBefore text place) text = (text.take place).count '\n'
  | text, 0 => by
    rw [Text.bytesBefore_zero]
    cases text <;> rfl
  | [], place + 1 => rfl
  | c :: rest, place + 1 => by
    have hbytes : bytesBefore (c :: rest) (place + 1) = c.utf8Size + bytesBefore rest place :=
      Text.byteLength_cons c _
    obtain ⟨size, hsize⟩ := Nat.exists_eq_add_of_lt c.utf8Size_pos
    have hbehind : size + bytesBefore rest place + 1 - c.utf8Size = bytesBefore rest place := by
      omega
    have hcount : 0 + size + 1 + bytesBefore rest place = size + bytesBefore rest place + 1 := by
      omega
    rw [hbytes, hsize, hcount, feedsBefore, hbehind, feedsBefore_bytesBefore rest place,
      List.take_succ_cons, List.count_cons, Nat.add_comm]
    simp only [beq_iff_eq]

section

variable {m : Migrations} (hm : m.Laid) {r : Region} (hr : r.Inside m.text)
include hm hr

/-- **Places in bytes.** -/
theorem locate?_eq : locate? m (r.moved (bytesBefore m.text)) = some (m.locate? r) := by
  have hordered := hr.ordered
  have hle := hr.le
  have hfind : (m.files.find? fun f => (segment m f).start ≤ (r.moved (bytesBefore m.text)).start &&
        (r.moved (bytesBefore m.text)).start ≤ (segment m f).stop) =
      m.files.find? fun f => f.start ≤ r.start && r.start ≤ f.stop := by
    apply List.find?_congr
    intro f hf
    have hwithin := hm.within f hf
    have hstart : f.start ≤ m.text.length := by
      unfold MigrationFile.stop at hwithin
      omega
    simp only [segment, Region.moved, Text.bytesBefore_le_iff m.text hstart,
      Text.bytesBefore_le_iff m.text (Nat.le_trans hordered hle)]
  unfold locate? Migrations.locate?
  rw [hfind]
  cases hfound : m.files.find? fun f => f.start ≤ r.start && r.start ≤ f.stop with
  | none => rfl
  | some f =>
    have hf := List.mem_of_find?_eq_some hfound
    have hplace := List.find?_some hfound
    simp only [Bool.and_eq_true, decide_eq_true_eq] at hplace
    obtain ⟨hstart, hstop⟩ := hplace
    have hfile : f.start ≤ f.stop := Nat.le_add_right _ _
    have hcontent : slice? m.text (bytesBefore m.text f.start) (bytesBefore m.text f.stop) =
        some f.content := by
      rw [Text.slice?_bytesBefore m.text hfile, ← hm.content f hf]
      rfl
    have hmono := Text.bytesBefore_mono m.text (Nat.le_trans hstart hordered)
    simp only [segment, Region.moved, Option.bind_some, Text.bytesBefore_lt_iff m.text hle,
      if_neg (Nat.not_lt_of_le hmono), hcontent, Option.map_some]
    split
    · rfl
    · next hend =>
      have hopens := hm.bytesBefore_within hf hstart hstop
      have hcloses := hm.bytesBefore_within hf (Nat.le_trans hstart hordered)
        (Nat.le_of_not_lt hend)
      rw [hopens, hcloses, Nat.add_sub_cancel_left, Nat.add_sub_cancel_left,
        feedsBefore_bytesBefore, feedsBefore_bytesBefore]
      rfl

end

/-! ## Citations -/

/-- The excerpt of a part: its first characters, up to where the next one starts. -/
def excerpt? (cap : Nat) (part : Chars) : Option String :=
  (slice? (trim part) 0 (bytesBefore (trim part) cap)).map String.ofList

/-- A citation with the place of a part, if it has one. -/
def cite? (m : Migrations) (kind : EvidenceKind) (nodeId : String) (r : Region) : Option Citation :=
  (locate? m r).map fun
    | some place =>
      { kind, nodeId, filePath := some place.path, lines := some (place.lineStart, place.lineEnd) }
    | none => { kind, nodeId }

/-- A citation with the place of one part and the excerpt of what is seen of another one. -/
def quote? (m : Migrations) (kind : EvidenceKind) (nodeId : String) (cap : Nat)
    (view : Chars → Chars) (place shown : Region) : Option Citation := do
  let citation ← cite? m kind nodeId place
  let part ← slice? m.text shown.start shown.stop
  let excerpt ← excerpt? cap (view part)
  return { citation with excerpt }

/-- A citation of a part with that part as its excerpt. -/
def quotePart? (m : Migrations) (kind : EvidenceKind) (nodeId : String) (cap : Nat) (r : Region) :
    Option Citation := quote? m kind nodeId cap id r r

theorem excerpt?_eq (cap : Nat) (part : Chars) :
    excerpt? cap part = some (String.ofList (boundExcerpt (trim part) cap)) := by
  have hslice := Text.slice?_bytesBefore (trim part) (Nat.zero_le cap)
  rw [Text.bytesBefore_zero] at hslice
  rw [excerpt?, hslice]
  rfl

section

variable {m : Migrations} (hm : m.Laid)
include hm

theorem cite?_eq (kind : EvidenceKind) (nodeId : String) {r : Region} (hr : r.Inside m.text) :
    cite? m kind nodeId (r.moved (bytesBefore m.text)) = some (m.cite kind nodeId r) := by
  rw [cite?, locate?_eq hm hr]
  unfold Migrations.cite
  cases m.locate? r <;> rfl

/-- **Citations in bytes.** -/
theorem quote?_eq (kind : EvidenceKind) (nodeId : String) (cap : Nat) (view : Chars → Chars)
    {place shown : Region} (hplace : place.Inside m.text) (hshown : shown.start ≤ shown.stop) :
    quote? m kind nodeId cap view (place.moved (bytesBefore m.text))
        (shown.moved (bytesBefore m.text)) =
      some { m.cite kind nodeId place with
        excerpt := String.ofList (boundExcerpt (trim (view (shown.chars m.text))) cap) } := by
  have hslice := Sql.Bytewise.slice?_moved m.text hshown
  unfold quote?
  rw [cite?_eq hm kind nodeId hplace]
  simp only [Region.moved, hslice, excerpt?_eq, Option.bind_eq_bind, Option.bind_some,
    Option.pure_def]

theorem quotePart?_eq (kind : EvidenceKind) (nodeId : String) (cap : Nat) {r : Region}
    (hr : r.Inside m.text) :
    quotePart? m kind nodeId cap (r.moved (bytesBefore m.text)) =
      some { m.cite kind nodeId r with
        excerpt := String.ofList (boundExcerpt (trim (r.chars m.text)) cap) } :=
  quote?_eq hm kind nodeId cap id hr hr.ordered

end

/-! ## Tables -/

/-- The edge of a foreign key that a part of the script declares. -/
def foreignKeyEdge? (m : Migrations) (t : Sql.Table) (key : String × Region) : Option Findings :=
  let tableId := Id.table t.name.schema t.name.name
  match (t.body.columns.find? (·.name == key.1)).bind (·.references) with
  | none => some .empty
  | some ref =>
    match referencedNode? ref with
    | none => some .empty
    | some target =>
      let name : Sql.Name := ⟨ref.schema.getD Sql.defaultSchema, ref.table⟩
      let references := match ref.column with
        | some column => name.text ++ "." ++ column
        | none => name.text
      let edge := Edge.make .reads tableId (.node target) key.1 (.foreignKey key.1 references) .high
      (quotePart? m .sqlMigration tableId lineExcerptCap key.2).map fun c =>
        .citedEdge edge { c with edgeId := some edge.id }

/-- A table with its citations and foreign keys. -/
def tableFindings? (m : Migrations) (s : Schema) (t : Sql.Table) : Option Findings := do
  let tableId := Id.table t.name.schema t.name.name
  let place ← locate? m t.region
  let block ← quotePart? m .dbTable tableId blockExcerptCap t.region
  let rls ← (s.rlsOf? t.name).toList.mapM (quotePart? m .rlsPolicy tableId lineExcerptCap)
  let policies ← (s.policiesOf t.name).mapM fun p =>
    quotePart? m .rlsPolicy tableId lineExcerptCap p.region
  let keys ← t.body.foreignKeys.mapM (foreignKeyEdge? m t)
  let node : Node :=
    { id := tableId
      label := t.name.name
      owningRepo := place.map (·.repo)
      detail := .table {
        schema := t.name.schema
        columns := t.body.columns
        hasRls := (s.rlsOf? t.name).isSome
        policies := (s.policiesOf t.name).map (·.name) } }
  return .node node ++ .citation block ++ .concat (rls.map .citation) ++
    .concat (policies.map .citation) ++ .concat keys

section

variable {m : Migrations} (hm : m.Laid)
include hm

theorem foreignKeyEdge?_eq (t : Sql.Table) {key : String × Region} (hkey : key.2.Inside m.text) :
    foreignKeyEdge? m (t.moved (bytesBefore m.text)) (key.1, key.2.moved (bytesBefore m.text)) =
      some (foreignKeyEdge m t key) := by
  have hcolumns : (t.moved (bytesBefore m.text)).body.columns = t.body.columns := rfl
  unfold foreignKeyEdge? foreignKeyEdge
  simp only [hcolumns, quotePart?_eq hm _ _ _ hkey, Option.map_some]
  cases (t.body.columns.find? (·.name == key.1)).bind (·.references) with
  | none => rfl
  | some ref =>
    dsimp only
    cases referencedNode? ref with
    | none => rfl
    | some target => rfl

variable {s : Schema} (hs : ∀ r ∈ s.regions, r.Inside m.text)
include hs

theorem tableFindings?_eq {t : Sql.Table} (ht : t ∈ s.tables) :
    tableFindings? m (s.moved (bytesBefore m.text)) (t.moved (bytesBefore m.text)) =
      some (tableFindings m s t) := by
  have htable := hs t.region (Sql.mem_regions.2 (.inl ⟨t, ht, rfl⟩))
  have hrls := mapM_eq_some (Region.moved (bytesBefore m.text)) (s.rlsOf? t.name).toList
    fun r hr => quotePart?_eq hm .rlsPolicy (Id.table t.name.schema t.name.name) lineExcerptCap
      (hs r (Sql.mem_regions_of_rlsOf? (Option.mem_toList.1 hr)))
  have hpolicies : ((s.policiesOf t.name).map (·.moved (bytesBefore m.text))).mapM (fun p =>
      quotePart? m .rlsPolicy (Id.table t.name.schema t.name.name) lineExcerptCap p.region) =
        some ((s.policiesOf t.name).map fun p =>
          citePart m .rlsPolicy (Id.table t.name.schema t.name.name) p.region) := by
    refine mapM_eq_some (Sql.Policy.moved (bytesBefore m.text)) _ fun p hp => ?_
    exact quotePart?_eq hm _ _ _ (hs p.region (Sql.mem_regions_of_mem_policiesOf hp))
  have hkeys := mapM_eq_some (fun key => (key.1, key.2.moved (bytesBefore m.text)))
    t.body.foreignKeys fun key hkey => foreignKeyEdge?_eq hm t
      (hs key.2 (Sql.mem_regions.2 (.inr (.inl ⟨t, ht, key, hkey, rfl⟩))))
  simp only [tableFindings?, Sql.Table.moved_name, Sql.Table.moved_region,
    Sql.Table.moved_foreignKeys, Sql.rlsOf?_moved, Sql.policiesOf_moved, Option.toList_map,
    locate?_eq hm htable, quotePart?_eq hm _ _ _ htable, hrls, hpolicies, hkeys,
    Option.bind_eq_bind, Option.bind_some]
  simp only [Option.isSome_map, List.map_map]
  rfl

end

/-! ## Functions and triggers -/

/-- A function with its citation. -/
def functionFindings? (m : Migrations) (f : Sql.Function) : Option Findings := do
  let functionId := Id.function f.name.schema f.name.name
  let place ← locate? m f.region
  let block ← quotePart? m .dbFunction functionId blockExcerptCap f.region
  let node : Node :=
    { id := functionId
      label := f.name.name
      owningRepo := place.map (·.repo)
      detail := .function ⟨f.name.schema, f.language, f.securityDefiner, f.returns⟩ }
  return .node node ++ .citation block

/-- The edge of a trigger, if its table is known. -/
def triggerFindings? (m : Migrations) (s : Schema) (t : Sql.Trigger) : Option Findings :=
  if (s.table? t.table).isNone then some .empty
  else
    let tableId := Id.table t.table.schema t.table.name
    let functionId := Id.function t.function.schema t.function.name
    let edge :=
      Edge.make .usesFunction tableId (.node functionId) t.name (.trigger t.name) .high
    (quotePart? m .sqlMigration tableId lineExcerptCap t.region).map fun c =>
      .citedEdge edge { c with edgeId := some edge.id }

section

variable {m : Migrations} (hm : m.Laid)
include hm

theorem functionFindings?_eq {f : Sql.Function} (hf : f.region.Inside m.text) :
    functionFindings? m (f.moved (bytesBefore m.text)) = some (functionFindings m f) := by
  simp only [functionFindings?, Sql.Function.moved_region, locate?_eq hm hf,
    quotePart?_eq hm _ _ _ hf, Option.bind_eq_bind, Option.bind_some]
  rfl

theorem triggerFindings?_eq (s : Schema) {t : Sql.Trigger} (ht : t.region.Inside m.text) :
    triggerFindings? m (s.moved (bytesBefore m.text)) (t.moved (bytesBefore m.text)) =
      some (triggerFindings m s t) := by
  simp only [triggerFindings?, triggerFindings, Sql.table?_moved, Option.isNone_map,
    Sql.Trigger.moved_region, quotePart?_eq hm _ _ _ ht, Option.map_some]
  rw [apply_ite some]
  rfl

end

/-! ## Subsystems -/

/-- The citation of a mention: its place, and its statement as the excerpt. -/
def citeMention? (m : Migrations) (nodeId : String) (found : Match) : Option Citation :=
  (Sql.Bytewise.statementEnd? m.text found.stop).bind fun stop =>
    quote? m .sqlMigration nodeId lineExcerptCap id ⟨found.start, found.stop⟩ ⟨found.start, stop⟩

/-- The insertion into the profiles table that a new user causes. -/
def profileEdge? (m : Migrations) (t : Sql.Table) : Option Findings :=
  let edge := Edge.make .writes Id.auth (.node (Id.table t.name.schema t.name.name))
    DbOperation.insert.name (.dataAccess .insert t.name.name) .medium
  let firstLine (part : Chars) : Chars := (Text.lines part).headD []
  (quote? m .dbTable Id.auth lineExcerptCap firstLine t.region t.region).map fun c =>
    .citedEdge edge { c with edgeId := some edge.id, confidence := .medium }

/-- The first match of a pattern, with its bounds in bytes. -/
def mention? (text : Chars) (p : Pattern) : Option Match :=
  (p.first? text).map (·.moved (bytesBefore text))

/-- The authentication subsystem, if the migrations mention its users, declare a profiles table,
or calls of it were found. -/
def authFindings? (m : Migrations) (s : Schema) (g : Graph) : Option Findings := do
  let users := mention? m.text .authUsers
  let profiles := s.table? profilesName
  if users.isNone && profiles.isNone && (g.edgesOf .authenticates).isEmpty then return .empty
  else
    let citations ← users.toList.mapM (citeMention? m Id.auth)
    let edges ← profiles.toList.mapM (profileEdge? m)
    return .node ⟨Id.auth, "Auth", none, .auth ⟨users.map fun _ => "supabase"⟩⟩ ++
      .concat (citations.map .citation) ++ .concat edges

/-- The storage subsystem, if the migrations mention it or calls of it were found. -/
def storageFindings? (m : Migrations) (g : Graph) : Option Findings := do
  let mention := mention? m.text .storageRef
  let calls := g.edgesOf .stores
  let buckets := Text.sortedSet ((Sql.Bytewise.heads m.text .bucketInsert).flatMap insertedBuckets ++
    calls.filterMap accessedBucket?)
  if mention.isNone && calls.isEmpty then return .empty
  else
    let citations ← mention.toList.mapM (citeMention? m Id.storage)
    return .node ⟨Id.storage, "Storage", none, .storage ⟨buckets⟩⟩ ++
      .concat (citations.map .citation)

section

variable {m : Migrations} (hm : m.Laid)
include hm

theorem citeMention?_eq (nodeId : String) {p : Pattern} {found : Match}
    (hfound : p.first? m.text = some found) :
    citeMention? m nodeId (found.moved (bytesBefore m.text)) = some (citeMention m nodeId found) := by
  obtain ⟨hordered, hle⟩ := Pattern.bounds_of_first? hfound
  have hplace : Region.Inside ⟨found.start, found.stop⟩ m.text := ⟨hordered, hle⟩
  have hstatement : (Sql.statementOf m.text found).start ≤ (Sql.statementOf m.text found).stop :=
    Nat.le_trans hordered (Sql.le_statementEnd hle)
  have hquote := quote?_eq hm .sqlMigration nodeId lineExcerptCap id hplace hstatement
  rw [citeMention?, Match.moved_start, Match.moved_stop, Sql.Bytewise.statementEnd?_eq,
    Option.bind_some]
  exact hquote

theorem profileEdge?_eq {t : Sql.Table} (ht : t.region.Inside m.text) :
    profileEdge? m (t.moved (bytesBefore m.text)) = some (profileEdge m t) := by
  simp only [profileEdge?, Sql.Table.moved_name, Sql.Table.moved_region,
    quote?_eq hm _ _ _ _ ht ht.ordered, Option.map_some]
  rfl

theorem authFindings?_eq {s : Schema} (hs : ∀ r ∈ s.regions, r.Inside m.text) (g : Graph) :
    authFindings? m (s.moved (bytesBefore m.text)) g = some (authFindings m s g) := by
  have hmentions := mapM_eq_some (Match.moved (bytesBefore m.text))
    (Pattern.authUsers.first? m.text).toList fun found hfound =>
      citeMention?_eq hm Id.auth (Option.mem_toList.1 hfound)
  have hedges := mapM_eq_some (Sql.Table.moved (bytesBefore m.text)) (s.table? profilesName).toList
    fun t ht => profileEdge?_eq hm
      (hs t.region (Sql.mem_regions_of_table? (Option.mem_toList.1 ht)))
  simp only [authFindings?, authFindings, mention?, Sql.table?_moved, Option.isNone_map,
    Option.toList_map, hmentions, hedges, Option.bind_eq_bind, Option.bind_some, Option.map_map,
    List.map_map, Option.pure_def]
  rw [apply_ite some]
  rfl

theorem storageFindings?_eq (g : Graph) : storageFindings? m g = some (storageFindings m g) := by
  have hmentions := mapM_eq_some (Match.moved (bytesBefore m.text))
    (Pattern.storageRef.first? m.text).toList fun found hfound =>
      citeMention?_eq hm Id.storage (Option.mem_toList.1 hfound)
  have hbuckets : (Sql.Bytewise.heads m.text .bucketInsert).flatMap insertedBuckets =
      (Pattern.bucketInsert.all m.text).flatMap insertedBuckets :=
    List.flatMap_map _ _ _
  simp only [storageFindings?, storageFindings, mention?, hbuckets, Option.isNone_map,
    Option.toList_map, hmentions, Option.bind_eq_bind, Option.bind_some, List.map_map,
    Option.pure_def]
  rw [apply_ite some]
  rfl

end

/-! ## The database -/

/-- What the migrations of a project say about its database. -/
def database? (p : Project) (g : Graph) : Option Findings := do
  let m := Migrations.ofProject p
  let s ← Sql.Bytewise.schema? m.text
  let tables ← s.tables.mapM (tableFindings? m s)
  let functions ← s.functions.mapM (functionFindings? m)
  let triggers ← s.triggers.mapM (triggerFindings? m s)
  let auth ← authFindings? m s g
  let storage ← storageFindings? m g
  return { warnings := s.warnings } ++ .concat tables ++ .concat functions ++ .concat triggers ++
    auth ++ storage

/-- **Nothing fails.** What is found byte by byte is what is found by characters. -/
theorem database?_eq (p : Project) (g : Graph) : database? p g = some (database p g) := by
  have hm := Migrations.laid_ofProject p
  have hs : ∀ r ∈ (Schema.ofScript (Migrations.ofProject p).text).regions,
      r.Inside (Migrations.ofProject p).text := fun r hr => Sql.inside_of_mem_regions hr
  have hschema := Sql.Bytewise.schema?_eq hm.getLast?_ne
  simp only [database?, database]
  generalize Migrations.ofProject p = m at hm hs hschema ⊢
  rw [hschema]
  generalize Schema.ofScript m.text = s at hs ⊢
  have htables := mapM_eq_some (Sql.Table.moved (bytesBefore m.text)) s.tables
    fun t ht => tableFindings?_eq hm hs ht
  have hfunctions := mapM_eq_some (Sql.Function.moved (bytesBefore m.text)) s.functions
    fun f hf => functionFindings?_eq hm (hs f.region (Sql.mem_regions_of_mem_functions hf))
  have htriggers := mapM_eq_some (Sql.Trigger.moved (bytesBefore m.text)) s.triggers
    fun t ht => triggerFindings?_eq hm s (hs t.region (Sql.mem_regions_of_mem_triggers ht))
  simp only [Schema.moved_tables, Schema.moved_functions, Schema.moved_triggers, htables,
    hfunctions, htriggers, authFindings?_eq hm hs, storageFindings?_eq hm, Option.bind_eq_bind,
    Option.bind_some]
  rfl

/-- The groups of matches that are read without asking whether they took part. -/
def indexed : List (Pattern × Nat) :=
  [(.createTrigger, 1), (.tablePrimaryKey, 1), (.tableForeignKey, 1), (.references, 2),
   (.functionLanguage, 1), (.functionReturns, 1), (.bucketInsert, 1), (.bucketInsert, 2),
   (.sqlTuple, 1)]

theorem fills_of_mem_indexed : ∀ entry ∈ indexed, entry.1.fills entry.2 = true := by decide

/-- **Every slice is in bounds.** Whatever files were pushed, the schema of their script is read
without a cut that fails, and every part that it records starts no later than it ends, inside of
the script and at bounds of characters; the depth at which a part of it is cut fits 32 bits, if the
script has fewer than `2 ^ 31` bytes. The database of a project is found without a cut that fails,
too, and groups that are read took part. -/
theorem slices_in_bounds :
    (∀ pushes : List (String × String × Chars),
      let text := (Migrations.ofPushes pushes).text
      ∃ s, Sql.Bytewise.schema? text = some s ∧
        s = (Schema.ofScript text).moved (bytesBefore text) ∧
        (∀ r ∈ s.regions, r.start ≤ r.stop ∧ r.stop ≤ byteLength text ∧
          IsBound text r.start ∧ IsBound text r.stop) ∧
        (byteLength text < 2 ^ 31 → ∀ (r : Region) (part : Chars),
          slice? text r.start r.stop = some part → Sql.topCommas32 0 (Sql.Bytewise.code part) =
            Sql.topCommas 0 (Sql.Bytewise.code part))) ∧
      (∀ (p : Project) (g : Graph), database? p g = some (database p g)) ∧
      ∀ entry ∈ indexed, ∀ (s : Cursor) (m : Match), entry.1.matchAt? s = some m →
        (m.group? entry.2).isSome = true := by
  refine ⟨fun pushes => ?_, database?_eq, ?_⟩
  · have hm := Migrations.laid_ofPushes pushes
    refine ⟨_, Sql.Bytewise.schema?_eq hm.getLast?_ne, rfl, fun r hr => ?_, ?_⟩
    · rw [Sql.regions_moved] at hr
      obtain ⟨part, hpart, rfl⟩ := List.mem_map.1 hr
      have hslice := Sql.Bytewise.slice?_moved (Migrations.ofPushes pushes).text
        (Sql.inside_of_mem_regions hpart).ordered
      exact Text.isSome_slice?_iff.1 (by rw [Region.moved, hslice]; rfl)
    · intro hshort r part hslice
      exact Sql.Bytewise.topCommas32_code
        (Nat.lt_of_le_of_lt (Text.length_le_of_slice? hslice) hshort)
  · intro entry hentry s m hm
    exact Pattern.isSome_group? (fills_of_mem_indexed entry hentry) hm

end Bytewise
end ArchGraph.Discovery
