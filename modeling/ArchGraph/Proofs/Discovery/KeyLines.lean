import ArchGraph.Proofs.Discovery.Tracing
import ArchGraph.Proofs.Sql.Openings
/-!
# Lines of foreign keys

A foreign key is cited with the part of the script that declares it, trimmed, and with the line on
which that part starts before it is trimmed. The part starts behind a bracket or a comma, so that the
line is the one of that bracket or comma if white space stands between. Hence the line is the one
on which the excerpt starts exactly if no line feed stands there (`key_cited_at_delimiter`); a key
on a line of its own is cited with the line before (`key_cited_too_early`). Lines are numbered in
32-bit words, which are exact in a file with fewer lines.
-/

namespace ArchGraph.Discovery

open Sql (Migrations MigrationFile Location Region Schema SetOff Declares)
open Text (Chars isBlank lineAt trim)

/-! ## Lines -/

/-- The line stays the same over characters without a line feed only, as long as the line feeds are
fewer than words tell apart. -/
theorem lineAt_append_iff {before lead rest : Chars} (h : lead.count '\n' < UInt32.size) :
    lineAt (before ++ lead ++ rest) before.length =
      lineAt (before ++ lead ++ rest) (before ++ lead).length ↔ '\n' ∉ lead := by
  have hwords (a b : Nat) : a.toUInt32 = b.toUInt32 ↔ a % UInt32.size = b % UInt32.size := by
    rw [← UInt32.toNat_inj]
    rfl
  have hsize : UInt32.size = 4294967296 := rfl
  unfold lineAt
  rw [List.take_left, List.append_assoc, List.take_left, List.count_append, hwords,
    ← List.count_eq_zero]
  rw [hsize] at h ⊢
  omega

/-- The line feed behind the comma stands between two lines. -/
example : lineAt "(a,\n b)".toList 3 = 1 ∧ lineAt "(a,\n b)".toList 5 = 2 := by decide +kernel

/-! ## Parts of a file -/

/-- An excerpt stands in a text, behind a front part and some white space; in front of white space
a bracket or a comma stands. -/
structure Excerpted (content : Chars) (excerpt : String) (before lead rest : Chars) : Prop where
  split  : content = before ++ lead ++ rest
  blank  : ∀ c ∈ lead, isBlank c = true
  stands : excerpt.toList <+: rest
  opens  : ∃ c, excerpt.toList.head? = some c ∧ isBlank c = false
  front  : lead ≠ [] → before.getLast? = some '(' ∨ before.getLast? = some ','

section

variable {m : Migrations} {f : MigrationFile} {r : Region}

theorem length_take_content (hle : r.start ≤ f.stop) :
    (f.content.take (r.start - f.start)).length = r.start - f.start := by
  unfold MigrationFile.stop at hle
  rw [List.length_take]
  omega

/-- The characters of a part that lies in a file are those of the file at its place there. -/
theorem chars_of_within (hm : m.Laid) (hf : f ∈ m.files) (hstart : f.start ≤ r.start)
    (hstop : r.stop ≤ f.stop) :
    r.chars m.text = (f.content.drop (r.start - f.start)).take (r.stop - r.start) := by
  have hcontent := hm.content f hf
  have hplace : f.start + (r.start - f.start) = r.start := by omega
  have hlength : min (r.stop - r.start) (f.stop - r.start) = r.stop - r.start := by omega
  unfold Region.chars at hcontent ⊢
  rw [← hcontent, List.drop_drop, hplace, List.drop_take, List.drop_take, List.take_take, hlength]

/-- A character of a file stands in the script at its place there. -/
theorem getElem?_content (hm : m.Laid) (hf : f ∈ m.files) {place : Nat} (hstart : f.start ≤ place)
    (hstop : place < f.stop) : f.content[place - f.start]? = m.text[place]? := by
  have hcontent := hm.content f hf
  have hplace : f.start + (place - f.start) = place := by omega
  unfold Region.chars at hcontent
  rw [← hcontent, List.getElem?_drop, hplace, List.getElem?_take_of_lt hstop]

/-- A file starts behind a line feed, so a part behind a bracket or a comma does not start with its
file. -/
theorem delimiter_within (hm : m.Laid) (hf : f ∈ m.files) (hstart : f.start ≤ r.start)
    (hpos : 0 < r.start) (hdelim : m.text[r.start - 1]? = some '(' ∨ m.text[r.start - 1]? = some ',') :
    f.start < r.start := by
  apply Nat.lt_of_le_of_ne hstart
  intro heq
  rcases hm.opens f hf with hzero | hline
  · omega
  · rw [heq] at hline
    rcases hdelim with hdelim | hdelim
    · simp [hline] at hdelim
    · simp [hline] at hdelim

/-- White space at the start of a part that declares something stands behind a bracket or a comma of
the file. -/
theorem delimiter_of_blank (hm : m.Laid) (hf : f ∈ m.files) (hstart : f.start ≤ r.start)
    (hle : r.start ≤ f.stop) (hr : SetOff m.text r.start) {c : Char}
    (hc : (r.chars m.text).head? = some c) (hblank : isBlank c = true) :
    (f.content.take (r.start - f.start)).getLast? = some '(' ∨
      (f.content.take (r.start - f.start)).getLast? = some ',' := by
  have hfirst : m.text[r.start]? = some c := by
    unfold Region.chars at hc
    rw [List.head?_drop, List.getElem?_take] at hc
    split at hc
    · exact hc
    · cases hc
  rcases hr with hsolid | ⟨hpos, hdelim⟩
  · simp [hsolid c hfirst] at hblank
  · have hlt := delimiter_within hm hf hstart hpos hdelim
    have hplace : r.start - f.start - 1 = r.start - 1 - f.start := by omega
    have hlast : (f.content.take (r.start - f.start)).getLast? = m.text[r.start - 1]? := by
      rw [List.getLast?_eq_getElem?, length_take_content hle, List.getElem?_take_of_lt (by omega), hplace,
        getElem?_content hm hf (by omega) (by omega)]
    rw [hlast]
    exact hdelim

theorem head_lineExcerpt (text : Chars) : (lineExcerpt text).toList.head? = (trim text).head? := by
  unfold lineExcerpt boundExcerpt
  rw [String.toList_ofList, List.head?_take, if_neg (by decide)]

/-- **Where an excerpt stands.** The excerpt of a part that declares something stands in its file
behind the place where the part starts, with nothing but white space in between. -/
theorem excerpted_of_declares (hm : m.Laid) (hf : f ∈ m.files) (hstart : f.start ≤ r.start)
    (hle : r.start ≤ f.stop) (hstop : r.stop ≤ f.stop) (hr : Declares m.text r) :
    ∃ before lead rest, Excerpted f.content (lineExcerpt (r.chars m.text)) before lead rest ∧
      before.length = r.start - f.start := by
  have hwithin := chars_of_within hm hf hstart hstop
  obtain ⟨lead, trail, hsplit, hlead, -⟩ := Text.exists_trim (r.chars m.text)
  obtain ⟨rest, hbehind, hrest⟩ : ∃ rest, f.content.drop (r.start - f.start) = lead ++ rest ∧
      trim (r.chars m.text) <+: rest := by
    refine ⟨trim (r.chars m.text) ++ (trail ++
      (f.content.drop (r.start - f.start)).drop (r.stop - r.start)), ?_, List.prefix_append _ _⟩
    calc f.content.drop (r.start - f.start)
        = r.chars m.text ++ (f.content.drop (r.start - f.start)).drop (r.stop - r.start) := by
          rw [hwithin, List.take_append_drop]
      _ = (lead ++ trim (r.chars m.text) ++ trail) ++
            (f.content.drop (r.start - f.start)).drop (r.stop - r.start) := by rw [← hsplit]
      _ = _ := by simp only [List.append_assoc]
  obtain ⟨c, hc⟩ : ∃ c, (trim (r.chars m.text)).head? = some c :=
    Option.ne_none_iff_exists'.1 fun h => hr.solid (List.head?_eq_none_iff.1 h)
  refine ⟨f.content.take (r.start - f.start), lead, rest, ⟨?_, hlead, ?_, ⟨c, ?_, ?_⟩, ?_⟩,
    length_take_content hle⟩
  · rw [List.append_assoc, ← hbehind, List.take_append_drop]
  · unfold lineExcerpt boundExcerpt
    rw [String.toList_ofList]
    exact (List.take_prefix _ _).trans hrest
  · rw [head_lineExcerpt, hc]
  · exact Text.isBlank_of_head_trim hc
  · intro hne
    obtain ⟨d, lead', rfl⟩ := List.exists_cons_of_ne_nil hne
    have hd : (r.chars m.text).head? = some d := by
      rw [hsplit]
      rfl
    exact delimiter_of_blank hm hf hstart hle hr.start hd (hlead d List.mem_cons_self)

end

/-! ## Citations -/

theorem lineStart_cite (m : Migrations) (kind : EvidenceKind) (nodeId : String) (r : Region) :
    (m.cite kind nodeId r).lines.map (·.1) = (m.locate? r).map (·.lineStart) := by
  unfold Migrations.cite
  cases m.locate? r with
  | none => rfl
  | some place => rfl

/-- The citation of a foreign key is the one of the part that declares it. -/
theorem cited_of_mem_foreignKeyEdge {m : Migrations} {t : Sql.Table} {key : String × Region}
    {e : Evidence} (he : e ∈ (foreignKeyEdge m t key).evidence) :
    e.excerpt = lineExcerpt (key.2.chars m.text) ∧
      e.filePath = (m.locate? key.2).map (·.path) ∧
        e.lineStart = (m.locate? key.2).map (·.lineStart) := by
  unfold foreignKeyEdge at he
  simp only at he
  split at he
  · cases he
  · split at he
    · cases he
    · rw [List.mem_singleton.1 he]
      exact ⟨rfl, filePath_cite m _ _ _, lineStart_cite m _ _ _⟩

/-- The citation of a foreign key of a table is found. -/
theorem found_of_mem_foreignKeyEdge {p : Project} (g : Graph) {t : Sql.Table}
    (ht : t ∈ (Schema.ofScript (Migrations.ofProject p).text).tables) {key : String × Region}
    (hkey : key ∈ t.body.foreignKeys) {e : Evidence}
    (he : e ∈ (foreignKeyEdge (Migrations.ofProject p) t key).evidence) :
    e ∈ (database p g).evidence := by
  apply (partOf_database.1 t ht).evidence
  apply (partOf_append_right _ _).evidence
  exact (partOf_concat_map hkey (foreignKeyEdge (Migrations.ofProject p) t)).evidence he

/-- **The line of a foreign key.** The citation of a foreign key is found, and if it names a file it
names the line on which the part of the file starts, white space and all. White space stands behind
a bracket or a comma only, and the line is the one on which the excerpt starts exactly if it holds
no line feed, unless it holds more of them than words tell apart. -/
theorem key_cited_at_delimiter (p : Project) (g : Graph) {t : Sql.Table}
    (ht : t ∈ (Schema.ofScript (Migrations.ofProject p).text).tables) {key : String × Region}
    (hkey : key ∈ t.body.foreignKeys) {e : Evidence}
    (he : e ∈ (foreignKeyEdge (Migrations.ofProject p) t key).evidence) {path : String}
    (hpath : e.filePath = some path) : e ∈ (database p g).evidence ∧
    ∃ f ∈ (Migrations.ofProject p).files, f.path = path ∧ ∃ r ∈ p.repositories, ∃ content,
      (p.content? r path = some content ∧ f.content = content.toList) ∧ ∃ before lead rest,
        (Excerpted content.toList e.excerpt before lead rest ∧
          key.2.start = f.start + before.length) ∧
        e.lineStart = some (lineAt content.toList before.length) ∧
          (content.toList.count '\n' + 1 < UInt32.size →
            e.lineStart.map (·.toNat) = some (before.count '\n' + 1)) ∧
          (lead.count '\n' < UInt32.size →
            (e.lineStart = some (lineAt content.toList (before ++ lead).length) ↔
              '\n' ∉ lead)) := by
  refine ⟨found_of_mem_foreignKeyEdge g ht hkey he, ?_⟩
  obtain ⟨hexcerpt, hfile, hline⟩ := cited_of_mem_foreignKeyEdge he
  rw [hpath] at hfile
  obtain ⟨place, hplace, rfl⟩ := Option.map_eq_some_iff.1 hfile.symm
  obtain ⟨f, hf, hstart, hle, hstop, hpath', hlineStart⟩ := Migrations.exists_of_locate? hplace
  obtain ⟨r, hr, content, hcontent, hchars⟩ := Migrations.content_of_mem_files hf
  obtain ⟨before, lead, rest, hexcerpted, hlength⟩ := excerpted_of_declares
    (Migrations.laid_ofProject p) hf hstart hle hstop (Sql.declares_of_mem_foreignKeys t ht key hkey)
  rw [hplace, Option.map_some, hlineStart, ← hlength, hchars] at hline
  rw [← hexcerpt, hchars] at hexcerpted
  refine ⟨f, hf, hpath'.symm, r, hr, content, ⟨hpath' ▸ hcontent, hchars⟩, before, lead, rest,
    ⟨hexcerpted, by omega⟩, hline, ?_, ?_⟩
  · intro hfits
    have hfront : content.toList.take before.length = before := by
      rw [hexcerpted.split, List.append_assoc, List.take_left]
    rw [hline, Option.map_some, Text.toNat_lineAt_of_count hfits, hfront]
  · intro hfeeds
    rw [hline, Option.some.injEq, hexcerpted.split]
    exact lineAt_append_iff hfeeds

/-- A table on one line. -/
def oneLine : String := "create table t (id int, t_id int references t(id));"

/-- A foreign key behind a comma and a blank is cited with its line. -/
theorem key_cited_at_delimiter_oneLine :
    let p := migrated oneLine
    ∃ t ∈ (Schema.ofScript (Migrations.ofProject p).text).tables, ∃ key ∈ t.body.foreignKeys,
      ∃ e ∈ (foreignKeyEdge (Migrations.ofProject p) t key).evidence,
        e.filePath = some "migrations/a.sql" ∧ ∃ before lead rest,
          Excerpted oneLine.toList e.excerpt before lead rest ∧
            e.lineStart = some (lineAt oneLine.toList (before ++ lead).length) := by
  intro p
  obtain ⟨t, ht, key, hkey, e, he, hpath⟩ :
      ∃ t ∈ (Schema.ofScript (Migrations.ofProject p).text).tables, ∃ key ∈ t.body.foreignKeys,
        ∃ e ∈ (foreignKeyEdge (Migrations.ofProject p) t key).evidence,
          e.filePath = some "migrations/a.sql" := by decide +kernel
  obtain ⟨-, f, -, -, r, hr, content, ⟨hcontent, -⟩, before, lead, rest, ⟨hexcerpted, -⟩, -, -,
      hline⟩ :=
    key_cited_at_delimiter p .empty ht hkey he hpath
  have hall : ∀ r ∈ p.repositories, p.content? r "migrations/a.sql" = some oneLine := by
    decide
  obtain rfl := Option.some.inj ((hall r hr).symm.trans hcontent)
  have hfeeds : '\n' ∉ lead := by
    intro hfeed
    have hmem : '\n' ∈ oneLine.toList := by
      rw [hexcerpted.split]
      simp [hfeed]
    exact absurd hmem (by decide)
  have hfew : lead.count '\n' < UInt32.size := by
    rw [List.count_eq_zero.2 hfeeds]
    decide
  exact ⟨t, ht, key, hkey, e, he, hpath, before, lead, rest, hexcerpted, (hline hfew).2 hfeeds⟩

/-- A table with each column on a line of its own. -/
def manyLines : String :=
  "create table t (id int);\ncreate table s (\n  a int,\n  t_id int references t(id)\n);\n"

/-- **A foreign key is cited too early.** The excerpt of the only foreign key starts on the fourth
line of the migration, and the citation names the third, where the column in front of it ends. -/
theorem key_cited_too_early :
    let p := migrated manyLines
    let before := "create table t (id int);\ncreate table s (\n  a int,\n  ".toList
    ∃ t ∈ (Schema.ofScript (Migrations.ofProject p).text).tables, ∃ key ∈ t.body.foreignKeys,
      ∃ e ∈ (foreignKeyEdge (Migrations.ofProject p) t key).evidence,
        e ∈ (database p .empty).evidence ∧
          (e.filePath = some "migrations/a.sql" ∧ e.excerpt = "t_id int references t(id)" ∧
            e.lineStart = some 3) ∧
          (manyLines.toList = before ++ e.excerpt.toList ++ "\n);\n".toList ∧
            lineAt manyLines.toList before.length = 4) := by
  intro p before
  obtain ⟨t, ht, key, hkey, e, he, hcited, hsplit⟩ :
      ∃ t ∈ (Schema.ofScript (Migrations.ofProject p).text).tables, ∃ key ∈ t.body.foreignKeys,
        ∃ e ∈ (foreignKeyEdge (Migrations.ofProject p) t key).evidence,
          (e.filePath = some "migrations/a.sql" ∧ e.excerpt = "t_id int references t(id)" ∧
            e.lineStart = some 3) ∧
          manyLines.toList = before ++ e.excerpt.toList ++ "\n);\n".toList ∧
            lineAt manyLines.toList before.length = 4 := by decide +kernel
  exact ⟨t, ht, key, hkey, e, he, found_of_mem_foreignKeyEdge .empty ht hkey he, hcited, hsplit⟩

end ArchGraph.Discovery
