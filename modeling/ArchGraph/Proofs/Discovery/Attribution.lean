import ArchGraph.Proofs.Discovery.Isolation
import ArchGraph.Proofs.Pattern.Leads
/-!
# Every line of a handler file is read

A handler file is cut into stretches of lines: those above the first export, which are read for
every export, and for each export the lines from its own up to the next one. The stretches of one
export do not overlap and stay in the file, and those of all exports together cover it, whatever
the file holds (`lines_attributed`). This rests on where exports are found: on a line that the file
has (`line_lt_of_mem_found`), as a pattern that shows an export takes a character where the export
is named (`Pattern.start_lt_of_group`).
-/

namespace ArchGraph

/-! ## Lines -/

namespace Text

theorem linesFrom_ne_nil : ∀ {text line : Chars}, line ≠ [] ∨ text ≠ [] → linesFrom line text ≠ []
  | [], line, h => by
    have hline : line ≠ [] := h.resolve_right (by simp)
    simp [linesFrom, hline]
  | c :: text, line, _ => by
    unfold linesFrom
    split
    · exact List.cons_ne_nil _ _
    · exact linesFrom_ne_nil (.inl (List.cons_ne_nil c line))

theorem count_lt_length_linesFrom : ∀ {text line : Chars} {place : Nat}, place < text.length →
    (text.take place).count '\n' < (linesFrom line text).length
  | c :: text, line, 0, _ => List.length_pos_of_ne_nil (linesFrom_ne_nil (.inr (by simp)))
  | c :: text, line, place + 1, h => by
    have hplace : place < text.length := Nat.lt_of_succ_lt_succ h
    rw [List.take_succ_cons]
    unfold linesFrom
    by_cases hc : c = '\n'
    · subst hc
      rw [List.count_cons_self, if_pos rfl, List.length_cons]
      exact Nat.succ_lt_succ (count_lt_length_linesFrom hplace)
    · rw [List.count_cons_of_ne hc, if_neg hc]
      exact count_lt_length_linesFrom hplace

/-- A character of a text stands on a line that the text has. -/
theorem count_lt_length_lines {text : Chars} {place : Nat} (h : place < text.length) :
    (text.take place).count '\n' < (lines text).length := count_lt_length_linesFrom h

end Text

namespace Discovery

open Text (Chars)

/-! ## Where exports are found -/

namespace MethodExport

section

variable {content : Chars} {e : MethodExport}

theorem line_of_at? {confidence : Confidence} {name : String} {place : Nat}
    (h : at? content confidence name place = some e) :
    e.line = ((Text.lineAt content place).toUInt64 - 1).toNat := by
  obtain ⟨method, -, rfl⟩ := Option.map_eq_some_iff.1 h
  rfl

/-- An export that is named at a character of the file stands on a line of the file. -/
theorem line_lt_of_at? (hfits : (Text.lines content).length < UInt32.size)
    {confidence : Confidence} {name : String} {place : Nat}
    (h : at? content confidence name place = some e) (hplace : place < content.length) :
    e.line < (Text.lines content).length := by
  have hlt := Text.count_lt_length_lines hplace
  have hnumber : (Text.lineAt content place).toNat = (content.take place).count '\n' + 1 :=
    Text.toNat_lineAt (Nat.lt_of_le_of_lt hlt hfits)
  have hle : (1 : UInt64) ≤ (Text.lineAt content place).toUInt64 := by
    rw [UInt64.le_iff_toNat_le, UInt32.toNat_toUInt64, hnumber]
    exact Nat.le_add_left 1 _
  rw [line_of_at? h, UInt64.toNat_sub_of_le _ _ hle, UInt32.toNat_toUInt64, hnumber]
  exact hlt

theorem line_lt_of_mem_ofPattern (hfits : (Text.lines content).length < UInt32.size)
    {confidence : Confidence} {lead body tail : Pattern}
    (hindex : 1 ∉ tail.indices) (hleast : 0 < (body ++ tail).least)
    (h : e ∈ ofPattern content confidence (lead ++ Pattern.group 1 body ++ tail)) :
    e.line < (Text.lines content).length := by
  obtain ⟨m, hm, hfound⟩ := List.mem_filterMap.1 h
  obtain ⟨name, hname, hat⟩ := Option.bind_eq_some_iff.1 hfound
  exact line_lt_of_at? hfits hat (Pattern.start_lt_of_group hindex hleast hm hname)

theorem line_lt_of_mem_ofLists (hfits : (Text.lines content).length < UInt32.size)
    (h : e ∈ ofLists content) : e.line < (Text.lines content).length := by
  obtain ⟨m, hm, hfound⟩ := List.mem_flatMap.1 h
  split at hfound
  · cases hfound
  · next list hlist =>
    have hstart : list.start < content.length :=
      Pattern.start_lt_of_group (by decide) (by decide) hm hlist
    obtain ⟨item, -, hitem⟩ := List.mem_filterMap.1 hfound
    simp only at hitem
    split at hitem
    · exact line_lt_of_at? hfits hitem hstart
    · cases hitem

/-- What a file shows stands on a line of the file. -/
theorem line_lt_of_mem_found (hfits : (Text.lines content).length < UInt32.size)
    (h : e ∈ found content) : e.line < (Text.lines content).length := by
  unfold found at h
  simp only at h
  split at h
  · exact line_lt_of_mem_ofPattern hfits (by decide) (by decide) h
  · rcases List.mem_append.1 h with h | h
    · rcases List.mem_append.1 h with h | h
      · exact line_lt_of_mem_ofPattern hfits (by decide) (by decide) h
      · exact line_lt_of_mem_ofPattern hfits (by decide) (by decide) h
    · exact line_lt_of_mem_ofLists hfits h

end

/-! ## The exports of a file -/

theorem mem_firstOfEach : ∀ {seen : List HttpMethod} {exports : List MethodExport}
    {e : MethodExport}, e ∈ firstOfEach seen exports → e.method ∉ seen
  | seen, x :: exports, e, h => by
    rw [firstOfEach] at h
    split at h
    · exact mem_firstOfEach h
    · next hx =>
      rcases List.mem_cons.1 h with rfl | h
      · simpa using hx
      · intro he
        exact mem_firstOfEach h (List.mem_cons_of_mem _ he)

/-- No method is exported twice. -/
theorem nodup_firstOfEach : ∀ (seen : List HttpMethod) (exports : List MethodExport),
    ((firstOfEach seen exports).map (·.method)).Nodup
  | _, [] => .nil
  | seen, e :: exports => by
    rw [firstOfEach]
    split
    · exact nodup_firstOfEach seen exports
    · rw [List.map_cons, List.nodup_cons]
      refine ⟨fun hmem => ?_, nodup_firstOfEach _ exports⟩
      obtain ⟨x, hx, hmethod⟩ := List.mem_map.1 hmem
      exact mem_firstOfEach hx (hmethod ▸ List.mem_cons_self)

theorem nodup_ofContent (content : Chars) : ((ofContent content).map (·.method)).Nodup := by
  unfold ofContent
  simp only
  split
  · simp
  · exact nodup_firstOfEach _ _

theorem ofContent_subset (content : Chars) :
    ofContent content ⊆ everything :: found content := by
  unfold ofContent
  simp only
  split
  · intro e he
    rw [List.mem_singleton.1 he]
    exact List.mem_cons_self
  · intro e he
    exact List.mem_cons_of_mem _ (List.mem_mergeSort.1 ((firstOfEach_sublist _ _).subset he))

/-- An export stands on a line of the file, if the file has one. -/
theorem line_lt_of_mem_ofContent {content : Chars} {e : MethodExport}
    (hfits : (Text.lines content).length < UInt32.size) (h : e ∈ ofContent content)
    (hcount : 0 < (Text.lines content).length) : e.line < (Text.lines content).length := by
  rcases List.mem_cons.1 (ofContent_subset content h) with rfl | h
  · exact hcount
  · exact line_lt_of_mem_found hfits h

theorem line_le_of_mem_ofContent {content : Chars} {e : MethodExport}
    (hfits : (Text.lines content).length < UInt32.size) (h : e ∈ ofContent content) :
    e.line ≤ (Text.lines content).length := by
  rcases List.mem_cons.1 (ofContent_subset content h) with rfl | h
  · exact Nat.zero_le _
  · exact Nat.le_of_lt (line_lt_of_mem_found hfits h)

theorem mem_withNext {exports : List MethodExport} {x : MethodExport × Option MethodExport} :
    x ∈ withNext exports ↔ ∃ i, exports[i]? = some x.1 ∧ exports[i + 1]? = x.2 := by
  rw [List.mem_iff_getElem?]
  simp only [getElem?_withNext, Option.map_eq_some_iff]
  constructor
  · rintro ⟨i, e, he, rfl⟩
    exact ⟨i, he, rfl⟩
  · rintro ⟨i, he, hnext⟩
    exact ⟨i, x.1, he, by rw [hnext]⟩

/-- Below the first export each place is behind an export and in front of the next one. -/
theorem exists_mem_withNext {k : Nat} : ∀ {exports : List MethodExport} {e : MethodExport},
    exports.head? = some e → e.line ≤ k →
      ∃ x ∈ withNext exports, x.1.line ≤ k ∧ ∀ next ∈ x.2, k < next.line
  | e :: exports, _, rfl, hle => by
    rw [withNext]
    cases hnext : exports.head? with
    | none => exact ⟨(e, none), List.mem_cons_self, hle, by simp⟩
    | some next =>
      by_cases hk : k < next.line
      · refine ⟨(e, some next), List.mem_cons_self, hle, ?_⟩
        intro y hy
        rwa [← Option.mem_some.1 hy]
      · obtain ⟨x, hx, hbetween⟩ := exists_mem_withNext hnext (Nat.le_of_not_lt hk)
        exact ⟨x, List.mem_cons_of_mem _ hx, hbetween⟩

/-! ## Stretches -/

/-- The line of the first export of a content. -/
def firstLine (content : Chars) : Nat := ((ofContent content).head?.map (·.line)).getD 0

/-- The stretches of lines that are read for an export of a content, in front of the next one. -/
def stretchesOf (content : Chars) (x : MethodExport × Option MethodExport) : List (Nat × Nat) :=
  x.1.stretches (Text.lines content).length (firstLine content) x.2

section

variable {content : Chars} {x : MethodExport × Option MethodExport}

theorem stretchesOf_all (h : x.1.method = .all) :
    stretchesOf content x = [(0, (Text.lines content).length)] := by
  rw [stretchesOf, stretches, if_pos h]

/-- The lines of an export of its own. -/
def ownStretch (content : Chars) (x : MethodExport × Option MethodExport) : Nat × Nat :=
  (x.1.line, min ((x.2.map (·.line)).getD (Text.lines content).length) (Text.lines content).length)

theorem mem_stretchesOf (h : x.1.method ≠ .all) {stretch : Nat × Nat} :
    stretch ∈ stretchesOf content x ↔
      0 < firstLine content ∧ stretch = (0, min (firstLine content) (Text.lines content).length) ∨
        stretch = ownStretch content x := by
  rw [stretchesOf, stretches, if_neg h, ownStretch]
  simp only
  split
  · next hfirst => simp [hfirst]
  · next hfirst => simp [hfirst]

/-- The stretches of an export stay in the file. -/
theorem within_of_mem_stretchesOf (hfits : (Text.lines content).length < UInt32.size)
    (hx : x ∈ withNext (ofContent content)) {stretch : Nat × Nat}
    (h : stretch ∈ stretchesOf content x) :
    stretch.1 ≤ stretch.2 ∧ stretch.2 ≤ (Text.lines content).length := by
  obtain ⟨i, hi, hnext⟩ := mem_withNext.1 hx
  by_cases hall : x.1.method = .all
  · rw [stretchesOf_all hall, List.mem_singleton] at h
    subst h
    exact ⟨Nat.zero_le _, Nat.le_refl _⟩
  · rcases (mem_stretchesOf hall).1 h with ⟨-, rfl⟩ | rfl
    · exact ⟨Nat.zero_le _, Nat.min_le_right _ _⟩
    · have hle := line_le_of_mem_ofContent hfits (List.mem_of_getElem? hi)
      have hnextLine : x.1.line ≤ (x.2.map (·.line)).getD (Text.lines content).length := by
        cases hy : x.2 with
        | none => exact hle
        | some y =>
          rw [hy] at hnext
          exact line_le_of_le (pairwise_ofContent content) (Nat.le_succ i) hi hnext
      exact ⟨Nat.le_min.2 ⟨hnextLine, hle⟩, Nat.min_le_right _ _⟩

/-- The stretches of an export do not overlap. -/
theorem pairwise_stretchesOf (hx : x ∈ withNext (ofContent content)) :
    (stretchesOf content x).Pairwise fun a b => a.2 ≤ b.1 := by
  obtain ⟨i, hi, -⟩ := mem_withNext.1 hx
  by_cases hall : x.1.method = .all
  · rw [stretchesOf_all hall]
    exact List.pairwise_singleton _ _
  · have hfirst : firstLine content ≤ x.1.line := headLine_le (pairwise_ofContent content) hi
    rw [stretchesOf, stretches, if_neg hall]
    simp only
    split
    · rw [List.pairwise_pair]
      exact Nat.le_trans (Nat.min_le_left _ _) hfirst
    · exact List.pairwise_singleton _ _

end

/-- Every line of a file lies in a stretch of some export. -/
theorem exists_stretch {content : Chars} {k : Nat} (hk : k < (Text.lines content).length) :
    ∃ x ∈ withNext (ofContent content), ∃ stretch ∈ stretchesOf content x,
      stretch.1 ≤ k ∧ k < stretch.2 := by
  obtain ⟨e, exports, hexports⟩ := List.exists_cons_of_ne_nil (ofContent_ne_nil content)
  have hhead : (ofContent content).head? = some e := by rw [hexports]; rfl
  have hfirst : firstLine content = e.line := by rw [firstLine, hhead]; rfl
  rcases ofContent_eq_or content with hall | hnot
  · refine ⟨(everything, none), by simp [hall, withNext], (0, (Text.lines content).length), ?_,
      Nat.zero_le _, hk⟩
    rw [stretchesOf_all rfl]
    exact List.mem_singleton_self _
  · have hmethod {x} (hx : x ∈ withNext (ofContent content)) : x.1.method ≠ .all := by
      obtain ⟨i, hi, -⟩ := mem_withNext.1 hx
      exact hnot x.1 (List.mem_of_getElem? hi)
    by_cases habove : k < firstLine content
    · -- a line above the first export is read for each of them, and there is one
      have hx : (e, exports.head?) ∈ withNext (ofContent content) := by
        rw [hexports, withNext]
        exact List.mem_cons_self
      refine ⟨_, hx, _, (mem_stretchesOf (hmethod hx)).2 (.inl ⟨by omega, rfl⟩), Nat.zero_le _, ?_⟩
      exact Nat.lt_min.2 ⟨habove, hk⟩
    · obtain ⟨x, hx, hle, hnext⟩ := exists_mem_withNext (k := k) hhead (by omega)
      refine ⟨x, hx, _, (mem_stretchesOf (hmethod hx)).2 (.inr rfl), hle, Nat.lt_min.2 ⟨?_, hk⟩⟩
      cases hy : x.2 with
      | none => exact hk
      | some y => exact hnext y hy

end MethodExport

/-! ## What is found on a line that is read -/

/-- Findings are a part of others: there are findings in front of them and behind them. -/
def Inside (a b : Findings) : Prop := ∃ before after, b = before ++ a ++ after

section

variable {a b c : Findings}

theorem append_assoc (a b c : Findings) : a ++ b ++ c = a ++ (b ++ c) := by
  show Findings.append (Findings.append a b) c = Findings.append a (Findings.append b c)
  simp only [Findings.append, List.append_assoc]

theorem append_empty (a : Findings) : a ++ .empty = a := by
  show Findings.append a .empty = a
  simp only [Findings.append, Findings.empty, List.append_nil]

theorem Inside.trans (hab : Inside a b) (hbc : Inside b c) : Inside a c := by
  obtain ⟨before, after, rfl⟩ := hab
  obtain ⟨before', after', rfl⟩ := hbc
  refine ⟨before' ++ before, after ++ after', ?_⟩
  simp only [append_assoc]

theorem inside_append_right (before a : Findings) : Inside a (before ++ a) :=
  ⟨before, .empty, (append_empty _).symm⟩

theorem inside_concat : ∀ {all : List Findings}, a ∈ all → Inside a (.concat all)
  | b :: all, h => by
    rw [Findings.concat_cons]
    rcases List.mem_cons.1 h with rfl | h
    · exact ⟨.empty, .concat all, rfl⟩
    · obtain ⟨before, after, hconcat⟩ := inside_concat h
      refine ⟨b ++ before, after, ?_⟩
      rw [hconcat]
      simp only [append_assoc]

theorem inside_concat_map {α : Type} {x : α} {xs : List α} (hx : x ∈ xs) (find : α → Findings) :
    Inside (find x) (.concat (xs.map find)) := inside_concat (List.mem_map_of_mem hx)

theorem Inside.edges (h : Inside a b) : a.edges ⊆ b.edges := by
  obtain ⟨before, after, rfl⟩ := h
  intro e he
  simp [he]

end

/-- The place of a line that is read for an export. -/
def siteOf (repo path : String) (handler : Route.HandlerFile) (method : HttpMethod) (k : Nat)
    (line : Chars) : Site :=
  ⟨(endpointNode repo path handler method).id, path, k + 1, line⟩

section

variable {lookahead : UInt64} {apps : Apps} {repo path text : String} {handler : Route.HandlerFile}

theorem handlerFindings_eq_withNext : handlerFindings lookahead apps repo (some text) path handler =
    .concat ((MethodExport.withNext (MethodExport.ofContent text.toList)).map fun x =>
      exportFindings lookahead apps repo path handler (Text.lines text.toList)
        (MethodExport.firstLine text.toList) x.1 x.2) := rfl

/-- What a line shows in a stretch that is read for an export is found. -/
theorem inside_handlerFindings {x : MethodExport × Option MethodExport}
    (hx : x ∈ MethodExport.withNext (MethodExport.ofContent text.toList)) {stretch : Nat × Nat}
    (hstretch : stretch ∈ MethodExport.stretchesOf text.toList x) {k : Nat} {line : Chars}
    (hk : stretch.1 ≤ k ∧ k < stretch.2) (hline : (Text.lines text.toList)[k]? = some line) :
    Inside (handlerLine (Text.lines text.toList) lookahead stretch.2
        (siteOf repo path handler x.1.method k line))
      (handlerFindings lookahead apps repo (some text) path handler) := by
  let node := endpointNode repo path handler x.1.method
  have hsite : siteOf repo path handler x.1.method k line ∈
      ((Site.ofLines node.id path (Text.lines text.toList)).take stretch.2).drop stretch.1 := by
    rw [List.mem_iff_getElem?]
    refine ⟨k - stretch.1, ?_⟩
    have hplace : stretch.1 + (k - stretch.1) = k := by omega
    rw [List.getElem?_drop, hplace, List.getElem?_take_of_lt hk.2, getElem?_ofLines, hline]
    rfl
  have hread := inside_concat_map hsite (handlerLine (Text.lines text.toList) lookahead stretch.2)
  have hexport := inside_concat_map hstretch
    (handlerStretch node.id path (Text.lines text.toList) lookahead)
  rw [handlerFindings_eq_withNext]
  apply Inside.trans _ (inside_concat_map hx _)
  exact (hread.trans hexport).trans (inside_append_right _ _)

end

/-! ## The law -/

/-- **Attribution of lines.** What the exports of a handler file are, and which of its lines are
read for them: for each export the lines above the first one and its own. Numbers of lines are
32-bit words, so that the bounds are for files with fewer lines than these words count. -/
structure Attributed (content : Chars) : Prop where
  served   : MethodExport.ofContent content ≠ []
  distinct : ((MethodExport.ofContent content).map (·.method)).Nodup
  ordered  : (MethodExport.ofContent content).Pairwise fun a b => a.line ≤ b.line
  /-- Everything is exported alone. -/
  alone    : ∀ e ∈ MethodExport.ofContent content, e.method = .all →
    MethodExport.ofContent content = [e]
  onLine   : (Text.lines content).length < UInt32.size → 0 < (Text.lines content).length →
    ∀ e ∈ MethodExport.ofContent content, e.line < (Text.lines content).length
  /-- The stretches of an export do not overlap. -/
  apart    : ∀ x ∈ MethodExport.withNext (MethodExport.ofContent content),
    (MethodExport.stretchesOf content x).Pairwise fun a b => a.2 ≤ b.1
  within   : (Text.lines content).length < UInt32.size →
    ∀ x ∈ MethodExport.withNext (MethodExport.ofContent content),
    ∀ stretch ∈ MethodExport.stretchesOf content x,
      stretch.1 ≤ stretch.2 ∧ stretch.2 ≤ (Text.lines content).length
  covered  : ∀ k < (Text.lines content).length,
    ∃ x ∈ MethodExport.withNext (MethodExport.ofContent content),
      ∃ stretch ∈ MethodExport.stretchesOf content x, stretch.1 ≤ k ∧ k < stretch.2

theorem attributed (content : Chars) : Attributed content where
  served := MethodExport.ofContent_ne_nil content
  distinct := MethodExport.nodup_ofContent content
  ordered := MethodExport.pairwise_ofContent content
  alone := by
    intro e he hall
    rcases MethodExport.ofContent_eq_or content with hone | hnot
    · rw [hone, List.mem_singleton] at he
      rw [hone, he]
    · exact absurd hall (hnot e he)
  onLine := fun hfits hcount _ he => MethodExport.line_lt_of_mem_ofContent hfits he hcount
  apart := fun _ hx => MethodExport.pairwise_stretchesOf hx
  within := fun hfits _ hx _ hstretch => MethodExport.within_of_mem_stretchesOf hfits hx hstretch
  covered := fun _ hk => MethodExport.exists_stretch hk

/-- **Every line of a handler file is read.** Whatever a handler file holds, its lines are
attributed to its exports, and what a line shows for an export that it is read for is found. -/
theorem lines_attributed (text : String) : Attributed text.toList ∧
    ∀ (lookahead : UInt64) (apps : Apps) (repo path : String) (handler : Route.HandlerFile)
      (k : Nat) (line : Chars), (Text.lines text.toList)[k]? = some line →
        ∃ x ∈ MethodExport.withNext (MethodExport.ofContent text.toList),
          ∃ stretch ∈ MethodExport.stretchesOf text.toList x, (stretch.1 ≤ k ∧ k < stretch.2) ∧
            Inside (handlerLine (Text.lines text.toList) lookahead stretch.2
                (siteOf repo path handler x.1.method k line))
              (handlerFindings lookahead apps repo (some text) path handler) := by
  refine ⟨attributed text.toList, ?_⟩
  intro lookahead apps repo path handler k line hline
  obtain ⟨hk, -⟩ := List.getElem?_eq_some_iff.1 hline
  obtain ⟨x, hx, stretch, hstretch, hbetween⟩ := (attributed text.toList).covered k hk
  exact ⟨x, hx, stretch, hstretch, hbetween, inside_handlerFindings hx hstretch hbetween hline⟩

end Discovery
end ArchGraph
