import ArchGraph.Discovery.Endpoints
import Mathlib.Data.List.Basic
/-!
# Methods of one file keep apart

A handler file is read export by export: what it shows for an export comes from the lines above the
first export and from the export's own lines, and looking ahead from a line stops where these end
(`handlerStretch_congr`). The lines of other exports are never looked at, so that two contents of a
file that differ in the body of one export show the same for every other one (`handlers_isolated`).
-/

namespace ArchGraph.Discovery

open Text (Chars)

/-! ## Lines that agree -/

/-- Two texts agree in their lines from one place on, up to another. -/
def AgreeOn (lines lines' : List Chars) (start stop : Nat) : Prop :=
  ∀ k, start ≤ k → k < stop → lines[k]? = lines'[k]?

variable {lines lines' : List Chars} {start stop : Nat}

theorem AgreeOn.mono (h : AgreeOn lines lines' start stop) {start' stop' : Nat}
    (hstart : start ≤ start') (hstop : stop' ≤ stop) : AgreeOn lines lines' start' stop' :=
  fun k hk hk' => h k (by omega) (by omega)

theorem AgreeOn.drop_take (h : AgreeOn lines lines' start stop) :
    (lines.take stop).drop start = (lines'.take stop).drop start := by
  refine List.ext_getElem? fun k => ?_
  rw [List.getElem?_drop, List.getElem?_drop, List.getElem?_take, List.getElem?_take]
  split
  · next hk => exact h (start + k) (by omega) hk
  · rfl

/-- Looking ahead reads the lines up to where it has to stop. -/
theorem AgreeOn.window (h : AgreeOn lines lines' start stop) (count : UInt64) :
    Text.window lines start count stop = Text.window lines' start count stop := by
  have hagree := h.mono (Nat.le_refl start) (Nat.min_le_right (start.toUInt64 + count).toNat stop)
  rw [Text.window, Text.window, hagree.drop_take]

theorem AgreeOn.ahead {s : Site} (h : AgreeOn lines lines' s.number stop) (place : Nat)
    (lookahead : UInt64) : s.ahead place lines lookahead stop = s.ahead place lines' lookahead stop := by
  rw [Site.ahead, Site.ahead, h.window]

/-! ## Lines of handlers -/

theorem getElem?_ofLines (nodeId path : String) (lines : List Chars) (k : Nat) :
    (Site.ofLines nodeId path lines)[k]? =
      lines[k]?.map fun line => ⟨nodeId, path, k + 1, line⟩ := by
  simp [Site.ofLines, List.getElem?_zipIdx, Nat.add_comm, Function.comp_def]

/-- What a line shows depends on the line and on those below it in its stretch. -/
theorem handlerLine_congr {s : Site} (h : AgreeOn lines lines' s.number stop) (lookahead : UInt64) :
    handlerLine lines lookahead stop s = handlerLine lines' lookahead stop s := by
  have htable : tableAccess lines lookahead stop s = tableAccess lines' lookahead stop s := by
    funext m
    simp only [tableAccess, h.ahead]
  have hdata : dataAt lines lookahead stop s = dataAt lines' lookahead stop s := by
    simp only [dataAt, htable]
  rw [handlerLine, handlerLine, hdata]

/-- What a stretch shows depends on the lines of the stretch. -/
theorem handlerStretch_congr {stretch : Nat × Nat} (h : AgreeOn lines lines' stretch.1 stretch.2)
    (nodeId path : String) (lookahead : UInt64) :
    handlerStretch nodeId path lines lookahead stretch =
      handlerStretch nodeId path lines' lookahead stretch := by
  have hsites : ((Site.ofLines nodeId path lines).take stretch.2).drop stretch.1 =
      ((Site.ofLines nodeId path lines').take stretch.2).drop stretch.1 := by
    refine List.ext_getElem? fun k => ?_
    rw [List.getElem?_drop, List.getElem?_drop, List.getElem?_take, List.getElem?_take]
    split
    · next hk => rw [getElem?_ofLines, getElem?_ofLines, h _ (Nat.le_add_right _ k) hk]
    · rfl
  rw [handlerStretch, handlerStretch, hsites]
  refine congrArg Findings.concat (List.map_congr_left fun s hs => ?_)
  refine handlerLine_congr (h.mono ?_ (Nat.le_refl _)) lookahead
  obtain ⟨k, hk⟩ := List.mem_iff_getElem?.1 hs
  rw [List.getElem?_drop, List.getElem?_take] at hk
  split at hk
  · rw [getElem?_ofLines] at hk
    obtain ⟨line, -, rfl⟩ := Option.map_eq_some_iff.1 hk
    show stretch.1 ≤ stretch.1 + k + 1
    omega
  · cases hk

/-! ## Exports -/

namespace MethodExport

theorem firstOfEach_sublist : ∀ (seen : List HttpMethod) (exports : List MethodExport),
    (firstOfEach seen exports).Sublist exports
  | _, [] => .slnil
  | seen, e :: exports => by
    rw [firstOfEach]
    split
    · exact (firstOfEach_sublist seen exports).cons e
    · exact (firstOfEach_sublist _ exports).cons_cons e

/-- Exports come in the order of their lines. -/
theorem pairwise_ofContent (content : Chars) :
    (ofContent content).Pairwise fun a b => a.line ≤ b.line := by
  have hsorted : ((found content).mergeSort fun a b => a.line ≤ b.line).Pairwise
      fun a b => a.line ≤ b.line := by
    refine (List.pairwise_mergeSort ?_ ?_ _).imp fun h => of_decide_eq_true h
    · intro a b c hab hbc
      exact decide_eq_true (Nat.le_trans (of_decide_eq_true hab) (of_decide_eq_true hbc))
    · intro a b
      simpa using Nat.le_total a.line b.line
  unfold ofContent
  simp only
  split
  · exact List.pairwise_singleton _ _
  · exact hsorted.sublist (firstOfEach_sublist _ _)

theorem ne_all_of_parse? {word : String} {m : HttpMethod} (h : HttpMethod.parse? word = some m) :
    m ≠ .all := by
  rw [HttpMethod.parse?, named?] at h
  have hmem : m ∈ HttpMethod.requests := List.mem_of_find?_eq_some h
  rintro rfl
  exact absurd hmem (by decide)

theorem ne_all_of_at? {content : Chars} {confidence : Confidence} {name : String} {place : Nat}
    {e : MethodExport} (h : at? content confidence name place = some e) : e.method ≠ .all := by
  obtain ⟨m, hm, rfl⟩ := Option.map_eq_some_iff.1 h
  exact ne_all_of_parse? hm

theorem ne_all_of_mem_ofPattern {content : Chars} {confidence : Confidence} {p : Pattern}
    {e : MethodExport} (h : e ∈ ofPattern content confidence p) : e.method ≠ .all := by
  obtain ⟨m, -, hm⟩ := List.mem_filterMap.1 h
  obtain ⟨name, -, hname⟩ := Option.bind_eq_some_iff.1 hm
  exact ne_all_of_at? hname

theorem ne_all_of_mem_ofLists {content : Chars} {e : MethodExport} (h : e ∈ ofLists content) :
    e.method ≠ .all := by
  obtain ⟨m, -, hm⟩ := List.mem_flatMap.1 h
  split at hm
  · cases hm
  · obtain ⟨item, -, hitem⟩ := List.mem_filterMap.1 hm
    simp only at hitem
    split at hitem
    · exact ne_all_of_at? hitem
    · cases hitem

/-- What a file shows are requests' methods. -/
theorem ne_all_of_mem_found {content : Chars} {e : MethodExport} (h : e ∈ found content) :
    e.method ≠ .all := by
  unfold found at h
  simp only at h
  split at h
  · exact ne_all_of_mem_ofPattern h
  · rcases List.mem_append.1 h with h | h
    · exact (List.mem_append.1 h).elim ne_all_of_mem_ofPattern ne_all_of_mem_ofPattern
    · exact ne_all_of_mem_ofLists h

/-- Everything is exported alone, or not at all. -/
theorem ofContent_eq_or (content : Chars) : ofContent content = [everything] ∨
    ∀ e ∈ ofContent content, e.method ≠ .all := by
  unfold ofContent
  simp only
  split
  · exact .inl rfl
  · exact .inr fun e he =>
      ne_all_of_mem_found (List.mem_mergeSort.1 ((firstOfEach_sublist _ _).subset he))

/-- A file with two exports does not export everything. -/
theorem method_ne_all {content : Chars} {i j : Nat} {x e : MethodExport} (hij : i ≠ j)
    (hi : (ofContent content)[i]? = some x) (hj : (ofContent content)[j]? = some e) :
    x.method ≠ .all := by
  rcases ofContent_eq_or content with hone | hall
  · have hilt := (List.getElem?_eq_some_iff.1 hi).1
    have hjlt := (List.getElem?_eq_some_iff.1 hj).1
    rw [hone, List.length_singleton] at hilt hjlt
    omega
  · exact hall x (List.mem_of_getElem? hi)

theorem getElem?_withNext : ∀ (exports : List MethodExport) (i : Nat),
    (withNext exports)[i]? = exports[i]?.map fun e => (e, exports[i + 1]?)
  | [], _ => rfl
  | e :: exports, 0 => by simp [withNext, List.head?_eq_getElem?]
  | e :: exports, i + 1 => by simpa [withNext] using getElem?_withNext exports i

end MethodExport

/-! ## What is shown for an export -/

section

variable (lookahead : UInt64) (apps : Apps) (repo path : String) (handler : Route.HandlerFile)

/-- What the lines of a handler file show for an export that is followed by another one, below
`first` lines that belong to every export. -/
def exportFindings (lines : List Chars) (first : Nat) (e : MethodExport)
    (next : Option MethodExport) : Findings :=
  let node := endpointNode repo path handler e.method
  .node node ++ .citation (endpointCitation node.id path lines e) ++
    .concat ((apps.owner? path).toList.map fun app => .edge (Edge.containment app node.id)) ++
    .concat ((e.stretches lines.length first next).map
      (handlerStretch node.id path lines lookahead))

/-- What a handler file shows for the `i`-th export of its content. -/
def shownFor (text : String) (i : Nat) : Findings :=
  let exports := MethodExport.ofContent text.toList
  match exports[i]? with
  | some e =>
    exportFindings lookahead apps repo path handler (Text.lines text.toList)
      ((exports.head?.map (·.line)).getD 0) e exports[i + 1]?
  | none => .empty

/-- What a handler file shows is what it shows for its exports, one behind the other. -/
theorem handlerFindings_eq (text : String) :
    handlerFindings lookahead apps repo (some text) path handler =
      .concat ((List.range (MethodExport.ofContent text.toList).length).map
        (shownFor lookahead apps repo path handler text)) := by
  refine congrArg Findings.concat (List.ext_getElem? fun i => ?_)
  simp only [List.getElem?_map, MethodExport.getElem?_withNext, Option.map_map]
  cases hi : (MethodExport.ofContent text.toList)[i]? with
  | none =>
    have hrange : (List.range (MethodExport.ofContent text.toList).length)[i]? = none := by
      simpa using hi
    rw [hrange]
    rfl
  | some e =>
    rw [List.getElem?_range (List.getElem?_eq_some_iff.1 hi).1]
    simp only [Option.map_some, shownFor, hi]
    rfl

variable {lookahead apps repo path handler}

/-- What is shown for an export depends on its line and on the lines of its stretches. -/
theorem exportFindings_congr {first : Nat} {e : MethodExport} {next : Option MethodExport}
    (hcount : lines.length = lines'.length) (hline : lines[e.line]? = lines'[e.line]?)
    (hstretches : ∀ s ∈ e.stretches lines.length first next, AgreeOn lines lines' s.1 s.2) :
    exportFindings lookahead apps repo path handler lines first e next =
      exportFindings lookahead apps repo path handler lines' first e next := by
  have hshown : (e.stretches lines.length first next).map (handlerStretch
        (endpointNode repo path handler e.method).id path lines lookahead) =
      (e.stretches lines'.length first next).map (handlerStretch
        (endpointNode repo path handler e.method).id path lines' lookahead) := by
    rw [← hcount]
    exact List.map_congr_left fun s hs => handlerStretch_congr (hstretches s hs) _ _ _
  simp only [exportFindings, endpointCitation, hline, hshown]

end

/-! ## Two contents of one file -/

theorem line_le_of_le {exports : List MethodExport}
    (h : exports.Pairwise fun a b => a.line ≤ b.line) {i j : Nat} (hij : i ≤ j)
    {a b : MethodExport} (ha : exports[i]? = some a) (hb : exports[j]? = some b) :
    a.line ≤ b.line := by
  obtain ⟨hi, rfl⟩ := List.getElem?_eq_some_iff.1 ha
  obtain ⟨hj, rfl⟩ := List.getElem?_eq_some_iff.1 hb
  rcases Nat.lt_or_eq_of_le hij with hlt | rfl
  · exact List.pairwise_iff_getElem.1 h i j hi hj hlt
  · exact Nat.le_refl _

theorem headLine_le {exports : List MethodExport}
    (h : exports.Pairwise fun a b => a.line ≤ b.line) {j : Nat} {e : MethodExport}
    (hj : exports[j]? = some e) : ((exports.head?.map (·.line)).getD 0) ≤ e.line := by
  rw [List.head?_eq_getElem?]
  cases hhead : exports[0]? with
  | none => exact Nat.zero_le _
  | some a => exact line_le_of_le h (Nat.zero_le j) hhead hj

/-- Lines differ in the body of an export only: below its line and above the next export. -/
def DifferInBody (lines lines' : List Chars) (e : MethodExport) (next : Option MethodExport) :
    Prop :=
  ∀ k, lines[k]? ≠ lines'[k]? → e.line < k ∧ ∀ n ∈ next, k < n.line

theorem DifferInBody.agreeOn_above {e : MethodExport} {next : Option MethodExport}
    (h : DifferInBody lines lines' e next) (hstop : stop ≤ e.line + 1) :
    AgreeOn lines lines' start stop := by
  intro k _ hk
  by_contra hne
  have := (h k hne).1
  omega

theorem DifferInBody.agreeOn_below {e n : MethodExport} {next : Option MethodExport}
    (h : DifferInBody lines lines' e next) (hn : n ∈ next) (hstart : n.line ≤ start) :
    AgreeOn lines lines' start stop := by
  intro k hk _
  by_contra hne
  have := (h k hne).2 n hn
  omega

/-- The lines of an export, its first one included, agree if another export's body differs. -/
theorem DifferInBody.agreeOn_other {exports : List MethodExport} {i j : Nat} {x e : MethodExport}
    (h : DifferInBody lines lines' e exports[j + 1]?)
    (hsorted : exports.Pairwise fun a b => a.line ≤ b.line) (hij : i ≠ j)
    (hi : exports[i]? = some x) (hj : exports[j]? = some e) :
    lines[x.line]? = lines'[x.line]? ∧ AgreeOn lines lines' x.line
      (min ((exports[i + 1]?.map (·.line)).getD lines.length) lines.length) := by
  obtain ⟨hilt, -⟩ := List.getElem?_eq_some_iff.1 hi
  obtain ⟨hjlt, -⟩ := List.getElem?_eq_some_iff.1 hj
  rcases Nat.lt_or_gt_of_ne hij with hlt | hgt
  · have hn := List.getElem?_eq_getElem (show i + 1 < exports.length by omega)
    have hx := line_le_of_le hsorted (Nat.le_of_lt hlt) hi hj
    have hnext := line_le_of_le hsorted (Nat.succ_le_of_lt hlt) hn hj
    refine ⟨h.agreeOn_above (Nat.succ_le_succ hx) _ (Nat.le_refl _) (Nat.lt_succ_self _),
      h.agreeOn_above ?_⟩
    rw [hn, Option.map_some, Option.getD_some]
    omega
  · have hn := List.getElem?_eq_getElem (show j + 1 < exports.length by omega)
    have hle := line_le_of_le hsorted (Nat.succ_le_of_lt hgt) hn hi
    exact ⟨h.agreeOn_below hn hle _ (Nat.le_refl _) (Nat.lt_succ_self _), h.agreeOn_below hn hle⟩

/-- **Methods of one file keep apart.** Take two contents of a handler file with as many lines and
the same exports, and let them differ in the body of one export only. What the file shows for any
other export, nodes, edges and evidence, is the same for both, however far lines are looked
ahead. -/
theorem handlers_isolated (lookahead : UInt64) (apps : Apps) (repo path : String)
    (handler : Route.HandlerFile) {text text' : String}
    (hcount : (Text.lines text.toList).length = (Text.lines text'.toList).length)
    (hexports : MethodExport.ofContent text.toList = MethodExport.ofContent text'.toList)
    {j : Nat} {e : MethodExport} (hj : (MethodExport.ofContent text.toList)[j]? = some e)
    (hbody : DifferInBody (Text.lines text.toList) (Text.lines text'.toList) e
      (MethodExport.ofContent text.toList)[j + 1]?) :
    (∀ t ∈ [text, text'], handlerFindings lookahead apps repo (some t) path handler =
      .concat ((List.range (MethodExport.ofContent text.toList).length).map
        (shownFor lookahead apps repo path handler t))) ∧
    ∀ i, i ≠ j → shownFor lookahead apps repo path handler text i =
      shownFor lookahead apps repo path handler text' i := by
  constructor
  · intro t ht
    rw [handlerFindings_eq]
    rcases List.mem_pair.1 ht with rfl | rfl
    · rfl
    · rw [hexports]
  intro i hij
  have hsorted := MethodExport.pairwise_ofContent text.toList
  rw [shownFor, shownFor, ← hexports]
  cases hi : (MethodExport.ofContent text.toList)[i]? with
  | none => rfl
  | some x =>
    have hmethod : x.method ≠ .all := MethodExport.method_ne_all hij hi hj
    have hfirst := headLine_le hsorted hj
    obtain ⟨hline, hown⟩ := hbody.agreeOn_other hsorted hij hi hj
    refine exportFindings_congr hcount hline ?_
    intro s hs
    rw [MethodExport.stretches, if_neg hmethod] at hs
    simp only at hs
    split at hs
    · rcases List.mem_pair.1 hs with rfl | rfl
      · exact hbody.agreeOn_above (by simp only; omega)
      · exact hown
    · rw [List.mem_singleton.1 hs]
      exact hown

/-- A handler file with two methods, of which the second one holds a line. -/
def twoMethods (line : String) : String :=
  "export function GET() \x7b\na.from('t')\n\x7d\nexport function POST() \x7b\n" ++ line ++ "\n\x7d"

theorem exports_twoMethods {line : String}
    (h : MethodExport.found (twoMethods line).toList = [⟨.get, 0, .high⟩, ⟨.post, 3, .high⟩]) :
    MethodExport.ofContent (twoMethods line).toList = [⟨.get, 0, .high⟩, ⟨.post, 3, .high⟩] := by
  rw [MethodExport.ofContent, h, List.mergeSort_of_pairwise (by decide)]
  rfl

theorem handlers_isolated_twoMethods :
    let text := twoMethods "b.from('u')"
    let text' := twoMethods "new Stripe()"
    let handler : Route.HandlerFile := ⟨"/api/a", .routeHandler⟩
    (Text.lines text.toList).length = (Text.lines text'.toList).length ∧
    MethodExport.ofContent text.toList = MethodExport.ofContent text'.toList ∧
    (MethodExport.ofContent text.toList)[1]? = some ⟨.post, 3, .high⟩ ∧
    DifferInBody (Text.lines text.toList) (Text.lines text'.toList) ⟨.post, 3, .high⟩
      (MethodExport.ofContent text.toList)[2]? ∧
    shownFor 5 ⟨[]⟩ "repo" "app/api/a/route.ts" handler text 0 =
      shownFor 5 ⟨[]⟩ "repo" "app/api/a/route.ts" handler text' 0 := by
  intro text text' handler
  have hfound : MethodExport.ofContent text.toList = [⟨.get, 0, .high⟩, ⟨.post, 3, .high⟩] :=
    exports_twoMethods (by decide +kernel)
  have hexports : MethodExport.ofContent text.toList = MethodExport.ofContent text'.toList :=
    hfound.trans (exports_twoMethods (by decide +kernel)).symm
  have hlines : Text.lines text'.toList =
      (Text.lines text.toList).set 4 "new Stripe()".toList := by decide +kernel
  have hcount : (Text.lines text.toList).length = (Text.lines text'.toList).length := by
    rw [hlines, List.length_set]
  have hj : (MethodExport.ofContent text.toList)[1]? = some ⟨.post, 3, .high⟩ := by rw [hfound]; rfl
  have hbody : DifferInBody (Text.lines text.toList) (Text.lines text'.toList) ⟨.post, 3, .high⟩
      (MethodExport.ofContent text.toList)[2]? := by
    intro k hk
    rw [hlines, List.getElem?_set] at hk
    split at hk
    · next h4 => exact h4 ▸ ⟨Nat.lt_succ_self 3, by simp [hfound]⟩
    · exact absurd rfl hk
  exact ⟨hcount, hexports, hj, hbody,
    (handlers_isolated 5 ⟨[]⟩ "repo" "app/api/a/route.ts" handler hcount hexports hj hbody).2 0
      (by decide)⟩

end ArchGraph.Discovery
