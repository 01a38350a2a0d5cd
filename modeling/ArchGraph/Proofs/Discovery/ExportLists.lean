import ArchGraph.Proofs.Discovery.Attribution
import Mathlib.Data.List.Forall2
/-!
# Methods of one export list

The methods of one export list have one line, and each method owns the lines from its own up to
the next method's: all of them but the last one own no line at all. What the file shows for the last
method is what it shows for the others and, in addition, what its own lines show. So the methods of
a list are credited alike exactly if the lines behind the list show nothing (`listed_alike_iff`). A
list above the code that it exports credits its last method only (`listed_apart`).
-/

namespace ArchGraph.Discovery

open Text (Chars)

/-! ## Edges apart from where they start -/

/-- An edge apart from the node that it starts at, and the line that backs it. -/
structure Access where
  kind       : EdgeKind
  target     : Target
  detail     : EdgeDetail
  confidence : Confidence
  line       : Option UInt32
deriving DecidableEq, Repr

/-- An edge and the citation that backs it, apart from where the edge starts. -/
def Access.ofCited (e : Edge) (r : Evidence) : Access :=
  ⟨e.kind, e.target, e.detail, e.confidence, r.lineStart⟩

/-- The edges that start somewhere: all but containments, which end at what findings are about. -/
def outgoing (f : Findings) : List Edge := f.edges.filter (·.kind ≠ .contains)

/-- The citations of edges. -/
def edgeCitations (f : Findings) : List Evidence := f.evidence.filter (·.edgeId.isSome)

/-- What findings show apart from the node that it is shown for. -/
def accesses (f : Findings) : List Access :=
  List.zipWith Access.ofCited (outgoing f) (edgeCitations f)

/-- An edge starts at a node, and a citation is the only one that backs it. -/
structure BackedAlone (id : String) (e : Edge) (r : Evidence) : Prop where
  source : e.source = id
  edgeId : r.edgeId = some e.id
  only   : e.evidenceIds = [r.id]

/-- Each edge starts at a node and has a citation of its own, in the order of the edges. -/
def Paired (id : String) (f : Findings) : Prop :=
  List.Forall₂ (BackedAlone id) (outgoing f) (edgeCitations f)

/-- Findings are about the accesses of a node and hold no other edges. -/
def Shows (id : String) (f : Findings) (as : List Access) : Prop :=
  ∃ cited : List (Edge × Evidence), f.edges = cited.map (·.1) ∧ edgeCitations f = cited.map (·.2) ∧
    (∀ c ∈ cited, c.1.kind ≠ .contains ∧ BackedAlone id c.1 c.2) ∧
      cited.map (fun c => Access.ofCited c.1 c.2) = as

section

variable {id : String} {a b f : Findings} {as bs : List Access}

theorem outgoing_append : outgoing (a ++ b) = outgoing a ++ outgoing b := List.filter_append ..

theorem edgeCitations_append : edgeCitations (a ++ b) = edgeCitations a ++ edgeCitations b :=
  List.filter_append ..

theorem accesses_empty : accesses .empty = [] := rfl

theorem Shows.append (ha : Shows id a as) (hb : Shows id b bs) : Shows id (a ++ b) (as ++ bs) := by
  obtain ⟨cited, hedges, hcitations, hcited, rfl⟩ := ha
  obtain ⟨cited', hedges', hcitations', hcited', rfl⟩ := hb
  refine ⟨cited ++ cited', ?_, ?_, ?_, List.map_append⟩
  · rw [Findings.edges_append, hedges, hedges', List.map_append]
  · rw [edgeCitations_append, hcitations, hcitations', List.map_append]
  · exact fun c hc => (List.mem_append.1 hc).elim (hcited c) (hcited' c)

/-- Findings without edges and without citations of edges are about no access. -/
theorem shows_of_silent (hedges : f.edges = []) (hcitations : edgeCitations f = []) :
    Shows id f [] := ⟨[], hedges, hcitations, by simp, rfl⟩

theorem shows_citedEdge {s : Site} {e : Edge} (hkind : e.kind ≠ .contains)
    (hbare : e.evidenceIds = []) (kind : EvidenceKind) : Shows e.source (s.citedEdge kind e)
      [⟨e.kind, e.target, e.detail, e.confidence, some s.number.toUInt32⟩] := by
  refine ⟨[(e.cite _, _)], rfl, rfl, ?_, rfl⟩
  intro c hc
  rw [List.mem_singleton.1 hc]
  refine ⟨hkind, rfl, rfl, ?_⟩
  show e.evidenceIds ++ _ = _
  rw [hbare]
  rfl

theorem Shows.outgoing_eq (h : Shows id f as) : outgoing f = f.edges := by
  obtain ⟨cited, hedges, -, hcited, -⟩ := h
  refine List.filter_eq_self.2 fun e he => ?_
  rw [hedges] at he
  obtain ⟨c, hc, rfl⟩ := List.mem_map.1 he
  exact decide_eq_true (hcited c hc).1

theorem Shows.paired (h : Shows id f as) : Paired id f := by
  have houtgoing := h.outgoing_eq
  obtain ⟨cited, hedges, hcitations, hcited, -⟩ := h
  rw [Paired, houtgoing, hedges, hcitations, List.forall₂_map_left_iff, List.forall₂_map_right_iff,
    List.forall₂_same]
  exact fun c hc => (hcited c hc).2

theorem Shows.accesses_eq (h : Shows id f as) : accesses f = as := by
  have houtgoing := h.outgoing_eq
  obtain ⟨cited, hedges, hcitations, -, rfl⟩ := h
  rw [accesses, houtgoing, hedges, hcitations, List.zipWith_map, List.zipWith_self]

/-- Findings without accesses in front change no access. -/
theorem Shows.behind (h : Shows id b bs) (houtgoing : outgoing a = [])
    (hcitations : edgeCitations a = []) : Paired id (a ++ b) ∧ accesses (a ++ b) = bs := by
  have houtgoing : outgoing (a ++ b) = outgoing b := by rw [outgoing_append, houtgoing]; rfl
  have hcitations : edgeCitations (a ++ b) = edgeCitations b := by
    rw [edgeCitations_append, hcitations]
    rfl
  rw [Paired, accesses, houtgoing, hcitations]
  exact ⟨h.paired, h.accesses_eq⟩

theorem Shows.accesses_eq_nil_iff (h : Shows id f as) : accesses f = [] ↔ f.edges = [] := by
  rw [h.accesses_eq]
  obtain ⟨cited, hedges, -, -, rfl⟩ := h
  rw [hedges, List.map_eq_nil_iff, List.map_eq_nil_iff]

end

/-! ## Findings for any node -/

/-- Findings that are the same accesses for every node, on lines of which `on` holds. -/
def Uniform (on : Nat → Prop) (find : String → Findings) : Prop :=
  ∃ as, (∀ x ∈ as, ∃ n : Nat, x.line = some n.toUInt32 ∧ on n) ∧ ∀ id, Shows id (find id) as

section

variable {on : Nat → Prop} {find find' : String → Findings}

theorem uniform_of_silent (hedges : ∀ id, (find id).edges = [])
    (hcitations : ∀ id, edgeCitations (find id) = []) : Uniform on find :=
  ⟨[], by simp, fun id => shows_of_silent (hedges id) (hcitations id)⟩

theorem uniform_empty : Uniform on fun _ => .empty := uniform_of_silent (fun _ => rfl) fun _ => rfl

theorem Uniform.append (h : Uniform on find) (h' : Uniform on find') :
    Uniform on fun id => find id ++ find' id := by
  obtain ⟨as, hlines, hshows⟩ := h
  obtain ⟨bs, hlines', hshows'⟩ := h'
  refine ⟨as ++ bs, ?_, fun id => (hshows id).append (hshows' id)⟩
  exact fun x hx => (List.mem_append.1 hx).elim (hlines x) (hlines' x)

theorem Uniform.mono (h : Uniform on find) {on' : Nat → Prop} (hon : ∀ n, on n → on' n) :
    Uniform on' find := by
  obtain ⟨as, hlines, hshows⟩ := h
  refine ⟨as, fun x hx => ?_, hshows⟩
  obtain ⟨n, hn, honn⟩ := hlines x hx
  exact ⟨n, hn, hon n honn⟩

theorem uniform_concat_map {α : Type} {finds : String → α → Findings} : ∀ {xs : List α},
    (∀ x ∈ xs, Uniform on fun id => finds id x) →
      Uniform on fun id => .concat (xs.map (finds id))
  | [], _ => uniform_empty
  | x :: xs, h => by
    obtain ⟨hx, hxs⟩ := List.forall_mem_cons.1 h
    exact hx.append (uniform_concat_map hxs)

theorem uniform_citedEdge {path : String} {number : Nat} {line : Chars} {kind : EdgeKind}
    (hkind : kind ≠ .contains) (evidence : EvidenceKind) (target : Target) (discriminator : String)
    (detail : EdgeDetail) (confidence : Confidence) :
    Uniform (· = number) fun id => (⟨id, path, number, line⟩ : Site).citedEdge evidence
      (Edge.make kind id target discriminator detail confidence) := by
  refine ⟨[⟨kind, target, detail, confidence, some number.toUInt32⟩], ?_, fun id => ?_⟩
  · intro x hx
    rw [List.mem_singleton.1 hx]
    exact ⟨number, rfl, rfl⟩
  · exact shows_citedEdge hkind rfl _

theorem Uniform.shows (h : Uniform on find) (id : String) :
    Shows id (find id) (accesses (find id)) := by
  obtain ⟨as, -, hshows⟩ := h
  rw [(hshows id).accesses_eq]
  exact hshows id

theorem Uniform.accesses_eq (h : Uniform on find) (id id' : String) :
    accesses (find id) = accesses (find id') := by
  obtain ⟨as, -, hshows⟩ := h
  rw [(hshows id).accesses_eq, (hshows id').accesses_eq]

theorem Uniform.line_of_mem (h : Uniform on find) {id : String} {x : Access}
    (hx : x ∈ accesses (find id)) : ∃ n : Nat, x.line = some n.toUInt32 ∧ on n := by
  obtain ⟨as, hlines, hshows⟩ := h
  rw [(hshows id).accesses_eq] at hx
  exact hlines x hx

end

/-! ## Lines -/

section

variable (lines : List Chars) (lookahead : UInt64) (stop : Nat) {path : String} {number : Nat}
  {line : Chars}

/-- The operation that a chain of calls shows. -/
def operationIn? (chain : Chars) : Option DbOperation :=
  (Pattern.dbOp.first? chain).bind fun o => DbOperation.ofName? (o.text 1)

theorem uniform_tableAccess (m : Match) :
    Uniform (· = number) fun id =>
      tableAccess lines lookahead stop ⟨id, path, number, line⟩ m := by
  let operation? := operationIn? (Text.before ".from(".toList
    ((⟨"", path, number, line⟩ : Site).ahead m.stop lines lookahead stop))
  exact uniform_citedEdge (operation?.getD .select).edgeKind_ne_contains .backendClientCall
    (.node (Id.table Sql.defaultSchema (m.text 1))) (operation?.getD .select).name
    (.dataAccess (operation?.getD .select) (m.text 1))
    (if operation?.isSome then .high else .medium)

theorem uniform_dataAt :
    Uniform (· = number) fun id => dataAt lines lookahead stop ⟨id, path, number, line⟩ := by
  have hstores : EdgeKind.stores ≠ .contains := by decide
  unfold dataAt
  cases h : Pattern.storageFrom.first? line with
  | some m =>
    simp only [h, bucketAccess]
    exact uniform_citedEdge hstores _ _ _ _ _
  | none =>
    simp only [h]
    exact uniform_concat_map fun m _ => uniform_tableAccess lines lookahead stop m

theorem uniform_functionsAt :
    Uniform (· = number) fun id => functionsAt ⟨id, path, number, line⟩ := by
  have huses : EdgeKind.usesFunction ≠ .contains := by decide
  simp only [functionsAt]
  refine uniform_concat_map fun m _ => ?_
  exact uniform_citedEdge huses _ _ _ _ _

theorem callsExternal_ne_contains : EdgeKind.callsExternal ≠ .contains := by decide

theorem uniform_externalCall (m : Match) :
    Uniform (· = number) fun id => externalCall ⟨id, path, number, line⟩ m := by
  unfold externalCall
  cases Pattern.urlHost.first? (m.text 2).toList with
  | none => exact uniform_empty
  | some address =>
    cases h : Service.localHosts.contains (Text.lowercase (address.text 1)) with
    | true =>
      simp only [h, if_true]
      exact uniform_empty
    | false =>
      simp only [h, Bool.false_eq_true, if_false]
      exact (uniform_of_silent (fun _ => rfl) fun _ => rfl).append
        (uniform_citedEdge callsExternal_ne_contains _ _ _ _ _)

theorem uniform_clientConstruction (m : Match) :
    Uniform (· = number) fun id => clientConstruction ⟨id, path, number, line⟩ m := by
  unfold clientConstruction
  cases Service.ofClientClass? (m.text 1) with
  | none => exact uniform_empty
  | some service =>
    exact (uniform_of_silent (fun _ => rfl) fun _ => rfl).append
      (uniform_citedEdge callsExternal_ne_contains _ _ _ _ _)

theorem uniform_authCallsAt :
    Uniform (· = number) fun id => authCallsAt ⟨id, path, number, line⟩ := by
  have hauth : EdgeKind.authenticates ≠ .contains := by decide
  simp only [authCallsAt]
  refine uniform_concat_map fun m _ => ?_
  exact uniform_citedEdge hauth _ _ _ _ _

theorem uniform_environmentAt :
    Uniform (· = number) fun id => environmentAt ⟨id, path, number, line⟩ := by
  unfold environmentAt
  cases h : Pattern.envRef.occursIn line with
  | true =>
    simp only [h, if_true]
    exact uniform_of_silent (fun _ => rfl) fun _ => rfl
  | false =>
    simp only [h, Bool.false_eq_true, if_false]
    exact uniform_empty

/-- What a line shows is the same for every node. -/
theorem uniform_handlerLine :
    Uniform (· = number) fun id => handlerLine lines lookahead stop ⟨id, path, number, line⟩ := by
  have hcalls : Uniform (· = number) fun id =>
      .concat ((Pattern.externalUrl.all line).map (externalCall ⟨id, path, number, line⟩)) :=
    uniform_concat_map fun m _ => uniform_externalCall m
  have hclients : Uniform (· = number) fun id => .concat
      ((Pattern.sdkConstructor.all line).map (clientConstruction ⟨id, path, number, line⟩)) :=
    uniform_concat_map fun m _ => uniform_clientConstruction m
  exact (((((uniform_dataAt lines lookahead stop).append uniform_functionsAt).append hcalls).append
    hclients).append uniform_authCallsAt).append uniform_environmentAt

/-- What a stretch shows is the same for every node, on lines of the stretch. -/
theorem uniform_handlerStretch (stretch : Nat × Nat) :
    Uniform (fun n => stretch.1 < n ∧ n ≤ stretch.2) fun id =>
      handlerStretch id path lines lookahead stretch := by
  have hsites (id : String) :
      ((Site.ofLines id path lines).take stretch.2).drop stretch.1 =
        (((lines.zipIdx 1).take stretch.2).drop stretch.1).map fun x => ⟨id, path, x.2, x.1⟩ := by
    rw [Site.ofLines, List.map_drop, List.map_take]
  simp only [handlerStretch, hsites, List.map_map]
  refine uniform_concat_map fun x hx => ?_
  refine (uniform_handlerLine lines lookahead stretch.2).mono ?_
  rintro n rfl
  obtain ⟨k, hk⟩ := List.mem_iff_getElem?.1 hx
  rw [List.getElem?_drop, List.getElem?_take] at hk
  split at hk
  · next hlt =>
    rw [List.getElem?_zipIdx] at hk
    obtain ⟨y, -, rfl⟩ := Option.map_eq_some_iff.1 hk
    simp only
    omega
  · cases hk

end

/-! ## What is shown for an export -/

section

variable (lookahead : UInt64) (apps : Apps) (repo path text : String) (handler : Route.HandlerFile)

/-- What a handler file shows for an export besides accesses: the endpoint, the line that exports
it and the app that contains it. -/
def frontFindings (apps : Apps) (repo path : String) (handler : Route.HandlerFile)
    (lines : List Chars) (e : MethodExport) : Findings :=
  let node := endpointNode repo path handler e.method
  .node node ++ .citation (endpointCitation node.id path lines e) ++
    .concat ((apps.owner? path).toList.map fun app => .edge (Edge.containment app node.id))

theorem outgoing_frontFindings (lines : List Chars) (e : MethodExport) :
    outgoing (frontFindings apps repo path handler lines e) = [] := by
  unfold frontFindings
  cases apps.owner? path <;> rfl

theorem edgeCitations_frontFindings (lines : List Chars) (e : MethodExport) :
    edgeCitations (frontFindings apps repo path handler lines e) = [] := by
  have hedge : (endpointCitation (endpointNode repo path handler e.method).id path lines e).edgeId =
      none := by
    unfold endpointCitation
    simp only [Citation.atLine]
    split <;> rfl
  unfold frontFindings
  cases apps.owner? path <;> simp [edgeCitations, Findings.citation, Findings.concat, hedge,
    Findings.node, Findings.edge, Citation.evidence]

/-- What the lines above the first export show. They are read for every export. -/
def aboveFindings (lookahead : UInt64) (path text id : String) : Findings :=
  let first := MethodExport.firstLine text.toList
  if 0 < first then
    handlerStretch id path (Text.lines text.toList) lookahead
      (0, min first (Text.lines text.toList).length)
  else .empty

/-- What the lines of an export of its own show. -/
def ownFindings (lookahead : UInt64) (path text id : String)
    (x : MethodExport × Option MethodExport) : Findings :=
  handlerStretch id path (Text.lines text.toList) lookahead (MethodExport.ownStretch text.toList x)

theorem uniform_aboveFindings :
    Uniform (fun n => n ≤ MethodExport.firstLine text.toList ∧ n ≤ (Text.lines text.toList).length)
      fun id => aboveFindings lookahead path text id := by
  unfold aboveFindings
  by_cases hfirst : 0 < MethodExport.firstLine text.toList
  · simp only [if_pos hfirst]
    refine (uniform_handlerStretch _ lookahead _).mono ?_
    rintro n ⟨-, hn⟩
    exact Nat.le_min.1 hn
  · simp only [if_neg hfirst]
    exact uniform_empty

theorem uniform_ownFindings (x : MethodExport × Option MethodExport) :
    Uniform (fun n => x.1.line < n ∧ n ≤ (Text.lines text.toList).length)
      fun id => ownFindings lookahead path text id x := by
  refine (uniform_handlerStretch _ lookahead _).mono ?_
  rintro n ⟨hbelow, hn⟩
  exact ⟨hbelow, Nat.le_trans hn (Nat.min_le_right _ _)⟩

theorem shownFor_eq {i : Nat} {e : MethodExport}
    (hi : (MethodExport.ofContent text.toList)[i]? = some e) (hall : e.method ≠ .all) :
    shownFor lookahead apps repo path handler text i =
      frontFindings apps repo path handler (Text.lines text.toList) e ++
        (aboveFindings lookahead path text (endpointNode repo path handler e.method).id ++
          ownFindings lookahead path text (endpointNode repo path handler e.method).id
            (e, (MethodExport.ofContent text.toList)[i + 1]?)) := by
  simp only [shownFor, hi]
  refine congrArg (frontFindings apps repo path handler (Text.lines text.toList) e ++ ·) ?_
  rw [MethodExport.stretches, if_neg hall, aboveFindings, ownFindings, MethodExport.ownStretch,
    MethodExport.firstLine]
  simp only
  split
  · rw [List.map_cons, List.map_cons, Findings.concat_cons, Findings.concat_cons, List.map_nil]
    exact congrArg _ (append_empty _)
  · rw [List.map_cons, Findings.concat_cons, List.map_nil]
    exact append_empty _

/-- What is shown for an export are the accesses above the first export and its own. -/
theorem accesses_shownFor {i : Nat} {e : MethodExport}
    (hi : (MethodExport.ofContent text.toList)[i]? = some e) (hall : e.method ≠ .all) :
    let id := (endpointNode repo path handler e.method).id
    let shown := shownFor lookahead apps repo path handler text i
    Paired id shown ∧ accesses shown = accesses (aboveFindings lookahead path text id) ++
      accesses (ownFindings lookahead path text id
        (e, (MethodExport.ofContent text.toList)[i + 1]?)) := by
  intro id shown
  have habove := (uniform_aboveFindings lookahead path text).shows id
  have hown := (uniform_ownFindings lookahead path text
    (e, (MethodExport.ofContent text.toList)[i + 1]?)).shows id
  rw [show shown = _ from shownFor_eq lookahead apps repo path text handler hi hall]
  exact (habove.append hown).behind (outgoing_frontFindings ..) (edgeCitations_frontFindings ..)

end

/-! ## Lists -/

namespace MethodExport

/-- The exports of the list at a match. -/
def listed (content : Chars) (m : Match) : List MethodExport :=
  match m.group? 1 with
  | none => []
  | some list =>
    (Text.pieces (· = ',') list.chars).filterMap fun item =>
      let name := exportedName item
      if !name.isEmpty && name.all Char.isUpper then
        at? content .high (String.ofList name) list.start
      else none

theorem ofLists_eq (content : Chars) :
    ofLists content = (Pattern.exportList.all content).flatMap (listed content) := rfl

/-- Two exports are items of one list. -/
def InOneList (content : Chars) (e e' : MethodExport) : Prop :=
  ∃ m ∈ Pattern.exportList.all content, e ∈ listed content m ∧ e' ∈ listed content m

theorem line_of_mem_listed {content : Chars} {m : Match} {e : MethodExport}
    (h : e ∈ listed content m) :
    ∃ list, m.group? 1 = some list ∧
      e.line = ((Text.lineAt content list.start).toUInt64 - 1).toNat := by
  unfold listed at h
  split at h
  · cases h
  · next list hlist =>
    obtain ⟨item, -, hitem⟩ := List.mem_filterMap.1 h
    simp only at hitem
    split at hitem
    · exact ⟨list, hlist, line_of_at? hitem⟩
    · cases hitem

/-- The exports of one list stand on one line. -/
theorem InOneList.line_eq {content : Chars} {e e' : MethodExport} (h : InOneList content e e') :
    e.line = e'.line := by
  obtain ⟨m, -, he, he'⟩ := h
  obtain ⟨list, hlist, hline⟩ := line_of_mem_listed he
  obtain ⟨list', hlist', hline'⟩ := line_of_mem_listed he'
  obtain rfl := Option.some.inj (hlist.symm.trans hlist')
  rw [hline, hline']

/-- An export in front of another one on its line owns no line. -/
theorem ownStretch_le {content : Chars} {i j : Nat} {e e' : MethodExport} (hij : i < j)
    (hj : (ofContent content)[j]? = some e') (hline : e.line = e'.line) :
    (ownStretch content (e, (ofContent content)[i + 1]?)).2 ≤ e.line := by
  obtain ⟨hjlt, -⟩ := List.getElem?_eq_some_iff.1 hj
  have hnext := List.getElem?_eq_getElem (show i + 1 < (ofContent content).length by omega)
  have hle := line_le_of_le (pairwise_ofContent content) (Nat.succ_le_of_lt hij) hnext hj
  rw [ownStretch, hnext, hline]
  exact Nat.le_trans (Nat.min_le_left _ _) hle

end MethodExport

theorem handlerStretch_of_le {stretch : Nat × Nat} (h : stretch.2 ≤ stretch.1) (id path : String)
    (lines : List Chars) (lookahead : UInt64) :
    handlerStretch id path lines lookahead stretch = .empty := by
  have hsites : ((Site.ofLines id path lines).take stretch.2).drop stretch.1 = [] :=
    List.drop_eq_nil_of_le (Nat.le_trans (List.length_take_le _ _) h)
  rw [handlerStretch, hsites]
  rfl

/-- **Methods of one export list.** Of two methods of one list, the second one is shown what the
first one is and, besides, what its own lines show. They have the same edges apart from where these
start exactly if these lines show none. The same goes for whether the first one has all edges of the
second one, each as often: or once at least, where the numbers of lines fit the words that tell them
apart. -/
theorem listed_alike_iff (lookahead : UInt64) (apps : Apps) (repo path : String)
    (handler : Route.HandlerFile) {text : String} {i j : Nat} {e e' : MethodExport} (hij : i < j)
    (hi : (MethodExport.ofContent text.toList)[i]? = some e)
    (hj : (MethodExport.ofContent text.toList)[j]? = some e')
    (hlist : MethodExport.InOneList text.toList e e') :
    let shown := shownFor lookahead apps repo path handler text
    let own := ownFindings lookahead path text (endpointNode repo path handler e'.method).id
      (e', (MethodExport.ofContent text.toList)[j + 1]?)
    Paired (endpointNode repo path handler e.method).id (shown i) ∧
    Paired (endpointNode repo path handler e'.method).id (shown j) ∧
    accesses (shown j) = accesses (shown i) ++ accesses own ∧
    (accesses (shown i) = accesses (shown j) ↔ own.edges = []) ∧
    ((accesses (shown j)).Subperm (accesses (shown i)) ↔ own.edges = []) ∧
    ((Text.lines text.toList).length < UInt32.size →
      (accesses (shown j) ⊆ accesses (shown i) ↔ own.edges = [])) := by
  intro shown own
  have hline := hlist.line_eq
  obtain ⟨hpaired, hfirst : accesses (shown i) = _⟩ := accesses_shownFor lookahead apps repo path
    text handler hi (MethodExport.method_ne_all (Nat.ne_of_lt hij) hi hj)
  obtain ⟨hpaired', hsecond : accesses (shown j) = _⟩ := accesses_shownFor lookahead apps repo path
    text handler hj (MethodExport.method_ne_all (Nat.ne_of_gt hij) hj hi)
  -- the first method owns no line, and what stands above all exports is read for both
  rw [ownFindings, handlerStretch_of_le (MethodExport.ownStretch_le hij hj hline), accesses_empty,
    List.append_nil, (uniform_aboveFindings lookahead path text).accesses_eq _
      (endpointNode repo path handler e'.method).id] at hfirst
  have hboth : accesses (shown j) = accesses (shown i) ++ accesses own := by rw [hfirst, hsecond]
  have huniform := uniform_ownFindings lookahead path text
    (e', (MethodExport.ofContent text.toList)[j + 1]?)
  have hnone : accesses own = [] ↔ own.edges = [] := (huniform.shows _).accesses_eq_nil_iff
  refine ⟨hpaired, hpaired', hboth, ?_, ?_, ?_⟩
  · rw [hboth, ← hnone]
    exact List.self_eq_append_right
  · rw [hboth, ← hnone]
    refine ⟨fun ⟨l, hperm, hsub⟩ => ?_, fun hown => ?_⟩
    · have hlength := hperm.length_eq ▸ hsub.length_le
      rw [List.length_append] at hlength
      exact List.length_eq_zero_iff.1 (by omega)
    · have hsame : accesses (shown i) = accesses (shown i) ++ accesses own := by
        rw [hown, List.append_nil]
      exact ⟨accesses (shown i), .of_eq hsame, .refl _⟩
  · intro hfits
    rw [hboth, ← hnone]
    constructor
    · intro hsubset
      refine List.eq_nil_iff_forall_not_mem.2 fun x hx => ?_
      -- what its own lines show is cited below the first export
      obtain ⟨n, hn, hbelow, hlast⟩ := huniform.line_of_mem hx
      have hshared : x ∈ accesses (shown i) := hsubset (List.mem_append_right _ hx)
      rw [hfirst] at hshared
      obtain ⟨k, hk, habove, hlast'⟩ :=
        (uniform_aboveFindings lookahead path text).line_of_mem hshared
      obtain rfl : n = k := (Text.toUInt32_inj (Nat.lt_of_le_of_lt hlast hfits)
        (Nat.lt_of_le_of_lt hlast' hfits)).1 (Option.some.inj (hn.symm.trans hk))
      have hle := headLine_le (MethodExport.pairwise_ofContent text.toList) hj
      exact absurd habove (Nat.not_le_of_lt (Nat.lt_of_le_of_lt hle hbelow))
    · intro hnil
      rw [hnil, List.append_nil]
      exact List.Subset.refl _

/-! ## A list above its code -/

/-- A list of two methods above the code that both export. -/
def listAbove : String :=
  "export \x7b a as GET, b as POST \x7d;\nawait db.from('t').select();\n"

theorem exports_listAbove :
    MethodExport.ofContent listAbove.toList = [⟨.get, 0, .high⟩, ⟨.post, 0, .high⟩] := by
  have h : MethodExport.found listAbove.toList = [⟨.get, 0, .high⟩, ⟨.post, 0, .high⟩] := by
    decide
  rw [MethodExport.ofContent, h, List.mergeSort_of_pairwise (by decide)]
  rfl

theorem getElem?_listAbove (k : Nat) : (MethodExport.ofContent listAbove.toList)[k]? =
    ([⟨.get, 0, .high⟩, ⟨.post, 0, .high⟩] : List MethodExport)[k]? := by
  rw [exports_listAbove]

theorem inOneList_listAbove :
    MethodExport.InOneList listAbove.toList ⟨.get, 0, .high⟩ ⟨.post, 0, .high⟩ := by
  unfold MethodExport.InOneList
  decide

theorem listed_alike_listAbove :
    let handler : Route.HandlerFile := ⟨"/api/x", .routeHandler⟩
    let shown := shownFor 5 ⟨[]⟩ "repo" "app/api/x/route.ts" handler listAbove
    let own := ownFindings 5 "app/api/x/route.ts" listAbove
      (endpointNode "repo" "app/api/x/route.ts" handler .post).id (⟨.post, 0, .high⟩, none)
    MethodExport.InOneList listAbove.toList ⟨.get, 0, .high⟩ ⟨.post, 0, .high⟩ ∧
      (accesses (shown 0) = accesses (shown 1) ↔ own.edges = []) := by
  intro handler shown own
  obtain ⟨-, -, -, halike, -⟩ := listed_alike_iff 5 ⟨[]⟩ "repo" "app/api/x/route.ts" handler
    Nat.zero_lt_one (getElem?_listAbove 0) (getElem?_listAbove 1) inOneList_listAbove
  rw [getElem?_listAbove 2] at halike
  exact ⟨inOneList_listAbove, halike⟩

/-- Whether a line shows nothing but accesses to tables and buckets. -/
def dataOnly (line : Chars) : Bool :=
  (Pattern.rpc.all line).isEmpty && (Pattern.externalUrl.all line).isEmpty &&
    (Pattern.sdkConstructor.all line).isEmpty && (Pattern.authCall.all line).isEmpty &&
    !Pattern.envRef.occursIn line

theorem handlerLine_of_dataOnly {line : Chars} (h : dataOnly line = true) (lines : List Chars)
    (lookahead : UInt64) (stop : Nat) (id path : String) (number : Nat) :
    handlerLine lines lookahead stop ⟨id, path, number, line⟩ =
      dataAt lines lookahead stop ⟨id, path, number, line⟩ := by
  simp only [dataOnly, Bool.and_eq_true, Bool.not_eq_true', List.isEmpty_iff] at h
  obtain ⟨⟨⟨⟨hrpc, hurl⟩, hsdk⟩, hauth⟩, henv⟩ := h
  simp only [handlerLine, functionsAt, hrpc, hurl, hsdk, authCallsAt, hauth, environmentAt, henv,
    List.map_nil, Bool.false_eq_true, if_false]
  have hnone (f : Findings) : f ++ .concat [] = f := append_empty f
  rw [hnone, hnone, hnone, hnone]
  exact append_empty _

theorem accesses_tableAccess (lines : List Chars) (lookahead : UInt64) (stop : Nat) (s : Site)
    (m : Match) {operation : DbOperation}
    (h : operationIn? (Text.before ".from(".toList (s.ahead m.stop lines lookahead stop)) =
      some operation) :
    accesses (tableAccess lines lookahead stop s m) = [⟨operation.edgeKind,
      .node (Id.table Sql.defaultSchema (m.text 1)), .dataAccess operation (m.text 1), .high,
      some s.number.toUInt32⟩] := by
  rw [operationIn?] at h
  simp only [tableAccess, h, Option.getD_some, Option.isSome_some, if_true]
  exact (shows_citedEdge operation.edgeKind_ne_contains rfl _).accesses_eq

/-- The lines of the file show one access to a table. -/
theorem accesses_listAbove (id path : String) :
    accesses (handlerStretch id path (Text.lines listAbove.toList) 5 (0, 2)) =
      [⟨.reads, .node (Id.table Sql.defaultSchema "t"), .dataAccess .select "t", .high,
        some 2⟩] := by
  let list := "export \x7b a as GET, b as POST \x7d;".toList
  let call := "await db.from('t').select();".toList
  have hlines : Text.lines listAbove.toList = [list, call] := by decide
  have hsites : handlerStretch id path [list, call] 5 (0, 2) =
      handlerLine [list, call] 5 2 ⟨id, path, 1, list⟩ ++
        (handlerLine [list, call] 5 2 ⟨id, path, 2, call⟩ ++ .empty) := rfl
  -- the export list shows nothing
  have hlist : dataAt [list, call] 5 2 ⟨id, path, 1, list⟩ = .empty := by
    have hbucket : Pattern.storageFrom.first? list = none :=
      Option.isNone_iff_eq_none.1 (by decide)
    have htable : Pattern.tableFrom.all list = [] := List.isEmpty_iff.1 (by decide)
    simp only [dataAt, hbucket, htable]
    rfl
  -- the call chooses a table and selects from it
  obtain ⟨m, hm⟩ : ∃ m, Pattern.tableFrom.all call = [m] :=
    List.length_eq_one_iff.1 (by decide)
  have hcall : dataAt [list, call] 5 2 ⟨id, path, 2, call⟩ =
      tableAccess [list, call] 5 2 ⟨id, path, 2, call⟩ m ++ .empty := by
    have hbucket : Pattern.storageFrom.first? call = none :=
      Option.isNone_iff_eq_none.1 (by decide)
    simp only [dataAt, hbucket, hm]
    rfl
  have hmatch : ∀ m ∈ Pattern.tableFrom.all call, m.text 1 = "t" ∧
      operationIn? (Text.before ".from(".toList (call.drop m.stop ++ ['\n'])) = some .select := by
    decide
  obtain ⟨htable, hoperation⟩ := hmatch m (hm ▸ List.mem_singleton_self m)
  have hlistOnly : dataOnly list = true := by decide
  have hcallOnly : dataOnly call = true := by decide
  have haccesses := accesses_tableAccess [list, call] 5 2 ⟨id, path, 2, call⟩ m hoperation
  rw [htable] at haccesses
  rw [hlines, hsites, handlerLine_of_dataOnly hlistOnly, handlerLine_of_dataOnly hcallOnly, hlist,
    hcall, append_empty, append_empty]
  exact haccesses

/-- The list credits its second method only: the first one has no edge, the second one reads the
table. -/
theorem listed_apart :
    let handler : Route.HandlerFile := ⟨"/api/x", .routeHandler⟩
    let shown := shownFor 5 ⟨[]⟩ "repo" "app/api/x/route.ts" handler listAbove
    MethodExport.ofContent listAbove.toList = [⟨.get, 0, .high⟩, ⟨.post, 0, .high⟩] ∧
    MethodExport.InOneList listAbove.toList ⟨.get, 0, .high⟩ ⟨.post, 0, .high⟩ ∧
    accesses (shown 0) = [] ∧
    accesses (shown 1) = [⟨.reads, .node (Id.table Sql.defaultSchema "t"), .dataAccess .select "t",
      .high, some 2⟩] := by
  intro handler shown
  let path := "app/api/x/route.ts"
  have habove (id : String) : accesses (aboveFindings 5 path listAbove id) = [] := by
    rw [aboveFindings, MethodExport.firstLine, exports_listAbove]
    rfl
  have hown : MethodExport.ownStretch listAbove.toList (⟨.get, 0, .high⟩,
      (MethodExport.ofContent listAbove.toList)[0 + 1]?) = (0, 0) := by
    rw [getElem?_listAbove]
    rfl
  have hown' : MethodExport.ownStretch listAbove.toList (⟨.post, 0, .high⟩,
      (MethodExport.ofContent listAbove.toList)[1 + 1]?) = (0, 2) := by
    rw [getElem?_listAbove]
    decide
  obtain ⟨-, hshown : accesses (shown 0) = _⟩ :=
    accesses_shownFor 5 ⟨[]⟩ "repo" path listAbove handler (getElem?_listAbove 0) (by decide)
  obtain ⟨-, hshown' : accesses (shown 1) = _⟩ :=
    accesses_shownFor 5 ⟨[]⟩ "repo" path listAbove handler (getElem?_listAbove 1) (by decide)
  refine ⟨exports_listAbove, inOneList_listAbove, ?_, ?_⟩
  · rw [hshown, habove, ownFindings, hown, handlerStretch_of_le (Nat.le_refl 0)]
    rfl
  · rw [hshown', habove, ownFindings, hown', accesses_listAbove]
    rfl

end ArchGraph.Discovery
