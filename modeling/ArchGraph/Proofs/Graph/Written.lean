import ArchGraph.Graph.Codec
import ArchGraph.Proofs.Json.Reading
import Mathlib.Algebra.Group.Nat.Defs
import Mathlib.Data.List.Nodup
/-!
# Reading the written form of the graph

Nodes, edges, evidence and features are read back from their written form, and so from its texts
(`Lossless`). A record is written as the members that have a value (`Json.present`), from which
each field is looked up by its name (`Json.objectFields?_present`), so that one lemma serves every
record and what is left of it are the fields. Two records come back under a condition: an edge if
its target does (`Target.Clear`), which a node whose identifier looks like a pending path does not,
and evidence if its line numbers have 32 bits. Main statements: `Node.readBack`, `Edge.readBack`,
`Evidence.readBack`, `Feature.readBack` and `ReadBack.lossless`.
-/

namespace ArchGraph

namespace Json

/-! ## Fields -/

/-- The members that have a value. -/
def present (ms : List (String × Option Json)) : List (String × Json) :=
  ms.filterMap fun (key, value) => value.map (key, ·)

theorem map_present (ms : List (String × Option Json)) :
    (present ms).map (·.1) = (ms.filter (·.2.isSome)).map (·.1) := by
  induction ms with
  | nil => rfl
  | cons m ms ih =>
    obtain ⟨key, value⟩ := m
    cases value with
    | none => exact ih
    | some j => exact congrArg (key :: ·) ih

theorem nodup_present {ms : List (String × Option Json)} (h : (ms.map (·.1)).Nodup) :
    ((present ms).map (·.1)).Nodup := by
  rw [map_present]
  exact h.sublist (List.filter_sublist.map _)

/-- A name is looked up among the members that have a value. -/
theorem lookup_present : ∀ {ms : List (String × Option Json)}, (ms.map (·.1)).Nodup →
    ∀ m ∈ ms, List.lookup m.1 (present ms) = m.2
  | [], _, _, hm => absurd hm List.not_mem_nil
  | (key, value) :: ms, hd, m, hm => by
    rw [List.map_cons, List.nodup_cons] at hd
    rcases List.mem_cons.1 hm with rfl | hm
    · cases value with
      | some j => exact List.lookup_cons_self
      | none =>
        refine List.lookup_eq_none_iff.2 fun member hmember => ?_
        have hkey : member.1 ∈ (present ms).map (·.1) := List.mem_map_of_mem hmember
        rw [map_present] at hkey
        have hmem : member.1 ∈ ms.map (·.1) := (List.filter_sublist.map _).subset hkey
        have hne : key ≠ member.1 := fun heq => hd.1 (heq ▸ hmem)
        simpa using hne
    · have hmem : m.1 ∈ ms.map (·.1) := List.mem_map_of_mem hm
      have hne : m.1 ≠ key := fun heq => hd.1 (heq ▸ hmem)
      have ih := lookup_present hd.2 m hm
      cases value with
      | none => exact ih
      | some j =>
        rw [present, List.filterMap_cons_some (by rfl), List.lookup_cons, beq_false_of_ne hne]
        exact ih

/-- Fields are read back from an object of the members that have a value. -/
theorem objectFields?_present {names : List String} {ms : List (String × Option Json)}
    (hnames : ms.map (·.1) = names) (hd : names.Nodup) :
    objectFields? names (present ms) = some (ms.map (·.2)) := by
  subst hnames
  have honce : ∀ name, ((present ms).filter (·.1 == name)).length ≤ 1 := by
    intro name
    have hcount := List.nodup_iff_count_le_one.1 (nodup_present hd) name
    rwa [List.count, List.countP_map, List.countP_eq_length_filter] at hcount
  rw [objectFields?, if_neg, List.map_map]
  · exact congrArg some (List.map_congr_left fun m hm => lookup_present hd m hm)
  · rw [List.any_eq_true]
    rintro ⟨name, -, htwice⟩
    have hle := honce name
    have hlt := of_decide_eq_true htwice
    omega

theorem ofMembers_eq (ms : List (String × Option Json)) : ofMembers ms = obj (present ms) := rfl

theorem record?_ofMembers {names : List String} {ms : List (String × Option Json)}
    (hnames : ms.map (·.1) = names) (hd : names.Nodup) (complete : Bool) :
    (ofMembers ms).record? names complete = some (ms.map (·.2)) :=
  objectFields?_present hnames hd

section
variable {α : Type} {read : Json → Option α} {write : α → Json}

@[simp] theorem required?_some (j : Json) : required? read (some j) = read j := rfl

@[simp] theorem str?_str (s : String) : str? (str s) = some s := rfl

@[simp] theorem bool?_bool (b : Bool) : bool? (bool b) = some b := rfl

@[simp] theorem member?_str (ofName? : String → Option α) (s : String) :
    member? ofName? (str s) = ofName? s := rfl

theorem optional?_map {field : Option α} (h : ∀ a ∈ field, read (write a) = some a)
    (hnull : ∀ a, write a ≠ null) : optional? read (field.map write) = some field := by
  cases field with
  | none => rfl
  | some a =>
    rw [Option.map_some, optional?, h a rfl, Option.map_some]
    exact hnull a

@[simp] theorem optional?_str (field : Option String) :
    optional? str? (field.map str) = some field :=
  optional?_map (fun _ _ => rfl) nofun

theorem list?_map {items : List α} (h : ∀ a ∈ items, read (write a) = some a) :
    list? read (arr (items.map write)) = some items := by
  rw [list?, arr?, Option.bind_some]
  induction items with
  | nil => rfl
  | cons a items ih =>
    rw [List.map_cons, List.mapM_cons, h a List.mem_cons_self,
      ih fun b hb => h b (List.mem_cons_of_mem a hb)]
    rfl

@[simp] theorem strings?_ofStrings (items : List String) :
    strings? (ofStrings items) = some items := list?_map fun _ _ => rfl

end

/-! ## Exact values -/

theorem areExact_eq (items : List Json) : areExact items = items.all isExact := by
  induction items with
  | nil => rfl
  | cons item rest ih => rw [areExact, ih, List.all_cons]

theorem haveExact_eq (members : List (String × Json)) :
    haveExact members = members.all fun m => isExact m.2 := by
  induction members with
  | nil => rfl
  | cons m rest ih => rw [haveExact, ih, List.all_cons]

@[simp] theorem isExact_str (s : String) : isExact (str s) = true := rfl

@[simp] theorem isExact_bool (b : Bool) : isExact (bool b) = true := rfl

@[simp] theorem isExact_ofNat (n : Nat) : isExact (ofNat n) = true := rfl

@[simp] theorem isExact_ofStrings (items : List String) : isExact (ofStrings items) = true := by
  simp [ofStrings, isExact, areExact_eq]

@[simp] theorem isExact_ofOption (value : Option Json) :
    isExact (ofOption value) = true ↔ ∀ j ∈ value, isExact j = true := by
  cases value <;> simp [ofOption, isExact]

@[simp] theorem isExact_arr_map {α : Type} {write : α → Json} {items : List α} :
    isExact (arr (items.map write)) = true ↔ ∀ a ∈ items, isExact (write a) = true := by
  simp [isExact, areExact_eq]

@[simp] theorem isExact_ofMembers {ms : List (String × Option Json)} :
    isExact (ofMembers ms) = true ↔ ∀ m ∈ ms, ∀ j ∈ m.2, isExact j = true := by
  rw [ofMembers, isExact, haveExact_eq, List.all_eq_true]
  constructor
  · rintro h ⟨key, value⟩ hm j hj
    obtain rfl : value = some j := hj
    exact h (key, j) (List.mem_filterMap.2 ⟨(key, some j), hm, rfl⟩)
  · intro h member hmember
    obtain ⟨m, hm, hvalue⟩ := List.mem_filterMap.1 hmember
    obtain ⟨j, hj, rfl⟩ := Option.map_eq_some_iff.1 hvalue
    exact h m hm j hj

end Json

/-! ## Records -/

/-- The written form of a value is read back, and so are its texts. -/
structure ReadBack {α : Type} (write : α → Json) (read : Json → Option α) (a : α) : Prop where
  exact : (write a).isExact = true
  read  : read (write a) = some a

open Json (str bool ofStrings ofMembers ofOption required? optional? member?)

theorem RepoDetail.readBack (d : RepoDetail) : ReadBack toJson ofJson? d where
  exact := by simp [toJson]
  read := by
    rw [ofJson?, toJson, Json.record?_ofMembers]
    · simp
    · rfl
    · decide

theorem AppDetail.readBack (d : AppDetail) : ReadBack toJson ofJson? d where
  exact := by simp [toJson]
  read := by
    rw [ofJson?, toJson, Json.record?_ofMembers]
    · simp
    · rfl
    · decide

theorem ScreenDetail.readBack (d : ScreenDetail) : ReadBack toJson ofJson? d where
  exact := by simp [toJson]
  read := by
    rw [ofJson?, toJson, Json.record?_ofMembers]
    · simp [RouterKind.ofName?_name]
    · rfl
    · decide

theorem EndpointDetail.readBack (d : EndpointDetail) : ReadBack toJson ofJson? d where
  exact := by simp [toJson]
  read := by
    rw [ofJson?, toJson, Json.record?_ofMembers]
    · simp [HttpMethod.ofName?_name, HandlerKind.ofName?_name]
    · rfl
    · decide

theorem WorkerDetail.readBack (d : WorkerDetail) : ReadBack toJson ofJson? d where
  exact := by simp [toJson]
  read := by
    rw [ofJson?, toJson, Json.record?_ofMembers]
    · simp
    · rfl
    · decide

theorem ColumnReference.readBack (r : ColumnReference) : ReadBack toJson ofJson? r where
  exact := by simp [toJson]
  read := by
    rw [ofJson?, toJson, Json.record?_ofMembers]
    · simp
    · rfl
    · decide

theorem Column.readBack (c : Column) : ReadBack toJson ofJson? c where
  exact := by simp [toJson, fun r => (ColumnReference.readBack r).exact]
  read := by
    have hreferences : optional? ColumnReference.ofJson?
        (c.references.map ColumnReference.toJson) = some c.references :=
      Json.optional?_map (fun r _ => (ColumnReference.readBack r).read) nofun
    rw [ofJson?, toJson, Json.record?_ofMembers]
    · simp [hreferences]
    · rfl
    · decide

theorem TableDetail.readBack (d : TableDetail) : ReadBack toJson ofJson? d where
  exact := by simp [toJson, fun c => (Column.readBack c).exact]
  read := by
    have hcolumns : Json.list? Column.ofJson? (.arr (d.columns.map Column.toJson)) =
        some d.columns := Json.list?_map fun c _ => (Column.readBack c).read
    rw [ofJson?, toJson, Json.record?_ofMembers]
    · simp [hcolumns]
    · rfl
    · decide

theorem FunctionDetail.readBack (d : FunctionDetail) : ReadBack toJson ofJson? d where
  exact := by simp [toJson]
  read := by
    rw [ofJson?, toJson, Json.record?_ofMembers]
    · simp
    · rfl
    · decide

theorem StorageDetail.readBack (d : StorageDetail) : ReadBack toJson ofJson? d where
  exact := by simp [toJson]
  read := by
    rw [ofJson?, toJson, Json.record?_ofMembers]
    · simp
    · rfl
    · decide

theorem AuthDetail.readBack (d : AuthDetail) : ReadBack toJson ofJson? d where
  exact := by simp [toJson]
  read := by
    rw [ofJson?, toJson, Json.record?_ofMembers]
    · simp
    · rfl
    · decide

theorem ServiceDetail.readBack (d : ServiceDetail) : ReadBack toJson ofJson? d where
  exact := by simp [toJson]
  read := by
    rw [ofJson?, toJson, Json.record?_ofMembers]
    · simp
    · rfl
    · decide

theorem DeploymentDetail.readBack (d : DeploymentDetail) : ReadBack toJson ofJson? d where
  exact := by simp [toJson]
  read := by
    rw [ofJson?, toJson, Json.record?_ofMembers]
    · simp
    · rfl
    · decide

theorem PackageDetail.readBack (d : PackageDetail) : ReadBack toJson ofJson? d where
  exact := by simp [toJson]
  read := by
    rw [ofJson?, toJson, Json.record?_ofMembers]
    · simp
    · rfl
    · decide

theorem NodeDetail.exact_toJson : ∀ d : NodeDetail, d.toJson.isExact = true
  | .repo d => d.readBack.exact
  | .app d => d.readBack.exact
  | .screen d => d.readBack.exact
  | .endpoint d => d.readBack.exact
  | .worker d => d.readBack.exact
  | .table d => d.readBack.exact
  | .function d => d.readBack.exact
  | .storage d => d.readBack.exact
  | .auth d => d.readBack.exact
  | .externalService d => d.readBack.exact
  | .deployment d => d.readBack.exact
  | .package d => d.readBack.exact

/-- The details of a node are read back by its kind. -/
theorem NodeDetail.ofJson?_toJson : ∀ d : NodeDetail, ofJson? d.kind d.toJson = some d
  | .repo d => congrArg (Option.map repo) d.readBack.read
  | .app d => congrArg (Option.map app) d.readBack.read
  | .screen d => congrArg (Option.map screen) d.readBack.read
  | .endpoint d => congrArg (Option.map endpoint) d.readBack.read
  | .worker d => congrArg (Option.map worker) d.readBack.read
  | .table d => congrArg (Option.map table) d.readBack.read
  | .function d => congrArg (Option.map function) d.readBack.read
  | .storage d => congrArg (Option.map storage) d.readBack.read
  | .auth d => congrArg (Option.map auth) d.readBack.read
  | .externalService d => congrArg (Option.map externalService) d.readBack.read
  | .deployment d => congrArg (Option.map deployment) d.readBack.read
  | .package d => congrArg (Option.map package) d.readBack.read

theorem Node.readBack (n : Node) : ReadBack toJson ofJson? n where
  exact := by simp [toJson, NodeDetail.exact_toJson]
  read := by
    have hdetail : NodeDetail.ofJson? n.kind n.detail.toJson = some n.detail :=
      NodeDetail.ofJson?_toJson n.detail
    rw [toJson, Json.ofMembers_eq, ofJson?, Json.objectFields?_present]
    · simp [NodeKind.ofName?_name, hdetail]
    · rfl
    · decide

/-! ## Edges -/

theorem EdgeDetail.exact_toJson (d : EdgeDetail) : d.toJson.isExact = true := by
  cases d <;> simp [toJson, fields, Json.isExact, Json.haveExact]

theorem EdgeDetail.ofJson?_toJson (d : EdgeDetail) : ofJson? d.toJson = some d := by
  cases d with
  | plain => rfl
  | httpCall method path client => cases method <;> rfl
  | navigation path via => rfl
  | dataAccess operation table => cases operation <;> rfl
  | rpc function => rfl
  | externalCall host via => cases host <;> rfl
  | authCall call => rfl
  | storageAccess bucket => rfl
  | foreignKey column references => rfl
  | trigger name => rfl
  | dependency version => cases version <;> rfl
  | cron schedule => cases schedule <;> rfl
  | envVar names =>
    show (Json.strings? (ofStrings names)).bind (fun names => some (envVar names)) = _
    rw [Json.strings?_ofStrings]
    rfl

/-- A target is read back from its written form. -/
def Target.Clear (t : Target) : Prop := ofWritten t.written = t

theorem Target.clear_pending (path : String) : (pending path).Clear :=
  ofWritten_written_pending path

/-- A node is read back unless its identifier starts like a pending path: then it is read as that
path. -/
theorem Target.clear_node_iff {id : String} :
    (node id).Clear ↔ ¬pendingMark <+: id.toList := by
  rw [Clear, written, ofWritten]
  split
  · next path hpath =>
    constructor
    · intro h
      cases h
    · exact fun h => absurd ⟨path, hpath.symm⟩ h
  · next hpath =>
    constructor
    · rintro - ⟨path, h⟩
      exact hpath path h.symm
    · exact fun _ => rfl

theorem Edge.readBack {e : Edge} (h : e.target.Clear) : ReadBack toJson ofJson? e where
  exact := by simp [toJson, EdgeDetail.exact_toJson]
  read := by
    have htarget : Target.ofWritten e.target.written = e.target := h
    rw [ofJson?, toJson, Json.record?_ofMembers]
    · simp [EdgeKind.ofName?_name, Confidence.ofName?_name, EdgeDetail.ofJson?_toJson, htarget]
    · rfl
    · decide

/-! ## Evidence and features -/

@[simp] theorem Json.isExact_ofLine (number : UInt32) : isExact (ofLine number) = true := rfl

/-- A line number is read back. -/
theorem Json.line?_ofLine (number : UInt32) : line? (ofLine number) = some number := by
  have hword := number.toNat_lt
  have hn : (number.toNat : Int) ≤ (Nat.pow 2 32 - 1 : Nat) :=
    Int.ofNat_le.2 (Nat.le_sub_one_of_lt hword)
  have hread : (ofLine number).nat? (Nat.pow 2 32 - 1) = some number.toNat :=
    if_pos ⟨Int.natCast_nonneg _, hn⟩
  rw [line?, hread, Option.map_some]
  exact congrArg some (UInt32.ofNat_toNat)

theorem Evidence.readBack (ev : Evidence) : ReadBack toJson ofJson? ev where
  exact := by simp [toJson]
  read := by
    have hline (line : Option UInt32) :
        Json.optional? Json.line? (line.map Json.ofLine) = some line :=
      Json.optional?_map (fun number _ => Json.line?_ofLine number) nofun
    rw [ofJson?, toJson, Json.record?_ofMembers]
    · simp [EvidenceKind.ofName?_name, Confidence.ofName?_name, hline]
    · rfl
    · decide

theorem FlowStep.readBack (s : FlowStep) : ReadBack toJson ofJson? s where
  exact := by simp [toJson]
  read := by
    rw [ofJson?, toJson, Json.record?_ofMembers]
    · simp [StepKind.ofName?_name]
    · rfl
    · decide

theorem Feature.readBack (f : Feature) : ReadBack toJson ofJson? f where
  exact := by simp [toJson, fun s => (FlowStep.readBack s).exact]
  read := by
    have hflow : Json.list? FlowStep.ofJson? (.arr (f.flow.map FlowStep.toJson)) = some f.flow :=
      Json.list?_map fun s _ => (FlowStep.readBack s).read
    rw [ofJson?, toJson, Json.record?_ofMembers]
    · simp [FeatureSource.ofName?_name, hflow]
    · rfl
    · decide

/-! ## Texts -/

/-- A value is read back from its written form, and from the compact and the pretty text of that. -/
def Lossless {α : Type} (write : α → Json) (read : Json → Option α) (a : α) : Prop :=
  read (write a) = some a ∧ (Json.ofText? (write a).compact).bind read = some a ∧
    (Json.ofText? (write a).pretty).bind read = some a

theorem ReadBack.lossless {α : Type} {write : α → Json} {read : Json → Option α} {a : α}
    (h : ReadBack write read a) : Lossless write read a := by
  refine ⟨h.read, ?_, ?_⟩
  · rw [Json.ofText?_compact h.exact, Option.bind_some, h.read]
  · rw [Json.ofText?_pretty h.exact, Option.bind_some, h.read]

end ArchGraph
