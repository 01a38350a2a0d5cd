import ArchGraph.Proofs.Discovery.Isolation
import ArchGraph.Proofs.Discovery.Stages
/-!
# Lines are quoted exactly

Evidence with the number of a line quotes that line: it names a file of the repository that is
scanned, the number is that of a line of the file's text, and the excerpt is what the line starts
with (`Quotes`). Lines are numbered by cutting the text into its lines (`onLine_of_mem_ofLines`), by
looking for the first line with a property (`numbered_of_findLine?`) or by counting line feeds,
where the number counts only if there is such a line (`onLine_of_getElem?`). Numbers are cited as
32-bit words, and which line is quoted does not depend on whether its number fits: only reading the
number back takes a text of fewer than `2 ^ 32` lines. Findings quote if all that they are put
together from does, one lemma for each function of a stage. Main statement: `lines_quoted`.
-/

namespace ArchGraph.Discovery

open Text (Chars)

/-! ## Quotations -/

/-- A text has a line with a number, from 1 on. -/
def OnLine (text : String) (number : Nat) (line : Chars) : Prop :=
  1 ≤ number ∧ number ≤ (Text.lines text.toList).length ∧
    (Text.lines text.toList)[number - 1]? = some line

/-- A line that was found in a text, with the word for its number. -/
def Numbered (text : String) (found : UInt32 × Chars) : Prop :=
  ∃ number, OnLine text number found.2 ∧ found.1 = number.toUInt32

/-- Evidence quotes one line of a listed file whose text is known. Its excerpt is what the trimmed
line starts with, and its first and last line are the word for the number of that line: the number
itself in a text of fewer than `2 ^ 32` lines. -/
def Quotes (p : Project) (r : Repository) (ev : Evidence) : Prop :=
  ∃ path ∈ r.paths, ∃ text, p.content? r path = some text ∧ ∃ number line,
    OnLine text number line ∧ ev.filePath = some path ∧ ev.lineStart = some number.toUInt32 ∧
      ev.lineEnd = some number.toUInt32 ∧ ev.excerpt.toList = (Text.trim line).take 300 ∧
      ((Text.lines text.toList).length < UInt32.size →
        ev.lineStart.map (·.toNat) = some number ∧ ev.lineEnd.map (·.toNat) = some number)

/-- What a stage finds in one repository, if it goes by repositories. -/
def Task.foundIn (t : Task) (g : Graph) (r : Repository) : Stage → Findings
  | .inventory => inventoryOf t.project r
  | .screens => screensOf t.settings.analysis t.project g r
  | .endpoints => endpointsOf t.settings.analysis t.project g r
  | .deployment => deploymentOf t.project g (.ofNodes (g.nodesOf .endpoint)) r
  | .database | .features => .empty

/-- Where findings cite a line, they quote it. -/
def Quoting (p : Project) (r : Repository) (f : Findings) : Prop :=
  ∀ ev ∈ f.evidence, ev.lineStart.isSome ∨ ev.lineEnd.isSome → Quotes p r ev

/-! ## Numbers of lines -/

theorem onLine_of_getElem? {text : String} {k : Nat} {line : Chars}
    (h : (Text.lines text.toList)[k]? = some line) : OnLine text (k + 1) line := by
  obtain ⟨hk, -⟩ := List.getElem?_eq_some_iff.1 h
  exact ⟨by omega, by omega, h⟩

/-- The word for the number of a line of a text that can be counted in words gives it back. -/
theorem OnLine.toNat_toUInt32 {text : String} {number : Nat} {line : Chars}
    (h : OnLine text number line) (hfits : (Text.lines text.toList).length < UInt32.size) :
    number.toUInt32.toNat = number :=
  Text.toNat_toUInt32 (Nat.lt_of_le_of_lt h.2.1 hfits)

theorem numbered_of_findLine? {test : Chars → Bool} {text : String} {found : UInt32 × Chars}
    (h : Text.findLine? test text.toList = some found) : Numbered text found := by
  obtain ⟨⟨line, number⟩, hfind, rfl⟩ := Option.map_eq_some_iff.1 h
  obtain ⟨hle, -, hline⟩ := List.mem_zipIdx (List.mem_of_find?_eq_some hfind)
  obtain ⟨k, rfl⟩ := Nat.exists_eq_add_of_le' hle
  refine ⟨k + 1, onLine_of_getElem? ?_, rfl⟩
  rw [List.getElem?_eq_some_iff]
  exact ⟨_, hline.symm⟩

theorem numbered_of_pageAnchor? {text : String} {found : UInt32 × Chars}
    (h : pageAnchor? text.toList = some found) : Numbered text found := by
  unfold pageAnchor? at h
  split at h
  · next hdefault =>
    obtain rfl := Option.some.inj h
    exact numbered_of_findLine? hdefault
  · exact numbered_of_findLine? h

theorem onLine_of_mem_ofLines {nodeId path : String} {text : String} {s : Site}
    (h : s ∈ Site.ofLines nodeId path (Text.lines text.toList)) :
    s.path = path ∧ OnLine text s.number s.line := by
  obtain ⟨k, hk⟩ := List.mem_iff_getElem?.1 h
  rw [getElem?_ofLines] at hk
  obtain ⟨line, hline, rfl⟩ := Option.map_eq_some_iff.1 hk
  exact ⟨rfl, onLine_of_getElem? hline⟩

/-! ## Laws -/

variable {p : Project} {r : Repository}

theorem quoting_none {f : Findings} (h : f.evidence = []) : Quoting p r f := by
  simp [Quoting, h]

theorem quoting_empty : Quoting p r .empty := quoting_none rfl

theorem quoting_node (n : Node) : Quoting p r (.node n) := quoting_none rfl

theorem quoting_containment (a b : String) : Quoting p r (.edge (Edge.containment a b)) :=
  quoting_none rfl

theorem Quoting.append {a b : Findings} (ha : Quoting p r a) (hb : Quoting p r b) :
    Quoting p r (a ++ b) :=
  fun ev hev => (List.mem_append.1 hev).elim (ha ev) (hb ev)

theorem quoting_concat {all : List Findings} (h : ∀ f ∈ all, Quoting p r f) :
    Quoting p r (.concat all) := by
  intro ev hev
  obtain ⟨f, hf, hmem⟩ := List.mem_flatMap.1 hev
  exact h f hf ev hmem

theorem quoting_concat_map {α : Type} {l : List α} {find : α → Findings}
    (h : ∀ a ∈ l, Quoting p r (find a)) : Quoting p r (.concat (l.map find)) :=
  quoting_concat (List.forall_mem_map.2 h)

theorem quoting_ite {c : Prop} [Decidable c] {a b : Findings} (ha : Quoting p r a)
    (hb : Quoting p r b) : Quoting p r (if c then a else b) := by
  split
  · exact ha
  · exact hb

/-- A citation quotes if it has no line or quotes it. -/
theorem quoting_citation {c : Citation} (h : Quoting p r (.citation c)) (e : Edge) :
    Quoting p r (.citedEdge e c) := h

/-- A citation that has one line of a text as its place quotes that line. -/
theorem quotes_of_onLine {path text : String} (hpath : path ∈ r.paths)
    (htext : p.content? r path = some text) {number : Nat} {line : Chars}
    (hline : OnLine text number line) {c : Citation} (hfile : c.filePath = some path)
    (hlines : c.lines = some (number.toUInt32, number.toUInt32))
    (hexcerpt : c.excerpt = lineExcerpt line) : Quotes p r c.evidence := by
  have hstart : c.evidence.lineStart = some number.toUInt32 := by
    simp [Citation.evidence, hlines]
  have hend : c.evidence.lineEnd = some number.toUInt32 := by
    simp only [Citation.evidence, hlines, Option.map_some, max, ite_self]
  refine ⟨path, hpath, text, htext, number, line, hline, hfile, hstart, hend, ?_, fun hfits => ?_⟩
  · rw [Citation.evidence, hexcerpt]
    exact String.toList_ofList
  · rw [hstart, hend, Option.map_some, hline.toNat_toUInt32 hfits]
    exact ⟨rfl, rfl⟩

/-- Citing the line that was found quotes it. -/
theorem quoting_atLine {c : Citation} {path : String} (hpath : path ∈ r.paths)
    (hfile : c.filePath = some path) (hnone : c.lines = none) {found : Option (UInt32 × Chars)}
    (hfound : ∀ l, found = some l → ∃ text, p.content? r path = some text ∧ Numbered text l)
    (fallback : Chars) : Quoting p r (.citation (c.atLine found fallback)) := by
  intro ev hev hcited
  obtain rfl := List.mem_singleton.1 hev
  cases found with
  | none =>
    exfalso
    simp [Citation.atLine, Citation.evidence, hnone] at hcited
  | some l =>
    obtain ⟨text, htext, number, hline, hword⟩ := hfound l rfl
    refine quotes_of_onLine hpath htext hline hfile ?_ rfl
    simp only [Citation.atLine, hword]

/-! ## Sites -/

/-- A line of a listed file whose text is known. -/
def Shown (p : Project) (r : Repository) (s : Site) : Prop :=
  s.path ∈ r.paths ∧ ∃ text, p.content? r s.path = some text ∧ OnLine text s.number s.line

theorem shown_of_mem_ofLines {nodeId path : String} (hpath : path ∈ r.paths) {s : Site}
    (h : s ∈ Site.ofLines nodeId path
      (((p.content? r path).map fun text => Text.lines text.toList).getD [])) : Shown p r s := by
  cases htext : p.content? r path with
  | none =>
    rw [htext] at h
    cases h
  | some text =>
    rw [htext] at h
    obtain ⟨rfl, hline⟩ := onLine_of_mem_ofLines h
    exact ⟨hpath, text, htext, hline⟩

theorem Shown.quoting {s : Site} (h : Shown p r s) (kind : EvidenceKind) :
    Quoting p r (.citation (s.citation kind)) := by
  obtain ⟨hpath, text, htext, hline⟩ := h
  intro ev hev _
  obtain rfl := List.mem_singleton.1 hev
  exact quotes_of_onLine hpath htext hline rfl rfl rfl

/-- An edge that is cited by the line. -/
theorem Shown.citedEdge {s : Site} (h : Shown p r s) (kind : EvidenceKind) (e : Edge) :
    Quoting p r (s.citedEdge kind e) := by
  obtain ⟨hpath, text, htext, hline⟩ := h
  intro ev hev _
  obtain rfl := List.mem_singleton.1 hev
  exact quotes_of_onLine hpath htext hline rfl rfl rfl

/-! ## The inventory -/

theorem quoting_malformed (place name : String) : Quoting p r (malformed place name) :=
  quoting_none rfl

theorem quoting_workspaceFile (p' : Project) (r' : Repository) :
    Quoting p r (workspaceFile p' r').2 := by
  unfold workspaceFile
  split
  · exact quoting_empty
  · split
    · exact quoting_empty
    · exact quoting_malformed _ _

theorem quoting_appFindings (repo label : String) (detail : AppDetail) :
    Quoting p r (appFindings repo label detail) := quoting_none rfl

/-- Manifests are listed files with their texts. -/
theorem mem_manifests {m : Manifest}
    (h : m ∈ (readings p r "package.json" PackageManifest.ofText?).filterMap Manifest.ofReading?) :
    m.path ∈ r.paths ∧ p.content? r m.path = some m.content := by
  obtain ⟨x, hx, hm⟩ := List.mem_filterMap.1 h
  obtain ⟨package, -, rfl⟩ := Option.map_eq_some_iff.1 hm
  obtain ⟨path, hpath, hread⟩ := List.mem_filterMap.1 hx
  obtain ⟨content, hcontent, rfl⟩ := Option.map_eq_some_iff.1 hread
  exact ⟨(List.mem_filter.1 hpath).1, hcontent⟩

theorem quoting_dependencyFindings {m : Manifest} (hpath : m.path ∈ r.paths)
    (hcontent : p.content? r m.path = some m.content) (repo : String) (d : Dependency) :
    Quoting p r (dependencyFindings repo m d) := by
  refine .append (quoting_node _) (quoting_citation (quoting_atLine hpath rfl rfl ?_ _) _)
  exact fun l hl => ⟨m.content, hcontent, numbered_of_findLine? hl⟩

theorem quoting_inventoryOf (p : Project) (r : Repository) : Quoting p r (inventoryOf p r) := by
  have hnotable : ∀ m ∈ (readings p r "package.json" PackageManifest.ofText?).filterMap
      Manifest.ofReading?, Quoting p r (notableFindings r.nodeId m) := by
    intro m hm
    obtain ⟨hpath, hcontent⟩ := mem_manifests hm
    exact quoting_concat_map fun d _ => quoting_dependencyFindings hpath hcontent _ d
  exact .append (.append (.append (.append (.append (.append
    (quoting_concat_map fun _ _ => quoting_malformed _ _)
    (quoting_concat_map fun _ _ => quoting_malformed _ _)) (quoting_workspaceFile p r))
    (quoting_node _)) (quoting_ite (quoting_appFindings _ _ _)
      (quoting_concat_map fun _ _ => quoting_appFindings _ _ _)))
    (quoting_concat_map fun _ _ => quoting_none rfl)) (quoting_concat_map hnotable)

/-! ## Screens -/

section
variable {s : Site}

theorem quoting_fetchesAt (hs : Shown p r s) (lines : List Chars) (lookahead : UInt64) :
    Quoting p r (fetchesAt lines lookahead s) :=
  quoting_concat_map fun _ _ => hs.citedEdge _ _

theorem quoting_clientCallsAt (hs : Shown p r s) : Quoting p r (clientCallsAt s) := by
  refine .append (quoting_concat_map fun m _ => ?_) (quoting_concat_map fun _ _ => hs.citedEdge _ _)
  split
  · exact hs.citedEdge _ _
  · exact quoting_empty

theorem quoting_linkAt (hs : Shown p r s) (screens : Route.Index) (repo raw via : String) :
    Quoting p r (linkAt screens repo s raw via) := by
  simp only [linkAt]
  split
  · exact quoting_empty
  · split
    · split
      · exact quoting_empty
      · exact hs.citedEdge _ _
    · exact quoting_empty

theorem quoting_linksAt (hs : Shown p r s) (screens : Route.Index) (repo : String) :
    Quoting p r (linksAt screens repo s) := by
  have hlink (raw via : String) := quoting_linkAt hs screens repo raw via
  exact .append (.append (.append (quoting_concat_map fun _ _ => hlink _ _)
    (quoting_concat_map fun _ _ => hlink _ _)) (quoting_concat_map fun _ _ => hlink _ _))
    (quoting_concat_map fun _ _ => hlink _ _)

theorem quoting_clientUseAt (hs : Shown p r s) : Quoting p r (clientUseAt s) := by
  simp only [clientUseAt]
  split
  · exact hs.quoting _
  · exact quoting_empty

theorem quoting_pageFindings {path : String} (hpath : path ∈ r.paths) (settings : AnalysisSettings)
    (apps : Apps) (screens : Route.Index) (repo : String) (screen : Node) :
    Quoting p r
      (pageFindings settings apps screens repo (p.content? r path) path screen) := by
  unfold pageFindings
  refine .append (.append (.append (quoting_atLine hpath rfl rfl (fun l hl => ?_) _)
    (quoting_node _)) (quoting_concat_map fun _ _ => quoting_containment _ _))
    (quoting_concat_map fun s hs => ?_)
  · obtain ⟨cs, hcs, hanchor⟩ := Option.bind_eq_some_iff.1 hl
    obtain ⟨text, htext, rfl⟩ := Option.map_eq_some_iff.1 hcs
    exact ⟨text, htext, numbered_of_pageAnchor? hanchor⟩
  · rw [Option.map_map] at hs
    have hshown := shown_of_mem_ofLines hpath hs
    exact .append (.append (.append (quoting_fetchesAt hshown _ _) (quoting_clientCallsAt hshown))
      (quoting_linksAt hshown _ _)) (quoting_clientUseAt hshown)

theorem quoting_screensOf (settings : AnalysisSettings) (p : Project) (g : Graph) (r : Repository) :
    Quoting p r (screensOf settings p g r) := by
  rw [screensOf_eq]
  exact quoting_concat_map fun page hpage =>
    quoting_pageFindings (mem_pagesOf.1 hpage).1 settings _ _ _ _

/-! ## Endpoints -/

theorem quoting_dataAt (hs : Shown p r s) (lines : List Chars) (lookahead : UInt64) (stop : Nat) :
    Quoting p r (dataAt lines lookahead stop s) := by
  unfold dataAt
  split
  · exact hs.citedEdge _ _
  · exact quoting_concat_map fun _ _ => hs.citedEdge _ _

theorem quoting_externalCall (hs : Shown p r s) (m : Match) : Quoting p r (externalCall s m) := by
  unfold externalCall
  split
  · exact quoting_empty
  · simp only
    split
    · exact quoting_empty
    · exact .append (quoting_node _) (hs.citedEdge _ _)

theorem quoting_clientConstruction (hs : Shown p r s) (m : Match) :
    Quoting p r (clientConstruction s m) := by
  unfold clientConstruction
  split
  · exact quoting_empty
  · exact .append (quoting_node _) (hs.citedEdge _ _)

theorem quoting_environmentAt (hs : Shown p r s) : Quoting p r (environmentAt s) := by
  unfold environmentAt
  split
  · exact hs.quoting _
  · exact quoting_empty

theorem quoting_handlerLine (hs : Shown p r s) (lines : List Chars) (lookahead : UInt64)
    (stop : Nat) : Quoting p r (handlerLine lines lookahead stop s) :=
  .append (.append (.append (.append (.append (quoting_dataAt hs _ _ _)
    (quoting_concat_map fun _ _ => hs.citedEdge _ _))
    (quoting_concat_map fun m _ => quoting_externalCall hs m))
    (quoting_concat_map fun m _ => quoting_clientConstruction hs m))
    (quoting_concat_map fun _ _ => hs.citedEdge _ _)) (quoting_environmentAt hs)

end

theorem quoting_handlerFindings {path : String} (hpath : path ∈ r.paths) (lookahead : UInt64)
    (apps : Apps) (repo : String) (handler : Route.HandlerFile) :
    Quoting p r (handlerFindings lookahead apps repo (p.content? r path) path handler) := by
  refine quoting_concat_map fun export_ _ => ?_
  refine .append (.append (.append (quoting_node _) (quoting_atLine hpath rfl rfl (fun l hl => ?_) _))
    (quoting_concat_map fun _ _ => quoting_containment _ _))
    (quoting_concat_map fun stretch _ => quoting_concat_map fun s hs => ?_)
  · obtain ⟨line, hline, rfl⟩ := Option.map_eq_some_iff.1 hl
    cases htext : p.content? r path with
    | none =>
      rw [htext] at hline
      cases hline
    | some text =>
      rw [htext] at hline
      exact ⟨text, rfl, _, onLine_of_getElem? hline, rfl⟩
  · have hsite := List.mem_of_mem_take (List.mem_of_mem_drop hs)
    exact quoting_handlerLine (shown_of_mem_ofLines hpath hsite) _ _ _

theorem quoting_endpointsOf (settings : AnalysisSettings) (p : Project) (g : Graph)
    (r : Repository) : Quoting p r (endpointsOf settings p g r) := by
  refine quoting_concat_map fun path hpath => ?_
  split
  · exact quoting_handlerFindings hpath _ _ _ _
  · exact quoting_empty

/-! ## Deployments -/

namespace PlatformUse

theorem mem_configs_insert {name path config : String} {u : PlatformUse} :
    ∀ {found : List PlatformUse}, u ∈ insert name path found → config ∈ u.configs →
      config = path ∨ ∃ v ∈ found, config ∈ v.configs
  | [], hu, hc => by
    obtain rfl := List.mem_singleton.1 hu
    exact .inl (List.mem_singleton.1 hc)
  | v :: rest, hu, hc => by
    rw [insert] at hu
    split at hu
    · rcases List.mem_cons.1 hu with rfl | hu
      · rcases List.mem_append.1 hc with hc | hc
        · exact .inr ⟨v, List.mem_cons_self, hc⟩
        · exact .inl (List.mem_singleton.1 hc)
      · exact .inr ⟨u, List.mem_cons_of_mem v hu, hc⟩
    · rcases List.mem_cons.1 hu with rfl | hu
      · exact .inr ⟨u, List.mem_cons_self, hc⟩
      · refine (mem_configs_insert hu hc).imp_right fun ⟨w, hw, hc⟩ => ?_
        exact ⟨w, List.mem_cons_of_mem v hw, hc⟩

/-- The configurations of platforms are listed files. -/
theorem mem_paths_of_configured {paths : List String} {u : PlatformUse} (hu : u ∈ configured paths)
    {config : String} (hc : config ∈ u.configs) : config ∈ paths := by
  have hlisted : ∀ v ∈ configured paths, ∀ c ∈ v.configs, c ∈ paths := by
    rw [configured]
    refine List.foldlRecOn
      (motive := fun found : List PlatformUse => ∀ v ∈ found, ∀ c ∈ v.configs, c ∈ paths)
      paths _ (by simp) ?_
    intro found hfound path hpath
    split
    · intro v hv c hc
      rcases mem_configs_insert hv hc with rfl | ⟨w, hw, hc⟩
      · exact hpath
      · exact hfound w hw c hc
    · exact hfound
  exact hlisted u hu config hc

theorem mem_paths_of_ofPaths {paths : List String} {u : PlatformUse} (hu : u ∈ ofPaths paths)
    {config : String} (hc : config ∈ u.configs) : config ∈ paths := by
  simp only [ofPaths] at hu
  split at hu
  · obtain ⟨entry, -, rfl⟩ := List.mem_map.1 (List.mem_filter.1 hu).1
    exact (List.mem_filter.1 hc).1
  · exact mem_paths_of_configured hu hc

end PlatformUse

theorem quoting_platformFindings {u : PlatformUse} (hu : u ∈ PlatformUse.ofPaths r.paths)
    (apps : Apps) (envVars : List String) : Quoting p r (platformFindings p r apps envVars u) := by
  refine .append (quoting_node _) (quoting_concat_map fun config hconfig => ?_)
  refine quoting_concat_map fun app _ => quoting_citation ?_ _
  refine quoting_atLine (PlatformUse.mem_paths_of_ofPaths hu hconfig) rfl rfl (fun l hl => ?_) _
  obtain ⟨text, htext, hline⟩ := Option.bind_eq_some_iff.1 hl
  exact ⟨text, htext, numbered_of_findLine? hline⟩

/-- Uses of variables are cited without a line. -/
theorem quoting_variableServices (source : String) (uses : List VariableUse) :
    Quoting p r (variableServices source uses) := by
  refine quoting_concat_map fun slug _ => ?_
  split
  · intro ev hev hcited
    obtain ⟨use, -, rfl⟩ := List.mem_map.1 hev
    simp [Citation.evidence] at hcited
  · exact quoting_empty

theorem quoting_packageServices {path content : String} (hpath : path ∈ r.paths)
    (hcontent : p.content? r path = some content) : Quoting p r (packageServices path content) := by
  refine quoting_concat_map fun entry _ => ?_
  obtain ⟨start, slug⟩ := entry
  simp only
  split
  · refine .append (quoting_node _) (quoting_atLine hpath rfl rfl (fun l hl => ?_) _)
    exact ⟨content, hcontent, numbered_of_findLine? hl⟩
  · exact quoting_empty

theorem quoting_cronFindings {config content : String} (hconfig : config ∈ r.paths)
    (hcontent : p.content? r config = some content) (repo : String) (apps : Apps)
    (endpoints : Route.Index) (u : PlatformUse) (cron : Cron) :
    Quoting p r (cronFindings repo apps endpoints u config content cron) := by
  have hcited (c : Citation) (hfile : c.filePath = some config) (hlines : c.lines = none) :
      Quoting p r (.citation (c.atLine
        (Text.findLine? (Text.contains cron.path.toList) content.toList) cron.path.toList)) :=
    quoting_atLine hconfig hfile hlines
      (fun l hl => ⟨content, hcontent, numbered_of_findLine? hl⟩) _
  exact .append (.append (.append (quoting_node _) (quoting_citation (hcited _ rfl rfl) _))
    (quoting_citation (hcited _ rfl rfl) _))
    (quoting_concat_map fun _ _ => quoting_containment _ _)

theorem quoting_scheduled {u : PlatformUse} (hu : u ∈ PlatformUse.ofPaths r.paths) (apps : Apps)
    (endpoints : Route.Index) : Quoting p r (scheduled p r apps endpoints u) := by
  refine quoting_concat_map fun config hconfig => ?_
  split
  · exact quoting_empty
  · next content hcontent =>
    split
    · exact quoting_concat_map fun cron _ => quoting_cronFindings
        (PlatformUse.mem_paths_of_ofPaths hu hconfig) hcontent _ _ _ _ cron
    · exact quoting_malformed _ _

theorem quoting_deploymentOf (p : Project) (g : Graph) (endpoints : Route.Index) (r : Repository) :
    Quoting p r (deploymentOf p g endpoints r) := by
  refine .append (.append (.append
    (quoting_concat_map fun u hu => quoting_platformFindings hu _ _)
    (quoting_variableServices _ _)) (quoting_concat fun f hf => ?_))
    (quoting_concat_map fun u hu => quoting_scheduled ?_ _ _)
  · obtain ⟨path, hpath, hf⟩ := List.mem_filterMap.1 hf
    obtain ⟨content, hcontent, rfl⟩ := Option.map_eq_some_iff.1 hf
    exact quoting_packageServices (List.mem_filter.1 hpath).1 hcontent
  · exact List.mem_of_find?_eq_some (Option.mem_toList.1 hu)

/-! ## Stages -/

/-- What a stage cites, it cites in one repository after the other. -/
theorem evidence_foundIn (t : Task) (g : Graph) {stage : Stage} (h : stage ≠ .database) :
    (t.findings g stage).evidence =
      t.project.repositories.flatMap fun r => (t.foundIn g r stage).evidence := by
  cases stage with
  | database => exact absurd rfl h
  | features => simp [Task.findings, features, Task.foundIn, Findings.empty]
  | endpoints =>
    rw [findings_endpoints, Findings.evidence_append]
    exact (List.append_nil _).trans (List.flatMap_map _ _ _)
  | inventory | screens | deployment => exact List.flatMap_map _ _ _

/-- **Lines are quoted exactly.** The inventory and the stages of screens, endpoints and deployments
go by repositories, and what they cite in one of them with the number of a line quotes a line of a
file of that repository. -/
theorem lines_quoted (t : Task) (g : Graph) {stage : Stage} (h : stage ≠ .database) :
    ((t.findings g stage).evidence =
      t.project.repositories.flatMap fun r => (t.foundIn g r stage).evidence) ∧
    ∀ r, ∀ ev ∈ (t.foundIn g r stage).evidence,
      ev.lineStart.isSome ∨ ev.lineEnd.isSome → Quotes t.project r ev := by
  refine ⟨evidence_foundIn t g h, fun r => ?_⟩
  cases stage with
  | inventory => exact quoting_inventoryOf t.project r
  | screens => exact quoting_screensOf t.settings.analysis t.project g r
  | endpoints => exact quoting_endpointsOf t.settings.analysis t.project g r
  | deployment => exact quoting_deploymentOf t.project g _ r
  | database => exact absurd rfl h
  | features => simp [Task.foundIn, Findings.empty]

/-- A handler that is exported behind a remark, on a line that ends in a carriage return. -/
def remarkedHandler : Task where
  project := {
    id := "p"
    repositories := [.ofPaths "r" "o" "n" ["pages/api/x.js"]]
    contents := .ofList
      [("pages/api/x.js", "// reads\r\nexport function GET() \x7b\r\n  \x7d\r\n")] }
  settings := .default
  catalog := []

theorem remarkedHandler_quoted : Stage.endpoints ≠ .database ∧
    (remarkedHandler.findings .empty .endpoints).evidence.map (·.lineStart) = [some 2] ∧
    ∀ ev ∈ (remarkedHandler.findings .empty .endpoints).evidence,
      Quotes remarkedHandler.project (.ofPaths "r" "o" "n" ["pages/api/x.js"]) ev := by
  have hstage : Stage.endpoints ≠ .database := by decide
  obtain ⟨hevidence, hquotes⟩ := lines_quoted remarkedHandler .empty hstage
  have hlines : (remarkedHandler.findings .empty .endpoints).evidence.map (·.lineStart) =
      [some 2] := by decide +kernel
  refine ⟨hstage, hlines, fun ev hev => hquotes _ ev ?_ (.inl ?_)⟩
  · rw [hevidence] at hev
    obtain ⟨r, hr, hmem⟩ := List.mem_flatMap.1 hev
    exact List.mem_singleton.1 hr ▸ hmem
  · have hline := List.mem_map_of_mem (f := Evidence.lineStart) hev
    rw [hlines, List.mem_singleton] at hline
    rw [hline]
    rfl

end ArchGraph.Discovery
