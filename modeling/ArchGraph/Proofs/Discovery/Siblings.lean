import ArchGraph.Discovery.Inventory
import ArchGraph.Proofs.Path.Names
import Mathlib.Data.List.Basic
/-!
# Frameworks of an app and of its siblings

Which frameworks are detected below a directory is decided by the files there that mark one and by
the package manifests there, and both are told apart by whole names. Crates are told apart by
characters: those of `apps/web-api` count for `apps/web` too. Crates below the directory itself
never matter, because their manifests mark a framework on their own. So corpora that agree below a
directory get the same frameworks there exactly if a file there marks one, or the crates beside it
declare the same packages (`frameworks_agree_iff`). `framework_of_sibling` is the app that gets the
framework of a crate beside it.
-/

namespace ArchGraph.Discovery

/-! ## What is read of a corpus -/

/-- The package manifests of a repository that can be read. -/
def manifestsOf (p : Project) (r : Repository) : List Manifest :=
  (readings p r "package.json" PackageManifest.ofText?).filterMap Manifest.ofReading?

/-- The crates of a repository whose manifests can be read. -/
def cratesOf (p : Project) (r : Repository) : Crates :=
  (readings p r "Cargo.toml" Cargo.dependencyNames?).filterMap fun c =>
    c.value.map fun names => (Path.parent c.path, names)

/-- The frameworks that are detected below a directory of a repository. -/
def frameworksIn (p : Project) (r : Repository) (dir : String) : List String :=
  frameworks r.paths (manifestsOf p r) (cratesOf p r) dir

/-- Two corpora agree below a directory: they list the same paths there, with the same contents. -/
structure AgreeUnder (dir : String) (p : Project) (r : Repository) (p' : Project)
    (r' : Repository) : Prop where
  listed  : ∀ path, Path.isUnder path dir = true → (path ∈ r.paths ↔ path ∈ r'.paths)
  content : ∀ path ∈ r.paths, Path.isUnder path dir = true →
    p.content? r path = p'.content? r' path

/-- A file below a directory marks a framework by the start of its name. -/
def Marks (r : Repository) (dir marker : String) : Prop :=
  ∃ path ∈ r.paths, Path.isUnder path dir = true ∧ marker.toList <+: (Path.fileName path).toList

/-- A package manifest below a directory depends on another package. -/
def Declares (p : Project) (r : Repository) (dir name : String) : Prop :=
  ∃ path ∈ r.paths, Path.isUnder path dir = true ∧ Path.fileName path = "package.json" ∧
    ∃ package, (p.content? r path).bind PackageManifest.ofText? = some package ∧
      package.dependsOn name = true

/-- A directory beside another one: its path goes on behind the other's without a slash. -/
def Beside (other dir : String) : Prop :=
  ∃ c rest, other.toList = dir.toList ++ c :: rest ∧ c ≠ '/'

/-- A crate beside a directory depends on a package. -/
def DeclaresBeside (p : Project) (r : Repository) (dir name : String) : Prop :=
  ∃ path ∈ r.paths, Path.fileName path = "Cargo.toml" ∧ Beside (Path.parent path) dir ∧
    ∃ names, (p.content? r path).bind Cargo.dependencyNames? = some names ∧ name ∈ names

section

variable {α : Type} {p : Project} {r : Repository} {dir : String}

theorem mem_readings {name : String} {read : String → Option α} {x : Reading α} :
    x ∈ readings p r name read ↔ x.path ∈ r.paths ∧ Path.fileName x.path = name ∧
      p.content? r x.path = some x.content ∧ x.value = read x.content := by
  unfold readings
  simp only [List.mem_filterMap, List.mem_filter, decide_eq_true_eq, Option.map_eq_some_iff]
  constructor
  · rintro ⟨path, ⟨hpath, hname⟩, text, htext, rfl⟩
    exact ⟨hpath, hname, htext, rfl⟩
  · rintro ⟨hpath, hname, htext, hvalue⟩
    refine ⟨x.path, ⟨hpath, hname⟩, x.content, htext, ?_⟩
    rw [← hvalue]

theorem mem_manifestsOf {m : Manifest} : m ∈ manifestsOf p r ↔ m.path ∈ r.paths ∧
    Path.fileName m.path = "package.json" ∧ p.content? r m.path = some m.content ∧
      PackageManifest.ofText? m.content = some m.package := by
  unfold manifestsOf
  simp only [List.mem_filterMap, mem_readings, Manifest.ofReading?, Option.map_eq_some_iff]
  constructor
  · rintro ⟨x, ⟨hpath, hname, htext, hvalue⟩, package, hpackage, rfl⟩
    exact ⟨hpath, hname, htext, hvalue ▸ hpackage⟩
  · rintro ⟨hpath, hname, htext, hpackage⟩
    exact ⟨⟨m.path, m.content, some m.package⟩, ⟨hpath, hname, htext, hpackage.symm⟩, m.package,
      rfl, rfl⟩

theorem mem_cratesOf {crate : String × List String} : crate ∈ cratesOf p r ↔
    ∃ path ∈ r.paths, Path.fileName path = "Cargo.toml" ∧ Path.parent path = crate.1 ∧
      (p.content? r path).bind Cargo.dependencyNames? = some crate.2 := by
  unfold cratesOf
  simp only [List.mem_filterMap, mem_readings, Option.map_eq_some_iff]
  constructor
  · rintro ⟨x, ⟨hpath, hname, htext, hvalue⟩, names, hnames, rfl⟩
    refine ⟨x.path, hpath, hname, rfl, ?_⟩
    rw [htext, Option.bind_some, ← hvalue, hnames]
  · rintro ⟨path, hpath, hname, hparent, hnames⟩
    obtain ⟨text, htext, hread⟩ := Option.bind_eq_some_iff.1 hnames
    refine ⟨⟨path, text, Cargo.dependencyNames? text⟩, ⟨hpath, hname, htext, rfl⟩, crate.2, hread,
      ?_⟩
    simp only [hparent]

/-! ## What decides -/

/-- The frameworks that files below a directory mark. -/
def markedIn (r : Repository) (dir : String) : List (String × String) :=
  Framework.byMarker.filter fun entry =>
    ((r.paths.filter (Path.isUnder · dir)).map Path.fileName).any fun name =>
      entry.1.toList.isPrefixOf name.toList

/-- The frameworks that manifests declare for a directory. -/
def declaredIn (p : Project) (r : Repository) (dir : String) : List (String × String) :=
  Framework.byDependency.filter fun entry =>
    ((manifestsOf p r).filter (Path.isUnder ·.path dir)).any (·.package.dependsOn entry.1) ||
      ((cratesOf p r).filter fun crate => dir.toList.isPrefixOf crate.1.toList).any
        (·.2.contains entry.1)

theorem frameworksIn_eq (p : Project) (r : Repository) (dir : String) : frameworksIn p r dir =
    ((if (markedIn r dir).isEmpty then declaredIn p r dir else markedIn r dir).map
      (·.2)).eraseDups := rfl

theorem mem_markedIn {entry : String × String} :
    entry ∈ markedIn r dir ↔ entry ∈ Framework.byMarker ∧ Marks r dir entry.1 := by
  unfold markedIn Marks
  rw [List.mem_filter]
  apply and_congr_right'
  simp only [List.any_eq_true, List.mem_map, List.mem_filter, List.isPrefixOf_iff_prefix]
  constructor
  · rintro ⟨_, ⟨path, ⟨hpath, hunder⟩, rfl⟩, hstart⟩
    exact ⟨path, hpath, hunder, hstart⟩
  · rintro ⟨path, hpath, hunder, hstart⟩
    exact ⟨_, ⟨path, ⟨hpath, hunder⟩, rfl⟩, hstart⟩

/-- The manifest of a crate marks a framework. -/
theorem marks_of_crate {path : String} (hpath : path ∈ r.paths)
    (hunder : Path.isUnder path dir = true) (hname : Path.fileName path = "Cargo.toml") :
    Marks r dir "Cargo.toml" :=
  ⟨path, hpath, hunder, hname ▸ List.prefix_rfl⟩

theorem any_manifestsOf_iff {name : String} :
    ((manifestsOf p r).filter (Path.isUnder ·.path dir)).any (·.package.dependsOn name) = true ↔
      Declares p r dir name := by
  unfold Declares
  simp only [List.any_eq_true, List.mem_filter, mem_manifestsOf]
  constructor
  · rintro ⟨m, ⟨⟨hpath, hname, htext, hread⟩, hunder⟩, hdepends⟩
    exact ⟨m.path, hpath, hunder, hname, m.package, by rw [htext]; exact hread, hdepends⟩
  · rintro ⟨path, hpath, hunder, hname, package, hpackage, hdepends⟩
    obtain ⟨text, htext, hread⟩ := Option.bind_eq_some_iff.1 hpackage
    exact ⟨⟨path, text, package⟩, ⟨⟨hpath, hname, htext, hread⟩, hunder⟩, hdepends⟩

/-- A manifest of a crate whose directory starts with the characters of another one lies below the
other one or in a directory beside it. -/
theorem isUnder_or_beside {path : String} (hroot : dir ≠ "") (hdot : dir ≠ ".")
    (h : dir.toList <+: (Path.parent path).toList) :
    Path.isUnder path dir = true ∨ Beside (Path.parent path) dir := by
  obtain ⟨suffix, hsuffix⟩ := h
  have hparent : Path.parent path ≠ "" := by
    intro hempty
    rw [hempty] at hsuffix
    have hnil := (List.append_eq_nil_iff.1 hsuffix).1
    exact hroot (String.toList_eq_nil_iff.1 hnil)
  have hpath := congrArg String.toList (Path.eq_parent_append hparent)
  rw [String.toList_append, String.toList_append, ← hsuffix] at hpath
  rw [Path.isUnder_iff hroot hdot]
  cases suffix with
  | nil => exact .inl ⟨(Path.fileName path).toList, by simpa using hpath⟩
  | cons c rest =>
    by_cases hc : c = '/'
    · subst hc
      exact .inl ⟨rest ++ '/' :: (Path.fileName path).toList, by simpa using hpath⟩
    · exact .inr ⟨c, rest, hsuffix.symm, hc⟩

/-- Where no file marks a framework, no crate lies below the directory, and those that count are
beside it. -/
theorem mem_declaredIn (hroot : dir ≠ "") (hdot : dir ≠ ".") (hmarked : markedIn r dir = [])
    {entry : String × String} : entry ∈ declaredIn p r dir ↔ entry ∈ Framework.byDependency ∧
      (Declares p r dir entry.1 ∨ DeclaresBeside p r dir entry.1) := by
  have hunmarked : ∀ path ∈ r.paths, Path.fileName path = "Cargo.toml" →
      Path.isUnder path dir = false := by
    intro path hpath hname
    by_contra hunder
    have hmem : ("Cargo.toml", "Rust") ∈ markedIn r dir :=
      mem_markedIn.2 ⟨by decide, marks_of_crate hpath (by simpa using hunder) hname⟩
    rw [hmarked] at hmem
    cases hmem
  unfold declaredIn
  rw [List.mem_filter, Bool.or_eq_true, any_manifestsOf_iff]
  apply and_congr_right'
  apply or_congr_right
  simp only [List.any_eq_true, List.mem_filter, mem_cratesOf, List.isPrefixOf_iff_prefix,
    List.contains_iff_mem]
  constructor
  · rintro ⟨crate, ⟨⟨path, hpath, hname, hparent, hnames⟩, hstart⟩, hmem⟩
    rw [← hparent] at hstart
    rcases isUnder_or_beside hroot hdot hstart with hunder | hbeside
    · rw [hunmarked path hpath hname] at hunder
      cases hunder
    · exact ⟨path, hpath, hname, hbeside, crate.2, hnames, hmem⟩
  · rintro ⟨path, hpath, hname, hbeside, names, hnames, hmem⟩
    obtain ⟨c, rest, hrest, -⟩ := hbeside
    exact ⟨(Path.parent path, names), ⟨⟨path, hpath, hname, rfl, hnames⟩, c :: rest, hrest.symm⟩,
      hmem⟩

end

/-! ## Corpora that agree -/

section

variable {p p' : Project} {r r' : Repository} {dir : String}

theorem AgreeUnder.symm (h : AgreeUnder dir p r p' r') : AgreeUnder dir p' r' p r where
  listed path hunder := (h.listed path hunder).symm
  content path hpath hunder := (h.content path ((h.listed path hunder).2 hpath) hunder).symm

theorem AgreeUnder.marks (h : AgreeUnder dir p r p' r') {marker : String}
    (hmarks : Marks r dir marker) : Marks r' dir marker := by
  obtain ⟨path, hpath, hunder, hstart⟩ := hmarks
  exact ⟨path, (h.listed path hunder).1 hpath, hunder, hstart⟩

theorem AgreeUnder.declares (h : AgreeUnder dir p r p' r') {name : String}
    (hdeclares : Declares p r dir name) : Declares p' r' dir name := by
  obtain ⟨path, hpath, hunder, hname, package, hpackage, hdepends⟩ := hdeclares
  rw [h.content path hpath hunder] at hpackage
  exact ⟨path, (h.listed path hunder).1 hpath, hunder, hname, package, hpackage, hdepends⟩

/-- What is kept of a list is decided by its members. -/
theorem filter_eq_filter {α : Type} {f g : α → Bool} {l : List α}
    (h : ∀ a ∈ l, a ∈ l.filter f ↔ a ∈ l.filter g) : l.filter f = l.filter g := by
  apply List.filter_congr
  intro a ha
  have hiff := h a ha
  rw [List.mem_filter, List.mem_filter, and_iff_right ha, and_iff_right ha] at hiff
  exact Bool.eq_iff_iff.2 hiff

theorem AgreeUnder.markedIn_eq (h : AgreeUnder dir p r p' r') :
    markedIn r dir = markedIn r' dir := by
  apply filter_eq_filter
  intro entry _
  have hiff : entry ∈ markedIn r dir ↔ entry ∈ markedIn r' dir := by
    rw [mem_markedIn, mem_markedIn]
    exact and_congr_right' ⟨h.marks, h.symm.marks⟩
  exact hiff

/-- No two packages stand for one framework. -/
theorem byDependency_injective : ∀ entry ∈ Framework.byDependency,
    ∀ other ∈ Framework.byDependency, entry.2 = other.2 → entry = other := by
  decide +kernel

/-- What is declared can be told from the frameworks that it is reported as. -/
theorem mem_declaredIn_iff_reported {entry : String × String}
    (hentry : entry ∈ Framework.byDependency) :
    entry ∈ declaredIn p r dir ↔ entry.2 ∈ ((declaredIn p r dir).map (·.2)).eraseDups := by
  rw [List.mem_eraseDups, List.mem_map]
  constructor
  · intro h
    exact ⟨entry, h, rfl⟩
  · rintro ⟨other, hother, hname⟩
    obtain rfl := byDependency_injective other (List.mem_of_mem_filter hother) entry hentry hname
    exact hother

/-! ## What the inventory reports -/

@[simp] theorem nodes_malformedReadings {α : Type} (name : String) (rs : List (Reading α)) :
    (malformedReadings name rs).nodes = [] := by
  rw [List.eq_nil_iff_forall_not_mem]
  intro n hn
  obtain ⟨x, -, hn⟩ := Findings.mem_nodes_concat_map.1 hn
  cases hn

@[simp] theorem nodes_workspaceFile (p : Project) (r : Repository) :
    (workspaceFile p r).2.nodes = [] := by
  unfold workspaceFile
  split
  · rfl
  · split
    · rfl
    · rfl

/-- The globs that the manifest at the root of a repository declares. -/
def declaredGlobs (p : Project) (r : Repository) : List String :=
  (((manifestsOf p r).find? (·.dir = "")).map (·.package.workspaces)).getD []

/-- The globs of the members of a workspace that a repository lists. -/
def listedGlobs (p : Project) (r : Repository) : List String :=
  (workspaceFile p r).1 ++ declaredGlobs p r

/-- The manifests of the members of a workspace. -/
def membersOf (p : Project) (r : Repository) : List Manifest :=
  workspaceMembers (manifestsOf p r) (listedGlobs p r)

/-- What is reported of a repository. -/
def repoDetail (p : Project) (r : Repository) : RepoDetail where
  owner := r.owner
  name := r.name
  provider := r.provider
  defaultBranch := r.defaultBranch
  frameworks := frameworksIn p r ""
  language := dominantLanguage? r ""
  monorepo := (workspaceTool? r (declaredGlobs p r)).isSome || !(membersOf p r).isEmpty
  monorepoTool := workspaceTool? r (declaredGlobs p r)

/-- What is reported of an app of a workspace. -/
def memberApp (p : Project) (r : Repository) (m : Manifest) : AppDetail :=
  ⟨m.dir, (frameworksIn p r m.dir).head?, dominantLanguage? r m.dir⟩

/-- What is reported of the apps of a repository. Without any it is an app itself. -/
def appDetails (p : Project) (r : Repository) : List AppDetail :=
  let apps := (membersOf p r).filter (!·.isLibrary)
  if apps.isEmpty then [⟨".", (frameworksIn p r "").head?, dominantLanguage? r "."⟩]
  else apps.map (memberApp p r)

/-- What is reported of the libraries of a workspace. -/
def libraryDetails (p : Project) (r : Repository) : List PackageDetail :=
  ((membersOf p r).filter (·.isLibrary)).map fun m => ⟨m.label, m.package.version, "workspace"⟩

/-- What is reported of the packages that manifests depend on. -/
def notableDetails (p : Project) (r : Repository) : List PackageDetail :=
  (manifestsOf p r).flatMap fun m =>
    (m.package.allDependencies.filter fun d => Workspace.notablePackages.contains d.name).map
      fun d => ⟨d.name, d.version, "npm"⟩

/-- The nodes of findings that are put behind each other. -/
theorem details_concat_map {α : Type} (find : α → Findings) (l : List α) :
    (Findings.concat (l.map find)).nodes.map (·.detail) =
      l.flatMap fun a => (find a).nodes.map (·.detail) := by
  simp [Findings.concat, List.flatMap_map, List.map_flatMap]

/-- **What the inventory of a repository reports**: the repository, its apps, its libraries and the
notable packages. -/
theorem details_inventoryOf (p : Project) (r : Repository) :
    (inventoryOf p r).nodes.map (·.detail) = .repo (repoDetail p r) :: (appDetails p r).map .app ++
      (libraryDetails p r).map .package ++ (notableDetails p r).map .package := by
  have happs (label : String) : (if ((membersOf p r).filter (!·.isLibrary)).isEmpty then
        appFindings r.nodeId label ⟨".", (frameworksIn p r "").head?, dominantLanguage? r "."⟩
      else .concat (((membersOf p r).filter (!·.isLibrary)).map fun m =>
        appFindings r.nodeId m.label (memberApp p r m))).nodes.map (·.detail) =
      (appDetails p r).map .app := by
    unfold appDetails
    dsimp only
    split
    · rfl
    · rw [details_concat_map, List.map_map, ← List.flatMap_pure_eq_map]
      rfl
  have hlibraries : ((membersOf p r).filter (·.isLibrary)).flatMap (fun m =>
      (libraryFindings r.nodeId m).nodes.map (·.detail)) = (libraryDetails p r).map .package := by
    unfold libraryDetails
    rw [List.map_map, ← List.flatMap_pure_eq_map]
    rfl
  have hnotable : (manifestsOf p r).flatMap (fun m =>
      (notableFindings r.nodeId m).nodes.map (·.detail)) = (notableDetails p r).map .package := by
    unfold notableDetails
    rw [List.map_flatMap]
    refine List.flatMap_congr fun m _ => ?_
    rw [notableFindings, details_concat_map, List.map_map, ← List.flatMap_pure_eq_map]
    rfl
  rw [← hnotable, ← hlibraries, ← happs]
  unfold inventoryOf
  simp only [Findings.nodes_append, nodes_malformedReadings, nodes_workspaceFile, List.nil_append,
    List.map_append, details_concat_map]
  rfl

theorem detail_found_iff {d : NodeDetail} : (∃ n ∈ (inventoryOf p r).nodes, n.detail = d) ↔
    d ∈ .repo (repoDetail p r) :: (appDetails p r).map .app ++ (libraryDetails p r).map .package ++
      (notableDetails p r).map .package := by
  rw [← details_inventoryOf, List.mem_map]

theorem repo_found_iff {d : RepoDetail} :
    (∃ n ∈ (inventoryOf p r).nodes, n.detail = .repo d) ↔ d = repoDetail p r := by
  simp [detail_found_iff]

theorem app_found_iff {d : AppDetail} :
    (∃ n ∈ (inventoryOf p r).nodes, n.detail = .app d) ↔ d ∈ appDetails p r := by
  simp [detail_found_iff]

theorem package_found_iff {d : PackageDetail} :
    (∃ n ∈ (inventoryOf p r).nodes, n.detail = .package d) ↔
      d ∈ libraryDetails p r ∨ d ∈ notableDetails p r := by
  simp [detail_found_iff]

/-- The framework of an app below the root is the first one that is detected below its directory. -/
theorem framework_of_app {n : Node} (hn : n ∈ (inventoryOf p r).nodes) {app : AppDetail}
    (happ : n.detail = .app app) (hdot : app.root ≠ ".") :
    app.framework = (frameworksIn p r app.root).head? := by
  have hmem := app_found_iff.1 ⟨n, hn, happ⟩
  unfold appDetails at hmem
  dsimp only at hmem
  split at hmem
  · rw [List.mem_singleton.1 hmem] at hdot
    exact absurd rfl hdot
  · obtain ⟨m, -, rfl⟩ := List.mem_map.1 hmem
    rfl

/-- **What decides about the frameworks below a directory.** Corpora that agree below a directory
get the same frameworks there, of which an app there is given the first, exactly if a file there
marks a framework, or the crates beside the directory declare the same packages of those that no
package manifest there declares. -/
theorem frameworks_agree_iff (hroot : dir ≠ "") (hdot : dir ≠ ".")
    (h : AgreeUnder dir p r p' r') :
    (∀ n ∈ (inventoryOf p r).nodes, ∀ app, n.detail = .app app → app.root = dir →
      app.framework = (frameworksIn p r dir).head?) ∧
    (frameworksIn p r dir = frameworksIn p' r' dir ↔
      (∃ entry ∈ Framework.byMarker, Marks r dir entry.1) ∨
        ∀ entry ∈ Framework.byDependency, ¬Declares p r dir entry.1 →
          (DeclaresBeside p r dir entry.1 ↔ DeclaresBeside p' r' dir entry.1)) := by
  constructor
  · rintro n hn app happ rfl
    exact framework_of_app hn happ hdot
  · have hmarked := h.markedIn_eq
    rw [frameworksIn_eq, frameworksIn_eq, ← hmarked]
    by_cases hnone : markedIn r dir = []
    · have hunmarked : ¬∃ entry ∈ Framework.byMarker, Marks r dir entry.1 := by
        rintro ⟨entry, hentry, hmarks⟩
        have hmem := mem_markedIn.2 ⟨hentry, hmarks⟩
        rw [hnone] at hmem
        cases hmem
      have hdeclares {name : String} : Declares p r dir name ↔ Declares p' r' dir name :=
        ⟨h.declares, h.symm.declares⟩
      rw [hnone, List.isEmpty_nil, if_pos rfl, if_pos rfl, or_iff_right hunmarked]
      constructor
      · intro heq entry hentry hown
        have hiff : entry ∈ declaredIn p r dir ↔ entry ∈ declaredIn p' r' dir := by
          rw [mem_declaredIn_iff_reported hentry, mem_declaredIn_iff_reported hentry, heq]
        rw [mem_declaredIn hroot hdot hnone, mem_declaredIn hroot hdot (hmarked ▸ hnone),
          and_iff_right hentry, and_iff_right hentry, or_iff_right hown,
          or_iff_right (mt hdeclares.2 hown)] at hiff
        exact hiff
      · intro hbeside
        have heq : declaredIn p r dir = declaredIn p' r' dir := by
          apply filter_eq_filter
          intro entry hentry
          have hiff : entry ∈ declaredIn p r dir ↔ entry ∈ declaredIn p' r' dir := by
            rw [mem_declaredIn hroot hdot hnone, mem_declaredIn hroot hdot (hmarked ▸ hnone),
              and_iff_right hentry, and_iff_right hentry, ← hdeclares]
            by_cases hown : Declares p r dir entry.1
            · simp only [hown, true_or]
            · rw [or_iff_right hown, or_iff_right hown]
              exact hbeside entry hentry hown
          exact hiff
        rw [heq]
    · obtain ⟨entry, hentry⟩ := List.exists_mem_of_ne_nil _ hnone
      have hmarks := mem_markedIn.1 hentry
      rw [List.isEmpty_eq_false_iff.2 hnone]
      simp only [Bool.false_eq_true, if_false, true_iff]
      exact .inl ⟨entry, hmarks⟩

end

/-- A repository with an app and a crate of which nothing but the manifest matters. -/
def appAndCrate (crate manifest : String) : Project where
  id := "p"
  repositories := [.ofPaths "r" "o" "n" ["apps/web/package.json", crate ++ "/Cargo.toml"]]
  contents := .ofList [("apps/web/package.json", "\x7b\x7d"), (crate ++ "/Cargo.toml", manifest)]

/-- The crate of another app does not matter. -/
theorem frameworks_agree_api :
    let p := appAndCrate "apps/api" "[dependencies]\naxum = \"0.7\""
    let p' := appAndCrate "apps/api" ""
    ∃ r ∈ p.repositories, ∃ r' ∈ p'.repositories, AgreeUnder "apps/web" p r p' r' ∧
      frameworksIn p r "apps/web" = frameworksIn p' r' "apps/web" := by
  intro p p'
  let r : Repository := .ofPaths "r" "o" "n" ["apps/web/package.json", "apps/api/Cargo.toml"]
  have hagree : AgreeUnder "apps/web" p r p' r := ⟨fun _ _ => Iff.rfl, by decide +kernel⟩
  have hapart : ∀ path ∈ r.paths, Path.fileName path = "Cargo.toml" →
      ¬"apps/web".toList <+: (Path.parent path).toList := by decide +kernel
  have hnone (q : Project) (name : String) : ¬DeclaresBeside q r "apps/web" name := by
    rintro ⟨path, hpath, hname, ⟨c, rest, hrest, -⟩, -⟩
    exact hapart path hpath hname ⟨c :: rest, hrest.symm⟩
  refine ⟨r, List.mem_singleton_self _, r, List.mem_singleton_self _, hagree, ?_⟩
  refine (frameworks_agree_iff (by decide) (by decide) hagree).2.2 (.inr ?_)
  intro entry _ _
  exact iff_of_false (hnone p _) (hnone p' _)

/-- **An app gets the framework of a crate beside it.** Nothing but the manifest of a crate differs,
which lies below `apps/web-api` and not below `apps/web`. -/
theorem framework_of_sibling :
    let p := appAndCrate "apps/web-api" "[dependencies]\naxum = \"0.7\""
    let p' := appAndCrate "apps/web-api" ""
    ∃ r ∈ p.repositories, ∃ r' ∈ p'.repositories, AgreeUnder "apps/web" p r p' r' ∧
      frameworksIn p r "apps/web" = ["Axum"] ∧ frameworksIn p' r' "apps/web" = [] ∧
        ∃ n ∈ (inventoryOf p r).nodes, n.detail = .app ⟨"apps/web", some "Axum", none⟩ := by
  intro p p'
  let r : Repository := .ofPaths "r" "o" "n" ["apps/web/package.json", "apps/web-api/Cargo.toml"]
  refine ⟨r, List.mem_singleton_self _, r, List.mem_singleton_self _, ?_, ?_, ?_, ?_⟩
  · exact ⟨fun _ _ => Iff.rfl, by decide +kernel⟩
  · decide +kernel
  · decide +kernel
  · decide +kernel

end ArchGraph.Discovery
