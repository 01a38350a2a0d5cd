import ArchGraph.Proofs.Discovery.Siblings
/-!
# Members of a workspace

A manifest below the root of a repository makes its directory a member of the workspace if one of
the listed globs accepts it; without any glob that is listed the defaults count. A negated glob
accepts nothing and is not looked at otherwise, so it takes nothing away from what the other globs
accept: the inventory has an app or a library for every manifest in a directory that one of them
accepts (`members_found_iff`). `excluded_app_found` is a member that is excluded and found all the
same.
-/

namespace ArchGraph.Discovery

/-- The globs that decide about the members of a workspace. -/
def workspaceGlobs (p : Project) (r : Repository) : List String :=
  if (listedGlobs p r).isEmpty then Workspace.defaultGlobs else listedGlobs p r

/-- Some glob that is not negated accepts a directory below the root. -/
def Included (p : Project) (r : Repository) (dir : String) : Prop :=
  dir ≠ "" ∧ ∃ glob ∈ workspaceGlobs p r,
    glob.toList.head? ≠ some '!' ∧ Glob.accepts glob dir = true

/-- A negated glob is listed, and what it negates accepts a directory. -/
def Excluded (p : Project) (r : Repository) (dir : String) : Prop :=
  ∃ glob, "!" ++ glob ∈ listedGlobs p r ∧ Glob.accepts glob dir = true

/-- The inventory has an app that is rooted at a directory. -/
def HasApp (p : Project) (r : Repository) (dir : String) : Prop :=
  ∃ n ∈ (inventoryOf p r).nodes, ∃ app, n.detail = .app app ∧ app.root = dir

/-- The inventory has a library of the workspace under a name. -/
def HasLibrary (p : Project) (r : Repository) (name : String) : Prop :=
  ∃ n ∈ (inventoryOf p r).nodes, ∃ version, n.detail = .package ⟨name, version, "workspace"⟩

section

variable {p : Project} {r : Repository} {dir : String}

/-- A negated glob accepts nothing. -/
theorem head?_ne_of_accepts {glob : String} (h : Glob.accepts glob dir = true) :
    glob.toList.head? ≠ some '!' := by
  unfold Glob.accepts at h
  simp only [Bool.and_eq_true, decide_eq_true_eq] at h
  exact h.1

/-- A negated glob does not accept its own text either. -/
example : Glob.accepts "!apps" "!apps" = false := by decide +kernel

theorem mem_membersOf {m : Manifest} :
    m ∈ membersOf p r ↔ m ∈ manifestsOf p r ∧ Included p r m.dir := by
  unfold membersOf workspaceMembers Included workspaceGlobs
  simp only [List.mem_filter, Bool.and_eq_true, decide_eq_true_eq, List.any_eq_true]
  apply and_congr_right'
  apply and_congr_right'
  constructor
  · rintro ⟨glob, hglob, haccepts⟩
    exact ⟨glob, hglob, head?_ne_of_accepts haccepts, haccepts⟩
  · rintro ⟨glob, hglob, -, haccepts⟩
    exact ⟨glob, hglob, haccepts⟩

/-- A listed exclusion leaves a directory included if any other listed glob accepts it. -/
theorem Excluded.included_iff (h : Excluded p r dir) :
    Included p r dir ↔ dir ≠ "" ∧ ∃ glob ∈ listedGlobs p r, Glob.accepts glob dir = true := by
  obtain ⟨excluded, hlisted, -⟩ := h
  have hglobs : workspaceGlobs p r = listedGlobs p r := by
    unfold workspaceGlobs
    rw [if_neg]
    intro hempty
    rw [List.isEmpty_iff.1 hempty] at hlisted
    cases hlisted
  unfold Included
  rw [hglobs]
  apply and_congr_right'
  constructor
  · rintro ⟨glob, hglob, -, haccepts⟩
    exact ⟨glob, hglob, haccepts⟩
  · rintro ⟨glob, hglob, haccepts⟩
    exact ⟨glob, hglob, head?_ne_of_accepts haccepts, haccepts⟩

/-- Every app is that of a member, but for the app that a repository is when no member is one. -/
theorem hasApp_iff : HasApp p r dir ↔
    (∃ m ∈ manifestsOf p r, m.dir = dir ∧ m.isLibrary = false ∧ Included p r dir) ∨
      dir = "." ∧ ∀ m ∈ manifestsOf p r, m.isLibrary = false → ¬Included p r m.dir := by
  have hdetail : HasApp p r dir ↔ ∃ app ∈ appDetails p r, app.root = dir := by
    unfold HasApp
    constructor
    · rintro ⟨n, hn, app, happ, hroot⟩
      exact ⟨app, app_found_iff.1 ⟨n, hn, happ⟩, hroot⟩
    · rintro ⟨app, happ, hroot⟩
      obtain ⟨n, hn, hdetail⟩ := app_found_iff.2 happ
      exact ⟨n, hn, app, hdetail, hroot⟩
  have hmember (m : Manifest) : m ∈ (membersOf p r).filter (!·.isLibrary) ↔
      m ∈ manifestsOf p r ∧ m.isLibrary = false ∧ Included p r m.dir := by
    rw [List.mem_filter, mem_membersOf, Bool.not_eq_true', and_assoc]
    exact and_congr_right' and_comm
  rw [hdetail]
  unfold appDetails
  dsimp only
  split
  · next hnone =>
    -- no member is an app
    have hleft : ∀ m ∈ manifestsOf p r, m.isLibrary = false → ¬Included p r m.dir := by
      intro m hm hlibrary hincluded
      have hmem := (hmember m).2 ⟨hm, hlibrary, hincluded⟩
      rw [List.isEmpty_iff.1 hnone] at hmem
      cases hmem
    constructor
    · rintro ⟨app, happ, rfl⟩
      rw [List.mem_singleton.1 happ]
      exact .inr ⟨rfl, hleft⟩
    · rintro (⟨m, hm, rfl, hlibrary, hincluded⟩ | ⟨rfl, -⟩)
      · exact absurd hincluded (hleft m hm hlibrary)
      · exact ⟨_, List.mem_singleton_self _, rfl⟩
  · next hsome =>
    constructor
    · rintro ⟨app, happ, rfl⟩
      obtain ⟨m, hm, rfl⟩ := List.mem_map.1 happ
      obtain ⟨hm, hlibrary, hincluded⟩ := (hmember m).1 hm
      exact .inl ⟨m, hm, rfl, hlibrary, hincluded⟩
    · rintro (⟨m, hm, rfl, hlibrary, hincluded⟩ | ⟨-, hleft⟩)
      · exact ⟨_, List.mem_map_of_mem ((hmember m).2 ⟨hm, hlibrary, hincluded⟩), rfl⟩
      · refine absurd (List.isEmpty_iff.2 (List.eq_nil_iff_forall_not_mem.2 fun m hm => ?_)) hsome
        obtain ⟨hm, hlibrary, hincluded⟩ := (hmember m).1 hm
        exact hleft m hm hlibrary hincluded

/-- Every library is that of a member. -/
theorem hasLibrary_iff {name : String} : HasLibrary p r name ↔
    ∃ m ∈ manifestsOf p r, m.label = name ∧ m.isLibrary = true ∧ Included p r m.dir := by
  unfold HasLibrary
  constructor
  · rintro ⟨n, hn, version, hdetail⟩
    rcases package_found_iff.1 ⟨n, hn, hdetail⟩ with hlibrary | hnotable
    · unfold libraryDetails at hlibrary
      simp only [List.mem_map, List.mem_filter, mem_membersOf, PackageDetail.mk.injEq] at hlibrary
      obtain ⟨m, ⟨⟨hm, hincluded⟩, hlibrary⟩, hname, -⟩ := hlibrary
      exact ⟨m, hm, hname, hlibrary, hincluded⟩
    · -- a package that is depended on belongs to another ecosystem
      unfold notableDetails at hnotable
      simp at hnotable
  · rintro ⟨m, hm, rfl, hlibrary, hincluded⟩
    have hmem : ⟨m.label, m.package.version, "workspace"⟩ ∈ libraryDetails p r :=
      List.mem_map_of_mem (List.mem_filter.2 ⟨mem_membersOf.2 ⟨hm, hincluded⟩, hlibrary⟩)
    obtain ⟨n, hn, hdetail⟩ := package_found_iff.2 (.inl hmem)
    exact ⟨n, hn, _, hdetail⟩

/-- **Negated globs take nothing away.** The inventory has an app for every directory with a
manifest that some other glob accepts, or else one for the repository itself, and a library for
every name of a manifest in such a directory of libraries. A directory that is excluded is left out
exactly if no other listed glob accepts it. -/
theorem members_found_iff (p : Project) (r : Repository) :
    (∀ dir, HasApp p r dir ↔
      (∃ m ∈ manifestsOf p r, m.dir = dir ∧ m.isLibrary = false ∧ Included p r dir) ∨
        dir = "." ∧ ∀ m ∈ manifestsOf p r, m.isLibrary = false → ¬Included p r m.dir) ∧
    (∀ name, HasLibrary p r name ↔
      ∃ m ∈ manifestsOf p r, m.label = name ∧ m.isLibrary = true ∧ Included p r m.dir) ∧
    ∀ dir, Excluded p r dir → (Included p r dir ↔
      dir ≠ "" ∧ ∃ glob ∈ listedGlobs p r, Glob.accepts glob dir = true) :=
  ⟨fun _ => hasApp_iff, fun _ => hasLibrary_iff, fun _ h => h.included_iff⟩

end

/-- A workspace of two apps and a library whose globs the manifest at the root declares. -/
def workspaceOf (globs : String) : Project where
  id := "p"
  repositories := [.ofPaths "r" "o" "n"
    ["package.json", "apps/web/package.json", "apps/legacy/package.json",
     "packages/ui/package.json"]]
  contents := .ofList
    [("package.json", "\x7b\"workspaces\": [" ++ globs ++ "]\x7d"),
     ("apps/web/package.json", "\x7b\x7d"), ("apps/legacy/package.json", "\x7b\x7d"),
     ("packages/ui/package.json", "\x7b\x7d")]

/-- What no glob but the negated one accepts is left out. -/
theorem members_found_listed :
    let p := workspaceOf "\"apps/web\", \"!apps/legacy\""
    ∃ r ∈ p.repositories, HasApp p r "apps/web" ∧
      Excluded p r "apps/legacy" ∧ ¬Included p r "apps/legacy" := by
  intro p
  let r : Repository := p.repositories.head (by decide)
  have hglobs : listedGlobs p r = ["apps/web", "!apps/legacy"] := by decide +kernel
  have hmanifest : ∃ m ∈ manifestsOf p r, m.dir = "apps/web" ∧ m.isLibrary = false := by
    decide +kernel
  have hother : ∀ glob ∈ ["apps/web", "!apps/legacy"], Glob.accepts glob "apps/legacy" = false := by
    decide +kernel
  have hexcluded : Excluded p r "apps/legacy" :=
    ⟨"apps/legacy", by rw [hglobs]; decide, by decide +kernel⟩
  obtain ⟨hfound, -, hleft⟩ := members_found_iff p r
  refine ⟨r, List.head_mem _, ?_, hexcluded, ?_⟩
  · obtain ⟨m, hm, hdir, hlibrary⟩ := hmanifest
    have hincluded : Included p r "apps/web" := by
      refine ⟨by decide, "apps/web", ?_, by decide, by decide +kernel⟩
      rw [workspaceGlobs, hglobs]
      decide
    exact (hfound "apps/web").2 (.inl ⟨m, hm, hdir, hlibrary, hincluded⟩)
  · intro hincluded
    obtain ⟨-, glob, hglob, haccepts⟩ := (hleft "apps/legacy" hexcluded).1 hincluded
    rw [hglobs] at hglob
    rw [hother glob hglob] at haccepts
    cases haccepts

/-- **An excluded app is found.** So is an excluded library. -/
theorem excluded_app_found :
    let p := workspaceOf "\"apps/*\", \"packages/*\", \"!apps/legacy\", \"!packages/ui\""
    ∃ r ∈ p.repositories, Excluded p r "apps/legacy" ∧ HasApp p r "apps/legacy" ∧
      Excluded p r "packages/ui" ∧ HasLibrary p r "ui" := by
  intro p
  let r : Repository := p.repositories.head (by decide)
  have hglobs : listedGlobs p r = ["apps/*", "packages/*", "!apps/legacy", "!packages/ui"] := by
    decide +kernel
  have happ : ∃ n ∈ (inventoryOf p r).nodes, n.detail = .app ⟨"apps/legacy", none, none⟩ := by
    decide +kernel
  have hlibrary : ∃ n ∈ (inventoryOf p r).nodes,
      n.detail = .package ⟨"ui", none, "workspace"⟩ := by
    decide +kernel
  obtain ⟨app, happ, hdetail⟩ := happ
  obtain ⟨library, hlibrary, hdetail'⟩ := hlibrary
  refine ⟨r, List.head_mem _, ⟨"apps/legacy", ?_, by decide +kernel⟩, ⟨app, happ, _, hdetail, rfl⟩,
    ⟨"packages/ui", ?_, by decide +kernel⟩, ⟨library, hlibrary, _, hdetail'⟩⟩
  · rw [hglobs]
    decide
  · rw [hglobs]
    decide

end ArchGraph.Discovery
