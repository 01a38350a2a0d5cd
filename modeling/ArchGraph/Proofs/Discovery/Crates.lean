import ArchGraph.Proofs.Discovery.Siblings
/-!
# Crates and the frameworks of a repository

The frameworks of a repository are those that its files mark, or else those that its manifests
declare. Packages that stand for the web frameworks of Rust are looked for in the manifests of
crates, but such a manifest is a file that marks a framework itself: where there is one, nothing
declared is looked at. So crates do not matter at all for what is reported of a repository
(`repository_frameworks_iff`). `crate_framework_missing` is the repository of a single crate whose
web framework is not reported.
-/

namespace ArchGraph.Discovery

/-- The packages of crates that stand for a web framework. -/
def crateFrameworks : List (String × String) :=
  [("axum", "Axum"), ("actix-web", "Actix Web"), ("rocket", "Rocket")]

/-- No file of a repository marks a framework. -/
def Unmarked (r : Repository) : Prop := ∀ entry ∈ Framework.byMarker, ¬Marks r "" entry.1

section

variable {p : Project} {r : Repository}

theorem markedIn_eq_nil_iff : markedIn r "" = [] ↔ Unmarked r := by
  unfold Unmarked
  rw [List.eq_nil_iff_forall_not_mem]
  constructor
  · intro h entry hentry hmarks
    exact h entry (mem_markedIn.2 ⟨hentry, hmarks⟩)
  · intro h entry hmem
    obtain ⟨hentry, hmarks⟩ := mem_markedIn.1 hmem
    exact h entry hentry hmarks

/-- Where no file marks a framework, there are no crates. -/
theorem Unmarked.cratesOf_eq_nil (h : Unmarked r) : cratesOf p r = [] := by
  rw [List.eq_nil_iff_forall_not_mem]
  intro crate hcrate
  obtain ⟨path, hpath, hname, -, -⟩ := mem_cratesOf.1 hcrate
  exact h ("Cargo.toml", "Rust") (by decide) (marks_of_crate hpath rfl hname)

/-- Where no file marks a framework, what is declared is declared by package manifests. -/
theorem Unmarked.mem_declaredIn (h : Unmarked r) {entry : String × String} :
    entry ∈ declaredIn p r "" ↔ entry ∈ Framework.byDependency ∧ Declares p r "" entry.1 := by
  unfold declaredIn
  rw [h.cratesOf_eq_nil, List.mem_filter, Bool.or_eq_true, any_manifestsOf_iff]
  simp

/-- What is reported of a repository, without its crates. -/
theorem mem_frameworksIn_root {framework : String} : framework ∈ frameworksIn p r "" ↔
    (∃ entry ∈ Framework.byMarker, entry.2 = framework ∧ Marks r "" entry.1) ∨
      Unmarked r ∧ ∃ entry ∈ Framework.byDependency, entry.2 = framework ∧
        Declares p r "" entry.1 := by
  rw [frameworksIn_eq, List.mem_eraseDups, List.mem_map]
  by_cases hmarked : markedIn r "" = []
  · have hunmarked := markedIn_eq_nil_iff.1 hmarked
    rw [hmarked, List.isEmpty_nil, if_pos rfl, or_iff_right]
    · simp only [hunmarked.mem_declaredIn, and_iff_right hunmarked]
      constructor
      · rintro ⟨entry, ⟨hentry, hdeclares⟩, rfl⟩
        exact ⟨entry, hentry, rfl, hdeclares⟩
      · rintro ⟨entry, hentry, rfl, hdeclares⟩
        exact ⟨entry, ⟨hentry, hdeclares⟩, rfl⟩
    · rintro ⟨entry, hentry, -, hmarks⟩
      exact hunmarked entry hentry hmarks
  · have hnot : ¬Unmarked r := fun h => hmarked (markedIn_eq_nil_iff.2 h)
    rw [List.isEmpty_eq_false_iff.2 hmarked, if_neg (by decide), or_iff_left fun h => hnot h.1]
    constructor
    · rintro ⟨entry, hmem, rfl⟩
      obtain ⟨hentry, hmarks⟩ := mem_markedIn.1 hmem
      exact ⟨entry, hentry, rfl, hmarks⟩
    · rintro ⟨entry, hentry, rfl, hmarks⟩
      exact ⟨entry, mem_markedIn.2 ⟨hentry, hmarks⟩, rfl⟩

/-- The node of a repository has the frameworks that are detected in all of it. -/
theorem frameworks_of_repository {n : Node} (hn : n ∈ (inventoryOf p r).nodes) {d : RepoDetail}
    (hd : n.detail = .repo d) : d.frameworks = frameworksIn p r "" := by
  rw [repo_found_iff.1 ⟨n, hn, hd⟩]
  rfl

/-- Web frameworks of crates stand in the table of packages, and no file marks them. -/
theorem crateFramework_not_marked : ∀ entry ∈ crateFrameworks, entry ∈ Framework.byDependency ∧
    ∀ marker ∈ Framework.byMarker, marker.2 ≠ entry.2 := by
  decide

/-- **Crates do not matter for the frameworks of a repository.** They are those that files mark, or,
where no file marks one, those that package manifests declare. In particular a repository with a
crate is reported as `Rust`, and never with a web framework that its crates depend on. -/
theorem repository_frameworks_iff (p : Project) (r : Repository) :
    (∀ n ∈ (inventoryOf p r).nodes, ∀ d, n.detail = .repo d →
      d.frameworks = frameworksIn p r "") ∧
    (∀ framework, framework ∈ frameworksIn p r "" ↔
      (∃ entry ∈ Framework.byMarker, entry.2 = framework ∧ Marks r "" entry.1) ∨
        Unmarked r ∧ ∃ entry ∈ Framework.byDependency, entry.2 = framework ∧
          Declares p r "" entry.1) ∧
    ∀ path ∈ r.paths, Path.fileName path = "Cargo.toml" →
      "Rust" ∈ frameworksIn p r "" ∧
        ∀ entry ∈ crateFrameworks, entry ∈ Framework.byDependency ∧
          entry.2 ∉ frameworksIn p r "" := by
  refine ⟨fun n hn d hd => frameworks_of_repository hn hd, fun _ => mem_frameworksIn_root, ?_⟩
  intro path hpath hname
  have hmarks : Marks r "" "Cargo.toml" := marks_of_crate hpath rfl hname
  constructor
  · exact mem_frameworksIn_root.2 (.inl ⟨("Cargo.toml", "Rust"), by decide, rfl, hmarks⟩)
  · intro entry hentry
    obtain ⟨hlisted, hdistinct⟩ := crateFramework_not_marked entry hentry
    refine ⟨hlisted, fun hmem => ?_⟩
    rcases mem_frameworksIn_root.1 hmem with ⟨marker, hmarker, heq, -⟩ | ⟨hunmarked, -⟩
    · exact hdistinct marker hmarker heq
    · exact hunmarked ("Cargo.toml", "Rust") (by decide) hmarks

end

/-- A project of a single crate that depends on a web framework. -/
def webCrate : Project where
  id := "p"
  repositories := [.ofPaths "r" "o" "n" ["Cargo.toml"]]
  contents := .ofList [("Cargo.toml", "[dependencies]\naxum = \"0.7\"")]

theorem repository_frameworks_webCrate :
    ∃ r ∈ webCrate.repositories, "Cargo.toml" ∈ r.paths ∧
      Path.fileName "Cargo.toml" = "Cargo.toml" ∧ "Rust" ∈ frameworksIn webCrate r "" := by
  let r : Repository := .ofPaths "r" "o" "n" ["Cargo.toml"]
  have hpath : "Cargo.toml" ∈ r.paths := by decide
  have hname : Path.fileName "Cargo.toml" = "Cargo.toml" := by decide +kernel
  exact ⟨r, List.mem_singleton_self r, hpath, hname,
    ((repository_frameworks_iff webCrate r).2.2 _ hpath hname).1⟩

/-- **The web framework of a crate is not reported.** The manifest is well formed and no other file
marks a framework. -/
theorem crate_framework_missing : ∃ r ∈ webCrate.repositories, r.paths = ["Cargo.toml"] ∧
    (webCrate.content? r "Cargo.toml").bind Cargo.dependencyNames? = some ["axum"] ∧
      (∀ entry ∈ Framework.byMarker, Marks r "" entry.1 → entry.1 = "Cargo.toml") ∧
        ∃ n ∈ (inventoryOf webCrate r).nodes, n.detail = .repo (repoDetail webCrate r) ∧
          (repoDetail webCrate r).frameworks = ["Rust"] := by
  let r : Repository := .ofPaths "r" "o" "n" ["Cargo.toml"]
  refine ⟨r, List.mem_singleton_self r, by decide, by decide +kernel, ?_, by decide +kernel⟩
  have hmarked : ∀ entry ∈ markedIn r "", entry.1 = "Cargo.toml" := by decide +kernel
  intro entry hentry hmarks
  exact hmarked entry (mem_markedIn.2 ⟨hentry, hmarks⟩)

end ArchGraph.Discovery
