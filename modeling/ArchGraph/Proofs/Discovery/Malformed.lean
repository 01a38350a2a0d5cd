import ArchGraph.Discovery.Inventory
import Mathlib.Data.List.Flatten
import Mathlib.Data.List.Perm.Basic
/-!
# Malformed manifests

A manifest that is rejected leaves nothing behind but a warning: the inventory of a project is that
of a project where the text of the manifest is missing, and complains once for each time that the
text was read (`malformed_as_missing`). The inventory uses manifests only through what was read of
them, and nothing is read of a text that is rejected just as nothing is read of one that is missing
(`filterMap_readings`).
-/

namespace ArchGraph.Discovery

/-! ## Withheld texts -/

/-- A file that is read as a manifest because of its name, and is rejected. -/
inductive Rejected : String → String → Prop
  | package {path text : String} : Path.fileName path = "package.json" →
      PackageManifest.ofText? text = none → Rejected path text
  | crate {path text : String} : Path.fileName path = "Cargo.toml" →
      Cargo.dependencyNames? text = none → Rejected path text
  | workspace {text : String} : Workspace.globs? text = none →
      Rejected "pnpm-workspace.yaml" text

/-- The second project is the first one without the texts of some manifests, all of which are
rejected. -/
structure Withholds (p q : Project) : Prop where
  repositories : q.repositories = p.repositories
  content : ∀ r ∈ p.repositories, ∀ path, q.content? r path = p.content? r path ∨
    q.content? r path = none ∧ ∃ text, p.content? r path = some text ∧ Rejected path text

/-- The project without the text under a key. -/
def dropText (p : Project) (key : String) : Project :=
  { p with contents := ⟨p.contents.entries.filter (·.1 ≠ key)⟩ }

theorem get?_dropText (p : Project) (key k : String) :
    (dropText p key).contents.get? k = if k = key then none else p.contents.get? k := by
  rw [dropText, Contents.get?, Contents.get?]
  dsimp only
  induction p.contents.entries with
  | nil => simp
  | cons entry entries ih =>
    by_cases hkey : entry.1 = key
    · rw [List.filter_cons_of_neg (by simpa using hkey), ih]
      by_cases hk : k = key
      · rw [if_pos hk, if_pos hk]
      · rw [if_neg hk, if_neg hk, List.lookup_cons, beq_false_of_ne (hkey ▸ hk)]
    · rw [List.filter_cons_of_pos (by simpa using hkey), List.lookup_cons, List.lookup_cons, ih]
      by_cases hk : k = key
      · rw [if_pos hk, if_pos hk, beq_false_of_ne (hk ▸ Ne.symm hkey)]
      · rw [if_neg hk, if_neg hk]

theorem content?_dropText (p : Project) (key : String) (r : Repository) (path : String) :
    (dropText p key).content? r path =
      (if r.qualifiedKey path = key then none else p.contents.get? (r.qualifiedKey path)).or
        (if path = key then none else p.contents.get? path) := by
  rw [Project.content?, get?_dropText, get?_dropText]

/-- Dropping a text withholds it if all files that it is the text of reject it, and no other text
comes into sight. -/
theorem withholds_dropText {p : Project} {key text : String}
    (hkey : p.contents.get? key = some text)
    (hrejected : ∀ r ∈ p.repositories, ∀ path, r.qualifiedKey path = key ∨ path = key →
      Rejected path text)
    (hplain : ∀ r ∈ p.repositories, ∀ path, r.qualifiedKey path = key →
      p.contents.get? path = none) : Withholds p (dropText p key) where
  repositories := rfl
  content r hr path := by
    rw [content?_dropText, Project.content?]
    by_cases hqualified : r.qualifiedKey path = key
    · refine .inr ⟨?_, text, ?_, hrejected r hr path (.inl hqualified)⟩
      · simp [hqualified, hplain r hr path hqualified]
      · simp [hqualified, hkey]
    · rw [if_neg hqualified]
      by_cases hpath : path = key
      · rw [if_pos hpath, Option.or_none]
        cases hown : p.contents.get? (r.qualifiedKey path) with
        | some => exact .inl (Option.some_or).symm
        | none =>
          exact .inr ⟨rfl, text, by rw [hpath, hkey]; rfl, hrejected r hr path (.inr hpath)⟩
      · rw [if_neg hpath]
        exact .inl rfl

/-- The files of a name that a repository lists and whose text only the first project has, as often
as they are listed. -/
def withheld (p q : Project) (r : Repository) (name : String) : List String :=
  (r.paths.filter (Path.fileName · = name)).filter fun path =>
    q.content? r path ≠ p.content? r path

/-- The complaints about what is withheld from a repository. -/
def complaints (p q : Project) (r : Repository) : List String :=
  ((withheld p q r "package.json").flatMap fun path => (malformed path "package.json").warnings) ++
    ((withheld p q r "Cargo.toml").flatMap fun path => (malformed path "Cargo.toml").warnings) ++
    if q.content? r "pnpm-workspace.yaml" = p.content? r "pnpm-workspace.yaml" then []
    else (malformed r.name "pnpm-workspace.yaml").warnings

/-- What is found, apart from the warnings. -/
def facts (f : Findings) : Findings := { f with warnings := [] }

/-! ## What is read of files -/

section
variable {α β : Type} {p q : Project} {r : Repository} {name : String} {read : String → Option α}

/-- The texts of a name that two projects do not share are rejected, and missing in the second. -/
def Unshared (p q : Project) (r : Repository) (name : String) (read : String → Option α) : Prop :=
  ∀ path, Path.fileName path = name → q.content? r path = p.content? r path ∨
    q.content? r path = none ∧ ∃ text, p.content? r path = some text ∧ read text = none

/-- What is used of readings only where a value was read does not depend on texts that are
rejected. -/
theorem filterMap_readings (h : Unshared p q r name read) {use : Reading α → Option β}
    (huse : ∀ x, x.value = none → use x = none) :
    (readings q r name read).filterMap use = (readings p r name read).filterMap use := by
  rw [readings, readings, List.filterMap_filterMap, List.filterMap_filterMap]
  refine List.filterMap_congr fun path hpath => ?_
  rcases h path (of_decide_eq_true (List.mem_filter.1 hpath).2) with h | ⟨hq, text, hp, hread⟩
  · rw [h]
  · rw [hq, hp]
    exact (huse ⟨path, text, read text⟩ hread).symm

/-- The listed files of a name that are rejected. -/
def refused (p : Project) (r : Repository) (name : String) (read : String → Option α) :
    List String :=
  (r.paths.filter (Path.fileName · = name)).filter fun path =>
    (p.content? r path).any fun text => (read text).isNone

theorem warnings_malformedReadings (p : Project) (r : Repository) (name : String)
    (read : String → Option α) : (malformedReadings name (readings p r name read)).warnings =
      (refused p r name read).flatMap fun path => (malformed path name).warnings := by
  rw [malformedReadings, readings, refused, Findings.concat]
  induction r.paths.filter (Path.fileName · = name) with
  | nil => rfl
  | cons path paths ih =>
    cases hc : p.content? r path with
    | none => simpa [hc] using ih
    | some text => cases hv : read text <;> simpa [hc, hv] using ih

theorem filter_refused (h : Unshared p q r name read) :
    (refused p r name read).filter (fun path => q.content? r path = p.content? r path) =
      refused q r name read := by
  rw [refused, refused, List.filter_filter]
  refine List.filter_congr fun path hpath => ?_
  rcases h path (of_decide_eq_true (List.mem_filter.1 hpath).2) with h | ⟨hq, text, hp, -⟩
  · simp [h]
  · simp [hq, hp]

theorem filter_not_refused (h : Unshared p q r name read) :
    (refused p r name read).filter (fun path => !decide (q.content? r path = p.content? r path)) =
      withheld p q r name := by
  rw [refused, withheld, List.filter_filter]
  refine List.filter_congr fun path hpath => ?_
  rcases h path (of_decide_eq_true (List.mem_filter.1 hpath).2) with h | ⟨hq, text, hp, hread⟩
  · simp [h]
  · simp [hq, hp, hread]

/-- The complaints about the files of a name are those of the project where texts are missing, and
one for each text that is. -/
theorem perm_warnings_malformedReadings (h : Unshared p q r name read) :
    (malformedReadings name (readings p r name read)).warnings.Perm
      ((malformedReadings name (readings q r name read)).warnings ++
        (withheld p q r name).flatMap fun path => (malformed path name).warnings) := by
  rw [warnings_malformedReadings, warnings_malformedReadings, ← filter_refused h,
    ← filter_not_refused h, ← List.flatMap_append]
  exact (List.filter_append_perm _ _).symm.flatMap_right _

theorem sublist_warnings_malformedReadings (h : Unshared p q r name read) :
    (malformedReadings name (readings q r name read)).warnings.Sublist
      (malformedReadings name (readings p r name read)).warnings := by
  rw [warnings_malformedReadings, warnings_malformedReadings, ← filter_refused h]
  exact List.filter_sublist.flatMap _

end

/-! ## What is rejected -/

section
variable {p q : Project} {r : Repository}

theorem Withholds.packages (h : Withholds p q) (hr : r ∈ p.repositories) :
    Unshared p q r "package.json" PackageManifest.ofText? := by
  intro path hname
  refine (h.content r hr path).imp_right fun ⟨hq, text, hp, hrejected⟩ => ⟨hq, text, hp, ?_⟩
  cases hrejected with
  | package _ hread => exact hread
  | crate hcrate => exact absurd (hname.symm.trans hcrate) (by decide)
  | workspace => exact absurd hname (by decide)

theorem Withholds.crates (h : Withholds p q) (hr : r ∈ p.repositories) :
    Unshared p q r "Cargo.toml" Cargo.dependencyNames? := by
  intro path hname
  refine (h.content r hr path).imp_right fun ⟨hq, text, hp, hrejected⟩ => ⟨hq, text, hp, ?_⟩
  cases hrejected with
  | package hpackage => exact absurd (hname.symm.trans hpackage) (by decide)
  | crate _ hread => exact hread
  | workspace => exact absurd hname (by decide)

theorem Withholds.workspace (h : Withholds p q) (hr : r ∈ p.repositories) :
    q.content? r "pnpm-workspace.yaml" = p.content? r "pnpm-workspace.yaml" ∨
      q.content? r "pnpm-workspace.yaml" = none ∧
        ∃ text, p.content? r "pnpm-workspace.yaml" = some text ∧ Workspace.globs? text = none := by
  refine (h.content r hr "pnpm-workspace.yaml").imp_right
    fun ⟨hq, text, hp, hrejected⟩ => ⟨hq, text, hp, ?_⟩
  cases hrejected with
  | package hpackage => exact absurd hpackage (by decide)
  | crate hcrate => exact absurd hcrate (by decide)
  | workspace hread => exact hread

/-- The globs do not depend on a workspace file that is rejected. -/
theorem globs_workspaceFile (h : Withholds p q) (hr : r ∈ p.repositories) :
    (workspaceFile q r).1 = (workspaceFile p r).1 := by
  unfold workspaceFile
  rcases h.workspace hr with h | ⟨hq, text, hp, hread⟩
  · rw [h]
  · simp only [hq, hp, hread]

theorem warnings_workspaceFile (h : Withholds p q) (hr : r ∈ p.repositories) :
    (workspaceFile p r).2.warnings = (workspaceFile q r).2.warnings ++
      if q.content? r "pnpm-workspace.yaml" = p.content? r "pnpm-workspace.yaml" then []
      else (malformed r.name "pnpm-workspace.yaml").warnings := by
  unfold workspaceFile
  rcases h.workspace hr with h | ⟨hq, text, hp, hread⟩
  · rw [h, if_pos rfl, List.append_nil]
  · simp only [hq, hp, hread, reduceCtorEq, if_false]
    rfl

end

/-! ## Facts -/

@[simp] theorem facts_append (f g : Findings) : facts (f ++ g) = facts f ++ facts g := rfl

theorem facts_concat_map_congr {α : Type} {find find' : α → Findings} : ∀ {l : List α},
    (∀ a ∈ l, facts (find a) = facts (find' a)) →
      facts (.concat (l.map find)) = facts (.concat (l.map find'))
  | [], _ => rfl
  | a :: l, h => by
    rw [List.map_cons, List.map_cons, Findings.concat_cons, Findings.concat_cons, facts_append,
      facts_append, h a List.mem_cons_self,
      facts_concat_map_congr fun b hb => h b (List.mem_cons_of_mem a hb)]

/-- Complaints are no facts. -/
theorem facts_malformedReadings {α : Type} (name : String) : ∀ rs : List (Reading α),
    facts (malformedReadings name rs) = .empty := by
  intro rs
  rw [malformedReadings]
  induction rs.filter (·.value.isNone) with
  | nil => rfl
  | cons r rs ih =>
    rw [List.map_cons, Findings.concat_cons, facts_append, ih]
    rfl

theorem facts_workspaceFile (p : Project) (r : Repository) :
    facts (workspaceFile p r).2 = .empty := by
  unfold workspaceFile
  split
  · rfl
  · split <;> rfl

theorem warnings_concat_map {α : Type} {find : α → Findings} {l : List α}
    (h : ∀ a ∈ l, (find a).warnings = []) : (Findings.concat (l.map find)).warnings = [] := by
  simpa [Findings.concat] using h

/-! ## Repositories -/

section
variable {p q : Project} {r : Repository}

/-- What is found in a repository does not depend on manifests that are rejected. -/
theorem facts_inventoryOf (h : Withholds p q) (hr : r ∈ p.repositories) :
    facts (inventoryOf q r) = facts (inventoryOf p r) := by
  have hmanifests : (readings q r "package.json" PackageManifest.ofText?).filterMap
      Manifest.ofReading? = (readings p r "package.json" PackageManifest.ofText?).filterMap
        Manifest.ofReading? :=
    filterMap_readings (h.packages hr) fun x hx => by rw [Manifest.ofReading?, hx]; rfl
  have hcrates : ((readings q r "Cargo.toml" Cargo.dependencyNames?).filterMap fun c =>
      c.value.map fun names => (Path.parent c.path, names)) =
        (readings p r "Cargo.toml" Cargo.dependencyNames?).filterMap fun c =>
          c.value.map fun names => (Path.parent c.path, names) :=
    filterMap_readings (h.crates hr) fun x hx => by rw [hx]; rfl
  have hglobs := globs_workspaceFile h hr
  have hp := facts_workspaceFile p r
  have hq := facts_workspaceFile q r
  unfold inventoryOf
  generalize workspaceFile p r = w at hglobs hp
  generalize workspaceFile q r = w' at hglobs hq
  obtain ⟨globs, complaint⟩ := w
  obtain ⟨globs', complaint'⟩ := w'
  dsimp only at hglobs hp hq ⊢
  simp only [hmanifests, hcrates, hglobs, facts_append, facts_malformedReadings, hp, hq]

/-- Only what cannot be read is complained about. -/
theorem warnings_inventoryOf (p : Project) (r : Repository) : (inventoryOf p r).warnings =
    (malformedReadings "package.json" (readings p r "package.json"
        PackageManifest.ofText?)).warnings ++
      (malformedReadings "Cargo.toml" (readings p r "Cargo.toml"
        Cargo.dependencyNames?)).warnings ++
      (workspaceFile p r).2.warnings := by
  unfold inventoryOf
  rcases workspaceFile p r with ⟨globs, complaint⟩
  have happ (repo label : String) (d : AppDetail) : (appFindings repo label d).warnings = [] := rfl
  have hlibrary (repo : String) (m : Manifest) : (libraryFindings repo m).warnings = [] := rfl
  have hnotable (repo : String) (m : Manifest) : (notableFindings repo m).warnings = [] :=
    warnings_concat_map fun _ _ => rfl
  have hnode (n : Node) : (Findings.node n).warnings = [] := rfl
  simp only [Findings.warnings_append, apply_ite Findings.warnings, hnode, happ,
    warnings_concat_map, hlibrary, hnotable, implies_true, ite_self, List.append_nil]

theorem perm_warnings_inventoryOf (h : Withholds p q) (hr : r ∈ p.repositories) :
    (inventoryOf p r).warnings.Perm ((inventoryOf q r).warnings ++ complaints p q r) := by
  have hpackages := perm_warnings_malformedReadings (h.packages hr)
  have hcrates := perm_warnings_malformedReadings (h.crates hr)
  rw [warnings_inventoryOf, warnings_inventoryOf, complaints, warnings_workspaceFile h hr]
  refine List.perm_iff_count.2 fun message => ?_
  have hcount := hpackages.count_eq message
  have hcount' := hcrates.count_eq message
  simp only [List.count_append] at hcount hcount' ⊢
  omega

theorem sublist_warnings_inventoryOf (h : Withholds p q) (hr : r ∈ p.repositories) :
    (inventoryOf q r).warnings.Sublist (inventoryOf p r).warnings := by
  rw [warnings_inventoryOf, warnings_inventoryOf, warnings_workspaceFile h hr]
  exact ((sublist_warnings_malformedReadings (h.packages hr)).append
    (sublist_warnings_malformedReadings (h.crates hr))).append (List.sublist_append_left _ _)

end

/-! ## Projects -/

/-- **A malformed manifest is as good as a missing one.** The inventory finds the same, in the same
order, whether the texts of rejected manifests are there or not. If they are, it complains besides
once for each time that one of them is listed, or once in each repository if it is the workspace
file. -/
theorem malformed_as_missing {p q : Project} (h : Withholds p q) :
    facts (inventory p) = facts (inventory q) ∧
      (inventory q).warnings.Sublist (inventory p).warnings ∧
      (inventory p).warnings.Perm
        ((inventory q).warnings ++ p.repositories.flatMap (complaints p q)) := by
  unfold inventory
  rw [h.repositories]
  refine ⟨facts_concat_map_congr fun r hr => (facts_inventoryOf h hr).symm, ?_, ?_⟩
  · simp only [Findings.concat, List.flatMap_map]
    exact .flatMap_right _ fun r hr => sublist_warnings_inventoryOf h hr
  · simp only [Findings.concat, List.flatMap_map]
    exact (List.Perm.flatMap_left _ fun r hr => perm_warnings_inventoryOf h hr).trans
      (List.flatMap_append_perm _ _ _).symm

/-- A malformed manifest that two repositories share, one of which lists it twice. -/
def sharedManifest : Project where
  id := "p"
  repositories :=
    [.ofPaths "r" "acme" "web" ["package.json", "package.json"],
     .ofPaths "s" "acme" "api" ["package.json"]]
  contents := ⟨[("package.json", "\x7b")]⟩

theorem sharedManifest_as_missing :
    Withholds sharedManifest (dropText sharedManifest "package.json") ∧
      facts (inventory sharedManifest) =
        facts (inventory (dropText sharedManifest "package.json")) ∧
      (inventory sharedManifest).warnings.Perm
        ((inventory (dropText sharedManifest "package.json")).warnings ++
          ["package.json: malformed package.json", "package.json: malformed package.json",
           "package.json: malformed package.json"]) := by
  have hwithholds : Withholds sharedManifest (dropText sharedManifest "package.json") := by
    have hqualified (r : Repository) (path : String) : r.qualifiedKey path ≠ "package.json" := by
      intro h
      have hcolon : ':' ∈ (r.qualifiedKey path).toList := by simp [Repository.qualifiedKey]
      rw [h] at hcolon
      exact absurd hcolon (by decide)
    refine withholds_dropText rfl (fun r _ path h => ?_) fun r _ path h =>
      absurd h (hqualified r path)
    obtain rfl := h.resolve_left (hqualified r path)
    exact .package (by decide) (by decide)
  have h := malformed_as_missing hwithholds
  have hcomplaints : sharedManifest.repositories.flatMap
      (complaints sharedManifest (dropText sharedManifest "package.json")) =
        ["package.json: malformed package.json", "package.json: malformed package.json",
         "package.json: malformed package.json"] := by decide
  rw [hcomplaints] at h
  exact ⟨hwithholds, h.1, h.2.2⟩

end ArchGraph.Discovery
