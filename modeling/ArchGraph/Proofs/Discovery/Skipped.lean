import ArchGraph.Discovery.Deployment
import ArchGraph.Proofs.Discovery.Malformed
/-!
# Manifests that are skipped

The services of a repository are looked up in the dependencies of its manifests alone, and a
manifest whose dependencies cannot be read is skipped without a word, because the inventory has
complained about it. Both read the same text, one as a record of two fields and the other as a
record of five. An object that is read as the larger record is read as the smaller one, with the
same dependencies (`dependencyNames?_eq`); a list is not, since its first item is the name in one
reading and the dependencies in the other. So the inventory has complained about what is skipped,
except about lists that it reads itself (`skipped_reported_iff`), and there are such lists
(`listed_manifest_unreported`).
-/

namespace ArchGraph

/-! ## Two readings of a manifest -/

namespace Json

/-- Fields may be left unread. -/
theorem objectFields?_of_subset {names few : List String} {members : List (String × Json)}
    {fields : List (Option Json)} (hsubset : few ⊆ names)
    (h : objectFields? names members = some fields) :
    fields = names.map (List.lookup · members) ∧
      objectFields? few members = some (few.map (List.lookup · members)) := by
  unfold objectFields? at h ⊢
  split at h
  · cases h
  · next honce =>
    refine ⟨(Option.some.inj h).symm, if_neg fun hfew => honce ?_⟩
    obtain ⟨name, hname, htwice⟩ := List.any_eq_true.1 hfew
    exact List.any_eq_true.2 ⟨name, hsubset hname, htwice⟩

/-- Reading fields of an array is reading its items, as far as they go. -/
theorem record?_arr {names : List String} {items : List Json} {fields : List (Option Json)}
    (h : record? names false (.arr items) = some fields) :
    fields = items.map some ++ List.replicate (names.length - items.length) none := by
  simp only [record?] at h
  split at h
  · cases h
  · exact (Option.some.inj h).symm

end Json

namespace PackageManifest

/-- A value that is read as a manifest holds the fields of the manifest. -/
theorem fields_of_ofJson? {j : Json} {m : PackageManifest} (h : ofJson? j = some m) :
    ∃ name version dependencies devDependencies workspaces : Option Json,
      j.record? ["name", "version", "dependencies", "devDependencies", "workspaces"] false =
          some [name, version, dependencies, devDependencies, workspaces] ∧
        Json.optional? Json.str? name = some m.name ∧
        Json.default? [] Dependency.ofJson? dependencies = some m.dependencies ∧
        Json.default? [] Dependency.ofJson? devDependencies = some m.devDependencies := by
  unfold ofJson? at h
  split at h
  · next name version dependencies devDependencies workspaces hfields =>
    simp only [Option.pure_def, Option.bind_eq_bind, Option.bind_eq_some_iff,
      Option.some.injEq] at h
    obtain ⟨name', hname, version', -, runtime, hruntime, development, hdevelopment, ws, -, rfl⟩ := h
    exact ⟨_, _, _, _, _, hfields, hname, hruntime, hdevelopment⟩
  · cases h

/-- What is read of an object does not depend on the fields that are left unread. -/
theorem dependencyNames?_of_obj {text : String} {members : List (String × Json)}
    {m : PackageManifest} (hjson : Json.ofText? text = some (.obj members))
    (hread : ofText? text = some m) :
    dependencyNames? text = some (m.allDependencies.map (·.name)) := by
  rw [ofText?, hjson] at hread
  obtain ⟨_, _, _, _, _, hfields, -, hruntime, hdevelopment⟩ := fields_of_ofJson? hread
  have hsubset : ["dependencies", "devDependencies"] ⊆
      ["name", "version", "dependencies", "devDependencies", "workspaces"] := by simp
  have ⟨hlookups, hfew⟩ := Json.objectFields?_of_subset hsubset hfields
  simp only [List.map_cons, List.map_nil, List.cons.injEq, and_true] at hlookups
  obtain ⟨-, -, rfl, rfl, -⟩ := hlookups
  simp only [dependencyNames?, hjson, Option.bind_eq_bind, Option.bind_some, Json.record?, hfew,
    List.map_cons, List.map_nil, hruntime, hdevelopment, allDependencies, Option.pure_def]

/-- The first item of a list is the name of a manifest, and no name is a set of dependencies. -/
theorem dependencyNames?_of_arr {text : String} {first : Json} {rest : List Json}
    {m : PackageManifest} (hjson : Json.ofText? text = some (.arr (first :: rest)))
    (hread : ofText? text = some m) : dependencyNames? text = none := by
  rw [ofText?, hjson] at hread
  obtain ⟨_, _, _, _, _, hfields, hname, -⟩ := fields_of_ofJson? hread
  have hfirst : Dependency.ofJson? first = none := by
    have hitems := Json.record?_arr hfields
    simp only [List.map_cons, List.cons_append, List.cons.injEq] at hitems
    rw [hitems.1] at hname
    cases first with
    | obj members => cases hname
    | _ => rfl
  simp only [dependencyNames?, hjson, Option.bind_eq_bind, Option.bind_some]
  split
  · next dependencies devDependencies hfew =>
    have hitems := Json.record?_arr hfew
    simp only [List.map_cons, List.cons_append, List.cons.injEq] at hitems
    rw [hitems.1, Json.default?, hfirst]
    rfl
  · rfl

/-- Of what is read as a manifest the same dependencies are read alone, unless it is a list. -/
theorem dependencyNames?_eq {text : String} {m : PackageManifest} (hread : ofText? text = some m)
    (hlist : ∀ first rest, Json.ofText? text ≠ some (.arr (first :: rest))) :
    dependencyNames? text = some (m.allDependencies.map (·.name)) := by
  obtain ⟨j, hjson, hvalue⟩ := Option.bind_eq_some_iff.1 hread
  cases j with
  | obj members => exact dependencyNames?_of_obj hjson hread
  | arr items =>
    cases items with
    | nil =>
      obtain rfl : PackageManifest.mk none none [] [] [] = m := Option.some.inj hvalue
      rw [dependencyNames?, hjson]
      rfl
    | cons first rest => exact absurd hjson (hlist first rest)
  | _ => cases hvalue

/-- A list without items is read as an object without fields, a list with a name is not. -/
example : dependencyNames? "[]" = some [] ∧ dependencyNames? "[\"web\"]" = none := by
  decide +kernel

end PackageManifest

namespace Discovery

/-! ## Complaints about manifests -/

theorem mem_warnings_malformed {message place name : String} :
    message ∈ (malformed place name).warnings ↔ message = place ++ ": malformed " ++ name := by
  simp [malformed, Findings.warning]

/-- Complaints about files of different names are different. -/
theorem complaint_ne {place other name name' : String}
    (h : name.toList.getLast? ≠ name'.toList.getLast?) (hname : name.toList ≠ [])
    (hname' : name'.toList ≠ []) :
    place ++ ": malformed " ++ name ≠ other ++ ": malformed " ++ name' := by
  intro heq
  refine h ?_
  have hlast := congrArg (fun s : String => s.toList.getLast?) heq
  simpa only [String.toList_append, List.getLast?_append_of_ne_nil _ hname,
    List.getLast?_append_of_ne_nil _ hname'] using hlast

/-- The inventory complains about a listed manifest whose text it cannot read, and about no other. -/
theorem complaint_iff_rejected {p : Project} {r : Repository} {path text : String}
    (hpath : path ∈ r.paths) (hname : Path.fileName path = "package.json")
    (htext : p.content? r path = some text) :
    path ++ ": malformed package.json" ∈ (inventoryOf p r).warnings ↔
      PackageManifest.ofText? text = none := by
  have hmessage : path ++ ": malformed package.json" = path ++ ": malformed " ++ "package.json" := by
    rw [String.append_assoc]
    rfl
  rw [hmessage, warnings_inventoryOf, warnings_malformedReadings, warnings_malformedReadings]
  simp only [List.mem_append, List.mem_flatMap, mem_warnings_malformed]
  constructor
  · rintro ((⟨other, hother, heq⟩ | ⟨other, -, heq⟩) | hworkspace)
    · obtain rfl : path = other := by simpa [String.ext_iff] using heq
      simpa [refused, htext] using (List.mem_filter.1 hother).2
    · exact absurd heq (complaint_ne (by decide) (by decide) (by decide))
    · exfalso
      unfold workspaceFile at hworkspace
      split at hworkspace
      · cases hworkspace
      · split at hworkspace
        · cases hworkspace
        · exact absurd (mem_warnings_malformed.1 hworkspace)
            (complaint_ne (by decide) (by decide) (by decide))
  · intro hrejected
    exact .inl (.inl ⟨path, by simp [refused, hpath, hname, htext, hrejected], rfl⟩)

/-! ## What is skipped -/

/-- A manifest whose dependencies cannot be read implies no service. -/
theorem packageServices_of_skipped {path text : String}
    (hskipped : PackageManifest.dependencyNames? text = none) :
    packageServices path text = .empty := by
  rw [packageServices, hskipped]
  induction Service.byClientPackage with
  | nil => rfl
  | cons entry rest ih =>
    rw [List.map_cons, Findings.concat_cons, ih]
    rfl

/-- **A skipped manifest has been complained about, unless it is a list.** A listed manifest whose
dependencies cannot be read implies no service. The inventory complains about it, except if its
text is a list that has items and that the inventory itself reads as a manifest. -/
theorem skipped_reported_iff {p : Project} {r : Repository} {path text : String}
    (hpath : path ∈ r.paths) (hname : Path.fileName path = "package.json")
    (htext : p.content? r path = some text)
    (hskipped : PackageManifest.dependencyNames? text = none) :
    packageServices path text = .empty ∧
      (path ++ ": malformed package.json" ∈ (inventoryOf p r).warnings ↔
        ¬ ((PackageManifest.ofText? text).isSome ∧
          ∃ first rest, Json.ofText? text = some (.arr (first :: rest)))) := by
  refine ⟨packageServices_of_skipped hskipped, ?_⟩
  rw [complaint_iff_rejected hpath hname htext]
  constructor
  · rintro hrejected ⟨hread, -⟩
    rw [hrejected] at hread
    cases hread
  · intro hnolist
    by_contra hread
    obtain ⟨m, hm⟩ := Option.ne_none_iff_exists'.1 hread
    have hnames := PackageManifest.dependencyNames?_eq hm fun first rest hlist =>
      hnolist ⟨by rw [hm]; rfl, first, rest, hlist⟩
    rw [hskipped] at hnames
    cases hnames

/-- A repository that has nothing but a manifest at its root. -/
def manifestOnly (text : String) : Project where
  id := "p"
  repositories := [.ofPaths "r1" "acme" "web" ["package.json"]]
  contents := ⟨[("package.json", text)]⟩

/-- An array in the place of an object: both readings reject it. -/
theorem skipped_reported_misplaced :
    PackageManifest.dependencyNames? "\x7b\"dependencies\": []\x7d" = none ∧
      "package.json: malformed package.json" ∈
        (inventoryOf (manifestOnly "\x7b\"dependencies\": []\x7d")
          (.ofPaths "r1" "acme" "web" ["package.json"])).warnings := by
  let r : Repository := .ofPaths "r1" "acme" "web" ["package.json"]
  have hskipped : PackageManifest.dependencyNames? "\x7b\"dependencies\": []\x7d" = none := by
    decide +kernel
  have hpath : "package.json" ∈ r.paths := by decide
  have htext : (manifestOnly "\x7b\"dependencies\": []\x7d").content? r "package.json" =
      some "\x7b\"dependencies\": []\x7d" := by decide +kernel
  have h := skipped_reported_iff hpath (by decide) htext hskipped
  exact ⟨hskipped, h.2.2 fun hread => absurd hread.1 (by decide +kernel)⟩

/-- A list of a name, a version and dependencies: the inventory reads all three without a complaint,
and the service that the package implies is missed. -/
theorem listed_manifest_unreported :
    let text := "[\"web\", \"1.0.0\", \x7b\"@supabase/supabase-js\": \"2\"\x7d]"
    PackageManifest.dependencyNames? text = none ∧
      PackageManifest.ofText? text =
        some ⟨some "web", some "1.0.0", [⟨"@supabase/supabase-js", some "2"⟩], [], []⟩ ∧
      (inventory (manifestOnly text)).warnings = [] ∧
      packageServices "package.json" text = .empty := by
  decide +kernel

end Discovery
end ArchGraph
