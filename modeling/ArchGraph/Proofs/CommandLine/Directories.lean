import ArchGraph.CommandLine.Run
import ArchGraph.Proofs.Corpus.Keys
import ArchGraph.Proofs.Discovery.Containment
import ArchGraph.Proofs.Discovery.Quotation
import ArchGraph.Proofs.Discovery.Siblings
/-!
# The directories of an analysis

An analysis accepts directories whose names differ (`analysis_eq_ok_iff`). Identifiers are made
from normalized names, though, and names that differ may be normalized to one: the repositories of
such directories share a node, and their apps, pages and handlers belong to each of them. Main
statements: `directories_kept_apart`, the graph keeps the directories of an accepted analysis apart
exactly if their names differ once they are normalized, and `directories_merged`, two directories
that become one repository.
-/

namespace ArchGraph.Discovery

variable {t : Task} {g : Graph} {stage : Stage} {n : Node} {r : Repository}

/-! ## What is found in a repository -/

/-- What a stage finds, it finds in one repository after the other. -/
theorem nodes_foundIn (t : Task) (g : Graph) (h : stage ≠ .database) :
    (t.findings g stage).nodes =
      t.project.repositories.flatMap fun r => (t.foundIn g r stage).nodes := by
  cases stage with
  | database => exact absurd rfl h
  | features => simp [Task.findings, features, Task.foundIn, Findings.empty]
  | endpoints =>
    rw [findings_endpoints, Findings.nodes_append]
    exact (List.append_nil _).trans (List.flatMap_map _ _ _)
  | inventory | screens | deployment => exact List.flatMap_map _ _ _

/-- What is found in a repository depends on the settings and on the texts of its files. -/
theorem foundIn_congr {t' : Task} (hs : t'.settings = t.settings)
    (hp : t'.project.content? r = t.project.content? r) (g : Graph) (stage : Stage) :
    t'.foundIn g r stage = t.foundIn g r stage := by
  cases stage with
  | inventory =>
    have hreadings {α : Type} (name : String) (read : String → Option α) :
        readings t'.project r name read = readings t.project r name read := by
      rw [readings, readings, hp]
    have hworkspace : workspaceFile t'.project r = workspaceFile t.project r := by
      rw [workspaceFile, workspaceFile, hp]
    simp only [Task.foundIn, inventoryOf, hreadings, hworkspace]
  | screens => simp only [Task.foundIn, screensOf, hs, hp]
  | endpoints => simp only [Task.foundIn, endpointsOf, hs, hp]
  | deployment =>
    have hplatform : platformFindings t'.project r = platformFindings t.project r := by
      funext apps names u
      rw [platformFindings, platformFindings, hp]
    have hvariables : variableUses t'.project r = variableUses t.project r := by
      rw [variableUses, variableUses, hp]
    have hscheduled : scheduled t'.project r = scheduled t.project r := by
      funext apps endpoints u
      rw [scheduled, scheduled, hp]
    simp only [Task.foundIn, deploymentOf, hplatform, hvariables, hscheduled, hp]
  | database | features => rfl

/-- The task with one repository alone. -/
def Task.alone (t : Task) (r : Repository) : Task :=
  { t with project := { t.project with repositories := [r] } }

/-- What is found in a repository is found in it if it is alone. -/
theorem entity_foundIn (hn : n ∈ (t.foundIn g r stage).nodes) :
    Entity (t.alone r).project stage n := by
  by_cases h : stage = .database
  · subst h
    cases hn
  · have hsettings : (t.alone r).settings = t.settings := rfl
    have hcontent : (t.alone r).project.content? r = t.project.content? r := rfl
    have hsame := foundIn_congr hsettings hcontent g stage
    refine entity_found (t.alone r) g stage n ?_
    rw [← hsame] at hn
    rw [nodes_foundIn _ g h]
    exact List.mem_flatMap.2 ⟨r, List.mem_singleton_self r, hn⟩

/-- A node is found in a repository, by a stage beside the graph of the stages before it. -/
def FoundIn (t : Task) (r : Repository) (n : Node) : Prop :=
  ∃ before stage after, Stage.all = before ++ stage :: after ∧
    n ∈ (t.foundIn (before.foldl t.after .empty) r stage).nodes

/-- The kinds of what belongs to one repository. -/
def belongingKinds : List NodeKind := [.app, .screen, .endpoint, .worker]

/-- What is found in a repository belongs to it. -/
theorem FoundIn.owningRepo (h : FoundIn t r n) (hk : n.kind ∈ belongingKinds) :
    n.owningRepo = some r.nodeId := by
  obtain ⟨_, _, _, -, hn⟩ := h
  cases entity_foundIn hn with
  | app hr | screen hr | endpoint hr | worker hr => obtain rfl := List.mem_singleton.1 hr; rfl
  | _ => simp [belongingKinds, Node.kind, NodeDetail.kind] at hk

theorem kind_of_ownedUse? {u : String × List String} (h : ownedUse? n = some u) :
    n.kind ∈ belongingKinds := by
  obtain ⟨_, -, hu⟩ := Option.bind_eq_some_iff.1 h
  unfold Node.kind
  split at hu <;> simp_all [belongingKinds, NodeDetail.kind]

/-- What makes up a database belongs to no single repository. -/
theorem not_belonging_of_database (hn : n ∈ (t.findings g .database).nodes) :
    n.kind ∉ belongingKinds := by
  cases entity_found t g _ n hn <;> simp [belongingKinds, Node.kind, NodeDetail.kind]

theorem ownedUses_database (t : Task) (g : Graph) :
    (t.findings g .database).nodes.filterMap ownedUse? = [] := by
  refine List.filterMap_eq_nil_iff.2 fun n hn => Option.eq_none_iff_forall_ne_some.2 fun u hu => ?_
  exact not_belonging_of_database hn (kind_of_ownedUse? hu)

theorem findings_mem_history (t : Task) (after : List Stage) : ∀ (before : List Stage) (g : Graph),
    t.findings (before.foldl t.after g) stage ∈ t.history g (before ++ stage :: after)
  | [], _ => List.mem_cons_self
  | first :: before, g =>
    List.mem_cons_of_mem _ (findings_mem_history t after before (t.after g first))

theorem FoundIn.mem (h : FoundIn t r n) (hr : r ∈ t.project.repositories) : n ∈ foundNodes t := by
  obtain ⟨before, stage, after, hall, hn⟩ := h
  have hne : stage ≠ .database := by
    rintro rfl
    cases hn
  have hf : t.findings (before.foldl t.after .empty) stage ∈ allFindings t := by
    rw [allFindings, hall]
    exact findings_mem_history t after before .empty
  refine List.mem_flatMap.2 ⟨_, hf, ?_⟩
  rw [nodes_foundIn t _ hne]
  exact List.mem_flatMap.2 ⟨r, hr, hn⟩

/-- What belongs to a repository is found in one. -/
theorem exists_foundIn (hn : n ∈ foundNodes t) (hk : n.kind ∈ belongingKinds) :
    ∃ r ∈ t.project.repositories, FoundIn t r n := by
  obtain ⟨f, hf, hmem⟩ := List.mem_flatMap.1 hn
  obtain ⟨before, stage, after, hall, rfl⟩ := exists_of_mem_history hf
  have hne : stage ≠ .database := by
    rintro rfl
    exact not_belonging_of_database hmem hk
  rw [nodes_foundIn t _ hne] at hmem
  obtain ⟨r, hr, hmem⟩ := List.mem_flatMap.1 hmem
  exact ⟨r, hr, before, stage, after, hall, hmem⟩

/-! ## Repositories that are kept apart -/

/-- A graph keeps the repositories of a task apart. -/
structure KeptApart (t : Task) (g : Graph) : Prop where
  /-- Every repository has a node of its own, and there are no others. -/
  repos : ((g.nodesOf .repo).map Node.id).Perm (t.project.repositories.map Repository.nodeId)
  /-- What is found in a repository belongs to it and to no other one. -/
  owned : ∀ r ∈ t.project.repositories, ∀ n, FoundIn t r n → n.kind ∈ belongingKinds →
    ∃ b ∈ g.nodes, b.id = n.id ∧
      ∀ r' ∈ t.project.repositories, b.owningRepo = some r'.nodeId ↔ r' = r
  /-- Whatever belongs to a repository is found in one. -/
  found : ∀ b ∈ g.nodes, b.kind ∈ belongingKinds → ∃ r ∈ t.project.repositories, FoundIn t r b

/-- The uses of the generator for the identifiers of repositories. -/
def repoUses (p : Project) : List (String × List String) :=
  p.repositories.map fun r => (NodeKind.repo.name, [Id.normalize r.id])

/-- Identifiers of repositories are told apart by normalized names. -/
theorem nodup_nodeId_iff {p : Project} (hids : Id.CollisionFree (repoUses p)) :
    (p.repositories.map Repository.nodeId).Nodup ↔
      (p.repositories.map fun r => Id.normalize r.id).Nodup := by
  have hmap : p.repositories.map Repository.nodeId =
      (p.repositories.map fun r => Id.normalize r.id).map
        fun name => Id.ofParts NodeKind.repo.name [name] := by
    rw [List.map_map]
    rfl
  rw [hmap]
  refine ⟨List.Nodup.of_map _, List.Nodup.map_on fun name hname name' hname' heq => ?_⟩
  have hmem {name : String} (h : name ∈ p.repositories.map fun r => Id.normalize r.id) :
      (NodeKind.repo.name, [name]) ∈ repoUses p := by
    obtain ⟨r, hr, rfl⟩ := List.mem_map.1 h
    exact List.mem_map_of_mem hr
  have hmessage := hids _ (hmem hname) _ (hmem hname') heq
  simp only [Id.message, List.append_cancel_left_eq, List.flatMap_singleton, List.cons.injEq,
    true_and] at hmessage
  exact Id.utf8_inj hmessage

/-- Capitals, slashes and blanks at the end do not keep names apart. -/
example : Id.normalize "Web/ " = Id.normalize "web" := by decide +kernel

/-- The repositories of a project have nodes, and no others have. -/
theorem mem_ids_repos (t : Task) (id : String) :
    id ∈ ((Analysis.ofStages t Stage.all).graph.nodesOf .repo).map Node.id ↔
      id ∈ t.project.repositories.map Repository.nodeId := by
  constructor
  · intro h
    obtain ⟨n, hn, rfl⟩ := List.mem_map.1 h
    obtain ⟨hn, hk⟩ := List.mem_filter.1 hn
    obtain ⟨_, he⟩ := (sound_all t).entities n hn
    have hk : n.kind = .repo := by simpa using hk
    cases he with
    | repo hr => exact List.mem_map_of_mem hr
    | _ => cases hk
  · intro h
    obtain ⟨r, hr, rfl⟩ := List.mem_map.1 h
    have hholds : HoldsRepos t.project (Analysis.ofStages t Stage.all).graph := by
      rw [graph_all]
      exact (sound_reached t _).2
    obtain ⟨n, hn, hid⟩ := List.mem_map.1 (hholds r hr)
    obtain ⟨_, he⟩ := (sound_all t).entities n hn
    obtain ⟨parts, hparts⟩ := he.id_eq
    have hk : n.kind = .repo := Id.kind_eq_of_node_eq (hparts.symm.trans hid)
    exact hid ▸ List.mem_map_of_mem (List.mem_filter.2 ⟨hn, by simpa using hk⟩)

theorem nodup_ids_repos (t : Task) :
    (((Analysis.ofStages t Stage.all).graph.nodesOf .repo).map Node.id).Nodup :=
  (sound_all t).distinct.nodes.sublist (List.filter_sublist.map _)

/-- **Repositories are kept apart by normalized names**, as long as identifiers do not collide. -/
theorem keptApart_iff (t : Task) (hrepos : Id.CollisionFree (repoUses t.project))
    (hids : Id.CollisionFree ((foundNodes t).filterMap ownedUse?)) :
    KeptApart t (Analysis.ofStages t Stage.all).graph ↔
      (t.project.repositories.map fun r => Id.normalize r.id).Nodup := by
  rw [← nodup_nodeId_iff hrepos]
  constructor
  · intro h
    exact h.repos.nodup_iff.1 (nodup_ids_repos t)
  · intro hnodup
    refine ⟨(List.perm_ext_iff_of_nodup (nodup_ids_repos t) hnodup).2 (mem_ids_repos t), ?_, ?_⟩
    · intro r hr n hn hk
      obtain ⟨b, hb, hid⟩ := exists_node (hn.mem hr)
      have hfound : b ∈ foundNodes t := Graph.mem_of_mem_firsts (nodes_all t ▸ hb)
      have howner : b.owningRepo = some r.nodeId :=
        (owningRepo_eq hids (hn.mem hr) hfound hid.symm hk).symm.trans (hn.owningRepo hk)
      refine ⟨b, hb, hid, fun r' hr' => ?_⟩
      rw [howner, Option.some.injEq]
      exact ⟨fun h => List.inj_on_of_nodup_map hnodup hr' hr h.symm, fun h => h ▸ rfl⟩
    · intro b hb hk
      exact exists_foundIn (Graph.mem_of_mem_firsts (nodes_all t ▸ hb)) hk

end ArchGraph.Discovery

namespace ArchGraph.CommandLine

open Corpus (Loaded LoadedFile)
open Discovery

variable {h : Host} {s : Settings} {r : AnalyzeRequest} {a : Analysis} {ls : List Loaded}

/-! ## Accepted directories -/

/-- Directories can be added to a project if they can be loaded and the repositories all have
different identifiers. -/
theorem addAll_eq_ok_iff {s : CorpusSettings} {q : Project} : ∀ {dirs : List String} {p : Project},
    (p.repositories.map (·.id)).Nodup →
      (addAll s h p dirs = .ok q ↔ ∃ ls, dirs.mapM (Corpus.load? s h) = some ls ∧
        ((p.repositories ++ ls.map (·.repository)).map (·.id)).Nodup ∧
          ls.foldl Project.addLoaded p = q)
  | [], p, hp => by simp [addAll, hp]
  | dir :: dirs, p, hp => by
    cases hl : Corpus.load? s h dir with
    | none => simp [addAll, List.mapM_cons, hl]
    | some l =>
      have hmap : (dir :: dirs).mapM (Corpus.load? s h) =
          (dirs.mapM (Corpus.load? s h)).map (l :: ·) := by
        rw [List.mapM_cons, hl, Option.map_eq_bind]
        rfl
      simp only [addAll, hl, hmap]
      by_cases hmem : l.repository.id ∈ p.repositories.map (·.id)
      · rw [if_pos (by simpa using hmem)]
        refine iff_of_false (by simp) ?_
        rintro ⟨ls, hls, hnodup, -⟩
        obtain ⟨ls, -, rfl⟩ := Option.map_eq_some_iff.1 hls
        rw [List.map_append, List.nodup_append] at hnodup
        exact absurd rfl (hnodup.2.2 _ hmem _ (by simp))
      · rw [if_neg (by simpa using hmem)]
        have hadded : ((p.addLoaded l).repositories.map (·.id)).Nodup := by
          simpa [Project.addLoaded, List.nodup_append, hp] using hmem
        rw [addAll_eq_ok_iff hadded]
        simp [Project.addLoaded]

/-- What an analysis of loaded repositories works on. -/
def task (s : Settings) (id : String) (ls : List Loaded) : Task :=
  ⟨.ofLoaded id ls, s, FeatureDefinition.catalog⟩

/-- Directories make up a task if they can be loaded and their names all differ. -/
theorem taskFor_eq_ok_iff {t : Task} : taskFor h s r = .ok t ↔ ∃ id ls,
    projectId h r = .ok id ∧ (r.dir :: r.others).mapM (Corpus.load? s.corpus h) = some ls ∧
      (ls.map (·.repository.id)).Nodup ∧ task s id ls = t := by
  have hadd (id : String) (p : Project) :
      addAll s.corpus h (.empty id) (r.dir :: r.others) = .ok p ↔ ∃ ls,
        (r.dir :: r.others).mapM (Corpus.load? s.corpus h) = some ls ∧
        (ls.map (·.repository.id)).Nodup ∧ .ofLoaded id ls = p := by
    rw [addAll_eq_ok_iff (p := .empty id) List.nodup_nil]
    simp only [Project.empty, List.nil_append, List.map_map]
    rfl
  constructor
  · intro ht
    simp only [taskFor] at ht
    cases hid : projectId h r with
    | error _ => simp [hid, bind, Except.bind] at ht
    | ok id =>
      cases hp : addAll s.corpus h (.empty id) (r.dir :: r.others) with
      | error _ => simp [hid, hp, bind, Except.bind] at ht
      | ok p =>
        simp only [hid, hp, bind, Except.bind, pure, Except.pure, Except.ok.injEq] at ht
        obtain ⟨ls, hls, hnodup, rfl⟩ := (hadd id p).1 hp
        exact ⟨id, ls, rfl, hls, hnodup, ht⟩
  · rintro ⟨id, ls, hid, hls, hnodup, rfl⟩
    simp only [taskFor, hid, (hadd _ _).2 ⟨ls, hls, hnodup, rfl⟩]
    rfl

/-- **Analyses that are accepted**: settings without a fault, a name for the project, and
directories that can be loaded and whose names all differ. -/
theorem analysis_eq_ok_iff : analysis h s r = .ok a ↔ ∃ ls,
    (r.dir :: r.others).mapM (Corpus.load? s.corpus h) = some ls ∧
      (ls.map (·.repository.id)).Nodup ∧ s.fault? = none ∧ projectId h r = .ok a.projectId ∧
        Analysis.ofStages (task s a.projectId ls) Stage.all = a := by
  have hrun (t : Task) : (Analysis.run t Stage.all).mapError Failure.invalid = .ok a ↔
      t.settings.fault? = none ∧ Analysis.ofStages t Stage.all = a := by
    rw [Analysis.run]
    cases t.settings.fault? <;> simp [Except.mapError]
  constructor
  · intro ha
    simp only [analysis] at ha
    cases ht : taskFor h s r with
    | error _ => simp [ht, bind, Except.bind] at ha
    | ok t =>
      simp only [ht, bind, Except.bind, hrun] at ha
      obtain ⟨id, ls, hid, hls, hnodup, rfl⟩ := taskFor_eq_ok_iff.1 ht
      obtain ⟨hfault, ha⟩ := ha
      obtain rfl : a.projectId = id := by
        rw [← ha]
        exact Project.id_ofLoaded id ls
      exact ⟨ls, hls, hnodup, hfault, hid, ha⟩
  · rintro ⟨ls, hls, hnodup, hfault, hid, ha⟩
    have ht : taskFor h s r = .ok (task s a.projectId ls) :=
      taskFor_eq_ok_iff.2 ⟨_, ls, hid, hls, hnodup, rfl⟩
    simp only [analysis, ht]
    exact (hrun _).2 ⟨hfault, ha⟩

/-- Checking sums refuses analyses and changes none. -/
theorem checkedAnalysis_eq_ok_iff {t : Task} (ht : taskFor h s r = .ok t) :
    checkedAnalysis h s r = .ok a ↔
      analysis h s r = .ok a ∧ ∀ stage ∈ Stage.all, t.overflows stage = false := by
  simp only [checkedAnalysis, ht, bind, Except.bind]
  cases analysis h s r with
  | error _ => simp
  | ok b =>
    dsimp only
    by_cases hover : Stage.all.any t.overflows = true
    · rw [if_pos hover]
      obtain ⟨stage, hstage, hsum⟩ := List.any_eq_true.1 hover
      exact iff_of_false (by simp) fun ⟨_, hnone⟩ => by simp [hnone stage hstage] at hsum
    · rw [if_neg hover]
      rw [Bool.not_eq_true, List.any_eq_false] at hover
      exact (and_iff_left fun stage hstage => by simpa using hover stage hstage).symm

/-- **Directories are kept apart by normalized names.** The names of the directories of an accepted
analysis differ; its graph keeps them apart, as long as identifiers do not collide, exactly if they
still differ once they are normalized. -/
theorem directories_kept_apart (ha : analysis h s r = .ok a)
    (hls : (r.dir :: r.others).mapM (Corpus.load? s.corpus h) = some ls)
    (hrepos : Id.CollisionFree (repoUses (.ofLoaded a.projectId ls)))
    (hids : Id.CollisionFree ((foundNodes (task s a.projectId ls)).filterMap ownedUse?)) :
    (ls.map (·.repository.id)).Nodup ∧ (KeptApart (task s a.projectId ls) a.graph ↔
      (ls.map fun l => Id.normalize l.repository.id).Nodup) := by
  obtain ⟨_, hls', hnodup, -, -, hall⟩ := analysis_eq_ok_iff.1 ha
  obtain rfl := Option.some.inj (hls.symm.trans hls')
  have hiff := keptApart_iff (task s a.projectId ls) hrepos hids
  rw [hall] at hiff
  have hnames : (task s a.projectId ls).project.repositories.map (fun r => Id.normalize r.id) =
      ls.map fun l => Id.normalize l.repository.id := by
    rw [task, Project.repositories_ofLoaded, List.map_map]
    rfl
  exact ⟨hnodup, hnames ▸ hiff⟩

/-- A page. -/
def onePage : LoadedFile := ⟨"pages/a.js", 1, "x"⟩

/-- A host with two directories, each with a page for the same route. -/
def twoDirectories (name other : String) : Host where
  root :=
    let pages := FileTree.dir [("pages", .dir [("a.js", .file ⟨#[120]⟩)])]
    .dir [(name, pages), (other, pages)]
  workingDir := []
  environment := []
  configDir := none
  git := fun _ => .none

/-- The two directories as repositories. -/
def twoLoaded (name other : String) : List Loaded :=
  [.ofFiles name [onePage], .ofFiles other [onePage]]

/-- The analysis of two directories. -/
def analyzeTwo (name other : String) : AnalyzeRequest := ⟨name, [other], none, none, true⟩

/-- The analysis of two directories with different names is accepted. -/
theorem analysis_twoDirectories {name other : String} (hne : name ≠ other)
    (hls : [name, other].mapM (Corpus.load? .default (twoDirectories name other)) =
      some (twoLoaded name other))
    (hid : projectId (twoDirectories name other) (analyzeTwo name other) = .ok name) :
    analysis (twoDirectories name other) .default (analyzeTwo name other) = .ok
      (Analysis.ofStages (task .default name (twoLoaded name other)) Stage.all) := by
  refine analysis_eq_ok_iff.2 ⟨_, hls, ?_, Settings.fault?_default, ?_, ?_⟩
  · simpa [twoLoaded, Loaded.ofFiles] using hne
  · exact hid.trans (congrArg Except.ok (Project.id_ofLoaded name _).symm)
  · exact congrArg (fun id => Analysis.ofStages (task _ id _) _) (Project.id_ofLoaded name _)

/-- What is found in two directories belongs to one or the other. -/
theorem owned_webAndApi :
    (foundNodes (task .default "web" (twoLoaded "web" "api"))).filterMap ownedUse? =
      [("app", ["repo_9b3bf62ab8050994", "."]), ("app", ["repo_0e9a1cbf0eea133b", "."]),
       ("screen", ["repo_9b3bf62ab8050994", "/a"]),
       ("screen", ["repo_0e9a1cbf0eea133b", "/a"])] := by
  simp only [foundNodes, allFindings, Stage.all, Task.history, List.flatMap_cons, List.flatMap_nil,
    List.filterMap_append, ownedUses_database]
  decide +kernel

/-- Two directories whose names still differ once they are normalized. -/
theorem kept_apart_webAndApi :
    let ls := twoLoaded "web" "api"
    let a := Analysis.ofStages (task .default "web" ls) Stage.all
    let t := task .default a.projectId ls
    analysis (twoDirectories "web" "api") .default (analyzeTwo "web" "api") = .ok a ∧
      ["web", "api"].mapM (Corpus.load? .default (twoDirectories "web" "api")) = some ls ∧
      Id.CollisionFree (repoUses t.project) ∧
      Id.CollisionFree ((foundNodes t).filterMap ownedUse?) ∧ KeptApart t a.graph := by
  intro ls a t
  have hls : ["web", "api"].mapM (Corpus.load? .default (twoDirectories "web" "api")) =
      some ls := by decide +kernel
  have ha : analysis (twoDirectories "web" "api") .default (analyzeTwo "web" "api") = .ok a :=
    analysis_twoDirectories (by decide) hls (by decide)
  have ht : t = task .default "web" ls :=
    congrArg (fun id => task .default id ls) (Project.id_ofLoaded "web" ls)
  have hrepos : Id.CollisionFree (repoUses t.project) := by
    rw [ht]
    exact Id.collisionFree_of_nodup (by decide +kernel)
  have hids : Id.CollisionFree ((foundNodes t).filterMap ownedUse?) := by
    rw [ht, owned_webAndApi]
    exact Id.collisionFree_of_nodup (by decide +kernel)
  refine ⟨ha, hls, hrepos, hids, ?_⟩
  exact (directories_kept_apart ha hls hrepos hids).2.2 (by decide)

/-- Two directories that become one repository. -/
theorem directories_merged :
    ∃ a, analysis (twoDirectories "Web" "web") .default (analyzeTwo "Web" "web") = .ok a ∧
      (a.graph.nodesOf .repo).map Node.id = [Id.repo "web"] ∧ Id.repo "Web" = Id.repo "web" := by
  have hid : Id.repo "Web" = Id.repo "web" :=
    congrArg (fun name => Id.ofParts NodeKind.repo.name [name]) (by decide)
  have hls : ["Web", "web"].mapM (Corpus.load? .default (twoDirectories "Web" "web")) =
      some (twoLoaded "Web" "web") := by decide +kernel
  refine ⟨_, analysis_twoDirectories (by decide) hls (by decide), ?_, hid⟩
  have hmem : ∀ id, id ∈ [Id.repo "Web", Id.repo "web"] ↔ id ∈ [Id.repo "web"] := by simp [hid]
  refine List.perm_singleton.1 ((List.perm_ext_iff_of_nodup (nodup_ids_repos _) (by simp)).2 ?_)
  exact fun id => (mem_ids_repos _ id).trans (hmem id)

end ArchGraph.CommandLine
