import ArchGraph.Proofs.Discovery.UsersReference
import ArchGraph.Proofs.Sql.Places
/-!
# Statements and the files that they lie in

Every table, policy, function and trigger that the migrations declare is cited, and the citation
names the file that holds the statement, all of it but white space, as long as the statement ends
with a semicolon; the node of a table or a function is owned by the file's repository
(`statement_traced`). The statement that ends with the script instead is taken to go on behind its
file, over the line feed that no file holds, and is cited without one
(`untraced_without_semicolon`).
-/

namespace ArchGraph.Discovery

open Sql (Migrations MigrationFile Region Schema LiesIn Ended Stated)

/-! ## Statements -/

/-- The node of a function. -/
def functionNode (m : Migrations) (f : Sql.Function) : Node where
  id := Id.function f.name.schema f.name.name
  label := f.name.name
  owningRepo := m.repoOf? f.region
  detail := .function ⟨f.name.schema, f.language, f.securityDefiner, f.returns⟩

/-- The edge of a trigger. -/
def triggerEdge (t : Sql.Trigger) : Edge :=
  Edge.make .usesFunction (Id.table t.table.schema t.table.name)
    (.node (Id.function t.function.schema t.function.name)) t.name (.trigger t.name) .high

/-- A statement that migrations declare: its part of the script, the node that stands for it, if
there is one of its own, and the citation of it. -/
inductive Declared (m : Migrations) (s : Schema) : Region → Option Node → Citation → Prop where
  | table {t} : t ∈ s.tables → Declared m s t.region (some (tableNode m s t))
      (citeBlock m .dbTable (tableNode m s t).id t.region)
  | policy {t policy} : t ∈ s.tables → policy ∈ s.policiesOf t.name →
      Declared m s policy.region none (citePart m .rlsPolicy (tableNode m s t).id policy.region)
  | function {f} : f ∈ s.functions → Declared m s f.region (some (functionNode m f))
      (citeBlock m .dbFunction (functionNode m f).id f.region)
  /-- A trigger counts if its table is declared. -/
  | trigger {t} : t ∈ s.triggers → (s.table? t.table).isSome = true →
      Declared m s t.region none
        { citePart m .sqlMigration (triggerEdge t).source t.region with
          edgeId := some (triggerEdge t).id }

section

variable {m : Migrations} {s : Schema} {r : Region} {n? : Option Node} {c : Citation}

theorem Declared.stated {text : Text.Chars} (h : Declared m (Schema.ofScript text) r n? c) :
    Stated text r := by
  cases h with
  | table ht => exact Sql.stated_of_mem_tables ht
  | policy _ hpolicy => exact Sql.stated_of_mem_policies (List.mem_of_mem_filter hpolicy)
  | function hf => exact Sql.stated_of_mem_functions hf
  | trigger ht _ => exact Sql.stated_of_mem_triggers ht

theorem filePath_cite (m : Migrations) (kind : EvidenceKind) (nodeId : String) (r : Region) :
    (m.cite kind nodeId r).filePath = (m.locate? r).map (·.path) := by
  unfold Migrations.cite
  cases m.locate? r with
  | none => rfl
  | some place => rfl

/-- What is cited of a statement is the file of its place. -/
theorem Declared.filePath (h : Declared m s r n? c) :
    c.evidence.filePath = (m.locate? r).map (·.path) := by
  cases h with
  | table _ => exact filePath_cite m _ _ _
  | policy _ _ => exact filePath_cite m _ _ _
  | function _ => exact filePath_cite m _ _ _
  | trigger _ _ => exact filePath_cite m _ _ _

theorem Declared.owningRepo (h : Declared m s r n? c) {n : Node} (hn : n ∈ n?) :
    n.owningRepo = m.repoOf? r := by
  cases h with
  | table _ =>
    obtain rfl := Option.mem_some_iff.1 hn
    rfl
  | policy _ _ => cases hn
  | function _ =>
    obtain rfl := Option.mem_some_iff.1 hn
    rfl
  | trigger _ _ => cases hn

end

/-! ## What is found of them -/

/-- Findings that other findings contain. -/
structure PartOf (a b : Findings) : Prop where
  nodes    : a.nodes ⊆ b.nodes
  evidence : a.evidence ⊆ b.evidence

theorem PartOf.trans {a b c : Findings} (h : PartOf a b) (h' : PartOf b c) : PartOf a c :=
  ⟨List.Subset.trans h.nodes h'.nodes, List.Subset.trans h.evidence h'.evidence⟩

theorem PartOf.append_left {a b : Findings} (h : PartOf a b) (more : Findings) :
    PartOf a (b ++ more) := by
  constructor
  · rw [Findings.nodes_append]
    exact List.Subset.trans h.nodes (List.subset_append_left _ _)
  · rw [Findings.evidence_append]
    exact List.Subset.trans h.evidence (List.subset_append_left _ _)

theorem partOf_append_right (before a : Findings) : PartOf a (before ++ a) := by
  constructor
  · rw [Findings.nodes_append]
    exact List.subset_append_right _ _
  · rw [Findings.evidence_append]
    exact List.subset_append_right _ _

theorem partOf_concat_map {α : Type} {x : α} {xs : List α} (hx : x ∈ xs) (f : α → Findings) :
    PartOf (f x) (.concat (xs.map f)) := by
  have hmem : f x ∈ xs.map f := List.mem_map_of_mem hx
  constructor
  · intro n hn
    exact List.mem_flatMap.2 ⟨f x, hmem, hn⟩
  · intro e he
    exact List.mem_flatMap.2 ⟨f x, hmem, he⟩

/-- The citation of a policy is a part of what is found of its table. -/
theorem partOf_tableFindings {m : Migrations} {s : Schema} {t : Sql.Table} {policy : Sql.Policy}
    (h : policy ∈ s.policiesOf t.name) :
    PartOf (.citation (citePart m .rlsPolicy (tableNode m s t).id policy.region))
      (tableFindings m s t) := by
  apply (partOf_concat_map h fun policy : Sql.Policy =>
    Findings.citation (citePart m .rlsPolicy (tableNode m s t).id policy.region)).trans
  apply PartOf.append_left
  exact partOf_append_right _ _

section

variable {p : Project} {g : Graph} {r : Region} {n? : Option Node} {c : Citation}

/-- The tables, functions and triggers of a schema are parts of its database. -/
theorem partOf_database :
    let m := Migrations.ofProject p
    let s := Schema.ofScript m.text
    (∀ t ∈ s.tables, PartOf (tableFindings m s t) (database p g)) ∧
      (∀ f ∈ s.functions, PartOf (functionFindings m f) (database p g)) ∧
        ∀ t ∈ s.triggers, PartOf (triggerFindings m s t) (database p g) := by
  intro m s
  refine ⟨fun t ht => ?_, fun f hf => ?_, fun t ht => ?_⟩
  · apply (partOf_concat_map ht (tableFindings m s)).trans
    iterate 4 apply PartOf.append_left
    exact partOf_append_right _ _
  · apply (partOf_concat_map hf (functionFindings m)).trans
    iterate 3 apply PartOf.append_left
    exact partOf_append_right _ _
  · apply (partOf_concat_map ht (triggerFindings m s)).trans
    iterate 2 apply PartOf.append_left
    exact partOf_append_right _ _

/-- The node and the citation of a statement are found. -/
theorem Declared.found
    (h : Declared (Migrations.ofProject p) (Schema.ofScript (Migrations.ofProject p).text) r n? c) :
    c.evidence ∈ (database p g).evidence ∧ ∀ n ∈ n?, n ∈ (database p g).nodes := by
  obtain ⟨htables, hfunctions, htriggers⟩ := partOf_database (p := p) (g := g)
  cases h with
  | @table t ht =>
    have hpart := htables t ht
    constructor
    · apply hpart.evidence
      simp [tableFindings, Findings.citation]
    · intro n hn
      obtain rfl := Option.mem_some_iff.1 hn
      apply hpart.nodes
      simp [tableFindings, Findings.node]
  | @policy t policy ht hpolicy =>
    constructor
    · apply ((partOf_tableFindings hpolicy).trans (htables t ht)).evidence
      exact List.mem_singleton_self _
    · intro n hn
      cases hn
  | @function f hf =>
    have hpart := hfunctions f hf
    constructor
    · apply hpart.evidence
      exact List.mem_singleton_self _
    · intro n hn
      obtain rfl := Option.mem_some_iff.1 hn
      apply hpart.nodes
      exact List.mem_singleton_self _
  | @trigger t ht htable =>
    have hpart := htriggers t ht
    constructor
    · apply hpart.evidence
      unfold triggerFindings
      rw [if_neg (by simpa [Option.isSome_iff_ne_none] using htable)]
      exact List.mem_singleton_self _
    · intro n hn
      cases hn

/-- **Statements and their files.** A statement that the migrations declare is cited, and its
citation names a file, which owns the node of the statement, exactly if all of the statement but
white space lies in the file and the statement ends with a semicolon. -/
theorem statement_traced (p : Project) (g : Graph)
    (h : Declared (Migrations.ofProject p) (Schema.ofScript (Migrations.ofProject p).text) r n? c) :
    let m := Migrations.ofProject p
    (c.evidence ∈ (database p g).evidence ∧ ∀ n ∈ n?, n ∈ (database p g).nodes) ∧
      ∃ f? : Option MigrationFile,
        (∀ f, f ∈ f? ↔ f ∈ m.files ∧ LiesIn m.text r f ∧ Ended m.text r) ∧
          c.evidence.filePath = f?.map (·.path) ∧ ∀ n ∈ n?, n.owningRepo = f?.map (·.repo) := by
  intro m
  obtain ⟨f?, hf?, hpath, hrepo⟩ := (Migrations.laid_ofProject p).traced h.stated
  refine ⟨h.found, f?, hf?, ?_, ?_⟩
  · rw [h.filePath]
    exact hpath
  · intro n hn
    rw [h.owningRepo hn]
    exact hrepo

end

/-- The table of a migration that ends with a semicolon is cited with its file. -/
theorem statement_traced_ended :
    let p := migrated "create table t (id int);"
    let m := Migrations.ofProject p
    let s := Schema.ofScript m.text
    ∃ t ∈ s.tables, ∃ f ∈ m.files, (LiesIn m.text t.region f ∧ Ended m.text t.region) ∧
      (citeBlock m .dbTable (tableNode m s t).id t.region).evidence.filePath = some f.path ∧
        (tableNode m s t).owningRepo = some f.repo := by
  intro p m s
  obtain ⟨t, ht, hpath⟩ : ∃ t ∈ s.tables,
      (citeBlock m .dbTable (tableNode m s t).id t.region).evidence.filePath =
        some "migrations/a.sql" := by decide +kernel
  obtain ⟨-, f?, hf?, hfile, hrepo⟩ := statement_traced p .empty (.table ht)
  cases f? with
  | none => exact absurd (hpath.symm.trans hfile) (by simp)
  | some f =>
    obtain ⟨hf, hlies⟩ := (hf? f).1 rfl
    exact ⟨t, ht, f, hf, hlies, hfile, hrepo _ rfl⟩

/-- **A statement without its semicolon is not traced.** All of the statement but the line feed
behind it lies in the only file, and neither its citation nor its node names the file. -/
theorem untraced_without_semicolon :
    let p := migrated "create table t (id int)"
    let m := Migrations.ofProject p
    let s := Schema.ofScript m.text
    ∃ t ∈ s.tables, (∃ f ∈ m.files, LiesIn m.text t.region f) ∧
      (citeBlock m .dbTable (tableNode m s t).id t.region).evidence ∈ (database p .empty).evidence ∧
        (citeBlock m .dbTable (tableNode m s t).id t.region).evidence.filePath = none ∧
          (tableNode m s t).owningRepo = none := by
  intro p m s
  obtain ⟨t, ht, hregion, hcited, hpath, hrepo⟩ : ∃ t ∈ s.tables, t.region = ⟨0, 24⟩ ∧
      (citeBlock m .dbTable (tableNode m s t).id t.region).evidence ∈ (database p .empty).evidence ∧
        (citeBlock m .dbTable (tableNode m s t).id t.region).evidence.filePath = none ∧
          (tableNode m s t).owningRepo = none := by decide +kernel
  obtain ⟨f, hf, hstart, hstop⟩ : ∃ f ∈ m.files, f.start = 0 ∧ f.stop = 23 := by decide +kernel
  refine ⟨t, ht, ⟨f, hf, ?_⟩, hcited, hpath, hrepo⟩
  have hline : m.text[23]? = some '\n' := by decide +kernel
  intro place c hplace hplace' hget hblank
  rw [hregion] at hplace hplace'
  have hne : place ≠ 23 := by
    rintro rfl
    obtain rfl := Option.some.inj (hline.symm.trans hget)
    cases hblank
  simp only at hplace'
  omega

end ArchGraph.Discovery
