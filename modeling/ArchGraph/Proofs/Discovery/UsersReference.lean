import ArchGraph.Proofs.Discovery.Relations
import ArchGraph.Proofs.Graph.Identity
import ArchGraph.Proofs.Sql.References
/-!
# Foreign keys into the authentication subsystem

A column that references the platform's users table gives an edge to the authentication subsystem,
and a mention of the users table gives its node. The edge and the node come from two searches, one
in the definition of the column and one in the script as a whole. They agree unless a double quote
stands next to the dot of the reference (`auth_of_foreignKey`); with such a quote the edge is left
without its node (`auth_missing_of_quote`).
-/

namespace ArchGraph.Discovery

open Sql (Migrations Schema Quote SpellsUsers MentionsUsers ToUsers)
open Text (Chars Mentions)

/-! ## Where foreign keys come from -/

/-- Whether an edge is a foreign key. -/
def IsForeignKey (e : Edge) : Prop := ∃ column references, e.detail = .foreignKey column references

/-- A foreign key is one that a table declares. -/
theorem exists_foreignKey {p : Project} {g : Graph} {e : Edge} (he : e ∈ (database p g).edges)
    (hkey : IsForeignKey e) :
    let m := Migrations.ofProject p
    ∃ t ∈ (Schema.ofScript m.text).tables, ∃ key, e ∈ (foreignKeyEdge m t key).edges := by
  obtain ⟨column, references, hforeign⟩ := hkey
  cases related_of_mem_edges he with
  | foreignKey ht _ he => exact ⟨_, ht, _, he⟩
  | trigger _ hdetail | profile _ hdetail =>
    rw [hdetail] at hforeign
    cases hforeign

/-- Only a reference to the users table points at the authentication subsystem. -/
theorem toUsers_of_referencedNode? {ref : ColumnReference}
    (h : referencedNode? ref = some Id.auth) : ToUsers ref := by
  rw [referencedNode?] at h
  simp only at h
  split at h
  · next hname =>
    refine ⟨?_, hname.2⟩
    cases hschema : ref.schema with
    | none => rw [hschema] at hname; exact absurd hname.1 (by decide)
    | some schema => rw [hschema] at hname; exact congrArg some hname.1
  · split at h
    · cases h
    · cases Id.kind_eq_of_node_eq (Option.some.inj h)

/-- The column of a foreign key into the authentication subsystem references the users table. -/
theorem exists_toUsers {m : Migrations} {t : Sql.Table} {key : String × Sql.Region} {e : Edge}
    (he : e ∈ (foreignKeyEdge m t key).edges) (htarget : e.target = .node Id.auth) :
    ∃ c ∈ t.body.columns, ∃ ref ∈ c.references, ToUsers ref := by
  rw [foreignKeyEdge] at he
  simp only at he
  split at he
  · cases he
  · next ref href =>
    obtain ⟨c, hc, href⟩ := Option.bind_eq_some_iff.1 href
    split at he
    · cases he
    · next target hnode =>
      rw [List.mem_singleton.1 he] at htarget
      obtain rfl : target = Id.auth := Target.node.inj htarget
      exact ⟨c, List.mem_of_find?_eq_some hc, ref, href, toUsers_of_referencedNode? hnode⟩

/-! ## The node -/

/-- The authentication subsystem is found if the script mentions the users table. -/
theorem auth_mem_of_mention {p : Project} {g : Graph}
    (h : (Pattern.authUsers.first? (Migrations.ofProject p).text).isSome) :
    ∃ n ∈ (database p g).nodes, n.id = Id.auth ∧ n.kind = .auth := by
  refine ⟨⟨Id.auth, "Auth", none, .auth ⟨some "supabase"⟩⟩, ?_, rfl, rfl⟩
  obtain ⟨found, hfound⟩ := Option.isSome_iff_exists.1 h
  have hauth : ⟨Id.auth, "Auth", none, .auth ⟨some "supabase"⟩⟩ ∈ (authFindings
      (Migrations.ofProject p) (Schema.ofScript (Migrations.ofProject p).text) g).nodes := by
    simp [authFindings, hfound, Findings.node]
  simp only [database, Findings.nodes_append, List.mem_append]
  exact .inl (.inr hauth)

/-- A text mentions the users table with a double quote next to the dot. -/
def MentionsQuotedUsers (text : Chars) : Prop :=
  ∃ before after word, Quote before ∧ Quote after ∧ (before ≠ [] ∨ after ≠ []) ∧
    SpellsUsers before after word ∧ Mentions text word

/-- **No foreign key into the users table dangles without a quote.** If the migrations of a project
give a foreign key into the authentication subsystem, they give its node too, unless they write the
users table with a double quote next to the dot. -/
theorem auth_of_foreignKey (p : Project) (g : Graph) {e : Edge} (he : e ∈ (database p g).edges)
    (hkey : IsForeignKey e) (htarget : e.target = .node Id.auth) :
    (∃ n ∈ (database p g).nodes, n.id = Id.auth ∧ n.kind = .auth) ∨
      MentionsQuotedUsers (Migrations.ofProject p).text := by
  obtain ⟨t, ht, key, he⟩ := exists_foreignKey he hkey
  obtain ⟨c, hc, ref, href, husers⟩ := exists_toUsers he htarget
  obtain ⟨before, after, word, hbefore, hafter, hword, hmention⟩ :=
    Sql.mentionsUsers_of_references ht hc href husers
  by_cases hquote : before ≠ [] ∨ after ≠ []
  · exact .inr ⟨before, after, word, hbefore, hafter, hquote, hword, hmention⟩
  · obtain ⟨rfl, rfl⟩ : before = [] ∧ after = [] := by
      simpa only [ne_eq, not_or, not_not] using hquote
    exact .inl (auth_mem_of_mention (Sql.isSome_authUsers hword hmention))

/-- A project with one migration. -/
def migrated (script : String) : Project where
  id := "p"
  repositories := [.ofPaths "r" "o" "n" ["migrations/a.sql"]]
  contents := .ofList [("migrations/a.sql", script)]

theorem auth_of_foreignKey_plain :
    let p := migrated "create table t (u uuid references auth.users(id));"
    (∃ n ∈ (database p .empty).nodes, n.id = Id.auth ∧ n.kind = .auth) ∨
      MentionsQuotedUsers (Migrations.ofProject p).text := by
  intro p
  obtain ⟨e, he, hdetail, htarget⟩ : ∃ e ∈ (database p .empty).edges,
      e.detail = .foreignKey "u" "auth.users.id" ∧ e.target = .node Id.auth := by decide +kernel
  exact auth_of_foreignKey p .empty he ⟨_, _, hdetail⟩ htarget

/-- **A quote leaves a foreign key dangling.** The column is read as a reference to the users table,
and no mention of the users table is found. -/
theorem auth_missing_of_quote :
    let found := database (migrated "create table t (u uuid references auth.\"users\"(id));") .empty
    ∃ e ∈ found.edges, IsForeignKey e ∧ e.target = .node Id.auth ∧
      ∀ n ∈ found.nodes, n.id ≠ Id.auth := by
  intro found
  obtain ⟨e, he, hdetail, htarget, hnodes⟩ : ∃ e ∈ found.edges,
      e.detail = .foreignKey "u" "auth.users.id" ∧ e.target = .node Id.auth ∧
        ∀ n ∈ found.nodes, n.id ≠ Id.auth := by decide +kernel
  exact ⟨e, he, ⟨_, _, hdetail⟩, htarget, hnodes⟩

end ArchGraph.Discovery
