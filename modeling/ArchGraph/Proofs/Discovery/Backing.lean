import ArchGraph.Proofs.Discovery.Ledger
/-!
# What backs nodes

Repositories, apps, libraries and the subsystems of the database may be there without evidence. All
other nodes claim something, and evidence backs them: about the node itself, or about an edge that has
it as an end. Findings come with what backs their nodes (`Built.backs`), and as long as identifiers do
not collide the graph keeps it (`Backs.backed`). A platform is cited only with the apps that are
deployed to it, so that one whose configurations belong to no app may go without. Main statements:
`claims_backed`, and `strayDocker_unbacked` for such a platform.
-/

namespace ArchGraph.Discovery

open ArchGraph.Graph (exists_first firsts inHistory mem_of_mem_firsts)

variable {t : Task} {p : Project} {g g' : Graph} {known : String → Prop} {stage : Stage} {n : Node}

/-- Whether a node claims something: all do but repositories, apps, libraries and subsystems. -/
def isClaim (n : Node) : Bool :=
  match n.detail with
  | .screen _ | .endpoint _ | .worker _ | .table _ | .function _ | .deployment _
  | .externalService _ => true
  | .package d => d.ecosystem = "npm"
  | _ => false

/-- A graph backs a node: it holds evidence about it, or about an edge that has it as an end. -/
def Backed (g : Graph) (n : Node) : Prop :=
  ∃ r ∈ g.evidence, r.nodeId = n.id ∨
    ∃ e ∈ g.edges, r.edgeId = some e.id ∧ (e.source = n.id ∨ e.target = .node n.id)

instance (g : Graph) (n : Node) : Decidable (Backed g n) :=
  inferInstanceAs (Decidable (∃ r ∈ g.evidence, r.nodeId = n.id ∨
    ∃ e ∈ g.edges, r.edgeId = some e.id ∧ (e.source = n.id ∨ e.target = .node n.id)))

/-! ## Findings -/

theorem Backs.append_left {a : Findings} (h : Backs a n) (b : Findings) : Backs (a ++ b) n := by
  obtain ⟨r, hr, hn | ⟨e, he, hedge⟩⟩ := h
  · exact ⟨r, List.mem_append_left _ hr, .inl hn⟩
  · exact ⟨r, List.mem_append_left _ hr, .inr ⟨e, List.mem_append_left _ he, hedge⟩⟩

theorem Backs.append_right {b : Findings} (h : Backs b n) (a : Findings) : Backs (a ++ b) n := by
  obtain ⟨r, hr, hn | ⟨e, he, hedge⟩⟩ := h
  · exact ⟨r, List.mem_append_right _ hr, .inl hn⟩
  · exact ⟨r, List.mem_append_right _ hr, .inr ⟨e, List.mem_append_right _ he, hedge⟩⟩

/-- Findings back their nodes, apart from those that may go without evidence. -/
theorem Built.backs {f : Findings} (h : Built p g known stage f) :
    ∀ n ∈ f.nodes, Backs f n ∨ Bare p g n := by
  induction h with
  | remarks | citation | relation => simp [Findings.citation]
  | append _ _ iha ihb =>
    intro n hn
    rcases List.mem_append.1 hn with hn | hn
    · exact (iha n hn).imp_left fun h => h.append_left _
    · exact (ihb n hn).imp_left fun h => h.append_right _
  | node _ hb =>
    intro n hn
    obtain rfl := List.mem_singleton.1 hn
    exact .inr hb
  | @citedNode _ c _ hcited _ =>
    intro n hn
    obtain rfl := List.mem_singleton.1 hn
    exact .inl ⟨c.evidence, List.mem_singleton_self _, .inl hcited⟩
  | backedNode _ _ _ hb ih =>
    intro n hn
    rcases List.mem_cons.1 hn with rfl | hn
    · exact .inl (hb.append_right _)
    · exact (ih n hn).imp_left fun h => h.append_right _
  | contained _ _ _ _ _ ih =>
    intro n hn
    refine (ih n ?_).imp_left fun h => h.append_left _
    simpa [Findings.edge] using hn

/-- Of the nodes that may go without evidence, only platforms that deploy nothing claim something. -/
theorem Bare.deploysNothing (h : Bare p g n) (hn : isClaim n = true) :
    n.kind = .deployment ∧ DeploysNothing p g n.id := by
  obtain ⟨id, label, owner, detail⟩ := n
  cases detail with
  | deployment => exact ⟨rfl, h⟩
  | package d =>
    have hnpm : d.ecosystem = "npm" := by simpa [isClaim] using hn
    have hworkspace : d.ecosystem = "workspace" := h
    rw [hnpm] at hworkspace
    exact absurd hworkspace (by decide)
  | screen | endpoint | worker | table | function | externalService => exact False.elim h
  | repo | app | auth | storage => cases hn

theorem DeploysNothing.congr {id : String} (h : DeploysNothing p g id)
    (happs : ∀ repo, Apps.ofGraph g repo = Apps.ofGraph g' repo) : DeploysNothing p g' id := by
  obtain ⟨r, hr, u, hu, hid, hnone⟩ := h
  refine ⟨r, hr, u, hu, hid, fun config hconfig => ?_⟩
  rw [← happs]
  exact hnone config hconfig

theorem Entity.ne_inventory (h : Entity p stage n) (hk : n.kind = .deployment) :
    stage ≠ .inventory := by
  cases h with
  | platform => simp
  | _ => cases hk

/-! ## Edges to external services -/

theorem Relation.known_service {e : Edge} (h : Relation p g known stage e)
    (hk : e.kind = .callsExternal) : ∃ id, known id ∧ e.target = .node id := by
  cases h with
  | serviceCall _ hb | environment _ hb => exact ⟨_, hb, rfl⟩
  | tableAccess _ operation => cases operation <;> cases hk
  | _ => cases hk

/-- An edge to an external service joins nodes that are there in the end. -/
theorem known_of_callsExternal {x : Edge} (hx : x ∈ (allFindings t).flatMap (·.edges))
    (hk : x.kind = .callsExternal) :
    let known := Known (Analysis.ofStages t Stage.all).graph
    known x.source ∧ ∃ id, known id ∧ x.target = .node id := by
  obtain ⟨_, _, e, _, hrel, rfl⟩ := exists_relation hx
  exact ⟨hrel.known_source, hrel.known_service hk⟩

/-- What is digested of two edges between nodes tells what they point at. -/
theorem target_eq_of_message_eq {e e' : Edge} {id id' : String}
    (hsource : ∀ c ∈ e.source.toList, c ∈ Id.letters)
    (hsource' : ∀ c ∈ e'.source.toList, c ∈ Id.letters)
    (hid : ∀ c ∈ id.toList, c ∈ Id.letters) (hid' : ∀ c ∈ id'.toList, c ∈ Id.letters)
    (ht : e.target = .node id) (ht' : e'.target = .node id')
    (h : Id.message e.use.1 e.use.2 = Id.message e'.use.1 e'.use.2) : e.target = e'.target := by
  have htag : ∀ c ∈ "edge".toList, c ∈ Id.letters := by decide
  obtain ⟨-, h⟩ := Id.message_inj htag htag h
  obtain ⟨-, h⟩ := Id.message_inj (edgeKind_subset e.kind) (edgeKind_subset e'.kind) h
  obtain ⟨-, h⟩ := Id.message_inj hsource hsource' h
  rw [ht, ht'] at h ⊢
  exact congrArg Target.node (Id.message_inj hid hid' h).1

/-- A found edge to an external service is there in the end, and points at the service still. -/
theorem exists_serviceEdge (hids : Id.CollisionFree (ledgerUses (allFindings t))) {e : Edge}
    (he : e ∈ (allFindings t).flatMap (·.edges)) (hk : e.kind = .callsExternal) :
    ∃ b ∈ (Analysis.ofStages t Stage.all).graph.edges, b.id = e.id ∧ b.target = e.target := by
  obtain ⟨e₀, hfirst, hid₀⟩ : ∃ e₀ ∈ firsts Edge.id _, e₀.id = e.id := exists_first he
  have hb : inHistory (allFindings t) e₀ ∈ (Analysis.ofStages t Stage.all).graph.edges := by
    rw [graph_allFindings, Graph.edges_merges]
    exact List.mem_map_of_mem hfirst
  refine ⟨_, hb, hid₀, ?_⟩
  obtain ⟨x, hx, target, cited, heq, htarget⟩ := stems_all t _ hb
  have hid : x.id = e.id := (congrArg Edge.id heq).symm.trans hid₀
  have hmessage : Id.message x.use.1 x.use.2 = Id.message e.use.1 e.use.2 := by
    have huse {y : Edge} (hy : y ∈ (allFindings t).flatMap (·.edges)) :
        y.use ∈ ledgerUses (allFindings t) := List.mem_append_left _ (List.mem_map_of_mem hy)
    refine hids _ (huse hx) _ (huse he) ?_
    rw [← named_allFindings x hx, ← named_allFindings e he, hid]
  have hkx : x.kind = .callsExternal := (kind_eq_of_message_eq hmessage).trans hk
  obtain ⟨hsource, id, hnode, ht⟩ := known_of_callsExternal he hk
  obtain ⟨hsource', id', hnode', ht'⟩ := known_of_callsExternal hx hkx
  have hletters {id : String} (h : Known (Analysis.ofStages t Stage.all).graph id) :
      ∀ c ∈ id.toList, c ∈ Id.letters := node_letters (sound_all t) h
  have hsame := target_eq_of_message_eq (hletters hsource') (hletters hsource) (hletters hnode')
    (hletters hnode) ht' ht hmessage
  rw [heq]
  exact (htarget (by simp [hkx])).trans hsame

/-! ## Whole analyses -/

/-- What backs a node among the findings backs it in the end. -/
theorem Backs.backed (hids : Id.CollisionFree (ledgerUses (allFindings t))) {f : Findings}
    (hf : f ∈ allFindings t) (h : Backs f n) : Backed (Analysis.ofStages t Stage.all).graph n := by
  obtain ⟨r, hr, hback⟩ := h
  have hmem : r ∈ (allFindings t).flatMap (·.evidence) := List.mem_flatMap.2 ⟨f, hf, hr⟩
  have hu := unambiguous_allFindings hids
  -- the graph holds the first evidence with the identifier, which says the same about node and edge
  obtain ⟨r₁, hfirst, hid₁⟩ : ∃ r₁ ∈ firsts Evidence.id _, r₁.id = r.id := exists_first hmem
  have hmem₁ := mem_of_mem_firsts hfirst
  refine ⟨r₁, by rwa [evidence_all], ?_⟩
  rcases hback with hnode | ⟨e, he, hedge, hkind, htarget⟩
  · exact .inl ((hu.nodeId r₁ hmem₁ r hmem hid₁).trans hnode)
  · obtain ⟨b, hb, hid, hsame⟩ :=
      exists_serviceEdge hids (List.mem_flatMap.2 ⟨f, hf, he⟩) hkind
    refine .inr ⟨b, hb, ?_, .inr (hsame.trans htarget)⟩
    rw [hu.edgeId r₁ hmem₁ r hmem hid₁, hedge, hid]

/-- **Claims are backed.** In the graph of a whole analysis, as long as identifiers of edges and
evidence do not collide, evidence backs every screen, endpoint, worker, table, function, external
service and registry package, and every platform but those that deploy no app. -/
theorem claims_backed (t : Task) (hids : Id.CollisionFree (ledgerUses (allFindings t))) :
    let g := (Analysis.ofStages t Stage.all).graph
    ∀ n ∈ g.nodes, isClaim n = true →
      Backed g n ∨ n.kind = .deployment ∧ DeploysNothing t.project g n.id := by
  intro g n hn hclaim
  have hfound : n ∈ foundNodes t := mem_of_mem_firsts (nodes_all t ▸ hn)
  obtain ⟨f, hf, hmem⟩ := List.mem_flatMap.1 hfound
  obtain ⟨stage, g₀, hby⟩ := exists_foundBy hf
  rcases hby.built.backs n (hby.nodes_eq ▸ hmem) with hbacks | hbare
  · have hsame : Backs f n := by
      simpa only [Backs, hby.edges_eq, hby.evidence_eq] using hbacks
    exact .inl (hsame.backed hids hf)
  · obtain ⟨hkind, hnothing⟩ := hbare.deploysNothing hclaim
    have hstage := (hby.entity n hmem).ne_inventory hkind
    exact .inr ⟨hkind, hnothing.congr (hby.apps hstage)⟩

theorem lonePage_backed : Id.CollisionFree (ledgerUses (allFindings lonePage)) ∧
    (let g := (Analysis.ofStages lonePage Stage.all).graph
     ∀ n ∈ g.nodes, isClaim n = true →
       Backed g n ∨ n.kind = .deployment ∧ DeploysNothing lonePage.project g n.id) :=
  ⟨collisionFree_lonePage, claims_backed lonePage collisionFree_lonePage⟩

/-- An app, and beside it a configuration of a platform. -/
def strayDocker : Task where
  project := {
    id := "p"
    repositories := [.ofPaths "r" "o" "n" ["apps/web/package.json", "infra/Dockerfile"]]
    contents := .ofList [("apps/web/package.json", "{}"), ("infra/Dockerfile", "FROM node\n")] }
  settings := .default
  catalog := []

/-- The configuration belongs to no app, so that nothing backs the platform. -/
theorem strayDocker_unbacked :
    let g := (Analysis.ofStages strayDocker Stage.all).graph
    ∃ n ∈ g.nodes, isClaim n = true ∧ ¬ Backed g n := by
  decide +kernel

end ArchGraph.Discovery
