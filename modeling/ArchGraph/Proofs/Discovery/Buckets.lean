import ArchGraph.Proofs.Discovery.UsersReference
import ArchGraph.Proofs.Sql.Places
import ArchGraph.Proofs.Sql.Tuples
import ArchGraph.Proofs.Text.Order
/-!
# Buckets

The storage subsystem has the buckets that calls access and those that insertions create, in order
and each once (`buckets_of_insertions`). What an insertion creates is looked for in every pair of
brackets up to the end of its statement. For tuples without brackets of their own these are the
tuples of its list and whatever the clause behind the list has in brackets: the column that a
conflict is about becomes a bucket (`conflict_read_as_bucket`).
-/

namespace ArchGraph.Discovery

open Sql (Migrations Schema Innermost TupleList)
open Text (Chars)

/-! ## Insertions -/

/-- The values of an insertion go on to the end of its statement. -/
theorem values_of_insertion {text : Chars} {m : Match} (h : m ∈ Pattern.bucketInsert.all text) :
    ∃ before after, text = before ++ (m.text 2).toList ++ after ∧ ';' ∉ (m.text 2).toList ∧
      ∀ c ∈ after.head?, c = ';' := by
  obtain ⟨front, rest, htext, hmatch⟩ := Pattern.exists_of_mem_allFrom h
  unfold Pattern.matchAt? Pattern.bucketInsert at hmatch
  rw [Pattern.run_seq] at hmatch
  obtain ⟨head, rest', more, hrest, hmore, hmatch⟩ := Pattern.exists_run _ hmatch
  rw [Pattern.run_group] at hmatch
  obtain ⟨values, after, hrest', hvalues, hafter, hm⟩ :=
    Pattern.run_many_of_total (fun _ _ => rfl) hmatch
  have hgroup : m.text 2 = String.ofList values := by
    rw [← Option.some.inj hm]
    exact congrArg String.ofList (Pattern.chars_behind hrest')
  have hrest : rest = head ++ rest' := hrest
  have hrest' : rest' = values ++ after := hrest'
  rw [hgroup, String.toList_ofList]
  refine ⟨front ++ head, after, ?_, ?_, ?_⟩
  · simp [htext, hrest, hrest']
  · intro hmem
    simpa using hvalues _ hmem
  · intro c hc
    rw [Option.mem_def.1 hc] at hafter
    simpa using hafter

/-- The place of the column that names buckets: `id`, or else `name`. -/
def IsKey (columns : List String) (position : Nat) : Prop :=
  columns.idxOf? "id" = some position ∨ "id" ∉ columns ∧ columns.idxOf? "name" = some position

/-- A tuple of an insertion gives a bucket: its value in the column that names buckets. -/
def GivesBucket (columns : List String) (tuple : Chars) (bucket : String) : Prop :=
  bucket ≠ "" ∧ ∃ position, IsKey columns position ∧
    ∃ value ∈ (Text.pieces (· = ',') tuple)[position]?,
      bucket = String.ofList (Text.unquote (Text.trim value))

theorem isKey_iff {columns : List String} {position : Nat} : IsKey columns position ↔
    (columns.findIdx? (· == "id")).or (columns.findIdx? (· == "name")) = some position := by
  have hnone : columns.findIdx? (· == "id") = none ↔ "id" ∉ columns := by
    rw [List.findIdx?_eq_none_iff]
    constructor
    · intro h hid
      simpa using h _ hid
    · intro h column hcolumn
      rw [beq_eq_false_iff_ne]
      rintro rfl
      exact h hcolumn
  unfold IsKey
  rw [Option.or_eq_some_iff, hnone]
  rfl

/-- The bucket that a tuple gives is its value without quotes, unless nothing is left of it. -/
theorem bucket_of_value_iff {values : List Chars} {position : Nat} {bucket : String} :
    (values[position]?.bind fun value =>
        let bucket := Text.unquote (Text.trim value)
        if bucket.isEmpty then none else some (String.ofList bucket)) = some bucket ↔
      bucket ≠ "" ∧ ∃ value ∈ values[position]?,
        bucket = String.ofList (Text.unquote (Text.trim value)) := by
  rw [Option.bind_eq_some_iff]
  constructor
  · rintro ⟨value, hvalue, hbucket⟩
    simp only at hbucket
    split at hbucket
    · cases hbucket
    · next hne =>
      obtain rfl := Option.some.inj hbucket
      exact ⟨by simpa using hne, value, hvalue, rfl⟩
  · rintro ⟨hne, value, hvalue, rfl⟩
    refine ⟨value, hvalue, ?_⟩
    simp only
    rw [if_neg (by simpa using hne)]

/-- **What an insertion creates.** The buckets of an insertion are what the pairs of brackets among
its values give. -/
theorem mem_insertedBuckets {m : Match} {bucket : String} : bucket ∈ insertedBuckets m ↔
    ∃ tuple, Innermost (m.text 2).toList tuple ∧
      GivesBucket (Sql.columnNames (m.text 1).toList) tuple bucket := by
  unfold insertedBuckets GivesBucket
  simp only [isKey_iff]
  cases hkey : ((Sql.columnNames (m.text 1).toList).findIdx? (· == "id")).or
      ((Sql.columnNames (m.text 1).toList).findIdx? (· == "name")) with
  | none => simp
  | some position =>
    simp only [List.mem_filterMap, bucket_of_value_iff, Option.some.injEq, exists_eq_left',
      ← Sql.exists_mem_all_sqlTuple]
    constructor
    · rintro ⟨t, ht, hgives⟩
      exact ⟨(t.text 1).toList, ⟨t, ht, by simp⟩, hgives⟩
    · rintro ⟨tuple, ⟨t, ht, htext⟩, hgives⟩
      refine ⟨t, ht, ?_⟩
      rw [htext, String.toList_ofList]
      exact hgives

/-- The column that names buckets need not come first. -/
example : (Pattern.bucketInsert.all
    "insert into storage.buckets (public, id) values (true, 'a'), (false, 'b');".toList).flatMap
      insertedBuckets = ["a", "b"] := by decide +kernel

/-! ## The storage subsystem -/

theorem mem_accessed_iff {edges : List Edge} {bucket : String} :
    bucket ∈ edges.filterMap accessedBucket? ↔ ∃ e ∈ edges, e.detail = .storageAccess bucket := by
  rw [List.mem_filterMap]
  apply exists_congr
  intro e
  apply and_congr_right
  intro _
  unfold accessedBucket?
  split
  · next accessed hdetail => simp [hdetail]
  · next hnone =>
    constructor
    · intro h
      cases h
    · intro h
      exact absurd h (hnone bucket)

theorem nodes_concat_eq_nil {α : Type} {f : α → Findings} (hf : ∀ x, (f x).nodes = [])
    (xs : List α) : (Findings.concat (xs.map f)).nodes = [] := by
  apply List.eq_nil_iff_forall_not_mem.2
  intro n hn
  obtain ⟨x, -, hn⟩ := Findings.mem_nodes_concat_map.1 hn
  rw [hf x] at hn
  cases hn

section

variable {m : Migrations} {s : Schema} {g : Graph} {n : Node}

theorem nodes_tableFindings (t : Sql.Table) :
    (tableFindings m s t).nodes = [tableNode m s t] := by
  have hkey : ∀ key, (foreignKeyEdge m t key).nodes = [] := by
    intro key
    unfold foreignKeyEdge
    split
    · rfl
    · split
      · rfl
      · rfl
  unfold tableFindings
  simp only [Findings.nodes_append, nodes_concat_eq_nil hkey]
  rw [nodes_concat_eq_nil fun _ => rfl, nodes_concat_eq_nil fun _ => rfl]
  rfl

theorem nodes_triggerFindings (t : Sql.Trigger) : (triggerFindings m s t).nodes = [] := by
  unfold triggerFindings
  split
  · rfl
  · rfl

theorem kind_of_mem_authFindings (hn : n ∈ (authFindings m s g).nodes) : n.kind = .auth := by
  unfold authFindings at hn
  simp only at hn
  split at hn
  · cases hn
  · rw [Findings.nodes_append, Findings.nodes_append, nodes_concat_eq_nil fun _ => rfl,
      nodes_concat_eq_nil fun _ => rfl, List.append_nil, List.append_nil] at hn
    obtain rfl := List.mem_singleton.1 hn
    rfl

theorem detail_of_mem_storageFindings (hn : n ∈ (storageFindings m g).nodes) :
    n.detail = .storage ⟨Text.sortedSet ((Pattern.bucketInsert.all m.text).flatMap insertedBuckets ++
      (g.edgesOf .stores).filterMap accessedBucket?)⟩ := by
  unfold storageFindings at hn
  simp only at hn
  split at hn
  · cases hn
  · rw [Findings.nodes_append, nodes_concat_eq_nil fun _ => rfl, List.append_nil] at hn
    obtain rfl := List.mem_singleton.1 hn
    rfl

end

/-- Only the storage subsystem has buckets. -/
theorem storage_of_mem_database {p : Project} {g : Graph} {n : Node}
    (hn : n ∈ (database p g).nodes) {detail : StorageDetail} (hdetail : n.detail = .storage detail) :
    n ∈ (storageFindings (Migrations.ofProject p) g).nodes := by
  simp only [database, Findings.nodes_append, List.mem_append, Findings.mem_nodes_concat_map,
    nodes_tableFindings, nodes_triggerFindings, List.mem_singleton, List.not_mem_nil, and_false,
    exists_false, or_false, false_or] at hn
  rcases hn with ((⟨t, -, rfl⟩ | ⟨f, -, hn⟩) | hn) | hn
  · cases hdetail
  · obtain rfl := List.mem_singleton.1 hn
    cases hdetail
  · have hkind := kind_of_mem_authFindings hn
    simp [Node.kind, hdetail, NodeDetail.kind] at hkind
  · exact hn

/-- **Which buckets there are.** The buckets of the storage subsystem are in order, each once. They
are those that calls access and those that the insertions create, from any pair of brackets up to
the end of the insertion: a tuple of its list, or what the clause behind the list has in
brackets. -/
theorem buckets_of_insertions (p : Project) (g : Graph) {n : Node}
    (hn : n ∈ (database p g).nodes) {detail : StorageDetail} (hdetail : n.detail = .storage detail) :
    let text := (Migrations.ofProject p).text
    detail.buckets.Pairwise (· < ·) ∧
      (∀ bucket, bucket ∈ detail.buckets ↔
        (∃ insertion ∈ Pattern.bucketInsert.all text, ∃ tuple,
          Innermost (insertion.text 2).toList tuple ∧
            GivesBucket (Sql.columnNames (insertion.text 1).toList) tuple bucket) ∨
        ∃ e ∈ g.edgesOf .stores, e.detail = .storageAccess bucket) ∧
      ∀ insertion ∈ Pattern.bucketInsert.all text,
        (∃ before after, text = before ++ (insertion.text 2).toList ++ after ∧
          ';' ∉ (insertion.text 2).toList ∧ ∀ c ∈ after.head?, c = ';') ∧
        ∀ tuples clause, TupleList (insertion.text 2).toList tuples clause →
          ∀ tuple, Innermost (insertion.text 2).toList tuple ↔
            tuple ∈ tuples ∨ Innermost clause tuple := by
  intro text
  have hstorage := detail_of_mem_storageFindings (storage_of_mem_database hn hdetail)
  obtain rfl := NodeDetail.storage.inj (hdetail.symm.trans hstorage)
  refine ⟨Text.pairwise_sortedSet _, ?_, ?_⟩
  · intro bucket
    simp only [Text.mem_sortedSet, List.mem_append, List.mem_flatMap, mem_insertedBuckets,
      mem_accessed_iff]
    rfl
  · intro insertion hinsertion
    exact ⟨values_of_insertion hinsertion, fun tuples clause h tuple => h.innermost_iff⟩

/-- The only tuple of an insertion without a clause gives its bucket. -/
theorem buckets_of_insertions_avatars :
    let p := migrated "insert into storage.buckets (id, public) values ('avatars', true);"
    ∃ n ∈ (database p .empty).nodes, n.detail = .storage ⟨["avatars"]⟩ ∧
      ∃ insertion ∈ Pattern.bucketInsert.all (Migrations.ofProject p).text, ∃ tuple,
        Innermost (insertion.text 2).toList tuple ∧
          GivesBucket (Sql.columnNames (insertion.text 1).toList) tuple "avatars" := by
  intro p
  obtain ⟨n, hn, hdetail⟩ : ∃ n ∈ (database p .empty).nodes,
      n.detail = .storage ⟨["avatars"]⟩ := by decide +kernel
  obtain ⟨-, hbuckets, -⟩ := buckets_of_insertions p .empty hn hdetail
  refine ⟨n, hn, hdetail, ?_⟩
  rcases (hbuckets "avatars").1 (by simp) with hinserted | ⟨e, he, -⟩
  · exact hinserted
  · cases he

/-- A migration with an insertion that may meet a conflict. -/
def conflicting : String :=
  "insert into storage.buckets (id, name) values ('avatars', 'avatars') on conflict (id) do nothing;"

/-- **A conflict can be read as a bucket.** The list of the only insertion has one tuple, which gives
the bucket `avatars` and no other. The column of the clause behind the list is reported too. -/
theorem conflict_read_as_bucket :
    let p := migrated conflicting
    let tuple := "'avatars', 'avatars'".toList
    (∀ insertion ∈ Pattern.bucketInsert.all (Migrations.ofProject p).text,
      Sql.columnNames (insertion.text 1).toList = ["id", "name"] ∧
        TupleList (insertion.text 2).toList [tuple] " on conflict (id) do nothing".toList) ∧
      (∀ bucket, GivesBucket ["id", "name"] tuple bucket → bucket = "avatars") ∧
        ∃ n ∈ (database p .empty).nodes, ∃ detail, n.detail = .storage detail ∧
          "id" ∈ detail.buckets := by
  intro p tuple
  refine ⟨?_, ?_, ?_⟩
  · have hall : ∀ insertion ∈ Pattern.bucketInsert.all (Migrations.ofProject p).text,
        Sql.columnNames (insertion.text 1).toList = ["id", "name"] ∧
          insertion.text 2 = "('avatars', 'avatars') on conflict (id) do nothing" := by
      decide +kernel
    intro insertion hinsertion
    obtain ⟨hcolumns, hvalues⟩ := hall insertion hinsertion
    have hlist : (insertion.text 2).toList =
        [] ++ '(' :: (tuple ++ ')' :: " on conflict (id) do nothing".toList) := by
      rw [hvalues]
      decide
    refine ⟨hcolumns, ?_⟩
    rw [hlist]
    exact .cons (by simp) (by decide) (by decide) .nil
  · rintro bucket ⟨-, position, hposition, value, hvalue, rfl⟩
    obtain rfl : 0 = position := Option.some.inj (isKey_iff.1 hposition)
    obtain rfl : "'avatars'".toList = value := Option.some.inj hvalue
    decide
  · obtain ⟨n, hn, hkind⟩ : ∃ n ∈ (storageFindings (Migrations.ofProject p) .empty).nodes,
        n.kind = .storage := by decide +kernel
    refine ⟨n, ?_, _, detail_of_mem_storageFindings hn, ?_⟩
    · unfold database
      simp only [Findings.nodes_append, List.mem_append]
      exact .inr hn
    · have hinserted : "id" ∈ (Pattern.bucketInsert.all (Migrations.ofProject p).text).flatMap
          insertedBuckets := by decide +kernel
      exact Text.mem_sortedSet.2 (List.mem_append_left _ hinserted)

end ArchGraph.Discovery
