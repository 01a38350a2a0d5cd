import ArchGraph.Proofs.Sql.Brackets
import ArchGraph.Proofs.Sql.Openings
/-!
# What a schema records

A schema records the parts of the script that declare its tables, their foreign keys, row level
security, policies, functions and triggers (`Schema.regions`). Main statement: each of these parts
starts no later than it ends, and ends inside of the script (`inside_of_mem_regions`).
-/

namespace ArchGraph.Sql

open Text (Chars)

/-- A part starts no later than it ends, and ends inside of a text. -/
structure Region.Inside (r : Region) (text : Chars) : Prop where
  ordered : r.start ≤ r.stop
  le      : r.stop ≤ text.length

/-- The parts of the script that a schema records. -/
def Schema.regions (s : Schema) : List Region :=
  s.tables.map (·.region) ++ s.tables.flatMap (fun t => t.body.foreignKeys.map (·.2)) ++
    s.rls.map (·.2) ++ s.policies.map (·.region) ++ s.functions.map (·.region) ++
      s.triggers.map (·.region)

theorem mem_regions {s : Schema} {r : Region} : r ∈ s.regions ↔
    (∃ t ∈ s.tables, t.region = r) ∨ (∃ t ∈ s.tables, ∃ key ∈ t.body.foreignKeys, key.2 = r) ∨
      (∃ entry ∈ s.rls, entry.2 = r) ∨ (∃ p ∈ s.policies, p.region = r) ∨
        (∃ f ∈ s.functions, f.region = r) ∨ ∃ t ∈ s.triggers, t.region = r := by
  simp only [Schema.regions, List.mem_append, List.mem_map, List.mem_flatMap, or_assoc]

theorem regions_moved (f : Nat → Nat) (s : Schema) :
    (s.moved f).regions = s.regions.map (·.moved f) := by
  simp only [Schema.regions, Schema.moved, List.map_append, List.map_map, List.map_flatMap,
    List.flatMap_map]
  simp only [Function.comp_def, Table.moved, TableBody.moved, Policy.moved, Function.moved,
    Trigger.moved, List.map_map]

/-! ## Looking up -/

section

variable {f : Nat → Nat} {s : Schema} {name : Name} {r : Region}

theorem table?_moved : (s.moved f).table? name = (s.table? name).map (·.moved f) :=
  List.find?_map

theorem rlsOf?_moved : (s.moved f).rlsOf? name = (s.rlsOf? name).map (·.moved f) :=
  lookup_map_snd (Region.moved f) name s.rls

theorem policiesOf_moved : (s.moved f).policiesOf name = (s.policiesOf name).map (·.moved f) :=
  List.filter_map

theorem mem_regions_of_mem_functions {x : Function} (h : x ∈ s.functions) :
    x.region ∈ s.regions :=
  mem_regions.2 (.inr (.inr (.inr (.inr (.inl ⟨x, h, rfl⟩)))))

theorem mem_regions_of_mem_triggers {t : Trigger} (h : t ∈ s.triggers) : t.region ∈ s.regions :=
  mem_regions.2 (.inr (.inr (.inr (.inr (.inr ⟨t, h, rfl⟩)))))

theorem mem_regions_of_table? {t : Table} (h : s.table? name = some t) : t.region ∈ s.regions :=
  mem_regions.2 (.inl ⟨t, List.mem_of_find?_eq_some h, rfl⟩)

theorem mem_regions_of_rlsOf? (h : s.rlsOf? name = some r) : r ∈ s.regions := by
  obtain ⟨front, back, hsplit, -⟩ := List.lookup_eq_some_iff.1 h
  have hmem : (name, r) ∈ s.rls := by simp [hsplit]
  exact mem_regions.2 (.inr (.inr (.inl ⟨(name, r), hmem, rfl⟩)))

theorem mem_regions_of_mem_policiesOf {p : Policy} (h : p ∈ s.policiesOf name) :
    p.region ∈ s.regions :=
  mem_regions.2 (.inr (.inr (.inr (.inl ⟨p, (List.mem_filter.1 h).1, rfl⟩))))

end

/-! ## Items -/

section

variable {text : Chars}

/-- The items of a part lie inside of the text if the part does. -/
theorem inside_of_mem_items {r item : Region} (hr : r.Inside text) (h : item ∈ items text r) :
    item.Inside text := by
  obtain ⟨-, hordered, hle⟩ := bounds_of_mem_cutAt (commas_topCommas text r) hr.ordered item h
  exact ⟨hordered, Nat.le_trans hle hr.le⟩

/-! ## Schemas -/

theorem Stated.inside {r : Region} (h : Stated text r) : r.Inside text :=
  ⟨Nat.le_of_lt h.lt, h.le⟩

/-- The parts that declare foreign keys lie between the brackets of a definition or in front of the
end of an alteration. -/
theorem inside_of_mem_foreignKeys : ∀ t ∈ (Schema.ofScript text).tables,
    AllKeys (Region.Inside · text) t.body := by
  apply Schema.forall_mem_tables
  · intro m hm close hclose
    have hlt := Bytewise.lt_of_matchingParen? hclose
    have hbody : Region.Inside ⟨m.stop, close⟩ text :=
      ⟨le_matchingParen hclose, Nat.le_of_lt hlt⟩
    exact allKeys_ofRegion fun item hitem => inside_of_mem_items hbody hitem
  · intro m hm t ht
    obtain ⟨hordered, hle⟩ := Bytewise.bounds_of_clausesEnd (Pattern.bounds_of_mem_all hm).2
    have hclauses : Region.Inside ⟨m.stop, (semicolon? text m.stop).getD text.length⟩ text :=
      ⟨hordered, hle⟩
    apply allKeys_foldl (P := (Region.Inside · text)) _ ht
    intro body hbody clause hclause
    exact allKeys_addClause (inside_of_mem_items hclauses hclause) hbody

/-- **Recorded parts are in bounds.** -/
theorem inside_of_mem_regions {r : Region} (h : r ∈ (Schema.ofScript text).regions) :
    r.Inside text := by
  rcases mem_regions.1 h with ⟨t, ht, rfl⟩ | ⟨t, ht, key, hkey, rfl⟩ | ⟨entry, hentry, rfl⟩ |
    ⟨p, hp, rfl⟩ | ⟨f, hf, rfl⟩ | ⟨t, ht, rfl⟩
  · exact (stated_of_mem_tables ht).inside
  · exact inside_of_mem_foreignKeys t ht key hkey
  · obtain ⟨m, hm, rfl⟩ := List.mem_map.1 hentry
    obtain ⟨hordered, hle⟩ := Pattern.bounds_of_mem_all hm
    exact ⟨hordered, hle⟩
  · exact (stated_of_mem_policies hp).inside
  · exact (stated_of_mem_functions hf).inside
  · exact (stated_of_mem_triggers ht).inside

end

end ArchGraph.Sql
