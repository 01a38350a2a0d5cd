import ArchGraph.Proofs.Digest
import ArchGraph.Proofs.Graph.Normal
import Mathlib.Data.List.Nodup
/-!
# What identifiers tell apart

An identifier ends in sixteen digits, so it gives away its tag, and the identifier of a node gives
away the kind of the node (`Id.kind_eq_of_node_eq`). The parts stand behind a digest: they can be
told apart as long as no two digested messages collide (`Id.CollisionFree`). Identifiers are made of
letters that normalizing leaves alone, so that one identifier among the parts of another is digested
as it is.
-/

namespace ArchGraph.Id

open Text (Chars)

/-- No two of the uses of the generator, each a tag and parts, get one identifier unless they digest
one message. -/
def CollisionFree (uses : List (String × List String)) : Prop :=
  ∀ u ∈ uses, ∀ v ∈ uses, ofParts u.1 u.2 = ofParts v.1 v.2 → message u.1 u.2 = message v.1 v.2

instance (uses : List (String × List String)) : Decidable (CollisionFree uses) :=
  inferInstanceAs (Decidable (∀ u ∈ uses, ∀ v ∈ uses,
    ofParts u.1 u.2 = ofParts v.1 v.2 → message u.1 u.2 = message v.1 v.2))

/-- Identifiers that are all different do not collide. -/
theorem collisionFree_of_nodup {uses : List (String × List String)}
    (h : (uses.map fun u => ofParts u.1 u.2).Nodup) : CollisionFree uses := by
  intro u hu v hv hid
  rw [List.inj_on_of_nodup_map h hu hv hid]

/-- An identifier by a digest that can be computed inside proofs. -/
theorem ofParts_eq (tag : String) (parts : List String) : ofParts tag parts =
    tag ++ "_" ++ Digest.hex ((Digest.sha256Latest (message tag parts)).take 8) := by
  rw [ofParts, Digest.sha256_eq]

/-! ## Tags -/

/-- The digits of an identifier. -/
def digits (tag : String) (parts : List String) : Chars :=
  ((Digest.sha256 (message tag parts)).take 8).flatMap Digest.hexByte

theorem toList_ofParts (tag : String) (parts : List String) :
    (ofParts tag parts).toList = tag.toList ++ '_' :: digits tag parts := by
  simp [ofParts, Digest.hex, digits]

theorem length_digits (tag : String) (parts : List String) : (digits tag parts).length = 16 := by
  simp [digits, Digest.hexByte, List.length_flatMap, Digest.sha256_length]

theorem tag_eq_of_ofParts_eq {tag tag' : String} {parts parts' : List String}
    (h : ofParts tag parts = ofParts tag' parts') : tag = tag' := by
  have hl := congrArg String.toList h
  rw [toList_ofParts, toList_ofParts] at hl
  have htags := (List.append_inj' hl (by simp [length_digits])).1
  exact String.toList_inj.1 htags

/-- An identifier belongs to one kind of node. -/
theorem kind_eq_of_node_eq {k k' : NodeKind} {parts parts' : List String}
    (h : node k parts = node k' parts') : k = k' := by
  have hname := congrArg NodeKind.ofName? (tag_eq_of_ofParts_eq h)
  rw [NodeKind.ofName?_name, NodeKind.ofName?_name] at hname
  exact Option.some.inj hname

/-! ## Letters -/

/-- The characters of an identifier. -/
def letters : Chars := "abcdefghijklmnopqrstuvwxyz_0123456789".toList

/-- Whether all characters of a text have a property is decided along the text, not over all
characters that there are. -/
instance decidableForallMem (cs : Chars) (p : Char → Prop) [DecidablePred p] :
    Decidable (∀ c ∈ cs, p c) := List.decidableBAll p cs

theorem hexByte_subset (b : UInt8) : ∀ c ∈ Digest.hexByte b, c ∈ letters := by
  have hdigit : ∀ n < 16, Nat.digitChar n ∈ letters := by decide
  have hb := b.toNat_lt
  simp only [Digest.hexByte, List.forall_mem_cons]
  exact ⟨hdigit _ (by omega), hdigit _ (by omega), by simp⟩

theorem node_subset (k : NodeKind) (parts : List String) : ∀ c ∈ (node k parts).toList, c ∈ letters := by
  have hname : ∀ c ∈ k.name.toList, c ∈ letters := by cases k <;> decide
  intro c hc
  rw [node, toList_ofParts, List.mem_append, List.mem_cons] at hc
  rcases hc with hc | rfl | hc
  · exact hname c hc
  · decide
  · obtain ⟨b, -, hb⟩ := List.mem_flatMap.1 hc
    exact hexByte_subset b c hb

/-- Normalizing leaves the letters of identifiers alone. -/
theorem normalize_of_subset {s : String} (h : ∀ c ∈ s.toList, c ∈ letters) : normalize s = s := by
  have hletter : ∀ c ∈ letters,
      Text.IsLower c ∧ Text.isBlank c = false ∧ c ≠ '\\' ∧ c ≠ '/' := by decide
  have hall : ∀ c ∈ s.toList,
      Text.IsLower c ∧ Text.isBlank c = false ∧ c ≠ '\\' ∧ c ≠ '/' := fun c hc => hletter c (h c hc)
  rw [normalize_eq_self_iff]
  constructor
  · exact Text.lower_eq_self fun c hc => (hall c hc).1
  · exact fun c hc => (hall c (List.mem_of_mem_head? hc)).2.1
  · exact fun c hc => (hall c (List.mem_of_getLast? hc)).2.1
  · exact fun hc => (hall _ hc).2.2.1 rfl
  · exact fun hc => (hall _ (List.mem_of_getLast? hc)).2.2.2 rfl

/-! ## Identifiers among parts -/

theorem utf8_inj {s t : String} (h : Digest.utf8 s = Digest.utf8 t) : s = t := by
  rw [← String.toByteArray_inj, ← String.utf8Encode_toList, ← String.utf8Encode_toList]
  exact congrArg List.toByteArray h

theorem length_utf8_of_subset {s : String} (h : ∀ c ∈ s.toList, c ∈ letters) :
    (Digest.utf8 s).length = s.length := by
  have hone : ∀ c ∈ letters, (String.utf8EncodeChar c).length = 1 := by decide
  rw [Digest.utf8, List.length_flatMap, List.map_congr_left fun c hc => hone c (h c hc),
    ← String.length_toList]
  simp

theorem length_repo (r : String) : (repo r).length = 21 := by
  rw [← String.length_toList, repo, node, toList_ofParts]
  simp [length_digits, NodeKind.name]

/-- Two messages that start with repositories' identifiers start with the same one. -/
theorem repo_eq_of_message_eq {tag : String} {r r' : String} {parts parts' : List String}
    (h : message tag (([repo r] ++ parts).map normalize) =
      message tag (([repo r'] ++ parts').map normalize)) : repo r = repo r' := by
  have hlen (r : String) : (Digest.utf8 (repo r)).length = 21 :=
    (length_utf8_of_subset (node_subset _ _)).trans (length_repo r)
  simp only [message, List.map_append, List.map_cons, List.map_nil, List.flatMap_append,
    List.flatMap_singleton, repo, normalize_of_subset (node_subset _ _)] at h
  have hfront := List.append_cancel_left h
  rw [List.cons_append, List.cons_append, List.cons.injEq] at hfront
  exact utf8_inj (List.append_inj hfront.2 ((hlen r).trans (hlen r').symm)).1

/-! ## Parts that hold no separator -/

theorem ofParts_subset {tag : String} (htag : ∀ c ∈ tag.toList, c ∈ letters) (parts : List String) :
    ∀ c ∈ (ofParts tag parts).toList, c ∈ letters := by
  intro c hc
  rw [toList_ofParts, List.mem_append, List.mem_cons] at hc
  rcases hc with hc | rfl | hc
  · exact htag c hc
  · decide
  · obtain ⟨b, -, hb⟩ := List.mem_flatMap.1 hc
    exact hexByte_subset b c hb

theorem ofParts_ne_empty (tag : String) (parts : List String) : ofParts tag parts ≠ "" := by
  intro h
  have hl := congrArg String.toList h
  rw [toList_ofParts] at hl
  simp at hl

theorem separator_notMem {s : String} (h : ∀ c ∈ s.toList, c ∈ letters) :
    separator ∉ Digest.utf8 s := by
  have hnone : ∀ c ∈ letters, separator ∉ String.utf8EncodeChar c := by decide
  intro hmem
  obtain ⟨c, hc, hb⟩ := List.mem_flatMap.1 hmem
  exact hnone c (h c hc) hb

theorem append_separator_inj : ∀ {a b x y : List UInt8}, separator ∉ a → separator ∉ b →
    a ++ separator :: x = b ++ separator :: y → a = b ∧ x = y
  | [], [], _, _, _, _, h => ⟨rfl, (List.cons.inj h).2⟩
  | [], c :: _, _, _, _, hb, h => absurd (List.cons.inj h).1 fun hc => hb (by simp [hc])
  | c :: _, [], _, _, ha, _, h => absurd (List.cons.inj h).1 fun hc => ha (by simp [hc])
  | c :: a, d :: b, x, y, ha, hb, h => by
    obtain ⟨rfl, htail⟩ := List.cons.inj h
    rw [List.mem_cons, not_or] at ha hb
    obtain ⟨rfl, hxy⟩ := append_separator_inj ha.2 hb.2 htail
    exact ⟨rfl, hxy⟩

theorem message_cons (tag part : String) (parts : List String) :
    message tag (part :: parts) = Digest.utf8 tag ++ separator :: message part parts := rfl

/-- Messages are read part by part, as long as the parts hold no separator. -/
theorem message_inj {tag tag' part part' : String} {parts parts' : List String}
    (htag : ∀ c ∈ tag.toList, c ∈ letters) (htag' : ∀ c ∈ tag'.toList, c ∈ letters)
    (h : message tag (part :: parts) = message tag' (part' :: parts')) :
    tag = tag' ∧ message part parts = message part' parts' := by
  rw [message_cons, message_cons] at h
  obtain ⟨hutf8, hrest⟩ := append_separator_inj (separator_notMem htag) (separator_notMem htag') h
  exact ⟨utf8_inj hutf8, hrest⟩

end ArchGraph.Id
