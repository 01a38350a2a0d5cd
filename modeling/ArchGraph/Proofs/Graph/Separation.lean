import ArchGraph.Proofs.Graph.Identity
/-!
# How messages keep their parts apart

An identifier digests its tag and its parts with a separator before each part. The bytes can be cut
at the separators again, so that two messages are the same exactly if their tags are and their parts
are the same lists of fields (`uses_separated`), where a part that holds separators is as many
fields as it is cut into. A part without separators is one field; one that holds them can pass for
several parts: `workers_confused` are two scheduled requests that get one identifier.
-/

namespace ArchGraph.Id

open Text (Chars)

/-! ## Messages as texts -/

/-- The character that the separator encodes. -/
def separatorChar : Char := '\x1f'

/-- The text that is digested. -/
def messageText (tag : String) (parts : List String) : Chars :=
  tag.toList ++ parts.flatMap fun part => separatorChar :: part.toList

theorem message_eq_utf8 (tag : String) (parts : List String) :
    message tag parts = Digest.utf8 (String.ofList (messageText tag parts)) := by
  have hseparator : String.utf8EncodeChar separatorChar = [separator] := by decide
  simp [message, messageText, Digest.utf8, List.flatMap_append, List.flatMap_assoc, hseparator]

/-- Messages are the same bytes if they are the same text. -/
theorem message_eq_iff_text {tag tag' : String} {parts parts' : List String} :
    message tag parts = message tag' parts' ↔ messageText tag parts = messageText tag' parts' := by
  rw [message_eq_utf8, message_eq_utf8]
  exact ⟨fun h => String.ofList_injective (utf8_inj h), fun h => by rw [h]⟩

/-! ## Fields -/

/-- The fields of a part: what stands between the separators in it. -/
def fields (part : String) : List Chars := part.toList.splitOn separatorChar

theorem fields_of_notMem {part : String} (h : separatorChar ∉ part.toList) :
    fields part = [part.toList] := List.splitOn_eq_singleton h

/-- A separated text is cut into the fields of its parts. -/
theorem splitOn_flatMap (front : Chars) : ∀ parts : List String,
    (front ++ parts.flatMap fun part => separatorChar :: part.toList).splitOn separatorChar =
      front.splitOn separatorChar ++ parts.flatMap fields
  | [] => by simp
  | part :: parts => by
    rw [List.flatMap_cons, List.cons_append, List.splitOn_append_cons_self,
      splitOn_flatMap part.toList parts, List.flatMap_cons, fields]

theorem splitOn_injective {text text' : Chars}
    (h : text.splitOn separatorChar = text'.splitOn separatorChar) : text = text' := by
  calc text = [separatorChar].intercalate (text.splitOn separatorChar) :=
        (List.intercalate_splitOn separatorChar).symm
    _ = [separatorChar].intercalate (text'.splitOn separatorChar) := by rw [h]
    _ = text' := List.intercalate_splitOn separatorChar

/-- **Messages are read field by field.** -/
theorem message_eq_iff_fields {tag tag' : String} (htag : separatorChar ∉ tag.toList)
    (htag' : separatorChar ∉ tag'.toList) {parts parts' : List String} :
    message tag parts = message tag' parts' ↔
      tag = tag' ∧ parts.flatMap fields = parts'.flatMap fields := by
  have hcut : messageText tag parts = messageText tag' parts' ↔
      tag.toList :: parts.flatMap fields = tag'.toList :: parts'.flatMap fields := by
    have hsplit {tag : String} (h : separatorChar ∉ tag.toList) (parts : List String) :
        (messageText tag parts).splitOn separatorChar = tag.toList :: parts.flatMap fields := by
      rw [messageText, splitOn_flatMap, List.splitOn_eq_singleton h, List.singleton_append]
    rw [← hsplit htag, ← hsplit htag']
    exact ⟨congrArg _, splitOn_injective⟩
  rw [message_eq_iff_text, hcut, List.cons.injEq, String.toList_inj]

/-- Parts without separators are their fields. -/
theorem flatMap_fields_inj : ∀ {parts parts' : List String},
    (∀ part ∈ parts ++ parts', separatorChar ∉ part.toList) →
      (parts.flatMap fields = parts'.flatMap fields ↔ parts = parts') := by
  intro parts parts' h
  have hfields (l : List String) (hl : ∀ part ∈ l, separatorChar ∉ part.toList) :
      l.flatMap fields = l.map String.toList := by
    rw [List.flatMap_def, List.map_congr_left fun part hpart => fields_of_notMem (hl part hpart)]
    induction l with
    | nil => rfl
    | cons part l ih => simpa using ih fun p hp => hl p (List.mem_cons_of_mem _ hp)
  rw [hfields parts fun p hp => h p (List.mem_append_left _ hp),
    hfields parts' fun p hp => h p (List.mem_append_right _ hp)]
  exact (List.map_injective_iff.2 fun _ _ => String.toList_injective).eq_iff

/-! ## Uses of the generator -/

/-- A use of the generator: for a node, for an edge or for a citation. -/
inductive Use where
  | node (kind : NodeKind) (parts : List String)
  | edge (kind : EdgeKind) (source target discriminator : String)
  | evidence (parts : List String)
deriving DecidableEq, Repr

namespace Use

/-- The identifier that is made. -/
def id : Use → String
  | node kind parts => Id.node kind parts
  | edge kind source target discriminator => Id.edge kind source target discriminator
  | evidence parts => Id.evidence parts

/-- The tag of the identifier. -/
def tag : Use → String
  | node kind _ => kind.name
  | edge .. => "edge"
  | evidence _ => "ev"

/-- The parts that are digested, normalized where they discriminate. -/
def parts : Use → List String
  | node _ parts => parts.map normalize
  | edge kind source target discriminator => [kind.name, source, target, normalize discriminator]
  | evidence parts => parts

/-- The bytes that are digested. -/
def message (u : Use) : List UInt8 := Id.message u.tag u.parts

theorem id_eq (u : Use) :
    u.id = u.tag ++ "_" ++ Digest.hex ((Digest.sha256 u.message).take 8) := by
  cases u <;> rfl

theorem separatorChar_notMem_tag (u : Use) : separatorChar ∉ u.tag.toList := by
  have hname : ∀ kind : NodeKind, separatorChar ∉ kind.name.toList := by
    intro kind
    cases kind <;> decide
  have hedge : separatorChar ∉ "edge".toList := by decide
  have hevidence : separatorChar ∉ "ev".toList := by decide
  cases u with
  | node kind => exact hname kind
  | edge => exact hedge
  | evidence => exact hevidence

end Use

/-- **Uses are told apart field by field.** Two uses of the generator digest the same bytes exactly
if they have one tag and the same list of fields. Unless a part holds a separator, they have the
same list of parts then. -/
theorem uses_separated (u v : Use) :
    (u.message = v.message ↔ u.tag = v.tag ∧ u.parts.flatMap fields = v.parts.flatMap fields) ∧
      ((u.message = v.message ↔ u.tag = v.tag ∧ u.parts = v.parts) ∨
        ∃ part ∈ u.parts ++ v.parts, separatorChar ∈ part.toList) := by
  have hfields : u.message = v.message ↔
      u.tag = v.tag ∧ u.parts.flatMap fields = v.parts.flatMap fields :=
    message_eq_iff_fields u.separatorChar_notMem_tag v.separatorChar_notMem_tag
  refine ⟨hfields, ?_⟩
  by_cases hpart : ∃ part ∈ u.parts ++ v.parts, separatorChar ∈ part.toList
  · exact .inr hpart
  · have hparts : u.parts.flatMap fields = v.parts.flatMap fields ↔ u.parts = v.parts :=
      flatMap_fields_inj fun part hmem hsep => hpart ⟨part, hmem, hsep⟩
    exact .inl (hfields.trans (and_congr_right fun _ => hparts))

/-- Two scheduled requests of a configuration, one with a separator in its path and one with a
separator in its schedule, get one identifier. -/
theorem workers_confused :
    let u := Use.node .worker ["repo_1", "/a", "b\x1fc"]
    let v := Use.node .worker ["repo_1", "/a\x1fb", "c"]
    u.message = v.message ∧ u.id = v.id ∧ u.parts ≠ v.parts := by
  intro u v
  have hmessage : u.message = v.message := by decide
  have hid : u.id = v.id := by
    rw [u.id_eq, v.id_eq, hmessage]
    rfl
  exact ⟨hmessage, hid, by decide⟩

end ArchGraph.Id
