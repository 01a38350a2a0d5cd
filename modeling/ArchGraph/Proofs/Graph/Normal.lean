import ArchGraph.Graph.Id
import ArchGraph.Proofs.Text.LowerCase
/-!
# Normal parts

Normalizing a part of an identifier leaves a text in lower case that has no blanks around it, no
backslashes and no slash at its end (`normal_normalizeChars`), and it leaves exactly such texts
alone (`normalizeChars_eq_self_iff`). So a part that was normalized counts as it is, and an
identifier does not depend on whether its parts were normalized before (`parts_normalized_once`).
The front of the text is trimmed before the letters change and the end once more behind them; what
makes this enough is that no letter turns into a blank and none of those that lower-casing leaves
behind changes again.
-/

namespace ArchGraph.Id

open Text (Chars IsLower isBlank lower trim dropEndWhile)

/-- A text that is written as normalized parts are: in lower case, no blanks around it, no backslash
in it and no slash at its end. -/
structure Normal (part : Chars) : Prop where
  lowerCase   : lower part = part
  starts      : ∀ c ∈ part.head?, isBlank c = false
  ends        : ∀ c ∈ part.getLast?, isBlank c = false
  noBackslash : '\\' ∉ part
  noSlash     : part.getLast? ≠ some '/'

/-- Backslashes as slashes. -/
def slashed (text : Chars) : Chars := text.map fun c => if c = '\\' then '/' else c

/-- The end of a part that normalizing drops. -/
def isTail (c : Char) : Bool := c == '/' || isBlank c

theorem normalizeChars_eq (part : Chars) :
    normalizeChars part = dropEndWhile isTail (slashed (lower (trim part))) := rfl

theorem notMem_slashed (text : Chars) : '\\' ∉ slashed text := by
  intro h
  obtain ⟨c, -, hc⟩ := List.mem_map.1 h
  split at hc
  · exact absurd hc (by decide)
  · next hne => exact hne hc

theorem slashed_eq_self {text : Chars} (h : '\\' ∉ text) : slashed text = text := by
  refine (List.map_congr_left fun c hc => ?_).trans (List.map_id _)
  rw [if_neg (ne_of_mem_of_not_mem hc h), id]

theorem isLower_of_mem_slashed {text : Chars} (h : ∀ c ∈ text, IsLower c) :
    ∀ c ∈ slashed text, IsLower c := by
  intro c hc
  obtain ⟨d, hd, rfl⟩ := List.mem_map.1 hc
  split
  · decide
  · exact h d hd

theorem isBlank_of_head_slashed {text : Chars} (h : ∀ c ∈ text.head?, isBlank c = false) :
    ∀ c ∈ (slashed text).head?, isBlank c = false := by
  intro c hc
  rw [slashed, List.head?_map] at hc
  obtain ⟨d, hd, rfl⟩ := Option.map_eq_some_iff.1 hc
  split
  · decide
  · exact h d hd

/-- What normalizing leaves is normal. -/
theorem normal_normalizeChars (part : Chars) : Normal (normalizeChars part) := by
  obtain ⟨back, hsplit, -⟩ := Text.exists_dropEndWhile isTail (slashed (lower (trim part)))
  rw [← normalizeChars_eq] at hsplit
  -- the normalized part is the front of a text in lower case that starts with no blank
  have hfront : normalizeChars part ⊆ slashed (lower (trim part)) := by
    rw [hsplit]
    exact List.subset_append_left _ _
  have hlower : ∀ c ∈ normalizeChars part, IsLower c := fun c hc =>
    isLower_of_mem_slashed Text.isLower_of_mem_lower c (hfront hc)
  have hstart : ∀ c ∈ (slashed (lower (trim part))).head?, isBlank c = false :=
    isBlank_of_head_slashed (Text.isBlank_of_head_lower fun c hc => Text.isBlank_of_head_trim hc)
  have hlast : ∀ c ∈ (normalizeChars part).getLast?, isTail c = false :=
    Text.keeps_getLast_dropEndWhile isTail _
  constructor
  · exact Text.lower_eq_self hlower
  · intro c hc
    refine hstart c ?_
    rw [hsplit, List.head?_append, hc]
    rfl
  · intro c hc
    have hkept := hlast c hc
    rw [isTail, Bool.or_eq_false_iff] at hkept
    exact hkept.2
  · exact fun h => notMem_slashed _ (hfront h)
  · intro h
    exact absurd (hlast '/' h) (by decide)

/-- A normal text is left alone. -/
theorem Normal.normalizeChars_eq_self {part : Chars} (h : Normal part) :
    normalizeChars part = part := by
  have hkept : dropEndWhile isTail part = part := by
    refine Text.dropEndWhile_eq_self_iff.2 fun c hc => ?_
    have hslash : c ≠ '/' := by
      rintro rfl
      exact h.noSlash hc
    simp [isTail, hslash, h.ends c hc]
  rw [normalizeChars_eq, (Text.trim_eq_self_iff h.starts).2 h.ends, h.lowerCase,
    slashed_eq_self h.noBackslash, hkept]

/-- **Which texts normalizing leaves alone.** -/
theorem normalizeChars_eq_self_iff {part : Chars} : normalizeChars part = part ↔ Normal part :=
  ⟨fun h => h ▸ normal_normalizeChars part, Normal.normalizeChars_eq_self⟩

theorem toList_normalize (s : String) : (normalize s).toList = normalizeChars s.toList :=
  String.toList_ofList

theorem normalize_eq_self_iff {s : String} : normalize s = s ↔ Normal s.toList := by
  rw [← normalizeChars_eq_self_iff, ← toList_normalize, String.toList_inj]

theorem normalize_normalize (s : String) : normalize (normalize s) = normalize s := by
  rw [normalize_eq_self_iff, toList_normalize]
  exact normal_normalizeChars _

/-- **Normalizing settles parts.** For every string what normalizing leaves is in lower case, has no
blanks around it, no backslash and no slash at its end, and stays as it is when it is normalized
again; strings that are written like this already, and no others, are left alone. The identifier of
a node is that of the node with normalized parts. -/
theorem parts_normalized_once :
    (∀ s, Normal (normalize s).toList ∧ normalize (normalize s) = normalize s ∧
      (normalize s = s ↔ Normal s.toList)) ∧
      ∀ kind parts, node kind (parts.map normalize) = node kind parts := by
  refine ⟨fun s => ⟨?_, normalize_normalize s, normalize_eq_self_iff⟩, fun kind parts => ?_⟩
  · rw [toList_normalize]
    exact normal_normalizeChars _
  · have hparts : (parts.map normalize).map normalize = parts.map normalize := by
      rw [List.map_map]
      exact List.map_congr_left fun s _ => normalize_normalize s
    rw [node, node, hparts]

/-- A part in which every step of normalizing has something to do: blanks around it, a capital I with
a dot, a sigma at the end of a word and slashes of both kinds behind it. -/
example : normalizeChars " İ\\ΑΣ/ \\ ".toList = "i̇/ας".toList := by decide +kernel

end ArchGraph.Id
