import ArchGraph.Json.Parser
import ArchGraph.Json.Printer
import Mathlib.Data.List.Basic
/-!
# Reading written JSON

Both written forms of a value are its text in a layout (`toList_writeCompact`,
`toList_writePretty`), and in any layout the text of a value without fractions is read back as that
value, with whatever follows it left over (`Parser.value_spell`). The invariant of the descent is
that what follows a value cannot belong to it (`Delimited`), since a number goes on as long as it
can. Main statements: `ofText?_compact` and `ofText?_pretty`.
-/

namespace ArchGraph.Json

open Text (Chars numeral hexDigit?)

namespace Parser

/-! ## White space -/

theorem skipSpace_append {gap : Chars} (h : ∀ c ∈ gap, isSpace c = true) (text : Chars) :
    skipSpace (gap ++ text) = skipSpace text := by
  rw [skipSpace, List.dropWhile_append_of_pos h]
  rfl

theorem skipSpace_cons {c : Char} (h : isSpace c = false) (text : Chars) :
    skipSpace (c :: text) = c :: text := by
  rw [skipSpace, List.dropWhile_cons_of_neg (by simp [h])]

section
variable {gap : Chars} (h : ∀ c ∈ gap, isSpace c = true) (text : Chars)
include h

theorem value_append : ∀ fuel, value fuel (gap ++ text) = value fuel text
  | 0 => by rw [value, value]
  | fuel + 1 => by rw [value, value, skipSpace_append h]

theorem items_append : ∀ fuel, items fuel (gap ++ text) = items fuel text
  | 0 => by rw [items, items]
  | fuel + 1 => by rw [items, items, value_append h]

theorem members_append : ∀ fuel, members fuel (gap ++ text) = members fuel text
  | 0 => by rw [members, members]
  | fuel + 1 => by rw [members, members, skipSpace_append h]

end

/-! ## Strings -/

/-- Two hexadecimal digits spell a control character. -/
theorem hex4?_hexPair : ∀ n < 0x20,
    hex4? '0' '0' (Nat.digitChar (n / 16)) (Nat.digitChar (n % 16)) = some n := by decide

theorem string_hexPair (chars : Chars) {c : Char} (hc : c.toNat < 0x20) (text : Chars) :
    string ⟨chars, none, false⟩ (['\\', 'u', '0', '0'] ++ hexPair c.toNat ++ text) =
      string ⟨c :: chars, none, false⟩ text := by
  have hunit : Draft.pushUnit ⟨chars, none, false⟩ c.toNat = ⟨c :: chars, none, false⟩ := by
    rw [Draft.pushUnit, if_neg (by omega), if_neg (by omega), Char.ofNat_toNat]
    rfl
  simp only [hexPair, List.cons_append, List.nil_append]
  rw [string, hex4?_hexPair _ hc]
  exact congrArg (string · text) hunit

/-- A character is read back from its place in a literal. -/
theorem string_escapeChar (chars : Chars) (c : Char) (text : Chars) :
    string ⟨chars, none, false⟩ (escapeChar c ++ text) = string ⟨c :: chars, none, false⟩ text := by
  unfold escapeChar
  split
  · next h => subst h; rfl
  split
  · next h => subst h; rfl
  split
  · next h => subst h; rfl
  split
  · next h => subst h; rfl
  split
  · next h => subst h; rfl
  split
  · next h => subst h; rfl
  split
  · next h => subst h; rfl
  split
  · next hcontrol => exact string_hexPair chars hcontrol text
  · next hquote hslash _ _ _ _ _ hcontrol =>
    rw [List.singleton_append, string, if_neg hcontrol]
    · rfl
    · exact hquote
    · exact fun _ _ _ _ _ h => absurd h hslash
    · exact fun _ _ h => absurd h hslash

/-- A literal is read back up to its closing quote. -/
theorem string_flatMap (s text : Chars) : ∀ chars : Chars,
    string ⟨chars, none, false⟩ (s.flatMap escapeChar ++ '"' :: text) =
      some (some (String.ofList (chars.reverse ++ s)), text) := by
  induction s with
  | nil =>
    intro chars
    rw [List.append_nil]
    rfl
  | cons c s ih =>
    intro chars
    rw [List.flatMap_cons, List.append_assoc, string_escapeChar, ih, List.reverse_cons,
      List.append_assoc, List.singleton_append]

theorem toList_quote (s : String) :
    (quote s).toList = '"' :: (s.toList.flatMap escapeChar ++ ['"']) := String.toList_ofList

/-- A literal behind its opening quote. -/
theorem string_quote (s : String) (text : Chars) :
    string ⟨[], none, false⟩ (s.toList.flatMap escapeChar ++ '"' :: text) =
      some (some s, text) := by
  rw [string_flatMap, List.reverse_nil, List.nil_append, String.ofList_toList]

/-! ## Numbers -/

theorem isDigit_of_mem_toDigits {n : Nat} {d : Char} (h : d ∈ Nat.toDigits 10 n) :
    d.isDigit = true := Nat.isDigit_of_mem_toDigits (by decide) (by decide) h

theorem numeral_toDigits (n : Nat) : numeral 10 (Nat.toDigits 10 n) = n := by
  have hdigits : numeral 10 (Nat.toDigits 10 n) = Nat.ofDigitChars 10 (Nat.toDigits 10 n) 0 := by
    rw [numeral, Nat.ofDigitChars_eq_foldl]
    refine List.foldl_ext _ _ _ fun m d hd => ?_
    rw [hexDigit?, if_pos (isDigit_of_mem_toDigits hd)]
    rfl
  rw [hdigits, Nat.ofDigitChars_ten_toDigits]

/-- Numbers are written without zeros in front. -/
theorem eq_zero_of_head?_toDigits (n : Nat) (h : (Nat.toDigits 10 n).head? = some '0') :
    n = 0 := by
  induction n using Nat.strongRecOn with
  | ind n ih =>
    rw [Nat.toDigits_eq_if (by decide)] at h
    split at h
    · next hlt =>
      have hall : ∀ m < 10, [Nat.digitChar m].head? = some '0' → m = 0 := by decide
      exact hall n hlt h
    · next hle =>
      rw [List.head?_append_of_ne_nil _ Nat.toDigits_ne_nil] at h
      have hzero := ih (n / 10) (by omega) h
      omega

/-- What a number may stand in front of: nothing that could belong to it. -/
def Delimited (text : Chars) : Prop :=
  ∀ c ∈ text.head?, c.isDigit = false ∧ c ≠ '.' ∧ c ≠ 'e' ∧ c ≠ 'E'

theorem delimited_cons {c : Char} (h : isSpace c = true ∨ c ∈ [',', ']', '}']) (text : Chars) :
    Delimited (c :: text) := by
  intro d hd
  obtain rfl := Option.some.inj hd
  have hc : c ∈ [' ', '\t', '\n', '\r', ',', ']', '}'] := by
    simpa [isSpace, or_assoc] using h
  exact (by simp : ∀ c ∈ [' ', '\t', '\n', '\r', ',', ']', '}'], c.isDigit = false ∧ c ≠ '.' ∧
    c ≠ 'e' ∧ c ≠ 'E') c hc

theorem takeWhile_digits {ds text : Chars} (hds : ∀ d ∈ ds, d.isDigit = true)
    (htext : Delimited text) : (ds ++ text).takeWhile Char.isDigit = ds ∧
      (ds ++ text).dropWhile Char.isDigit = text := by
  rw [List.takeWhile_append_of_pos hds, List.dropWhile_append_of_pos hds]
  cases text with
  | nil => simp
  | cons c text => simp [(htext c rfl).1]

/-- The digits of a number are read back, with or without a sign in front. -/
theorem number_digits {ds text : Chars} (hne : ds ≠ []) (hds : ∀ d ∈ ds, d.isDigit = true)
    (hzero : ds.head? = some '0' → ds.length = 1) (htext : Delimited text) :
    number (ds ++ text) = some (number.integer false ds, text) ∧
      number ('-' :: (ds ++ text)) = some (number.integer true ds, text) := by
  obtain ⟨htake, hdrop⟩ := takeWhile_digits hds htext
  have hcond : ¬(ds.isEmpty = true ∨ ds.head? = some '0' ∧ ds.length ≠ 1) := by
    rintro (h | ⟨h, hlength⟩)
    · exact hne (List.isEmpty_iff.1 h)
    · exact hlength (hzero h)
  have hplain : ∀ c ∈ text.head?, c ≠ '.' ∧ ¬(c = 'e' ∨ c = 'E') :=
    fun c hc => ⟨(htext c hc).2.1, not_or.2 (htext c hc).2.2⟩
  constructor
  · unfold number
    split
    · next negative rest hsign =>
      split at hsign
      · next hminus =>
        exfalso
        obtain ⟨d, more, rfl⟩ := List.exists_cons_of_ne_nil hne
        obtain rfl := (List.cons.inj hminus).1
        exact absurd (hds '-' List.mem_cons_self) (by decide)
      · obtain ⟨rfl, rfl⟩ := Prod.mk.inj hsign
        simp only [htake, hdrop, if_neg hcond]
        split
        · exact absurd rfl (hplain _ rfl).1
        · rw [if_neg (hplain _ rfl).2]
        · rfl
  · unfold number
    simp only [htake, hdrop, if_neg hcond]
    split
    · exact absurd rfl (hplain _ rfl).1
    · rw [if_neg (hplain _ rfl).2]
    · rfl

theorem toList_ofNat (n : Nat) : (toString (Int.ofNat n)).toList = Nat.toDigits 10 n :=
  (congrArg String.toList Nat.toString_eq_ofList_toDigits).trans String.toList_ofList

theorem toList_negSucc (n : Nat) :
    (toString (Int.negSucc n)).toList = '-' :: Nat.toDigits 10 (n + 1) :=
  (String.toList_append (s := "-")).trans (congrArg ('-' :: ·) (toList_ofNat (n + 1)))

/-- A whole number is read back. -/
theorem number_toString (n : Int) {text : Chars} (htext : Delimited text) :
    number ((toString n).toList ++ text) = some (int n, text) := by
  have hdigits (m : Nat) := number_digits (Nat.toDigits_ne_nil (n := m) (b := 10))
    (fun d => isDigit_of_mem_toDigits) (fun h => by rw [eq_zero_of_head?_toDigits m h]; rfl) htext
  cases n with
  | ofNat m =>
    rw [toList_ofNat, (hdigits m).1, number.integer, numeral_toDigits]
    rfl
  | negSucc m =>
    rw [toList_negSucc, List.cons_append, (hdigits (m + 1)).2, number.integer, numeral_toDigits]
    rfl

/-- A whole number starts with a digit or a sign. -/
theorem exists_toString (n : Int) : ∃ c text, (toString n).toList = c :: text ∧
    (c.isDigit = true ∨ c = '-') := by
  cases n with
  | ofNat m =>
    obtain ⟨d, more, hd⟩ := List.exists_cons_of_ne_nil (Nat.toDigits_ne_nil (n := m) (b := 10))
    refine ⟨d, more, (toList_ofNat m).trans hd, .inl ?_⟩
    exact isDigit_of_mem_toDigits (hd ▸ List.mem_cons_self)
  | negSucc m => exact ⟨'-', _, toList_negSucc m, .inr rfl⟩

end Parser

/-! ## Layouts -/

/-- How items and members are set apart: what stands in front of them at a nesting level, and what
stands behind a colon. -/
structure Layout where
  gap   : Nat → Chars
  colon : Chars
  isSpace_gap   : ∀ level, ∀ c ∈ gap level, Parser.isSpace c = true
  isSpace_colon : ∀ c ∈ colon, Parser.isSpace c = true

/-- Everything on one line without blanks. -/
def Layout.compact : Layout := ⟨fun _ => [], [], by simp, by simp⟩

/-- One item a line. -/
def Layout.pretty : Layout where
  gap level := '\n' :: List.replicate (2 * level) ' '
  colon := [' ']
  isSpace_gap level c hc := by
    rcases List.mem_cons.1 hc with rfl | hc
    · rfl
    · rw [List.eq_of_mem_replicate hc]
      rfl
  isSpace_colon := by simp [Parser.isSpace]

mutual

/-- The text of a value at a nesting level. -/
def spell (l : Layout) (level : Nat) : Json → Chars
  | arr [] => ['[', ']']
  | arr (item :: rest) =>
    '[' :: (l.gap (level + 1) ++ (spell l (level + 1) item ++
      (spellItems l (level + 1) rest ++ (l.gap level ++ [']']))))
  | obj [] => ['\x7b', '\x7d']
  | obj ((key, value) :: rest) =>
    '\x7b' :: (l.gap (level + 1) ++ ((quote key).toList ++ ':' :: (l.colon ++
      (spell l (level + 1) value ++ (spellMembers l (level + 1) rest ++
        (l.gap level ++ ['\x7d']))))))
  | j => j.scalarText.toList

/-- The text of the items behind the first one. -/
def spellItems (l : Layout) (level : Nat) : List Json → Chars
  | [] => []
  | item :: rest => ',' :: (l.gap level ++ (spell l level item ++ spellItems l level rest))

/-- The text of the members behind the first one. -/
def spellMembers (l : Layout) (level : Nat) : List (String × Json) → Chars
  | [] => []
  | (key, value) :: rest =>
    ',' :: (l.gap level ++ ((quote key).toList ++ ':' :: (l.colon ++
      (spell l level value ++ spellMembers l level rest))))

end

mutual

theorem toList_writeCompact (level : Nat) (out : String) : ∀ j : Json,
    (writeCompact out j).toList = out.toList ++ spell .compact level j
  | arr [] => by simp [writeCompact, writeItems, spell]
  | arr (item :: rest) => by
    simp [writeCompact, writeItems, spell, toList_writeItems (level + 1),
      toList_writeCompact (level + 1), Layout.compact]
  | obj [] => by simp [writeCompact, writeMembers, spell]
  | obj ((key, value) :: rest) => by
    simp [writeCompact, writeMembers, spell, toList_writeMembers (level + 1),
      toList_writeCompact (level + 1), Layout.compact]
  | null | bool _ | int _ | real _ | str _ | broken => by simp [writeCompact, spell]

theorem toList_writeItems (level : Nat) (out : String) : ∀ items : List Json,
    (writeItems out false items).toList = out.toList ++ spellItems .compact level items
  | [] => by simp [writeItems, spellItems]
  | item :: rest => by
    simp [writeItems, spellItems, toList_writeItems level, toList_writeCompact level,
      Layout.compact]

theorem toList_writeMembers (level : Nat) (out : String) : ∀ members : List (String × Json),
    (writeMembers out false members).toList = out.toList ++ spellMembers .compact level members
  | [] => by simp [writeMembers, spellMembers]
  | (key, value) :: rest => by
    simp [writeMembers, spellMembers, toList_writeMembers level, toList_writeCompact level,
      Layout.compact]

end

theorem toList_newLine (level : Nat) : (newLine level).toList = Layout.pretty.gap level :=
  String.toList_ofList

mutual

theorem toList_writePretty (level : Nat) (out : String) : ∀ j : Json,
    (writePretty level out j).toList = out.toList ++ spell .pretty level j
  | arr [] => by simp [writePretty, spell]
  | arr (item :: rest) => by
    simp [writePretty, writePrettyItems, spell, toList_writePrettyItems, toList_writePretty,
      toList_newLine]
  | obj [] => by simp [writePretty, spell]
  | obj ((key, value) :: rest) => by
    simp [writePretty, writePrettyMembers, spell, toList_writePrettyMembers, toList_writePretty,
      toList_newLine, Layout.pretty]
  | null | bool _ | int _ | real _ | str _ | broken => by simp [writePretty, spell]

theorem toList_writePrettyItems (level : Nat) (out : String) : ∀ items : List Json,
    (writePrettyItems level out false items).toList = out.toList ++ spellItems .pretty level items
  | [] => by simp [writePrettyItems, spellItems]
  | item :: rest => by
    simp [writePrettyItems, spellItems, toList_writePrettyItems, toList_writePretty,
      toList_newLine]

theorem toList_writePrettyMembers (level : Nat) (out : String) :
    ∀ members : List (String × Json), (writePrettyMembers level out false members).toList =
      out.toList ++ spellMembers .pretty level members
  | [] => by simp [writePrettyMembers, spellMembers]
  | (key, value) :: rest => by
    simp [writePrettyMembers, spellMembers, toList_writePrettyMembers, toList_writePretty,
      toList_newLine, Layout.pretty]

end

/-! ## Reading what is spelt -/

mutual

/-- Whether a value is read back exactly: it has no fractions and no broken texts. -/
def isExact : Json → Bool
  | real _ => false
  | broken => false
  | arr items => areExact items
  | obj members => haveExact members
  | _ => true

/-- Whether all items are read back exactly. -/
def areExact : List Json → Bool
  | [] => true
  | item :: rest => isExact item && areExact rest

/-- Whether the values of all members are read back exactly. -/
def haveExact : List (String × Json) → Bool
  | [] => true
  | (_, value) :: rest => isExact value && haveExact rest

end

namespace Parser

/-- Where a value starts: at no white space and at no closing bracket. -/
def Starts (c : Char) : Prop := isSpace c = false ∧ c ≠ ']'

/-- Where a number starts: at none of the characters that other values start with. -/
theorem starts_number {c : Char} (h : c.isDigit = true ∨ c = '-') :
    Starts c ∧ c ∉ ['\x7b', '[', '"', 't', 'f', 'n'] := by
  have hnot : c ∉ [' ', '\t', '\n', '\r', ']', '\x7b', '[', '"', 't', 'f', 'n'] := by
    intro hc
    revert h
    exact (by simp : ∀ c ∈ [' ', '\t', '\n', '\r', ']', '\x7b', '[', '"', 't', 'f', 'n'],
      ¬(c.isDigit = true ∨ c = '-')) c hc
  simp only [List.mem_cons, not_or] at hnot
  simp [Starts, isSpace, hnot]

theorem value_number {c : Char} (h : c.isDigit = true ∨ c = '-') (fuel : Nat) (text : Chars) :
    value (fuel + 1) (c :: text) = number (c :: text) := by
  obtain ⟨⟨hspace, -⟩, hnot⟩ := starts_number h
  simp only [List.mem_cons, not_or] at hnot
  rw [value, skipSpace_cons hspace]
  split <;> simp_all

/-- A value starts where a value may start, even if it stands in an array. -/
theorem exists_spell (l : Layout) (level : Nat) : ∀ {j : Json}, isExact j = true →
    ∃ c text, spell l level j = c :: text ∧ Starts c
  | null, _ => ⟨'n', _, rfl, rfl, by decide⟩
  | bool true, _ => ⟨'t', _, rfl, rfl, by decide⟩
  | bool false, _ => ⟨'f', _, rfl, rfl, by decide⟩
  | int n, _ => by
    obtain ⟨c, text, hc, hstart⟩ := exists_toString n
    exact ⟨c, text, hc, (starts_number hstart).1⟩
  | str s, _ => ⟨'"', _, toList_quote s, rfl, by decide⟩
  | arr [], _ | arr (_ :: _), _ => ⟨'[', _, rfl, rfl, by decide⟩
  | obj [], _ | obj ((_, _) :: _), _ => ⟨'\x7b', _, rfl, rfl, by decide⟩

/-- What is read behind an item of an array: more items or the end of the array. -/
def itemsBehind (fuel : Nat) (j : Json) (text : Chars) : Option (List Json × Chars) :=
  match skipSpace text with
  | ',' :: rest => (items fuel rest).map fun (js, rest) => (j :: js, rest)
  | ']' :: rest => some ([j], rest)
  | _ => none

theorem items_succ (fuel : Nat) (text : Chars) :
    items (fuel + 1) text = (value fuel text).bind fun (j, rest) => itemsBehind fuel j rest := by
  rw [items]
  cases value fuel text <;> rfl

/-- What is read behind a member of an object: more members or the end of the object. -/
def membersBehind (fuel : Nat) (key : Option String) (j : Json) (text : Chars) :
    Option (List (Option String × Json) × Chars) :=
  match skipSpace text with
  | ',' :: rest => (members fuel rest).map fun (ms, rest) => ((key, j) :: ms, rest)
  | '\x7d' :: rest => some ([(key, j)], rest)
  | _ => none

/-- A member is read by its key. -/
theorem members_quote (fuel : Nat) (key : String) (text : Chars) :
    members (fuel + 1) ((quote key).toList ++ ':' :: text) =
      (value fuel text).bind fun (j, rest) => membersBehind fuel (some key) j rest := by
  rw [members, toList_quote, List.cons_append, List.append_assoc, List.singleton_append,
    skipSpace_cons (by decide)]
  simp only [string_quote]
  rw [skipSpace_cons (by decide)]
  simp only
  cases value fuel text <;> rfl

theorem object_map (members : List (String × Json)) :
    object (members.map fun m => (some m.1, m.2)) = obj members := by
  have hmap : (members.map fun m : String × Json => (some m.1, m.2)).mapM
      (fun m : Option String × Json => m.1.map (·, m.2)) = some members := by
    induction members with
    | nil => rfl
    | cons m members ih => simp [ih]
  rw [object]
  simp only [hmap]

/-- Behind what is spelt of items or members, white space and a closing bracket follow. -/
theorem delimited_append {gap : Chars} (h : ∀ c ∈ gap, isSpace c = true) {c : Char}
    (hc : c ∈ [',', ']', '\x7d']) (text : Chars) : Delimited (gap ++ c :: text) := by
  cases gap with
  | nil => exact delimited_cons (.inr hc) text
  | cons b gap => exact delimited_cons (.inl (h b List.mem_cons_self)) _

theorem delimited_spellItems (l : Layout) (level : Nat) (rest : List Json) {gap : Chars}
    (h : ∀ c ∈ gap, isSpace c = true) (text : Chars) :
    Delimited (spellItems l level rest ++ (gap ++ ']' :: text)) := by
  cases rest with
  | nil => exact delimited_append h (by decide) text
  | cons item rest => exact delimited_cons (.inr (by decide)) _

theorem delimited_spellMembers (l : Layout) (level : Nat) (rest : List (String × Json)) {gap : Chars}
    (h : ∀ c ∈ gap, isSpace c = true) (text : Chars) :
    Delimited (spellMembers l level rest ++ (gap ++ '\x7d' :: text)) := by
  cases rest with
  | nil => exact delimited_append h (by decide) text
  | cons member rest => exact delimited_cons (.inr (by decide)) _

/-- A value that starts behind an opening bracket is an item. -/
theorem value_bracket {gap : Chars} (hgap : ∀ c ∈ gap, isSpace c = true) {c : Char} (hc : Starts c)
    (fuel : Nat) (text : Chars) : value (fuel + 1) ('[' :: (gap ++ c :: text)) =
      (items fuel (c :: text)).map fun (js, rest) => (arr js, rest) := by
  rw [value, skipSpace_cons (by decide)]
  simp only [skipSpace_append hgap, skipSpace_cons hc.1]
  split
  · next h => exact absurd (List.cons.inj h).1 hc.2
  · rfl

/-- A literal behind an opening brace is the key of a member. -/
theorem value_brace {gap : Chars} (hgap : ∀ c ∈ gap, isSpace c = true) (fuel : Nat) (key : String)
    (text : Chars) : value (fuel + 1) ('\x7b' :: (gap ++ ((quote key).toList ++ text))) =
      (members fuel ((quote key).toList ++ text)).map fun (ms, rest) => (object ms, rest) := by
  rw [value, skipSpace_cons (by decide), toList_quote, List.cons_append]
  simp only [skipSpace_append hgap, skipSpace_cons (c := '"') (by decide)]
  rfl

mutual

/-- **What is spelt is read back.** The descent needs two steps for each character at most. -/
theorem value_spell (l : Layout) : ∀ (j : Json) (level fuel : Nat) (text : Chars),
    isExact j = true → 2 * (spell l level j).length ≤ fuel + 1 → Delimited text →
      value (fuel + 1) (spell l level j ++ text) = some (j, text)
  | null, _, _, _ => fun _ _ _ => rfl
  | bool true, _, _, _ => fun _ _ _ => rfl
  | bool false, _, _, _ => fun _ _ _ => rfl
  | int n, level, fuel, text => by
    intro _ _ htext
    obtain ⟨c, more, hc, hstart⟩ := exists_toString n
    have hspell : spell l level (int n) = c :: more := hc
    rw [hspell, List.cons_append, value_number hstart, ← List.cons_append, ← hc,
      number_toString n htext]
  | str s, level, fuel, text => by
    intro _ _ _
    have hspell : spell l level (str s) = '"' :: (s.toList.flatMap escapeChar ++ ['"']) :=
      toList_quote s
    rw [hspell, List.cons_append, List.append_assoc, List.singleton_append, value,
      skipSpace_cons (by decide)]
    simp only [string_quote]
    rfl
  | real _, _, _, _ | broken, _, _, _ => fun hexact => nomatch hexact
  | arr [], _, _, _ => fun _ _ _ => rfl
  | obj [], _, _, _ => fun _ _ _ => rfl
  | arr (item :: rest), level, fuel, text => by
    intro hexact hfuel _
    rw [isExact, areExact, Bool.and_eq_true] at hexact
    obtain ⟨c, more, hc, hstart⟩ := exists_spell l (level + 1) hexact.1
    rw [spell] at hfuel ⊢
    simp only [List.length_cons, List.length_append, List.length_nil] at hfuel
    obtain ⟨fuel, rfl⟩ := Nat.exists_eq_add_of_le' (show 2 ≤ fuel by omega)
    have hitem := value_spell l item (level + 1) fuel
      (spellItems l (level + 1) rest ++ (l.gap level ++ ']' :: text)) hexact.1 (by omega)
      (delimited_spellItems l (level + 1) rest (l.isSpace_gap level) text)
    have hrest := itemsBehind_spell l rest item (level + 1) (fuel + 1) (l.gap level) text
      (l.isSpace_gap level) hexact.2 (by omega)
    simp only [List.cons_append, List.append_assoc, List.nil_append]
    rw [hc, List.cons_append, value_bracket (l.isSpace_gap (level + 1)) hstart, ← List.cons_append,
      ← hc, items_succ, hitem]
    simp only [Option.bind_some, hrest, Option.map_some]
  | obj ((key, j) :: rest), level, fuel, text => by
    intro hexact hfuel _
    rw [isExact, haveExact, Bool.and_eq_true] at hexact
    rw [spell] at hfuel ⊢
    simp only [List.length_cons, List.length_append, List.length_nil] at hfuel
    obtain ⟨fuel, rfl⟩ := Nat.exists_eq_add_of_le' (show 2 ≤ fuel by omega)
    have hvalue := value_spell l j (level + 1) fuel
      (spellMembers l (level + 1) rest ++ (l.gap level ++ '\x7d' :: text)) hexact.1 (by omega)
      (delimited_spellMembers l (level + 1) rest (l.isSpace_gap level) text)
    have hrest := membersBehind_spell l rest key j (level + 1) (fuel + 1) (l.gap level) text
      (l.isSpace_gap level) hexact.2 (by omega)
    simp only [List.cons_append, List.append_assoc, List.nil_append]
    rw [value_brace (l.isSpace_gap (level + 1)), members_quote, value_append l.isSpace_colon, hvalue]
    simp only [Option.bind_some, hrest, Option.map_some, object_map]

theorem itemsBehind_spell (l : Layout) : ∀ (rest : List Json) (j : Json) (level fuel : Nat)
    (gap text : Chars), (∀ c ∈ gap, isSpace c = true) → areExact rest = true →
      2 * (spellItems l level rest).length ≤ fuel + 1 →
        itemsBehind fuel j (spellItems l level rest ++ (gap ++ ']' :: text)) = some (j :: rest, text)
  | [], j, level, fuel, gap, text, hgap, _, _ => by
    rw [spellItems, List.nil_append, itemsBehind, skipSpace_append hgap,
      skipSpace_cons (by decide)]
    rfl
  | item :: rest, j, level, fuel, gap, text, hgap, hexact, hfuel => by
    rw [areExact, Bool.and_eq_true] at hexact
    obtain ⟨c, more, hc, -⟩ := exists_spell l level hexact.1
    rw [spellItems] at hfuel ⊢
    simp only [List.length_cons, List.length_append] at hfuel
    have hpos : 0 < (spell l level item).length := by rw [hc]; exact Nat.succ_pos _
    obtain ⟨fuel, rfl⟩ := Nat.exists_eq_add_of_le' (show 2 ≤ fuel by omega)
    have hitem := value_spell l item level fuel (spellItems l level rest ++ (gap ++ ']' :: text))
      hexact.1 (by omega) (delimited_spellItems l level rest hgap text)
    have hrest := itemsBehind_spell l rest item level (fuel + 1) gap text hgap hexact.2 (by omega)
    rw [itemsBehind]
    simp only [List.cons_append, List.append_assoc]
    rw [skipSpace_cons (by decide)]
    simp only [items_append (l.isSpace_gap level), items_succ, hitem, Option.bind_some, hrest,
      Option.map_some]

theorem membersBehind_spell (l : Layout) : ∀ (rest : List (String × Json)) (key : String) (j : Json)
    (level fuel : Nat) (gap text : Chars), (∀ c ∈ gap, isSpace c = true) →
      haveExact rest = true → 2 * (spellMembers l level rest).length ≤ fuel + 1 →
        membersBehind fuel (some key) j (spellMembers l level rest ++ (gap ++ '\x7d' :: text)) =
          some (((key, j) :: rest).map fun m => (some m.1, m.2), text)
  | [], key, j, level, fuel, gap, text, hgap, _, _ => by
    rw [spellMembers, List.nil_append, membersBehind, skipSpace_append hgap,
      skipSpace_cons (by decide)]
    rfl
  | (key', j') :: rest, key, j, level, fuel, gap, text, hgap, hexact, hfuel => by
    rw [haveExact, Bool.and_eq_true] at hexact
    rw [spellMembers] at hfuel ⊢
    simp only [List.length_cons, List.length_append] at hfuel
    obtain ⟨fuel, rfl⟩ := Nat.exists_eq_add_of_le' (show 2 ≤ fuel by omega)
    have hvalue := value_spell l j' level fuel
      (spellMembers l level rest ++ (gap ++ '\x7d' :: text)) hexact.1 (by omega)
      (delimited_spellMembers l level rest hgap text)
    have hrest := membersBehind_spell l rest key' j' level (fuel + 1) gap text hgap hexact.2
      (by omega)
    rw [membersBehind]
    simp only [List.cons_append, List.append_assoc]
    rw [skipSpace_cons (by decide)]
    simp only [members_append (l.isSpace_gap level), members_quote, value_append l.isSpace_colon,
      hvalue, Option.bind_some, hrest, Option.map_some, List.map_cons]

end

end Parser

/-! ## Documents -/

theorem ofText?_spell (l : Layout) {j : Json} (h : isExact j = true) {text : String}
    (htext : text.toList = spell l 0 j) : ofText? text = some j := by
  have hread := Parser.value_spell l j 0 (2 * text.toList.length + 1) [] h (by rw [htext]; omega)
    (by simp [Parser.Delimited])
  rw [List.append_nil, ← htext] at hread
  rw [ofText?, hread]
  rfl

/-- **The compact form is read back.** -/
theorem ofText?_compact {j : Json} (h : isExact j = true) : ofText? j.compact = some j := by
  refine ofText?_spell .compact h ?_
  rw [compact, toList_writeCompact 0]
  rfl

/-- **The pretty form is read back.** -/
theorem ofText?_pretty {j : Json} (h : isExact j = true) : ofText? j.pretty = some j := by
  refine ofText?_spell .pretty h ?_
  rw [pretty, toList_writePretty]
  rfl

end ArchGraph.Json
