import ArchGraph.Proofs.Sql.Bytewise
import ArchGraph.Proofs.Sql.Stripping
/-!
# What stripping keeps

A script without its comments is read as it stands, so the reader is never inside of a comment on
its way through it (`Plain.reads`). Stripping removes comments and, at the ends, blanks: the
characters of the script and their marks are those of the result between blanks
(`exists_shown_stripComments`). A blank in front is never quoted, since a string starts with its
quote; one at the end can be, in a string that is not closed, and is then the only thing of a string
that is lost. Main statement: `stripComments_faithful`.
-/

namespace ArchGraph.Sql

open Text (Chars IsBound byteLength bytesBefore isBlank trim)

/-- The characters outside of comments, each with the mark of a string. -/
def shown (mode : Mode) (text : Chars) : List (Char × Bool) :=
  (lexFrom mode 0 text).map fun l => (l.char, l.quoted)

/-- The characters of a script that belong to strings, quotes included. -/
def quotedChars (text : Chars) : Chars := ((lex text).filter (·.quoted)).map (·.char)

/-! ## Characters with their marks -/

theorem map_fst_shown (mode : Mode) (text : Chars) :
    (shown mode text).map Prod.fst = (lexFrom mode 0 text).map (·.char) := by
  rw [shown, List.map_map]
  rfl

theorem plain_iff_shown {mode : Mode} {text : Chars} :
    Plain mode text ↔ (shown mode text).map Prod.fst = text := by
  rw [map_fst_shown]
  rfl

theorem quotedChars_eq (text : Chars) :
    quotedChars text = ((shown .code text).filter (·.2)).map Prod.fst := by
  rw [shown, List.filter_map, List.map_map]
  rfl

theorem shown_lexFrom : ∀ (text : Chars) (mode : Mode) (offset : Nat),
    (lexFrom mode offset text).map (fun l => (l.char, l.quoted)) = shown mode text
  | [], _, _ => rfl
  | c :: rest, mode, offset => by
    have ih := shown_lexFrom rest (mode.after c rest.head?)
    rw [shown, lexFrom_cons, lexFrom_cons, List.map_append, List.map_append, ih (offset + 1),
      ih (0 + 1)]
    cases mode.read? c rest.head? <;> rfl

@[simp] theorem shown_nil (mode : Mode) : shown mode [] = [] := rfl

theorem shown_cons (mode : Mode) (c : Char) (rest : Chars) : shown mode (c :: rest) =
    (mode.read? c rest.head?).toList ++ shown (mode.after c rest.head?) rest := by
  rw [shown, lexFrom_cons, List.map_append, shown_lexFrom]
  cases mode.read? c rest.head? <;> rfl

/-- What is read of a script is read the same again. -/
theorem shown_read (text : Chars) : shown .code (read text) = shown .code text := by
  have hlex : shown .code (read text) = (lex (read text)).map fun l => (l.char, l.quoted) := rfl
  rw [hlex, lex_read, List.map_map]
  rfl

/-- A text is read on its own in front of what starts with no mark of a comment. -/
theorem shown_append {back : Chars} (hback : ∀ d ∈ back.head?, d ≠ '-' ∧ d ≠ '*') :
    ∀ (front : Chars) (mode : Mode), shown mode (front ++ back) =
      shown mode front ++ shown (modeFrom mode front front.length) back
  | [], mode => by rw [List.nil_append, shown_nil, List.nil_append, modeFrom_nil]
  | [c], mode => by
    have hlook := mode.look_eq_none c hback
    have hone : shown mode [c] = (mode.read? c none).toList := by
      rw [shown_cons, List.head?_nil, shown_nil, List.append_nil]
    rw [List.singleton_append, shown_cons, hlook.1, hlook.2, hone, List.length_singleton,
      modeFrom_cons, List.head?_nil, modeFrom_zero]
  | c :: d :: front, mode => by
    have ih := shown_append hback (d :: front) (mode.after c (some d))
    rw [List.cons_append, shown_cons, List.cons_append, List.head?_cons, ← List.cons_append, ih,
      shown_cons mode c, List.head?_cons, List.append_assoc]
    rfl

/-- Blanks in front are read unquoted, one by one. -/
theorem shown_blanks {back : Chars} : ∀ {front : Chars}, (∀ c ∈ front, isBlank c = true) →
    shown .code (front ++ back) = front.map (·, false) ++ shown .code back
  | [], _ => rfl
  | c :: front, hfront => by
    obtain ⟨hc, hfront⟩ := List.forall_mem_cons.1 hfront
    obtain ⟨hquote, hdash, hslash, -⟩ := ne_of_isBlank hc
    have hafter (next : Option Char) : Mode.code.after c next = .code := by
      simp [Mode.after, hquote, hdash, hslash]
    have hread (next : Option Char) : Mode.code.read? c next = some (c, false) := by
      simp [Mode.read?, hquote, hdash, hslash]
    rw [List.cons_append, shown_cons, hafter, hread, shown_blanks hfront]
    rfl

/-! ## No comment is left -/

/-- Behind a character that is read as it stands the reader is outside of comments. -/
theorem Mode.Reads.after {mode : Mode} (h : mode.Reads) {c : Char} {next : Option Char}
    (hread : (mode.read? c next).map (·.1) = some c) : (mode.after c next).Reads := by
  rcases h with rfl | rfl
  · simp only [Mode.read?] at hread
    simp only [Mode.after]
    split
    · exact .inr rfl
    · next hquote =>
      rw [if_neg hquote] at hread
      split
      · next hdash =>
        rw [if_pos hdash] at hread
        cases hread
      · next hdash =>
        rw [if_neg hdash] at hread
        split
        · next hslash =>
          -- a block comment would leave a blank in the place of its slash
          rw [if_pos hslash] at hread
          exact absurd (Option.some.inj hread) (hslash.1 ▸ by decide)
        · exact .inl rfl
  · simp only [Mode.after]
    split
    · exact .inl rfl
    · exact .inr rfl

/-- **A text that is read as it stands has no comment.** At none of its places, nor at its end. -/
theorem Plain.reads : ∀ {text : Chars} {mode : Mode}, Plain mode text → mode.Reads →
    ∀ place, (modeFrom mode text place).Reads
  | _, _, _, hmode, 0 => by rwa [modeFrom_zero]
  | [], _, _, hmode, _ + 1 => by rwa [modeFrom_nil]
  | c :: rest, mode, h, hmode, place + 1 => by
    obtain ⟨hread, hrest⟩ := plain_cons.1 h
    rw [modeFrom_cons]
    exact hrest.reads (hmode.after hread) place

/-! ## What is left -/

/-- **What stripping removes.** Comments, unquoted blanks in front, and blanks at the end. -/
theorem exists_shown_stripComments (text : Chars) : ∃ (front : Chars) (back : List (Char × Bool)),
    shown .code text = front.map (·, false) ++ (shown .code (stripComments text) ++ back) ∧
      (∀ c ∈ front, isBlank c = true) ∧ ∀ x ∈ back, isBlank x.1 = true := by
  obtain ⟨front, back, hsplit, hfront, hback⟩ := Text.exists_trim (read text)
  have hstrip : trim (read text) = stripComments text := rfl
  rw [hstrip, List.append_assoc] at hsplit
  have hnext : ∀ d ∈ back.head?, d ≠ '-' ∧ d ≠ '*' := by
    intro d hd
    have hd := ne_of_isBlank (hback d (List.mem_of_mem_head? hd))
    exact ⟨hd.2.1, hd.2.2.2⟩
  have hbehind := shown_append hnext (stripComments text) .code
  -- both the part with the blanks behind it and the part alone are read as they stand
  have hplain : Plain .code (read text) := read_read text
  rw [hsplit] at hplain
  have hchars := plain_iff_shown.1 (hplain.behind hfront)
  rw [hbehind, List.map_append, plain_iff_shown.1 (plain_stripComments text)] at hchars
  have hblank := List.append_cancel_left hchars
  refine ⟨front, _, ?_, hfront, fun x hx => hback x.1 (hblank ▸ List.mem_map_of_mem hx)⟩
  rw [← hbehind, ← shown_blanks hfront, ← hsplit, shown_read]

/-- The characters of strings are kept, up to blanks at the end. -/
theorem exists_quotedChars_stripComments (text : Chars) : ∃ back : Chars,
    quotedChars text = quotedChars (stripComments text) ++ back ∧ ∀ c ∈ back, isBlank c = true := by
  obtain ⟨front, back, hshown, -, hback⟩ := exists_shown_stripComments text
  have hfront : (front.map (·, false)).filter (·.2) = [] := by simp
  refine ⟨(back.filter (·.2)).map Prod.fst, ?_, fun c hc => ?_⟩
  · rw [quotedChars_eq, hshown, List.filter_append, List.filter_append, hfront, List.nil_append,
      List.map_append, quotedChars_eq]
  · obtain ⟨x, hx, rfl⟩ := List.mem_map.1 hc
    exact hback x (List.mem_filter.1 hx).1

/-! ## Offsets -/

/-- The places of what is read, in bytes: in order, and each that of a character of the script. -/
theorem Bytewise.offsets_lexFrom (text : Chars) :
    (Bytewise.lexFrom .code 0 text).Pairwise (fun l l' => l.offset < l'.offset) ∧
      ∀ l ∈ Bytewise.lexFrom .code 0 text, IsBound text l.offset ∧ l.offset < byteLength text := by
  have hlex : Bytewise.lexFrom .code 0 text = (lex text).map (·.moved (bytesBefore text)) :=
    Bytewise.lexFrom_eq [] text .code
  have hinside {l : Lexeme} (hl : l ∈ lex text) : l.offset < text.length := by
    have hlt := (offset_of_mem_lexFrom hl).2
    rwa [Nat.zero_add] at hlt
  rw [hlex]
  constructor
  · refine List.pairwise_map.2 ((pairwise_lexFrom text .code 0).imp_of_mem ?_)
    intro l l' _ hl' hlt
    exact (Text.bytesBefore_lt_iff text (Nat.le_of_lt (hinside hl'))).2 hlt
  · intro l hl
    obtain ⟨l', hl', rfl⟩ := List.mem_map.1 hl
    have hlt := hinside hl'
    refine ⟨⟨l'.offset, Nat.le_of_lt hlt, rfl⟩, ?_⟩
    rw [← Text.bytesBefore_length]
    exact (Text.bytesBefore_lt_iff text (Nat.le_refl _)).2 hlt

/-! ## Stripping -/

/-- **Stripping is faithful.** It changes nothing when it is done again; its result has no comment,
neither one that was there nor one that two of its characters make up, and each of its characters is
read; its characters with their marks are those of the script between unquoted blanks in front and
blanks at the end; what strings hold is kept up to blanks at the end; and what is read stands at
increasing offsets at which characters of the script start. -/
theorem stripComments_faithful (text : Chars) :
    stripComments (stripComments text) = stripComments text ∧
    (∀ place, (modeFrom .code (stripComments text) place).Reads) ∧
    (lex (stripComments text)).map (·.char) = stripComments text ∧
    (∃ (front : Chars) (back : List (Char × Bool)),
      shown .code text = front.map (·, false) ++ (shown .code (stripComments text) ++ back) ∧
        (∀ c ∈ front, isBlank c = true) ∧ ∀ x ∈ back, isBlank x.1 = true) ∧
    (∃ back : Chars, quotedChars text = quotedChars (stripComments text) ++ back ∧
      ∀ c ∈ back, isBlank c = true) ∧
    (Bytewise.lexFrom .code 0 text).Pairwise (fun l l' => l.offset < l'.offset) ∧
    ∀ l ∈ Bytewise.lexFrom .code 0 text, IsBound text l.offset ∧ l.offset < byteLength text :=
  ⟨stripComments_stripComments text, (plain_stripComments text).reads (.inl rfl),
    plain_stripComments text, exists_shown_stripComments text,
    exists_quotedChars_stripComments text, Bytewise.offsets_lexFrom text⟩

/-- What stripping would join is kept apart by the blank of the comment, and the blank at the end of
a string that is not closed is the one that is lost. -/
example : stripComments "-/**/- '/*' -- '\n'a ".toList = "- - '/*' \n'a".toList := by decide

end ArchGraph.Sql
