import ArchGraph.Proofs.Sql.Reading
/-!
# Scripts without their comments

A script without its comments is read as it stands: its lexemes are those of the script, each moved
to its rank among them (`lex_read`). So brackets, semicolons, statements and items of the script
without comments are those of the script, at the ranks of their places (`matchingParen?_read`,
`statementEnd_read`, `items_read`), and hold what is read of them (`chars_moved`).
-/

namespace ArchGraph.Sql

open Text (Chars)

/-- A script without its comments. -/
def read (text : Chars) : Chars := (lex text).map (·.char)

/-- A lexeme at another place. -/
def Lexeme.moved (f : Nat → Nat) (l : Lexeme) : Lexeme := { l with offset := f l.offset }

/-- A part at another place. -/
def Region.moved (f : Nat → Nat) (r : Region) : Region := ⟨f r.start, f r.stop⟩

/-- How many characters are read in front of a place. -/
def rank (text : Chars) (place : Nat) : Nat := (lex text).countP (·.offset < place)

/-! ## Reading what was read -/

/-- What the reader is inside of when it goes on with what was read. -/
def Mode.resumed : Mode → Mode
  | .string => .string
  | _ => .code

/-- Lexemes one behind the other from a place on. -/
def renumber : Nat → List Lexeme → List Lexeme
  | _, [] => []
  | place, l :: ls => { l with offset := place } :: renumber (place + 1) ls

/-- What is read first is the first character, or what a comment leaves behind. -/
theorem head_lexFrom_code {rest : Chars} {offset : Nat} {c : Char}
    (h : ((lexFrom .code offset rest).map (·.char)).head? = some c) :
    rest.head? = some c ∨ c = ' ' ∨ c = '\n' := by
  cases rest with
  | nil => cases h
  | cons d rest =>
    rw [lexFrom] at h
    split at h
    · exact .inl h
    · split at h
      · rw [List.head?_map] at h
        obtain ⟨l, hl, rfl⟩ := Option.map_eq_some_iff.1 h
        exact .inr (.inr (head_lexFrom_lineComment l hl))
      · split at h
        · exact .inr (.inl (Option.some.inj h).symm)
        · exact .inl h

/-- **What was read is read as it stands.** -/
theorem lexFrom_map_char : ∀ (text : Chars) (mode : Mode) (offset place : Nat),
    lexFrom mode.resumed place ((lexFrom mode offset text).map (·.char)) =
      renumber place (lexFrom mode offset text)
  | [], _, _, _ => rfl
  | c :: rest, mode, offset, place => by
    have ih (mode : Mode) (place : Nat) := lexFrom_map_char rest mode (offset + 1) place
    cases mode with
    | code =>
      show lexFrom .code place _ = _
      by_cases hquote : c = '\''
      · have hread : lexFrom .code offset (c :: rest) =
            ⟨offset, c, true⟩ :: lexFrom .string (offset + 1) rest := by rw [lexFrom, if_pos hquote]
        rw [hread, List.map_cons, renumber, ← ih .string, lexFrom, if_pos hquote]
        rfl
      by_cases hdash : c = '-' ∧ rest.head? = some '-'
      · have hread : lexFrom .code offset (c :: rest) = lexFrom .lineComment (offset + 1) rest := by
          rw [lexFrom, if_neg hquote, if_pos hdash]
        rw [hread]
        exact ih .lineComment place
      by_cases hslash : c = '/' ∧ rest.head? = some '*'
      · have hread : lexFrom .code offset (c :: rest) =
            ⟨offset, ' ', false⟩ :: lexFrom .blockStart (offset + 1) rest := by
          rw [lexFrom, if_neg hquote, if_neg hdash, if_pos hslash]
        rw [hread, List.map_cons, renumber, ← ih .blockStart]
        rfl
      · have hread : lexFrom .code offset (c :: rest) =
            ⟨offset, c, false⟩ :: lexFrom .code (offset + 1) rest := by
          rw [lexFrom, if_neg hquote, if_neg hdash, if_neg hslash]
        -- no comment starts in what was read: its second character is the one behind, or a blank
        have hnext {d : Char} (hd : d ≠ ' ' ∧ d ≠ '\n')
            (h : ((lexFrom .code (offset + 1) rest).map (·.char)).head? = some d) :
            rest.head? = some d :=
          (head_lexFrom_code h).resolve_right fun h => h.elim hd.1 hd.2
        rw [hread, List.map_cons, renumber, ← ih .code, lexFrom, if_neg hquote,
          if_neg fun h => hdash ⟨h.1, hnext (by decide) h.2⟩,
          if_neg fun h => hslash ⟨h.1, hnext (by decide) h.2⟩]
        rfl
    | string =>
      show lexFrom .string place ((lexFrom .string offset (c :: rest)).map _) = _
      rw [lexFrom_string_cons, List.map_cons, renumber, ← ih, lexFrom_string_cons]
      split <;> rfl
    | lineComment =>
      rw [lexFrom]
      split
      · next hline =>
        rw [List.map_cons, renumber, ← ih .code, hline]
        rfl
      · exact ih .lineComment place
    | blockStart => exact ih (.blockComment ' ') place
    | blockComment previous =>
      rw [lexFrom]
      split
      · exact ih .code place
      · exact ih (.blockComment c) place

/-! ## Ranks -/

theorem pairwise_lexFrom : ∀ (text : Chars) (mode : Mode) (offset : Nat),
    (lexFrom mode offset text).Pairwise fun l l' => l.offset < l'.offset
  | [], _, _ => List.Pairwise.nil
  | c :: rest, mode, offset => by
    rw [lexFrom_cons]
    refine List.pairwise_append.2 ⟨?_, pairwise_lexFrom rest _ _, ?_⟩
    · cases mode.read? c rest.head? <;> simp
    · intro l hl l' hl'
      obtain ⟨r, -, rfl⟩ := Option.map_eq_some_iff.1 (Option.mem_toList.1 hl)
      exact (offset_of_mem_lexFrom hl').1

theorem renumber_eq_map : ∀ {ls : List Lexeme} (place : Nat),
    ls.Pairwise (fun l l' => l.offset < l'.offset) →
      renumber place ls = ls.map (·.moved fun n => place + ls.countP (·.offset < n))
  | [], _, _ => rfl
  | l :: ls, place, h => by
    obtain ⟨hl, hls⟩ := List.pairwise_cons.1 h
    have hfirst : (l :: ls).countP (·.offset < l.offset) = 0 := by
      rw [List.countP_eq_zero]
      intro l' hl'
      rcases List.mem_cons.1 hl' with rfl | hl'
      · simp
      · have := hl l' hl'
        simp only [decide_eq_true_eq]
        omega
    rw [renumber, renumber_eq_map (place + 1) hls, List.map_cons, Lexeme.moved, hfirst]
    refine congrArg (_ :: ·) (List.map_congr_left fun l' hl' => ?_)
    have hmore : (l :: ls).countP (·.offset < l'.offset) = ls.countP (·.offset < l'.offset) + 1 := by
      rw [List.countP_cons, if_pos (by simpa using hl l' hl')]
    rw [Lexeme.moved, Lexeme.moved, hmore, Nat.add_right_comm, Nat.add_assoc]

/-- **The lexemes of a script without its comments.** -/
theorem lex_read (text : Chars) : lex (read text) = (lex text).map (·.moved (rank text)) := by
  refine (lexFrom_map_char text .code 0 0).trans ?_
  rw [renumber_eq_map 0 (pairwise_lexFrom text .code 0)]
  simp only [Nat.zero_add]
  rfl

theorem read_read (text : Chars) : read (read text) = read text := by
  rw [read, lex_read, List.map_map]
  rfl

/-- Comments do not matter to a part that is read past its comments. -/
theorem stripComments_read (text : Chars) : stripComments (read text) = stripComments text :=
  congrArg Text.trim (read_read text)

theorem code_read (text : Chars) : code (read text) = (code text).map (·.moved (rank text)) := by
  rw [code, lex_read, List.filter_map]
  rfl

/-! ## Parts -/

/-- What is read does not depend on where the text starts. -/
theorem map_char_lexFrom : ∀ (text : Chars) (mode : Mode) (offset offset' : Nat),
    (lexFrom mode offset text).map (·.char) = (lexFrom mode offset' text).map (·.char)
  | [], _, _, _ => rfl
  | c :: rest, mode, offset, offset' => by
    rw [lexFrom_cons, lexFrom_cons, List.map_append, List.map_append,
      map_char_lexFrom rest _ (offset + 1) (offset' + 1)]
    cases mode.read? c rest.head? <;> rfl

theorem rank_mono (text : Chars) {place place' : Nat} (h : place ≤ place') :
    rank text place ≤ rank text place' :=
  List.countP_mono_left fun l _ hl => by
    simp only [decide_eq_true_eq] at hl ⊢
    omega

section

variable {text : Chars} {place : Nat}

/-- The rank of a place where a script can be cut. -/
theorem Outside.rank_eq (h : Outside text place) :
    rank text place = (read (text.take place)).length := by
  have hfront : (lex (text.take place)).countP (·.offset < place) =
      (lex (text.take place)).length := by
    rw [List.countP_eq_length]
    intro l hl
    have hlt := (offset_of_mem_lexFrom hl).2
    rw [List.length_take] at hlt
    simp only [decide_eq_true_eq]
    omega
  have hback : (lexFrom .code place (text.drop place)).countP (·.offset < place) = 0 := by
    rw [List.countP_eq_zero]
    intro l hl
    have hle := (offset_of_mem_lexFrom hl).1
    simp only [decide_eq_true_eq]
    omega
  rw [rank, h.lex_eq, List.countP_append, hfront, hback, read, List.length_map, Nat.add_zero]

theorem Outside.read_eq (h : Outside text place) :
    read text = read (text.take place) ++ read (text.drop place) := by
  rw [read, h.lex_eq, List.map_append, map_char_lexFrom (text.drop place) .code place 0]
  rfl

theorem Outside.take_read (h : Outside text place) :
    (read text).take (rank text place) = read (text.take place) := by
  rw [h.rank_eq, h.read_eq, List.take_left]

theorem Outside.drop_read (h : Outside text place) :
    (read text).drop (rank text place) = read (text.drop place) := by
  rw [h.rank_eq, h.read_eq, List.drop_left]

/-- All of a text is read in front of its end. -/
theorem rank_length : rank text text.length = (read text).length := by
  rw [rank, read, List.length_map, List.countP_eq_length]
  intro l hl
  have hlt := (offset_of_mem_lexFrom hl).2
  simpa using hlt

/-- Ranks are counted from a place on like places. -/
theorem Outside.rank_add (h : Outside text place) {more : Nat}
    (hmore : Outside (text.drop place) more) :
    rank text (place + more) = rank text place + rank (text.drop place) more := by
  have hfront := ((h.add hmore).take (Nat.le_refl _)).rank_eq
  have hcut := h.take (Nat.le_add_right place more)
  rw [(h.add hmore).rank_eq, hcut.read_eq, List.length_append, List.take_take,
    Nat.min_eq_left (Nat.le_add_right place more), ← h.rank_eq, List.drop_take,
    Nat.add_sub_cancel_left, ← hmore.rank_eq]

end

/-- Where a part can stop: outside of comments and strings, or at the end of the script. -/
def Cuts (text : Chars) (place : Nat) : Prop := Outside text place ∨ place = text.length

/-- **What a part holds.** A part of a script that is cut outside of comments and strings holds in
the script without its comments what is read of it. -/
theorem chars_moved {text : Chars} {r : Region} (hstart : Outside text r.start)
    (hstop : Cuts text r.stop) :
    (r.moved (rank text)).chars (read text) = read (r.chars text) := by
  rcases hstop with hstop | hstop
  · rw [Region.chars, Region.moved, hstop.take_read]
    rcases Nat.le_total r.start r.stop with hle | hle
    · have hcut := hstart.take hle
      have hrank : rank text r.start = rank (text.take r.stop) r.start := by
        rw [hstart.rank_eq, hcut.rank_eq, List.take_take, Nat.min_eq_left hle]
      rw [hrank, hcut.drop_read]
      rfl
    · have hempty : r.chars text = [] := by
        rw [Region.chars, List.drop_eq_nil_iff]
        exact Nat.le_trans (List.length_take_le _ _) hle
      rw [hempty]
      exact List.drop_eq_nil_of_le (hstop.rank_eq ▸ rank_mono text hle)
  · rw [Region.chars, Region.moved, Region.chars, hstop, rank_length, List.take_length,
      List.take_length, hstart.drop_read]

/-! ## Brackets, semicolons and commas -/

theorem closing?_map (f : Nat → Nat) : ∀ (ls : List Lexeme) (depth : Nat),
    closing? depth (ls.map (·.moved f)) = (closing? depth ls).map f
  | [], _ => rfl
  | l :: ls, depth => by
    rw [List.map_cons, closing?, closing?, closing?_map f ls, closing?_map f ls, closing?_map f ls,
      apply_ite (Option.map f), apply_ite (Option.map f), apply_ite (Option.map f)]
    rfl

theorem topCommas_map (f : Nat → Nat) : ∀ (ls : List Lexeme) (depth : Int),
    topCommas depth (ls.map (·.moved f)) = (topCommas depth ls).map f
  | [], _ => rfl
  | l :: ls, depth => by
    rw [List.map_cons, topCommas, topCommas, topCommas_map f ls, topCommas_map f ls,
      topCommas_map f ls, apply_ite (List.map f), apply_ite (List.map f), apply_ite (List.map f)]
    rfl

theorem cutAt_map {f : Nat → Nat} : ∀ {places : List Nat} (start stop : Nat),
    (∀ place ∈ places, f (place + 1) = f place + 1) →
      cutAt (f start) (f stop) (places.map f) = (cutAt start stop places).map (·.moved f)
  | [], _, _, _ => rfl
  | place :: places, start, stop, h => by
    obtain ⟨hplace, hplaces⟩ := List.forall_mem_cons.1 h
    rw [List.map_cons, cutAt, cutAt, ← hplace, cutAt_map (place + 1) stop hplaces]
    rfl

/-- Behind a comma or a semicolon that counts a script can be cut, and the rank is the next one. -/
theorem Outside.succ {text : Chars} {place : Nat} {c : Char} (h : Outside text place)
    (hget : text[place]? = some c) (hc : c = ',' ∨ c = ';') :
    Outside text (place + 1) ∧ rank text (place + 1) = rank text place + 1 := by
  obtain ⟨hlt, hget⟩ := List.getElem?_eq_some_iff.1 hget
  have hdrop : text.drop place = c :: text.drop (place + 1) := by
    rw [← hget]
    exact List.drop_eq_getElem_cons hlt
  have hone : Outside (text.drop place) 1 := by
    rw [hdrop]
    exact ⟨by simp, by rcases hc with rfl | rfl <;> simp [modeFrom_cons, Mode.after]⟩
  refine ⟨h.add hone, ?_⟩
  rw [h.rank_add hone, hone.rank_eq, hdrop]
  rcases hc with rfl | rfl <;> rfl

section

variable {text : Chars} {start : Nat}

theorem outside_matchingParen {close : Nat} (h : Outside text start)
    (hclose : matchingParen? text start = some close) : Outside text close := by
  obtain ⟨place, hplace, rfl⟩ := Option.map_eq_some_iff.1 hclose
  obtain ⟨l, hl, hchar, rfl⟩ := exists_of_closing? hplace
  exact h.add (outside_of_mem_code hl (by rw [hchar]; decide)).2.1

/-- The closing bracket in a script without its comments. -/
theorem matchingParen?_read (h : Outside text start) :
    matchingParen? (read text) (rank text start) =
      (matchingParen? text start).map (rank text) := by
  rw [matchingParen?, matchingParen?, h.drop_read, code_read, closing?_map, Option.map_map,
    Option.map_map]
  refine Option.map_congr fun place hplace => ?_
  obtain ⟨l, hl, hchar, rfl⟩ := exists_of_closing? hplace
  exact (h.rank_add (outside_of_mem_code hl (by rw [hchar]; decide)).2.1).symm

theorem mem_of_semicolon? {place : Nat} (h : semicolon? text start = some place) :
    ∃ l ∈ code (text.drop start), l.char = ';' ∧ place = start + l.offset := by
  obtain ⟨l, hl, rfl⟩ := Option.map_eq_some_iff.1 h
  exact ⟨l, List.mem_of_find?_eq_some hl, by simpa using List.find?_some hl, rfl⟩

/-- The next semicolon stands where it is found. -/
theorem getElem?_of_semicolon? {place : Nat} (h : semicolon? text start = some place) :
    start ≤ place ∧ text[place]? = some ';' := by
  obtain ⟨l, hl, hchar, rfl⟩ := mem_of_semicolon? h
  have hget := (outside_of_mem_code hl (by rw [hchar]; decide)).1
  rw [List.getElem?_drop, hchar] at hget
  exact ⟨Nat.le_add_right _ _, hget⟩

theorem outside_semicolon {place : Nat} (h : Outside text start)
    (hplace : semicolon? text start = some place) :
    Outside text place ∧ text[place]? = some ';' := by
  obtain ⟨l, hl, hchar, rfl⟩ := mem_of_semicolon? hplace
  obtain ⟨hget, hout, -⟩ := outside_of_mem_code hl (by rw [hchar]; decide)
  rw [List.getElem?_drop, hchar] at hget
  exact ⟨h.add hout, hget⟩

/-- The next semicolon in a script without its comments. -/
theorem semicolon?_read (h : Outside text start) :
    semicolon? (read text) (rank text start) = (semicolon? text start).map (rank text) := by
  rw [semicolon?, semicolon?, h.drop_read, code_read, List.find?_map, Option.map_map,
    Option.map_map]
  refine Option.map_congr fun l hl => ?_
  have hfound := List.find?_some hl
  have hchar : l.char = ';' := of_decide_eq_true hfound
  exact (h.rank_add (outside_of_mem_code (List.mem_of_find?_eq_some hl)
    (by rw [hchar]; decide)).2.1).symm

/-- The end of a statement in a script without its comments. -/
theorem statementEnd_read (h : Outside text start) :
    statementEnd (read text) (rank text start) = rank text (statementEnd text start) := by
  rw [statementEnd, statementEnd, semicolon?_read h]
  cases hplace : semicolon? text start with
  | none => exact rank_length.symm
  | some place =>
    obtain ⟨hout, hget⟩ := outside_semicolon h hplace
    exact (hout.succ hget (.inr rfl)).2.symm

end

/-- A comma between the items of a part. -/
theorem outside_of_mem_topCommas {text : Chars} {r : Region} (hstart : Outside text r.start)
    {place : Nat} (h : place ∈ topCommas 0 (code (r.chars text))) :
    Outside text (r.start + place) ∧ text[r.start + place]? = some ',' ∧
      rank text (r.start + place) = rank text r.start + rank (r.chars text) place := by
  obtain ⟨l, hl, hchar, rfl⟩ := exists_of_mem_topCommas h
  obtain ⟨hget, hout, -⟩ := outside_of_mem_code hl (by rw [hchar]; decide)
  have hchars : r.chars text = (text.drop r.start).take (r.stop - r.start) := by
    rw [Region.chars, List.drop_take]
  rw [hchars] at hget hout
  have hlt : l.offset < r.stop - r.start := by
    have hlength := (List.getElem?_eq_some_iff.1 hget).1
    rw [List.length_take] at hlength
    omega
  rw [List.getElem?_take, if_pos hlt, List.getElem?_drop, hchar] at hget
  have hdrop := hout.of_take hlt
  refine ⟨hstart.add hdrop, hget, ?_⟩
  rw [hstart.rank_add hdrop, hchars, hout.rank_eq, hdrop.rank_eq, List.take_take,
    Nat.min_eq_left (Nat.le_of_lt hlt)]

/-- **The items of a part.** The items of a part of a script without its comments are the items of
the part of the script. -/
theorem items_read {text : Chars} {r : Region} (hstart : Outside text r.start)
    (hstop : Cuts text r.stop) :
    items (read text) (r.moved (rank text)) = (items text r).map (·.moved (rank text)) := by
  rw [items, items, chars_moved hstart hstop, code_read, topCommas_map, List.map_map]
  have hplaces : (topCommas 0 (code (r.chars text))).map
        ((rank text r.start + ·) ∘ rank (r.chars text)) =
      ((topCommas 0 (code (r.chars text))).map (r.start + ·)).map (rank text) := by
    rw [List.map_map]
    exact List.map_congr_left fun place h => (outside_of_mem_topCommas hstart h).2.2.symm
  refine (congrArg (cutAt _ _) hplaces).trans (cutAt_map (f := rank text) _ _ fun place h => ?_)
  obtain ⟨place, hplace, rfl⟩ := List.mem_map.1 h
  obtain ⟨hout, hget, -⟩ := outside_of_mem_topCommas hstart hplace
  exact (hout.succ hget (.inl rfl)).2

theorem outside_of_mem_cutAt {text : Chars} : ∀ {places : List Nat} {start stop : Nat}
    {r : Region}, Outside text start → Cuts text stop →
      (∀ place ∈ places, Outside text place ∧ Outside text (place + 1)) →
        r ∈ cutAt start stop places → Outside text r.start ∧ Cuts text r.stop
  | [], _, _, _, hstart, hstop, _, h => by
    rw [cutAt, List.mem_singleton] at h
    exact h ▸ ⟨hstart, hstop⟩
  | place :: places, start, stop, r, hstart, hstop, hplaces, h => by
    obtain ⟨hplace, hplaces⟩ := List.forall_mem_cons.1 hplaces
    rcases List.mem_cons.1 h with rfl | h
    · exact ⟨hstart, .inl hplace.1⟩
    · exact outside_of_mem_cutAt hplace.2 hstop hplaces h

/-- Items start outside of comments and strings and can stop where they do. -/
theorem outside_of_mem_items {text : Chars} {r item : Region} (hstart : Outside text r.start)
    (hstop : Cuts text r.stop) (h : item ∈ items text r) :
    Outside text item.start ∧ Cuts text item.stop := by
  refine outside_of_mem_cutAt hstart hstop (fun place h => ?_) h
  obtain ⟨comma, hcomma, rfl⟩ := List.mem_map.1 h
  obtain ⟨hout, hget, -⟩ := outside_of_mem_topCommas hstart hcomma
  exact ⟨hout, (hout.succ hget (.inl rfl)).1⟩

end ArchGraph.Sql
