import ArchGraph.Proofs.Sql.Bytewise
import ArchGraph.Proofs.Sql.Stripping
import Mathlib.Algebra.Group.Nat.Defs
import Mathlib.Data.List.Chain
import Mathlib.Order.Bounds.Basic
/-!
# Brackets and commas by counting

The search for a closing bracket and the search for commas each carry a depth along the characters
of a script that are code. What they find is said here by counting the brackets in front of a place:
the closing bracket is the first place up to which one more is closed than opened
(`matchingParen?_eq_some_iff`), and a region is cut at the commas in front of which as many are
closed as opened (`topCommas_eq`). Between these cuts lies all of the region (`splits_items`),
whether its brackets are balanced or not. The depth of the first search never drops below one before
its end (`counted?_eq`), so that counting it down cannot fail. The depth of the second one drops
below zero wherever a bracket is closed that was not opened, and is never further from zero than
the region is long, so a counter of 32 bits finds the same commas in any region of fewer than `2 ^ 31`
characters (`topCommas32_code`).
-/

namespace ArchGraph.Sql

open Text (Chars bytesBefore)

/-! ## Counting -/

/-- One for a bracket that is opened. -/
def Lexeme.opens (l : Lexeme) : Nat := if l.char = '(' then 1 else 0

/-- One for a bracket that is closed. -/
def Lexeme.closes (l : Lexeme) : Nat := if l.char = ')' then 1 else 0

/-- How many brackets are opened. -/
def opened (ls : List Lexeme) : Nat := ls.countP (·.char = '(')

/-- How many brackets are closed. -/
def closed (ls : List Lexeme) : Nat := ls.countP (·.char = ')')

/-- The characters in front of a place. -/
def before (ls : List Lexeme) (place : Nat) : List Lexeme := ls.filter (·.offset < place)

/-- Characters one behind the other. -/
def Ordered (ls : List Lexeme) : Prop := ls.Pairwise fun l l' => l.offset < l'.offset

@[simp] theorem opened_nil : opened [] = 0 := rfl

@[simp] theorem closed_nil : closed [] = 0 := rfl

section

variable {l : Lexeme} {ls : List Lexeme} {place : Nat}

theorem opened_cons (l : Lexeme) (ls : List Lexeme) : opened (l :: ls) = opened ls + l.opens := by
  simp only [opened, List.countP_cons, decide_eq_true_eq, Lexeme.opens]

theorem closed_cons (l : Lexeme) (ls : List Lexeme) : closed (l :: ls) = closed ls + l.closes := by
  simp only [closed, List.countP_cons, decide_eq_true_eq, Lexeme.closes]

theorem Lexeme.opens_closes_of_open (h : l.char = '(') : l.opens = 1 ∧ l.closes = 0 := by
  rw [opens, closes, h]
  decide

theorem Lexeme.opens_closes_of_close (h : l.char = ')') : l.opens = 0 ∧ l.closes = 1 := by
  rw [opens, closes, h]
  decide

theorem Lexeme.opens_closes_of_ne (hopen : l.char ≠ '(') (hclose : l.char ≠ ')') :
    l.opens = 0 ∧ l.closes = 0 := ⟨if_neg hopen, if_neg hclose⟩

theorem before_cons (h : l.offset < place) : before (l :: ls) place = l :: before ls place :=
  List.filter_cons_of_pos (by simpa using h)

theorem Ordered.tail (h : Ordered (l :: ls)) : Ordered ls := (List.pairwise_cons.1 h).2

/-- Behind the first character nothing stands up to it. -/
theorem Ordered.before_tail (h : Ordered (l :: ls)) (hplace : place ≤ l.offset + 1) :
    before ls place = [] := by
  refine List.filter_eq_nil_iff.2 fun l' hl' => ?_
  have hlt := (List.pairwise_cons.1 h).1 l' hl'
  simp only [decide_eq_true_eq]
  omega

/-- Nothing stands in front of the first character. -/
theorem Ordered.before_eq_nil (h : Ordered (l :: ls)) (hplace : place ≤ l.offset) :
    before (l :: ls) place = [] := by
  have hrest := h.before_tail (Nat.le_succ_of_le hplace)
  exact (List.filter_cons_of_neg (by simpa using hplace)).trans hrest

theorem ordered_code (text : Chars) : Ordered (code text) :=
  List.Pairwise.sublist List.filter_sublist (pairwise_lexFrom text .code 0)

/-! ## Closing brackets -/

/-- Up to and with a place `depth` brackets more are closed than opened. -/
def Exceeds (ls : List Lexeme) (depth place : Nat) : Prop :=
  closed (before ls (place + 1)) = opened (before ls (place + 1)) + depth

/-- At no place in front of the first character more are closed than opened. -/
theorem Ordered.le_of_exceeds (h : Ordered (l :: ls)) {depth : Nat} (hdepth : 0 < depth)
    (hplace : Exceeds (l :: ls) depth place) : l.offset ≤ place := by
  by_contra hlt
  rw [Exceeds, h.before_eq_nil (by omega), opened_nil, closed_nil] at hplace
  omega

/-- What comes first shifts the depth at which the rest exceeds it. -/
theorem Ordered.exceeds_cons (h : Ordered (l :: ls)) {depth depth' : Nat} (hdepth : 0 < depth)
    (hdepth' : 0 < depth') (hshift : depth' + l.closes = depth + l.opens) :
    Exceeds (l :: ls) depth = Exceeds ls depth' := by
  funext place
  refine propext ?_
  rcases Nat.lt_or_ge place l.offset with hlt | hge
  · have hall := h.before_eq_nil hlt
    have hrest := h.before_tail (Nat.le_succ_of_le hlt)
    rw [Nat.succ_eq_add_one] at hall hrest
    rw [Exceeds, Exceeds, hall, hrest, opened_nil, closed_nil]
    omega
  · have hall : before (l :: ls) (place + 1) = l :: before ls (place + 1) :=
      before_cons (Nat.lt_succ_of_le hge)
    rw [Exceeds, Exceeds, hall, opened_cons, closed_cons]
    omega

/-- The bracket that closes the last open one. -/
theorem Ordered.isLeast_of_close (h : Ordered (l :: ls)) (hclose : l.char = ')') :
    IsLeast {i | Exceeds (l :: ls) 1 i} l.offset := by
  obtain ⟨hopens, hcloses⟩ := l.opens_closes_of_close hclose
  constructor
  · show Exceeds (l :: ls) 1 l.offset
    rw [Exceeds, before_cons (Nat.lt_succ_self _), h.before_tail (Nat.le_refl _), opened_cons,
      closed_cons, hopens, hcloses, opened_nil, closed_nil]
  · exact fun i hi => h.le_of_exceeds Nat.one_pos hi

/-- **The closing bracket.** The first place at which `depth` more are closed than opened. -/
theorem closing?_eq_some_iff : ∀ {ls : List Lexeme} {depth place : Nat}, Ordered ls → 0 < depth →
    (closing? depth ls = some place ↔ IsLeast {i | Exceeds ls depth i} place)
  | [], depth, place, _, hdepth => by
    have hnever : ¬ IsLeast {i | Exceeds [] depth i} place := by
      rintro ⟨hplace, -⟩
      have hplace : 0 = 0 + depth := hplace
      omega
    simp [closing?, hnever]
  | l :: ls, depth, place, h, hdepth => by
    rw [closing?]
    split
    · next hopen =>
      obtain ⟨hopens, hcloses⟩ := l.opens_closes_of_open hopen
      rw [closing?_eq_some_iff h.tail (Nat.succ_pos depth),
        h.exceeds_cons hdepth (Nat.succ_pos depth) (by omega)]
    · next hopen =>
      split
      · next hclose =>
        obtain ⟨hopens, hcloses⟩ := l.opens_closes_of_close hclose
        split
        · obtain rfl : depth = 1 := by omega
          have hleast := h.isLeast_of_close hclose
          rw [Option.some.injEq]
          exact ⟨fun heq => heq ▸ hleast, fun hplace => hleast.unique hplace⟩
        · have hpos : 0 < depth - 1 := by omega
          rw [closing?_eq_some_iff h.tail hpos, h.exceeds_cons hdepth hpos (by omega)]
      · next hclose =>
        obtain ⟨hopens, hcloses⟩ := l.opens_closes_of_ne hopen hclose
        rw [closing?_eq_some_iff h.tail hdepth, h.exceeds_cons hdepth hdepth (by omega)]

end

/-- The characters of a script outside of comments and strings from a place on, where they stand. -/
def codeFrom (text : Chars) (start : Nat) : List Lexeme :=
  (code (text.drop start)).map (·.moved (start + ·))

theorem ordered_codeFrom (text : Chars) (start : Nat) : Ordered (codeFrom text start) :=
  List.pairwise_map.2 ((ordered_code (text.drop start)).imp fun hlt =>
    Nat.add_lt_add_left hlt start)

/-- The bracket that closes the one just before `start`: the first place at which the code from
`start` on has one closed more than opened. -/
theorem matchingParen?_eq_some_iff {text : Chars} {start close : Nat} :
    matchingParen? text start = some close ↔
      IsLeast {i | Exceeds (codeFrom text start) 1 i} close := by
  rw [matchingParen?, ← closing?_map]
  exact closing?_eq_some_iff (ordered_codeFrom text start) Nat.one_pos

/-- The search for a closing bracket with a depth that cannot be counted down from zero. -/
def counted? (depth : Nat) : List Lexeme → Option (Option Nat)
  | [] => some none
  | l :: rest =>
    if l.char = '(' then counted? (depth + 1) rest
    else if l.char = ')' then
      match depth with
      | 0 => none
      | depth + 1 => if depth = 0 then some (some l.offset) else counted? depth rest
    else counted? depth rest

/-- **The depth does not underflow.** From an open bracket on it is never counted down from zero. -/
theorem counted?_eq : ∀ (ls : List Lexeme) (depth : Nat),
    counted? (depth + 1) ls = some (closing? (depth + 1) ls)
  | [], _ => rfl
  | l :: ls, depth => by
    rw [counted?, closing?]
    split
    · exact counted?_eq ls (depth + 1)
    · split
      · cases depth with
        | zero => rfl
        | succ depth => exact counted?_eq ls depth
      · exact counted?_eq ls depth

/-! ## Commas -/

/-- A comma in front of which as many brackets are closed as opened, with `depth` opened ones
counted beforehand. -/
def Separates (ls : List Lexeme) (depth : Int) (l : Lexeme) : Prop :=
  l.char = ',' ∧ depth + opened (before ls l.offset) = closed (before ls l.offset)

instance (ls : List Lexeme) (depth : Int) (l : Lexeme) : Decidable (Separates ls depth l) :=
  inferInstanceAs (Decidable (_ ∧ _))

section

variable {l : Lexeme} {ls : List Lexeme}

/-- The first character separates if it is a comma and no bracket is open. -/
theorem Ordered.separates_head_iff (h : Ordered (l :: ls)) (depth : Int) :
    Separates (l :: ls) depth l ↔ l.char = ',' ∧ depth = 0 := by
  rw [Separates, h.before_eq_nil (Nat.le_refl _), opened_nil, closed_nil]
  simp

/-- What comes first shifts the depth at which the rest is separated. -/
theorem Ordered.filter_separates (h : Ordered (l :: ls)) {depth depth' : Int}
    (hshift : depth' + l.closes = depth + l.opens) :
    ls.filter (Separates (l :: ls) depth ·) = ls.filter (Separates ls depth' ·) := by
  refine List.filter_congr fun l' hl' => decide_eq_decide.2 (and_congr_right fun _ => ?_)
  rw [before_cons ((List.pairwise_cons.1 h).1 l' hl'), opened_cons, closed_cons]
  omega

/-- **The commas outside of brackets.** -/
theorem topCommas_eq : ∀ {ls : List Lexeme} (depth : Int), Ordered ls →
    topCommas depth ls = (ls.filter (Separates ls depth ·)).map (·.offset)
  | [], _, _ => rfl
  | l :: ls, depth, h => by
    have hhead := h.separates_head_iff depth
    have skip {depth' : Int} (hnot : ¬ (l.char = ',' ∧ depth = 0))
        (hshift : depth' + l.closes = depth + l.opens) :
        topCommas depth' ls =
          ((l :: ls).filter (Separates (l :: ls) depth ·)).map (·.offset) := by
      rw [List.filter_cons_of_neg (by simpa [hhead] using hnot), h.filter_separates hshift]
      exact topCommas_eq depth' h.tail
    rw [topCommas]
    split
    · next hopen =>
      obtain ⟨hopens, hcloses⟩ := l.opens_closes_of_open hopen
      exact skip (fun hcomma => absurd (hopen.symm.trans hcomma.1) (by decide)) (by omega)
    · next hopen =>
      split
      · next hclose =>
        obtain ⟨hopens, hcloses⟩ := l.opens_closes_of_close hclose
        exact skip (fun hcomma => absurd (hclose.symm.trans hcomma.1) (by decide)) (by omega)
      · next hclose =>
        obtain ⟨hopens, hcloses⟩ := l.opens_closes_of_ne hopen hclose
        split
        · next hcomma =>
          have hshift : depth + l.closes = depth + l.opens := by omega
          rw [List.filter_cons_of_pos (by simpa [hhead] using hcomma), List.map_cons,
            h.filter_separates hshift, topCommas_eq depth h.tail]
        · next hcomma => exact skip hcomma (by omega)

end

/-- The commas outside of brackets, with a depth of 32 bits. -/
def topCommas32 (depth : Int32) : List Lexeme → List Nat
  | [] => []
  | l :: rest =>
    if l.char = '(' then topCommas32 (depth + 1) rest
    else if l.char = ')' then topCommas32 (depth - 1) rest
    else if l.char = ',' ∧ depth = 0 then l.offset :: topCommas32 depth rest
    else topCommas32 depth rest

/-- A depth of 32 bits is enough for fewer than `2 ^ 31` characters. -/
theorem topCommas32_ofInt : ∀ {ls : List Lexeme} {depth : Int},
    depth.natAbs + ls.length < 2 ^ 31 → topCommas32 (Int32.ofInt depth) ls = topCommas depth ls
  | [], _, _ => rfl
  | l :: ls, depth, h => by
    rw [List.length_cons] at h
    have hopen : topCommas32 (Int32.ofInt (depth + 1)) ls = topCommas (depth + 1) ls :=
      topCommas32_ofInt (by omega)
    have hclose : topCommas32 (Int32.ofInt (depth - 1)) ls = topCommas (depth - 1) ls :=
      topCommas32_ofInt (by omega)
    have hother : topCommas32 (Int32.ofInt depth) ls = topCommas depth ls :=
      topCommas32_ofInt (by omega)
    have hint : (Int32.ofInt depth).toInt = depth :=
      Int32.toInt_ofInt_of_le (by omega) (by omega)
    have hzero : Int32.ofInt depth = 0 ↔ depth = 0 := by
      rw [← Int32.toInt_inj, hint]
      rfl
    rw [Int32.ofInt_add] at hopen
    rw [Int32.ofInt_sub] at hclose
    rw [topCommas32, topCommas, ← hopen, ← hclose, ← hother]
    simp only [hzero]
    rfl

/-- The commas of a text of fewer than `2 ^ 31` characters, with a depth of 32 bits. -/
theorem topCommas32_code {text : Chars} (h : text.length < 2 ^ 31) :
    topCommas32 0 (code text) = topCommas 0 (code text) := by
  have hcode : (code text).length ≤ text.length :=
    Nat.le_trans (List.length_filter_le _ _) (length_lexFrom_le text .code 0)
  have hsmall : (0 : Int).natAbs + (code text).length < 2 ^ 31 := by omega
  exact topCommas32_ofInt hsmall

/-- The same commas, in bytes. -/
theorem Bytewise.topCommas32_code {text : Chars} (h : text.length < 2 ^ 31) :
    topCommas32 0 (Bytewise.code text) = topCommas 0 (Bytewise.code text) := by
  have hcode : (Bytewise.code text).length ≤ text.length := by
    rw [Bytewise.code_eq, List.length_map]
    exact Nat.le_trans (List.length_filter_le _ _) (length_lexFrom_le text .code 0)
  have hsmall : (0 : Int).natAbs + (Bytewise.code text).length < 2 ^ 31 := by omega
  exact topCommas32_ofInt hsmall

/-! ## Items -/

/-- The parts of a region between its commas outside of brackets. -/
structure Splits (text : Chars) (r : Region) (parts : List Region) : Prop where
  joined    : [','].intercalate (parts.map (·.chars text)) = r.chars text
  first     : parts.head?.map (·.start) = some r.start
  last      : parts.getLast?.map (·.stop) = some r.stop
  within    : ∀ part ∈ parts, r.start ≤ part.start ∧ part.start ≤ part.stop ∧ part.stop ≤ r.stop
  delimits  : ∀ part ∈ parts,
    Region.chars ⟨part.start - r.start, part.stop - r.start⟩ (r.chars text) = part.chars text
  separated : parts.IsChain fun part next =>
    text[part.stop]? = some ',' ∧ next.start = part.stop + 1
  cuts      : parts.dropLast.map (·.stop) =
    ((code (r.chars text)).filter (Separates (code (r.chars text)) 0 ·)).map (r.start + ·.offset)

section

variable {text : Chars} {start stop : Nat} {places : List Nat}

/-- Places of commas inside of a part, one behind the other. -/
structure Commas (text : Chars) (start stop : Nat) (places : List Nat) : Prop where
  inside  : ∀ place ∈ places, start ≤ place ∧ place < stop ∧ text[place]? = some ','
  ordered : places.Pairwise (· < ·)

theorem Commas.tail {place : Nat} (h : Commas text start stop (place :: places)) :
    Commas text (place + 1) stop places where
  inside next hnext := by
    have hinside := h.inside next (List.mem_cons_of_mem _ hnext)
    exact ⟨(List.pairwise_cons.1 h.ordered).1 next hnext, hinside.2⟩
  ordered := (List.pairwise_cons.1 h.ordered).2

theorem cutAt_ne_nil (start stop : Nat) (places : List Nat) : cutAt start stop places ≠ [] := by
  cases places <;> exact List.cons_ne_nil _ _

theorem head?_cutAt (start stop : Nat) (places : List Nat) :
    (cutAt start stop places).head?.map (·.start) = some start := by
  cases places <;> rfl

theorem getLast?_cutAt : ∀ (start stop : Nat) (places : List Nat),
    (cutAt start stop places).getLast?.map (·.stop) = some stop
  | _, _, [] => rfl
  | _, stop, place :: places => by
    rw [cutAt, List.getLast?_cons_of_ne_nil (cutAt_ne_nil _ _ _)]
    exact getLast?_cutAt (place + 1) stop places

theorem stops_cutAt : ∀ (start stop : Nat) (places : List Nat),
    (cutAt start stop places).dropLast.map (·.stop) = places
  | _, _, [] => rfl
  | _, stop, place :: places => by
    rw [cutAt, List.dropLast_cons_of_ne_nil (cutAt_ne_nil _ _ _), List.map_cons,
      stops_cutAt (place + 1) stop places]

theorem bounds_of_mem_cutAt : ∀ {places : List Nat} {start : Nat}, Commas text start stop places →
    start ≤ stop → ∀ part ∈ cutAt start stop places,
      start ≤ part.start ∧ part.start ≤ part.stop ∧ part.stop ≤ stop
  | [], start, _, hle, part, hpart => by
    obtain rfl := List.mem_singleton.1 hpart
    exact ⟨Nat.le_refl _, hle, Nat.le_refl _⟩
  | place :: places, start, h, hle, part, hpart => by
    obtain ⟨hstart, hlt, -⟩ := h.inside place List.mem_cons_self
    rcases List.mem_cons.1 hpart with rfl | hpart
    · exact ⟨Nat.le_refl _, hstart, Nat.le_of_lt hlt⟩
    · have ih := bounds_of_mem_cutAt h.tail hlt part hpart
      exact ⟨by omega, ih.2⟩

theorem isChain_cutAt : ∀ {places : List Nat} {start : Nat}, Commas text start stop places →
    (cutAt start stop places).IsChain fun part next =>
      text[part.stop]? = some ',' ∧ next.start = part.stop + 1
  | [], _, _ => .singleton _
  | place :: places, start, h => by
    refine List.isChain_cons.2 ⟨fun next hnext => ?_, isChain_cutAt h.tail⟩
    have hhead := head?_cutAt (place + 1) stop places
    rw [Option.mem_def.1 hnext] at hhead
    exact ⟨(h.inside place List.mem_cons_self).2.2, Option.some.inj hhead⟩

/-- A part is what stands in front of a comma in it, the comma, and what stands behind. -/
theorem Region.chars_comma {place : Nat} (hstart : start ≤ place) (hlt : place < stop)
    (hget : text[place]? = some ',') : Region.chars ⟨start, stop⟩ text =
      Region.chars ⟨start, place⟩ text ++ ',' :: Region.chars ⟨place + 1, stop⟩ text := by
  have htake : text.take place = (text.take stop).take place := by
    rw [List.take_take, Nat.min_eq_left (Nat.le_of_lt hlt)]
  have hget : (text.take stop)[place]? = some ',' := by rw [List.getElem?_take, if_pos hlt, hget]
  obtain ⟨hlength, hcomma⟩ := List.getElem?_eq_some_iff.1 hget
  have hfront : start ≤ ((text.take stop).take place).length := by
    rw [List.length_take]
    omega
  unfold Region.chars
  rw [htake, ← hcomma, ← List.drop_eq_getElem_cons hlength,
    ← List.drop_append_of_le_length hfront, List.take_append_drop]

/-- **The parts joined with commas.** -/
theorem intercalate_cutAt : ∀ {places : List Nat} {start : Nat}, Commas text start stop places →
    [','].intercalate ((cutAt start stop places).map (·.chars text)) =
      Region.chars ⟨start, stop⟩ text
  | [], _, _ => List.intercalate_singleton
  | place :: places, start, h => by
    obtain ⟨hstart, hlt, hget⟩ := h.inside place List.mem_cons_self
    have ih := intercalate_cutAt h.tail
    rw [cutAt, Region.chars_comma hstart hlt hget, ← ih, List.map_cons]
    obtain ⟨part, parts, hparts⟩ := List.exists_cons_of_ne_nil (cutAt_ne_nil (place + 1) stop places)
    rw [hparts, List.map_cons, List.intercalate_cons_cons, List.append_assoc, List.singleton_append]

end

/-- The commas at which a region is cut stand in it. -/
theorem commas_topCommas (text : Chars) (r : Region) :
    Commas text r.start r.stop ((topCommas 0 (code (r.chars text))).map (r.start + ·)) where
  inside place hplace := by
    obtain ⟨comma, hcomma, rfl⟩ := List.mem_map.1 hplace
    obtain ⟨l, hl, hchar, rfl⟩ := exists_of_mem_topCommas hcomma
    have hget := (outside_of_mem_code hl (by rw [hchar]; decide)).1
    rw [Region.chars, List.getElem?_drop, List.getElem?_take, hchar] at hget
    split at hget
    · next hlt => exact ⟨Nat.le_add_right _ _, hlt, hget⟩
    · cases hget
  ordered := List.pairwise_map.2 ((Bytewise.pairwise_topCommas (r.chars text)).imp fun hlt =>
    Nat.add_lt_add_left hlt r.start)

/-- **Items.** A region is cut into parts that lie in it one behind the other, a comma between two
of them, so that joined with commas they are the region; the cuts are the commas of its code in
front of which as many brackets are closed as opened. -/
theorem splits_items (text : Chars) {r : Region} (h : r.start ≤ r.stop) :
    Splits text r (items text r) where
  joined := intercalate_cutAt (commas_topCommas text r)
  first := head?_cutAt _ _ _
  last := getLast?_cutAt _ _ _
  within := bounds_of_mem_cutAt (commas_topCommas text r) h
  delimits part hpart := by
    obtain ⟨hstart, hordered, hstop⟩ := bounds_of_mem_cutAt (commas_topCommas text r) h part hpart
    rw [Region.chars_chars (by simp only; omega), Nat.add_sub_cancel' hstart,
      Nat.add_sub_cancel' (Nat.le_trans hstart hordered)]
  separated := isChain_cutAt (commas_topCommas text r)
  cuts := by
    rw [items, stops_cutAt, topCommas_eq 0 (ordered_code _), List.map_map]
    rfl

/-- **Brackets are matched and items are split by counting.** From any place of any script on, a
closing bracket is found exactly at the first place up to which the code has one closed more than
opened, and the search never counts its depth down from zero. Any region is split at the commas of
its code outside of brackets, and at nothing else, into parts that give it back. Both are found at
the same places when the script is read byte by byte, and the commas also with a depth of 32 bits, as
long as the region has fewer than `2 ^ 31` characters. -/
theorem matchingParen_and_items_by_counting (text : Chars) (start : Nat) :
    (∀ close, matchingParen? text start = some close ↔
      IsLeast {i | Exceeds (codeFrom text start) 1 i} close) ∧
    (counted? 1 (code (text.drop start))).map (Option.map (start + ·)) =
      some (matchingParen? text start) ∧
    Bytewise.matchingParen? text (bytesBefore text start) =
      some ((matchingParen? text start).map (bytesBefore text)) ∧
    ∀ length, Splits text ⟨start, start + length⟩ (items text ⟨start, start + length⟩) ∧
      Bytewise.items? text (Region.moved (bytesBefore text) ⟨start, start + length⟩) =
        some ((items text ⟨start, start + length⟩).map (Bytewise.cutOut text)) ∧
      (length < 2 ^ 31 → topCommas32 0 (code (Region.chars ⟨start, start + length⟩ text)) =
        topCommas 0 (code (Region.chars ⟨start, start + length⟩ text))) := by
  refine ⟨fun _ => matchingParen?_eq_some_iff, ?_, Bytewise.matchingParen?_eq text start,
    fun length => ?_⟩
  · rw [counted?_eq]
    rfl
  · have hle : start ≤ start + length := Nat.le_add_right start length
    refine ⟨splits_items text hle, Bytewise.items?_eq text hle, fun hlength => ?_⟩
    have hchars : (Region.chars ⟨start, start + length⟩ text).length ≤ length := by
      rw [Region.chars, List.length_drop, List.length_take]
      simp only
      omega
    exact topCommas32_code (Nat.lt_of_le_of_lt hchars hlength)

/-- Brackets and commas in comments and strings do not count, and a bracket that is closed without
having been opened keeps the commas behind it from separating. -/
example : items "a (1, 2), ',' /*,*/ , b), c".toList ⟨0, 27⟩ = [⟨0, 8⟩, ⟨9, 20⟩, ⟨21, 27⟩] := by
  decide

end ArchGraph.Sql
