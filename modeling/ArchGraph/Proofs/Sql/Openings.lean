import ArchGraph.Proofs.Sql.Places
import ArchGraph.Proofs.Sql.Reading
import ArchGraph.Proofs.Sql.Stripping
/-!
# Where the declarations of foreign keys start

Definitions and alterations are cut at commas. A part of a definition starts right behind its opening
bracket or right behind a comma, white space and all; the first part of an alteration starts at its
first word (`SetOff`). The foreign keys of a table keep the part that declares each of them, and
such a part holds something else than white space (`declares_of_mem_foreignKeys`).
-/

namespace ArchGraph.Sql

open Pattern
open Text (Chars isBlank trim words)

/-! ## Blank parts -/

/-- A part that is nothing but white space is read as it stands. -/
theorem plain_of_blank {text : Chars} (h : ∀ c ∈ text, isBlank c = true) : Plain .code text := by
  induction text with
  | nil => rfl
  | cons c text ih =>
    obtain ⟨hc, htext⟩ := List.forall_mem_cons.1 h
    obtain ⟨hquote, hdash, hslash, -⟩ := ne_of_isBlank hc
    apply plain_cons.2
    simp [Mode.read?, Mode.after, hquote, hdash, hslash, ih htext]

/-- Nothing is left of a part that is nothing but white space. -/
theorem stripComments_of_trim_eq_nil {text : Chars} (h : trim text = []) :
    stripComments text = [] := by
  obtain ⟨front, back, hsplit, hfront, hback⟩ := Text.exists_trim text
  have hblank : ∀ c ∈ text, isBlank c = true := by
    intro c hc
    rw [hsplit, h, List.append_nil] at hc
    exact (List.mem_append.1 hc).elim (hfront c) (hback c)
  calc stripComments text = trim text := congrArg trim (plain_of_blank hblank)
    _ = [] := h

/-! ## Where parts start -/

/-- No white space stands at a place, or the place is right behind a bracket or a comma. -/
def SetOff (text : Chars) (place : Nat) : Prop :=
  (∀ c ∈ text[place]?, isBlank c = false) ∨
    0 < place ∧ (text[place - 1]? = some '(' ∨ text[place - 1]? = some ',')

theorem start_of_mem_cutAt {places : List Nat} {stop : Nat} {r : Region} : ∀ {start : Nat},
    r ∈ cutAt start stop places → r.start = start ∨ ∃ place ∈ places, r.start = place + 1 := by
  induction places with
  | nil =>
    intro start h
    rw [cutAt, List.mem_singleton] at h
    exact .inl (h ▸ rfl)
  | cons place places ih =>
    intro start h
    rcases List.mem_cons.1 h with rfl | h
    · exact .inl rfl
    · rcases ih h with hstart | ⟨place', hplace, hstart⟩
      · exact .inr ⟨place, List.mem_cons_self, hstart⟩
      · exact .inr ⟨place', List.mem_cons_of_mem _ hplace, hstart⟩

/-- The parts between commas are set off if the first one is. -/
theorem setOff_of_mem_items {text : Chars} {r item : Region} (hr : SetOff text r.start)
    (h : item ∈ items text r) : SetOff text item.start := by
  rcases start_of_mem_cutAt h with hstart | ⟨place, hplace, hstart⟩
  · rwa [hstart]
  · obtain ⟨offset, hoffset, rfl⟩ := List.mem_map.1 hplace
    obtain ⟨l, hl, hchar, rfl⟩ := exists_of_mem_topCommas hoffset
    have hget := (outside_of_mem_code hl (by rw [hchar]; decide)).1
    rw [Region.chars, List.getElem?_drop, List.getElem?_take, hchar] at hget
    split at hget
    · rw [hstart]
      exact .inr ⟨Nat.succ_pos _, .inr hget⟩
    · cases hget

/-- A definition starts behind the bracket of its head. -/
theorem setOff_of_createTable {text : Chars} {m : Match} (h : m ∈ createTable.all text) :
    SetOff text m.stop := by
  obtain ⟨front, rest, htext, hmatch⟩ := exists_of_mem_allFrom h
  unfold matchAt? createTable at hmatch
  rw [run_seq] at hmatch
  obtain ⟨head, rest', more, hrest, -, hmatch⟩ := exists_run _ hmatch
  obtain ⟨c, back, hback, hc, hm⟩ := run_one hmatch
  obtain rfl : c = '(' := beq_iff_eq.1 hc
  have hrest : rest = head ++ rest' := hrest
  have hback : rest' = '(' :: back := hback
  have hstop : m.stop = (front ++ head).length + 1 := by
    rw [← Option.some.inj hm]
    simp [Match.stop, Cursor.behind]
  rw [hstop]
  refine .inr ⟨Nat.succ_pos _, .inl ?_⟩
  rw [htext, hrest, hback]
  simp

/-- An alteration starts at its first clause. -/
theorem setOff_of_alterTable {text : Chars} {m : Match} (h : m ∈ alterTable.all text) :
    SetOff text m.stop := by
  obtain ⟨front, rest, htext, hmatch⟩ := exists_of_mem_allFrom h
  unfold matchAt? alterTable at hmatch
  rw [run_seq] at hmatch
  obtain ⟨head, rest', more, hrest, -, hmatch⟩ := exists_run _ hmatch
  obtain ⟨blanks, back, hback, -, hnext, hm⟩ := run_many_of_total (fun _ _ => rfl) hmatch
  have hrest : rest = head ++ rest' := hrest
  have hback : rest' = blanks ++ back := hback
  have hstop : m.stop = (front ++ head ++ blanks).length := by
    rw [← Option.some.inj hm]
    simp [Match.stop, Cursor.behind, Nat.add_assoc]
  have htext : text = front ++ head ++ blanks ++ back := by
    rw [htext, hrest, hback]
    simp
  have hplace : text[m.stop]? = back.head? := by
    rw [hstop, htext, List.getElem?_append_right (Nat.le_refl _), Nat.sub_self,
      List.head?_eq_getElem?]
  left
  intro c hc
  rw [hplace] at hc
  rw [Option.mem_def.1 hc] at hnext
  simpa using hnext

/-! ## Parts that declare foreign keys -/

/-- A part of a script that declares something: it is set off, and holds something else than white
space. -/
structure Declares (text : Chars) (r : Region) : Prop where
  start : SetOff text r.start
  solid : trim (r.chars text) ≠ []

/-- What holds of every part that declares a foreign key of a table. -/
def AllKeys (P : Region → Prop) (body : TableBody) : Prop := ∀ key ∈ body.foreignKeys, P key.2

/-- The foreign keys of a table are declared. -/
def AllDeclared (text : Chars) (body : TableBody) : Prop :=
  ∀ key ∈ body.foreignKeys, Declares text key.2

section

variable {P : Region → Prop} {body : TableBody} {region : Region}

theorem allKeys_foldl {α : Type} {step : TableBody → α → TableBody} {as : List α}
    (hstep : ∀ body, AllKeys P body → ∀ a ∈ as, AllKeys P (step body a)) (h : AllKeys P body) :
    AllKeys P (as.foldl step body) :=
  List.foldlRecOn as step (motive := AllKeys P) h hstep

theorem allKeys_append {columns : List Column} {name : String} (h : AllKeys P body)
    (hregion : P region) : AllKeys P ⟨columns, body.foreignKeys ++ [(name, region)]⟩ := by
  intro key hkey
  rcases List.mem_append.1 hkey with hkey | hkey
  · exact h key hkey
  · rw [List.mem_singleton.1 hkey]
    exact hregion

theorem allKeys_markForeign {reference : ColumnReference} (hregion : P region)
    (h : AllKeys P body) (name : String) :
    AllKeys P (TableBody.markForeign reference region body name) := by
  unfold TableBody.markForeign
  split
  · exact allKeys_append h hregion
  · exact h

theorem allKeys_constrain {item : Chars} (hregion : P region) (h : AllKeys P body) :
    AllKeys P (body.constrain item region) := by
  apply TableBody.constrain_induction _ _ h
  · intro body name hbody
    exact hbody
  · intro m _ body name hbody
    exact allKeys_markForeign hregion hbody name

theorem allKeys_addColumn {c : Column} (hregion : P region) (h : AllKeys P body) :
    AllKeys P (body.addColumn c region) := by
  unfold TableBody.addColumn
  split
  · exact allKeys_append h hregion
  · exact h

variable {text : Chars}

theorem allKeys_addItem (hregion : P region) (h : AllKeys P body) :
    AllKeys P (body.addItem text region) := by
  unfold TableBody.addItem
  dsimp only
  split
  · exact h
  · split
    · exact allKeys_constrain hregion h
    · split
      · exact allKeys_addColumn hregion h
      · exact h

theorem allKeys_addClause (hregion : P region) (h : AllKeys P body) :
    AllKeys P (addClause text body region) := by
  unfold addClause
  dsimp only
  split
  · split
    · exact h
    · exact allKeys_addColumn hregion h
  · exact h

theorem allKeys_ofRegion {r : Region} (hitems : ∀ item ∈ items text r, P item) :
    AllKeys P (TableBody.ofRegion text r) := by
  unfold TableBody.ofRegion
  apply allKeys_foldl
  · intro body hbody item hitem
    exact allKeys_addItem (hitems item hitem) hbody
  · intro key hkey
    cases hkey

/-- A part of a definition declares the foreign keys that it adds. -/
theorem allDeclared_addItem (hstart : SetOff text region.start) (h : AllDeclared text body) :
    AllDeclared text (body.addItem text region) := by
  by_cases hblank : trim (region.chars text) = []
  · have hnone : words (stripComments (region.chars text)) = [] := by
      rw [stripComments_of_trim_eq_nil hblank]
      rfl
    unfold TableBody.addItem
    simp only [hnone]
    exact h
  · exact allKeys_addItem ⟨hstart, hblank⟩ h

/-- A clause of an alteration declares the foreign keys that it adds. -/
theorem allDeclared_addClause (hstart : SetOff text region.start) (h : AllDeclared text body) :
    AllDeclared text (addClause text body region) := by
  by_cases hblank : trim (region.chars text) = []
  · have hnone : addColumnClause.first? [] = none := by decide
    unfold addClause
    simp only [stripComments_of_trim_eq_nil hblank, hnone, Option.bind_none]
    exact h
  · exact allKeys_addClause ⟨hstart, hblank⟩ h

theorem allDeclared_ofRegion {r : Region} (hr : SetOff text r.start) :
    AllDeclared text (TableBody.ofRegion text r) := by
  unfold TableBody.ofRegion
  apply allKeys_foldl (P := Declares text)
  · intro body hbody item hitem
    exact allDeclared_addItem (setOff_of_mem_items hr hitem) hbody
  · intro key hkey
    cases hkey

end

/-! ## Schemas -/

/-- **The parts that declare foreign keys.** -/
theorem declares_of_mem_foreignKeys {text : Chars} : ∀ t ∈ (Schema.ofScript text).tables,
    AllDeclared text t.body := by
  apply Schema.forall_mem_tables
  · intro m hm close _
    exact allDeclared_ofRegion (setOff_of_createTable hm)
  · intro m hm t ht
    apply allKeys_foldl (P := Declares text) _ ht
    intro body hbody clause hclause
    exact allDeclared_addClause (setOff_of_mem_items (setOff_of_alterTable hm) hclause) hbody

end ArchGraph.Sql
