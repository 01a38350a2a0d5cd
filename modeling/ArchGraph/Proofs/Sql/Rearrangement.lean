import ArchGraph.Proofs.Sql.Constraints
/-!
# Where the keys of a table stand

A table's definition is read once from its first item to its last. A primary or foreign key of the
whole table marks the first column of each name that it lists, among the columns in front of it; of
several foreign keys behind a column the last one counts. So the columns of a table are those that
its items add, each first of its name with the marks of the keys behind it (`columns_ofRegion`), and
moving constraints among the items changes nothing exactly if each column has the same marks behind
it (`rearranged_columns_iff`); it is enough that the keys stay behind the columns that they list and
that the foreign keys of a column stay in order. `key_in_front_lost` is a primary key in front of
its column.
-/

namespace ArchGraph.Sql

open Text (Chars words)

/-! ## Items -/

/-- Whether an item is read as a constraint of the whole table. -/
def isConstraint (item : Chars) : Bool :=
  (words item).head?.any fun first => constraintWords.contains (lowerWord first)

/-- The column that an item adds. -/
def added? (item : Chars) : Option Column :=
  if isConstraint item || (words item).isEmpty then none else column? item

/-- The columns that an item lists as parts of the primary key. -/
def primaryNames (item : Chars) : List String :=
  if isConstraint item then
    ((Pattern.tablePrimaryKey.first? item).map fun m => columnNames (m.text 1).toList).getD []
  else []

/-- The columns that an item lists as parts of a foreign key. -/
def foreignNames (item : Chars) : List String :=
  if isConstraint item && (Pattern.references.first? item).isSome then
    ((Pattern.tableForeignKey.first? item).map fun m => columnNames (m.text 1).toList).getD []
  else []

/-- What a column refers to by an item that lists it as a part of a foreign key. -/
def foreignReference? (name : String) (item : Chars) : Option ColumnReference :=
  if name ∈ foreignNames item then (Pattern.references.first? item).map referenceOf else none

/-- The texts of the items of a table's definition. -/
def itemTexts (text : Chars) (r : Region) : List Chars :=
  (items text r).map fun item => stripComments (item.chars text)

/-- The same items, of which only constraints stand elsewhere. -/
structure Rearranged (before after : List Chars) : Prop where
  perm    : before.Perm after
  columns : before.filter (!isConstraint ·) = after.filter (!isConstraint ·)

/-! ## Marking the first column of each name -/

/-- Changes the first column of each name but those that were seen. -/
def markFirsts (mark : Column → Column) (seen : List String) : List Column → List Column
  | [] => []
  | c :: columns =>
    (if c.name ∈ seen then c else mark c) :: markFirsts mark (seen ++ [c.name]) columns

section

variable {mark mark' : Column → Column} {seen : List String}

theorem markFirsts_append (columns columns' : List Column) :
    markFirsts mark seen (columns ++ columns') =
      markFirsts mark seen columns ++ markFirsts mark (seen ++ columns.map (·.name)) columns' := by
  induction columns generalizing seen with
  | nil => simp [markFirsts]
  | cons c columns ih => simp [markFirsts, ih]

/-- Marks agree if they agree on the first column of each name. -/
theorem markFirsts_eq_iff {columns : List Column} :
    markFirsts mark seen columns = markFirsts mark' seen columns ↔
      ∀ c, c.name ∉ seen → columns.find? (·.name = c.name) = some c → mark c = mark' c := by
  induction columns generalizing seen with
  | nil => simp [markFirsts]
  | cons d columns ih =>
    rw [markFirsts, markFirsts, List.cons.injEq, ih]
    constructor
    · rintro ⟨hhead, htail⟩ c hseen hfind
      rw [List.find?_cons] at hfind
      split at hfind
      · obtain rfl := Option.some.inj hfind
        rwa [if_neg hseen, if_neg hseen] at hhead
      · next hname =>
        refine htail c ?_ hfind
        have hother : c.name ≠ d.name := fun h => by simp [h] at hname
        simp [hseen, hother]
    · intro h
      constructor
      · split
        · rfl
        · next hseen => exact h d hseen (by simp)
      · intro c hseen hfind
        simp only [List.mem_append, List.mem_singleton, not_or] at hseen
        refine h c hseen.1 ?_
        rw [List.find?_cons_of_neg, hfind]
        simpa using Ne.symm hseen.2

theorem markFirsts_eq_self {columns : List Column}
    (h : ∀ c ∈ columns, c.name ∉ seen → mark c = c) : markFirsts mark seen columns = columns := by
  induction columns generalizing seen with
  | nil => rfl
  | cons d columns ih =>
    rw [markFirsts, ih]
    · split
      · rfl
      · next hseen => rw [h d List.mem_cons_self hseen]
    · intro c hc hseen
      simp only [List.mem_append, not_or] at hseen
      exact h c (List.mem_cons_of_mem d hc) hseen.1

/-- Marking twice is marking with both marks. -/
theorem markFirsts_markFirsts (hname : ∀ c, (mark c).name = c.name) (columns : List Column) :
    markFirsts mark' seen (markFirsts mark seen columns) =
      markFirsts (fun c => mark' (mark c)) seen columns := by
  induction columns generalizing seen with
  | nil => rfl
  | cons d columns ih =>
    by_cases hseen : d.name ∈ seen
    · simp [markFirsts, hseen, ih]
    · simp [markFirsts, hseen, hname, ih]

/-- Changing the first column with a name. -/
theorem updateColumn_eq {change : Column → Column} {name : String} (hname : name ∉ seen)
    (columns : List Column) : TableBody.updateColumn change name columns =
      markFirsts (fun c => if c.name = name then change c else c) seen columns := by
  induction columns generalizing seen with
  | nil => rfl
  | cons d columns ih =>
    rw [TableBody.updateColumn, markFirsts]
    split
    · next hd =>
      rw [hd, if_neg hname, markFirsts_eq_self]
      intro c _ hseen
      rw [if_neg]
      rintro rfl
      simp at hseen
    · next hd => rw [ite_self, ← ih (by simpa [hname] using Ne.symm hd)]

/-- Changing the first column with each of several names. -/
theorem columns_foldl_update {step : TableBody → String → TableBody} {change : Column → Column}
    (hstep : ∀ body name, (step body name).columns =
      TableBody.updateColumn change name body.columns)
    (hname : ∀ c, (change c).name = c.name) (htwice : ∀ c, change (change c) = change c)
    (names : List String) (body : TableBody) : (names.foldl step body).columns =
      markFirsts (fun c => if c.name ∈ names then change c else c) [] body.columns := by
  induction names generalizing body with
  | nil => exact (markFirsts_eq_self fun _ _ _ => rfl).symm
  | cons name names ih =>
    have hkeeps : ∀ c : Column, (if c.name = name then change c else c).name = c.name := by
      intro c
      split
      · exact hname c
      · rfl
    rw [List.foldl_cons, ih, hstep, updateColumn_eq List.not_mem_nil, markFirsts_markFirsts hkeeps]
    congr 1
    funext c
    by_cases hc : c.name = name
    · by_cases hmore : name ∈ names
      · simp [hc, hname, hmore, htwice]
      · simp [hc, hname, hmore]
    · simp [hc]

end

/-! ## What an item does -/

/-- A column with the mark of an item that lists it as a part of the primary key. -/
def primaryMarked (item : Chars) (c : Column) : Column :=
  if c.name ∈ primaryNames item then { c with primaryKey := true, nullable := false } else c

/-- A column with the mark of an item that lists it as a part of a foreign key. -/
def foreignMarked (item : Chars) (c : Column) : Column :=
  match foreignReference? c.name item with
  | some reference => { c with foreignKey := true, references := some reference }
  | none => c

/-- A column with the marks of an item. -/
def keyed (item : Chars) (c : Column) : Column := foreignMarked item (primaryMarked item c)

@[simp] theorem name_primaryMarked (item : Chars) (c : Column) :
    (primaryMarked item c).name = c.name := by
  unfold primaryMarked
  split <;> rfl

@[simp] theorem name_foreignMarked (item : Chars) (c : Column) :
    (foreignMarked item c).name = c.name := by
  unfold foreignMarked
  split <;> rfl

@[simp] theorem name_keyed (item : Chars) (c : Column) : (keyed item c).name = c.name := by
  simp [keyed]

/-- What a key of an item changes about a column. -/
theorem keyed_eq (item : Chars) (c : Column) : keyed item c =
    { c with
      nullable := c.nullable && !decide (c.name ∈ primaryNames item)
      primaryKey := c.primaryKey || decide (c.name ∈ primaryNames item)
      foreignKey := c.foreignKey || (foreignReference? c.name item).isSome
      references := (foreignReference? c.name item).or c.references } := by
  unfold keyed foreignMarked
  rw [name_primaryMarked]
  unfold primaryMarked
  cases foreignReference? c.name item with
  | none => by_cases hc : c.name ∈ primaryNames item <;> simp [hc]
  | some reference => by_cases hc : c.name ∈ primaryNames item <;> simp [hc]

theorem columns_markPrimary (body : TableBody) (name : String) :
    (body.markPrimary name).columns =
      TableBody.updateColumn (fun c => { c with primaryKey := true, nullable := false }) name
        body.columns := rfl

theorem columns_markForeign (reference : ColumnReference) (region : Region) (body : TableBody)
    (name : String) : (TableBody.markForeign reference region body name).columns =
      TableBody.updateColumn (fun c => { c with foreignKey := true, references := some reference })
        name body.columns := by
  unfold TableBody.markForeign
  split
  · rfl
  · next hnone =>
    -- without a column of that name nothing is changed
    rw [updateColumn_eq List.not_mem_nil, markFirsts_eq_self]
    intro c hc _
    rw [if_neg]
    rintro rfl
    simp only [TableBody.hasColumn, List.any_eq_true, beq_iff_eq, not_exists, not_and] at hnone
    exact hnone c hc rfl

theorem columns_primary {item : Chars} (h : isConstraint item = true) (body : TableBody) :
    (match Pattern.tablePrimaryKey.first? item with
      | some m => (columnNames (m.text 1).toList).foldl TableBody.markPrimary body
      | none => body).columns = markFirsts (primaryMarked item) [] body.columns := by
  cases hkey : Pattern.tablePrimaryKey.first? item with
  | none =>
    have hnames : primaryNames item = [] := by simp [primaryNames, hkey]
    exact (markFirsts_eq_self fun c _ _ => by simp [primaryMarked, hnames]).symm
  | some m =>
    have hnames : primaryNames item = columnNames (m.text 1).toList := by
      simp [primaryNames, h, hkey]
    unfold primaryMarked
    rw [hnames]
    exact columns_foldl_update columns_markPrimary (fun _ => rfl) (fun _ => rfl) _ body

theorem columns_foreign {item : Chars} (h : isConstraint item = true) (body : TableBody)
    (region : Region) :
    (match Pattern.tableForeignKey.first? item, Pattern.references.first? item with
      | some key, some reference => (columnNames (key.text 1).toList).foldl
          (TableBody.markForeign (referenceOf reference) region) body
      | _, _ => body).columns = markFirsts (foreignMarked item) [] body.columns := by
  split
  · next key reference hkey hreference =>
    have hnames : foreignNames item = columnNames (key.text 1).toList := by
      simp [foreignNames, h, hkey, hreference]
    rw [columns_foldl_update (columns_markForeign _ _) (fun _ => rfl) (fun _ => rfl)]
    congr 1
    funext c
    by_cases hc : c.name ∈ columnNames (key.text 1).toList
    · simp [foreignMarked, foreignReference?, hnames, hreference, hc]
    · simp [foreignMarked, foreignReference?, hnames, hc]
  · next hnone =>
    have hnames : foreignNames item = [] := by
      unfold foreignNames
      cases hreference : Pattern.references.first? item with
      | none => simp
      | some reference =>
        cases hkey : Pattern.tableForeignKey.first? item with
        | none => simp
        | some key => exact absurd hreference (hnone key reference hkey)
    exact (markFirsts_eq_self fun c _ _ => by
      simp [foreignMarked, foreignReference?, hnames]).symm

/-- A constraint marks the first column of each name that it lists. -/
theorem columns_constrain {item : Chars} (h : isConstraint item = true) (body : TableBody)
    (region : Region) :
    (body.constrain item region).columns = markFirsts (keyed item) [] body.columns := by
  refine (columns_foreign h _ region).trans ?_
  refine (congrArg (markFirsts (foreignMarked item) []) (columns_primary h body)).trans ?_
  rw [markFirsts_markFirsts (name_primaryMarked item)]
  rfl

/-- An item that is no constraint marks nothing. -/
theorem keyed_eq_self {item : Chars} (h : isConstraint item = false) (c : Column) :
    keyed item c = c := by
  simp [keyed_eq, foreignReference?, primaryNames, foreignNames, h]

/-- **What an item does**: it marks the columns in front of it, or adds one behind them. -/
theorem columns_addItem (text : Chars) (body : TableBody) (item : Region) :
    (body.addItem text item).columns =
      markFirsts (keyed (stripComments (item.chars text))) [] body.columns ++
        (added? (stripComments (item.chars text))).toList := by
  have hself (h : isConstraint (stripComments (item.chars text)) = false) :
      markFirsts (keyed (stripComments (item.chars text))) [] body.columns = body.columns :=
    markFirsts_eq_self fun c _ _ => keyed_eq_self h c
  unfold TableBody.addItem added?
  dsimp only
  split
  · next hwords =>
    rw [hself (by simp [isConstraint, hwords])]
    simp [hwords]
  · next first rest hwords =>
    have hfirst : isConstraint (stripComments (item.chars text)) =
        constraintWords.contains (lowerWord first) := by
      simp [isConstraint, hwords]
    split
    · next hkeyword =>
      rw [hkeyword] at hfirst
      rw [columns_constrain hfirst, hfirst]
      simp
    · next hkeyword =>
      rw [Bool.not_eq_true] at hkeyword
      rw [hkeyword] at hfirst
      rw [hself hfirst, hfirst, hwords]
      split
      · next c hc => simp [TableBody.addColumn, hc]
      · next hc => simp [hc]

/-! ## What all items do -/

/-- A column with the marks of several items. -/
def keyedBy (items : List Chars) (c : Column) : Column := items.foldl (fun c item => keyed item c) c

/-- Whether an item adds a column with a name. -/
def declares (name : String) (item : Chars) : Bool := (added? item).any (·.name = name)

/-- The items behind the first one that adds a column with a name. -/
def itemsBehind (name : String) (items : List Chars) : List Chars :=
  (items.dropWhile (!declares name ·)).tail

/-- The column that is the first to be added under a name. -/
def declared? (name : String) (items : List Chars) : Option Column :=
  (items.filterMap added?).find? (·.name = name)

/-- A column is listed as a part of the primary key behind its own item. -/
def PrimaryBehind (name : String) (items : List Chars) : Prop :=
  ∃ item ∈ itemsBehind name items, name ∈ primaryNames item

/-- What a column refers to by the last foreign key of several items. -/
def lastReference? (name : String) (items : List Chars) : Option ColumnReference :=
  (items.filterMap (foreignReference? name)).getLast?

/-- What the keys of several items change about a column. -/
theorem keyedBy_eq (items : List Chars) (c : Column) : keyedBy items c =
    { c with
      nullable := c.nullable && !decide (∃ item ∈ items, c.name ∈ primaryNames item)
      primaryKey := c.primaryKey || decide (∃ item ∈ items, c.name ∈ primaryNames item)
      foreignKey := c.foreignKey || (lastReference? c.name items).isSome
      references := (lastReference? c.name items).or c.references } := by
  induction items generalizing c with
  | nil => simp [keyedBy, lastReference?]
  | cons item items ih =>
    have hstep : keyedBy (item :: items) c = keyedBy items (keyed item c) := rfl
    have hlast : lastReference? c.name (item :: items) =
        (lastReference? c.name items).or (foreignReference? c.name item) := by
      unfold lastReference?
      cases hreference : foreignReference? c.name item with
      | none => simp [hreference]
      | some reference => simp [hreference, List.getLast?_cons]
    rw [hstep, ih, hlast, keyed_eq]
    simp only [List.exists_mem_cons_iff, Bool.decide_or, Bool.not_or, Bool.or_assoc, Bool.and_assoc,
      Option.or_assoc, Option.isSome_or]
    rw [Bool.or_comm (foreignReference? c.name item).isSome]

theorem map_name_markFirsts {mark : Column → Column} (hname : ∀ c, (mark c).name = c.name)
    (seen : List String) (columns : List Column) :
    (markFirsts mark seen columns).map (·.name) = columns.map (·.name) := by
  induction columns generalizing seen with
  | nil => rfl
  | cons c columns ih =>
    rw [markFirsts, List.map_cons, List.map_cons, ih]
    split
    · rfl
    · rw [hname]

theorem itemsBehind_of_declares {name : String} {item : Chars} (h : declares name item = true)
    (items : List Chars) : itemsBehind name (item :: items) = items := by
  simp [itemsBehind, h]

theorem itemsBehind_of_not_declares {name : String} {item : Chars}
    (h : declares name item = false) (items : List Chars) :
    itemsBehind name (item :: items) = itemsBehind name items := by
  simp [itemsBehind, h]

/-- The columns of a run over the items: those in front of it are marked by all items, those that it
adds by the items behind. -/
theorem columns_foldl (text : Chars) (rs : List Region) (body : TableBody) :
    let items := rs.map fun item => stripComments (item.chars text)
    (rs.foldl (TableBody.addItem text) body).columns =
      markFirsts (keyedBy items) [] body.columns ++
        markFirsts (fun c => keyedBy (itemsBehind c.name items) c) body.names
          (items.filterMap added?) := by
  induction rs generalizing body with
  | nil =>
    have hself : markFirsts (keyedBy []) [] body.columns = body.columns :=
      markFirsts_eq_self fun _ _ _ => rfl
    simp [hself, markFirsts]
  | cons r rs ih =>
    dsimp only at ih ⊢
    rw [List.foldl_cons, ih, List.map_cons]
    generalize hitems : rs.map (fun item => stripComments (item.chars text)) = items
    have hcolumns := columns_addItem text body r
    generalize stripComments (r.chars text) = item at hcolumns ⊢
    have hnames : (body.addItem text r).names =
        body.names ++ (added? item).toList.map (·.name) := by
      rw [TableBody.names, hcolumns, List.map_append, map_name_markFirsts (name_keyed item),
        TableBody.names]
    have hfront : markFirsts (keyedBy items) [] (markFirsts (keyed item) [] body.columns) =
        markFirsts (keyedBy (item :: items)) [] body.columns :=
      markFirsts_markFirsts (name_keyed item) body.columns
    rw [hcolumns, markFirsts_append, hfront, map_name_markFirsts (name_keyed item), List.nil_append,
      ← TableBody.names, hnames, List.append_assoc]
    congr 1
    cases hadded : added? item with
    | none =>
      have hbehind (name : String) : itemsBehind name (item :: items) = itemsBehind name items :=
        itemsBehind_of_not_declares (by simp [declares, hadded]) items
      simp [hadded, hbehind, markFirsts]
    | some d =>
      have hown : itemsBehind d.name (item :: items) = items :=
        itemsBehind_of_declares (by simp [declares, hadded]) items
      have hrest : markFirsts (fun c => keyedBy (itemsBehind c.name items) c)
            (body.names ++ [d.name]) (items.filterMap added?) =
          markFirsts (fun c => keyedBy (itemsBehind c.name (item :: items)) c)
            (body.names ++ [d.name]) (items.filterMap added?) := by
        refine markFirsts_eq_iff.2 fun c hseen _ => ?_
        rw [itemsBehind_of_not_declares]
        have hother : d.name ≠ c.name := by
          rintro heq
          simp [heq] at hseen
        simp [declares, hadded, hother]
      rw [List.filterMap_cons_some hadded, markFirsts, hown, ← hrest]
      rfl

/-- **The columns of a table** are those that its items add, each first of its name with the marks
of the items behind it. -/
theorem columns_ofRegion (text : Chars) (r : Region) : (TableBody.ofRegion text r).columns =
    markFirsts (fun c => keyedBy (itemsBehind c.name (itemTexts text r)) c) []
      ((itemTexts text r).filterMap added?) :=
  columns_foldl text (items text r) ⟨[], []⟩

/-! ## Constraints that are moved -/

/-- A column by its definition is required if it is a primary key, and a foreign key if it refers to
something. -/
theorem marks_of_column? {definition : Chars} {c : Column} (h : column? definition = some c) :
    (c.primaryKey = true → c.nullable = false) ∧ c.foreignKey = c.references.isSome := by
  unfold column? at h
  dsimp only at h
  split at h
  · cases h
  · split at h
    · cases h
    · obtain rfl := Option.some.inj h
      refine ⟨fun hprimary => ?_, rfl⟩
      dsimp only at hprimary ⊢
      rw [hprimary]
      rfl

theorem exists_of_declared? {name : String} {items : List Chars} {c : Column}
    (h : declared? name items = some c) : c.name = name ∧ ∃ item ∈ items, added? item = some c := by
  have hname : c.name = name := by simpa using List.find?_some h
  exact ⟨hname, List.mem_filterMap.1 (List.mem_of_find?_eq_some h)⟩

theorem marks_of_declared? {name : String} {items : List Chars} {c : Column}
    (h : declared? name items = some c) :
    (c.primaryKey = true → c.nullable = false) ∧ c.foreignKey = c.references.isSome := by
  obtain ⟨-, item, -, hadded⟩ := exists_of_declared? h
  unfold added? at hadded
  split at hadded
  · cases hadded
  · exact marks_of_column? hadded

/-- Only constraints stand elsewhere, so the same columns are added in the same order. -/
theorem Rearranged.filterMap_added {before after : List Chars} (h : Rearranged before after) :
    before.filterMap added? = after.filterMap added? := by
  have hcolumns (items : List Chars) :
      items.filterMap added? = (items.filter (!isConstraint ·)).filterMap added? := by
    rw [List.filterMap_filter]
    refine List.filterMap_congr fun item _ => ?_
    cases hitem : isConstraint item with
    | true => simp [added?, hitem]
    | false => simp
  rw [hcolumns before, hcolumns after, h.columns]

/-- When the marks of some items and of others make the same of a column. -/
theorem keyedBy_eq_iff {c : Column} (hprimary : c.primaryKey = true → c.nullable = false)
    (hforeign : c.foreignKey = c.references.isSome) (items items' : List Chars) :
    keyedBy items c = keyedBy items' c ↔
      (c.primaryKey = true ∨ ((∃ item ∈ items, c.name ∈ primaryNames item) ↔
        ∃ item ∈ items', c.name ∈ primaryNames item)) ∧
      (lastReference? c.name items).or c.references =
        (lastReference? c.name items').or c.references := by
  have hkey (reference : Option ColumnReference) :
      (c.foreignKey || reference.isSome) = (reference.or c.references).isSome := by
    rw [hforeign, Option.isSome_or, Bool.or_comm]
  rw [keyedBy_eq, keyedBy_eq, hkey, hkey, Column.mk.injEq]
  constructor
  · rintro ⟨-, -, -, hmarked, -, hreference⟩
    refine ⟨?_, hreference⟩
    cases hown : c.primaryKey with
    | true => exact .inl rfl
    | false =>
      rw [hown, Bool.false_or, Bool.false_or, decide_eq_decide] at hmarked
      exact .inr hmarked
  · rintro ⟨hmarked, hreference⟩
    rw [hreference]
    rcases hmarked with hown | hmarked
    · simp [hown, hprimary hown]
    · simp [hmarked]

/-- The columns are the same if each first column of its name has the same marks behind it. -/
theorem Rearranged.columns_eq_iff {text text' : Chars} {r r' : Region}
    (h : Rearranged (itemTexts text r) (itemTexts text' r')) :
    (TableBody.ofRegion text r).columns = (TableBody.ofRegion text' r').columns ↔
      ∀ name c, declared? name (itemTexts text r) = some c →
        (c.primaryKey = true ∨
          (PrimaryBehind name (itemTexts text r) ↔ PrimaryBehind name (itemTexts text' r'))) ∧
        (lastReference? name (itemsBehind name (itemTexts text r))).or c.references =
          (lastReference? name (itemsBehind name (itemTexts text' r'))).or c.references := by
  rw [columns_ofRegion, columns_ofRegion, ← h.filterMap_added, markFirsts_eq_iff]
  constructor
  · intro hmarks name c hc
    obtain ⟨rfl, -⟩ := exists_of_declared? hc
    obtain ⟨hprimary, hforeign⟩ := marks_of_declared? hc
    exact (keyedBy_eq_iff hprimary hforeign _ _).1 (hmarks c List.not_mem_nil hc)
  · intro hmarks c _ hc
    obtain ⟨hprimary, hforeign⟩ := marks_of_declared? hc
    exact (keyedBy_eq_iff hprimary hforeign _ _).2 (hmarks c.name c hc)

/-- Every key stands behind the columns that it lists, as far as the table has them. -/
def KeysBehind (items : List Chars) : Prop :=
  ∀ i (h : i < items.length), ∀ name ∈ primaryNames items[i] ++ foreignNames items[i],
    (declared? name items).isSome → ∃ other ∈ items.take i, declares name other = true

instance (items : List Chars) : Decidable (KeysBehind items) :=
  inferInstanceAs (Decidable (∀ i (h : i < items.length),
    ∀ name ∈ primaryNames items[i] ++ foreignNames items[i],
      (declared? name items).isSome → ∃ other ∈ items.take i, declares name other = true))

section

variable {name : String} {items : List Chars}

theorem exists_declares_of_declared? (h : (declared? name items).isSome) :
    ∃ item ∈ items, declares name item = true := by
  obtain ⟨c, hc⟩ := Option.isSome_iff_exists.1 h
  obtain ⟨hname, item, hitem, hadded⟩ := exists_of_declared? hc
  exact ⟨item, hitem, by simp [declares, hadded, hname]⟩

/-- The first item that adds a column with a name, and what stands in front of it. -/
theorem exists_itemsBehind (h : (declared? name items).isSome) : ∃ front item,
    items = front ++ item :: itemsBehind name items ∧ (∀ i ∈ front, declares name i = false) ∧
      declares name item = true := by
  obtain ⟨declaring, hmem, hdeclares⟩ := exists_declares_of_declared? h
  cases hrest : items.dropWhile (!declares name ·) with
  | nil =>
    rw [List.dropWhile_eq_nil_iff] at hrest
    simpa [hdeclares] using hrest declaring hmem
  | cons item behind =>
    refine ⟨items.takeWhile (!declares name ·), item, ?_, ?_, ?_⟩
    · rw [itemsBehind, hrest, List.tail_cons, ← hrest, List.takeWhile_append_dropWhile]
    · intro i hi
      simpa using List.mem_takeWhile_imp hi
    · simpa [hrest] using List.head?_dropWhile_not (!declares name ·) items

/-- An item that lists names as parts of a key adds no column. -/
theorem not_listed_of_declares {item : Chars} (h : declares name item = true) (other : String) :
    other ∉ primaryNames item ∧ other ∉ foreignNames item := by
  have hcolumn : isConstraint item = false := by
    by_contra hconstraint
    rw [Bool.not_eq_false] at hconstraint
    simp [declares, added?, hconstraint] at h
  simp [primaryNames, foreignNames, hcolumn]

/-- If every key stands behind its columns, nothing in front of a column or in its own item lists
it. -/
theorem KeysBehind.listed_behind (h : KeysBehind items)
    (hdeclared : (declared? name items).isSome) : ∃ front, items = front ++ itemsBehind name items ∧
      ∀ item ∈ front, name ∉ primaryNames item ∧ name ∉ foreignNames item := by
  obtain ⟨front, declaring, hsplit, hfront, hdeclaring⟩ := exists_itemsBehind hdeclared
  refine ⟨front ++ [declaring], by simpa using hsplit, fun item hitem => ?_⟩
  rcases List.mem_append.1 hitem with hitem | hitem
  · -- a key in front would have a column with the name in front of itself
    by_contra hlisted
    obtain ⟨before, between, rfl⟩ := List.append_of_mem hitem
    rw [List.append_assoc, List.cons_append] at hsplit
    obtain ⟨rest, rfl⟩ : ∃ rest, items = before ++ item :: rest := ⟨_, hsplit⟩
    have hlisted : name ∈ primaryNames item ++ foreignNames item := by
      rw [List.mem_append]
      tauto
    obtain ⟨other, hother, hdeclares⟩ :=
      h before.length (by simp) name (by simpa using hlisted) hdeclared
    have hbefore : other ∈ before := by simpa using hother
    rw [hfront other (List.mem_append_left _ hbefore)] at hdeclares
    cases hdeclares
  · rw [List.mem_singleton.1 hitem]
    exact not_listed_of_declares hdeclaring name

theorem KeysBehind.primaryBehind_iff (h : KeysBehind items)
    (hdeclared : (declared? name items).isSome) :
    PrimaryBehind name items ↔ ∃ item ∈ items, name ∈ primaryNames item := by
  obtain ⟨front, hsplit, hfront⟩ := h.listed_behind hdeclared
  unfold PrimaryBehind
  constructor
  · rintro ⟨item, hitem, hlisted⟩
    exact ⟨item, hsplit ▸ List.mem_append_right front hitem, hlisted⟩
  · rintro ⟨item, hitem, hlisted⟩
    rw [hsplit] at hitem
    rcases List.mem_append.1 hitem with hitem | hitem
    · exact absurd hlisted (hfront item hitem).1
    · exact ⟨item, hitem, hlisted⟩

theorem KeysBehind.references_behind (h : KeysBehind items)
    (hdeclared : (declared? name items).isSome) :
    (itemsBehind name items).filterMap (foreignReference? name) =
      items.filterMap (foreignReference? name) := by
  obtain ⟨front, hsplit, hfront⟩ := h.listed_behind hdeclared
  have hnone : front.filterMap (foreignReference? name) = [] := by
    rw [List.filterMap_eq_nil_iff]
    intro item hitem
    exact if_neg (hfront item hitem).2
  conv_rhs => rw [hsplit, List.filterMap_append, hnone, List.nil_append]

end

/-- **Where constraints stand.** If only constraints stand elsewhere, the columns are the same
exactly if each column is listed as a part of the primary key behind its item in both orders or in
neither, unless its definition says so, and refers to the same by the last foreign key behind its
item or else by its definition. So they are the same if in both orders every key stands behind the
columns that it lists and the foreign keys of each column stand in one order. -/
theorem rearranged_columns_iff {text text' : Chars} {r r' : Region}
    (h : Rearranged (itemTexts text r) (itemTexts text' r')) :
    ((TableBody.ofRegion text r).columns = (TableBody.ofRegion text' r').columns ↔
      ∀ name c, declared? name (itemTexts text r) = some c →
        (c.primaryKey = true ∨
          (PrimaryBehind name (itemTexts text r) ↔ PrimaryBehind name (itemTexts text' r'))) ∧
        (lastReference? name (itemsBehind name (itemTexts text r))).or c.references =
          (lastReference? name (itemsBehind name (itemTexts text' r'))).or c.references) ∧
    (KeysBehind (itemTexts text r) → KeysBehind (itemTexts text' r') →
      (∀ name, (itemTexts text r).filterMap (foreignReference? name) =
        (itemTexts text' r').filterMap (foreignReference? name)) →
      (TableBody.ofRegion text r).columns = (TableBody.ofRegion text' r').columns) := by
  refine ⟨h.columns_eq_iff, fun hbefore hafter horder => h.columns_eq_iff.2 fun name c hc => ?_⟩
  have hdeclared : (declared? name (itemTexts text r)).isSome := by rw [hc]; rfl
  have hdeclared' : (declared? name (itemTexts text' r')).isSome := by
    unfold declared?
    rw [← h.filterMap_added]
    exact hdeclared
  constructor
  · right
    rw [hbefore.primaryBehind_iff hdeclared, hafter.primaryBehind_iff hdeclared']
    simp only [h.perm.mem_iff]
  · unfold lastReference?
    rw [hbefore.references_behind hdeclared, hafter.references_behind hdeclared', horder]

/-- The items of a table with its key behind all columns. -/
def keyAtEnd : Chars := "a int, b int, primary key (a)".toList

/-- The items of the same table with its key right behind the column. -/
def keyBetween : Chars := "a int, primary key (a), b int".toList

theorem rearranged_columns_between :
    Rearranged (itemTexts keyAtEnd ⟨0, 29⟩) (itemTexts keyBetween ⟨0, 29⟩) ∧
      (TableBody.ofRegion keyAtEnd ⟨0, 29⟩).columns =
        (TableBody.ofRegion keyBetween ⟨0, 29⟩).columns := by
  have h : Rearranged (itemTexts keyAtEnd ⟨0, 29⟩) (itemTexts keyBetween ⟨0, 29⟩) :=
    ⟨by decide, by decide⟩
  have hbefore : KeysBehind (itemTexts keyAtEnd ⟨0, 29⟩) := by decide
  have hafter : KeysBehind (itemTexts keyBetween ⟨0, 29⟩) := by decide
  have hnone : ∀ item ∈ itemTexts keyAtEnd ⟨0, 29⟩ ++ itemTexts keyBetween ⟨0, 29⟩,
      foreignNames item = [] := by decide
  have hforeign (name : String) {items : List Chars}
      (hitems : items ⊆ itemTexts keyAtEnd ⟨0, 29⟩ ++ itemTexts keyBetween ⟨0, 29⟩) :
      items.filterMap (foreignReference? name) = [] := by
    rw [List.filterMap_eq_nil_iff]
    intro item hitem
    simp [foreignReference?, hnone item (hitems hitem)]
  refine ⟨h, (rearranged_columns_iff h).2 hbefore hafter fun name => ?_⟩
  rw [hforeign name (List.subset_append_left _ _), hforeign name (List.subset_append_right _ _)]

/-- The definition of a table with a primary key behind its column, and with the key in front. -/
def keyBehind : Chars := "create table t (a int, primary key (a));".toList

def keyInFront : Chars := "create table t (primary key (a), a int);".toList

/-- **A key in front of its column is lost.** -/
theorem key_in_front_lost :
    Rearranged (itemTexts keyBehind ⟨16, 38⟩) (itemTexts keyInFront ⟨16, 38⟩) ∧
      (Schema.ofScript keyBehind).tables.map (·.body.columns) =
        [[⟨"a", "int", false, true, false, none⟩]] ∧
      (Schema.ofScript keyInFront).tables.map (·.body.columns) =
        [[⟨"a", "int", true, false, false, none⟩]] ∧
      (∃ t ∈ (Schema.ofScript keyBehind).tables, t.body = .ofRegion keyBehind ⟨16, 38⟩) ∧
      ∃ t ∈ (Schema.ofScript keyInFront).tables, t.body = .ofRegion keyInFront ⟨16, 38⟩ := by
  exact ⟨⟨by decide, by decide⟩, by decide, by decide, by decide, by decide⟩

end ArchGraph.Sql
