/-!
# File trees

Files and directories as values. A directory lists its entries by name, each name once. Main
statements: what is put at a place is found there, and a child put under one name leaves the
children of other names alone.
-/

namespace ArchGraph

/-- A file with its bytes, or a directory with its entries. -/
inductive FileTree where
  | file (bytes : ByteArray)
  | dir (entries : List (String × FileTree))

namespace FileTree

instance : Inhabited FileTree := ⟨dir []⟩

/-- Whether there is a directory. -/
def isDir : FileTree → Bool
  | file _ => false
  | dir _ => true

/-- The entries of a directory; a file has none. -/
def entries : FileTree → List (String × FileTree)
  | file _ => []
  | dir es => es

/-- The entry of a directory with a name. -/
def child? (t : FileTree) (name : String) : Option FileTree := t.entries.lookup name

/-- What is found by following names. -/
def find? : FileTree → List String → Option FileTree
  | t, [] => some t
  | t, name :: names => (t.child? name).bind fun c => c.find? names

/-- The bytes of a file. -/
def bytes? : FileTree → Option ByteArray
  | file bytes => some bytes
  | dir _ => none

/-- The text of a file, if its bytes are the UTF-8 form of one. -/
def text? (t : FileTree) : Option String := t.bytes?.bind String.fromUTF8?

/-- Entries with one more, in the place of the entry of the same name. -/
def setEntry (name : String) (t : FileTree) : List (String × FileTree) → List (String × FileTree)
  | [] => [(name, t)]
  | (n, old) :: rest => if n = name then (n, t) :: rest else (n, old) :: setEntry name t rest

/-- Puts something at a place. Directories on the way are made, in the place of files if need
be. -/
def put : FileTree → List String → FileTree → FileTree
  | _, [], new => new
  | t, name :: names, new =>
    dir (setEntry name (((t.child? name).getD (dir [])).put names new) t.entries)

/-- Makes a directory at a place, unless there is one. -/
def makeDir (t : FileTree) (names : List String) : FileTree :=
  match t.find? names with
  | some (dir _) => t
  | _ => t.put names (dir [])

theorem lookup_setEntry (name other : String) (t : FileTree) (es : List (String × FileTree)) :
    (setEntry name t es).lookup other = if other = name then some t else es.lookup other := by
  induction es with
  | nil =>
    by_cases h : other = name
    · simp [setEntry, h]
    · simp [setEntry, List.lookup_cons, h, beq_false_of_ne h]
  | cons e es ih =>
    obtain ⟨n, old⟩ := e
    by_cases h : n = name
    · subst h
      by_cases h' : other = n
      · simp [setEntry, h']
      · simp [setEntry, List.lookup_cons, h', beq_false_of_ne h']
    · by_cases h' : other = n
      · subst h'
        simp [setEntry, h]
      · simp [setEntry, List.lookup_cons, h, beq_false_of_ne h', ih]

/-- What is put at a place is found there. -/
theorem find?_put (t : FileTree) (names : List String) (new : FileTree) :
    (t.put names new).find? names = some new := by
  induction names generalizing t with
  | nil => rfl
  | cons name names ih =>
    simp [put, find?, child?, entries, lookup_setEntry, ih]

/-- A child put under one name leaves the children of other names alone. -/
theorem child?_put {name other : String} (h : other ≠ name) (t : FileTree) (names : List String)
    (new : FileTree) : (t.put (name :: names) new).child? other = t.child? other := by
  simp [put, child?, entries, lookup_setEntry, h]

end FileTree
end ArchGraph
