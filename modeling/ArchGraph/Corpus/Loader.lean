import ArchGraph.Catalog.Language
import ArchGraph.Corpus.Basic
import ArchGraph.Corpus.Walk
import ArchGraph.Digest
import ArchGraph.Files.Host
import ArchGraph.Settings.Basic
import ArchGraph.Text.Sorted
/-!
# Loading repositories

A repository is made of the files below a directory: those of certain names or extensions, in the
order of their paths, as long as they fit into a budget. A file that is too large and a file that
is no text are passed over and cost nothing; the first file that exceeds the budget ends the
loading. Main statements: the loaded files come from the candidates, and none is too large.
-/

namespace ArchGraph.Corpus

/-- A file that can be loaded. Its content is known if it is text. -/
structure Candidate where
  path    : String
  size    : UInt64
  content : Option String
deriving DecidableEq, Repr

/-- A loaded file. -/
structure LoadedFile where
  path    : String
  size    : UInt64
  content : String
deriving DecidableEq, Repr

/-! ## Candidates -/

/-- The extension of a file name: what stands behind its last dot, unless that is its first
character. -/
def extension (name : String) : String :=
  let (stem, extension) := Path.splitExtension name
  if stem = "" then "" else extension

/-- Whether files of a name are wanted. -/
def isWanted (s : CorpusSettings) (name : String) : Bool :=
  s.includeFileNames.contains name || s.includeExtensions.contains (extension name)

/-- The path that is listed for a file: its names behind slashes, where a backslash counts as a
slash. -/
def listedPath (names : List String) : String :=
  String.ofList ((Path.ofNames names).toList.map fun c => if c = '\\' then '/' else c)

/-- A file as a candidate. -/
def Candidate.ofFile (f : FoundFile) : Candidate :=
  ⟨listedPath f.names, f.bytes.size.toUInt64, String.fromUTF8? f.bytes⟩

/-- The candidates below a place of a file tree, in the order of their paths. -/
def candidates (s : CorpusSettings) (w : Walk) (root : FileTree) (place : List String) :
    List Candidate :=
  (((filesBelow w root place).filter fun f => isWanted s (f.names.getLastD "")).map
    Candidate.ofFile).mergeSort fun a b => Text.notAfter a.path b.path

/-! ## Budgets -/

/-- The files that are loaded beside `used` bytes. Bytes are counted in 64-bit words, and sums
wrap. -/
def select (s : CorpusSettings) (used : UInt64) : List Candidate → List LoadedFile
  | [] => []
  | c :: rest =>
    if s.maxFileSize < c.size then select s used rest
    else if s.maxTotalSize < used + c.size then []
    else match c.content with
      | none => select s used rest
      | some text => ⟨c.path, c.size, text⟩ :: select s (used + c.size) rest

theorem size_le_of_mem_select {s : CorpusSettings} {used : UInt64} {cs : List Candidate}
    {f : LoadedFile} (h : f ∈ select s used cs) : f.size ≤ s.maxFileSize := by
  induction cs generalizing used with
  | nil => simp [select] at h
  | cons c rest ih =>
    simp only [select] at h
    split at h
    · exact ih h
    · next hsize =>
      split at h
      · simp at h
      · split at h
        · exact ih h
        · rcases List.mem_cons.1 h with rfl | h
          · exact UInt64.not_lt.1 hsize
          · exact ih h

/-- A loaded file is a candidate with its content. -/
theorem mem_of_mem_select {s : CorpusSettings} {used : UInt64} {cs : List Candidate}
    {f : LoadedFile} (h : f ∈ select s used cs) : ⟨f.path, f.size, some f.content⟩ ∈ cs := by
  induction cs generalizing used with
  | nil => simp [select] at h
  | cons c rest ih =>
    simp only [select] at h
    split at h
    · exact List.mem_cons_of_mem _ (ih h)
    · split at h
      · simp at h
      · split at h
        · exact List.mem_cons_of_mem _ (ih h)
        · next text e =>
          rcases List.mem_cons.1 h with rfl | h
          · simp only [List.mem_cons]
            left
            cases c
            simp_all
          · exact List.mem_cons_of_mem _ (ih h)

/-! ## Repositories -/

/-- A repository with the contents of its files by path. -/
structure Loaded where
  repository : Repository
  contents   : Contents
deriving DecidableEq, Repr

/-- A listed file: its digest and the language of its name. -/
def LoadedFile.listed (f : LoadedFile) : SourceFile :=
  ⟨f.path, Digest.hex (Digest.sha256 (Digest.utf8 f.content)), Language.ofPath? f.path⟩

/-- The repository of some files, named like their directory. -/
def Loaded.ofFiles (name : String) (files : List LoadedFile) : Loaded where
  repository := ⟨name, "local", name, "local", "main", files.map LoadedFile.listed⟩
  contents := .ofList (files.map fun f => (f.path, f.content))

/-- The name of a repository in the root directory. -/
def rootName : String := "repo"

/-- The walk of the directory that a path leads to. -/
def walk (s : CorpusSettings) (h : Host) (path : String) : Walk :=
  let git := h.git h.root
  ⟨s.excludeDirs, git.user path, git.linked⟩

/-- Loads the repository in the directory that a path leads to, if there is one. -/
def load? (s : CorpusSettings) (h : Host) (path : String) : Option Loaded := do
  let place ← h.resolve? path
  let t ← h.root.find? place
  if t.isDir then
    let cs := candidates s (walk s h path) h.root place
    return .ofFiles (place.getLastD rootName) (select s 0 cs)
  else none

end ArchGraph.Corpus

namespace ArchGraph.Project

/-- A project with one more repository, whose contents belong to it only. -/
def addLoaded (p : Project) (l : Corpus.Loaded) : Project :=
  { p with
    repositories := p.repositories ++ [l.repository]
    contents := l.contents.entries.foldl
      (fun c entry => c.insert (l.repository.qualifiedKey entry.1) entry.2) p.contents }

end ArchGraph.Project
