import ArchGraph.CommandLine.Run
/-!
# The program

Reads the surroundings that a request depends on, carries the request out in them, and prints or
saves what it leads to. Of a directory to analyse only the files that can matter are read: those
that settings ask for, and the files with rules for ignoring. Rules that version control keeps
outside of the directories are not read.
-/

namespace ArchGraph.CommandLine

/-- The variables that the program looks at. -/
def variableNames : List String :=
  ["ARCHSCAN_MAX_FILE_SIZE", "ARCHSCAN_MAX_TOTAL_SIZE", "ARCHSCAN_WORKER_THREADS",
   "ARCHSCAN_TABLE_OP_LOOKAHEAD", "ARCHSCAN_MIN_AUTO_FEATURE_SCREENS", "HOME", "XDG_CONFIG_HOME"]

/-- The values of the variables that are set. -/
def readEnvironment : IO Environment :=
  variableNames.filterMapM fun name => do
    return (← IO.getEnv name).map fun value => (name, value)

/-- A path without links and dots, or the path itself if it leads nowhere. -/
def absolutePath (path : String) : IO String := do
  try
    return (← IO.FS.realPath path).toString
  catch _ => return path

/-- The names that an absolute path joins. -/
def placeOf (path : String) : List String := (Path.names path).filter (· ≠ "")

/-- The file at a path, if there is one that can be read. -/
def readFile? (path : String) : IO (Option FileTree) := do
  try
    return some (.file (← IO.FS.readBinFile path))
  catch _ => return none

/-- What is at a path: a file, or in place of anything else an empty directory. -/
def readEntry? (path : String) : IO (Option FileTree) := do
  try
    let path ← IO.FS.realPath path
    return some ((← readFile? path.toString).getD (.dir []))
  catch _ => return none

/-- Adds the file at an absolute path to a tree, if there is one. -/
def addFile (t : FileTree) (path : String) : IO FileTree := do
  match ← readEntry? path with
  | some entry => return t.put (placeOf path) entry
  | none => return t

/-- The files with rules for ignoring in a directory. -/
def ruleFiles : List String := [".ignore", ".gitignore", ".git/info/exclude"]

/-- Adds to a place of a tree what decides in a directory about the entries below it. -/
def addRules (t : FileTree) (place : List String) (dir : String) : IO FileTree := do
  let mut tree := t
  if (← readEntry? (dir ++ "/.git")).isSome then
    tree := tree.makeDir (place ++ [".git"])
  for name in ruleFiles do
    if let some file ← readFile? (dir ++ "/" ++ name) then
      tree := tree.put (place ++ Path.names name) file
  return tree

/-- The files below a directory that can matter. Links are not followed. -/
partial def readDirectory (s : CorpusSettings) (dir : String) : IO FileTree := do
  let found ← try (← IO.FS.realPath dir).readDir catch _ => pure #[]
  let mut tree := FileTree.dir []
  for entry in found do
    let path := dir ++ "/" ++ entry.fileName
    match (← entry.path.symlinkMetadata).type with
    | .dir =>
      unless s.excludeDirs.contains entry.fileName do
        tree := tree.put [entry.fileName] (← readDirectory s path)
    | .file =>
      if Corpus.isWanted s entry.fileName then
        if let some file ← readFile? path then
          tree := tree.put [entry.fileName] file
    | _ => pure ()
  addRules tree [] dir

/-- Adds a directory to a tree, with the rules of the directories above it. -/
def addDirectory (s : CorpusSettings) (t : FileTree) (place : List String) : IO FileTree := do
  let mut tree := t.put place (← readDirectory s (Path.ofNames ("" :: place)))
  for depth in [0:place.length] do
    let above := place.take depth
    tree ← addRules tree above (Path.ofNames ("" :: above))
  return tree

/-- Whether a path leads to a directory. -/
def isDirectory (path : String) : IO Bool := do
  try
    discard (← IO.FS.realPath path).readDir
    return true
  catch _ => return false

/-- The directory for the settings of the user: the one that the environment names by an absolute
path, or else the usual one in the home directory that it names. -/
def configDir? (env : Environment) : Option String :=
  match (env.lookup "XDG_CONFIG_HOME").filter fun dir => dir.toList.head? = some '/' with
  | some dir => some dir
  | none => ((env.lookup "HOME").filter (· ≠ "")).map (· ++ "/.config")

/-- The surroundings as far as settings depend on them. What version control keeps for the user is
taken to be empty. -/
def readSettingsHost (settingsFile : Option String) : IO Host := do
  let dir ← absolutePath "."
  let environment ← readEnvironment
  let h : Host :=
    { root := FileTree.dir [] |>.makeDir (placeOf dir), workingDir := placeOf dir, environment
      configDir := configDir? environment, git := fun _ => .none }
  let files := match settingsFile with
    | some path => [path]
    | none => (dir ++ "/" ++ Settings.projectFile) :: (Settings.userFile? h).toList
  return { h with root := ← files.foldlM addFile h.root }

/-- A request whose paths are absolute. -/
def Request.absolute (r : Request) : IO Request := do
  let command ← match r.command with
    | .analyze a => do
      let dir ← absolutePath a.dir
      let others ← a.others.mapM absolutePath
      pure (Command.analyze { a with dir, others })
    | command => pure command
  return { r with settingsFile := ← r.settingsFile.mapM absolutePath, command }

/-- The surroundings as far as a request with absolute paths depends on them. Directories are read
before those below them. -/
def readHost (r : Request) : IO Host := do
  let h ← readSettingsHost r.settingsFile
  match settingsFor h r.settingsFile with
  | .error _ => return h
  | .ok s =>
    let dirs ← r.dirs.filterM fun dir => isDirectory dir
    let places := (dirs.map placeOf).mergeSort fun a b => a.length ≤ b.length
    return { h with root := ← places.foldlM (addDirectory s.corpus) h.root }

/-- Carries out a request and answers the exit code. -/
def perform (r : Request) : IO UInt32 := do
  let r ← r.absolute
  match run (← readHost r) r with
  | .error failure =>
    IO.eprintln ("Error: " ++ failure.message)
    return failure.exitCode.toUInt32
  | .ok (.print text) =>
    IO.print text
    return 0
  | .ok (.save path text summary) =>
    try
      IO.FS.writeFile path text
      IO.eprintln ("Graph written to " ++ path)
      IO.eprintln summary
      return 0
    catch _ =>
      IO.eprintln ("Error: " ++ (Failure.notWritten path).message)
      return 1

end ArchGraph.CommandLine

open ArchGraph.CommandLine in
/-- Carries out what the arguments ask for. -/
def main (args : List String) : IO UInt32 := do
  match Request.ofArguments args with
  | .ok r => perform r
  | .error .help =>
    IO.print usageText
    return 0
  | .error .usage =>
    IO.eprint usageText
    return 2
