import ArchGraph.Analysis
import ArchGraph.CommandLine.Arguments
import ArchGraph.Corpus.Loader
import ArchGraph.Json.Printer
import ArchGraph.Settings.Layers
/-!
# Carrying out requests

What a request leads to in the surroundings of the program: a text to print, a file to write, or a
failure. The directories of an analysis make up one project and have to differ in name. Main
statement: repositories of an analysis have different identifiers.
-/

namespace ArchGraph.CommandLine

/-- Why a request fails. -/
inductive Failure where
  /-- The settings of a file, or the usual ones, cannot be used. -/
  | settings (file : Option String) (error : SettingsError)
  /-- A path that has to name a project leads nowhere. -/
  | unresolved (path : String)
  | noDirectory (path : String)
  | sameName (name : String)
  | invalid (fault : SettingsFault)
  /-- A sum overflows. -/
  | overflow
  /-- The settings cannot be printed. -/
  | notPrinted (error : SettingsError)
  | notWritten (path : String)
deriving DecidableEq, Repr

/-- The failure in words. -/
def Failure.message : Failure → String
  | settings (some path) error =>
    "Failed to load config from " ++ path ++ ": " ++ error.message
  | settings none error => "Failed to load configuration: " ++ error.message
  | unresolved path => "Cannot resolve " ++ path
  | noDirectory path => "Failed to load " ++ path
  | sameName name => "Two repositories share the directory name '" ++ name ++ "'"
  | invalid fault => Analysis.faultText fault
  | overflow => "attempt to add with overflow"
  | notPrinted error => "Failed to render configuration: " ++ error.message
  | notWritten path => "Failed to write " ++ path

/-- The exit code of a program that fails: overflows stop it on the spot. -/
def Failure.exitCode : Failure → Nat
  | overflow => 101
  | _ => 1

/-- What a request leads to. -/
inductive Output where
  | print (text : String)
  /-- Saves a text to a file and reports the summary. -/
  | save (path text : String) (summary : String)
deriving DecidableEq, Repr

/-- The settings that a request is carried out with. -/
def settingsFor (h : Host) (settingsFile : Option String) : Except Failure Settings :=
  let settings := match settingsFile with
    | some path => Settings.ofFile h.environment (h.find? path)
    | none => Settings.effective h
  settings.mapError (.settings settingsFile)

/-- Adds the repositories in directories to a project. -/
def addAll (s : CorpusSettings) (h : Host) (p : Project) : List String → Except Failure Project
  | [] => .ok p
  | dir :: rest =>
    match Corpus.load? s h dir with
    | none => .error (.noDirectory dir)
    | some l =>
      if p.repositories.any (·.id == l.repository.id) then .error (.sameName l.repository.id)
      else addAll s h (p.addLoaded l) rest

/-- The name of a project in the root directory. -/
def rootProjectName : String := "project"

/-- The identifier of a project: the one that is asked for, or the name of its first directory. -/
def projectId (h : Host) (r : AnalyzeRequest) : Except Failure String :=
  match r.project with
  | some id => .ok id
  | none =>
    match h.resolve? r.dir with
    | some place => .ok (place.getLastD rootProjectName)
    | none => .error (.unresolved r.dir)

/-- What the analysis that is asked for works on. -/
def taskFor (h : Host) (s : Settings) (r : AnalyzeRequest) : Except Failure Discovery.Task := do
  let id ← projectId h r
  let p ← addAll s.corpus h (.empty id) (r.dir :: r.others)
  return ⟨p, s, FeatureDefinition.catalog⟩

/-- The analysis that is asked for. -/
def analysis (h : Host) (s : Settings) (r : AnalyzeRequest) : Except Failure Analysis := do
  let t ← taskFor h s r
  (Analysis.run t Discovery.Stage.all).mapError .invalid

/-- The analysis that is asked for, unless a sum overflows: sums are checked. -/
def checkedAnalysis (h : Host) (s : Settings) (r : AnalyzeRequest) : Except Failure Analysis := do
  let t ← taskFor h s r
  let a ← analysis h s r
  if Discovery.Stage.all.any t.overflows then .error .overflow else .ok a

/-- What an analysis is turned into. A summary is printed even if a file is asked for. -/
def analysisOutput (r : AnalyzeRequest) (a : Analysis) : Output :=
  if r.summary then .print (a.summary.text ++ "\n")
  else match r.output with
    | some path => .save path a.toJson.pretty a.summary.text
    | none => .print (a.toJson.pretty ++ "\n")

/-- Carries out a request. -/
def run (h : Host) (r : Request) : Except Failure Output :=
  match r.command with
  | .analyze request => do
    let s ← settingsFor h r.settingsFile
    return analysisOutput request (← checkedAnalysis h s request)
  | .config true => (Settings.default.written.mapError .notPrinted).map .print
  | .config false => do
    let s ← settingsFor h r.settingsFile
    (s.written.mapError .notPrinted).map .print

/-- The usage. -/
def usageText : String :=
  String.intercalate "\n"
    ["Usage: archscan [OPTIONS] <COMMAND>", "",
     "Commands:",
     "  analyze  Analyze one or more repository directories as a single project",
     "  config   Print the effective configuration as TOML",
     "  help     Print this message", "",
     "Options:",
     "  -v, --verbose          Log at debug level",
     "  -c, --config <CONFIG>  Config file to use instead of the default locations",
     "  -h, --help             Print help", ""]

/-- How the program ends: its exit code, what it prints, and what it leaves behind. -/
structure Outcome where
  exitCode : Nat
  printed  : String
  host     : Host

/-- What arguments lead to: 0 if they are carried out, 1 or more if that fails, 2 if their usage is
wrong. -/
def outcome (h : Host) (args : List String) : Outcome :=
  match Request.ofArguments args with
  | .error .help => ⟨0, usageText, h⟩
  | .error .usage => ⟨2, "", h⟩
  | .ok r =>
    match run h r with
    | .error failure => ⟨failure.exitCode, "", h⟩
    | .ok (.print text) => ⟨0, text, h⟩
    | .ok (.save path text _) =>
      match h.write? path text with
      | some h => ⟨0, "", h⟩
      | none => ⟨1, "", h⟩

/-! ## Laws -/

/-- The repositories of a project have different identifiers if they had before. -/
theorem nodup_addAll {s : CorpusSettings} {h : Host} {dirs : List String} {p q : Project}
    (hp : (p.repositories.map (·.id)).Nodup) (e : addAll s h p dirs = .ok q) :
    (q.repositories.map (·.id)).Nodup := by
  induction dirs generalizing p with
  | nil => simp only [addAll, Except.ok.injEq] at e; exact e ▸ hp
  | cons dir rest ih =>
    simp only [addAll] at e
    split at e
    · simp at e
    · next l _ =>
      split at e
      · simp at e
      · next hn =>
        refine ih ?_ e
        simp only [Project.addLoaded, List.map_append, List.map_cons, List.map_nil]
        refine List.nodup_append.2 ⟨hp, by simp, ?_⟩
        intro a ha b hb
        simp only [List.mem_singleton] at hb
        subst hb
        rintro rfl
        obtain ⟨r, hr, e'⟩ := List.mem_map.1 ha
        exact hn (List.any_eq_true.2 ⟨r, hr, by simp [e']⟩)

end ArchGraph.CommandLine
