import ArchGraph.Files.Host
import ArchGraph.Settings.Written
import ArchGraph.Text.Digit
/-!
# Layers of settings

Settings come from the defaults, from one file, and from the environment, the later ones first.
The file is the one of the project, or else the one of the user. Only settings that are valid are
handed out. Main statements: handed-out settings have no fault, and a variable that is no number
changes nothing.
-/

namespace ArchGraph

/-- Why there are no settings. -/
inductive SettingsError where
  /-- The file cannot be read as text. -/
  | unreadable
  /-- The text is no document of settings. -/
  | malformed
  /-- A number is too large to be written. -/
  | unwritable
  | invalid (fault : SettingsFault)
deriving DecidableEq, Repr

/-- The error in words. -/
def SettingsError.message : SettingsError → String
  | unreadable => "Failed to read config file"
  | malformed => "Failed to parse config file"
  | unwritable => "Failed to serialize config"
  | invalid fault => fault.text

/-- Variables of an environment by name. -/
abbrev Environment := List (String × String)

/-- The number that a text is: digits, behind a plus sign or not, of a value of 64 bits. -/
def wordOfText? (text : String) : Option UInt64 :=
  let digits := match text.toList with
    | '+' :: digits => digits
    | digits => digits
  if digits.isEmpty || !digits.all Char.isDigit then none
  else
    let n := Text.numeral 10 digits
    if n < Nat.pow 2 64 then some n.toUInt64 else none

/-- The number that a variable holds, or else a given one. -/
def Environment.word (env : Environment) (name : String) (otherwise : UInt64) : UInt64 :=
  ((env.lookup name).bind wordOfText?).getD otherwise

namespace Settings

/-- The settings with those that the environment overrides. -/
def withEnvironment (env : Environment) (s : Settings) : Settings where
  corpus := { s.corpus with
    maxFileSize := env.word "ARCHSCAN_MAX_FILE_SIZE" s.corpus.maxFileSize
    maxTotalSize := env.word "ARCHSCAN_MAX_TOTAL_SIZE" s.corpus.maxTotalSize }
  analysis := { s.analysis with
    workerThreads := env.word "ARCHSCAN_WORKER_THREADS" s.analysis.workerThreads
    tableOpLookahead := env.word "ARCHSCAN_TABLE_OP_LOOKAHEAD" s.analysis.tableOpLookahead }
  features := { s.features with
    minAutoFeatureScreens :=
      env.word "ARCHSCAN_MIN_AUTO_FEATURE_SCREENS" s.features.minAutoFeatureScreens }

/-- The settings if they are valid. -/
def checked (s : Settings) : Except SettingsError Settings :=
  match s.fault? with
  | some fault => .error (.invalid fault)
  | none => .ok s

/-- The settings of a text under an environment. -/
def ofText (env : Environment) (text : String) : Except SettingsError Settings :=
  match ofText? text with
  | some s => (s.withEnvironment env).checked
  | none => .error .malformed

/-- The settings of what is found in place of a file, under an environment. -/
def ofFile (env : Environment) (file : Option FileTree) : Except SettingsError Settings :=
  match file.bind FileTree.text? with
  | some text => ofText env text
  | none => .error .unreadable

/-- The file of settings in the working directory. -/
def projectFile : String := "archscan.toml"

/-- The file of the user's settings. -/
def userFile? (h : Host) : Option String := h.configDir.map (· ++ "/archscan/config.toml")

/-- The settings that hold in the surroundings of a program. A file that exists is used, even if
it cannot be read. -/
def effective (h : Host) : Except SettingsError Settings :=
  match h.find? projectFile with
  | some file => ofFile h.environment (some file)
  | none =>
    match (userFile? h).bind h.find? with
    | some file => ofFile h.environment (some file)
    | none => (default.withEnvironment h.environment).checked

/-- The document that settings are written to. -/
def written (s : Settings) : Except SettingsError String :=
  match s.text? with
  | some text => .ok text
  | none => .error .unwritable

/-! ## Laws -/

theorem checked_eq_ok_iff (s t : Settings) : s.checked = .ok t ↔ s = t ∧ t.fault? = none := by
  unfold checked
  split
  · next fault h =>
    simp only [reduceCtorEq, false_iff, not_and]
    rintro rfl
    simp [h]
  · next h =>
    simp only [Except.ok.injEq]
    exact ⟨fun e => ⟨e, e ▸ h⟩, fun e => e.1⟩

theorem fault?_of_ofText {env : Environment} {text : String} {s : Settings}
    (h : ofText env text = .ok s) : s.fault? = none := by
  unfold ofText at h
  split at h
  · exact ((checked_eq_ok_iff _ _).1 h).2
  · simp at h

theorem fault?_of_ofFile {env : Environment} {file : Option FileTree} {s : Settings}
    (h : ofFile env file = .ok s) : s.fault? = none := by
  unfold ofFile at h
  split at h
  · exact fault?_of_ofText h
  · simp at h

/-- Settings that are handed out have no fault. -/
theorem fault?_of_effective {h : Host} {s : Settings} (e : effective h = .ok s) :
    s.fault? = none := by
  unfold effective at e
  split at e
  · exact fault?_of_ofFile e
  · split at e
    · exact fault?_of_ofFile e
    · exact ((checked_eq_ok_iff _ _).1 e).2

end Settings

/-- A variable that is no number changes nothing. -/
theorem Environment.word_of_not_number {env : Environment} {name : String} {otherwise : UInt64}
    (h : ∀ text, env.lookup name = some text → wordOfText? text = none) :
    env.word name otherwise = otherwise := by
  unfold word
  cases e : env.lookup name with
  | none => rfl
  | some text => simp [h text e]

end ArchGraph
