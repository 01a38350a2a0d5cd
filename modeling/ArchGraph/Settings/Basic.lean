import ArchGraph.Json.Basic
/-!
# Settings

What can be set, the defaults, and which settings discovery can work with. Sizes and counts are
64-bit words. Main statement: the defaults are valid.
-/

namespace ArchGraph

/-- Which files of a directory belong to a corpus. -/
structure CorpusSettings where
  maxFileSize       : UInt64
  maxTotalSize      : UInt64
  includeExtensions : List String
  includeFileNames  : List String
  excludeDirs       : List String
deriving DecidableEq, Repr

/-- How far the stages look ahead, and how many threads share the work. -/
structure AnalysisSettings where
  workerThreads        : UInt64
  tableOpLookahead     : UInt64
  fetchMethodLookahead : UInt64
deriving DecidableEq, Repr

/-- Limits of features. -/
structure FeatureSettings where
  screenEvidenceCap     : UInt64
  stepEvidenceCap       : UInt64
  minAutoFeatureScreens : UInt64
deriving DecidableEq, Repr

/-- All settings. -/
structure Settings where
  corpus   : CorpusSettings
  analysis : AnalysisSettings
  features : FeatureSettings
deriving DecidableEq, Repr

/-- The greatest number of citations of a screen step. -/
def maxScreenEvidenceCap : UInt64 := 3

/-- The greatest number of citations of any other step. -/
def maxStepEvidenceCap : UInt64 := 2

/-- Why settings are refused. -/
inductive SettingsFault where
  | tableOpLookaheadZero
  | screenEvidenceCapTooHigh
  | stepEvidenceCapTooHigh
  | minAutoFeatureScreensTooLow
deriving DecidableEq, Repr

/-- The fault in words. -/
def SettingsFault.message : SettingsFault → String
  | tableOpLookaheadZero => "analysis.table_op_lookahead must be at least 1"
  | screenEvidenceCapTooHigh => "features.screen_evidence_cap must be at most 3"
  | stepEvidenceCapTooHigh => "features.step_evidence_cap must be at most 2"
  | minAutoFeatureScreensTooLow => "features.min_auto_feature_screens must be at least 2"

/-- The refusal of settings in words. -/
def SettingsFault.text (f : SettingsFault) : String := "Invalid configuration: " ++ f.message

namespace CorpusSettings

/-- Files of up to 256 KiB, 64 MiB in all, in the usual languages, outside of dependencies and
build outputs. -/
def default : CorpusSettings where
  maxFileSize := 256 * 1024
  maxTotalSize := 64 * 1024 * 1024
  includeExtensions :=
    ["js", "ts", "jsx", "tsx", "mjs", "cjs", "svelte", "vue", "astro", "py", "go", "rs", "rb",
     "java", "kt", "sql", "json", "yaml", "yml", "toml", "example", "sample", "template"]
  includeFileNames := ["Dockerfile", "Procfile", ".env.example", ".env.sample"]
  excludeDirs :=
    [".git", ".svn", ".hg", "node_modules", "vendor", "venv", ".venv", "__pycache__", "target",
     "build", "dist", "out", "coverage", ".next", ".nuxt", ".svelte-kit", ".vercel", ".turbo",
     ".cache"]

end CorpusSettings

namespace Settings

/-- The built-in settings. -/
def default : Settings where
  corpus := .default
  analysis := ⟨0, 5, 6⟩
  features := ⟨3, 2, 2⟩

/-- The first rule that settings break. -/
def fault? (s : Settings) : Option SettingsFault :=
  if s.analysis.tableOpLookahead = 0 then some .tableOpLookaheadZero
  else if maxScreenEvidenceCap < s.features.screenEvidenceCap then some .screenEvidenceCapTooHigh
  else if maxStepEvidenceCap < s.features.stepEvidenceCap then some .stepEvidenceCapTooHigh
  else if s.features.minAutoFeatureScreens < 2 then some .minAutoFeatureScreensTooLow
  else none

/-- The defaults are valid. -/
theorem fault?_default : default.fault? = none := by decide

/-! ## Written form -/

/-- The settings with a written form; what is missing takes its default. -/
def ofJson? (j : Json) : Option Settings :=
  let d := default
  match j.record? ["corpus", "analysis", "features"] false with
  | some [corpus, analysis, features] => do
    return ⟨← Json.default? d.corpus corpusOfJson? corpus,
      ← Json.default? d.analysis analysisOfJson? analysis,
      ← Json.default? d.features featuresOfJson? features⟩
  | _ => none
where
  /-- The corpus settings with a written form. -/
  corpusOfJson? (j : Json) : Option CorpusSettings :=
    let d := CorpusSettings.default
    match j.record? ["max_file_size", "max_total_size", "include_extensions",
        "include_file_names", "exclude_dirs"] false with
    | some [file, total, extensions, names, dirs] => do
      return ⟨← Json.default? d.maxFileSize Json.word64? file,
        ← Json.default? d.maxTotalSize Json.word64? total,
        ← Json.default? d.includeExtensions Json.strings? extensions,
        ← Json.default? d.includeFileNames Json.strings? names,
        ← Json.default? d.excludeDirs Json.strings? dirs⟩
    | _ => none
  /-- The analysis settings with a written form. -/
  analysisOfJson? (j : Json) : Option AnalysisSettings :=
    let d := default.analysis
    match j.record? ["worker_threads", "table_op_lookahead", "fetch_method_lookahead"] false with
    | some [threads, table, fetch] => do
      return ⟨← Json.default? d.workerThreads Json.word64? threads,
        ← Json.default? d.tableOpLookahead Json.word64? table,
        ← Json.default? d.fetchMethodLookahead Json.word64? fetch⟩
    | _ => none
  /-- The feature settings with a written form. -/
  featuresOfJson? (j : Json) : Option FeatureSettings :=
    let d := default.features
    match j.record? ["screen_evidence_cap", "step_evidence_cap", "min_auto_feature_screens"]
        false with
    | some [screen, step, screens] => do
      return ⟨← Json.default? d.screenEvidenceCap Json.word64? screen,
        ← Json.default? d.stepEvidenceCap Json.word64? step,
        ← Json.default? d.minAutoFeatureScreens Json.word64? screens⟩
    | _ => none

/-- A number as a JSON value. -/
def word (n : UInt64) : Json := Json.ofNat n.toNat

/-- The written form of settings. -/
def toJson (s : Settings) : Json :=
  Json.obj
    [("corpus",
      Json.obj
        [("max_file_size", word s.corpus.maxFileSize),
         ("max_total_size", word s.corpus.maxTotalSize),
         ("include_extensions", Json.ofStrings s.corpus.includeExtensions),
         ("include_file_names", Json.ofStrings s.corpus.includeFileNames),
         ("exclude_dirs", Json.ofStrings s.corpus.excludeDirs)]),
     ("analysis",
      Json.obj
        [("worker_threads", word s.analysis.workerThreads),
         ("table_op_lookahead", word s.analysis.tableOpLookahead),
         ("fetch_method_lookahead", word s.analysis.fetchMethodLookahead)]),
     ("features",
      Json.obj
        [("screen_evidence_cap", word s.features.screenEvidenceCap),
         ("step_evidence_cap", word s.features.stepEvidenceCap),
         ("min_auto_feature_screens", word s.features.minAutoFeatureScreens)])]

end Settings
end ArchGraph
