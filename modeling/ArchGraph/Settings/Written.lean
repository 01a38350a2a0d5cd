import ArchGraph.Settings.Basic
import ArchGraph.Toml.Parser
import ArchGraph.Toml.Printer
/-!
# Settings as TOML

Settings as they are read from a file and written to one. What a file does not set keeps its
default, and what it sets beyond the settings is not read.
-/

namespace ArchGraph

namespace Toml

/-- The fields of a record by their names: the entries of a table, or the items of an array in
order. A point in time has no fields. -/
def record? (names : List String) : Toml → Option (List (Option Toml))
  | table entries => some (names.map fun name => entries.lookup name)
  | arr items => some ((List.range names.length).map fun i => items[i]?)
  | moment _ => some (names.map fun _ => none)
  | _ => none

/-- A field with a default value. -/
def default? {α : Type} (value : α) (read : Toml → Option α) : Option Toml → Option α
  | none => some value
  | some t => read t

/-- A number that is not negative. -/
def word? : Toml → Option UInt64
  | int n => if 0 ≤ n then some n.toNat.toUInt64 else none
  | _ => none

/-- Strings in an array. -/
def strings? : Toml → Option (List String)
  | arr items => items.mapM str?
  | _ => none

end Toml

namespace Settings

/-- The corpus settings of a table. -/
def corpusOfToml? (t : Toml) : Option CorpusSettings :=
  let d := CorpusSettings.default
  match t.record? ["max_file_size", "max_total_size", "include_extensions", "include_file_names",
      "exclude_dirs"] with
  | some [file, total, extensions, names, dirs] => do
    return ⟨← Toml.default? d.maxFileSize Toml.word? file,
      ← Toml.default? d.maxTotalSize Toml.word? total,
      ← Toml.default? d.includeExtensions Toml.strings? extensions,
      ← Toml.default? d.includeFileNames Toml.strings? names,
      ← Toml.default? d.excludeDirs Toml.strings? dirs⟩
  | _ => none

/-- The analysis settings of a table. -/
def analysisOfToml? (t : Toml) : Option AnalysisSettings :=
  let d := default.analysis
  match t.record? ["worker_threads", "table_op_lookahead", "fetch_method_lookahead"] with
  | some [threads, table, fetch] => do
    return ⟨← Toml.default? d.workerThreads Toml.word? threads,
      ← Toml.default? d.tableOpLookahead Toml.word? table,
      ← Toml.default? d.fetchMethodLookahead Toml.word? fetch⟩
  | _ => none

/-- The feature settings of a table. -/
def featuresOfToml? (t : Toml) : Option FeatureSettings :=
  let d := default.features
  match t.record? ["screen_evidence_cap", "step_evidence_cap", "min_auto_feature_screens"] with
  | some [screen, step, screens] => do
    return ⟨← Toml.default? d.screenEvidenceCap Toml.word? screen,
      ← Toml.default? d.stepEvidenceCap Toml.word? step,
      ← Toml.default? d.minAutoFeatureScreens Toml.word? screens⟩
  | _ => none

/-- The settings of a document. -/
def ofToml? (t : Toml) : Option Settings :=
  match t.record? ["corpus", "analysis", "features"] with
  | some [corpus, analysis, features] => do
    return ⟨← Toml.default? default.corpus corpusOfToml? corpus,
      ← Toml.default? default.analysis analysisOfToml? analysis,
      ← Toml.default? default.features featuresOfToml? features⟩
  | _ => none

/-- The settings of a text. -/
def ofText? (text : String) : Option Settings := (Toml.ofText? text).bind ofToml?

/-- The document that settings are written to, unless one of their numbers is too large. -/
def text? (s : Settings) : Option String :=
  Toml.documentText?
    [("corpus",
      [("max_file_size", .word s.corpus.maxFileSize),
       ("max_total_size", .word s.corpus.maxTotalSize),
       ("include_extensions", .strings s.corpus.includeExtensions),
       ("include_file_names", .strings s.corpus.includeFileNames),
       ("exclude_dirs", .strings s.corpus.excludeDirs)]),
     ("analysis",
      [("worker_threads", .word s.analysis.workerThreads),
       ("table_op_lookahead", .word s.analysis.tableOpLookahead),
       ("fetch_method_lookahead", .word s.analysis.fetchMethodLookahead)]),
     ("features",
      [("screen_evidence_cap", .word s.features.screenEvidenceCap),
       ("step_evidence_cap", .word s.features.stepEvidenceCap),
       ("min_auto_feature_screens", .word s.features.minAutoFeatureScreens)])]

end Settings
end ArchGraph
