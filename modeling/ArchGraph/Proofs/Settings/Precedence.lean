import ArchGraph.Analysis
import ArchGraph.Settings.Layers
import Mathlib.Data.List.Nodup
import Mathlib.Tactic.MkIffOfInductiveProp
/-!
# The precedence of settings

Every setting comes from the first of its sources that has it: a variable of the environment that
is a number, the file, or the defaults (`Layered`). Settings that come from their sources are handed
out if they keep the rules, and refused otherwise. Of the files the one of the project hides that of
the user. Main statement: `precedence_of_sources`.
-/

namespace ArchGraph

/-! ## Numbers of variables -/

theorem word_eq_some_iff {k : Nat} {n : UInt64} :
    (if k < Nat.pow 2 64 then some k.toUInt64 else none) = some n ↔ k = n.toNat := by
  have hn : n.toNat < Nat.pow 2 64 := n.toNat_lt
  split
  · next hk =>
    have hword : k.toUInt64.toNat = k := Nat.mod_eq_of_lt hk
    rw [Option.some.injEq, ← UInt64.toNat_inj, hword]
  · next hk =>
    refine ⟨nofun, fun h => ?_⟩
    exact absurd (h ▸ hn) hk

/-- A text is a number: digits, behind a plus sign or not, that are worth one of 64 bits. -/
def IsWord (text : String) (n : UInt64) : Prop :=
  ∃ digits, (text.toList = digits ∨ text.toList = '+' :: digits) ∧ digits ≠ [] ∧
    (∀ c ∈ digits, c.isDigit) ∧ Text.numeral 10 digits = n.toNat

theorem wordOfText?_eq_some_iff {text : String} {n : UInt64} :
    wordOfText? text = some n ↔ IsWord text n := by
  have hread (digits : Text.Chars) :
      (if digits.isEmpty || !digits.all Char.isDigit then none
        else
          let n := Text.numeral 10 digits
          if n < Nat.pow 2 64 then some n.toUInt64 else none) = some n ↔
        digits ≠ [] ∧ (∀ c ∈ digits, c.isDigit) ∧ Text.numeral 10 digits = n.toNat := by
    rw [← word_eq_some_iff, ← List.all_eq_true]
    cases digits with
    | nil => simp
    | cons d digits => cases (d :: digits).all Char.isDigit <;> simp
  unfold wordOfText?
  simp only
  split
  · next digits htext =>
    rw [hread, IsWord, htext]
    constructor
    · exact fun h => ⟨digits, .inr rfl, h⟩
    · rintro ⟨_, rfl | heq, h⟩
      · exact absurd (h.2.1 '+' List.mem_cons_self) (by decide)
      · rwa [(List.cons.inj heq).2]
  · next hplus =>
    rw [hread, IsWord]
    constructor
    · exact fun h => ⟨_, .inl rfl, h⟩
    · rintro ⟨digits, rfl | heq, h⟩
      · exact h
      · exact absurd heq (hplus digits)

namespace Environment

/-- A variable holds a number. -/
def Holds (env : Environment) (name : String) (n : UInt64) : Prop :=
  ∃ text, env.lookup name = some text ∧ IsWord text n

/-- The number that a variable holds, if it holds one. -/
def number? (env : Environment) (name : String) : Option UInt64 :=
  (env.lookup name).bind wordOfText?

theorem number?_eq_some_iff {env : Environment} {name : String} {n : UInt64} :
    env.number? name = some n ↔ env.Holds name n := by
  simp only [number?, Option.bind_eq_some_iff, wordOfText?_eq_some_iff, Holds]

theorem number?_eq_none_iff {env : Environment} {name : String} :
    env.number? name = none ↔ ∀ n, ¬ env.Holds name n := by
  simp only [Option.eq_none_iff_forall_ne_some, ne_eq, number?_eq_some_iff]

end Environment

namespace Toml

/-! ## Fields of documents -/

/-- Whether a value has fields. -/
def isRecord : Toml → Bool
  | table _ | arr _ | moment _ => true
  | _ => false

/-- The field of a value with one of some names: an entry of a table, or the item of an array at the
place of the name. -/
def field? (names : List String) (name : String) : Toml → Option Toml
  | table entries => entries.lookup name
  | arr items => items[names.idxOf name]?
  | _ => none

theorem record?_eq {names : List String} (h : names.Nodup) (t : Toml) : t.record? names =
    if t.isRecord then some (names.map fun name => t.field? names name) else none := by
  cases t with
  | arr items =>
    rw [record?, isRecord, if_pos rfl]
    refine congrArg some (List.ext_getElem (by simp) fun i hi hi' => ?_)
    simp only [List.length_map] at hi'
    simp [field?, h.idxOf_getElem]
  | _ => rfl

theorem default?_eq_some_iff {α : Type} {value x : α} {read : Toml → Option α}
    {field : Option Toml} : default? value read field = some x ↔
      (∀ t, field = some t → (read t).isSome) ∧ (field.bind read).getD value = x := by
  cases field with
  | none => simp [default?]
  | some t => cases h : read t <;> simp [default?, h]

end Toml

namespace Settings

/-! ## What can be set -/

/-- A section of settings. -/
inductive Section where
  | corpus
  | analysis
  | features
deriving DecidableEq, Repr

/-- The name of a section. -/
def Section.name : Section → String
  | corpus => "corpus"
  | analysis => "analysis"
  | features => "features"

/-- The names of the sections in their order. -/
def Section.names : List String := ["corpus", "analysis", "features"]

/-- The keys of a section in their order. -/
def Section.keys : Section → List String
  | corpus =>
    ["max_file_size", "max_total_size", "include_extensions", "include_file_names", "exclude_dirs"]
  | analysis => ["worker_threads", "table_op_lookahead", "fetch_method_lookahead"]
  | features => ["screen_evidence_cap", "step_evidence_cap", "min_auto_feature_screens"]

/-- A setting that is a number. -/
inductive WordSetting where
  | maxFileSize
  | maxTotalSize
  | workerThreads
  | tableOpLookahead
  | fetchMethodLookahead
  | screenEvidenceCap
  | stepEvidenceCap
  | minAutoFeatureScreens
deriving DecidableEq, Repr

namespace WordSetting

/-- The section of a number and its key. -/
def place : WordSetting → Section × String
  | maxFileSize => (.corpus, "max_file_size")
  | maxTotalSize => (.corpus, "max_total_size")
  | workerThreads => (.analysis, "worker_threads")
  | tableOpLookahead => (.analysis, "table_op_lookahead")
  | fetchMethodLookahead => (.analysis, "fetch_method_lookahead")
  | screenEvidenceCap => (.features, "screen_evidence_cap")
  | stepEvidenceCap => (.features, "step_evidence_cap")
  | minAutoFeatureScreens => (.features, "min_auto_feature_screens")

/-- The variable that overrides a number, for five of them. -/
def override? : WordSetting → Option String
  | maxFileSize => some "ARCHSCAN_MAX_FILE_SIZE"
  | maxTotalSize => some "ARCHSCAN_MAX_TOTAL_SIZE"
  | workerThreads => some "ARCHSCAN_WORKER_THREADS"
  | tableOpLookahead => some "ARCHSCAN_TABLE_OP_LOOKAHEAD"
  | minAutoFeatureScreens => some "ARCHSCAN_MIN_AUTO_FEATURE_SCREENS"
  | _ => none

/-- A number among settings. -/
def get (s : Settings) : WordSetting → UInt64
  | maxFileSize => s.corpus.maxFileSize
  | maxTotalSize => s.corpus.maxTotalSize
  | workerThreads => s.analysis.workerThreads
  | tableOpLookahead => s.analysis.tableOpLookahead
  | fetchMethodLookahead => s.analysis.fetchMethodLookahead
  | screenEvidenceCap => s.features.screenEvidenceCap
  | stepEvidenceCap => s.features.stepEvidenceCap
  | minAutoFeatureScreens => s.features.minAutoFeatureScreens

/-- Settings with another number. -/
def set (s : Settings) (n : UInt64) : WordSetting → Settings
  | maxFileSize => { s with corpus := { s.corpus with maxFileSize := n } }
  | maxTotalSize => { s with corpus := { s.corpus with maxTotalSize := n } }
  | workerThreads => { s with analysis := { s.analysis with workerThreads := n } }
  | tableOpLookahead => { s with analysis := { s.analysis with tableOpLookahead := n } }
  | fetchMethodLookahead => { s with analysis := { s.analysis with fetchMethodLookahead := n } }
  | screenEvidenceCap => { s with features := { s.features with screenEvidenceCap := n } }
  | stepEvidenceCap => { s with features := { s.features with stepEvidenceCap := n } }
  | minAutoFeatureScreens => { s with features := { s.features with minAutoFeatureScreens := n } }

theorem get_set (s : Settings) (n : UInt64) (w w' : WordSetting) :
    w'.get (w.set s n) = if w' = w then n else w'.get s := by
  cases w <;> cases w' <;> rfl

theorem override?_inj {w w' : WordSetting} {name : String} (h : w.override? = some name)
    (h' : w'.override? = some name) : w' = w := by
  cases w <;> cases h <;> cases w' <;> first | rfl | simp [override?] at h'

theorem forall_iff {p : WordSetting → Prop} : (∀ w, p w) ↔
    p .maxFileSize ∧ p .maxTotalSize ∧ p .workerThreads ∧ p .tableOpLookahead ∧
      p .fetchMethodLookahead ∧ p .screenEvidenceCap ∧ p .stepEvidenceCap ∧
        p .minAutoFeatureScreens :=
  ⟨fun h => ⟨h _, h _, h _, h _, h _, h _, h _, h _⟩, fun h w => by cases w <;> simp only [h]⟩

end WordSetting

/-- A setting that is a list of strings. -/
inductive ListSetting where
  | includeExtensions
  | includeFileNames
  | excludeDirs
deriving DecidableEq, Repr

namespace ListSetting

/-- The key of a list in the corpus section. -/
def key : ListSetting → String
  | includeExtensions => "include_extensions"
  | includeFileNames => "include_file_names"
  | excludeDirs => "exclude_dirs"

/-- A list among settings. -/
def get (s : Settings) : ListSetting → List String
  | includeExtensions => s.corpus.includeExtensions
  | includeFileNames => s.corpus.includeFileNames
  | excludeDirs => s.corpus.excludeDirs

theorem forall_iff {p : ListSetting → Prop} :
    (∀ l, p l) ↔ p .includeExtensions ∧ p .includeFileNames ∧ p .excludeDirs :=
  ⟨fun h => ⟨h _, h _, h _⟩, fun h l => by cases l <;> simp only [h]⟩

end ListSetting

/-! ## Sources -/

/-- What a document sets a key of a section to. -/
def written? (doc : Toml) (s : Section) (key : String) : Option Toml :=
  (doc.field? Section.names s.name).bind (Toml.field? s.keys key)

/-- The number that a document has for a setting, if any. -/
def WordSetting.ofDocument? (doc : Toml) (w : WordSetting) : Option Toml :=
  written? doc w.place.1 w.place.2

/-- What a document has for a list, if anything. -/
def ListSetting.ofDocument? (doc : Toml) (l : ListSetting) : Option Toml :=
  written? doc .corpus l.key

/-- A document that is accepted: it and its sections have fields, and what it sets is numbers where
these are due and lists of strings where those are. -/
structure Accepted (doc : Toml) : Prop where
  record   : doc.isRecord
  sections : ∀ (s : Section) t, doc.field? Section.names s.name = some t → t.isRecord
  words    : ∀ (w : WordSetting) t, w.ofDocument? doc = some t → t.word?.isSome
  lists    : ∀ (l : ListSetting) t, l.ofDocument? doc = some t → t.strings?.isSome

/-- A number in a file, or else the default. -/
def WordSetting.inFile (doc? : Option Toml) (w : WordSetting) : UInt64 :=
  ((doc?.bind w.ofDocument?).bind Toml.word?).getD (w.get default)

/-- A list in a file, or else the default. -/
def ListSetting.inFile (doc? : Option Toml) (l : ListSetting) : List String :=
  ((doc?.bind l.ofDocument?).bind Toml.strings?).getD (l.get default)

/-- Settings that come from their sources, each from the first one that has it. -/
structure Layered (env : Environment) (doc? : Option Toml) (s : Settings) : Prop where
  /-- A variable that is a number comes first. -/
  overridden : ∀ (w : WordSetting) name n, w.override? = some name → env.Holds name n → w.get s = n
  /-- Without one a number is that of the file or the default. -/
  kept : ∀ w : WordSetting, (∀ name n, w.override? = some name → ¬ env.Holds name n) →
    w.get s = w.inFile doc?
  /-- No variable overrides a list. -/
  lists : ∀ l : ListSetting, l.get s = l.inFile doc?

/-- The number of the variable that overrides a setting, if there is one. -/
def WordSetting.inEnvironment? (env : Environment) (w : WordSetting) : Option UInt64 :=
  w.override?.bind env.number?

theorem WordSetting.inEnvironment?_nil (w : WordSetting) : w.inEnvironment? [] = none := by
  cases w <;> rfl

theorem layered_iff {env : Environment} {doc? : Option Toml} {s : Settings} : Layered env doc? s ↔
    (∀ w : WordSetting, w.get s = (w.inEnvironment? env).getD (w.inFile doc?)) ∧
      ∀ l : ListSetting, l.get s = l.inFile doc? := by
  have hholds (w : WordSetting) (n : UInt64) :
      w.inEnvironment? env = some n ↔ ∃ name, w.override? = some name ∧ env.Holds name n := by
    simp only [WordSetting.inEnvironment?, Option.bind_eq_some_iff, Environment.number?_eq_some_iff]
  constructor
  · intro h
    refine ⟨fun w => ?_, h.lists⟩
    cases hn : w.inEnvironment? env with
    | none =>
      refine h.kept w fun name n hw hname => ?_
      rw [(hholds w n).2 ⟨name, hw, hname⟩] at hn
      cases hn
    | some n =>
      obtain ⟨name, hw, hname⟩ := (hholds w n).1 hn
      exact h.overridden w name n hw hname
  · rintro ⟨hwords, hlists⟩
    refine ⟨fun w name n hw hname => ?_, fun w hw => ?_, hlists⟩
    · rw [hwords w, (hholds w n).2 ⟨name, hw, hname⟩]
      rfl
    · have hn : w.inEnvironment? env = none := Option.eq_none_iff_forall_ne_some.2 fun n hn => by
        obtain ⟨name, hover, hname⟩ := (hholds w n).1 hn
        exact hw name n hover hname
      rw [hwords w, hn]
      rfl

theorem Layered.words {env : Environment} {doc? : Option Toml} {s : Settings}
    (h : Layered env doc? s) (w : WordSetting) :
    w.get s = (w.inEnvironment? env).getD (w.inFile doc?) := (layered_iff.1 h).1 w

theorem Layered.unique {env : Environment} {doc? : Option Toml} {s s' : Settings}
    (h : Layered env doc? s) (h' : Layered env doc? s') : s = s' := by
  have hwords := WordSetting.forall_iff.1 fun w => (h.words w).trans (h'.words w).symm
  have hlists := ListSetting.forall_iff.1 fun l => (h.lists l).trans (h'.lists l).symm
  obtain ⟨⟨_, _, _, _, _⟩, ⟨_, _, _⟩, _, _, _⟩ := s
  obtain ⟨⟨_, _, _, _, _⟩, ⟨_, _, _⟩, _, _, _⟩ := s'
  simp only [WordSetting.get, ListSetting.get] at hwords hlists
  obtain ⟨rfl, rfl, rfl, rfl, rfl, rfl, rfl, rfl⟩ := hwords
  obtain ⟨rfl, rfl, rfl⟩ := hlists
  rfl

/-- The environment overrides what comes from a file or the defaults. -/
theorem Layered.withEnvironment {doc? : Option Toml} {s : Settings} (h : Layered [] doc? s)
    (env : Environment) : Layered env doc? (s.withEnvironment env) := by
  refine layered_iff.2 ⟨fun w => ?_, fun l => ?_⟩
  · have hw : w.get s = w.inFile doc? := by
      rw [h.words w]
      cases w <;> rfl
    rw [← hw]
    cases w <;> rfl
  · rw [← h.lists l]
    cases l <;> rfl

theorem layered_default : Layered [] none default :=
  layered_iff.2 ⟨fun w => by cases w <;> rfl, fun l => by cases l <;> rfl⟩

/-! ## Documents -/

section Documents

variable {doc t : Toml} {s : Settings}

open Toml (default? default?_eq_some_iff record?_eq)

/-- A number of a document is read as it is, and where there is none as the default. -/
def WordSetting.Reads (doc : Toml) (w : WordSetting) (n : UInt64) : Prop :=
  default? (w.get default) Toml.word? (w.ofDocument? doc) = some n

/-- A list of a document is read as it is, and where there is none as the default. -/
def ListSetting.Reads (doc : Toml) (l : ListSetting) (texts : List String) : Prop :=
  default? (l.get default) Toml.strings? (l.ofDocument? doc) = some texts

/-- A section of a document has fields. -/
def Section.Stands (doc : Toml) (s : Section) : Prop :=
  ∀ t, doc.field? Section.names s.name = some t → t.isRecord

theorem corpus_read_iff {c : CorpusSettings} :
    default? default.corpus corpusOfToml? (doc.field? Section.names "corpus") = some c ↔
      Section.Stands doc .corpus ∧
        WordSetting.Reads doc .maxFileSize c.maxFileSize ∧
        WordSetting.Reads doc .maxTotalSize c.maxTotalSize ∧
        ListSetting.Reads doc .includeExtensions c.includeExtensions ∧
        ListSetting.Reads doc .includeFileNames c.includeFileNames ∧
        ListSetting.Reads doc .excludeDirs c.excludeDirs := by
  obtain ⟨_, _, _, _, _⟩ := c
  simp only [Section.Stands, Section.name, WordSetting.Reads, ListSetting.Reads,
    WordSetting.ofDocument?, ListSetting.ofDocument?, WordSetting.place, ListSetting.key, written?]
  cases doc.field? Section.names "corpus" with
  | none => simp [default?, WordSetting.get, ListSetting.get, default, CorpusSettings.default]
  | some t =>
    rw [default?, corpusOfToml?, record?_eq (by decide)]
    cases h : t.isRecord <;>
      simp [h, Section.keys, Option.bind_eq_some_iff, WordSetting.get, ListSetting.get, default]

theorem analysis_read_iff {a : AnalysisSettings} :
    default? default.analysis analysisOfToml? (doc.field? Section.names "analysis") = some a ↔
      Section.Stands doc .analysis ∧
        WordSetting.Reads doc .workerThreads a.workerThreads ∧
        WordSetting.Reads doc .tableOpLookahead a.tableOpLookahead ∧
        WordSetting.Reads doc .fetchMethodLookahead a.fetchMethodLookahead := by
  obtain ⟨_, _, _⟩ := a
  simp only [Section.Stands, Section.name, WordSetting.Reads, WordSetting.ofDocument?,
    WordSetting.place, written?]
  cases doc.field? Section.names "analysis" with
  | none => simp [default?, WordSetting.get, default]
  | some t =>
    rw [default?, analysisOfToml?, record?_eq (by decide)]
    cases h : t.isRecord <;>
      simp [h, Section.keys, Option.bind_eq_some_iff, WordSetting.get, default]

theorem features_read_iff {f : FeatureSettings} :
    default? default.features featuresOfToml? (doc.field? Section.names "features") = some f ↔
      Section.Stands doc .features ∧
        WordSetting.Reads doc .screenEvidenceCap f.screenEvidenceCap ∧
        WordSetting.Reads doc .stepEvidenceCap f.stepEvidenceCap ∧
        WordSetting.Reads doc .minAutoFeatureScreens f.minAutoFeatureScreens := by
  obtain ⟨_, _, _⟩ := f
  simp only [Section.Stands, Section.name, WordSetting.Reads, WordSetting.ofDocument?,
    WordSetting.place, written?]
  cases doc.field? Section.names "features" with
  | none => simp [default?, WordSetting.get, default]
  | some t =>
    rw [default?, featuresOfToml?, record?_eq (by decide)]
    cases h : t.isRecord <;>
      simp [h, Section.keys, Option.bind_eq_some_iff, WordSetting.get, default]

theorem WordSetting.reads_iff {w : WordSetting} {n : UInt64} : w.Reads doc n ↔
    (∀ t, w.ofDocument? doc = some t → t.word?.isSome) ∧ w.inFile (some doc) = n :=
  default?_eq_some_iff

theorem ListSetting.reads_iff {l : ListSetting} {texts : List String} : l.Reads doc texts ↔
    (∀ t, l.ofDocument? doc = some t → t.strings?.isSome) ∧ l.inFile (some doc) = texts :=
  default?_eq_some_iff

/-- **Reading a document** succeeds exactly if it is accepted, and leads to what it sets beside the
defaults. -/
theorem ofToml?_eq_some_iff : ofToml? doc = some s ↔ Accepted doc ∧ Layered [] (some doc) s := by
  have hread : ofToml? doc = some s ↔ doc.isRecord ∧
      default? default.corpus corpusOfToml? (doc.field? Section.names "corpus") = some s.corpus ∧
      default? default.analysis analysisOfToml? (doc.field? Section.names "analysis") =
        some s.analysis ∧
      default? default.features featuresOfToml? (doc.field? Section.names "features") =
        some s.features := by
    obtain ⟨_, _, _⟩ := s
    rw [ofToml?, record?_eq (by decide)]
    cases doc.isRecord <;> simp [Section.names, Option.bind_eq_some_iff]
  rw [hread, corpus_read_iff, analysis_read_iff, features_read_iff]
  constructor
  · rintro ⟨hrecord, ⟨hcorpus, hfile, htotal, hextensions, hnames, hdirs⟩,
      ⟨hanalysis, hthreads, htable, hfetch⟩, hfeatures, hscreen, hstep, hscreens⟩
    have hwords : ∀ w : WordSetting, w.Reads doc (w.get s) := WordSetting.forall_iff.2
      ⟨hfile, htotal, hthreads, htable, hfetch, hscreen, hstep, hscreens⟩
    have hlists : ∀ l : ListSetting, l.Reads doc (l.get s) := ListSetting.forall_iff.2
      ⟨hextensions, hnames, hdirs⟩
    refine ⟨⟨hrecord, fun c => ?_, fun w => (WordSetting.reads_iff.1 (hwords w)).1,
      fun l => (ListSetting.reads_iff.1 (hlists l)).1⟩, layered_iff.2 ⟨fun w => ?_, fun l => ?_⟩⟩
    · cases c
      · exact hcorpus
      · exact hanalysis
      · exact hfeatures
    · rw [WordSetting.inEnvironment?_nil]
      exact (WordSetting.reads_iff.1 (hwords w)).2.symm
    · exact (ListSetting.reads_iff.1 (hlists l)).2.symm
  · rintro ⟨hdoc, hs⟩
    have hwords (w : WordSetting) : w.Reads doc (w.get s) :=
      WordSetting.reads_iff.2 ⟨hdoc.words w, by
        rw [hs.words w, WordSetting.inEnvironment?_nil]
        rfl⟩
    have hlists (l : ListSetting) : l.Reads doc (l.get s) :=
      ListSetting.reads_iff.2 ⟨hdoc.lists l, (hs.lists l).symm⟩
    exact ⟨hdoc.record,
      ⟨hdoc.sections .corpus, hwords .maxFileSize, hwords .maxTotalSize, hlists .includeExtensions,
        hlists .includeFileNames, hlists .excludeDirs⟩,
      ⟨hdoc.sections .analysis, hwords .workerThreads, hwords .tableOpLookahead,
        hwords .fetchMethodLookahead⟩,
      hdoc.sections .features, hwords .screenEvidenceCap, hwords .stepEvidenceCap,
        hwords .minAutoFeatureScreens⟩

/-- What a document sets can be put together. -/
theorem exists_layered (doc : Toml) : ∃ s, Layered [] (some doc) s := by
  let word (w : WordSetting) := w.inFile (some doc)
  let list (l : ListSetting) := l.inFile (some doc)
  refine ⟨⟨⟨word .maxFileSize, word .maxTotalSize, list .includeExtensions,
    list .includeFileNames, list .excludeDirs⟩,
    ⟨word .workerThreads, word .tableOpLookahead, word .fetchMethodLookahead⟩,
    ⟨word .screenEvidenceCap, word .stepEvidenceCap, word .minAutoFeatureScreens⟩⟩,
    layered_iff.2 ⟨fun w => ?_, fun l => ?_⟩⟩
  · cases w <;> rfl
  · cases l <;> rfl

end Documents

/-! ## Rules -/

/-- The rules of settings. -/
@[mk_iff]
structure Valid (s : Settings) : Prop where
  tableOpLookahead      : 1 ≤ s.analysis.tableOpLookahead.toNat
  screenEvidenceCap     : s.features.screenEvidenceCap.toNat ≤ 3
  stepEvidenceCap       : s.features.stepEvidenceCap.toNat ≤ 2
  minAutoFeatureScreens : 2 ≤ s.features.minAutoFeatureScreens.toNat

theorem fault?_eq_none_iff {s : Settings} : s.fault? = none ↔ s.Valid := by
  have htable : s.analysis.tableOpLookahead = 0 ↔ ¬ 1 ≤ s.analysis.tableOpLookahead.toNat := by
    rw [← UInt64.toNat_inj, UInt64.toNat_zero]
    omega
  rw [valid_iff, fault?]
  simp only [htable, UInt64.lt_iff_toNat_lt, maxScreenEvidenceCap, maxStepEvidenceCap]
  grind

/-! ## Queries -/

/-- What settings are asked of: a file, or the surroundings of a program. -/
inductive Query where
  | file (environment : Environment) (file : FileTree)
  | surroundings (h : Host)

namespace Query

/-- The environment of a query. -/
def environment : Query → Environment
  | file environment _ => environment
  | surroundings h => h.environment

/-- The file of a query: in the surroundings of a program that of the project, or else that of the
user. -/
def file? : Query → Option FileTree
  | file _ f => some f
  | surroundings h => (h.find? projectFile).or ((userFile? h).bind h.find?)

/-- What a query is answered with. -/
def answer : Query → Except SettingsError Settings
  | file environment f => ofFile environment (some f)
  | surroundings h => effective h

/-- The query with other variables. The variables of settings do not move any file: the directory
for the settings of the user stays. -/
def withEnvironment (env : Environment) : Query → Query
  | file _ f => file env f
  | surroundings h => surroundings { h with environment := env }

end Query

/-- Files that are accepted, with their documents; there may be none. -/
inductive Accepts : Option FileTree → Option Toml → Prop
  | nothing : Accepts none none
  | document {file : FileTree} {text : String} {doc : Toml} (htext : file.text? = some text)
      (hdoc : Toml.ofText? text = some doc) (h : Accepted doc) : Accepts (some file) (some doc)

/-- Texts that can be read are those that hold an accepted document. -/
theorem exists_accepts {file : FileTree} {text : String} {s : Settings}
    (htext : file.text? = some text) (hs : ofText? text = some s) :
    ∃ doc, Accepts (some file) (some doc) := by
  obtain ⟨doc, hdoc, hread⟩ := Option.bind_eq_some_iff.1 hs
  exact ⟨doc, .document htext hdoc (ofToml?_eq_some_iff.1 hread).1⟩

variable {q : Query} {doc? : Option Toml}

theorem Query.answer_of_file {file : FileTree} (h : q.file? = some file) :
    q.answer = ofFile q.environment (some file) := by
  cases q with
  | file environment f =>
    rw [← h]
    rfl
  | surroundings host =>
    rw [Query.file?] at h
    rw [Query.answer, effective, Query.environment]
    cases hp : host.find? projectFile with
    | some f =>
      rw [hp, Option.some_or] at h
      rw [h]
    | none =>
      rw [hp, Option.none_or] at h
      rw [h]

theorem Query.answer_of_none (h : q.file? = none) :
    q.answer = (default.withEnvironment q.environment).checked := by
  cases q with
  | file environment f => cases h
  | surroundings host =>
    obtain ⟨hp, hu⟩ := Option.or_eq_none_iff.1 h
    rw [Query.answer, effective, hp, hu]
    rfl

/-- A query is answered with what comes from its sources, if that keeps the rules. -/
theorem Query.answer_eq (h : Accepts q.file? doc?) :
    ∃ s, Layered q.environment doc? s ∧ q.answer = s.checked := by
  generalize hfile : q.file? = file? at h
  cases h with
  | nothing => exact ⟨_, layered_default.withEnvironment _, answer_of_none hfile⟩
  | document htext hdoc haccepted =>
    obtain ⟨s, hs⟩ := exists_layered _
    refine ⟨_, hs.withEnvironment _, ?_⟩
    have hread := ofToml?_eq_some_iff.2 ⟨haccepted, hs⟩
    rw [answer_of_file hfile, ofFile, Option.bind_some, htext]
    simp only [ofText, ofText?, hdoc, Option.bind_some, hread]

/-- A file that holds no accepted document is refused for that. -/
theorem Query.answer_of_not_accepts {file : FileTree} (h : q.file? = some file)
    (hdoc : ∀ doc, ¬ Accepts (some file) (some doc)) :
    q.answer = .error .unreadable ∨ q.answer = .error .malformed := by
  rw [answer_of_file h, ofFile, Option.bind_some]
  cases htext : file.text? with
  | none => exact .inl rfl
  | some text =>
    cases hs : ofText? text with
    | none => exact .inr (by simp only [ofText, hs])
    | some s =>
      obtain ⟨doc, haccepts⟩ := exists_accepts htext hs
      exact absurd haccepts (hdoc doc)

/-! ## Changes of the environment -/

theorem lookup_filter_ne (name other : String) : ∀ env : Environment,
    (env.filter (·.1 ≠ name)).lookup other = if other = name then none else env.lookup other
  | [] => by simp
  | (key, text) :: env => by
    have ih := lookup_filter_ne name other env
    by_cases hk : key = name
    · rw [List.filter_cons_of_neg (by simpa using hk), ih, hk]
      split
      · rfl
      · next ho => rw [List.lookup_cons, beq_false_of_ne ho]
    · rw [List.filter_cons_of_pos (by simpa using hk), List.lookup_cons, List.lookup_cons, ih]
      by_cases ho : other = key
      · simp [ho, hk]
      · simp [beq_false_of_ne ho]

theorem Query.file?_withEnvironment (env : Environment) (q : Query) :
    (q.withEnvironment env).file? = q.file? := by
  cases q <;> rfl

theorem Query.answer_withEnvironment {env : Environment} {s : Settings} (hq : Accepts q.file? doc?)
    (hs : Layered env doc? s) : (q.withEnvironment env).answer = s.checked := by
  have henv : (q.withEnvironment env).environment = env := by cases q <;> rfl
  rw [← Query.file?_withEnvironment env] at hq
  obtain ⟨s', hs', hanswer⟩ := answer_eq hq
  rw [henv] at hs'
  rw [hanswer, hs'.unique hs]

/-- A variable that is no number is as good as none. -/
theorem Layered.without {env : Environment} {s : Settings} {name : String}
    (h : Layered env doc? s) (hn : ∀ n, ¬ env.Holds name n) :
    Layered (env.filter (·.1 ≠ name)) doc? s := by
  refine layered_iff.2 ⟨fun w => ?_, h.lists⟩
  have hsame : w.inEnvironment? (env.filter (·.1 ≠ name)) = w.inEnvironment? env := by
    refine Option.bind_congr fun other _ => ?_
    rw [Environment.number?, lookup_filter_ne]
    split
    · next ho => rw [ho, Environment.number?_eq_none_iff.2 hn]; rfl
    · rfl
  rw [h.words w, hsame]

/-- A variable overrides its own setting and no other one. -/
theorem Layered.override {env : Environment} {s : Settings} {w : WordSetting} {name text : String}
    {n : UInt64} (h : Layered env doc? s) (hw : w.override? = some name)
    (hn : IsWord text n) : Layered ((name, text) :: env) doc? (w.set s n) := by
  refine layered_iff.2 ⟨fun w' => ?_, fun l => ?_⟩
  · rw [WordSetting.get_set]
    split
    · next heq =>
      subst heq
      simp [WordSetting.inEnvironment?, Environment.number?, hw, wordOfText?_eq_some_iff.2 hn]
    · next hne =>
      have hsame : w'.inEnvironment? ((name, text) :: env) = w'.inEnvironment? env := by
        refine Option.bind_congr fun other hother => ?_
        have ho : other ≠ name := fun ho => hne (WordSetting.override?_inj hw (ho ▸ hother))
        rw [Environment.number?, List.lookup_cons, beq_false_of_ne ho]
        rfl
      rw [h.words w', hsame]
  · rw [← h.lists l]
    cases w <;> cases l <;> rfl

/-! ## Precedence -/

/-- What the precedence of sources comes to for a query, where its file holds a document. -/
structure Precedence (q : Query) (doc? : Option Toml) : Prop where
  /-- The sources determine all settings. -/
  determined : ∃! s, Layered q.environment doc? s
  /-- Settings are handed out if they come from their sources and keep the rules. -/
  answered : ∀ s, q.answer = .ok s ↔ Layered q.environment doc? s ∧ s.Valid
  /-- Otherwise a rule is named that they break. -/
  refused : ∀ e, q.answer = .error e → ∃ fault, e = .invalid fault
  /-- A variable that is no number has no effect. -/
  ignored : ∀ (w : WordSetting) name, w.override? = some name →
    (∀ n, ¬ q.environment.Holds name n) →
      (q.withEnvironment (q.environment.filter (·.1 ≠ name))).answer = q.answer
  /-- A variable that is a number sets its own setting and no other one. -/
  overridden : ∀ (w : WordSetting) name text n s, w.override? = some name → IsWord text n →
    Layered q.environment doc? s → ∀ s',
      (q.withEnvironment ((name, text) :: q.environment)).answer = .ok s' ↔
        s' = w.set s n ∧ s'.Valid
  /-- A variable breaks what comes from any file. -/
  broken : ∃ name text, ∀ s, (q.withEnvironment ((name, text) :: q.environment)).answer ≠ .ok s
  /-- A variable repairs a file that breaks but the rule about its setting. -/
  repaired : ∀ s, Layered q.environment doc? s → (WordSetting.tableOpLookahead.set s 1).Valid →
    ∃ name text s', (q.withEnvironment ((name, text) :: q.environment)).answer = .ok s'
  /-- Analyses work with all settings that are handed out. -/
  worked : ∀ s, q.answer = .ok s → ∀ (t : Discovery.Task) stages, t.settings = s →
    Analysis.run t stages = .ok (Analysis.ofStages t stages)

/-- A variable that is a number overrides its setting in what a query is answered with. -/
theorem Query.answer_override (hq : Accepts q.file? doc?) {s : Settings} {w : WordSetting}
    {name text : String} {n : UInt64} (hs : Layered q.environment doc? s)
    (hw : w.override? = some name) (hn : IsWord text n) :
    (q.withEnvironment ((name, text) :: q.environment)).answer = (w.set s n).checked :=
  answer_withEnvironment hq (hs.override hw hn)

theorem checked_eq_ok_iff_valid {s t : Settings} : s.checked = .ok t ↔ t = s ∧ t.Valid := by
  rw [checked_eq_ok_iff, fault?_eq_none_iff, eq_comm]

/-- Files that hold an accepted document, and queries without a file, follow the precedence. -/
theorem precedence_of_accepts (h : Accepts q.file? doc?) : Precedence q doc? := by
  obtain ⟨s, hs, hanswer⟩ := Query.answer_eq h
  have hlookahead :
      WordSetting.tableOpLookahead.override? = some "ARCHSCAN_TABLE_OP_LOOKAHEAD" := rfl
  constructor
  case determined => exact ⟨s, hs, fun s' hs' => hs'.unique hs⟩
  case answered =>
    intro s'
    rw [hanswer, checked_eq_ok_iff_valid]
    constructor
    · rintro ⟨rfl, hvalid⟩
      exact ⟨hs, hvalid⟩
    · rintro ⟨hs', hvalid⟩
      exact ⟨hs'.unique hs, hvalid⟩
  case refused =>
    intro e he
    rw [hanswer, checked] at he
    split at he
    · exact ⟨_, (Except.error.inj he).symm⟩
    · cases he
  case ignored =>
    intro w name hw hn
    rw [hanswer]
    exact Query.answer_withEnvironment h (hs.without hn)
  case overridden =>
    intro w name text n s₀ hw hn hs₀ s'
    rw [Query.answer_override h hs₀ hw hn, checked_eq_ok_iff_valid]
  case broken =>
    have hzero : IsWord "0" 0 := wordOfText?_eq_some_iff.1 (by decide)
    refine ⟨"ARCHSCAN_TABLE_OP_LOOKAHEAD", "0", fun s' => ?_⟩
    rw [Query.answer_override h hs hlookahead hzero, ne_eq, checked_eq_ok_iff_valid]
    rintro ⟨rfl, hvalid⟩
    exact absurd hvalid.tableOpLookahead (by simp [WordSetting.set])
  case repaired =>
    intro s₀ hs₀ hvalid
    have hone : IsWord "1" 1 := wordOfText?_eq_some_iff.1 (by decide)
    refine ⟨"ARCHSCAN_TABLE_OP_LOOKAHEAD", "1", WordSetting.set s₀ 1 .tableOpLookahead, ?_⟩
    rw [Query.answer_override h hs₀ hlookahead hone, checked_eq_ok_iff_valid]
    exact ⟨rfl, hvalid⟩
  case worked =>
    rintro s' hs' t stages rfl
    rw [hanswer, checked_eq_ok_iff] at hs'
    rw [Analysis.run, hs'.2]

/-- **The precedence of sources.** What a query is answered with follows the precedence of its
sources if its file holds an accepted document or if there is no file; files that hold none are
refused. The file of the project, whatever it holds, hides that of the user, which stands in the
directory that the platform names. -/
theorem precedence_of_sources (q : Query) :
    (∀ doc?, Accepts q.file? doc? → Precedence q doc?) ∧
    (∀ file, q.file? = some file → (∀ doc, ¬ Accepts (some file) (some doc)) →
      q.answer = .error .unreadable ∨ q.answer = .error .malformed) ∧
    (∀ h file, q = .surroundings h → h.find? projectFile = some file →
      q.answer = ofFile h.environment (some file)) ∧
    ∀ h dir file, q = .surroundings h → h.find? projectFile = none → h.configDir = some dir →
      h.find? (dir ++ "/archscan/config.toml") = some file →
        q.answer = ofFile h.environment (some file) := by
  refine ⟨fun doc? => precedence_of_accepts, fun file => Query.answer_of_not_accepts, ?_, ?_⟩
  · rintro host file rfl hfile
    have hq : (Query.surroundings host).file? = some file := by
      rw [Query.file?, hfile, Option.some_or]
    exact Query.answer_of_file hq
  · rintro host dir file rfl hnone hdir hfile
    have hq : (Query.surroundings host).file? = some file := by
      rw [Query.file?, hnone, Option.none_or, userFile?, hdir, Option.map_some, Option.bind_some,
        hfile]
    exact Query.answer_of_file hq

/-- A project whose file breaks a rule, with a variable that repairs it, one that is no number, and
a file of the user that is hidden. -/
def repairedHost : Host where
  root := .dir
    [("archscan.toml", .file "[analysis]\ntable_op_lookahead = 0\n".toUTF8),
     ("u", .dir [("archscan", .dir [("config.toml", .file "[corpus".toUTF8)])])]
  workingDir := []
  environment :=
    [("ARCHSCAN_TABLE_OP_LOOKAHEAD", "+4"), ("ARCHSCAN_MAX_TOTAL_SIZE", "lots")]
  configDir := some "/u"
  git := fun _ => .none

theorem precedence_repairedHost :
    let q := Query.surroundings repairedHost
    ∃ doc, Accepts q.file? (some doc) ∧ Precedence q (some doc) ∧
      q.answer = .ok (WordSetting.set default 4 .tableOpLookahead) ∧
      (q.withEnvironment []).answer = .error (.invalid .tableOpLookaheadZero) := by
  intro q
  have hread : ∃ file s, q.file? = some file ∧ file.text?.bind ofText? = some s :=
    ⟨_, WordSetting.set default 0 .tableOpLookahead, rfl, by decide +kernel⟩
  obtain ⟨file, s, hfile, hs⟩ := hread
  obtain ⟨text, htext, hs⟩ := Option.bind_eq_some_iff.1 hs
  obtain ⟨doc, hdoc⟩ := exists_accepts htext hs
  rw [← hfile] at hdoc
  exact ⟨doc, hdoc, (precedence_of_sources q).1 _ hdoc, by decide +kernel, by decide +kernel⟩

end Settings
end ArchGraph
