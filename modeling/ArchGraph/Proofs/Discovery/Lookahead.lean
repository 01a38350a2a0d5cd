import ArchGraph.Analysis
import ArchGraph.Proofs.Discovery.Attribution
import ArchGraph.Settings.Layers
import Mathlib.Algebra.Group.Nat.Defs
import Mathlib.Data.List.Infix
/-!
# Looking ahead in 64-bit words

Accesses to tables and options of fetches go on below their line, as far as a setting says. The
last line that is read is the sum of a place and of the setting in 64-bit words, and only the lower
bound of the settings is checked. As long as the sum fits a word, exactly the lines that were asked
for are read (`Site.ahead_of_lt`), and with a greater setting no less than before. A sum that does
not fit stops a program in which sums are checked (`ofStages?_eq_none_iff`); in another one it
wraps, and nothing is read of the lines below (`Site.ahead_of_le`). With the greatest word that is
so from the second line of every file on, and the environment can set it (`lookahead_shortens`).
-/

namespace ArchGraph.Discovery

open Text (Chars joinWith)

/-- What is looked for ahead: the operation on a table, or the method among the options of a
fetch. -/
inductive Lookahead where
  | tableOp
  | fetchMethod
deriving DecidableEq, Repr

/-- How far settings let it be looked for. -/
def Lookahead.of (settings : Settings) : Lookahead → UInt64
  | tableOp => settings.analysis.tableOpLookahead
  | fetchMethod => settings.analysis.fetchMethodLookahead

/-! ## Texts of lines -/

/-- More lines are joined to a longer text. -/
theorem joinWith_prefix {sep : Chars} : ∀ {front all : List Chars}, front <+: all →
    joinWith sep front <+: joinWith sep all
  | [], all, _ => List.nil_prefix
  | [line], all, h => by
    obtain ⟨rest, rfl⟩ := h
    cases rest with
    | nil => exact List.prefix_rfl
    | cons next rest =>
      rw [joinWith, joinWith, List.intercalate_singleton, List.singleton_append,
        List.intercalate_cons_cons, List.append_assoc]
      exact List.prefix_append _ _
  | line :: next :: front, all, h => by
    obtain ⟨rest, rfl⟩ := h
    have ih : joinWith sep (next :: front) <+: joinWith sep (next :: front ++ rest) :=
      joinWith_prefix (List.prefix_append _ _)
    unfold joinWith at ih ⊢
    rw [List.cons_append, List.cons_append, List.intercalate_cons_cons, List.intercalate_cons_cons]
    exact (List.prefix_append_right_inj _).2 ih

namespace Site

variable {s : Site} {place : Nat} {lines : List Chars} {lookahead : UInt64} {stop : Nat}

/-- The number of the last line that is asked for, the line of the site being the first one. -/
def reach (s : Site) (lookahead : UInt64) : Nat := s.number + (lookahead.toNat - 1)

/-- What stands behind a place of the line, and on the lines below it up to a last one. -/
def upTo (s : Site) (place : Nat) (lines : List Chars) (last : Nat) : Chars :=
  s.line.drop place ++ '\n' :: joinWith ['\n'] ((lines.take last).drop s.number)

theorem upTo_prefix {last last' : Nat} (h : last ≤ last') :
    s.upTo place lines last <+: s.upTo place lines last' := by
  have htake : lines.take last <+: lines.take last' := List.take_prefix_take_left h
  have hjoin : joinWith ['\n'] ((lines.take last).drop s.number) <+:
      joinWith ['\n'] ((lines.take last').drop s.number) := joinWith_prefix (htake.drop s.number)
  unfold upTo
  exact (List.prefix_append_right_inj _).2 (List.cons_prefix_cons.2 ⟨rfl, hjoin⟩)

/-- Up to the line of the site itself there is nothing below it. -/
theorem upTo_of_le {last : Nat} (h : last ≤ s.number) :
    s.upTo place lines last = s.line.drop place ++ ['\n'] := by
  have hnone : (lines.take last).drop s.number = [] :=
    List.drop_eq_nil_of_le (Nat.le_trans (List.length_take_le _ _) h)
  rw [upTo, hnone]
  rfl

theorem toNat_below (lookahead : UInt64) : (below lookahead).toNat = lookahead.toNat - 1 := by
  unfold below
  split
  · next h => rw [h]; rfl
  · next h =>
    have hpos : 1 ≤ lookahead :=
      UInt64.le_iff_toNat_le.2 (UInt64.lt_iff_toNat_lt.1 (UInt64.pos_iff_ne_zero.2 h))
    exact UInt64.toNat_sub_of_le _ _ hpos

/-- Looking ahead overflows exactly if the last line that is asked for has no word. -/
theorem overflows_iff : s.overflows lookahead = true ↔ 2 ^ 64 ≤ s.reach lookahead := by
  rw [overflows, Text.overflows, toNat_below, decide_eq_true_iff]
  rfl

/-- **What is read ahead.** The last line is that of the sum in 64-bit words. -/
theorem ahead_eq : s.ahead place lines lookahead stop =
    s.upTo place lines (min (s.reach lookahead % 2 ^ 64) stop) := by
  have hstart : s.number.toUInt64.toNat = s.number % 2 ^ 64 := UInt64.toNat_ofNat'
  rw [ahead, Text.window, UInt64.toNat_add, toNat_below, hstart, Nat.mod_add_mod]
  rfl

/-- With a sum that fits, the lines that were asked for are read. -/
theorem ahead_of_lt (h : s.reach lookahead < 2 ^ 64) : s.ahead place lines lookahead stop =
    s.upTo place lines (min (s.reach lookahead) stop) := by
  rw [ahead_eq, Nat.mod_eq_of_lt h]

/-- With a sum that does not fit, nothing is read of the lines below. -/
theorem ahead_of_le (hnumber : s.number ≤ 2 ^ 64) (h : 2 ^ 64 ≤ s.reach lookahead) :
    s.ahead place lines lookahead stop = s.line.drop place ++ ['\n'] := by
  have hword := lookahead.toNat_lt
  have hwrapped : s.reach lookahead % 2 ^ 64 ≤ s.number := by
    unfold reach at h ⊢
    omega
  rw [ahead_eq, upTo_of_le (Nat.le_trans (Nat.min_le_left _ _) hwrapped)]

end Site

/-- The least setting asks for the line itself only. -/
theorem Site.ahead_one {s : Site} (hnumber : s.number < 2 ^ 64) (place : Nat) (lines : List Chars)
    (stop : Nat) : s.ahead place lines 1 stop = s.line.drop place ++ ['\n'] := by
  have hreach : s.reach 1 = s.number := rfl
  rw [ahead_of_lt (hreach ▸ hnumber), upTo_of_le (hreach ▸ Nat.min_le_left _ _)]

/-- The lines of a file have the numbers up to that of the last one. -/
theorem number_of_mem_ofLines {nodeId path : String} {lines : List Chars} {s : Site}
    (h : s ∈ Site.ofLines nodeId path lines) : 1 ≤ s.number ∧ s.number ≤ lines.length := by
  obtain ⟨⟨line, number⟩, hline, rfl⟩ := List.mem_map.1 h
  have hbounds := List.mem_zipIdx hline
  simp only
  omega

/-! ## Tasks -/

/-- The stage that looks ahead. -/
def Lookahead.stage : Lookahead → Stage
  | tableOp => .endpoints
  | fetchMethod => .screens

/-- Whether the lines of a file are read. -/
def Lookahead.reads : Lookahead → String → Bool
  | tableOp, path => (Route.handler? path).isSome
  | fetchMethod, path => (Route.screen? path).isSome

/-- Whether it is looked ahead from a line. -/
def Lookahead.startsOn : Lookahead → Chars → Bool
  | tableOp, line =>
    (Pattern.storageFrom.first? line).isNone && !(Pattern.tableFrom.all line).isEmpty
  | fetchMethod, line => !(Pattern.fetch.all line).isEmpty

/-- A line of a file that a task looks ahead from. -/
def Task.LooksAhead (t : Task) (k : Lookahead) (s : Site) : Prop :=
  ∃ r ∈ t.project.repositories, ∃ path ∈ r.paths, k.reads path = true ∧
    ∃ text, t.project.content? r path = some text ∧
      s ∈ Site.ofLines "" path (Text.lines text.toList) ∧ k.startsOn s.line = true

/-- Each line of a handler file is read for some export. -/
theorem handlerOverflows_eq (lookahead : UInt64) (path content : String) :
    handlerOverflows lookahead path content =
      (Site.ofLines "" path (Text.lines content.toList)).any (dataOverflows lookahead) := by
  rw [Bool.eq_iff_iff, List.any_eq_true]
  constructor
  · intro h
    obtain ⟨x, -, hx⟩ := List.any_eq_true.1 h
    obtain ⟨stretch, -, hstretch⟩ := List.any_eq_true.1 hx
    obtain ⟨s, hs, hover⟩ := List.any_eq_true.1 hstretch
    exact ⟨s, List.mem_of_mem_take (List.mem_of_mem_drop hs), hover⟩
  · rintro ⟨s, hs, hover⟩
    obtain ⟨k, hk⟩ := List.mem_iff_getElem?.1 hs
    have hlt : k < (Text.lines content.toList).length := by
      obtain ⟨hk, -⟩ := List.getElem?_eq_some_iff.1 hk
      simpa [Site.ofLines] using hk
    obtain ⟨x, hx, stretch, hstretch, hle, hbelow⟩ := MethodExport.exists_stretch hlt
    have hread : s ∈ ((Site.ofLines "" path (Text.lines content.toList)).take
        stretch.2).drop stretch.1 := by
      refine List.mem_iff_getElem?.2 ⟨k - stretch.1, ?_⟩
      rw [List.getElem?_drop, Nat.add_sub_of_le hle, List.getElem?_take_of_lt hbelow, hk]
    exact List.any_eq_true.2 ⟨x, hx, List.any_eq_true.2 ⟨stretch, hstretch,
      List.any_eq_true.2 ⟨s, hread, hover⟩⟩⟩

/-- A stage overflows exactly if looking ahead does from some line. -/
theorem Task.overflows_stage_iff (t : Task) (k : Lookahead) : t.overflows k.stage = true ↔
    ∃ s, t.LooksAhead k s ∧ s.overflows (k.of t.settings) = true := by
  cases k with
  | tableOp =>
    simp only [Lookahead.stage, Task.overflows, endpointsOverflow, handlerOverflows_eq,
      List.any_eq_true, List.mem_filter, Option.any_eq_true]
    constructor
    · rintro ⟨r, hr, path, ⟨hpath, hreads⟩, text, htext, s, hs, hover⟩
      obtain ⟨hstarts, hover⟩ := Bool.and_eq_true_iff.1 hover
      exact ⟨s, ⟨r, hr, path, hpath, hreads, text, htext, hs, hstarts⟩, hover⟩
    · rintro ⟨s, ⟨r, hr, path, hpath, hreads, text, htext, hs, hstarts⟩, hover⟩
      exact ⟨r, hr, path, ⟨hpath, hreads⟩, text, htext, s, hs,
        Bool.and_eq_true_iff.2 ⟨hstarts, hover⟩⟩
  | fetchMethod =>
    simp only [Lookahead.stage, Task.overflows, screensOverflow, List.any_eq_true,
      List.mem_filter]
    constructor
    · rintro ⟨r, hr, path, ⟨hpath, hreads⟩, s, hs, hover⟩
      obtain ⟨hstarts, hover⟩ := Bool.and_eq_true_iff.1 hover
      cases htext : t.project.content? r path with
      | none =>
        rw [htext] at hs
        cases hs
      | some text =>
        rw [htext] at hs
        exact ⟨s, ⟨r, hr, path, hpath, hreads, text, htext, hs, hstarts⟩, hover⟩
    · rintro ⟨s, ⟨r, hr, path, hpath, hreads, text, htext, hs, hstarts⟩, hover⟩
      refine ⟨r, hr, path, ⟨hpath, hreads⟩, s, ?_, Bool.and_eq_true_iff.2 ⟨hstarts, hover⟩⟩
      rw [htext]
      exact hs

/-- Where sums are checked an analysis stops exactly if the last line that is asked for from some
line has no word. -/
theorem ofStages?_eq_none_iff (t : Task) (stages : List Stage) :
    Analysis.ofStages? t stages = none ↔ ∃ k s, Lookahead.stage k ∈ stages ∧
      t.LooksAhead k s ∧ 2 ^ 64 ≤ s.reach (k.of t.settings) := by
  rw [Analysis.ofStages?_eq, ite_eq_left_iff, List.any_eq_true]
  simp only [reduceCtorEq, imp_false, not_not]
  constructor
  · rintro ⟨stage, hstage, hover⟩
    obtain ⟨k, rfl⟩ : ∃ k : Lookahead, k.stage = stage := by
      cases stage with
      | screens => exact ⟨.fetchMethod, rfl⟩
      | endpoints => exact ⟨.tableOp, rfl⟩
      | inventory | database | deployment | features => cases hover
    obtain ⟨s, hs, hover⟩ := (t.overflows_stage_iff k).1 hover
    exact ⟨k, s, hstage, hs, Site.overflows_iff.1 hover⟩
  · rintro ⟨k, s, hstage, hs, hover⟩
    exact ⟨k.stage, hstage, (t.overflows_stage_iff k).2 ⟨s, hs, Site.overflows_iff.2 hover⟩⟩

/-! ## Settings -/

/-- **How far settings look.** In a file of fewer than `2 ^ 32` lines the sum overflows exactly if
the setting is more than `2 ^ 64` less the number of the line. If it does not, the lines that were
asked for are read; if it does and wraps, tables and fetches are read as with a setting of one. So a
greater setting shows no less than a smaller one exactly if its sum fits, or the smaller one shows
nothing of the lines below. Where sums are checked, an analysis that looks ahead from a line with a
sum that does not fit stops there, and any other one finds what it finds without the checks. -/
theorem lookahead_grows_iff {lines : List Chars} (hlines : lines.length < 2 ^ 32)
    {nodeId path : String} {s : Site} (hs : s ∈ Site.ofLines nodeId path lines)
    (settings : Settings) (k : Lookahead) :
    (s.overflows (k.of settings) = true ↔ 2 ^ 64 - s.number < (k.of settings).toNat) ∧
    (s.overflows (k.of settings) = false → ∀ place stop,
      s.ahead place lines (k.of settings) stop =
        s.upTo place lines (min (s.reach (k.of settings)) stop)) ∧
    (s.overflows (k.of settings) = true →
      (∀ stop m, tableAccess lines (k.of settings) stop s m = tableAccess lines 1 stop s m) ∧
        fetchesAt lines (k.of settings) s = fetchesAt lines 1 s) ∧
    (∀ settings' : Settings, k.of settings' ≤ k.of settings → ∀ place stop,
      (s.ahead place lines (k.of settings') stop <+: s.ahead place lines (k.of settings) stop ↔
        s.overflows (k.of settings) = false ∨
          s.ahead place lines (k.of settings') stop = s.line.drop place ++ ['\n'])) ∧
    ∀ (t : Task) (stages : List Stage), t.settings = settings →
      (k.stage ∈ stages → t.LooksAhead k s → s.overflows (k.of settings) = true →
        Analysis.ofStages? t stages = none) ∧
      (Analysis.ofStages? t stages = none → ∃ (k' : Lookahead) (s' : Site), k'.stage ∈ stages ∧
        t.LooksAhead k' s' ∧ s'.overflows (k'.of settings) = true) ∧
      ∀ a, Analysis.ofStages? t stages = some a → a = Analysis.ofStages t stages := by
  obtain ⟨hpos, hle⟩ := number_of_mem_ofLines hs
  have hnumber : s.number < 2 ^ 64 := by omega
  have hover_iff : s.overflows (k.of settings) = true ↔ 2 ^ 64 ≤ s.reach (k.of settings) :=
    Site.overflows_iff
  have hfits_iff : s.overflows (k.of settings) = false ↔ s.reach (k.of settings) < 2 ^ 64 := by
    rw [← Bool.not_eq_true, hover_iff, Nat.not_le]
  refine ⟨?_, fun hfits place stop => Site.ahead_of_lt (hfits_iff.1 hfits), fun hover => ?_, ?_, ?_⟩
  · rw [hover_iff]
    unfold Site.reach
    omega
  · have hone (place stop : Nat) :
        s.ahead place lines (k.of settings) stop = s.ahead place lines 1 stop :=
      (Site.ahead_of_le (Nat.le_of_lt hnumber) (hover_iff.1 hover)).trans
        (s.ahead_one hnumber place lines stop).symm
    constructor
    · intro stop m
      simp only [tableAccess, hone]
    · simp only [fetchesAt, hone]
  · intro settings' hle' place stop
    rw [hfits_iff]
    rcases Nat.lt_or_ge (s.reach (k.of settings)) (2 ^ 64) with hfits | hover
    · have hreach : s.reach (k.of settings') ≤ s.reach (k.of settings) :=
        Nat.add_le_add_left (Nat.sub_le_sub_right (UInt64.le_iff_toNat_le.1 hle') 1) s.number
      rw [Site.ahead_of_lt hfits, Site.ahead_of_lt (Nat.lt_of_le_of_lt hreach hfits)]
      exact iff_of_true (Site.upTo_prefix (by omega)) (.inl hfits)
    · rw [Site.ahead_of_le (Nat.le_of_lt hnumber) hover]
      constructor
      · intro hshown
        -- what is shown ahead starts with the rest of the line, so nothing can be left out
        have hstart : s.line.drop place ++ ['\n'] <+: s.ahead place lines (k.of settings') stop :=
          (List.prefix_append_right_inj _).2 (List.cons_prefix_cons.2 ⟨rfl, List.nil_prefix⟩)
        exact .inr (hshown.eq_of_length_le hstart.length_le)
      · rintro (hfits | hnothing)
        · omega
        · exact hnothing ▸ List.prefix_rfl
  · rintro t stages rfl
    refine ⟨fun hstage hlooks hover => ?_, fun hnone => ?_, fun a ha => ?_⟩
    · exact (ofStages?_eq_none_iff t stages).2 ⟨k, s, hstage, hlooks, hover_iff.1 hover⟩
    · obtain ⟨k', s', hstage, hlooks, hover⟩ := (ofStages?_eq_none_iff t stages).1 hnone
      exact ⟨k', s', hstage, hlooks, Site.overflows_iff.2 hover⟩
    · rw [Analysis.ofStages?_eq] at ha
      split at ha
      · cases ha
      · exact (Option.some.inj ha).symm

/-! ## A chain of calls -/

/-- A handler whose chain of calls goes on below its line. -/
def chainText : String :=
  "export async function POST() \x7b\n  db.from('t')\n    .insert(\x7b\x7d);\n\x7d\n"

/-- Its lines. -/
def chainLines : List Chars :=
  ["export async function POST() \x7b".toList, "  db.from('t')".toList,
    "    .insert(\x7b\x7d);".toList, "\x7d".toList]

/-- A path for the handler. -/
def chainPath : String := "app/api/add/route.ts"

/-- The line on which the chain starts. -/
def chainSite : Site := ⟨"", chainPath, 2, "  db.from('t')".toList⟩

/-- A page with a fetch whose options go on below its line. -/
def pageText : String :=
  "export default function Page() \x7b\n  fetch('/api/add',\n    \x7b method: 'POST' \x7d);\n\x7d\n"

/-- Settings with lookaheads of a number of lines. -/
def lookingAhead (count : UInt64) : Settings :=
  { Settings.default with analysis := ⟨0, count, count⟩ }

/-- The repository of the handler and the page. -/
def chainRepository : Repository :=
  .ofPaths "r1" "acme" "web" [chainPath, "app/page.tsx"]

/-- What is discovered in the repository under some settings. -/
def chainTask (settings : Settings) : Task where
  project := ⟨"p", [chainRepository],
    .ofList [(chainPath, chainText), ("app/page.tsx", pageText)]⟩
  settings := settings
  catalog := []

theorem chainSite_mem : chainSite ∈ Site.ofLines "" chainPath chainLines :=
  List.mem_of_getElem? (i := 1) rfl

theorem lookahead_grows_chain : chainLines.length < 2 ^ 32 ∧
    chainSite ∈ Site.ofLines "" chainPath chainLines ∧
    (chainSite.ahead 14 chainLines 5 4 <+: chainSite.ahead 14 chainLines 18446744073709551614 4 ↔
      chainSite.overflows 18446744073709551614 = false ∨
        chainSite.ahead 14 chainLines 5 4 = ['\n']) :=
  ⟨by decide, chainSite_mem,
    (lookahead_grows_iff (by decide) chainSite_mem (lookingAhead 18446744073709551614)
      .tableOp).2.2.2.1 (lookingAhead 5) (by decide) 14 4⟩

/-- **A greater setting shows less.** The environment sets the lookahead for tables to the greatest
word, and the settings are valid. On the second line of a file the sum overflows, for tables and for
fetches. An analysis with checked sums stops there, where it ends with the default; where the sum
wraps, nothing is left of the chain of calls that the default shows, so that the insertion is taken
for a selection. -/
theorem lookahead_shortens :
    (lookingAhead 18446744073709551615).fault? = none ∧
    (Settings.default.withEnvironment
      [("ARCHSCAN_TABLE_OP_LOOKAHEAD", "18446744073709551615")]).checked =
        .ok { Settings.default with analysis := ⟨0, 18446744073709551615, 6⟩ } ∧
    Text.lines chainText.toList = chainLines ∧ chainLines.length < 2 ^ 32 ∧
    chainSite ∈ Site.ofLines "" chainPath chainLines ∧
    (∀ k : Lookahead, k.of .default ≤ k.of (lookingAhead 18446744073709551615) ∧
      chainSite.overflows (k.of (lookingAhead 18446744073709551615)) = true ∧
      chainSite.ahead 14 chainLines (k.of .default) 4 = "\n    .insert(\x7b\x7d);\n\x7d".toList ∧
      chainSite.ahead 14 chainLines (k.of (lookingAhead 18446744073709551615)) 4 = ['\n'] ∧
      (dataAt chainLines (k.of .default) 4 chainSite).edges.map (·.kind) = [.writes] ∧
      (dataAt chainLines (k.of (lookingAhead 18446744073709551615)) 4 chainSite).edges.map
        (·.kind) = [.reads]) ∧
    Analysis.ofStages? (chainTask (lookingAhead 18446744073709551615)) [.screens] = none ∧
    Analysis.ofStages? (chainTask (lookingAhead 18446744073709551615)) [.endpoints] = none ∧
    Analysis.ofStages? (chainTask .default) [.screens, .endpoints] =
      some (Analysis.ofStages (chainTask .default) [.screens, .endpoints]) := by
  have hover : (chainTask (lookingAhead 18446744073709551615)).overflows .screens = true ∧
      (chainTask (lookingAhead 18446744073709551615)).overflows .endpoints = true := by
    decide +kernel
  have hfits : (chainTask .default).overflows .screens = false ∧
      (chainTask .default).overflows .endpoints = false := by
    decide +kernel
  refine ⟨by decide, by rfl, by decide, by decide, chainSite_mem, ?_, ?_, ?_, ?_⟩
  · rintro (_ | _)
    · decide
    · decide
  · rw [Analysis.ofStages?_eq, List.any_cons, hover.1]
    rfl
  · rw [Analysis.ofStages?_eq, List.any_cons, hover.2]
    rfl
  · rw [Analysis.ofStages?_eq, List.any_cons, List.any_cons, hfits.1, hfits.2]
    rfl

end ArchGraph.Discovery
