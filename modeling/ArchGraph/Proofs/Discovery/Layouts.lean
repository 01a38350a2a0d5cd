import ArchGraph.Discovery.Screens
import ArchGraph.Proofs.Path.Names
import ArchGraph.Proofs.Route.Roots
import Mathlib.Data.List.Induction
import Mathlib.Data.List.Infix
/-!
# The layouts of pages

The search for the layout of a page starts in the directory of the page and climbs to the parent
until it comes upon a layout or has looked into the root of the router. It ends because a parent has
fewer bytes than its directory (`parent_size_lt`), and it does not climb past the root because the
names of the root are the first ones of the page's path (`names_routerDir`). Main statement:
`layout_nearest`, what is found is the layout in the deepest directory between the page and the root
of its router, and nothing is found only where none of these directories holds a layout.
-/

namespace ArchGraph

/-! ## Parents -/

namespace Path

theorem names_parent {path : String} (h : (names path).dropLast ≠ []) :
    names (parent path) = (names path).dropLast :=
  names_ofNames h fun _ hname => slash_notMem_of_mem_names (List.mem_of_mem_dropLast hname)

theorem parent_of_names_eq_singleton {path name : String} (h : names path = [name]) :
    parent path = "" := by
  rw [parent, h]
  rfl

/-- A parent has fewer bytes than what lies in it. -/
theorem parent_size_lt {path : String} (h : path ≠ "") :
    (parent path).utf8ByteSize < path.utf8ByteSize := by
  by_cases hparent : parent path = ""
  · rw [hparent]
    exact Nat.pos_of_ne_zero fun hsize => h (String.utf8ByteSize_eq_zero_iff.1 hsize)
  · calc (parent path).utf8ByteSize
        < (parent path ++ "/" ++ fileName path).utf8ByteSize := by
          simp only [String.utf8ByteSize_append]
          have hslash : "/".utf8ByteSize = 1 := rfl
          omega
      _ = path.utf8ByteSize := by rw [← eq_parent_append hparent]

end Path

namespace Discovery

variable {files names front rest : List String} {root dir file path : String}

/-! ## Files of a directory -/

/-- The listed file of a directory with the first of some names that has one. -/
def FirstIn (files names : List String) (dir file : String) : Prop :=
  ∃ before name after, names = before ++ name :: after ∧ file = dir ++ "/" ++ name ∧
    file ∈ files ∧ ∀ other ∈ before, dir ++ "/" ++ other ∉ files

/-- A directory without a listed file of some names. -/
def NoneIn (files names : List String) (dir : String) : Prop :=
  ∀ name ∈ names, dir ++ "/" ++ name ∉ files

theorem fileIn?_eq_some_iff :
    fileIn? files names dir = some file ↔ FirstIn files names dir file := by
  rw [fileIn?, List.find?_eq_some_iff_append]
  constructor
  · rintro ⟨hlisted, before, after, hnames, hbefore⟩
    obtain ⟨front, back, rfl, rfl, hback⟩ := List.map_eq_append_iff.1 hnames
    obtain ⟨name, rest, rfl, rfl, -⟩ := List.map_eq_cons_iff.1 hback
    refine ⟨front, name, rest, rfl, rfl, by simpa using hlisted, ?_⟩
    intro other hother
    simpa using hbefore _ (List.mem_map_of_mem hother)
  · rintro ⟨before, name, after, rfl, rfl, hlisted, hbefore⟩
    refine ⟨by simpa using hlisted, before.map (dir ++ "/" ++ ·), after.map (dir ++ "/" ++ ·),
      by simp, ?_⟩
    simpa using hbefore

theorem fileIn?_eq_none_iff : fileIn? files names dir = none ↔ NoneIn files names dir := by
  simp [fileIn?, NoneIn]

/-! ## The climb -/

/-- How a search ends that starts in a directory: with the file that the directory holds, with
nothing in the root of the router or in the directory without a parent, or else as it ends from the
parent. -/
inductive Climb (files names : List String) (root : String) : String → Option String → Prop where
  | found {dir file : String} : fileIn? files names dir = some file →
      Climb files names root dir (some file)
  | ended {dir : String} : fileIn? files names dir = none → dir = root ∨ dir = "" →
      Climb files names root dir none
  | up {dir : String} {result : Option String} :
      fileIn? files names dir = none → ¬(dir = root ∨ dir = "") →
      Climb files names root (Path.parent dir) result → Climb files names root dir result

/-- One step of the search in a directory. -/
theorem nearestFile?_names (files names : List String) (root dir : String) :
    nearestFile? files names root (Path.names dir).reverse =
      match fileIn? files names dir with
      | some file => some file
      | none => if dir = root ∨ dir = "" then none
        else nearestFile? files names root (Path.names (Path.parent dir)).reverse := by
  have hdir : Path.ofNames (Path.names dir) = dir := Path.ofNames_names dir
  obtain ⟨above, last, hnames⟩ : ∃ above last, Path.names dir = above ++ [last] :=
    ⟨_, _, (List.dropLast_concat_getLast (Path.names_ne_nil dir)).symm⟩
  have hstep : (Path.names dir).reverse = last :: above.reverse := by simp [hnames]
  have hback : (last :: above.reverse).reverse = Path.names dir := by simp [hnames]
  rw [hstep, nearestFile?, hback, hdir]
  cases fileIn? files names dir with
  | some file => rfl
  | none =>
    simp only [Bool.or_eq_true, decide_eq_true_eq]
    refine if_congr Iff.rfl rfl ?_
    rcases List.eq_nil_or_concat above with rfl | ⟨front, next, rfl⟩
    · -- a single name has the directory without a name for its parent
      have hempty : (Path.names "").reverse = [""] := rfl
      rw [Path.parent_of_names_eq_singleton hnames, hempty]
      simp only [List.reverse_nil, nearestFile?, List.reverse_singleton]
      have htop : Path.ofNames [""] = "" := rfl
      rw [htop]
      cases fileIn? files names "" <;> simp
    · rw [Path.names_parent (by simp [hnames]), hnames, List.dropLast_concat]

/-- Every search ends, with the nearest file. -/
theorem climb_nearestFile? (files names : List String) (root dir : String) :
    Climb files names root dir (nearestFile? files names root (Path.names dir).reverse) := by
  rw [nearestFile?_names]
  cases hfile : fileIn? files names dir with
  | some file => exact .found hfile
  | none =>
    simp only
    split
    · next htop => exact .ended hfile htop
    · next htop => exact .up hfile htop (climb_nearestFile? files names root (Path.parent dir))
termination_by dir.utf8ByteSize
decreasing_by exact Path.parent_size_lt (not_or.1 ‹_›).2

theorem climb_iff {result : Option String} : Climb files names root dir result ↔
    nearestFile? files names root (Path.names dir).reverse = result := by
  constructor
  · intro h
    induction h with
    | found hfile => rw [nearestFile?_names, hfile]
    | ended hfile htop => rw [nearestFile?_names, hfile]; exact if_pos htop
    | up hfile htop _ ih => rw [nearestFile?_names, hfile]; exact (if_neg htop).trans ih
  · rintro rfl
    exact climb_nearestFile? files names root dir

/-! ## Directories between a page and its router -/

/-- The names of a path hold no slash. -/
def Plain (names : List String) : Prop := ∀ name ∈ names, '/' ∉ name.toList

theorem Plain.initial {names first : List String} (h : Plain names) (hfirst : first <+: names) :
    Plain first := fun name hname => h name (hfirst.subset hname)

theorem nearestFile?_root (hfront : front ≠ []) (hplain : Plain front) :
    nearestFile? files names (Path.ofNames front) front.reverse =
      fileIn? files names (Path.ofNames front) := by
  have hnames : Path.names (Path.ofNames front) = front := Path.names_ofNames hfront hplain
  have hstep := nearestFile?_names files names (Path.ofNames front) (Path.ofNames front)
  rw [hnames] at hstep
  rw [hstep]
  cases fileIn? files names (Path.ofNames front) <;> simp

/-- Below the root of the router the search goes on in the parent. -/
theorem nearestFile?_concat {last : String} (hfront : front ≠ [])
    (hplain : Plain (front ++ (rest ++ [last]))) :
    nearestFile? files names (Path.ofNames front) (front ++ (rest ++ [last])).reverse =
      match fileIn? files names (Path.ofNames (front ++ (rest ++ [last]))) with
      | some file => some file
      | none => nearestFile? files names (Path.ofNames front) (front ++ rest).reverse := by
  have hnames : Path.names (Path.ofNames (front ++ (rest ++ [last]))) = front ++ (rest ++ [last]) :=
    Path.names_ofNames (by simp) hplain
  have hroot : Path.names (Path.ofNames front) = front :=
    Path.names_ofNames hfront (hplain.initial (List.prefix_append _ _))
  have hdrop : (front ++ (rest ++ [last])).dropLast = front ++ rest := by
    rw [← List.append_assoc, List.dropLast_concat]
  have hbelow : ¬(Path.ofNames (front ++ (rest ++ [last])) = Path.ofNames front ∨
      Path.ofNames (front ++ (rest ++ [last])) = "") := by
    rintro (heq | heq)
    · have hlen := congrArg (List.length ∘ Path.names) heq
      simp only [Function.comp_apply, hnames, hroot, List.length_append, List.length_singleton]
        at hlen
      omega
    · have hlen := congrArg (List.length ∘ Path.names) heq
      have hempty : (Path.names "").length = 1 := rfl
      have hpos := List.length_pos_iff.2 hfront
      simp only [Function.comp_apply, hnames, hempty, List.length_append, List.length_singleton]
        at hlen
      omega
  have hstep := nearestFile?_names files names (Path.ofNames front)
    (Path.ofNames (front ++ (rest ++ [last])))
  have hparent : Path.names (Path.parent (Path.ofNames (front ++ (rest ++ [last])))) =
      front ++ rest := by
    rw [Path.names_parent (by rw [hnames, hdrop]; simp [hfront]), hnames, hdrop]
  rw [hparent, hnames, if_neg hbelow] at hstep
  exact hstep

/-- The search finds the file in the deepest directory that holds one. -/
theorem nearestFile?_eq_some_iff (hfront : front ≠ []) (hplain : Plain (front ++ rest)) :
    nearestFile? files names (Path.ofNames front) (front ++ rest).reverse = some file ↔
      ∃ more, more <+: rest ∧ fileIn? files names (Path.ofNames (front ++ more)) = some file ∧
        ∀ deeper, deeper <+: rest → more.length < deeper.length →
          fileIn? files names (Path.ofNames (front ++ deeper)) = none := by
  induction rest using List.reverseRecOn with
  | nil =>
    rw [List.append_nil] at hplain ⊢
    rw [nearestFile?_root hfront hplain]
    constructor
    · intro h
      exact ⟨[], List.prefix_rfl, by rwa [List.append_nil], fun deeper hdeeper hlt => by
        simp [List.prefix_nil.1 hdeeper] at hlt⟩
    · rintro ⟨more, hmore, hfile, -⟩
      rwa [List.prefix_nil.1 hmore, List.append_nil] at hfile
  | append_singleton rest last ih =>
    have hplain' : Plain (front ++ rest) :=
      hplain.initial ((List.prefix_append_right_inj front).2 (List.prefix_append rest [last]))
    rw [nearestFile?_concat hfront hplain]
    cases hhere : fileIn? files names (Path.ofNames (front ++ (rest ++ [last]))) with
    | some found =>
      simp only [Option.some.injEq]
      constructor
      · rintro rfl
        refine ⟨rest ++ [last], List.prefix_rfl, hhere, fun deeper hdeeper hlt => ?_⟩
        exact absurd hdeeper.length_le (Nat.not_le.2 hlt)
      · rintro ⟨more, hmore, hfile, hnone⟩
        rcases List.prefix_concat_iff.1 hmore with rfl | hmore
        · exact Option.some.inj (hhere.symm.trans hfile)
        · have hlt : more.length < (rest ++ [last]).length := by
            have hle := hmore.length_le
            simp only [List.length_append, List.length_singleton]
            omega
          rw [hnone _ List.prefix_rfl hlt] at hhere
          cases hhere
    | none =>
      simp only
      rw [ih hplain']
      constructor
      · rintro ⟨more, hmore, hfile, hnone⟩
        refine ⟨more, hmore.trans (List.prefix_append _ _), hfile, fun deeper hdeeper hlt => ?_⟩
        rcases List.prefix_concat_iff.1 hdeeper with rfl | hdeeper
        · exact hhere
        · exact hnone deeper hdeeper hlt
      · rintro ⟨more, hmore, hfile, hnone⟩
        rcases List.prefix_concat_iff.1 hmore with rfl | hmore
        · rw [hhere] at hfile
          cases hfile
        · exact ⟨more, hmore, hfile, fun deeper hdeeper hlt =>
            hnone deeper (hdeeper.trans (List.prefix_append _ _)) hlt⟩

theorem nearestFile?_eq_none_iff (hfront : front ≠ []) (hplain : Plain (front ++ rest)) :
    nearestFile? files names (Path.ofNames front) (front ++ rest).reverse = none ↔
      ∀ more, more <+: rest → fileIn? files names (Path.ofNames (front ++ more)) = none := by
  induction rest using List.reverseRecOn with
  | nil =>
    rw [List.append_nil] at hplain ⊢
    rw [nearestFile?_root hfront hplain]
    simp
  | append_singleton rest last ih =>
    have hplain' : Plain (front ++ rest) :=
      hplain.initial ((List.prefix_append_right_inj front).2 (List.prefix_append rest [last]))
    rw [nearestFile?_concat hfront hplain]
    simp only [List.prefix_concat_iff, forall_eq_or_imp]
    rw [← ih hplain']
    cases fileIn? files names (Path.ofNames (front ++ (rest ++ [last]))) <;> simp

/-- A directory between a page and the root of its router, both included: its names are the first
ones of the page's path, and those of the root are the first ones of its own. -/
structure Encloses (path root dir : String) : Prop where
  page   : Path.names dir <+: (Path.names path).dropLast
  router : Path.names root <+: Path.names dir

theorem plain_dirs (path : String) : Plain (Path.names path).dropLast := fun _ hname =>
  Path.slash_notMem_of_mem_names (List.mem_of_mem_dropLast hname)

theorem names_below {more : List String}
    (hdirs : (Path.names path).dropLast = Path.names root ++ rest) (hmore : more <+: rest) :
    Path.names (Path.ofNames (Path.names root ++ more)) = Path.names root ++ more := by
  have hbelow : Path.names root ++ more <+: (Path.names path).dropLast := by
    rwa [hdirs, List.prefix_append_right_inj]
  exact Path.names_ofNames (by simp [Path.names_ne_nil]) ((plain_dirs path).initial hbelow)

theorem encloses_iff (hdirs : (Path.names path).dropLast = Path.names root ++ rest) :
    Encloses path root dir ↔
      ∃ more, more <+: rest ∧ dir = Path.ofNames (Path.names root ++ more) := by
  constructor
  · rintro ⟨hpage, more, hnames⟩
    rw [hdirs, ← hnames, List.prefix_append_right_inj] at hpage
    exact ⟨more, hpage, by rw [hnames, Path.ofNames_names]⟩
  · rintro ⟨more, hmore, rfl⟩
    have hnames := names_below hdirs hmore
    exact ⟨by rwa [hnames, hdirs, List.prefix_append_right_inj],
      by rw [hnames]; exact List.prefix_append _ _⟩

/-- The names of a router's root are the first ones of the pages that it serves. -/
theorem names_routerDir {screen : Route.ScreenFile} (h : Route.screen? path = some screen) :
    ∃ rest, (Path.names path).dropLast = Path.names screen.routerDir ++ rest := by
  have hsplit {name : String} {front rest : List String}
      (hat : Route.RouterAt name (Path.names path).dropLast front rest) :
      (Path.names path).dropLast = Path.names (Path.ofNames (front ++ [name])) ++ rest := by
    have hdirs : (Path.names path).dropLast = (front ++ [name]) ++ rest := by simp [hat.split]
    have hplain : Plain (front ++ [name]) :=
      (plain_dirs path).initial (hdirs ▸ List.prefix_append _ _)
    rw [hdirs, Path.names_ofNames (by simp) hplain]
  rw [Route.screen?_eq_some_iff, Route.FileName.ofPath_eq] at h
  cases h with
  | svelteKit _ hroutes =>
    have hroutes := (Route.splitAtSvelteKit?_eq_some_iff.1 hroutes).1
    exact ⟨_, hsplit (Route.splitAtRouter?_eq_some_iff.1 hroutes).1⟩
  | app _ _ _ happ => exact ⟨_, hsplit (Route.splitAtRouter?_eq_some_iff.1 happ).1⟩
  | pages _ _ _ hpages => exact ⟨_, hsplit (Route.splitAtRouter?_eq_some_iff.1 hpages).1⟩

/-! ## The layout of a page -/

variable {screen : Route.ScreenFile}

theorem layout?_of_ne (hrouter : screen.router ≠ .pagesRouter) : layout? files path screen =
    nearestFile? files (layoutNames screen.router) screen.routerDir
      (Path.names path).dropLast.reverse := by
  rw [layout?]
  exact if_neg hrouter

theorem layout?_of_eq (hrouter : screen.router = .pagesRouter) : layout? files path screen =
    fileIn? files (layoutNames screen.router) screen.routerDir := by
  rw [layout?]
  exact if_pos hrouter

theorem layout?_eq_some_iff (h : Route.screen? path = some screen)
    (hrouter : screen.router ≠ .pagesRouter) : layout? files path screen = some file ↔
      ∃ dir, Encloses path screen.routerDir dir ∧
        FirstIn files (layoutNames screen.router) dir file ∧
          ∀ deeper, Encloses path screen.routerDir deeper →
            (Path.names dir).length < (Path.names deeper).length →
              NoneIn files (layoutNames screen.router) deeper := by
  obtain ⟨rest, hdirs⟩ := names_routerDir h
  have hfound := @nearestFile?_eq_some_iff files (layoutNames screen.router) _ _ file
    (Path.names_ne_nil screen.routerDir) (hdirs ▸ plain_dirs path)
  rw [Path.ofNames_names, ← hdirs, ← layout?_of_ne hrouter] at hfound
  rw [hfound]
  constructor
  · rintro ⟨more, hmore, hfile, hnone⟩
    refine ⟨_, (encloses_iff hdirs).2 ⟨more, hmore, rfl⟩, fileIn?_eq_some_iff.1 hfile, ?_⟩
    intro deeper hdeeper hlt
    obtain ⟨more', hmore', rfl⟩ := (encloses_iff hdirs).1 hdeeper
    rw [names_below hdirs hmore, names_below hdirs hmore', List.length_append,
      List.length_append] at hlt
    exact fileIn?_eq_none_iff.1 (hnone more' hmore' (by omega))
  · rintro ⟨dir, hdir, hfile, hnone⟩
    obtain ⟨more, hmore, rfl⟩ := (encloses_iff hdirs).1 hdir
    refine ⟨more, hmore, fileIn?_eq_some_iff.2 hfile, fun more' hmore' hlt => ?_⟩
    refine fileIn?_eq_none_iff.2 (hnone _ ((encloses_iff hdirs).2 ⟨more', hmore', rfl⟩) ?_)
    rw [names_below hdirs hmore, names_below hdirs hmore', List.length_append, List.length_append]
    omega

theorem layout?_eq_none_iff (h : Route.screen? path = some screen)
    (hrouter : screen.router ≠ .pagesRouter) : layout? files path screen = none ↔
      ∀ dir, Encloses path screen.routerDir dir →
        NoneIn files (layoutNames screen.router) dir := by
  obtain ⟨rest, hdirs⟩ := names_routerDir h
  have hnone := @nearestFile?_eq_none_iff files (layoutNames screen.router) _ _
    (Path.names_ne_nil screen.routerDir) (hdirs ▸ plain_dirs path)
  rw [Path.ofNames_names, ← hdirs, ← layout?_of_ne hrouter] at hnone
  rw [hnone]
  constructor
  · intro hmore dir hdir
    obtain ⟨more, hrest, rfl⟩ := (encloses_iff hdirs).1 hdir
    exact fileIn?_eq_none_iff.1 (hmore more hrest)
  · intro hdir more hmore
    exact fileIn?_eq_none_iff.2 (hdir _ ((encloses_iff hdirs).2 ⟨more, hmore, rfl⟩))

/-- The search for a layout is the climb from the directory of the page. -/
theorem climb_iff_layout? (h : Route.screen? path = some screen)
    (hrouter : screen.router ≠ .pagesRouter) {result : Option String} :
    Climb files (layoutNames screen.router) screen.routerDir (Path.parent path) result ↔
      layout? files path screen = result := by
  obtain ⟨rest, hdirs⟩ := names_routerDir h
  have hparent : Path.names (Path.parent path) = (Path.names path).dropLast :=
    Path.names_parent (by simp [hdirs, Path.names_ne_nil])
  rw [climb_iff, hparent, layout?_of_ne hrouter]

/-- A file of a directory in the root of the router lies under the root. -/
theorem FirstIn.isUnder (h : FirstIn files names dir file)
    (hroot : Path.names root <+: Path.names dir) : Path.isUnder file root = true := by
  obtain ⟨_, name, _, _, rfl, _, _⟩ := h
  obtain ⟨more, hmore⟩ := hroot
  refine Path.isUnder_iff_liesIn.2 (.inr ⟨more ++ Path.names name, ?_, ?_⟩)
  · simp [Path.names_ne_nil]
  · rw [Path.names_append_slash, ← hmore, List.append_assoc]

/-- **The nearest layout.** For a page below an app directory or of a SvelteKit project the climb
from its directory ends with the layout of the page: the first one in the deepest directory between
the page and the root of its router that holds one, and none exactly if no such directory does. The
layout of a page below a pages directory is looked for in that directory alone. No layout lies
outside of the root. -/
theorem layout_nearest (h : Route.screen? path = some screen) (files : List String) :
    let names := layoutNames screen.router
    (screen.router ≠ .pagesRouter →
      (∀ result, Climb files names screen.routerDir (Path.parent path) result ↔
        layout? files path screen = result) ∧
      (∀ file, layout? files path screen = some file ↔
        ∃ dir, Encloses path screen.routerDir dir ∧ FirstIn files names dir file ∧
          ∀ deeper, Encloses path screen.routerDir deeper →
            (Path.names dir).length < (Path.names deeper).length → NoneIn files names deeper) ∧
      (layout? files path screen = none ↔
        ∀ dir, Encloses path screen.routerDir dir → NoneIn files names dir)) ∧
    (screen.router = .pagesRouter →
      ∀ file, layout? files path screen = some file ↔ FirstIn files names screen.routerDir file) ∧
    ∀ file, layout? files path screen = some file → Path.isUnder file screen.routerDir = true := by
  intro names
  have hpages (hrouter : screen.router = .pagesRouter) (file : String) :
      layout? files path screen = some file ↔ FirstIn files names screen.routerDir file := by
    rw [layout?_of_eq hrouter, fileIn?_eq_some_iff]
  refine ⟨fun hrouter => ⟨fun _ => climb_iff_layout? h hrouter,
    fun _ => layout?_eq_some_iff h hrouter, layout?_eq_none_iff h hrouter⟩, hpages,
    fun file hfile => ?_⟩
  by_cases hrouter : screen.router = .pagesRouter
  · exact ((hpages hrouter file).1 hfile).isUnder List.prefix_rfl
  · obtain ⟨dir, hdir, hfirst, -⟩ := (layout?_eq_some_iff h hrouter).1 hfile
    exact hfirst.isUnder hdir.router

/-- A layout above the directory of the page is passed by for one in between. -/
theorem layout_nearest_blog :
    let files := ["app/layout.tsx", "app/blog/layout.js", "app/blog/layout.ts", "layout.tsx"]
    let post : Route.ScreenFile := ⟨"/blog/[slug]", .appRouter, "app"⟩
    Route.screen? "app/blog/[slug]/page.tsx" = some post ∧
      Climb files (layoutNames .appRouter) "app" "app/blog/[slug]" (some "app/blog/layout.ts") ∧
        Path.isUnder "app/blog/layout.ts" "app" = true := by
  intro files post
  have hpost : Route.screen? "app/blog/[slug]/page.tsx" = some post := by decide
  have hfound : layout? files "app/blog/[slug]/page.tsx" post = some "app/blog/layout.ts" := by
    decide
  obtain ⟨hclimb, -, hunder⟩ := layout_nearest hpost files
  exact ⟨hpost, ((hclimb (by decide)).1 _).2 hfound, hunder _ hfound⟩

end Discovery
end ArchGraph
