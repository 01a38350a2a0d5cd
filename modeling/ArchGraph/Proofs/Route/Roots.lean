import ArchGraph.Route.Convention
import Mathlib.Data.List.Basic
/-!
# Router roots

Where a project can start, and where the first directory of a router lies in one. A directory that
lies in a project and contains the project of another one is at the top, of the repository or of a
workspace member, and holds the other one directly, perhaps in its `src` (`isProjectRoot_below`).
What it takes to serve a page or requests is said once, with all the conditions of each convention
(`screen?_eq_some_iff`, `handler?_eq_some_iff`).
-/

namespace ArchGraph.Route

/-! ## Project roots -/

theorem length_le_of_isProjectRoot {dirs : List String} (h : isProjectRoot dirs = true) :
    dirs.length ≤ 3 ∧ (dirs.length = 3 → dirs.getLast? = some "src") := by
  have hlen : (if dirs.getLast? = some "src" then dirs.dropLast else dirs).length ≤ 2 := by
    rw [isProjectRoot] at h
    split at h
    · next heq => simp [heq]
    · next heq => simp [heq]
    · next heq => simp [heq]
    · exact absurd h Bool.false_ne_true
  split at hlen
  · next hsrc =>
    rw [List.length_dropLast] at hlen
    exact ⟨by omega, fun _ => hsrc⟩
  · exact ⟨by omega, by omega⟩

/-- The places of the outermost projects: the repository and its workspace members. -/
def IsTop (front : List String) : Prop := front = [] ∨ ∃ w ∈ workspaceDirs, front = [w]

/-- A place right inside of a directory or in its `src`. -/
def IsInner (between : List String) : Prop := between = [] ∨ between = ["src"]

/-- **What a project lies in.** A project below a directory that is neither a source nor a workspace
directory lies right inside of it or in its `src`, and the directory is at the top. -/
theorem isProjectRoot_below {front between : List String} {dir : String} (hsrc : dir ≠ "src")
    (hdir : dir ∉ workspaceDirs) (h : isProjectRoot (front ++ dir :: between) = true) :
    IsTop front ∧ IsInner between := by
  obtain ⟨hlen, hlast⟩ := length_le_of_isProjectRoot h
  rcases front with _ | ⟨w, _ | ⟨x, front⟩⟩
  · refine ⟨.inl rfl, ?_⟩
    rcases between with _ | ⟨x, _ | ⟨y, _ | ⟨z, between⟩⟩⟩
    · exact .inl rfl
    · by_cases hx : x = "src"
      · exact .inr (by rw [hx])
      · simp [isProjectRoot, hx, hdir] at h
    · obtain rfl : y = "src" := by simpa using hlast
      simp [isProjectRoot, hdir] at h
    · simp only [List.length_append, List.length_cons] at hlen
      omega
  · rcases between with _ | ⟨x, _ | ⟨y, between⟩⟩
    · have hw : w ∈ workspaceDirs := by simpa [isProjectRoot, hsrc] using h
      exact ⟨.inr ⟨w, hw, rfl⟩, .inl rfl⟩
    · obtain rfl : x = "src" := by simpa using hlast
      have hw : w ∈ workspaceDirs := by simpa [isProjectRoot] using h
      exact ⟨.inr ⟨w, hw, rfl⟩, .inr rfl⟩
    · simp only [List.length_append, List.length_cons] at hlen
      omega
  · obtain ⟨rfl, rfl⟩ : front = [] ∧ between = [] := by
      simp only [List.length_append, List.length_cons] at hlen
      exact ⟨List.eq_nil_of_length_eq_zero (by omega), List.eq_nil_of_length_eq_zero (by omega)⟩
    exact absurd (by simpa using hlast) hsrc

/-- A project of a workspace member starts at its top or in its `src`. -/
theorem isProjectRoot_member_iff {w m : String} {front : List String} (hw : w ∈ workspaceDirs)
    (hm : m ≠ "src") : isProjectRoot (w :: m :: front) = true ↔ IsInner front := by
  constructor
  · intro h
    obtain ⟨hlen, hlast⟩ := length_le_of_isProjectRoot h
    match front with
    | [] => exact .inl rfl
    | [x] =>
      obtain rfl : x = "src" := by simpa using hlast
      exact .inr rfl
    | _ :: _ :: _ =>
      simp only [List.length_cons] at hlen
      omega
  · rintro (rfl | rfl)
    · simp [isProjectRoot, hm, hw]
    · simp [isProjectRoot, hw]

theorem IsInner.isProjectRoot {front : List String} (h : IsInner front) :
    isProjectRoot front = true := by
  rcases h with rfl | rfl <;> decide

theorem IsTop.isProjectRoot {front : List String} (h : IsTop front) :
    isProjectRoot front = true := by
  rcases h with rfl | ⟨w, hw, rfl⟩
  · rfl
  · revert w
    decide

/-- A directory at the top holds projects right inside of it and in its `src`. -/
theorem IsTop.isProjectRoot_below {front between : List String} {dir : String} (h : IsTop front)
    (hbetween : IsInner between) (hsrc : dir ≠ "src") (hdir : dir ∉ nonRouteDirs) :
    Route.isProjectRoot (front ++ dir :: between) = true := by
  rcases h with rfl | ⟨w, hw, rfl⟩ <;> rcases hbetween with rfl | rfl
  · simp [Route.isProjectRoot, hsrc, hdir]
  · simp [Route.isProjectRoot, hdir]
  · simp [Route.isProjectRoot, hsrc, hw]
  · simp [Route.isProjectRoot, hw]

/-! ## The first router directory -/

/-- A router directory in a project, with the directories before and behind it. -/
structure RouterAt (dir : String) (dirs front rest : List String) : Prop where
  split   : dirs = front ++ dir :: rest
  project : isProjectRoot front = true

/-- A search finds the first router directory in a project. -/
theorem splitAtRouter?_spec {dir : String} : ∀ {dirs before front rest : List String},
    splitAtRouter? dir before dirs = some (front, rest) →
      RouterAt dir (before ++ dirs) front rest ∧ before.length ≤ front.length ∧
        ∀ front' rest', RouterAt dir (before ++ dirs) front' rest' →
          before.length ≤ front'.length → front.length ≤ front'.length
  | [], _, _, _, h => by simp [splitAtRouter?] at h
  | name :: dirs, before, front, rest, h => by
    rw [splitAtRouter?] at h
    split at h
    · next hname =>
      obtain ⟨rfl, hroot⟩ := hname
      obtain ⟨rfl, rfl⟩ : before = front ∧ dirs = rest := by simpa using h
      exact ⟨⟨rfl, hroot⟩, Nat.le_refl _, fun _ _ _ hle => hle⟩
    · next hname =>
      obtain ⟨hat, hle, hfirst⟩ := splitAtRouter?_spec h
      rw [List.append_assoc, List.singleton_append] at hat hfirst
      rw [List.length_append, List.length_singleton] at hle hfirst
      refine ⟨hat, by omega, fun front' rest' hat' hle' => hfirst front' rest' hat' ?_⟩
      -- the directory at the place itself is none of the router's
      rcases Nat.lt_or_eq_of_le hle' with hlt | heq
      · exact hlt
      · obtain ⟨rfl, hrest⟩ := List.append_inj hat'.split heq
        exact absurd ⟨(List.cons.inj hrest).1, hat'.project⟩ hname

theorem splitAtRouter?_isSome {dir : String} : ∀ {dirs before front rest : List String},
    RouterAt dir (before ++ dirs) (before ++ front) rest →
      (splitAtRouter? dir before dirs).isSome = true
  | [], before, front, rest, h => by
    have hsplit := h.split
    simp at hsplit
  | name :: dirs, before, front, rest, h => by
    rw [splitAtRouter?]
    split
    · rfl
    · next hname =>
      have hsplit := h.split
      rw [List.append_assoc, List.append_cancel_left_eq] at hsplit
      cases front with
      | nil =>
        rw [List.append_nil] at h
        exact absurd ⟨(List.cons.inj hsplit).1, h.project⟩ hname
      | cons d front =>
        obtain ⟨rfl, rfl⟩ := List.cons.inj hsplit
        have hnext : RouterAt dir ((before ++ [name]) ++ (front ++ dir :: rest))
            ((before ++ [name]) ++ front) rest := by
          refine ⟨by simp, ?_⟩
          rw [List.append_assoc, List.singleton_append]
          exact h.project
        exact splitAtRouter?_isSome hnext

theorem splitAtRouter?_eq_some_iff {dir : String} {dirs front rest : List String} :
    splitAtRouter? dir [] dirs = some (front, rest) ↔ RouterAt dir dirs front rest ∧
      ∀ front' rest', RouterAt dir dirs front' rest' → front.length ≤ front'.length := by
  constructor
  · intro h
    obtain ⟨hat, -, hfirst⟩ := splitAtRouter?_spec h
    exact ⟨hat, fun front' rest' hat' => hfirst front' rest' hat' (Nat.zero_le _)⟩
  · rintro ⟨hat, hfirst⟩
    have hfound : (splitAtRouter? dir [] dirs).isSome = true := splitAtRouter?_isSome hat
    obtain ⟨⟨front', rest'⟩, hsome⟩ := Option.isSome_iff_exists.1 hfound
    obtain ⟨hat', -, hfirst'⟩ := splitAtRouter?_spec hsome
    have hlen := Nat.le_antisymm (hfirst front' rest' hat') (hfirst' front rest hat (Nat.zero_le _))
    obtain ⟨rfl, hrest⟩ := List.append_inj (hat.split.symm.trans hat'.split) hlen
    rw [hsome, (List.cons.inj hrest).2]

theorem splitAtRouter?_eq_none_iff {dir : String} {dirs : List String} :
    splitAtRouter? dir [] dirs = none ↔ ∀ front rest, ¬RouterAt dir dirs front rest := by
  constructor
  · intro h front rest hat
    have hsome : (splitAtRouter? dir [] dirs).isSome = true := splitAtRouter?_isSome hat
    rw [h] at hsome
    cases hsome
  · intro h
    cases hsplit : splitAtRouter? dir [] dirs with
    | none => rfl
    | some found => exact absurd (splitAtRouter?_eq_some_iff.1 hsplit).1 (h _ _)

/-- A router directory in a project is the first one if no directory before it has its name. -/
theorem splitAtRouter?_of_notMem {dir : String} {front rest : List String} (hdir : dir ∉ front)
    (hroot : isProjectRoot front = true) :
    splitAtRouter? dir [] (front ++ dir :: rest) = some (front, rest) := by
  rw [splitAtRouter?_eq_some_iff]
  refine ⟨⟨rfl, hroot⟩, ?_⟩
  intro front' rest' hat
  rcases List.append_eq_append_iff.1 hat.split with ⟨more, rfl, -⟩ | ⟨more, hfront, hmore⟩
  · simp
  · cases more with
    | nil => simp [hfront]
    | cons d more =>
      obtain rfl : dir = d := (List.cons.inj hmore).1
      simp [hfront] at hdir

theorem splitAtSvelteKit?_eq_some_iff {dirs front rest : List String} :
    splitAtSvelteKit? dirs = some (front, rest) ↔
      splitAtRouter? "routes" [] dirs = some (front, rest) ∧ front.getLast? = some "src" := by
  rw [splitAtSvelteKit?, Option.filter_eq_some_iff]
  simp

theorem edgeFunction?_eq_some_iff {dirs : List String} {name : String} :
    edgeFunction? dirs = some name ↔ ∃ front, dirs = front ++ ["supabase", "functions", name] ∧
      isProjectRoot front = true ∧ startsWith '_' name = false := by
  constructor
  · intro h
    rw [edgeFunction?] at h
    split at h
    · next found front hdirs =>
      split at h
      · next hroot =>
        obtain rfl : found = name := Option.some.inj h
        refine ⟨front.reverse, ?_, hroot.1, by simpa using hroot.2⟩
        rw [← List.reverse_reverse dirs, hdirs]
        simp
      · cases h
    · cases h
  · rintro ⟨front, rfl, hroot, hname⟩
    simp [edgeFunction?, hroot, hname]

/-! ## Nested roots -/

/-- Two router directories of different names lie one behind the other. -/
theorem RouterAt.length_ne {dir dir' : String} {dirs front front' rest rest' : List String}
    (h : RouterAt dir dirs front rest) (h' : RouterAt dir' dirs front' rest') (hne : dir ≠ dir') :
    front.length ≠ front'.length := by
  intro hlen
  obtain ⟨-, hrest⟩ := List.append_inj (h.split.symm.trans h'.split) hlen
  exact hne (List.cons.inj hrest).1

/-- **Nested roots.** A router directory that lies in a project below another router directory lies
right inside of it or in its `src`, and the outer one is at the top. -/
theorem RouterAt.nested {outer inner : String} {dirs front front' rest rest' : List String}
    (houter : RouterAt outer dirs front rest) (hinner : RouterAt inner dirs front' rest')
    (hlt : front.length < front'.length) (hsrc : outer ≠ "src") (hdir : outer ∉ workspaceDirs) :
    ∃ between, IsTop front ∧ IsInner between ∧ front' = front ++ outer :: between ∧
      rest = between ++ inner :: rest' := by
  rcases List.append_eq_append_iff.1 (houter.split.symm.trans hinner.split) with
    ⟨more, rfl, hmore⟩ | ⟨more, rfl, -⟩
  · cases more with
    | nil => simp at hlt
    | cons d between =>
      obtain ⟨rfl, rfl⟩ := List.cons.inj hmore
      obtain ⟨htop, hbetween⟩ := isProjectRoot_below hsrc hdir hinner.project
      exact ⟨between, htop, hbetween, rfl, rfl⟩
  · rw [List.length_append] at hlt
    omega

/-! ## Files that serve -/

theorem FileName.ofPath_eq (path : String) : ofPath path =
    ⟨(Path.names path).dropLast, (Path.names path).getLastD "",
      (Path.splitExtension ((Path.names path).getLastD "")).1,
      (Path.splitExtension ((Path.names path).getLastD "")).2⟩ := by
  simp only [ofPath]

/-- The page of a SvelteKit project has an extension of its own. -/
theorem extension_of_svelteKit {path : String} (h : (FileName.ofPath path).name = "+page.svelte") :
    (FileName.ofPath path).extension = "svelte" := by
  have hsplit : Path.splitExtension "+page.svelte" = ("+page", "svelte") := by decide
  rw [FileName.ofPath_eq] at h ⊢
  simp only at h ⊢
  rw [h, hsplit]

/-- How a file serves a page: the directory of a router, and what the router asks of the file. -/
inductive Page (file : FileName) : ScreenFile → Prop where
  | svelteKit {front rest} : file.name = "+page.svelte" →
      splitAtSvelteKit? file.dirs = some (front, rest) →
      Page file ⟨ofSegments rest, .svelteKit, Path.ofNames (front ++ ["routes"])⟩
  | app {front rest} : file.name ≠ "+page.svelte" → file.extension ∈ pageExtensions →
      file.stem = "page" → splitAtRouter? "app" [] file.dirs = some (front, rest) →
      rest.any (startsWith '_') = false →
      Page file ⟨ofSegments rest, .appRouter, Path.ofNames (front ++ ["app"])⟩
  | pages {front rest} : file.name ≠ "+page.svelte" → file.extension ∈ pageExtensions →
      (file.stem = "page" → splitAtRouter? "app" [] file.dirs = none) →
      splitAtRouter? "pages" [] file.dirs = some (front, rest) → rest.head? ≠ some "api" →
      startsWith '_' file.stem = false →
      Page file ⟨ofSegments (pageSegments rest file.stem), .pagesRouter,
        Path.ofNames (front ++ ["pages"])⟩

/-- How a file serves requests. -/
inductive Handler (file : FileName) : HandlerFile → Prop where
  | edgeFunction {name} : file.extension ∈ handlerExtensions → file.stem = "index" →
      edgeFunction? file.dirs = some name →
      Handler file ⟨"/functions/v1/" ++ name, .edgeFunction⟩
  | svelteKit {front rest} : file.extension ∈ handlerExtensions → file.stem = "+server" →
      splitAtSvelteKit? file.dirs = some (front, rest) →
      Handler file ⟨ofSegments rest, .svelteKitServer⟩
  | app {front rest} : file.extension ∈ handlerExtensions → file.stem = "route" →
      splitAtRouter? "app" [] file.dirs = some (front, rest) →
      rest.any (startsWith '_') = false → Handler file ⟨ofSegments rest, .routeHandler⟩
  | pages {front rest} : file.extension ∈ handlerExtensions →
      (file.stem = "index" → edgeFunction? file.dirs = none) → file.stem ≠ "+server" →
      (file.stem = "route" → splitAtRouter? "app" [] file.dirs = none) →
      splitAtRouter? "pages" [] file.dirs = some (front, rest) → rest.head? = some "api" →
      startsWith '_' file.stem = false →
      Handler file ⟨ofSegments (pageSegments rest file.stem), .pagesApi⟩

theorem screen?_eq_some_iff {path : String} {s : ScreenFile} :
    screen? path = some s ↔ Page (.ofPath path) s := by
  rw [screen?]
  generalize FileName.ofPath path = file
  by_cases hname : file.name = "+page.svelte"
  · simp only [hname, if_true, Option.map_eq_some_iff, Prod.exists]
    constructor
    · rintro ⟨front, rest, hsplit, rfl⟩
      exact .svelteKit hname hsplit
    · rintro (⟨-, hsplit⟩ | ⟨hne, -⟩ | ⟨hne, -⟩)
      · exact ⟨_, _, hsplit, rfl⟩
      · exact absurd hname hne
      · exact absurd hname hne
  · rw [if_neg hname]
    constructor
    · intro h
      split at h
      · cases h
      · next hext =>
        have hext : file.extension ∈ pageExtensions := by simpa using hext
        split at h
        · next front rest happ =>
          obtain ⟨hstem, happ⟩ := Option.ite_none_right_eq_some.1 happ
          split at h
          · cases h
          · next hopen =>
            obtain rfl := Option.some.inj h
            exact .app hname hext hstem happ (by simpa using hopen)
        · next happ =>
          have hnoApp : file.stem = "page" → splitAtRouter? "app" [] file.dirs = none :=
            ite_eq_right_iff.1 happ
          split at h
          · next front rest hpages =>
            split at h
            · cases h
            · next hshown =>
              simp only [Bool.or_eq_true, decide_eq_true_eq, not_or, Bool.not_eq_true] at hshown
              obtain rfl := Option.some.inj h
              exact .pages hname hext hnoApp hpages hshown.1 hshown.2
          · cases h
    · rintro (⟨hsvelte, -⟩ | ⟨-, hext, hstem, happ, hopen⟩ |
        ⟨-, hext, hnoApp, hpages, hapi, hshown⟩)
      · exact absurd hsvelte hname
      · simp only [hstem, happ, List.contains_iff_mem.2 hext]
        simpa using hopen
      · have happ : (if file.stem = "page" then splitAtRouter? "app" [] file.dirs else none) =
            none := ite_eq_right_iff.2 hnoApp
        simp [happ, hpages, hapi, hshown, hext]

theorem handler?_eq_some_iff {path : String} {h : HandlerFile} :
    handler? path = some h ↔ Handler (.ofPath path) h := by
  rw [handler?]
  generalize FileName.ofPath path = file
  constructor
  · intro hsome
    split at hsome
    · cases hsome
    · next hext =>
      have hext : file.extension ∈ handlerExtensions := by simpa using hext
      split at hsome
      · next name hedge =>
        obtain ⟨hstem, hedge⟩ := Option.ite_none_right_eq_some.1 hedge
        obtain rfl := Option.some.inj hsome
        exact .edgeFunction hext hstem hedge
      · next hedge =>
        have hnoEdge : file.stem = "index" → edgeFunction? file.dirs = none :=
          ite_eq_right_iff.1 hedge
        split at hsome
        · next hstem =>
          obtain ⟨⟨front, rest⟩, hsplit, rfl⟩ := Option.map_eq_some_iff.1 hsome
          exact .svelteKit hext hstem hsplit
        · next hserver =>
          split at hsome
          · next front rest happ =>
            obtain ⟨hstem, happ⟩ := Option.ite_none_right_eq_some.1 happ
            split at hsome
            · cases hsome
            · next hopen =>
              obtain rfl := Option.some.inj hsome
              exact .app hext hstem happ (by simpa using hopen)
          · next happ =>
            have hnoApp : file.stem = "route" → splitAtRouter? "app" [] file.dirs = none :=
              ite_eq_right_iff.1 happ
            split at hsome
            · next front rest hpages =>
              split at hsome
              · cases hsome
              · next hshown =>
                simp only [Bool.or_eq_true, decide_eq_true_eq, not_or, Bool.not_eq_true,
                  not_not] at hshown
                obtain rfl := Option.some.inj hsome
                exact .pages hext hnoEdge hserver hnoApp hpages hshown.1 hshown.2
            · cases hsome
  · rintro (⟨hext, hstem, hedge⟩ | ⟨hext, hstem, hsplit⟩ | ⟨hext, hstem, happ, hopen⟩ |
      ⟨hext, hnoEdge, hserver, hnoApp, hpages, hapi, hshown⟩)
    · simp [hext, hstem, hedge]
    · simp [hext, hstem, hsplit]
    · simp only [hstem, happ, List.contains_iff_mem.2 hext]
      simpa using hopen
    · have hedge : (if file.stem = "index" then edgeFunction? file.dirs else none) = none :=
        ite_eq_right_iff.2 hnoEdge
      have happ : (if file.stem = "route" then splitAtRouter? "app" [] file.dirs else none) =
          none := ite_eq_right_iff.2 hnoApp
      simp [hedge, happ, hserver, hpages, hapi, hshown, hext]

end ArchGraph.Route
