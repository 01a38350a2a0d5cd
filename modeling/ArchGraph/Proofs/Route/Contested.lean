import ArchGraph.Proofs.Route.Roots
/-!
# Files that serve both a page and requests

Whether a file serves a page and whether it serves requests is decided on its own, each by the
first directory of a router. The answers exclude each other unless two routers claim the file, the
directory of one right inside of the other or in its `src` (`serves_both_iff`); such a file is a
screen by the one and an endpoint by the other (`serves_both_below_app`).
-/

namespace ArchGraph.Route

/-- No directory is private to an app directory. -/
def NonePrivate (dirs : List String) : Prop := ∀ dir ∈ dirs, startsWith '_' dir = false

/-- The directories and the name of a file that two routers claim, one for pages and the other one
for requests. -/
inductive Contested (dirs : List String) (stem : String) : Prop where
  /-- A page of an app directory whose `pages/api` serves requests. -/
  | page {front between rest} : IsTop front → IsInner between →
      dirs = front ++ "app" :: (between ++ "pages" :: "api" :: rest) → NonePrivate rest →
      stem = "page" → Contested dirs stem
  /-- A handler of an app directory that contains a pages directory. -/
  | routeOfPages {front between rest} : IsTop front → IsInner between →
      dirs = front ++ "app" :: (between ++ "pages" :: rest) → NonePrivate rest →
      rest.head? ≠ some "api" → stem = "route" → Contested dirs stem
  /-- A handler of an app directory in a pages directory. -/
  | routeInPages {front between rest} : IsTop front → IsInner between →
      dirs = front ++ "pages" :: (between ++ "app" :: rest) → NonePrivate rest →
      stem = "route" → Contested dirs stem
  /-- A handler of a SvelteKit project in a pages directory. -/
  | server {front rest} : IsTop front →
      dirs = front ++ "pages" :: "src" :: "routes" :: rest → stem = "+server" → Contested dirs stem
  /-- An edge function in a pages directory. -/
  | edgeFunction {front between name} : IsTop front → IsInner between →
      dirs = front ++ "pages" :: (between ++ ["supabase", "functions", name]) →
      startsWith '_' name = false → stem = "index" → Contested dirs stem

variable {file : FileName} {path : String} {s : ScreenFile} {h : HandlerFile}

theorem NonePrivate.any {dirs : List String} :
    NonePrivate dirs ↔ dirs.any (startsWith '_') = false := by
  simp [NonePrivate]

theorem NonePrivate.append {front back : List String} :
    NonePrivate (front ++ back) ↔ NonePrivate front ∧ NonePrivate back := List.forall_mem_append

theorem NonePrivate.cons {dir : String} {dirs : List String} :
    NonePrivate (dir :: dirs) ↔ startsWith '_' dir = false ∧ NonePrivate dirs := List.forall_mem_cons

theorem IsInner.nonePrivate {between : List String} (h : IsInner between) : NonePrivate between := by
  rcases h with rfl | rfl
  · simp [NonePrivate]
  · simp only [NonePrivate, List.mem_singleton, forall_eq]
    decide

/-! ## Two claims -/

/-- A page of an app directory that serves requests lies below its `pages/api`. -/
theorem contested_of_page {front front' rest rest' : List String} {dirs : List String}
    (happ : RouterAt "app" dirs front rest) (hpages : RouterAt "pages" dirs front' rest')
    (hopen : NonePrivate rest) (hapi : rest'.head? = some "api") : Contested dirs "page" := by
  rcases Nat.lt_or_gt_of_ne (happ.length_ne hpages (by decide)) with hlt | hlt
  · obtain ⟨between, htop, hbetween, -, rfl⟩ := happ.nested hpages hlt (by decide) (by decide)
    obtain ⟨more, rfl⟩ := List.head?_eq_some_iff.1 hapi
    have hmore : NonePrivate more := by
      simp only [NonePrivate.append, NonePrivate.cons] at hopen
      exact hopen.2.2.2
    exact .page htop hbetween happ.split hmore rfl
  · -- what stands right inside of the pages directory is the app directory or its source
    obtain ⟨between, -, hbetween, -, rfl⟩ := hpages.nested happ hlt (by decide) (by decide)
    rcases hbetween with rfl | rfl <;> simp at hapi

/-- A handler of an app directory that serves a page lies below a pages directory as well. -/
theorem contested_of_route {front front' rest rest' : List String} {dirs : List String}
    (happ : RouterAt "app" dirs front rest) (hpages : RouterAt "pages" dirs front' rest')
    (hopen : NonePrivate rest) (hapi : rest'.head? ≠ some "api") : Contested dirs "route" := by
  rcases Nat.lt_or_gt_of_ne (happ.length_ne hpages (by decide)) with hlt | hlt
  · obtain ⟨between, htop, hbetween, -, rfl⟩ := happ.nested hpages hlt (by decide) (by decide)
    simp only [NonePrivate.append, NonePrivate.cons] at hopen
    exact .routeOfPages htop hbetween happ.split hopen.2.2 hapi rfl
  · obtain ⟨between, htop, hbetween, -, rfl⟩ := hpages.nested happ hlt (by decide) (by decide)
    exact .routeInPages htop hbetween hpages.split hopen rfl

/-- A handler of a SvelteKit project that serves a page lies in the source of a pages directory. -/
theorem contested_of_server {front front' rest rest' : List String} {dirs : List String}
    (hroutes : RouterAt "routes" dirs front rest) (hsrc : front.getLast? = some "src")
    (hpages : RouterAt "pages" dirs front' rest') : Contested dirs "+server" := by
  rcases Nat.lt_or_gt_of_ne (hroutes.length_ne hpages (by decide)) with hlt | hlt
  · obtain ⟨between, htop, -, -, -⟩ := hroutes.nested hpages hlt (by decide) (by decide)
    rcases htop with rfl | ⟨w, hw, rfl⟩
    · cases hsrc
    · obtain rfl : w = "src" := by simpa using hsrc
      exact absurd hw (by decide)
  · obtain ⟨between, htop, hbetween, rfl, rfl⟩ := hpages.nested hroutes hlt (by decide) (by decide)
    rcases hbetween with rfl | rfl
    · simp at hsrc
    · exact .server htop hpages.split rfl

/-- An edge function that serves a page lies in a pages directory. -/
theorem contested_of_edgeFunction {front front' rest' : List String} {name : String}
    (hroot : isProjectRoot front = true) (hname : startsWith '_' name = false)
    (hpages : RouterAt "pages" (front ++ ["supabase", "functions", name]) front' rest') :
    Contested (front ++ ["supabase", "functions", name]) "index" := by
  have hsplit := hpages.split
  rcases List.append_eq_append_iff.1 hsplit with ⟨more, rfl, hmore⟩ | ⟨more, rfl, hmore⟩
  · -- the pages directory cannot stand behind the functions: they are no project
    match more, hmore with
    | [], hmore => exact absurd (List.cons.inj hmore).1 (by decide)
    | [_], hmore => exact absurd (List.cons.inj (List.cons.inj hmore).2).1 (by decide)
    | [d, e], hmore =>
      obtain ⟨rfl, hrest⟩ := List.cons.inj hmore
      obtain rfl : "functions" = e := (List.cons.inj hrest).1
      obtain ⟨-, hbetween⟩ := isProjectRoot_below (by decide) (by decide) hpages.project
      exact absurd hbetween (by unfold IsInner; decide)
    | _ :: _ :: _ :: _, hmore => simp at hmore
  · cases more with
    | nil => exact absurd (List.cons.inj hmore).1 (by decide)
    | cons d between =>
      obtain ⟨rfl, rfl⟩ := List.cons.inj hmore
      obtain ⟨htop, hbetween⟩ := isProjectRoot_below (by decide) (by decide) hroot
      exact .edgeFunction htop hbetween hsplit hname rfl

/-- A file that serves a page and requests is claimed by two routers. -/
theorem contested_of_both (hs : Page file s) (hh : Handler file h)
    (hname : file.name ≠ "+page.svelte") :
    file.extension ∈ pageExtensions ∧ file.extension ∈ handlerExtensions ∧
      Contested file.dirs file.stem := by
  have hext : file.extension ∈ handlerExtensions := by cases hh <;> assumption
  cases hs with
  | svelteKit hsvelte _ => exact absurd hsvelte hname
  | app _ hpage hstem happ hopen =>
    refine ⟨hpage, hext, ?_⟩
    obtain ⟨happ, -⟩ := splitAtRouter?_eq_some_iff.1 happ
    cases hh with
    | edgeFunction _ hstem' _ => exact absurd (hstem.symm.trans hstem') (by decide)
    | svelteKit _ hstem' _ => exact absurd (hstem.symm.trans hstem') (by decide)
    | app _ hstem' _ _ => exact absurd (hstem.symm.trans hstem') (by decide)
    | pages _ _ _ _ hpages hapi _ =>
      obtain ⟨hpages, -⟩ := splitAtRouter?_eq_some_iff.1 hpages
      rw [hstem]
      exact contested_of_page happ hpages (NonePrivate.any.2 hopen) hapi
  | pages _ hpage _ hpages hapi _ =>
    refine ⟨hpage, hext, ?_⟩
    obtain ⟨hat, -⟩ := splitAtRouter?_eq_some_iff.1 hpages
    cases hh with
    | edgeFunction _ hstem hedge =>
      obtain ⟨front, hdirs, hroot, hprivate⟩ := edgeFunction?_eq_some_iff.1 hedge
      rw [hdirs] at hat
      rw [hstem, hdirs]
      exact contested_of_edgeFunction hroot hprivate hat
    | svelteKit _ hstem hsplit =>
      obtain ⟨hroutes, hsrc⟩ := splitAtSvelteKit?_eq_some_iff.1 hsplit
      obtain ⟨hroutes, -⟩ := splitAtRouter?_eq_some_iff.1 hroutes
      rw [hstem]
      exact contested_of_server hroutes hsrc hat
    | app _ hstem happ hopen =>
      obtain ⟨happ, -⟩ := splitAtRouter?_eq_some_iff.1 happ
      rw [hstem]
      exact contested_of_route happ hat (NonePrivate.any.2 hopen) hapi
    | pages _ _ _ _ hpages' hapi' _ =>
      rw [hpages] at hpages'
      cases hpages'
      exact absurd hapi' hapi

/-! ## Both claims hold -/

/-- The outer one of two router directories is found. -/
theorem splitAtRouter?_outer {dir : String} {dirs front rest : List String} (htop : IsTop front)
    (hdir : dir ∉ workspaceDirs) (hdirs : dirs = front ++ dir :: rest) :
    splitAtRouter? dir [] dirs = some (front, rest) := by
  rw [hdirs]
  refine splitAtRouter?_of_notMem ?_ htop.isProjectRoot
  rcases htop with rfl | ⟨w, hw, rfl⟩
  · simp
  · rw [List.mem_singleton]
    rintro rfl
    exact hdir hw

/-- The inner one of two router directories is found. -/
theorem splitAtRouter?_inner {outer inner : String} {dirs front between rest : List String}
    (htop : IsTop front) (hbetween : IsInner between) (hne : inner ≠ outer)
    (houter : outer ∉ "src" :: nonRouteDirs) (hinner : inner ∉ "src" :: workspaceDirs)
    (hdirs : dirs = front ++ outer :: (between ++ inner :: rest)) :
    splitAtRouter? inner [] dirs = some (front ++ outer :: between, rest) := by
  rw [List.mem_cons, not_or] at houter hinner
  have hassoc : front ++ outer :: (between ++ inner :: rest) =
      (front ++ outer :: between) ++ inner :: rest := by simp
  have hfront : inner ∉ front := by
    rcases htop with rfl | ⟨w, hw, rfl⟩
    · simp
    · rw [List.mem_singleton]
      rintro rfl
      exact hinner.2 hw
  have hbehind : inner ∉ between := by
    rcases hbetween with rfl | rfl
    · simp
    · simpa using hinner.1
  rw [hdirs, hassoc]
  refine splitAtRouter?_of_notMem ?_ (htop.isProjectRoot_below hbetween houter.1 houter.2)
  simp [hfront, hbehind, hne]

/-- A file that two routers claim serves a page and requests. -/
theorem both_of_contested (hname : file.name ≠ "+page.svelte")
    (hpage : file.extension ∈ pageExtensions) (hhandler : file.extension ∈ handlerExtensions)
    (hfile : Contested file.dirs file.stem) : (∃ s, Page file s) ∧ ∃ h, Handler file h := by
  have other {name name' : String} {P : Prop} (hstem : file.stem = name) (hne : name ≠ name')
      (hstem' : file.stem = name') : P := absurd (hstem.symm.trans hstem') hne
  cases hfile with
  | page htop hbetween hdirs hopen hstem =>
    have happ := splitAtRouter?_outer htop (by decide) hdirs
    have hpages := splitAtRouter?_inner htop hbetween (by decide) (by decide) (by decide) hdirs
    refine ⟨⟨_, .app hname hpage hstem happ ?_⟩,
      ⟨_, .pages hhandler (other hstem (by decide)) (other hstem (by decide))
        (other hstem (by decide)) hpages rfl (hstem ▸ by decide)⟩⟩
    refine NonePrivate.any.1 (NonePrivate.append.2 ⟨hbetween.nonePrivate, ?_⟩)
    exact NonePrivate.cons.2 ⟨by decide, NonePrivate.cons.2 ⟨by decide, hopen⟩⟩
  | routeOfPages htop hbetween hdirs hopen hapi hstem =>
    have happ := splitAtRouter?_outer htop (by decide) hdirs
    have hpages := splitAtRouter?_inner htop hbetween (by decide) (by decide) (by decide) hdirs
    refine ⟨⟨_, .pages hname hpage (other hstem (by decide)) hpages hapi (hstem ▸ by decide)⟩,
      ⟨_, .app hhandler hstem happ ?_⟩⟩
    refine NonePrivate.any.1 (NonePrivate.append.2 ⟨hbetween.nonePrivate, ?_⟩)
    exact NonePrivate.cons.2 ⟨by decide, hopen⟩
  | routeInPages htop hbetween hdirs hopen hstem =>
    have hpages := splitAtRouter?_outer htop (by decide) hdirs
    have happ := splitAtRouter?_inner htop hbetween (by decide) (by decide) (by decide) hdirs
    refine ⟨⟨_, .pages hname hpage (other hstem (by decide)) hpages ?_ (hstem ▸ by decide)⟩,
      ⟨_, .app hhandler hstem happ (NonePrivate.any.1 hopen)⟩⟩
    rcases hbetween with rfl | rfl <;> simp
  | @server front rest htop hdirs hstem =>
    have hpages := splitAtRouter?_outer htop (by decide) hdirs
    have hroutes : splitAtRouter? "routes" [] file.dirs = some (front ++ "pages" :: ["src"], rest) :=
      splitAtRouter?_inner htop (.inr rfl) (by decide) (by decide) (by decide) hdirs
    exact ⟨⟨_, .pages hname hpage (other hstem (by decide)) hpages (by simp)
      (hstem ▸ by decide)⟩,
      ⟨_, .svelteKit hhandler hstem (splitAtSvelteKit?_eq_some_iff.2 ⟨hroutes, by simp⟩)⟩⟩
  | @edgeFunction front between name htop hbetween hdirs hprivate hstem =>
    have hpages := splitAtRouter?_outer htop (by decide) hdirs
    have hedge : edgeFunction? file.dirs = some name := by
      refine edgeFunction?_eq_some_iff.2 ⟨front ++ "pages" :: between, by simp [hdirs], ?_, hprivate⟩
      exact htop.isProjectRoot_below hbetween (by decide) (by decide)
    refine ⟨⟨_, .pages hname hpage (other hstem (by decide)) hpages ?_ (hstem ▸ by decide)⟩,
      ⟨_, .edgeFunction hhandler hstem hedge⟩⟩
    rcases hbetween with rfl | rfl <;> simp

/-- **Files that serve both.** A file serves a page and requests exactly if its extension is one of
both and two routers claim it, the directory of one inside of the other. -/
theorem serves_both_iff (path : String) :
    (screen? path).isSome = true ∧ (handler? path).isSome = true ↔
      (FileName.ofPath path).extension ∈ pageExtensions ∧
        (FileName.ofPath path).extension ∈ handlerExtensions ∧
          Contested (FileName.ofPath path).dirs (FileName.ofPath path).stem := by
  have hname {extensions : List String} (hsvelte : "svelte" ∉ extensions)
      (hext : (FileName.ofPath path).extension ∈ extensions) :
      (FileName.ofPath path).name ≠ "+page.svelte" := by
    intro hname
    rw [extension_of_svelteKit hname] at hext
    exact hsvelte hext
  constructor
  · rintro ⟨hscreen, hhandler⟩
    obtain ⟨s, hs⟩ := Option.isSome_iff_exists.1 hscreen
    obtain ⟨h, hh⟩ := Option.isSome_iff_exists.1 hhandler
    rw [screen?_eq_some_iff] at hs
    rw [handler?_eq_some_iff] at hh
    have hext : (FileName.ofPath path).extension ∈ handlerExtensions := by cases hh <;> assumption
    exact contested_of_both hs hh (hname (by decide) hext)
  · rintro ⟨hpage, hhandler, hfile⟩
    obtain ⟨⟨s, hs⟩, h, hh⟩ := both_of_contested (hname (by decide) hpage) hpage hhandler hfile
    exact ⟨Option.isSome_iff_exists.2 ⟨s, screen?_eq_some_iff.2 hs⟩,
      Option.isSome_iff_exists.2 ⟨h, handler?_eq_some_iff.2 hh⟩⟩

/-- A page of an app directory that serves requests by the pages directory inside of it. -/
theorem serves_both_below_app :
    screen? "app/pages/api/page.tsx" = some ⟨"/pages/api", .appRouter, "app"⟩ ∧
      handler? "app/pages/api/page.tsx" = some ⟨"/api/page", .pagesApi⟩ := by
  decide

end ArchGraph.Route
