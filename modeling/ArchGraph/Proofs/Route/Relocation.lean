import ArchGraph.Proofs.Path.Names
import ArchGraph.Proofs.Route.Roots
/-!
# Projects moved into a workspace

What a project serves when it becomes a member of a workspace. The routes stay as they are, and the
router directories get the member's directories in front of them, exactly as long as the project was
the repository's own and no router directory that is looked for is called like the member
(`serves_in_member_iff`). A member called `app` is itself taken for the router directory of its
workspace (`serves_in_member_app`), and a directory below another one is only taken for a project
at the top of a repository.
-/

namespace ArchGraph.Route

/-- The path of a file in the directory of a workspace member. -/
def inMember (w m path : String) : String := w ++ "/" ++ (m ++ "/" ++ path)

/-- The file in the directory of a workspace member. -/
def FileName.inMember (w m : String) (file : FileName) : FileName :=
  { file with dirs := w :: m :: file.dirs }

/-- The page, served from the directory of a workspace member. -/
def ScreenFile.inMember (w m : String) (s : ScreenFile) : ScreenFile :=
  { s with routerDir := Route.inMember w m s.routerDir }

/-- The directories in which the routes of pages start. -/
def screenDirs : RouterKind → List String
  | .appRouter => ["app"]
  | .pagesRouter => ["pages"]
  | .svelteKit => ["routes"]

/-- The directories in which the routes of requests start. -/
def handlerDirs : HandlerKind → List String
  | .routeHandler => ["app"]
  | .pagesApi => ["pages"]
  | .svelteKitServer => ["routes"]
  | .edgeFunction => ["supabase", "functions"]

/-- The names that are looked for until a pages directory is found: files whose stem is that of an
app directory's are looked for there first. -/
def pagesSought (appStem stem : String) : List String :=
  if stem = appStem then ["app", "pages"] else ["pages"]

/-- The names of the directories that are looked for until a page is found. -/
def screenSought (stem : String) : RouterKind → List String
  | .appRouter => ["app"]
  | .pagesRouter => pagesSought "page" stem
  | .svelteKit => ["routes"]

/-- The names of the directories that are looked for until a handler is found. Those of an edge
function are not looked for: they are the last ones. -/
def handlerSought (stem : String) : HandlerKind → List String
  | .routeHandler => ["app"]
  | .pagesApi => pagesSought "route" stem
  | .svelteKitServer => ["routes"]
  | .edgeFunction => []

/-- Directories lie at the top of the repository or in its `src`. -/
def AtTop (routerDirs dirs : List String) : Prop :=
  ∃ front rest, IsInner front ∧ dirs = front ++ (routerDirs ++ rest)

variable {w m dir name : String} {dirs front front' rest rest' : List String} {file : FileName}

theorem notMem_pagesSought_iff {appStem stem : String} :
    m ∉ pagesSought appStem stem ↔ (stem = appStem → m ≠ "app") ∧ m ≠ "pages" := by
  rw [pagesSought]
  split
  · next hstem => simp [hstem]
  · next hstem => simp [hstem]

/-! ## Paths and routes -/

theorem names_inMember (hw : w ∈ workspaceDirs) (hm : '/' ∉ m.toList) (path : String) :
    Path.names (inMember w m path) = w :: m :: Path.names path := by
  have hslash : '/' ∉ w.toList := by
    revert w
    decide
  rw [inMember, Path.names_append_slash, Path.names_append_slash, Path.names_of_notMem hslash,
    Path.names_of_notMem hm]
  rfl

theorem ofPath_inMember (hw : w ∈ workspaceDirs) (hm : '/' ∉ m.toList) (path : String) :
    FileName.ofPath (inMember w m path) = (FileName.ofPath path).inMember w m := by
  have hlast (names : List String) (h : names ≠ []) :
      (w :: m :: names).dropLast = w :: m :: names.dropLast ∧
        (w :: m :: names).getLastD "" = names.getLastD "" := by
    cases names with
    | nil => exact absurd rfl h
    | cons name names => simp [List.getLastD]
  obtain ⟨hdirs, hname⟩ := hlast _ (Path.names_ne_nil path)
  rw [FileName.ofPath_eq, FileName.ofPath_eq, FileName.inMember, names_inMember hw hm, hdirs, hname]

theorem ofNames_member (front : List String) (dir : String) :
    Path.ofNames (w :: m :: front ++ [dir]) = inMember w m (Path.ofNames (front ++ [dir])) := by
  rw [List.cons_append, List.cons_append, Path.ofNames_cons w (by simp),
    Path.ofNames_cons m (by simp), inMember]

/-- More names make a longer path. -/
theorem length_ofNames_lt (hdir : dir ≠ "") (names : List String) : ∀ front : List String,
    (Path.ofNames names).length < (Path.ofNames (front ++ dir :: names)).length
  | [] => by
    have hpos : 0 < dir.length := by
      rw [Nat.pos_iff_ne_zero, ne_eq, String.length_eq_zero_iff]
      exact hdir
    rw [List.nil_append]
    cases names with
    | nil => simpa [Path.ofNames] using hpos
    | cons name names =>
      rw [Path.ofNames_cons dir (List.cons_ne_nil _ _), String.length_append, String.length_append]
      omega
  | name :: front => by
    have ih := length_ofNames_lt hdir names front
    rw [List.cons_append, Path.ofNames_cons name (by simp), String.length_append, String.length_append]
    omega

/-- A route through a router directory is not the one behind it. -/
theorem ofSegments_ne (hdir : dir ∈ ["app", "pages", "routes"]) (front rest : List String) :
    ofSegments (front ++ dir :: rest) ≠ ofSegments rest := by
  have hshown : (!isGroup dir && !startsWith '@' dir) = true ∧ dir ≠ "" := by
    revert dir
    decide
  intro heq
  rw [ofSegments, ofSegments, List.filter_append, List.filter_cons, if_pos hshown.1] at heq
  have hlen := congrArg String.length heq
  have hlt := length_ofNames_lt hshown.2 (rest.filter fun s => !isGroup s && !startsWith '@' s)
    (front.filter fun s => !isGroup s && !startsWith '@' s)
  rw [String.length_append, String.length_append] at hlen
  rw [Path.ofNames, Path.ofNames] at hlt
  omega

theorem pageSegments_append (front rest : List String) (stem : String) :
    pageSegments (front ++ dir :: rest) stem = front ++ dir :: pageSegments rest stem := by
  rw [pageSegments, pageSegments]
  split
  · rfl
  · simp

/-! ## Router directories of a member -/

/-- A router directory of a member lies at its top or in its `src`, or it is the member itself. -/
theorem RouterAt.member_iff (hw : w ∈ workspaceDirs) (hsrc : m ≠ "src")
    (hdir : dir ∉ workspaceDirs) : RouterAt dir (w :: m :: dirs) front' rest ↔
      (front' = [w] ∧ m = dir ∧ dirs = rest) ∨
        ∃ front, front' = w :: m :: front ∧ IsInner front ∧ dirs = front ++ dir :: rest := by
  constructor
  · intro h
    match front', h.split with
    | [], hsplit =>
      obtain rfl : w = dir := (List.cons.inj hsplit).1
      exact absurd hw hdir
    | [d], hsplit =>
      obtain ⟨rfl, hrest⟩ := List.cons.inj hsplit
      exact .inl ⟨rfl, (List.cons.inj hrest).1, (List.cons.inj hrest).2⟩
    | d :: e :: front, hsplit =>
      obtain ⟨rfl, hrest⟩ := List.cons.inj hsplit
      obtain rfl : m = e := (List.cons.inj hrest).1
      have hsplit : dirs = front ++ dir :: rest := (List.cons.inj hrest).2
      exact .inr ⟨front, rfl, (isProjectRoot_member_iff hw hsrc).1 h.project, hsplit⟩
  · rintro (⟨rfl, rfl, rfl⟩ | ⟨front, rfl, hinner, rfl⟩)
    · exact ⟨rfl, IsTop.isProjectRoot (.inr ⟨w, hw, rfl⟩)⟩
    · exact ⟨rfl, (isProjectRoot_member_iff hw hsrc).2 hinner⟩

/-- A member called like a router directory is taken for it. -/
theorem splitAtRouter?_member_self (hw : w ∈ workspaceDirs) (hm : m ∉ workspaceDirs) :
    splitAtRouter? m [] (w :: m :: dirs) = some ([w], dirs) := by
  have hne : m ∉ [w] := by
    rw [List.mem_singleton]
    rintro rfl
    exact hm hw
  exact splitAtRouter?_of_notMem hne (IsTop.isProjectRoot (.inr ⟨w, hw, rfl⟩))

/-- The router directory that is found in a member is the one that is found in the project, if it
is the project's own. -/
theorem splitAtRouter?_member_iff (hw : w ∈ workspaceDirs) (hsrc : m ≠ "src")
    (hdir : dir ∉ workspaceDirs) (hm : m ≠ dir) :
    splitAtRouter? dir [] (w :: m :: dirs) = some (front', rest) ↔
      ∃ front, front' = w :: m :: front ∧ IsInner front ∧
        splitAtRouter? dir [] dirs = some (front, rest) := by
  simp only [splitAtRouter?_eq_some_iff, RouterAt.member_iff hw hsrc hdir]
  constructor
  · rintro ⟨⟨-, hself, -⟩ | ⟨front, rfl, hinner, rfl⟩, hfirst⟩
    · exact absurd hself hm
    · refine ⟨front, rfl, hinner, ⟨rfl, hinner.isProjectRoot⟩, fun front₀ rest₀ hat => ?_⟩
      rcases hinner with rfl | rfl
      · exact Nat.zero_le _
      · -- before a directory in `src` only one at the top could be found
        cases front₀ with
        | nil =>
          have hle := hfirst [w, m] rest₀ (.inr ⟨[], rfl, .inl rfl, hat.split⟩)
          simp at hle
        | cons d front₀ => simp
  · rintro ⟨front, rfl, hinner, hat, hfirst⟩
    refine ⟨.inr ⟨front, rfl, hinner, hat.split⟩, ?_⟩
    rintro front₀ rest₀ (⟨-, hself, -⟩ | ⟨front₀, rfl, hinner₀, hsplit⟩)
    · exact absurd hself hm
    · have hle := hfirst front₀ rest₀ ⟨hsplit, hinner₀.isProjectRoot⟩
      simpa using hle

/-- The directory that is found is the one at the top, if there is one. -/
theorem isInner_iff_atTop (h : splitAtRouter? dir [] dirs = some (front, rest)) :
    IsInner front ↔ AtTop [dir] dirs := by
  obtain ⟨hat, hfirst⟩ := splitAtRouter?_eq_some_iff.1 h
  constructor
  · intro hinner
    exact ⟨front, rest, hinner, hat.split⟩
  · rintro ⟨front', rest', hinner, hsplit⟩
    have hle := hfirst front' rest' ⟨hsplit, hinner.isProjectRoot⟩
    rcases Nat.lt_or_eq_of_le hle with hlt | heq
    · have hlen : front'.length ≤ 1 := by rcases hinner with rfl | rfl <;> simp
      exact .inl (List.length_eq_zero_iff.1 (by omega))
    · obtain ⟨rfl, -⟩ := List.append_inj (hat.split.symm.trans hsplit) heq
      exact hinner

/-- A router directory of the project's own is found in the member. -/
theorem splitAtRouter?_member (hw : w ∈ workspaceDirs) (hsrc : m ≠ "src")
    (hdir : dir ∉ workspaceDirs) (hm : m ≠ dir)
    (h : splitAtRouter? dir [] dirs = some (front, rest)) (htop : AtTop [dir] dirs) :
    splitAtRouter? dir [] (w :: m :: dirs) = some (w :: m :: front, rest) :=
  (splitAtRouter?_member_iff hw hsrc hdir hm).2 ⟨front, rfl, (isInner_iff_atTop h).2 htop, h⟩

/-- What the search for a router directory finds in a member, and in the project: the same directory,
or the member itself, behind which the whole path of the project lies. -/
theorem splitAtRouter?_member_cases (hw : w ∈ workspaceDirs) (hsrc : m ≠ "src")
    (hdir : dir ∉ workspaceDirs) (h : splitAtRouter? dir [] dirs = some (front, rest))
    (h' : splitAtRouter? dir [] (w :: m :: dirs) = some (front', rest')) :
    (m ≠ dir ∧ AtTop [dir] dirs ∧ front' = w :: m :: front ∧ rest' = rest) ∨
      rest' = front ++ dir :: rest := by
  by_cases hm : m = dir
  · subst hm
    rw [splitAtRouter?_member_self hw hdir] at h'
    obtain ⟨-, rfl⟩ : [w] = front' ∧ dirs = rest' := by simpa using h'
    exact .inr (splitAtRouter?_eq_some_iff.1 h).1.split
  · obtain ⟨found, rfl, hinner, hfound⟩ := (splitAtRouter?_member_iff hw hsrc hdir hm).1 h'
    obtain ⟨rfl, rfl⟩ : front = found ∧ rest = rest' := by simpa [h] using hfound
    exact .inl ⟨hm, (isInner_iff_atTop h).1 hinner, rfl, rfl⟩

/-- The search in a member that leaves the same route finds the project's own router directory. -/
theorem splitAtRouter?_member_of_route (hw : w ∈ workspaceDirs) (hsrc : m ≠ "src")
    (hdir : dir ∈ ["app", "pages", "routes"]) (h : splitAtRouter? dir [] dirs = some (front, rest))
    (h' : splitAtRouter? dir [] (w :: m :: dirs) = some (front', rest'))
    (hroute : ofSegments rest' = ofSegments rest) :
    m ≠ dir ∧ AtTop [dir] dirs ∧ front' = w :: m :: front ∧ rest' = rest := by
  have hworkspace : dir ∉ workspaceDirs := by
    clear h h'
    revert dir
    decide
  refine (splitAtRouter?_member_cases hw hsrc hworkspace h h').resolve_right ?_
  rintro rfl
  exact ofSegments_ne hdir front rest hroute

/-- So does the search for a file of the pages directory, whose name is part of the route. -/
theorem splitAtRouter?_member_of_page {stem : String} (hw : w ∈ workspaceDirs) (hsrc : m ≠ "src")
    (h : splitAtRouter? "pages" [] dirs = some (front, rest))
    (h' : splitAtRouter? "pages" [] (w :: m :: dirs) = some (front', rest'))
    (hroute : ofSegments (pageSegments rest' stem) = ofSegments (pageSegments rest stem)) :
    m ≠ "pages" ∧ AtTop ["pages"] dirs ∧ front' = w :: m :: front ∧ rest' = rest := by
  refine (splitAtRouter?_member_cases hw hsrc (by decide) h h').resolve_right ?_
  rintro rfl
  rw [pageSegments_append] at hroute
  exact ofSegments_ne (by decide) _ _ hroute

/-- A router directory that the project does not have is not found in the member, unless it is the
member itself. -/
theorem splitAtRouter?_member_eq_none (hw : w ∈ workspaceDirs) (hsrc : m ≠ "src")
    (hdir : dir ∉ workspaceDirs) (hm : m ≠ dir) (h : splitAtRouter? dir [] dirs = none) :
    splitAtRouter? dir [] (w :: m :: dirs) = none := by
  rw [Option.eq_none_iff_forall_not_mem]
  rintro ⟨front', rest⟩ hfound
  obtain ⟨front, -, -, hfound⟩ := (splitAtRouter?_member_iff hw hsrc hdir hm).1 hfound
  rw [h] at hfound
  cases hfound

theorem ne_of_splitAtRouter?_member_eq_none (hw : w ∈ workspaceDirs) (hdir : dir ∉ workspaceDirs)
    (h : splitAtRouter? dir [] (w :: m :: dirs) = none) : m ≠ dir := by
  rintro rfl
  rw [splitAtRouter?_member_self hw hdir] at h
  cases h

/-! ## Pages -/

theorem Page.in_member {s : ScreenFile} (hw : w ∈ workspaceDirs) (hsrc : m ≠ "src")
    (h : Page file s) (htop : AtTop (screenDirs s.router) file.dirs)
    (hm : m ∉ screenSought file.stem s.router) :
    Page (file.inMember w m) (s.inMember w m) := by
  cases h with
  | @svelteKit front rest hname hsplit =>
    obtain ⟨hroutes, hlast⟩ := splitAtSvelteKit?_eq_some_iff.1 hsplit
    rw [ScreenFile.inMember, ← ofNames_member]
    have hm : m ≠ "routes" := by simpa [screenSought] using hm
    have hroutes := splitAtRouter?_member hw hsrc (by decide) hm hroutes htop
    refine .svelteKit hname (splitAtSvelteKit?_eq_some_iff.2 ⟨hroutes, ?_⟩)
    simp [List.getLast?_cons, hlast]
  | app hname hext hstem happ hopen =>
    rw [ScreenFile.inMember, ← ofNames_member]
    have hm : m ≠ "app" := by simpa [screenSought] using hm
    exact .app hname hext hstem (splitAtRouter?_member hw hsrc (by decide) hm happ htop) hopen
  | pages hname hext hnoApp hpages hapi hshown =>
    rw [ScreenFile.inMember, ← ofNames_member]
    obtain ⟨happ, hm⟩ := notMem_pagesSought_iff.1 hm
    refine .pages hname hext (fun hstem => ?_)
      (splitAtRouter?_member hw hsrc (by decide) hm hpages htop) hapi hshown
    exact splitAtRouter?_member_eq_none hw hsrc (by decide) (happ hstem) (hnoApp hstem)

theorem Page.of_member {s s' : ScreenFile} (hw : w ∈ workspaceDirs) (hsrc : m ≠ "src")
    (h : Page file s) (h' : Page (file.inMember w m) s') (hroute : s'.route = s.route)
    (hrouter : s'.router = s.router) : s' = s.inMember w m ∧
      AtTop (screenDirs s.router) file.dirs ∧ m ∉ screenSought file.stem s.router := by
  cases h with
  | svelteKit _ hsplit =>
    cases h' with
    | app => cases hrouter
    | pages => cases hrouter
    | svelteKit _ hsplit' =>
      obtain ⟨hroutes, -⟩ := splitAtSvelteKit?_eq_some_iff.1 hsplit
      obtain ⟨hroutes', -⟩ := splitAtSvelteKit?_eq_some_iff.1 hsplit'
      obtain ⟨hm, htop, rfl, rfl⟩ :=
        splitAtRouter?_member_of_route hw hsrc (by decide) hroutes hroutes' hroute
      rw [ScreenFile.inMember, ← ofNames_member]
      exact ⟨rfl, htop, by simpa [screenSought] using hm⟩
  | app _ _ _ happ _ =>
    cases h' with
    | svelteKit => cases hrouter
    | pages => cases hrouter
    | app _ _ _ happ' _ =>
      obtain ⟨hm, htop, rfl, rfl⟩ :=
        splitAtRouter?_member_of_route hw hsrc (by decide) happ happ' hroute
      rw [ScreenFile.inMember, ← ofNames_member]
      exact ⟨rfl, htop, by simpa [screenSought] using hm⟩
  | pages _ _ _ hpages _ _ =>
    cases h' with
    | svelteKit => cases hrouter
    | app => cases hrouter
    | pages _ _ hnoApp hpages' _ _ =>
      obtain ⟨hm, htop, rfl, rfl⟩ := splitAtRouter?_member_of_page hw hsrc hpages hpages' hroute
      rw [ScreenFile.inMember, ← ofNames_member]
      refine ⟨rfl, htop, notMem_pagesSought_iff.2 ⟨fun hstem => ?_, hm⟩⟩
      exact ne_of_splitAtRouter?_member_eq_none hw (by decide) (hnoApp hstem)

/-! ## Handlers -/

/-- An edge function of a member lies at its top or in its `src`, or the member is its project. -/
theorem edgeFunction?_member_iff (hw : w ∈ workspaceDirs) (hsrc : m ≠ "src") :
    edgeFunction? (w :: m :: dirs) = some name ↔ startsWith '_' name = false ∧
      ((m = "supabase" ∧ dirs = ["functions", name]) ∨
        ∃ front, IsInner front ∧ dirs = front ++ ["supabase", "functions", name]) := by
  rw [edgeFunction?_eq_some_iff]
  constructor
  · rintro ⟨front', hsplit, hroot, hname⟩
    refine ⟨hname, ?_⟩
    match front', hsplit with
    | [], hsplit =>
      obtain rfl : w = "supabase" := (List.cons.inj hsplit).1
      exact absurd hw (by decide)
    | [d], hsplit => exact .inl (List.cons.inj (List.cons.inj hsplit).2)
    | d :: e :: front, hsplit =>
      obtain ⟨rfl, hrest⟩ := List.cons.inj hsplit
      obtain rfl : m = e := (List.cons.inj hrest).1
      exact .inr ⟨front, (isProjectRoot_member_iff hw hsrc).1 hroot, (List.cons.inj hrest).2⟩
  · rintro ⟨hname, ⟨rfl, rfl⟩ | ⟨front, hinner, rfl⟩⟩
    · exact ⟨[w], rfl, IsTop.isProjectRoot (.inr ⟨w, hw, rfl⟩), hname⟩
    · exact ⟨w :: m :: front, rfl, (isProjectRoot_member_iff hw hsrc).2 hinner, hname⟩

/-- An edge function whose directories start at the top lies at the top. -/
theorem isInner_of_atTop_edgeFunction (hroot : isProjectRoot front = true)
    (htop : AtTop ["supabase", "functions"] (front ++ ["supabase", "functions", name])) :
    IsInner front := by
  obtain ⟨front', rest, hinner, hsplit⟩ := htop
  rcases List.append_eq_append_iff.1 hsplit with ⟨more, rfl, -⟩ | ⟨more, rfl, hmore⟩
  · rcases hinner with hnil | hsrc
    · exact .inl (List.append_eq_nil_iff.1 hnil).1
    · rcases List.append_eq_singleton_iff.1 hsrc with ⟨rfl, -⟩ | ⟨rfl, -⟩
      · exact .inl rfl
      · exact .inr rfl
  · match more, hmore with
    | [], _ => rwa [List.append_nil]
    | d :: between, hmore =>
      -- the functions would have to stand where a project lies
      obtain ⟨rfl, hrest⟩ := List.cons.inj hmore
      obtain ⟨-, rfl | rfl⟩ := isProjectRoot_below (by decide) (by decide) hroot
      · exact absurd (List.cons.inj hrest).1 (by decide)
      · exact absurd (List.cons.inj hrest).1 (by decide)

theorem Handler.in_member {h : HandlerFile} (hw : w ∈ workspaceDirs) (hsrc : m ≠ "src")
    (hh : Handler file h) (htop : AtTop (handlerDirs h.handler) file.dirs)
    (hm : m ∉ handlerSought file.stem h.handler) : Handler (file.inMember w m) h := by
  cases hh with
  | edgeFunction hext hstem hedge =>
    obtain ⟨front, hdirs, hroot, hname⟩ := edgeFunction?_eq_some_iff.1 hedge
    rw [hdirs] at htop
    have hinner := isInner_of_atTop_edgeFunction hroot htop
    exact .edgeFunction hext hstem
      ((edgeFunction?_member_iff hw hsrc).2 ⟨hname, .inr ⟨front, hinner, hdirs⟩⟩)
  | @svelteKit front rest hext hstem hsplit =>
    obtain ⟨hroutes, hlast⟩ := splitAtSvelteKit?_eq_some_iff.1 hsplit
    have hm : m ≠ "routes" := by simpa [handlerSought] using hm
    have hroutes := splitAtRouter?_member hw hsrc (by decide) hm hroutes htop
    refine .svelteKit hext hstem (splitAtSvelteKit?_eq_some_iff.2 ⟨hroutes, ?_⟩)
    simp [List.getLast?_cons, hlast]
  | app hext hstem happ hopen =>
    have hm : m ≠ "app" := by simpa [handlerSought] using hm
    exact .app hext hstem (splitAtRouter?_member hw hsrc (by decide) hm happ htop) hopen
  | @pages front rest hext hnoEdge hserver hnoApp hpages hapi hshown =>
    obtain ⟨happ, hm⟩ := notMem_pagesSought_iff.1 hm
    refine .pages hext (fun hstem => ?_) hserver (fun hstem => ?_)
      (splitAtRouter?_member hw hsrc (by decide) hm hpages htop) hapi hshown
    · rw [Option.eq_none_iff_forall_ne_some]
      intro name hedge
      obtain ⟨hname, ⟨-, hdirs⟩ | ⟨front', hinner, hdirs⟩⟩ :=
        (edgeFunction?_member_iff hw hsrc).1 hedge
      · -- there is no room for the pages directory and its `api`
        have hsplit := (splitAtRouter?_eq_some_iff.1 hpages).1.split
        obtain ⟨more, rfl⟩ := List.head?_eq_some_iff.1 hapi
        rw [hdirs] at hsplit
        match front, hsplit with
        | [], hsplit => simp at hsplit
        | [_], hsplit => simp at hsplit
        | _ :: _ :: _, hsplit => simp at hsplit
      · have hedge := edgeFunction?_eq_some_iff.2 ⟨front', hdirs, hinner.isProjectRoot, hname⟩
        exact absurd ((hnoEdge hstem).symm.trans hedge) (by simp)
    · exact splitAtRouter?_member_eq_none hw hsrc (by decide) (happ hstem) (hnoApp hstem)

theorem Handler.of_member {h h' : HandlerFile} (hw : w ∈ workspaceDirs) (hsrc : m ≠ "src")
    (hh : Handler file h) (hh' : Handler (file.inMember w m) h') (hroute : h'.route = h.route)
    (hhandler : h'.handler = h.handler) :
    AtTop (handlerDirs h.handler) file.dirs ∧ m ∉ handlerSought file.stem h.handler := by
  cases hh with
  | edgeFunction _ _ hedge =>
    cases hh' with
    | svelteKit => cases hhandler
    | app => cases hhandler
    | pages => cases hhandler
    | edgeFunction _ _ hedge' =>
      obtain ⟨front, hdirs, -, -⟩ := edgeFunction?_eq_some_iff.1 hedge
      obtain ⟨-, ⟨-, hshort⟩ | ⟨front', hinner, hdirs'⟩⟩ :=
        (edgeFunction?_member_iff hw hsrc).1 hedge'
      · have hlen := congrArg List.length (hdirs.symm.trans hshort)
        simp at hlen
      · exact ⟨⟨front', _, hinner, hdirs'⟩, by simp [handlerSought]⟩
  | svelteKit _ _ hsplit =>
    cases hh' with
    | edgeFunction => cases hhandler
    | app => cases hhandler
    | pages => cases hhandler
    | svelteKit _ _ hsplit' =>
      obtain ⟨hroutes, -⟩ := splitAtSvelteKit?_eq_some_iff.1 hsplit
      obtain ⟨hroutes', -⟩ := splitAtSvelteKit?_eq_some_iff.1 hsplit'
      obtain ⟨hm, htop, -, -⟩ :=
        splitAtRouter?_member_of_route hw hsrc (by decide) hroutes hroutes' hroute
      exact ⟨htop, by simpa [handlerSought] using hm⟩
  | app _ _ happ _ =>
    cases hh' with
    | edgeFunction => cases hhandler
    | svelteKit => cases hhandler
    | pages => cases hhandler
    | app _ _ happ' _ =>
      obtain ⟨hm, htop, -, -⟩ :=
        splitAtRouter?_member_of_route hw hsrc (by decide) happ happ' hroute
      exact ⟨htop, by simpa [handlerSought] using hm⟩
  | pages _ _ _ _ hpages _ _ =>
    cases hh' with
    | edgeFunction => cases hhandler
    | svelteKit => cases hhandler
    | app => cases hhandler
    | pages _ _ _ hnoApp hpages' _ _ =>
      obtain ⟨hm, htop, -, -⟩ := splitAtRouter?_member_of_page hw hsrc hpages hpages' hroute
      refine ⟨htop, notMem_pagesSought_iff.2 ⟨fun hstem => ?_, hm⟩⟩
      exact ne_of_splitAtRouter?_member_eq_none hw (by decide) (hnoApp hstem)

/-! ## Both -/

/-- **Moving a project into a workspace.** A page keeps its route and its router in the directory of
a workspace member exactly if its router directory is one of the repository's own project and no
directory that is looked for is called like the member; its router directory then is the one in the
member's directory. Requests keep their route and their handler under the same conditions. -/
theorem serves_in_member_iff {w m : String} (hw : w ∈ workspaceDirs) (hslash : '/' ∉ m.toList)
    (hsrc : m ≠ "src") (path : String) :
    (∀ s, screen? path = some s →
      ((∃ s', screen? (inMember w m path) = some s' ∧ s'.route = s.route ∧ s'.router = s.router) ↔
        AtTop (screenDirs s.router) (FileName.ofPath path).dirs ∧
          m ∉ screenSought (FileName.ofPath path).stem s.router) ∧
      ∀ s', screen? (inMember w m path) = some s' → s'.route = s.route → s'.router = s.router →
        s'.routerDir = inMember w m s.routerDir) ∧
    ∀ h, handler? path = some h → (handler? (inMember w m path) = some h ↔
      AtTop (handlerDirs h.handler) (FileName.ofPath path).dirs ∧
        m ∉ handlerSought (FileName.ofPath path).stem h.handler) := by
  simp only [screen?_eq_some_iff, handler?_eq_some_iff, ofPath_inMember hw hslash]
  refine ⟨fun s hs => ⟨⟨?_, ?_⟩, ?_⟩, fun h hh => ⟨?_, ?_⟩⟩
  · rintro ⟨s', hs', hroute, hrouter⟩
    exact (Page.of_member hw hsrc hs hs' hroute hrouter).2
  · rintro ⟨htop, hm⟩
    exact ⟨_, hs.in_member hw hsrc htop hm, rfl, rfl⟩
  · intro s' hs' hroute hrouter
    rw [(Page.of_member hw hsrc hs hs' hroute hrouter).1, ScreenFile.inMember]
  · intro hh'
    exact hh.of_member hw hsrc hh' rfl rfl
  · rintro ⟨htop, hm⟩
    exact hh.in_member hw hsrc htop hm

/-- The page of a project that moves into a workspace keeps its route. -/
theorem serves_in_member_web :
    screen? "app/docs/page.tsx" = some ⟨"/docs", .appRouter, "app"⟩ ∧
      ∃ s', screen? (inMember "apps" "web" "app/docs/page.tsx") = some s' ∧ s'.route = "/docs" ∧
        s'.router = .appRouter := by
  have hpage : screen? "app/docs/page.tsx" = some ⟨"/docs", .appRouter, "app"⟩ := by decide
  have hdirs : (FileName.ofPath "app/docs/page.tsx").dirs = ["app", "docs"] := by decide
  obtain ⟨hserved, -⟩ := (serves_in_member_iff (w := "apps") (m := "web") (by decide) (by decide)
    (by decide) "app/docs/page.tsx").1 _ hpage
  refine ⟨hpage, hserved.2 ⟨?_, by simp [screenSought]⟩⟩
  rw [hdirs]
  exact ⟨[], ["docs"], .inl rfl, rfl⟩

/-- A member that is called like a router directory is taken for it: its route starts too early. -/
theorem serves_in_member_app :
    screen? "app/page.tsx" = some ⟨"/", .appRouter, "app"⟩ ∧
      screen? "apps/app/app/page.tsx" = some ⟨"/app", .appRouter, "apps/app"⟩ := by
  decide

end ArchGraph.Route
