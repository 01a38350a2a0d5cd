import ArchGraph.Proofs.Discovery.Attribution
import ArchGraph.Proofs.Pattern.Spelling
import ArchGraph.Proofs.Text.Mention
/-!
# Requests to local hosts

What stands behind the scheme of an absolute address, up to the first colon, slash, question mark,
number sign or dollar sign, is taken for its host (`Pattern.text_urlHost`). For a local host this is
the host, with whatever port, path and query behind it, unless it is the bracketed loopback, of
which only the bracket is left (`loopback_called`), or user information stands in front of it. So a
request to a local host shows no service exactly if its address has neither, or if the user
information happens to start with a local host and a colon (`local_silent_iff`).
-/

namespace ArchGraph

open Text (Chars)

/-! ## Schemes and hosts -/

namespace Pattern

/-- How an absolute address starts. -/
def schemeChars (secure : Bool) : Chars := if secure then "https://".toList else "http://".toList

/-- A character that the host of an address can hold, as far as the pattern of hosts can tell. -/
def isHostChar (c : Char) : Bool := !("/:?#\x60'$".toList.contains c)

theorem urlHost_eq : urlHost = look .textStart ++ scheme ++ group 1 (many isHostChar 1) := rfl

theorem spells_scheme {text : Chars} :
    scheme.Spells text ↔ ∃ secure, text = schemeChars secure := by
  constructor
  · rintro ⟨_, _, rfl, ⟨_, _, rfl, hhttp, hs⟩, hslashes⟩
    obtain rfl := spells_lit.1 hhttp
    obtain rfl := spells_lit.1 hslashes
    rcases hs with hs | rfl
    · obtain rfl := spells_lit.1 hs
      exact ⟨true, rfl⟩
    · exact ⟨false, rfl⟩
  · rintro ⟨secure, rfl⟩
    refine ⟨"http".toList ++ if secure then "s".toList else [], "://".toList, ?_,
      ⟨_, _, rfl, spells_lit.2 rfl, ?_⟩, spells_lit.2 rfl⟩
    · cases secure <;> rfl
    · cases secure with
      | true => exact .inl (spells_lit.2 rfl)
      | false => exact .inr rfl

theorem leads_scheme {s t : Cursor} : scheme.Leads s t ↔
    ∃ secure rest, s.rest = schemeChars secure ++ rest ∧
      t = s.behind (schemeChars secure) rest := by
  rw [leads_iff_spells rfl]
  constructor
  · rintro ⟨_, rest, hrest, hscheme, rfl⟩
    obtain ⟨secure, rfl⟩ := spells_scheme.1 hscheme
    exact ⟨secure, rest, hrest, rfl⟩
  · rintro ⟨secure, rest, hrest, rfl⟩
    exact ⟨_, rest, hrest, spells_scheme.2 ⟨secure, rfl⟩, rfl⟩

theorem schemeChars_inj {secure secure' : Bool} {tail tail' : Chars}
    (h : schemeChars secure ++ tail = schemeChars secure' ++ tail') : tail = tail' := by
  cases secure <;> cases secure' <;> simp [schemeChars] at h <;> exact h

section

variable {secure : Bool} {tail : Chars}

/-- What is taken for the host of an address stands behind the scheme and goes as far as it can. -/
theorem text_urlHost {m : Match} (h : urlHost.first? (schemeChars secure ++ tail) = some m) :
    (m.text 1).toList = tail.takeWhile isHostChar ∧ tail.takeWhile isHostChar ≠ [] := by
  obtain ⟨front, s, hs, hmatch⟩ := first?_eq_some h
  rw [matchAt?, urlHost_eq, run_seq, run_seq] at hmatch
  -- the search starts at the start of the text
  obtain ⟨hstart, hmatch⟩ := run_look hmatch
  obtain rfl : front = [] := by
    rw [Cursor.satisfies, hs.previous, Option.isNone_iff_eq_none] at hstart
    exact List.getLast?_eq_none_iff.1 hstart
  obtain ⟨t, more, hscheme, -, hgroup⟩ := exists_leads_of_run scheme hmatch
  obtain ⟨secure', rest, hrest, rfl⟩ := leads_scheme.1 hscheme
  obtain rfl : tail = rest := schemeChars_inj (hs.split.trans hrest)
  rw [run_group] at hgroup
  obtain ⟨hleast, hfound⟩ := run_many_takeWhile (fun _ _ => rfl) hgroup
  obtain rfl := Option.some.inj hfound
  have hchars := chars_behind (s := s.behind (schemeChars secure') tail)
    (List.takeWhile_append_dropWhile (p := isHostChar) (l := tail)).symm
  refine ⟨?_, List.length_pos_iff.1 hleast⟩
  simp only [Match.text, Match.group?, List.lookup_cons_self, Option.map_some, Option.getD_some,
    Span.text, String.toList_ofList]
  exact hchars

/-- An address with characters for a host has a host. -/
theorem isSome_urlHost (secure : Bool) (h : tail.takeWhile isHostChar ≠ []) :
    (urlHost.first? (schemeChars secure ++ tail)).isSome := by
  have hstart : (look .textStart).Leads (Cursor.start (schemeChars secure ++ tail))
      (Cursor.start (schemeChars secure ++ tail)) := ⟨rfl, rfl⟩
  have hhost : (many isHostChar 1).Leads
      ((Cursor.start (schemeChars secure ++ tail)).behind (schemeChars secure) tail)
      (((Cursor.start (schemeChars secure ++ tail)).behind (schemeChars secure) tail).behind
        (tail.takeWhile isHostChar) (tail.dropWhile isHostChar)) :=
    ⟨_, _, List.takeWhile_append_dropWhile.symm, fun c hc => List.mem_takeWhile_imp hc,
      List.length_pos_iff.2 h, rfl⟩
  exact isSome_first? (Cursor.stands_start _) (isSome_matchAt?_iff.2
    ⟨_, _, ⟨_, hstart, leads_scheme.2 ⟨secure, tail, rfl, rfl⟩⟩, hhost⟩)

end

end Pattern

namespace Discovery

open Pattern (schemeChars isHostChar)

/-! ## Addresses -/

/-- An absolute address by its parts. -/
structure Address where
  secure : Bool
  user?  : Option Chars
  host   : Chars
  port?  : Option Chars
  /-- The path, the query and the fragment. -/
  rest   : Chars
deriving DecidableEq, Repr

/-- A host is one of the local ones, up to case. -/
def IsLocal (host : Chars) : Prop := Text.lowercase (String.ofList host) ∈ Service.localHosts

instance (host : Chars) : Decidable (IsLocal host) := inferInstanceAs (Decidable (_ ∈ _))

namespace Address

/-- What stands behind the host. -/
def behindHost (a : Address) : Chars := (a.port?.map (':' :: ·)).getD [] ++ a.rest

/-- What stands behind the scheme. -/
def tail (a : Address) : Chars := (a.user?.map (· ++ ['@'])).getD [] ++ (a.host ++ a.behindHost)

/-- The address as it is written. -/
def text (a : Address) : Chars := schemeChars a.secure ++ a.tail

/-- The parts of an address can be told apart: nothing in the authority ends it, and the port does
not hide user information. -/
structure WellFormed (a : Address) : Prop where
  user : ∀ user ∈ a.user?, ∀ c ∈ user, c ∉ ['/', '?', '#']
  port : ∀ port ∈ a.port?, ∀ c ∈ port, c ∉ ['/', '?', '#', '@']
  rest : ∀ c ∈ a.rest.head?, c ∈ ['/', '?', '#']

/-- The host of an address is seen to be local: it is not the bracketed loopback and stands right
behind the scheme, or what stands there in its place is local. -/
def Seen (a : Address) : Prop :=
  match a.user? with
  | none => Text.lowercase (String.ofList a.host) ≠ "[::1]"
  | some user => (∃ c ∈ user, isHostChar c = false) ∧
    (user.takeWhile isHostChar = [] ∨ IsLocal (user.takeWhile isHostChar))

end Address

/-! ## Local hosts -/

theorem localHosts_chars : ∀ name ∈ Service.localHosts, ∀ d ∈ name.toList,
    d.toNat < 0x80 ∧ d ≠ 'k' := by decide

/-- A local host is spelt with the letters of its name. -/
theorem IsLocal.exists_name {host : Chars} (h : IsLocal host) : ∃ name ∈ Service.localHosts,
    Text.lowercase (String.ofList host) = name ∧ (∀ c ∈ host, c.toNat < 0x80) ∧
      host.map Char.toLower = name.toList := by
  refine ⟨_, h, rfl, ?_⟩
  have hlower : Text.lower host = (Text.lowercase (String.ofList host)).toList := by
    simp [Text.lowercase]
  exact Text.lower_eq_ascii hlower (localHosts_chars _ h)

/-- No local host holds an at sign. -/
theorem not_isLocal_of_mem {host : Chars} (h : '@' ∈ host) : ¬IsLocal host := by
  intro hlocal
  obtain ⟨name, hname, -, -, hmap⟩ := hlocal.exists_name
  have hat : '@' ∈ name.toList := hmap ▸ List.mem_map_of_mem (f := Char.toLower) h
  have hnone : ∀ name ∈ Service.localHosts, '@' ∉ name.toList := by decide
  exact hnone name hname hat

/-- A local host other than the bracketed loopback is made of characters of hosts. -/
theorem IsLocal.isHostChar {host : Chars} (h : IsLocal host)
    (hname : Text.lowercase (String.ofList host) ≠ "[::1]") : ∀ c ∈ host, isHostChar c = true := by
  obtain ⟨name, hmem, rfl, hascii, hmap⟩ := h.exists_name
  have hall : ∀ name ∈ Service.localHosts, name ≠ "[::1]" → ∀ n < 0x80,
      (Char.ofNat n).toLower ∈ name.toList → Pattern.isHostChar (Char.ofNat n) = true := by
    decide
  intro c hc
  have hlower := hall _ hmem hname c.toNat (hascii c hc)
  rw [Char.ofNat_toNat] at hlower
  exact hlower (hmap ▸ List.mem_map_of_mem hc)

/-- Only one spelling is the bracketed loopback. -/
theorem IsLocal.eq_loopback {host : Chars} (h : IsLocal host)
    (hname : Text.lowercase (String.ofList host) = "[::1]") : host = "[::1]".toList := by
  obtain ⟨name, -, rfl, hascii, hmap⟩ := h.exists_name
  have hall : ∀ n < 0x80, (Char.ofNat n).toLower ∈ "[::1]".toList →
      (Char.ofNat n).toLower = Char.ofNat n := by decide
  rw [hname] at hmap
  rw [← hmap]
  refine (List.map_id _).symm.trans (List.map_congr_left fun c hc => ?_)
  have hlower := hall c.toNat (hascii c hc)
  rw [Char.ofNat_toNat] at hlower
  exact (hlower (hmap ▸ List.mem_map_of_mem hc)).symm

namespace Address

theorem head?_behindHost {a : Address} (ha : a.WellFormed) :
    a.behindHost.head?.any isHostChar = false := by
  unfold behindHost
  cases a.port? with
  | some port => rfl
  | none =>
    have hrest := ha.rest
    cases hhead : a.rest with
    | nil => simp
    | cons c rest =>
      rw [hhead] at hrest
      have hall : ∀ c ∈ ['/', '?', '#'], isHostChar c = false := by decide
      simpa using hall c (hrest c rfl)

end Address

/-! ## Requests -/

/-- Findings show no service that is called. -/
def Silent (f : Findings) : Prop :=
  (∀ n ∈ f.nodes, n.kind ≠ .externalService) ∧ ∀ e ∈ f.edges, e.kind ≠ .callsExternal

section

variable {s : Site} {m : Match}

/-- A request shows no service exactly if nothing is taken for its host, or a local host. -/
theorem silent_externalCall_iff {secure : Bool} {tail : Chars}
    (h : (m.text 2).toList = schemeChars secure ++ tail) : Silent (externalCall s m) ↔
      tail.takeWhile isHostChar = [] ∨ IsLocal (tail.takeWhile isHostChar) := by
  rw [externalCall, h]
  cases haddress : Pattern.urlHost.first? (schemeChars secure ++ tail) with
  | none =>
    have hnone : tail.takeWhile isHostChar = [] := by
      by_contra hne
      have hsome := Pattern.isSome_urlHost secure hne
      rw [haddress] at hsome
      cases hsome
    simp [Silent, Findings.empty, hnone]
  | some address =>
    obtain ⟨htext, hne⟩ := Pattern.text_urlHost haddress
    have hhost : address.text 1 = String.ofList (tail.takeWhile isHostChar) := by
      rw [← htext, String.ofList_toList]
    simp only [hhost, hne, false_or]
    split
    · next hlocal =>
      have hlocal : IsLocal (tail.takeWhile isHostChar) := List.contains_iff_mem.1 hlocal
      simp [Silent, Findings.empty, hlocal]
    · next hlocal =>
      have hlocal : ¬IsLocal (tail.takeWhile isHostChar) := fun h =>
        hlocal (List.contains_iff_mem.2 h)
      simp only [hlocal, iff_false]
      rintro ⟨-, hedges⟩
      exact hedges _ (List.mem_append_right [] List.mem_cons_self) rfl

/-- What a request shows, its line shows. -/
theorem inside_handlerLine (hm : m ∈ Pattern.externalUrl.all s.line) (lines : List Chars)
    (lookahead : UInt64) (stop : Nat) :
    Inside (externalCall s m) (handlerLine lines lookahead stop s) := by
  have hcalls := inside_concat_map hm (externalCall s)
  refine hcalls.trans ⟨dataAt lines lookahead stop s ++ functionsAt s,
    .concat ((Pattern.sdkConstructor.all s.line).map (clientConstruction s)) ++ authCallsAt s ++
      environmentAt s, ?_⟩
  simp only [handlerLine, append_assoc]

/-- **Requests to local hosts.** Take an absolute address of a request on a line, with a local host
and any port, path and query. The request shows no service exactly if the host is seen to be local:
if it is not the bracketed loopback and no user information stands in front of it, or if the user
information has a character that no host can hold and what stands before it is nothing or local. -/
theorem local_silent_iff (lines : List Chars) (lookahead : UInt64) (stop : Nat)
    (hm : m ∈ Pattern.externalUrl.all s.line) {a : Address} (ha : a.WellFormed)
    (htext : (m.text 2).toList = a.text) (hlocal : IsLocal a.host) :
    Inside (externalCall s m) (handlerLine lines lookahead stop s) ∧
      (Silent (externalCall s m) ↔ a.Seen) := by
  refine ⟨inside_handlerLine hm lines lookahead stop, ?_⟩
  rw [silent_externalCall_iff htext, Address.tail, Address.Seen]
  cases a.user? with
  | none =>
    simp only [Option.map_none, Option.getD_none, List.nil_append]
    by_cases hname : Text.lowercase (String.ofList a.host) = "[::1]"
    · -- the search stops at the first colon of the loopback
      have hcut : (a.host ++ a.behindHost).takeWhile isHostChar = ['['] := by
        rw [hlocal.eq_loopback hname]
        rfl
      simp only [hcut, hname, ne_eq, not_true_eq_false, iff_false]
      decide
    · have hcut := Pattern.takeWhile_append_of_stop (hlocal.isHostChar hname)
        (Address.head?_behindHost ha)
      simp [hcut, hlocal, hname]
  | some user =>
    simp only [Option.map_some, Option.getD_some]
    rw [List.append_assoc]
    by_cases hstop : ∃ c ∈ user, isHostChar c = false
    · rw [Pattern.takeWhile_append_of_exists hstop]
      simp only [hstop, true_and]
    · -- the at sign and what follows are taken for a part of the host
      have hall : ∀ c ∈ user, isHostChar c = true := by simpa using hstop
      have hat : '@' ∈ (user ++ (['@'] ++ (a.host ++ a.behindHost))).takeWhile isHostChar := by
        rw [List.takeWhile_append_of_pos hall]
        exact List.mem_append_right _ List.mem_cons_self
      simp only [hstop, false_and, iff_false, not_or]
      exact ⟨List.ne_nil_of_mem hat, not_isLocal_of_mem hat⟩

end

theorem local_silent_port :
    let s : Site :=
      ⟨"endpoint", "app/api/x/route.ts", 2, "fetch('http://LOCALHOST:3000/x?y=1');".toList⟩
    let a : Address := ⟨false, none, "LOCALHOST".toList, some "3000".toList, "/x?y=1".toList⟩
    a.WellFormed ∧ IsLocal a.host ∧ a.Seen ∧
      ∃ m ∈ Pattern.externalUrl.all s.line,
        (m.text 2).toList = a.text ∧ Silent (externalCall s m) := by
  intro s a
  have hwell : a.WellFormed := ⟨nofun, by simp [a], by simp [a]⟩
  have hlocal : IsLocal a.host := by decide
  have hseen : a.Seen := (by decide : Text.lowercase "LOCALHOST" ≠ "[::1]")
  obtain ⟨m, hm, htext⟩ : ∃ m ∈ Pattern.externalUrl.all s.line, (m.text 2).toList = a.text := by
    decide
  exact ⟨hwell, hlocal, hseen, m, hm, htext,
    (local_silent_iff [] 5 0 hm hwell htext hlocal).2.2 hseen⟩

/-- A request to the bracketed loopback shows a service: its host is taken for the bracket. -/
theorem loopback_called :
    let s : Site := ⟨"endpoint", "app/api/x/route.ts", 2, "fetch('http://[::1]:3000/x');".toList⟩
    let a : Address := ⟨false, none, "[::1]".toList, some "3000".toList, "/x".toList⟩
    a.WellFormed ∧ IsLocal a.host ∧
      ∃ m ∈ Pattern.externalUrl.all s.line, (m.text 2).toList = a.text ∧
        (externalCall s m).nodes = [Service.hostNode "["] ∧
        (externalCall s m).edges.map (fun e => (e.kind, e.target)) =
          [(.callsExternal, .node (Id.externalService "["))] := by
  intro s a
  have hwell : a.WellFormed := ⟨nofun, by simp [a], by simp [a]⟩
  have hlocal : IsLocal a.host := by decide
  obtain ⟨m, hm, htext⟩ : ∃ m ∈ Pattern.externalUrl.all s.line, (m.text 2).toList = a.text := by
    decide
  refine ⟨hwell, hlocal, m, hm, htext, ?_⟩
  obtain ⟨address, haddress, hhost⟩ : ∃ address,
      Pattern.urlHost.first? a.text = some address ∧ address.text 1 = "[" :=
    Option.map_eq_some_iff.1 (by decide)
  have hbracket : Text.lowercase "[" = "[" := by decide
  have hnotLocal : Service.localHosts.contains "[" = false := by decide
  have hunknown : Service.ofHost? "[" = none := by decide
  simp only [externalCall, htext, haddress, hhost, hbracket, hnotLocal, hunknown]
  exact ⟨rfl, rfl⟩

end Discovery

end ArchGraph
