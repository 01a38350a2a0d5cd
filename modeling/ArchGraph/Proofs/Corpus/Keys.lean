import ArchGraph.Corpus.Loader
import Mathlib.Data.List.Nodup
/-!
# The keys of loaded texts

Loaded repositories put their texts into one map, each under its path behind the identifier of its
repository and a colon. Identifiers and paths may hold colons themselves, so that two repositories
can mean different files by one key: exactly if the identifier of one continues that of the other
behind a colon (`Repository.qualifiedKey_eq_iff`). Main statements: `content_of_loaded`, every
repository reads back what it was loaded with exactly if no such files hold different texts, and
`content_mixed`, a repository that reads the text of another one.
-/

namespace ArchGraph

/-! ## Texts by key -/

namespace Contents

/-- Entries with the text under a key replaced. -/
def replace (key text : String) (entries : List (String × String)) : List (String × String) :=
  entries.map fun entry => if entry.1 = key then (key, text) else entry

theorem lookup_cons_ite (key other text : String) (entries : List (String × String)) :
    ((key, text) :: entries).lookup other =
      if other = key then some text else entries.lookup other := by
  by_cases h : other = key
  · simp [h]
  · simp [List.lookup_cons, beq_false_of_ne h, h]

theorem lookup_replace_of_ne {key other : String} (text : String) (h : other ≠ key) :
    ∀ entries : List (String × String),
      (replace key text entries).lookup other = entries.lookup other
  | [] => rfl
  | (k, held) :: entries => by
    have ih := lookup_replace_of_ne text h entries
    rw [replace] at ih ⊢
    by_cases hk : k = key
    · rw [List.map_cons, if_pos hk, lookup_cons_ite, if_neg h, ih, lookup_cons_ite, if_neg (hk ▸ h)]
    · rw [List.map_cons, if_neg hk, lookup_cons_ite, ih, lookup_cons_ite]

theorem lookup_replace_self (key text : String) : ∀ entries : List (String × String),
    key ∈ entries.map (·.1) → (replace key text entries).lookup key = some text
  | (k, held) :: entries, h => by
    by_cases hk : k = key
    · simp [replace, hk]
    · have ih := lookup_replace_self key text entries (List.mem_of_ne_of_mem (Ne.symm hk) h)
      rw [replace] at ih ⊢
      rw [List.map_cons, if_neg hk, lookup_cons_ite, if_neg (Ne.symm hk), ih]

theorem insert_of_mem {c : Contents} {key : String} (h : key ∈ c.keys) (text : String) :
    c.insert key text = ⟨replace key text c.entries⟩ := by
  have hany : c.entries.any (·.1 == key) = true := by simpa [keys] using h
  rw [insert, if_pos hany, replace]

theorem insert_of_notMem {c : Contents} {key : String} (h : key ∉ c.keys) (text : String) :
    c.insert key text = ⟨c.entries ++ [(key, text)]⟩ := by
  have hany : ¬ c.entries.any (·.1 == key) = true := by simpa [keys] using h
  rw [insert, if_neg hany]

theorem get?_of_notMem {c : Contents} {key : String} (h : key ∉ c.keys) : c.get? key = none := by
  rw [get?, List.lookup_eq_none_iff]
  intro entry hentry
  have hne : key ≠ entry.1 := fun hkey => h (hkey ▸ List.mem_map_of_mem hentry)
  simpa using hne

theorem get?_insert (c : Contents) (key other text : String) :
    (c.insert key text).get? other = if other = key then some text else c.get? other := by
  by_cases hmem : key ∈ c.keys
  · rw [insert_of_mem hmem, get?]
    split
    · next ho => rw [ho, lookup_replace_self key text _ hmem]
    · next ho => rw [lookup_replace_of_ne text ho, get?]
  · rw [insert_of_notMem hmem, get?, List.lookup_append, lookup_cons_ite, ← get?]
    split
    · next ho => rw [ho, get?_of_notMem hmem, Option.none_or]
    · rw [List.lookup_nil, Option.or_none]

theorem keys_insert (c : Contents) (key text : String) :
    (c.insert key text).keys = if key ∈ c.keys then c.keys else c.keys ++ [key] := by
  split
  · next hmem =>
    rw [insert_of_mem hmem, keys, keys, replace, List.map_map]
    refine List.map_congr_left fun entry _ => ?_
    by_cases hk : entry.1 = key <;> simp [hk]
  · next hmem => rw [insert_of_notMem hmem, keys, keys, List.map_append, List.map_singleton]

/-- Of the texts that are put under one key the last one stays. -/
theorem get?_foldl_insert (key : String) : ∀ (entries : List (String × String)) (c : Contents),
    (entries.foldl (fun c entry => c.insert entry.1 entry.2) c).get? key =
      (entries.reverse.lookup key).or (c.get? key)
  | [], c => by simp
  | (k, text) :: entries, c => by
    rw [List.foldl_cons, get?_foldl_insert key entries, get?_insert, List.reverse_cons,
      List.lookup_append, Option.or_assoc, lookup_cons_ite, List.lookup_nil]
    split <;> simp

theorem get?_ofList (entries : List (String × String)) (key : String) :
    (ofList entries).get? key = entries.reverse.lookup key := by
  rw [ofList, get?_foldl_insert]
  exact Option.or_none

theorem get?_eq_some_iff {c : Contents} (h : c.keys.Nodup) {key text : String} :
    c.get? key = some text ↔ (key, text) ∈ c.entries := by
  rw [get?, List.lookup_eq_some_iff]
  constructor
  · rintro ⟨front, rest, hentries, -⟩
    simp [hentries]
  · intro hmem
    obtain ⟨front, rest, hentries⟩ := List.append_of_mem hmem
    refine ⟨front, rest, hentries, fun entry hentry => ?_⟩
    rw [keys, hentries, List.map_append, List.nodup_append] at h
    have hne : entry.1 ≠ key := h.2.2 _ (List.mem_map_of_mem hentry) _ (by simp)
    simpa using hne.symm

theorem exists_get?_ofList {entries : List (String × String)} {key : String}
    (h : key ∈ entries.map (·.1)) :
    ∃ text, (ofList entries).get? key = some text ∧ (key, text) ∈ entries := by
  obtain ⟨entry, hentry, rfl⟩ := List.mem_map.1 h
  obtain ⟨text, htext⟩ := Option.isSome_iff_exists.1
    (List.lookup_isSome_iff.2 ⟨entry, List.mem_reverse.2 hentry, beq_self_eq_true _⟩)
  obtain ⟨front, rest, hentries, -⟩ := List.lookup_eq_some_iff.1 htext
  refine ⟨text, by rw [get?_ofList, htext], List.mem_reverse.1 ?_⟩
  rw [hentries]
  exact List.mem_append_right _ List.mem_cons_self

/-- Putting texts under keys keeps every key once. -/
theorem keys_foldl_insert : ∀ (entries : List (String × String)) (c : Contents), c.keys.Nodup →
    let d := entries.foldl (fun c entry => c.insert entry.1 entry.2) c
    d.keys.Nodup ∧ ∀ key, key ∈ d.keys ↔ key ∈ c.keys ∨ key ∈ entries.map (·.1)
  | [], c, h => ⟨h, by simp⟩
  | (k, text) :: entries, c, h => by
    have hinsert : (c.insert k text).keys.Nodup ∧
        ∀ key, key ∈ (c.insert k text).keys ↔ key ∈ c.keys ∨ key = k := by
      rw [keys_insert]
      split
      · next hk => exact ⟨h, by grind⟩
      · next hk => exact ⟨by grind [List.nodup_append], by simp⟩
    obtain ⟨hnodup, hmem⟩ := keys_foldl_insert entries (c.insert k text) hinsert.1
    refine ⟨hnodup, fun key => ?_⟩
    rw [List.foldl_cons, hmem, hinsert.2, List.map_cons, List.mem_cons, or_assoc]

theorem nodup_keys_ofList (entries : List (String × String)) : (ofList entries).keys.Nodup :=
  (keys_foldl_insert entries empty List.nodup_nil).1

theorem mem_keys_ofList {entries : List (String × String)} {key : String} :
    key ∈ (ofList entries).keys ↔ key ∈ entries.map (·.1) := by
  rw [ofList, (keys_foldl_insert entries empty List.nodup_nil).2 key]
  simp [empty, keys]

end Contents

/-! ## Qualified keys -/

/-- Two files have one qualified key if they are the same, or if the identifier of one repository
continues that of the other behind a colon and the paths make up for it. -/
theorem Repository.qualifiedKey_eq_iff {r r' : Repository} {path path' : String} :
    r.qualifiedKey path = r'.qualifiedKey path' ↔ (r.id = r'.id ∧ path = path') ∨
      (∃ s, r'.id = r.id ++ ":" ++ s ∧ path = s ++ ":" ++ path') ∨
        ∃ s, r.id = r'.id ++ ":" ++ s ∧ path' = s ++ ":" ++ path := by
  -- one identifier is a front part of the other; what it lacks is empty or starts with the colon
  have hfront {a b : List Char} {p q : List Char} (more : List Char) (ha : b = a ++ more)
      (hp : ':' :: p = more ++ ':' :: q) : (a = b ∧ p = q) ∨
        ∃ s, String.ofList b = String.ofList a ++ ":" ++ s ∧
          String.ofList p = s ++ ":" ++ String.ofList q := by
    cases more with
    | nil => exact .inl ⟨by simp [ha], (List.cons.inj hp).2⟩
    | cons c more =>
      obtain ⟨rfl, rfl⟩ := List.cons.inj hp
      refine .inr ⟨String.ofList more, ?_, ?_⟩
      · simp [ha, ← String.toList_inj]
      · simp [← String.toList_inj]
  constructor
  · intro h
    have hl : r.id.toList ++ ':' :: path.toList = r'.id.toList ++ ':' :: path'.toList := by
      simpa [qualifiedKey] using congrArg String.toList h
    rcases List.append_eq_append_iff.1 hl with ⟨more, ha, hp⟩ | ⟨more, ha, hp⟩
    · rcases hfront more ha hp with ⟨hid, hpath⟩ | h
      · exact .inl ⟨String.toList_inj.1 hid, String.toList_inj.1 hpath⟩
      · exact .inr (.inl (by simpa using h))
    · rcases hfront more ha hp with ⟨hid, hpath⟩ | h
      · exact .inl ⟨(String.toList_inj.1 hid).symm, (String.toList_inj.1 hpath).symm⟩
      · exact .inr (.inr (by simpa using h))
  · rintro (⟨hid, rfl⟩ | ⟨s, hid, rfl⟩ | ⟨s, hid, rfl⟩) <;>
      simp [qualifiedKey, hid, String.append_assoc]

/-! ## Loaded repositories -/

namespace Corpus.Loaded

/-- The texts of a loaded repository under the keys that they get in a project. -/
def keyed (l : Loaded) : List (String × String) :=
  l.contents.entries.map fun entry => (l.repository.qualifiedKey entry.1, entry.2)

/-- A loaded repository holds one text for each path that it lists, and no others. -/
structure WellFormed (l : Loaded) : Prop where
  distinct : l.contents.keys.Nodup
  complete : ∀ path, path ∈ l.contents.keys ↔ path ∈ l.repository.paths

theorem wellFormed_ofFiles (name : String) (files : List LoadedFile) :
    (ofFiles name files).WellFormed where
  distinct := Contents.nodup_keys_ofList _
  complete path := by
    simp [ofFiles, Contents.mem_keys_ofList, Repository.paths, LoadedFile.listed]

/-- What is loaded from a directory is well formed. -/
theorem wellFormed_of_load? {s : CorpusSettings} {h : Host} {dir : String} {l : Loaded}
    (hl : load? s h dir = some l) : l.WellFormed := by
  simp only [load?, Option.bind_eq_bind, Option.bind_eq_some_iff] at hl
  obtain ⟨place, -, t, -, hl⟩ := hl
  split at hl
  · obtain rfl := Option.some.inj hl
    exact wellFormed_ofFiles _ _
  · cases hl

end Corpus.Loaded

open Corpus (Loaded)

namespace Project

/-- The project of loaded repositories, added one after the other. -/
def ofLoaded (id : String) (ls : List Loaded) : Project := ls.foldl addLoaded (.empty id)

theorem foldl_addLoaded : ∀ (ls : List Loaded) (p : Project), ls.foldl addLoaded p =
    { p with
      repositories := p.repositories ++ ls.map (·.repository)
      contents := (ls.flatMap Loaded.keyed).foldl (fun c entry => c.insert entry.1 entry.2)
        p.contents }
  | [], p => by simp
  | l :: ls, p => by
    rw [List.foldl_cons, foldl_addLoaded ls]
    simp [addLoaded, Loaded.keyed, List.foldl_map]

theorem id_ofLoaded (id : String) (ls : List Loaded) : (ofLoaded id ls).id = id := by
  rw [ofLoaded, foldl_addLoaded]
  rfl

theorem repositories_ofLoaded (id : String) (ls : List Loaded) :
    (ofLoaded id ls).repositories = ls.map (·.repository) := by
  rw [ofLoaded, foldl_addLoaded]
  exact List.nil_append _

theorem contents_ofLoaded (id : String) (ls : List Loaded) :
    (ofLoaded id ls).contents = .ofList (ls.flatMap Loaded.keyed) := by
  rw [ofLoaded, foldl_addLoaded]
  rfl

end Project

/-! ## What repositories read back -/

variable {ls : List Loaded} {l : Loaded} {path : String}

/-- Under the key of a loaded file stands the text of a loaded file with that key. -/
theorem exists_text (id : String) (hl : l ∈ ls) (hpath : path ∈ l.contents.keys) :
    ∃ l' ∈ ls, ∃ path' text, (path', text) ∈ l'.contents.entries ∧
      l'.repository.qualifiedKey path' = l.repository.qualifiedKey path ∧
        (Project.ofLoaded id ls).contents.get? (l.repository.qualifiedKey path) = some text := by
  have hkey : l.repository.qualifiedKey path ∈ (ls.flatMap Loaded.keyed).map (·.1) := by
    obtain ⟨entry, hentry, rfl⟩ := List.mem_map.1 hpath
    exact List.mem_map.2 ⟨_, List.mem_flatMap.2 ⟨l, hl, List.mem_map_of_mem hentry⟩, rfl⟩
  obtain ⟨text, htext, hmem⟩ := Contents.exists_get?_ofList hkey
  obtain ⟨l', hl', hkeyed⟩ := List.mem_flatMap.1 hmem
  obtain ⟨⟨path', _⟩, hentry, heq⟩ := List.mem_map.1 hkeyed
  obtain ⟨hsame, rfl⟩ := Prod.mk.inj heq
  exact ⟨l', hl', path', _, hentry, hsame, by rwa [Project.contents_ofLoaded]⟩

/-- A loaded file is looked up by its qualified key only. -/
theorem content?_ofLoaded (id : String) (hl : l ∈ ls) (hpath : path ∈ l.contents.keys) :
    (Project.ofLoaded id ls).content? l.repository path =
      (Project.ofLoaded id ls).contents.get? (l.repository.qualifiedKey path) := by
  obtain ⟨_, _, _, text, _, _, htext⟩ := exists_text id hl hpath
  rw [Project.content?, htext, Option.some_or]

/-- Where the identifier of a repository continues that of another one behind a colon, files with
one key hold one text. -/
def KeysApart (ls : List Loaded) : Prop :=
  ∀ l ∈ ls, ∀ l' ∈ ls, ∀ s, l'.repository.id = l.repository.id ++ ":" ++ s →
    ∀ path ∈ l'.repository.paths, s ++ ":" ++ path ∈ l.repository.paths →
      l.contents.get? (s ++ ":" ++ path) = l'.contents.get? path

/-- Identifiers without colons do not continue each other. -/
theorem keysApart_of_notMem (h : ∀ l ∈ ls, ':' ∉ l.repository.id.toList) : KeysApart ls := by
  intro l _ l' hl' s hid
  exact absurd (by simp [hid]) (h l' hl')

/-- **Repositories read back what they were loaded with**, as long as files with one key hold one
text: this is what it takes for repositories with different identifiers. -/
theorem content_of_loaded (id : String) (hwf : ∀ l ∈ ls, l.WellFormed)
    (hids : (ls.map (·.repository.id)).Nodup) :
    (∀ l ∈ ls, ∀ path ∈ l.repository.paths, ∃ text, l.contents.get? path = some text ∧
      (Project.ofLoaded id ls).content? l.repository path = some text) ↔ KeysApart ls := by
  constructor
  · intro h l hl l' hl' s hid path hpath' hpath
    obtain ⟨text, htext, hread⟩ := h l hl _ hpath
    obtain ⟨text', htext', hread'⟩ := h l' hl' _ hpath'
    have hkey : l.repository.qualifiedKey (s ++ ":" ++ path) = l'.repository.qualifiedKey path :=
      Repository.qualifiedKey_eq_iff.2 (.inr (.inl ⟨s, hid, rfl⟩))
    rw [content?_ofLoaded id hl (((hwf l hl).complete _).2 hpath), hkey,
      ← content?_ofLoaded id hl' (((hwf l' hl').complete _).2 hpath'), hread'] at hread
    rw [htext, htext', hread]
  · intro h l hl path hpath
    have hheld : path ∈ l.contents.keys := ((hwf l hl).complete path).2 hpath
    obtain ⟨l', hl', path', text, hentry, hkey, hread⟩ := exists_text id hl hheld
    refine ⟨text, ?_, by rw [content?_ofLoaded id hl hheld, hread]⟩
    have htext : l'.contents.get? path' = some text :=
      (Contents.get?_eq_some_iff (hwf l' hl').distinct).2 hentry
    have hpath' : path' ∈ l'.repository.paths :=
      ((hwf l' hl').complete path').1 (List.mem_map_of_mem hentry)
    rcases Repository.qualifiedKey_eq_iff.1 hkey with ⟨hid, rfl⟩ | ⟨s, hid, rfl⟩ | ⟨s, hid, rfl⟩
    · rwa [← List.inj_on_of_nodup_map hids hl' hl hid]
    · rw [← h l' hl' l hl s hid path hpath hpath', htext]
    · rw [h l hl l' hl' s hid path' hpath' hpath, htext]

/-- Two repositories, one called like the other behind a colon, with files of one key. -/
def colonNamed (text other : String) : List Loaded :=
  [.ofFiles "a:b" [⟨"c.ts", 1, text⟩], .ofFiles "a" [⟨"b:c.ts", 1, other⟩]]

theorem content_of_colonNamed :
    (∀ l ∈ colonNamed "1" "1", l.WellFormed) ∧
      ((colonNamed "1" "1").map (·.repository.id)).Nodup ∧
        ((∀ l ∈ colonNamed "1" "1", ∀ path ∈ l.repository.paths,
          ∃ text, l.contents.get? path = some text ∧
            (Project.ofLoaded "p" (colonNamed "1" "1")).content? l.repository path = some text) ↔
          KeysApart (colonNamed "1" "1")) := by
  have hwf : ∀ l ∈ colonNamed "1" "1", l.WellFormed := by
    simp only [colonNamed, List.forall_mem_cons]
    exact ⟨Loaded.wellFormed_ofFiles _ _, Loaded.wellFormed_ofFiles _ _, by simp⟩
  have hids : ((colonNamed "1" "1").map (·.repository.id)).Nodup := by decide
  exact ⟨hwf, hids, content_of_loaded "p" hwf hids⟩

/-- A repository reads the text of another one: its own was put under the same key before. -/
theorem content_mixed :
    ((colonNamed "1" "2").map (·.repository.id)).Nodup ∧
      ∃ l ∈ colonNamed "1" "2", "c.ts" ∈ l.repository.paths ∧ l.contents.get? "c.ts" = some "1" ∧
        (Project.ofLoaded "p" (colonNamed "1" "2")).content? l.repository "c.ts" = some "2" := by
  exact ⟨by decide, _, List.mem_cons_self, by decide, by decide, by decide⟩

end ArchGraph
