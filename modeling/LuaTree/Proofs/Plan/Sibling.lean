import LuaTree.Proofs.Path.Spelling
import LuaTree.Proofs.Plan.Refusal

/-!
# The sibling of a directory

The output directory of a directory is written beside an entry: the one that the input names, which may be
a link to the directory, or the directory's own where the input has no final name. `directoryOutput_beside`
says that this is so for every spelling of the input and every arrangement of links, because components
lead where the path leads (`exists_entry_of_name`); `directoryOutput_eq_iff` that the components are all
that counts of a path with a final name.
-/

namespace LuaTree.Plan

open PathText Store

variable {s t : Store} {cwd cwd' top dir : Location} {input p q out : PathText} {cs : List Component}
  {n : Name} {mode : Nat}

/-- The path `out` is that of the name beside the entry `n` of `dir`: its parent leads to `dir`. From the
root, that is so for texts that are not too long. -/
structure Beside (s : Store) (cwd : Location) (input out : PathText) (dir : Location) (n : Name) : Prop where
  name : finalName? out = some (n ++ directorySuffix)
  parent : ∃ above mode, parent? out = some above ∧ (finalName? input = none → above = dir.text) ∧
    ((finalName? input = none → Utf8.byteLength dir.text < pathLimit) →
      s.stat? cwd (if above = [] then ['.'] else above) = .ok (dir, .dir mode))

/-! ## A path with a final name -/

/-- The components before a final name lead to the directory that holds the entry of that name: the
directory that the path leads to, or a link. -/
theorem exists_entry_of_name (hs : s.stat? cwd input = .ok (top, .dir mode))
    (hc : components input = cs ++ [.name n]) : ∃ k dir e, k ≤ linkLimit ∧
      Leads s k (start cwd (ofComponents cs)) (cs.filterMap Component.step?) dir ∧
      s.entry? (dir ++ [n]) = some e ∧ Utf8.byteLength n ≤ nameLimit ∧
      ((∃ mode, e = .dir mode) ∧ top = dir ++ [n] ∨ ∃ target, e = .link target) := by
  obtain ⟨k, hk, way⟩ := leads_of_stat? hs rfl
  have lexical := (way.thin (thins_components input)).reaches
  rw [hc, List.filterMap_append, start_of_isAbsolute_eq (isAbsolute_of_components hc) cwd,
    found_of_stat? hs rfl] at lexical
  obtain ⟨i, j, dir, rfl, front, back⟩ := lexical.split rfl (List.cons_ne_nil _ _)
  generalize hp : Place.entry top (.dir mode) = ending at back
  cases back with
  | dir he hn _ rest =>
    subst hp
    have there := (Place.entry.inj (rest.unique .here)).1
    exact ⟨i, dir, _, by omega, front, he, hn, .inl ⟨⟨_, rfl⟩, there⟩⟩
  | link he hn _ _ _ => exact ⟨i, dir, _, by omega, front, he, hn, .inr ⟨_, rfl⟩⟩
  | kept he hn hl => cases hl
  | last he hn hf =>
    cases hp
    cases hf
  | free _ _ _ _ => cases hp

theorem checkText_ofComponents (normal : Normal cs) (hne : cs ≠ []) (nul : ∀ c ∈ cs, '\x00' ∉ c.text)
    (short : Utf8.byteLength (ofComponents cs) < pathLimit) : checkText (ofComponents cs) = .ok () :=
  checkText_eq_ok.2 ⟨not_mem_ofComponents (by decide) nul, ofComponents_ne_nil normal hne, short⟩

/-- Components lead to what stands where their steps lead. -/
theorem stat?_ofComponents {k : Nat} (normal : Normal cs) (hne : cs ≠ [])
    (nul : ∀ c ∈ cs, '\x00' ∉ c.text) (short : Utf8.byteLength (ofComponents cs) < pathLimit)
    (hk : k ≤ linkLimit)
    (way : Leads s k (start cwd (ofComponents cs)) (cs.filterMap Component.step?) dir) :
    s.stat? cwd (ofComponents cs) = .ok (dir, s.found dir) := by
  have bare : bareSteps (ofComponents cs) = cs.filterMap Component.step? := by
    rw [bareSteps_eq, ofText_ofComponents normal]
  rw [← bare] at way
  exact way.stat? (checkText_ofComponents normal hne nul short) hk

theorem stat?_here (s : Store) (cwd : Location) : s.stat? cwd ['.'] = .ok (cwd, s.found cwd) := by
  have way : Leads s 0 (start cwd ['.']) (bareSteps ['.']) cwd := .stay .here
  exact way.stat? (by decide) (Nat.zero_le _)

theorem beside_of_name (wellNamed : s.WellNamed) (hs : s.stat? cwd input = .ok (top, .dir mode))
    (hc : components input = cs ++ [.name n]) : ∃ out dir e, directoryOutput s cwd input = .ok out ∧
      s.entry? (dir ++ [n]) = some e ∧
      s.lstat? cwd (ofComponents (components input)) = .ok (dir ++ [n], e) ∧
      ((∃ mode, e = .dir mode) ∧ top = dir ++ [n] ∨ ∃ target, e = .link target) ∧
      Beside s cwd input out dir n := by
  obtain ⟨k, dir, e, hk, way, he, hn, kind⟩ := exists_entry_of_name hs hc
  obtain ⟨h0, _, short⟩ := checkText_of_stat? hs
  obtain ⟨normal, name⟩ := normal_of_components hc
  have nul := no_nul_of_mem_components h0
  have spelled := byteLength_ofComponents_components_le input
  rw [hc] at nul spelled
  have names : ∀ m ∈ [n], IsName m := fun m hm => List.mem_singleton.1 hm ▸ name
  have named : finalName? input = some n := finalName?_eq_some.2 ⟨cs, hc⟩
  refine ⟨_, dir, e, directoryOutput_of_components s cwd hc, he, ?_, kind, ?_, ?_⟩
  · have checked := checkText_ofComponents (.snoc normal (.name name)) (by simp) nul
      (Nat.lt_of_le_of_lt spelled short)
    have steps : Step.ofPath (ofComponents (cs ++ [n].map .name)) =
        cs.filterMap Component.step? ++ [.enter n] :=
      Step.ofPath_ofComponents normal names (List.cons_ne_nil n [])
    have origin : isAbsolute (ofComponents cs) = isAbsolute (ofComponents (cs ++ [n].map .name)) :=
      (isAbsolute_ofComponents_append normal names).symm
    rw [start_of_isAbsolute_eq origin cwd] at way
    rw [hc]
    exact way.entryAt? hk checked steps hn he (.inl rfl)
  · rw [finalName?_eq_some]
    exact ⟨cs, components_ofComponents (.snoc normal (.name (isName_append_suffix name)))⟩
  · -- the components before the name are the parent
    obtain ⟨mode', hd⟩ := holdsDir_iff.1 (wellNamed.parent he)
    refine ⟨ofComponents cs, mode', ?_, fun none => ?_, fun _ => ?_⟩
    · exact parent?_ofComponents normal (.name (isName_append_suffix name))
    · cases named.symm.trans none
    · have there : s.found dir = .dir mode' := by rw [found, hd]; rfl
      rw [← there]
      by_cases hne : cs = []
      · subst hne
        cases way
        exact stat?_here s cwd
      · rw [if_neg (ofComponents_ne_nil normal hne)]
        have shorter : Utf8.byteLength (ofComponents cs) ≤ Utf8.byteLength (ofComponents (cs ++ [.name n])) := by
          rw [ofComponents_snoc]
          exact byteLength_le_join _ name.no_separator
        exact stat?_ofComponents normal hne (fun c hm => nul c (List.mem_append_left _ hm))
          (by omega) hk way

/-! ## A path without a final name -/

theorem beside_of_nameless (wellNamed : s.WellNamed) (hs : s.stat? cwd input = .ok (top, .dir mode))
    (hne : top ≠ []) (hn : finalName? input = none) (ho : directoryOutput s cwd input = .ok out) :
    ∃ dir n, top = dir ++ [n] ∧ s.entry? (dir ++ [n]) = some (.dir mode) ∧ Beside s cwd input out dir n := by
  -- a path without a final name is replaced by where it leads, which has one unless it is the root
  obtain ⟨place, hc, rfl⟩ : ∃ place, s.canonical? cwd input = .ok place ∧ out = siblingDirectory place := by
    rw [directoryOutput_of_nameless s cwd hn] at ho
    cases hc : s.canonical? cwd input with
    | error cause =>
      rw [hc] at ho
      cases ho
    | ok place =>
      rw [hc] at ho
      exact ⟨place, rfl, (Except.ok.inj ho).symm⟩
  obtain ⟨he, rfl, names⟩ := wellNamed.entry_of_canonical? hc hs
  obtain ⟨dir, n, rfl⟩ := (List.eq_nil_or_concat' top).resolve_left hne
  have name := (names n (List.mem_append_right _ List.mem_cons_self)).toIsName
  have lawful : ∀ m ∈ dir, Lawful m := fun m hm => names m (List.mem_append_left _ hm)
  have above : ∀ m ∈ dir, IsName m := fun m hm => (lawful m hm).toIsName
  have normal := normal_root above
  have inner : Component.Inner (.name (n ++ directorySuffix)) := .name (isName_append_suffix name)
  rw [siblingDirectory_text above name]
  refine ⟨dir, n, rfl, he, ?_, ?_⟩
  · rw [finalName?_eq_some]
    exact ⟨_, components_ofComponents (.snoc normal inner)⟩
  · obtain ⟨mode', hd⟩ := holdsDir_iff.1 (wellNamed.parent he)
    refine ⟨Location.text dir, mode', ?_, fun _ => rfl, fun short => ?_⟩
    · rw [parent?_ofComponents normal inner, text_eq_ofComponents above]
    · have there : s.found dir = .dir mode' := by rw [found, hd]; rfl
      have short := short hn
      rw [text_eq_ofComponents above] at short ⊢
      have way : Leads s 0 [] (dir.map .enter) ([] ++ dir) := wellNamed.leads_down hd
      have root : start cwd (ofComponents (.root :: dir.map .name)) = [] := by
        rw [start, isAbsolute_ofComponents normal]
        rfl
      have steps : (Component.root :: dir.map .name).filterMap Component.step? = dir.map .enter :=
        filterMap_step?_names dir
      rw [if_neg (ofComponents_ne_nil normal (List.cons_ne_nil _ _)), ← there]
      refine stat?_ofComponents normal (List.cons_ne_nil _ _) (no_nul_of_lawful lawful) short
        (Nat.zero_le _) ?_
      rwa [root, steps]

/-! ## All that counts -/

/-- Of paths with a final name, those with the same components have the same output directory, and no
others, whatever stands where. -/
theorem directoryOutput_eq_iff {m : Name} (hp : finalName? p = some m) (hq : finalName? q = some n) :
    directoryOutput s cwd p = directoryOutput t cwd' q ↔ components p = components q := by
  obtain ⟨cs, hcs⟩ := finalName?_eq_some.1 hp
  obtain ⟨ds, hds⟩ := finalName?_eq_some.1 hq
  obtain ⟨left, hm⟩ := normal_of_components hcs
  obtain ⟨right, hn⟩ := normal_of_components hds
  rw [directoryOutput_of_components s cwd hcs, directoryOutput_of_components t cwd' hds, hcs, hds]
  constructor
  · intro h
    have same := congrArg components (Except.ok.inj h)
    rw [components_ofComponents (.snoc left (.name (isName_append_suffix hm))),
      components_ofComponents (.snoc right (.name (isName_append_suffix hn)))] at same
    obtain ⟨rfl, last⟩ := List.append_inj' same rfl
    cases List.append_cancel_right (Component.name.inj (List.cons.inj last).1)
    rfl
  · intro h
    obtain ⟨rfl, last⟩ := List.append_inj' h rfl
    cases last
    rfl

/-- The output directory of a path with a final name is neither that path nor below it. -/
theorem exists_directoryOutput_not_below (s : Store) (cwd : Location) (hp : finalName? p = some n) :
    ∃ out, directoryOutput s cwd p = .ok out ∧ ¬components p <+: components out := by
  obtain ⟨cs, hcs⟩ := finalName?_eq_some.1 hp
  obtain ⟨normal, hn⟩ := normal_of_components hcs
  refine ⟨_, directoryOutput_of_components s cwd hcs, ?_⟩
  rw [hcs, components_ofComponents (.snoc normal (.name (isName_append_suffix hn)))]
  intro h
  have same := h.eq_of_length (by simp)
  have last := (List.append_inj' same rfl).2
  exact append_suffix_ne n (Component.name.inj (List.cons.inj last).1)

/-- An input that leads to a directory below the root has its output directory beside the entry that it
names, or beside the directory's own entry if it names none, unless it names none and has no canonical text
either. Of an input with a final name only the components count; with others the
output directory is another one, and it is never the input or below it. -/
theorem directoryOutput_beside (wellNamed : s.WellNamed)
    (hs : s.stat? cwd input = .ok (top, .dir mode)) (hne : top ≠ []) :
    ((∃ cause, Stranded s cwd input cause ∧
        directoryOutput s cwd input = .error (.fileOpen input cause)) ∨
      ∃ out dir n e, directoryOutput s cwd input = .ok out ∧ s.entry? (dir ++ [n]) = some e ∧
        (finalName? input = some n ∧
            s.lstat? cwd (ofComponents (components input)) = .ok (dir ++ [n], e) ∧
            ((∃ mode, e = .dir mode) ∧ top = dir ++ [n] ∨ ∃ target, e = .link target) ∨
          finalName? input = none ∧ top = dir ++ [n]) ∧
        Beside s cwd input out dir n) ∧
    (∀ p q m n, finalName? p = some m → finalName? q = some n → ∀ s t cwd cwd',
      directoryOutput s cwd p = directoryOutput t cwd' q ↔ components p = components q) ∧
    (∀ p n, finalName? p = some n → ∀ s cwd,
      ∃ out, directoryOutput s cwd p = .ok out ∧ ¬components p <+: components out) ∧
    ∀ p q, p ≠ [] → components (p ++ ['/']) = components p ∧ components (p ++ ['/', '.']) = components p ∧
      components (p ++ '/' :: '/' :: q) = components (p ++ '/' :: q) ∧
      components (p ++ '/' :: '.' :: '/' :: q) = components (p ++ '/' :: q) := by
  refine ⟨?_, fun p q m n hp hq s t cwd cwd' => directoryOutput_eq_iff hp hq,
    fun p n hp s cwd => exists_directoryOutput_not_below s cwd hp, fun p q hp => ?_⟩
  · cases hn : finalName? input with
    | some n =>
      obtain ⟨cs, hc⟩ := finalName?_eq_some.1 hn
      obtain ⟨out, dir, e, ho, he, hl, kind, beside⟩ := beside_of_name wellNamed hs hc
      exact .inr ⟨out, dir, n, e, ho, he, .inl ⟨rfl, hl, kind⟩, beside⟩
    | none =>
      cases ho : directoryOutput s cwd input with
      | error cause =>
        have dir := isDir_iff.2 ⟨_, _, hs⟩
        obtain ⟨cause, stranded, rfl⟩ := (directoryOutput_eq_error dir).1 ho
        exact .inl ⟨cause, stranded, rfl⟩
      | ok out =>
        obtain ⟨dir, n, rfl, he, beside⟩ := beside_of_nameless wellNamed hs hne hn ho
        exact .inr ⟨out, dir, n, _, rfl, he, .inr ⟨rfl, rfl⟩, beside⟩
  · exact ⟨components_trailing_separator hp, components_trailing_here hp,
      components_repeated_separator hp q, components_inner_here hp q⟩

/-- A directory in another one, and a link to it beside. -/
def aliasTree : Store :=
  ((Store.empty.put [['a']] (.dir 0o755)).put [['a'], ['b']] (.dir 0o755)).put [['l']] (.link "a/b".toList)

/-- The output directory of a link stands beside the link. -/
theorem directoryOutput_beside_aliasTree : aliasTree.WellNamed ∧
    aliasTree.stat? [] "l/.".toList = .ok ([['a'], ['b']], .dir 0o755) ∧
    ((∃ cause, Stranded aliasTree [] "l/.".toList cause ∧
        directoryOutput aliasTree [] "l/.".toList = .error (.fileOpen "l/.".toList cause)) ∨
      ∃ out dir n e, directoryOutput aliasTree [] "l/.".toList = .ok out ∧
        aliasTree.entry? (dir ++ [n]) = some e ∧
        (finalName? "l/.".toList = some n ∧
            aliasTree.lstat? [] (ofComponents (components "l/.".toList)) = .ok (dir ++ [n], e) ∧
            ((∃ mode, e = .dir mode) ∧ [['a'], ['b']] = dir ++ [n] ∨ ∃ target, e = .link target) ∨
          finalName? "l/.".toList = none ∧ [['a'], ['b']] = dir ++ [n]) ∧
        Beside aliasTree [] "l/.".toList out dir n) := by
  have sound : aliasTree.Sound [] := .of_admits (by decide) (by decide) (by decide)
  have there : aliasTree.stat? [] "l/.".toList = .ok ([['a'], ['b']], .dir 0o755) := by decide
  exact ⟨sound.wellNamed, there, (directoryOutput_beside sound.wellNamed there (by decide)).1⟩

/-- From a working directory that has been removed, a directory without a name of its own in the path has
no output directory, though the path leads there. -/
theorem no_sibling_though_directory :
    aliasTree.stat? [[]] "../a/b/..".toList = .ok ([['a']], .dir 0o755) ∧
      directoryOutput aliasTree [[]] "../a/b/..".toList =
        .error (.fileOpen "../a/b/..".toList (.os .noEntry)) ∧
      directoryOutput aliasTree [[]] "../a".toList = .ok "../a.src".toList := by
  exact ⟨by decide, by decide, by decide⟩

end LuaTree.Plan
