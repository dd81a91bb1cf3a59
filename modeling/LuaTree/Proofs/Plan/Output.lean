import LuaTree.Plan.Basic
import LuaTree.Proofs.Store.Below
import LuaTree.Proofs.Store.Canonical

/-!
# Where the output goes

The output directory of an input is written as components: those of the directory that the input stands
in, and a name of its own (`Outlet`). `exists_outlet` says that every input directory has one, and that
it stands beside the input, or beside the link that the input is.
-/

namespace LuaTree

open PathText Store

/-- The output directory `p` of an input that leads to `top`: the name `m` in `dir`, which the components
`cs` lead to. -/
structure Outlet (s : Store) (cwd top : Location) (p : PathText) (cs : List Component)
    (dir : Location) (m : Name) : Prop where
  base : Base s cwd cs dir
  name : IsName m
  name_no_nul : '\x00' ∉ m
  text : p = ofComponents (cs ++ [.name m])
  /-- The input is another entry of the same directory, or a link there leads to it. -/
  beside : top = [] ∧ dir = [] ∨
    ∃ n, n ≠ m ∧ (top = dir ++ [n] ∨ ∃ target, s.entry? (dir ++ [n]) = some (.link target))

/-- What an approach to the output directory passes is nothing but its own name. -/
theorem Outlet.approach {s : Store} {cwd top : Location} {p : PathText} {cs : List Component}
    {dir : Location} {m : Name} (h : Outlet s cwd top p cs dir m) : Approach s cwd p dir [m] := by
  have approach : Approach s cwd (ofComponents (cs ++ [m].map .name)) dir [m] :=
    h.base.approach (fun n hn => List.mem_singleton.1 hn ▸ h.name)
      (fun n hn => List.mem_singleton.1 hn ▸ h.name_no_nul) (List.cons_ne_nil m [])
  rwa [List.map_singleton, ← h.text] at approach

/-- Unless its name is a link's, what the path of the output directory is written out as is that name's
location. -/
theorem Outlet.of_canonical? {s : Store} {cwd top : Location} {p place : PathText} {cs : List Component}
    {dir : Location} {m : Name} (h : Outlet s cwd top p cs dir m) (wellNamed : s.WellNamed)
    (link : ∀ target, s.entry? (dir ++ [m]) ≠ some (.link target)) (hc : s.canonical? cwd p = .ok place) :
    place = Location.text (dir ++ [m]) ∧ (∀ n ∈ dir ++ [m], IsName n) ∧
      ∃ e, s.entry? (dir ++ [m]) = some e := by
  obtain ⟨_, b, e, rfl, he, _, _, hr⟩ := wellNamed.toRooted.reaches_of_canonical? hc
  obtain ⟨_, _, front, _, _, leads, steps⟩ := h.approach
  obtain ⟨_, _, a, _, way, hr⟩ := hr.split steps (List.cons_ne_nil _ _)
  obtain rfl := leads.unique way
  have below : s.entry? ([] ++ b) = some e := he
  have names : ∀ n ∈ b, IsName n := fun n hn => (wellNamed.lawful_of_mem below n hn).toIsName
  generalize hp : Place.entry b e = found at hr
  cases hr with
  | dir _ _ _ hr =>
    cases hr
    cases hp
    exact ⟨rfl, names, _, he⟩
  | link hl _ _ _ _ => exact absurd hl (link _)
  | kept _ _ hk => cases hk
  | last _ _ _ =>
    cases hp
    exact ⟨rfl, names, _, he⟩
  | free _ _ _ _ => cases hp

/-! ## The name -/

theorem isName_append_suffix {n : Name} (h : IsName n) : IsName (n ++ directorySuffix) := by
  have long : 4 ≤ (n ++ directorySuffix).length := by
    rw [List.length_append]
    exact Nat.le_add_left 4 n.length
  refine ⟨?_, ?_, ?_, ?_⟩
  · intro he
    rw [he] at long
    exact absurd long (by decide)
  · intro he
    rw [he] at long
    exact absurd long (by decide)
  · intro he
    rw [he] at long
    exact absurd long (by decide)
  · rw [List.mem_append, not_or]
    exact ⟨h.no_separator, by decide⟩

theorem append_suffix_ne (n : Name) : n ≠ n ++ directorySuffix := by
  intro he
  have := congrArg List.length he
  rw [List.length_append] at this
  exact absurd this (Nat.ne_of_lt (Nat.lt_add_of_pos_right (by decide)))

/-- The sibling of a path that ends in a name has the same components before it. -/
theorem siblingDirectory_ofComponents {cs : List Component} {n : Name}
    (h : Normal (cs ++ [.name n])) (hn : IsName n) :
    siblingDirectory (ofComponents (cs ++ [.name n])) =
      ofComponents (cs ++ [.name (n ++ directorySuffix)]) := by
  have final := finalName?_ofComponents h
  rw [siblingDirectory, final]
  dsimp only
  rw [withFinalName, final, parent?_ofComponents h.of_snoc.1 (.name hn)]
  exact (ofComponents_snoc cs (.name (n ++ directorySuffix))).symm

/-! ## The sibling of a location -/

/-- Beside the entry `n` of a location, written out. -/
theorem siblingDirectory_text {loc : Location} {n : Name} (h : ∀ m ∈ loc, IsName m) (hn : IsName n) :
    siblingDirectory (Location.text (loc ++ [n])) =
      ofComponents ((.root :: loc.map .name) ++ [.name (n ++ directorySuffix)]) := by
  have names : ∀ m ∈ loc ++ [n], IsName m := by
    intro m hm
    rcases List.mem_append.1 hm with hm | hm
    · exact h m hm
    · exact List.mem_singleton.1 hm ▸ hn
  have text : Location.text (loc ++ [n]) = ofComponents ((.root :: loc.map .name) ++ [.name n]) := by
    rw [text_eq_ofComponents names, List.map_append]
    rfl
  rw [text, siblingDirectory_ofComponents (.snoc (normal_root h) (.name hn)) hn]

/-! ## Every directory has an output directory -/

theorem filterMap_step?_names (way : List Name) :
    (way.map Component.name).filterMap Component.step? = way.map .enter := by
  induction way with
  | nil => rfl
  | cons n way ih =>
    rw [List.map_cons, List.map_cons, ← ih]
    rfl

variable {s : Store} {cwd : Location} {input output : PathText} {top : Location} {mode : Nat}

theorem outlet_of_name (wellNamed : s.WellNamed) (h : s.stat? cwd input = .ok (top, .dir mode))
    {cs : List Component} {n : Name} (hc : components input = cs ++ [.name n]) :
    ∃ dir, Outlet s cwd top (ofComponents (cs ++ [.name (n ++ directorySuffix)])) cs dir
      (n ++ directorySuffix) ∧ (top = dir ++ [n] ∨ ∃ target, s.entry? (dir ++ [n]) = some (.link target)) := by
  obtain ⟨h0, _, _⟩ := checkText_of_stat? h
  obtain ⟨k, hk, hl⟩ := leads_of_stat? h rfl
  have normal : Normal (cs ++ [.name n]) := hc ▸ normal_components input
  have nul := no_nul_of_mem_components h0
  rw [hc] at nul
  have hn : IsName n := isName_of_mem_components (hc ▸ List.mem_append_right cs List.mem_cons_self)
  -- the steps before the last name lead to the directory
  have lexical : Leads s k (start cwd (ofComponents cs)) (cs.filterMap Component.step? ++ [.enter n]) top := by
    have way := hl.thin (thins_components input)
    rw [hc, List.filterMap_append, start_of_isAbsolute_eq (isAbsolute_of_components hc) cwd] at way
    exact way
  obtain ⟨i, hi, dir, way, last⟩ := lexical.split_last rfl
  have there : s.holdsDir dir := by
    rcases last with ⟨⟨_, he⟩, _⟩ | ⟨_, he⟩
    · exact wellNamed.parent he
    · exact wellNamed.parent he
  refine ⟨dir, ⟨⟨normal.of_snoc.1, ?_, there, i, Nat.le_trans hi hk, way⟩,
    isName_append_suffix hn, ?_, rfl, .inr ⟨n, append_suffix_ne n, last.imp_left And.right⟩⟩,
    last.imp_left And.right⟩
  · exact not_mem_ofComponents (by decide) fun d hd => nul d (List.mem_append_left _ hd)
  · rw [List.mem_append, not_or]
    exact ⟨nul (.name n) (List.mem_append_right _ List.mem_cons_self), by decide⟩

theorem outlet_of_location (wellNamed : s.WellNamed) (entry : s.entry? top = some (.dir mode)) :
    ∃ cs dir m, Outlet s cwd top (siblingDirectory top.text) cs dir m := by
  have below : s.entry? ([] ++ top) = some (.dir mode) := entry
  have lawful : ∀ n ∈ top, Lawful n := wellNamed.lawful_of_mem below
  -- the root has no name that the suffix could be added to; its output lies in the root itself
  rcases List.eq_nil_or_concat' top with rfl | ⟨dir, n, rfl⟩
  · refine ⟨[.root], [], directorySuffix, ⟨.root, by decide, wellNamed.root, 0, Nat.zero_le _, .here⟩, ?_,
      by decide, by decide, .inl ⟨rfl, rfl⟩⟩
    exact ⟨by decide, by decide, by decide, by decide⟩
  · have hn := lawful n (List.mem_append_right _ List.mem_cons_self)
    have above : ∀ m ∈ dir, Lawful m := fun m hm => lawful m (List.mem_append_left _ hm)
    have names : ∀ m ∈ dir, IsName m := fun m hm => (above m hm).toIsName
    have there := wellNamed.parent entry
    rw [siblingDirectory_text names hn.toIsName]
    refine ⟨.root :: dir.map .name, dir, n ++ directorySuffix,
      ⟨normal_root names, not_mem_ofComponents (by decide) (no_nul_of_lawful above), there, ?_⟩,
      isName_append_suffix hn.toIsName, ?_, rfl, .inr ⟨n, append_suffix_ne n, .inl rfl⟩⟩
    · obtain ⟨mode', hd⟩ := holdsDir_iff.1 there
      have absolute : isAbsolute (ofComponents (.root :: dir.map .name)) = true := by
        rw [isAbsolute_ofComponents (normal_root names)]
        rfl
      refine ⟨0, Nat.zero_le _, ?_⟩
      rw [start, if_pos absolute]
      show Leads s 0 [] ((dir.map Component.name).filterMap Component.step?) ([] ++ dir)
      rw [filterMap_step?_names]
      exact wellNamed.leads_down hd
    · rw [List.mem_append, not_or]
      exact ⟨hn.no_nul, by decide⟩

theorem finalName?_eq_some {p : PathText} {n : Name} :
    finalName? p = some n ↔ ∃ cs, components p = cs ++ [.name n] := by
  constructor
  · intro h
    rcases List.eq_nil_or_concat' (components p) with e | ⟨cs, c, e⟩
    · rw [finalName?, e] at h
      cases h
    · rw [finalName?, e, List.getLast?_concat] at h
      cases c with
      | name m => cases h; exact ⟨cs, e⟩
      | root | here | up => cases h
  · rintro ⟨cs, hc⟩
    rw [finalName?, hc, List.getLast?_concat]

/-- The output directory of a path that ends in a name is a sibling of that name. -/
theorem directoryOutput_of_components (s : Store) (cwd : Location) {cs : List Component} {n : Name}
    (hc : components input = cs ++ [.name n]) : Plan.directoryOutput s cwd input =
      .ok (ofComponents (cs ++ [.name (n ++ directorySuffix)])) := by
  have normal : Normal (cs ++ [.name n]) := hc ▸ normal_components input
  have hn : IsName n := isName_of_mem_components (hc ▸ List.mem_append_right cs List.mem_cons_self)
  have final := finalName?_ofComponents normal
  unfold Plan.directoryOutput
  dsimp only
  rw [hc, final]
  exact congrArg Except.ok (siblingDirectory_ofComponents normal hn)

/-- An input directory that has an output directory is there, and its output directory is beside it. -/
theorem outlet_of_directoryOutput (wellNamed : s.WellNamed) (h : s.stat? cwd input = .ok (top, .dir mode))
    (ho : Plan.directoryOutput s cwd input = .ok output) :
    s.entry? top = some (.dir mode) ∧ ∃ cs dir m, Outlet s cwd top output cs dir m := by
  cases hfinal : finalName? input with
  | some n =>
    obtain ⟨cs, hc⟩ := finalName?_eq_some.1 hfinal
    cases (directoryOutput_of_components s cwd hc).symm.trans ho
    obtain ⟨dir, outlet, _⟩ := outlet_of_name wellNamed h hc
    have name : .name n ∈ components input := hc ▸ List.mem_append_right cs List.mem_cons_self
    exact ⟨entry_of_stat? wellNamed.toRooted h name, cs, dir, _, outlet⟩
  | none =>
    have bare : finalName? (ofComponents (components input)) = none := by
      rw [finalName?, components_ofComponents (normal_components input)]
      exact hfinal
    unfold Plan.directoryOutput at ho
    dsimp only at ho
    rw [bare] at ho
    dsimp only at ho
    cases hc : s.canonical? cwd input with
    | error cause =>
      rw [hc] at ho
      cases ho
    | ok place =>
      rw [hc] at ho
      cases ho
      obtain ⟨there, rfl, _⟩ := wellNamed.entry_of_canonical? hc h
      exact ⟨there, outlet_of_location wellNamed there⟩

end LuaTree
