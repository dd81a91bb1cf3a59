import LuaTree.Convert.Item
import LuaTree.Proofs.Convert.Parents
import LuaTree.Proofs.Convert.Writes
import LuaTree.Proofs.Plan.Output

/-!
# Destinations below a directory

The stages of an item, for a destination that is written as names behind a base: creating the directory
above it (`ensureParent_below`), and the path that its temporary file would have (`scratch_below`, which is
`approach_scratch` for such a directory).
-/

namespace LuaTree

open PathText Store

variable {s : Store} {cwd a : Location} {cs : List Component} {way : List Name} {n : Name}

/-- A path of names behind a base. -/
def below (cs : List Component) (way : List Name) : PathText := ofComponents (cs ++ way.map .name)

theorem below_ne_nil (h : Normal cs) (names : ∀ n ∈ way, IsName n) (hne : way ≠ []) :
    below cs way ≠ [] :=
  ofComponents_ne_nil (h.append_names names) (by simp [hne])

theorem parentText?_below (h : Normal cs) (names : ∀ m ∈ way ++ [n], IsName m) (hne : way ≠ []) :
    parentText? (below cs (way ++ [n])) = some (below cs way) := by
  have front : ∀ m ∈ way, IsName m := fun m hm => names m (List.mem_append_left _ hm)
  have last : IsName n := names n (List.mem_append_right _ List.mem_cons_self)
  have parent : parent? (below cs (way ++ [n])) = some (below cs way) := by
    rw [below, List.map_append, ← List.append_assoc]
    exact parent?_ofComponents (h.append_names front) (.name last)
  have ne := below_ne_nil h front hne
  rw [parentText?, parent]
  cases hb : below cs way with
  | nil => exact absurd hb ne
  | cons c p => rfl

/-- Creating the directory above a destination: all that were missing, or an error of its own. -/
theorem ensureParent_below (sound : s.Sound cwd) (base : Base s cwd cs a)
    (names : ∀ m ∈ way ++ [n], IsName m) (nul : ∀ m ∈ way ++ [n], '\x00' ∉ m)
    (short : ∀ m ∈ way.tail, Utf8.byteLength m ≤ nameLimit) (free : LinkFree s a way)
    (hne : way ≠ []) :
    match s.blockage a way (below cs way) with
    | some e => ensureParent s cwd (below cs (way ++ [n])) =
        (.error (.createDir (below cs way) (.os e)), s)
    | none => ∃ t, ensureParent s cwd (below cs (way ++ [n])) = (.ok (), t) ∧ Filled s t a way := by
  have made := makeDirs_below sound base (fun m hm => names m (List.mem_append_left _ hm))
    (fun m hm => nul m (List.mem_append_left _ hm)) short free hne rfl
  rw [← below] at made
  rw [ensureParent, parentText?_below base.normal names hne]
  dsimp only
  cases hb : s.blockage a way (below cs way) with
  | some e =>
    rw [hb] at made
    dsimp only at made ⊢
    rw [made]
    rfl
  | none =>
    rw [hb] at made
    obtain ⟨t, ht, filled⟩ := made
    dsimp only
    rw [ht]
    exact ⟨t, rfl, filled⟩

/-! ## The temporary file -/

theorem ofText_join_relative {p q : PathText} (hp : p ≠ []) (hq : isAbsolute q = false) :
    Step.ofText (join p q) = Step.ofText p ++ Step.ofText q := by
  rw [join, if_neg (by rw [hq]; exact Bool.false_ne_true)]
  split
  · next h =>
    obtain ⟨front, rfl⟩ : ∃ front, p = front ++ ['/'] := by
      rcases h with h | h
      · exact absurd h hp
      · exact List.getLast?_eq_some_iff.1 h
    have here : segments (front ++ ['/']) = segments front ++ [[]] := segments_append_separator front []
    rw [List.append_assoc, List.singleton_append, Step.ofText, Step.ofText, Step.ofText,
      segments_append_separator, here, List.filterMap_append, List.filterMap_append]
    simp [Step.ofSegment?]
  · rw [Step.ofText, segments_append_separator, List.filterMap_append]
    rfl

theorem isAbsolute_join_relative {p q : PathText} (hp : p ≠ []) (hq : isAbsolute q = false) :
    isAbsolute (join p q) = isAbsolute p := by
  rw [join, if_neg (by rw [hq]; exact Bool.false_ne_true)]
  split
  · exact isAbsolute_append hp q
  · exact isAbsolute_append hp ('/' :: q)

/-- The temporary file of a path would be where its directory leads to. -/
theorem approach_scratch (wellNamed : s.WellNamed) {p q path : PathText}
    (scratch : Publication.scratchPath s cwd p = .ok path) (dir : Publication.directory p = q)
    (hq : q ≠ []) (h0 : '\x00' ∉ q) (there : s.holdsDir a) {front : List Step} {k : Nat}
    (hk : k ≤ linkLimit) (hl : Leads s k (start cwd q) front a)
    (hs : Step.ofText q = front ++ way.map .enter) :
    Approach s cwd path a (way ++ [Publication.temporaryName 0]) := by
  have temporary : IsName (Publication.temporaryName 0) := ⟨by decide, by decide, by decide, by decide⟩
  have temporaryNul : '\x00' ∉ Publication.temporaryName 0 := by decide
  obtain ⟨here, rfl⟩ := scratchPath_eq_ok.1 scratch
  rw [dir] at here
  rw [scratchText, dir]
  cases ha : isAbsolute q with
  | true =>
    rw [if_pos rfl]
    refine ⟨not_mem_join h0 (by decide) temporaryNul, there, front, k, hk, ?_, ?_⟩
    · rwa [start_of_isAbsolute_eq (isAbsolute_join hq temporary.no_separator) cwd]
    · rw [Step.ofPath_join _ temporary, hs, List.map_append, List.append_assoc]
      rfl
  | false =>
    -- the text of the working directory leads to it from the root
    have here : s.holdsDir cwd := here.resolve_left (by rw [ha]; exact Bool.false_ne_true)
    obtain ⟨mode', he⟩ := holdsDir_iff.1 here
    have cwdBelow : s.entry? ([] ++ cwd) = some (.dir mode') := he
    have cwdNames : ∀ m ∈ cwd, Lawful m := wellNamed.lawful_of_mem cwdBelow
    have text : cwd.text = ofComponents (.root :: cwd.map .name) :=
      text_eq_ofComponents fun m hm => (cwdNames m hm).toIsName
    have normalCwd := normal_root fun m hm => (cwdNames m hm).toIsName
    have cwdNe : cwd.text ≠ [] := by
      rw [text]
      exact ofComponents_ne_nil normalCwd (List.cons_ne_nil _ _)
    have absolute : isAbsolute cwd.text = true := by
      rw [text, isAbsolute_ofComponents normalCwd]
      rfl
    have whole : isAbsolute (join cwd.text q) = true := by
      rw [isAbsolute_join_relative cwdNe ha, absolute]
    have wholeNe : join cwd.text q ≠ [] := by
      intro he
      rw [he] at whole
      cases whole
    rw [if_neg Bool.false_ne_true]
    refine ⟨not_mem_join (not_mem_join ?_ (by decide) h0) (by decide) temporaryNul, there,
      cwd.map .enter ++ front, 0 + k, by omega, ?_, ?_⟩
    · rw [text]
      exact not_mem_ofComponents (by decide) (no_nul_of_lawful cwdNames)
    · rw [start, isAbsolute_join wholeNe temporary.no_separator, whole, if_pos rfl]
      rw [start, ha, if_neg Bool.false_ne_true] at hl
      exact (wellNamed.leads_down cwdBelow).trans hl
    · rw [Step.ofPath_join _ temporary, ofText_join_relative cwdNe ha, text,
        ofText_ofComponents normalCwd, hs, List.map_append, List.append_assoc, List.append_assoc,
        List.append_assoc]
      show (cwd.map Component.name).filterMap Component.step? ++ _ = _
      rw [filterMap_step?_names]
      rfl

/-- The temporary file of a destination would be beside it. -/
theorem scratch_below (wellNamed : s.WellNamed) (base : Base s cwd cs a)
    (names : ∀ m ∈ way ++ [n], IsName m) (nul : ∀ m ∈ way ++ [n], '\x00' ∉ m) (hne : way ≠ [])
    {path : PathText} (scratch : Publication.scratchPath s cwd (below cs (way ++ [n])) = .ok path) :
    Approach s cwd path a (way ++ [Publication.temporaryName 0]) := by
  have front : ∀ m ∈ way, IsName m := fun m hm => names m (List.mem_append_left _ hm)
  have dir : Publication.directory (below cs (way ++ [n])) = below cs way := by
    rw [Publication.directory, parentText?_below base.normal names hne]
    rfl
  obtain ⟨normal, h0, there, k, hk, hl⟩ := base
  have free : '\x00' ∉ below cs way := by
    rw [below, ← joinAll_ofComponents]
    exact not_mem_joinAll h0 (by decide) fun m hm => nul m (List.mem_append_left _ hm)
  have leads : Leads s k (start cwd (below cs way)) (cs.filterMap Component.step?) a := by
    rwa [below, start_of_isAbsolute_eq (isAbsolute_ofComponents_append normal front) cwd]
  refine approach_scratch wellNamed scratch dir (below_ne_nil normal front hne) free there hk leads ?_
  rw [below, ofText_ofComponents (normal.append_names front), List.filterMap_append,
    filterMap_step?_names]

end LuaTree
