import LuaTree.Proofs.Plan.Items

/-!
# The way from the input to a file

An item's destination is the output directory followed by the way from the input to the source. The way
is found by taking the components of the input off those of the source, whatever the text of the input
looks like, and a source of which that cannot be done has no item. Of the files that a walk meets there
is none of that kind: their paths were made by joining names onto the input, and the way is these names
(`joins_undone`).
-/

namespace LuaTree

namespace PathText

/-- Names to go by from a directory to something in it. -/
structure IsWay (ns : List Name) : Prop where
  ne_nil : ns ≠ []
  names : ∀ n ∈ ns, IsName n

/-- Components can be taken off just those components that go on from them. -/
theorem stripComponents_eq_some {bs cs ds : List Component} :
    stripComponents bs cs = some ds ↔ cs = bs ++ ds := by
  constructor
  · intro h
    induction bs generalizing cs with
    | nil => exact Option.some.inj h
    | cons b bs ih =>
      cases cs with
      | nil => cases h
      | cons c cs =>
        rw [stripComponents] at h
        split at h
        · next heq => rw [heq, ih h, List.cons_append]
        · cases h
  · rintro rfl
    exact stripComponents_append bs ds

/-- A path has no way from a directory whose components it does not begin with. -/
theorem relativeTo?_eq_none {base p : PathText} :
    relativeTo? base p = none ↔ ¬ components base <+: components p := by
  rw [relativeTo?, Option.map_eq_none_iff, Option.eq_none_iff_forall_ne_some, List.IsPrefix,
    not_exists]
  refine forall_congr' fun ds => not_congr ?_
  rw [stripComponents_eq_some, eq_comm]

/-- The text of a way has its names for components. -/
theorem components_names {ns : List Name} (h : ∀ n ∈ ns, IsName n) :
    components (ofComponents (ns.map .name)) = ns.map .name :=
  components_ofComponents (Normal.nil.append_names h)

/-- A way joined onto a path, even the empty one, adds its names to the components. -/
theorem components_join_names (p : PathText) {ns : List Name} (h : IsWay ns) :
    components (join p (ofComponents (ns.map .name))) = components p ++ ns.map .name := by
  rw [join_ofComponents p h.names h.ne_nil]
  -- `components_joinAll` needs a text to join onto; behind the empty one the names stand alone
  by_cases hp : p = []
  · rw [hp, ← ofComponents_nil, joinAll_ofComponents, List.nil_append, components_names h.names]
    rfl
  · exact components_joinAll hp h.names

end PathText

namespace Walk

open PathText Store

variable {s : Store} {cwd : Location}

/-- A walk through directories with proper names goes by ways. -/
theorem isWay_of_mem_routesWithin (proper : ∀ loc n e, s.entry? (loc ++ [n]) = some e → IsName n)
    {leaveOut : Option PathText} {ns : List Name} (depth : Nat) (inside : List Ancestor) (dir : Ancestor)
    (h : ns ∈ routesWithin s cwd leaveOut depth inside dir) : IsWay ns := by
  induction depth generalizing inside dir ns with
  | zero => exact absurd h List.not_mem_nil
  | succ depth ih =>
    rw [routesWithin] at h
    split at h
    · cases h
    · split at h
      · cases h
      · next listed hl =>
        -- the walk takes its names from the listing of a directory, so each of them is an entry's
        obtain ⟨location, _, _, rfl⟩ := list?_eq_ok.1 hl
        obtain ⟨n, hn, hmem⟩ := List.mem_flatMap.1 h
        obtain ⟨e, he⟩ := mem_names.1 hn
        have first : IsName n := proper location n e he
        split at hmem
        · obtain ⟨rest, hr, rfl⟩ := List.mem_map.1 hmem
          exact ⟨List.cons_ne_nil n rest, List.forall_mem_cons.2 ⟨first, (ih _ _ hr).names⟩⟩
        · obtain rfl := List.mem_singleton.1 hmem
          exact ⟨List.cons_ne_nil n [], List.forall_mem_singleton.2 first⟩
        · cases hmem

/-- The files that a walk meets, wherever it starts, are at the ends of ways from there. -/
theorem exists_ways (proper : ∀ loc n e, s.entry? (loc ++ [n]) = some e → IsName n)
    (input output : PathText) : ∃ ways : List (List Name), (∀ ns ∈ ways, IsWay ns) ∧
      (findings s cwd input output).filterMap Finding.file? = ways.map (joinAll input) := by
  rw [findings]
  cases s.stat? cwd input with
  | error cause => exact ⟨[], fun _ h => absurd h List.not_mem_nil, rfl⟩
  | ok place =>
    obtain ⟨location, e⟩ := place
    exact ⟨_, fun ns h => isWay_of_mem_routesWithin proper _ _ _ h, files_findingsWithin _ _ _⟩

end Walk

namespace Plan

open PathText

/-- Taking the input off a path undoes the joining of names onto it: what is left is the text of these
names, which gives the path back when it is joined onto the input again, and which adds these names to
the components of any output directory. Only a path that does not begin with the components of the
input has no item, so no file that a walk meets goes without one. -/
theorem joins_undone {input : PathText} (hi : input ≠ []) :
    (∀ ns, IsWay ns → ∃ way, relativeTo? input (joinAll input ns) = some way ∧
      components way = ns.map .name ∧ join input way = joinAll input ns ∧
      ∀ output, item? input output (joinAll input ns) = some ⟨joinAll input ns, join output way⟩ ∧
        components (join output way) = components output ++ ns.map .name) ∧
    (∀ output source, item? input output source = none ↔ ¬ components input <+: components source) ∧
    ∀ (s : Store) (cwd : Location) (output : PathText),
      (∀ loc n e, s.entry? (loc ++ [n]) = some e → IsName n) →
      ∃ ways : List (List Name), (∀ ns ∈ ways, IsWay ns) ∧
        (Walk.findings s cwd input output).filterMap Walk.Finding.file? = ways.map (joinAll input) ∧
        (ofDirectory s cwd input output).items =
          ways.map fun ns => ⟨joinAll input ns, joinAll output ns⟩ := by
  refine ⟨fun ns h => ?_, fun output source => ?_, fun s cwd output proper => ?_⟩
  · have stripped := relativeTo?_joinAll hi h.names
    refine ⟨ofComponents (ns.map .name), stripped, components_names h.names,
      join_ofComponents input h.names h.ne_nil, fun output => ⟨?_, components_join_names output h⟩⟩
    rw [item?, stripped, Option.map_some]
  · rw [item?, Option.map_eq_none_iff, relativeTo?_eq_none]
  · obtain ⟨ways, isWay, files⟩ := Walk.exists_ways proper input output
    refine ⟨ways, isWay, files, ?_⟩
    rw [items_eq, files, List.filterMap_map]
    refine List.filterMap_eq_map_iff_forall_eq_some.2 fun ns hns => ?_
    exact item?_joinAll output hi (isWay ns hns).names (isWay ns hns).ne_nil

/-- An input that is not in its shortest form. -/
theorem joins_undone_dottedInput : "./i//./".toList ≠ [] ∧ IsWay [['d'], ['f']] ∧
    (∀ loc n e, linkedTree.entry? (loc ++ [n]) = some e → IsName n) ∧
    relativeTo? "./i//./".toList "./i//./d/f".toList = some "d/f".toList ∧
    components "d/f".toList = [.name ['d'], .name ['f']] ∧
    join "./i//./".toList "d/f".toList = "./i//./d/f".toList ∧
    (∀ output, item? "./i//./".toList output "./i//./d/f".toList =
        some ⟨"./i//./d/f".toList, join output "d/f".toList⟩ ∧
      components (join output "d/f".toList) = components output ++ [.name ['d'], .name ['f']]) ∧
    ∃ ways : List (List Name), (∀ ns ∈ ways, IsWay ns) ∧
      (Walk.findings linkedTree [] "./i//./".toList "./i.src".toList).filterMap Walk.Finding.file? =
        ways.map (joinAll "./i//./".toList) ∧
      (ofDirectory linkedTree [] "./i//./".toList "./i.src".toList).items =
        ways.map fun ns => ⟨joinAll "./i//./".toList ns, joinAll "./i.src".toList ns⟩ := by
  have someInput : "./i//./".toList ≠ [] := by decide
  have isWay : IsWay [['d'], ['f']] := by
    refine ⟨by decide, fun n hn => ?_⟩
    rcases List.mem_pair.1 hn with rfl | rfl
    · exact ⟨by decide, by decide, by decide, by decide⟩
    · exact ⟨by decide, by decide, by decide, by decide⟩
  have proper : ∀ loc n e, linkedTree.entry? (loc ++ [n]) = some e → IsName n := by
    have sound : linkedTree.Sound [] := .of_admits (by decide) (by decide) (by decide)
    exact fun loc n e he => (sound.lawful he).toIsName
  have path : joinAll "./i//./".toList [['d'], ['f']] = "./i//./d/f".toList := by decide
  have left : relativeTo? "./i//./".toList "./i//./d/f".toList = some "d/f".toList := by decide
  obtain ⟨undone, _, walked⟩ := joins_undone someInput
  obtain ⟨way, hway, names, again, mirrored⟩ := undone _ isWay
  rw [path] at hway again mirrored
  obtain rfl : way = "d/f".toList := Option.some.inj (hway.symm.trans left)
  exact ⟨someInput, isWay, proper, left, names, again, mirrored, walked linkedTree [] "./i.src".toList proper⟩

end Plan

end LuaTree
