import LuaTree.Proofs.Plan.Items

/-!
# Output that is met as input

The walk leaves the output directory out where it comes by it, but it asks about directories only, and
only whether they are that very one, by comparing canonical texts. So a file of an earlier output is still
met as input when the way to it never stops at the output directory (`Jump`): the input is a directory below
it, or a link of the input leads straight to something below it. And it is met when the way does stop there
but the texts cannot be compared, since one of them is missing (`Unseen`). `jump_of_source_below_output` says
that there is no other way in.
-/

namespace LuaTree.Walk

open PathText Store

variable {s : Store} {cwd : Location} {input output : PathText} {ns : List Name} {root loc : Location}

/-- Where the file stands that the names lead to. A text that is too long for a lookup still has an entry
in the directory that holds it. -/
def StandsAt (s : Store) (cwd : Location) (input : PathText) (ns : List Name) (loc : Location) : Prop :=
  ∃ i, s.stat? cwd (joinAll input ns) = .ok (loc, .file i) ∨
    pathLimit ≤ Utf8.byteLength (joinAll input ns) ∧ ∃ dir mode n,
      s.stat? cwd (joinAll input ns.dropLast) = .ok (dir, .dir mode) ∧ ns.getLast? = some n ∧
      loc = dir ++ [n] ∧ s.entry? loc = some (.file i)

/-- A path that jumps to below `root`: what it leads to is below, and the path is the input itself or a
link. -/
structure Jump (s : Store) (cwd : Location) (input : PathText) (root : Location) (way : List Name) :
    Prop where
  below : ∃ loc e, s.stat? cwd (joinAll input way) = .ok (loc, e) ∧ root <+: loc ∧ loc ≠ root
  link : way = [] ∨ ∃ a target, s.lstat? cwd (joinAll input way) = .ok (a, .link target)

/-- A path that leads to the output directory itself, with nothing to tell it by: the output directory and
the path are compared by their canonical texts, and one of them has none. -/
structure Unseen (s : Store) (cwd : Location) (input output : PathText) (root : Location)
    (way : List Name) : Prop where
  leads : ∃ e, s.stat? cwd (joinAll input way) = .ok (root, e)
  lost : ∃ cause, s.canonical? cwd output = .error cause ∨
    s.canonical? cwd (joinAll input way) = .error cause

/-- What it takes for the output directory not to be told: the working directory is gone, or some location has
too long a text. -/
theorem Unseen.why {way : List Name} {o : Entry} (h : Unseen s cwd input output root way) (rooted : s.Rooted)
    (ho : s.stat? cwd output = .ok (root, o)) : s.holdsDir cwd = false ∨
      ∃ loc f, s.entry? loc = some f ∧ pathLimit ≤ Utf8.byteLength (Location.text loc) + 1 := by
  obtain ⟨⟨e, hs⟩, cause, lost | lost⟩ := h
  · exact (rooted.canonical?_eq_error ho lost).imp (fun why => why.2.2) And.right
  · exact (rooted.canonical?_eq_error hs lost).imp (fun why => why.2.2) And.right

theorem StandsAt.entry (h : StandsAt s cwd input ns loc) : ∃ i, s.entry? loc = some (.file i) := by
  obtain ⟨i, hs | ⟨_, dir, mode, n, _, _, _, he⟩⟩ := h
  · exact ⟨i, entry_of_lookup (stat?_eq_ok_iff_lookup.1 hs) rfl⟩
  · exact ⟨i, he⟩

/-- A directory on a route is the output directory only where it cannot be told to be. -/
theorem Route.unseen (wellNamed : s.WellNamed) (route : Route s cwd input output ns) {i : Nat}
    (hi : i < ns.length) {o e : Entry} (ho : s.stat? cwd output = .ok (root, o))
    (hs : s.stat? cwd (joinAll input (ns.take i)) = .ok (root, e)) :
    Unseen s cwd input output root (ns.take i) := by
  refine ⟨⟨e, hs⟩, ?_⟩
  cases hc : s.canonical? cwd output with
  | error cause => exact ⟨cause, .inl rfl⟩
  | ok place =>
    cases hd : s.canonical? cwd (joinAll input (ns.take i)) with
    | error cause => exact ⟨cause, .inr rfl⟩
    | ok place' =>
      obtain ⟨_, rfl, _⟩ := wellNamed.entry_of_canonical? hc ho
      obtain ⟨_, rfl, _⟩ := wellNamed.entry_of_canonical? hd hs
      exact absurd hd (route.outside i hi _ hc)

/-- One step gets from outside a directory to below it by a link only. -/
theorem link_of_step (wellNamed : s.WellNamed) (here : Ancestor) {mode : Nat} {n : Name} {e : Entry}
    (hd : s.stat? cwd here.path = .ok (here.location, .dir mode)) (hn : IsName n)
    (hs : s.stat? cwd (join here.path n) = .ok (loc, e)) (outside : ¬ root <+: here.location)
    (below : root <+: loc) (hne : loc ≠ root) :
    ∃ a target, s.lstat? cwd (join here.path n) = .ok (a, .link target) := by
  obtain ⟨e', he⟩ := exists_entry_of_join hd hn hs
  by_cases hl : ∃ target, e' = .link target
  · obtain ⟨target, rfl⟩ := hl
    exact ⟨_, target, entryAt?_join hd (wellNamed.lawful he) (checkText_of_stat? hs).2.2 he (.inl rfl)⟩
  · -- a real entry of a directory outside is outside itself, or `root`
    rw [not_exists] at hl
    cases stat?_join wellNamed hd he hl hs
    rcases List.prefix_concat_iff.1 below with heq | inside
    · exact absurd heq.symm hne
    · exact absurd inside outside

/-- The directories of a route get to the output directory unseen, and below it by a jump only. -/
theorem Route.jump_of_through (wellNamed : s.WellNamed) (route : Route s cwd input output ns) {o : Entry}
    (ho : s.stat? cwd output = .ok (root, o)) {i : Nat} (hi : i < ns.length) {e : Entry}
    (hs : s.stat? cwd (joinAll input (ns.take i)) = .ok (loc, e)) (below : root <+: loc) :
    ∃ j, Jump s cwd input root (ns.take j) ∨ Unseen s cwd input output root (ns.take j) := by
  -- on the directories of the route: the first at or below the output directory is what is looked for
  induction i generalizing loc e with
  | zero =>
    by_cases hne : loc = root
    · subst hne
      exact ⟨0, .inr (route.unseen wellNamed hi ho hs)⟩
    · exact ⟨0, .inl ⟨⟨loc, e, hs, below, hne⟩, .inl rfl⟩⟩
  | succ i ih =>
    have before := Nat.lt_of_succ_lt hi
    obtain ⟨dir, mode, hd⟩ := isDir_iff.1 (route.through i before)
    by_cases inside : root <+: dir
    · exact ih before hd inside
    · by_cases hne : loc = root
      · subst hne
        exact ⟨i + 1, .inr (route.unseen wellNamed hi ho hs)⟩
      · refine ⟨i + 1, .inl ⟨⟨loc, e, hs, below, hne⟩, .inr ?_⟩⟩
        rw [List.take_succ_eq_append_getElem before, joinAll_append] at hs ⊢
        have name := route.names _ (List.getElem_mem before)
        exact link_of_step wellNamed ⟨dir, joinAll input (ns.take i)⟩ hd name hs inside below hne

/-- A route ends below the output directory only if it gets there unseen or jumps there. -/
theorem Route.jump (wellNamed : s.WellNamed) (route : Route s cwd input output ns) {mode : Nat}
    (ho : s.stat? cwd output = .ok (root, .dir mode)) (there : s.holdsDir root)
    (stands : StandsAt s cwd input ns loc) (below : root <+: loc) :
    ∃ j, Jump s cwd input root (ns.take j) ∨ Unseen s cwd input output root (ns.take j) := by
  obtain ⟨front, n, rfl⟩ := (List.eq_nil_or_concat' ns).resolve_left route.ne_nil
  have last : front.length < (front ++ [n]).length := by
    rw [List.length_append, List.length_singleton]
    exact Nat.lt_succ_self _
  obtain ⟨dir, mode', hd⟩ := isDir_iff.1 (route.through front.length last)
  by_cases inside : root <+: dir
  · exact route.jump_of_through wellNamed ho last hd inside
  · have hne : loc ≠ root := by
      rintro rfl
      obtain ⟨i, he⟩ := stands.entry
      rw [holdsDir, he] at there
      cases there
    rw [List.take_left] at hd
    obtain ⟨i, hs | ⟨_, dir', mode'', n', hd', hl, rfl, _⟩⟩ := stands
    · refine ⟨(front ++ [n]).length, .inl ?_⟩
      rw [List.take_length]
      refine ⟨⟨loc, _, hs, below, hne⟩, .inr ?_⟩
      rw [joinAll_append] at hs ⊢
      have name := route.names n (List.mem_append_right _ List.mem_cons_self)
      exact link_of_step wellNamed ⟨dir, joinAll input front⟩ hd name hs inside below hne
    · rw [List.dropLast_concat] at hd'
      cases hd.symm.trans hd'
      rcases List.prefix_concat_iff.1 below with heq | h
      · exact absurd heq.symm hne
      · exact absurd h inside

end LuaTree.Walk

namespace LuaTree.Plan

open PathText Store

variable {s : Store} {cwd : Location} {input : PathText} {plan : Plan} {root : Location} {o : Entry}

/-- A source lies at or below the output that is already there only if the output is a file, the very
source, or if the way to the source jumps below the output directory, or gets to it unseen; and unseen it
is only where the working directory is gone, or the text of a location is too long. -/
theorem jump_of_source_below_output (wellNamed : s.WellNamed) (h : s.isDir cwd input)
    (hp : ofInput s cwd input = .ok plan) (ho : s.stat? cwd plan.outputRoot = .ok (root, o)) :
    (∀ item ∈ plan.items, ∃ ns loc, item.source = joinAll input ns ∧ Walk.StandsAt s cwd input ns loc ∧
      (root <+: loc → (loc = root ∧ ∃ i, o = .file i) ∨ ∃ j, Walk.Jump s cwd input root (ns.take j) ∨
        Walk.Unseen s cwd input plan.outputRoot root (ns.take j))) ∧
    ∀ way, Walk.Unseen s cwd input plan.outputRoot root way → s.holdsDir cwd = false ∨
      ∃ loc f, s.entry? loc = some f ∧ pathLimit ≤ Utf8.byteLength (Location.text loc) + 1 := by
  refine ⟨fun item hitem => ?_, fun way unseen => unseen.why wellNamed.toRooted ho⟩
  obtain ⟨top, mode, hs⟩ := isDir_iff.1 h
  obtain ⟨output, hd, planned⟩ : ∃ output, directoryOutput s cwd input = .ok output ∧
      plan = ofDirectory s cwd input output := by
    rcases stranded_or_planned h with ⟨cause, stranded⟩ | ⟨output, hd, planned⟩
    · cases hp.symm.trans (ofInput_of_stranded stranded)
    · exact ⟨output, hd, Except.ok.inj (hp.symm.trans planned)⟩
  subst planned
  have ho : s.stat? cwd output = .ok (root, o) := ho
  have there : s.entry? root = some o := by
    obtain ⟨_, cs, dir, m, outlet⟩ := outlet_of_directoryOutput wellNamed hs hd
    have normal : Normal (cs ++ [.name m]) := .snoc outlet.base.normal (.name outlet.name)
    refine entry_of_stat? wellNamed.toRooted ho (n := m) ?_
    rw [outlet.text, components_ofComponents normal]
    exact List.mem_append_right cs List.mem_cons_self
  obtain ⟨routes, items, mem, _⟩ := items_ofDirectory wellNamed h output
  rw [items] at hitem
  obtain ⟨ns, hns, rfl⟩ := List.mem_map.1 hitem
  have route := (mem ns).1 hns
  obtain ⟨loc, stands⟩ : ∃ loc, Walk.StandsAt s cwd input ns loc := by
    rcases route.file with hf | ⟨long, dir, mode', n, i, hd', hn, he⟩
    · obtain ⟨loc, i, hf⟩ := isFile_iff.1 hf
      exact ⟨loc, i, .inl hf⟩
    · exact ⟨dir ++ [n], i, .inr ⟨long, dir, mode', n, hd', hn, rfl, he⟩⟩
  refine ⟨ns, loc, rfl, stands, fun below => ?_⟩
  by_cases hdir : ∃ mode', o = .dir mode'
  · obtain ⟨mode', rfl⟩ := hdir
    exact .inr (route.jump wellNamed ho (holdsDir_of_entry there) stands below)
  · -- nothing is below what is no directory
    obtain ⟨i, he⟩ := stands.entry
    obtain ⟨way, rfl⟩ := below
    have hw : way = [] := by
      by_contra hw
      obtain ⟨mode', hm⟩ := holdsDir_iff.1 (wellNamed.holdsDir_of_below hw he)
      exact hdir ⟨mode', Option.some.inj (there.symm.trans hm)⟩
    subst hw
    rw [List.append_nil] at he ⊢
    exact .inl ⟨rfl, i, Option.some.inj (there.symm.trans he)⟩

/-- An input directory with a link to a directory of its own output. -/
def fedBackTree : Store :=
  ((((empty.put [['i']] (.dir 0o755)).put ["i.src".toList] (.dir 0o755)).put ["i.src".toList, ['d']]
    (.dir 0o755)).putFile ["i.src".toList, ['d'], ['f']] ⟨[7], 0o644⟩).put [['i'], ['p']]
    (.link "../i.src/d".toList)

/-- The plan of that directory: to copy its output into its output. -/
def fedBackPlan : Plan where
  kind := .directory
  outputRoot := "i.src".toList
  items := [⟨"i/p/f".toList, "i.src/p/f".toList⟩]
  faults := []
  input := ['i']

theorem jump_of_fedBackTree : ofInput fedBackTree [] ['i'] = .ok fedBackPlan ∧
    (∀ item ∈ fedBackPlan.items, ∃ ns loc, item.source = joinAll ['i'] ns ∧
      Walk.StandsAt fedBackTree [] ['i'] ns loc ∧ (["i.src".toList] <+: loc →
        (loc = ["i.src".toList] ∧ ∃ i, Entry.dir 0o755 = .file i) ∨
          ∃ j, Walk.Jump fedBackTree [] ['i'] ["i.src".toList] (ns.take j) ∨
            Walk.Unseen fedBackTree [] ['i'] "i.src".toList ["i.src".toList] (ns.take j))) ∧
    ∀ way, Walk.Unseen fedBackTree [] ['i'] "i.src".toList ["i.src".toList] way →
      fedBackTree.holdsDir [] = false ∨ ∃ loc f, fedBackTree.entry? loc = some f ∧
        pathLimit ≤ Utf8.byteLength (Location.text loc) + 1 := by
  have made : ofInput fedBackTree [] ['i'] = .ok fedBackPlan := by decide +kernel
  have sound : fedBackTree.Sound [] := .of_admits (by decide) (by decide) (by decide)
  exact ⟨made, jump_of_source_below_output sound.wellNamed (by decide) made (by decide)⟩

/-- The output of that directory is fed back: its plan has a source that lies below the output. -/
theorem fed_back : fedBackTree.WellNamed ∧ fedBackTree.isDir [] ['i'] ∧
    ofInput fedBackTree [] ['i'] = .ok fedBackPlan ∧
    fedBackTree.stat? [] fedBackPlan.outputRoot = .ok (["i.src".toList], .dir 0o755) ∧
    ∃ item ∈ fedBackPlan.items, ∃ loc i, fedBackTree.stat? [] item.source = .ok (loc, .file i) ∧
      ["i.src".toList] <+: loc := by
  have sound : fedBackTree.Sound [] := .of_admits (by decide) (by decide) (by decide)
  refine ⟨sound.wellNamed, by decide, by decide +kernel, by decide, ?_⟩
  refine ⟨_, List.mem_cons_self, ["i.src".toList, ['d'], ['f']], 1, ?_, [['d'], ['f']], rfl⟩
  decide

end LuaTree.Plan
