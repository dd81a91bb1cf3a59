import LuaTree.Proofs.Path.Spelling
import LuaTree.Proofs.Plan.Refusal
import LuaTree.Proofs.Plan.Route
import LuaTree.Proofs.Text.Bytewise
import Mathlib.Data.List.Sort

/-!
# The items of a plan

A plan for a directory has one item for every route of the walk: its source is the input followed by
the names of the route, its destination the output directory followed by the same names
(`items_ofDirectory`). So which files are converted, in what order and where to is a matter of routes
only (`ofInput_of_isDir`), whatever links lead through the tree. `items_widePath` shows what becomes of
names that stand behind too long a path.
-/

namespace LuaTree.Plan

open PathText Store

variable {s : Store} {cwd : Location} {input : PathText}

/-- The item that a route stands for. -/
def itemAt (input output : PathText) (ns : List Name) : WorkItem :=
  ⟨joinAll input ns, joinAll output ns⟩

theorem item?_joinAll (output : PathText) (hp : input ≠ []) {ns : List Name}
    (names : ∀ n ∈ ns, IsName n) (hne : ns ≠ []) :
    item? input output (joinAll input ns) = some (itemAt input output ns) := by
  rw [item?, relativeTo?_joinAll hp names, Option.map_some, join_ofComponents output names hne]
  rfl

theorem nodup_of_sorted {routes : List (List Name)} (h : routes.Pairwise (· < ·)) : routes.Nodup := by
  refine h.imp fun {ms ns} hlt he => ?_
  subst he
  exact List.lt_irrefl ms hlt

/-- The items of a plan come from the files of the walk. -/
theorem items_eq (s : Store) (cwd : Location) (input output : PathText) :
    (ofDirectory s cwd input output).items =
      ((Walk.findings s cwd input output).filterMap Walk.Finding.file?).filterMap (item? input output) := by
  rw [List.filterMap_filterMap, ofDirectory]
  refine congrArg (fun f => (Walk.findings s cwd input output).filterMap f) (funext fun f => ?_)
  cases f <;> rfl

/-- A plan for a directory has the routes of the walk for items. -/
theorem items_ofDirectory (wellNamed : s.WellNamed) (h : s.isDir cwd input) (output : PathText) :
    ∃ routes : List (List Name), (ofDirectory s cwd input output).items = routes.map (itemAt input output) ∧
      (∀ ns, ns ∈ routes ↔ Walk.Route s cwd input output ns) ∧ routes.Pairwise (· < ·) := by
  obtain ⟨routes, files, mem, sorted⟩ := Walk.exists_routes output wellNamed h
  refine ⟨routes, ?_, mem, sorted⟩
  obtain ⟨_, _, hs⟩ := isDir_iff.1 h
  have hp : input ≠ [] := (checkText_of_stat? hs).2.1
  rw [items_eq, files, List.filterMap_map]
  refine List.filterMap_eq_map_iff_forall_eq_some.2 fun ns hns => ?_
  have route := (mem ns).1 hns
  exact item?_joinAll output hp route.names route.ne_nil

/-- Where a walk has the same routes, a plan has the same items. -/
theorem items_congr {t : Store} (wellNamed : s.WellNamed) (wellNamed' : t.WellNamed) (h : s.isDir cwd input)
    (h' : t.isDir cwd input) (output : PathText)
    (same : ∀ ns, Walk.Route t cwd input output ns ↔ Walk.Route s cwd input output ns) :
    (ofDirectory t cwd input output).items = (ofDirectory s cwd input output).items := by
  obtain ⟨routes, items, mem, sorted⟩ := items_ofDirectory wellNamed h output
  obtain ⟨routes', items', mem', sorted'⟩ := items_ofDirectory wellNamed' h' output
  have routes_eq := sorted'.eq_of_mem_iff sorted fun ns => by rw [mem', mem, same]
  rw [items, items', routes_eq]

/-- A directory is refused because there is no canonical text to name its output by, or it has a plan. The
items of the plan are the routes to regular files, each of them once, in the order of their names compared
one by one and byte by byte. -/
theorem ofInput_of_isDir (wellNamed : s.WellNamed) (h : s.isDir cwd input) :
    (∃ cause, Stranded s cwd input cause ∧ ofInput s cwd input = .error (.fileOpen input cause)) ∨
      ∃ (plan : Plan) (routes : List (List Name)), ofInput s cwd input = .ok plan ∧
        plan.kind = .directory ∧
        plan.items = routes.map (fun ns => ⟨joinAll input ns, joinAll plan.outputRoot ns⟩) ∧
        plan.items.map (fun item => relativeTo? input item.source) =
          routes.map (fun ns => some (ofComponents (ns.map .name))) ∧
        (∀ ns, ns ∈ routes ↔ Walk.Route s cwd input plan.outputRoot ns) ∧
        routes.Pairwise (fun ms ns => ms.map Utf8.encode < ns.map Utf8.encode) := by
  rcases stranded_or_planned h with ⟨cause, stranded⟩ | ⟨output, _, planned⟩
  · exact .inl ⟨cause, stranded, ofInput_of_stranded stranded⟩
  · obtain ⟨_, _, hs⟩ := isDir_iff.1 h
    obtain ⟨routes, items, mem, sorted⟩ := items_ofDirectory wellNamed h output
    have hp : input ≠ [] := (checkText_of_stat? hs).2.1
    refine .inr ⟨_, routes, planned, rfl, items, ?_, mem, sorted.imp map_encode_lt⟩
    rw [items, List.map_map]
    exact List.map_congr_left fun ns hns => relativeTo?_joinAll hp ((mem ns).1 hns).names
where
  map_encode_lt {ms ns : List Name} (h : ms < ns) : ms.map Utf8.encode < ns.map Utf8.encode := by
    induction h with
    | nil => exact .nil
    | cons _ ih => exact .cons ih
    | rel hlt => exact .rel (Utf8.encode_lt_encode hlt)

/-- An input directory with a broken link, a link to itself, a link beside the directory that it leads
to, and a link to its own output directory. -/
def linkedTree : Store :=
  ((((((((empty.put [['i']] (.dir 0o755)).put [['i'], ['x']] (.link ['y'])).put [['i'], ['s']]
    (.link ['.'])).put [['i'], ['d']] (.dir 0o755)).putFile [['i'], ['d'], ['f']] ⟨[7], 0o644⟩).put
    [['i'], ['e']] (.link ['d'])).put [['i', '.', 's', 'r', 'c']] (.dir 0o755)).put [['i'], ['o']]
    (.link "../i.src".toList))

/-- The items of a tree with all kinds of links. -/
theorem items_linkedTree : linkedTree.WellNamed ∧ linkedTree.isDir [] ['i'] ∧
    ∃ (plan : Plan) (routes : List (List Name)), ofInput linkedTree [] ['i'] = .ok plan ∧ plan.kind = .directory ∧
      plan.items = routes.map (fun ns => ⟨joinAll ['i'] ns, joinAll plan.outputRoot ns⟩) ∧
      plan.items.map (fun item => relativeTo? ['i'] item.source) =
        routes.map (fun ns => some (ofComponents (ns.map .name))) ∧
      (∀ ns, ns ∈ routes ↔ Walk.Route linkedTree [] ['i'] plan.outputRoot ns) ∧
      routes.Pairwise (fun ms ns => ms.map Utf8.encode < ns.map Utf8.encode) := by
  have sound : linkedTree.Sound [] := .of_admits (by decide) (by decide) (by decide)
  have dir : linkedTree.isDir [] ['i'] := by decide
  refine ⟨sound.wellNamed, dir, (ofInput_of_isDir sound.wellNamed dir).resolve_left ?_⟩
  rintro ⟨cause, stranded, _⟩
  exact absurd stranded.nameless (by decide)

/-! ## Where paths get too long -/

/-- The name of a directory, with separators after it. -/
def widePath (k : Nat) : PathText := ['i'] ++ List.replicate k '/'

theorem byteLength_widePath (k : Nat) : Utf8.byteLength (widePath k) = k + 1 := by
  rw [widePath, Utf8.byteLength_append, byteLength_separators, Nat.add_comm]
  rfl

/-- However many separators follow, a path leads to the directory as long as it can be looked up. -/
theorem stat?_widePath {k mode : Nat} (dir : s.entry? ([] ++ [['i']]) = some (.dir mode))
    (short : k + 1 < pathLimit) : s.stat? [] (widePath k) = .ok ([['i']], .dir mode) := by
  have bare : bareSteps (widePath k) = [.enter ['i']] := by
    rw [bareSteps_eq]
    exact ofText_separators ['i'] k
  have checked : checkText (widePath k) = .ok () := by
    refine checkText_eq_ok.2 ⟨?_, List.cons_ne_nil _ _, ?_⟩
    · simp [widePath, List.mem_replicate]
    · rwa [byteLength_widePath]
  have way : Leads s 0 (start [] (widePath k)) (bareSteps (widePath k)) [['i']] := by
    have root : start [] (widePath k) = [] := ite_self []
    rw [root, bare]
    exact .dir dir (by decide) .here
  have there : s.found [['i']] = .dir mode := by
    rw [found, show s.entry? [['i']] = some (.dir mode) from dir]
    rfl
  rw [way.stat? checked (Nat.zero_le _), there]

theorem byteLength_join_widePath (k : Nat) {n : Name} (h : '/' ∉ n) :
    Utf8.byteLength (join (widePath (k + 1)) n) = k + 2 + Utf8.byteLength n := by
  have last : (widePath (k + 1)).getLast? = some '/' := by
    rw [widePath, replicate_append_separator, List.getLast?_concat]
  rw [join_of_separator h (.inr last), Utf8.byteLength_append, byteLength_widePath]

/-- Behind the longest of these paths no name can be looked up. -/
theorem stat?_join_widePath {n : Name} (h : IsName n) (place : Location × Entry) :
    s.stat? cwd (join (widePath 4094) n) ≠ .ok place := by
  intro found
  have short := (checkText_of_stat? found).2.2
  have room := byteLength_pos h.ne_nil
  rw [byteLength_join_widePath 4093 h.no_separator, pathLimit] at short
  omega

/-- A directory with a file, and with a directory that holds another file. -/
def shelfTree : Store :=
  (((empty.put [['i']] (.dir 0o755)).putFile [['i'], ['f']] ⟨[7], 0o644⟩).put [['i'], ['d']]
    (.dir 0o755)).putFile [['i'], ['d'], ['g']] ⟨[7], 0o644⟩

theorem route_shelfTree {output : PathText} (free : ∀ place, shelfTree.canonical? [] output ≠ .ok place)
    (ns : List Name) : Walk.Route shelfTree [] (widePath 4094) output ns ↔ ns = [['f']] := by
  have there : shelfTree.stat? [] (widePath 4094) = .ok ([['i']], .dir 0o755) :=
    stat?_widePath (by decide) (by decide)
  constructor
  · intro route
    obtain ⟨n, rest, rfl⟩ := List.exists_cons_of_ne_nil route.ne_nil
    have name := route.names n List.mem_cons_self
    cases rest with
    | cons m rest =>
      have next := route.through 1 (by simp)
      rw [List.take_succ_cons, List.take_zero, joinAll_cons, joinAll_nil] at next
      obtain ⟨_, _, hs⟩ := isDir_iff.1 next
      exact absurd hs (stat?_join_widePath name _)
    | nil =>
      rcases route.file with file | ⟨_, dir, mode, m, i, hs, hl, he⟩
      · rw [joinAll_cons, joinAll_nil] at file
        obtain ⟨_, _, hs⟩ := isFile_iff.1 file
        exact absurd hs (stat?_join_widePath name _)
      · cases hl
        cases there.symm.trans hs
        have files : shelfTree.tree.entries.all fun x =>
            !(x.2.isFile && x.1.dropLast == [['i']]) || x.1 == [['i'], ['f']] := by decide
        have only := List.all_eq_true.1 files _ (Tree.mem_entries he)
        simpa [Entry.isFile] using only
  · rintro rfl
    have first : ∀ i < [['f']].length, i = 0 := fun i hi => by simpa using hi
    have long : pathLimit ≤ Utf8.byteLength (joinAll (widePath 4094) [['f']]) := by
      rw [joinAll_cons, joinAll_nil, byteLength_join_widePath 4093 (by decide)]
      decide
    refine ⟨List.cons_ne_nil _ _, fun n hn => ?_, fun i hi => ?_, fun i _ place hp => absurd hp (free place),
      fun j i hj hi => ?_, .inr ⟨long, [['i']], _, ['f'], _, there, rfl, rfl⟩⟩
    · rw [List.mem_singleton.1 hn]
      exact ⟨by decide, by decide, by decide, by decide⟩
    · rw [first i hi]
      exact isDir_iff.2 ⟨_, _, there⟩
    · rw [first i hi] at hj
      exact absurd hj (Nat.not_lt_zero j)

/-- A path cannot be as long as one likes: the file in the directory has an item, although its own path is
too long to lead anywhere, and the file in the inner directory has none, although a shorter path leads
there. -/
theorem items_widePath : shelfTree.WellNamed ∧ shelfTree.isDir [] (widePath 4094) ∧
    ¬shelfTree.isFile [] (joinAll (widePath 4094) [['f']]) ∧ shelfTree.isFile [] "i/d/g".toList ∧
    ∃ plan, ofInput shelfTree [] (widePath 4094) = .ok plan ∧
      plan.items = [⟨joinAll (widePath 4094) [['f']], joinAll plan.outputRoot [['f']]⟩] := by
  have sound : shelfTree.Sound [] := .of_admits (by decide) (by decide) (by decide)
  have there : shelfTree.stat? [] (widePath 4094) = .ok ([['i']], .dir 0o755) :=
    stat?_widePath (by decide) (by decide)
  have dir : shelfTree.isDir [] (widePath 4094) := isDir_iff.2 ⟨_, _, there⟩
  have spelled : components (widePath 4094) = [] ++ [.name ['i']] :=
    components_separators (List.cons_ne_nil 'i' []) 4094
  have output := directoryOutput_of_components shelfTree [] spelled
  have free : ∀ place, shelfTree.canonical? [] "i.src".toList ≠ .ok place := by
    intro place
    rw [show shelfTree.canonical? [] "i.src".toList = .error (.os .noEntry) by decide]
    simp
  obtain ⟨routes, items, mem, sorted⟩ := items_ofDirectory sound.wellNamed dir "i.src".toList
  have only : routes = [[['f']]] := sorted.eq_of_mem_iff (List.pairwise_singleton _ _) fun ns => by
    rw [mem, route_shelfTree free, List.mem_singleton]
  rw [only] at items
  refine ⟨sound.wellNamed, dir, fun file => ?_, by decide, _, ofInput_of_directoryOutput dir output, items⟩
  rw [joinAll_cons, joinAll_nil] at file
  obtain ⟨_, _, hs⟩ := isFile_iff.1 file
  have name : IsName ['f'] := ⟨by decide, by decide, by decide, by decide⟩
  exact stat?_join_widePath name _ hs

end LuaTree.Plan
