import LuaTree.Proofs.Plan.Visit

/-!
# Routes of the walk

Which files does a walk meet? `Walk.Route` says it by names alone: every directory on the way is one
that a lookup finds, outside the directory that is left out, and a link on the way leads to none of the
directories before it. `mem_routesWithin` says that these are the files that the walk meets:

* `routesWithin` is the walk, with the names that it went by in the place of paths;
* `Enters.onward_last` and `Enters.onward_next` take a route apart at its first name the way `visit`
  decides about it;
* `Onward.length_le_depthLimit`: a route is never longer than the walk is deep.
-/

namespace LuaTree.Walk

open PathText Store

/-- The names lead from `input` to a regular file by directories that a walk enters, the directory at
`output` being left out. -/
structure Route (s : Store) (cwd : Location) (input output : PathText) (ns : List Name) : Prop where
  ne_nil : ns ≠ []
  names : ∀ n ∈ ns, IsName n
  /-- What the names before some name lead to is a directory. -/
  through : ∀ i < ns.length, s.isDir cwd (joinAll input (ns.take i))
  /-- It is not the one that is left out. -/
  outside : ∀ i < ns.length, ∀ place, s.canonical? cwd output = .ok place →
    s.canonical? cwd (joinAll input (ns.take i)) ≠ .ok place
  /-- Where it is a link itself, it leads to none of the directories before it. -/
  fresh : ∀ j i, j < i → i < ns.length → ∀ a b target e f,
    s.lstat? cwd (joinAll input (ns.take i)) = .ok (a, .link target) →
    s.stat? cwd (joinAll input (ns.take i)) = .ok (b, e) →
    s.stat? cwd (joinAll input (ns.take j)) ≠ .ok (b, f)
  /-- All of them lead to a regular file. Where the text is too long for a lookup, the directory
  that holds the entry still tells what it is. -/
  file : s.isFile cwd (joinAll input ns) ∨ pathLimit ≤ Utf8.byteLength (joinAll input ns) ∧
    ∃ dir mode n i, s.stat? cwd (joinAll input ns.dropLast) = .ok (dir, .dir mode) ∧
      ns.getLast? = some n ∧ s.entry? (dir ++ [n]) = some (.file i)

/-- The names lead on to a regular file from `dir`, which the walk entered from `inside`. -/
structure Onward (s : Store) (cwd : Location) (leaveOut : Option PathText) (inside : List Ancestor)
    (dir : Ancestor) (ns : List Name) : Prop where
  ne_nil : ns ≠ []
  names : ∀ n ∈ ns, IsName n
  through : ∀ i < ns.length, s.isDir cwd (joinAll dir.path (ns.take i))
  outside : ∀ i < ns.length, ∀ place, leaveOut = some place →
    s.canonical? cwd (joinAll dir.path (ns.take i)) ≠ .ok place
  fresh : ∀ i, 0 < i → i < ns.length → ∀ a b target e,
    s.lstat? cwd (joinAll dir.path (ns.take i)) = .ok (a, .link target) →
    s.stat? cwd (joinAll dir.path (ns.take i)) = .ok (b, e) →
    (∀ above ∈ inside, above.location ≠ b) ∧
      ∀ j < i, ∀ f, s.stat? cwd (joinAll dir.path (ns.take j)) ≠ .ok (b, f)
  file : s.isFile cwd (joinAll dir.path ns) ∨ pathLimit ≤ Utf8.byteLength (joinAll dir.path ns) ∧
    ∃ loc mode n i, s.stat? cwd (joinAll dir.path ns.dropLast) = .ok (loc, .dir mode) ∧
      ns.getLast? = some n ∧ s.entry? (loc ++ [n]) = some (.file i)

/-- The path of an ancestor leads where the ancestor is, if it leads anywhere. -/
def Known (s : Store) (cwd : Location) (dir : Ancestor) : Prop :=
  ∀ loc e, s.stat? cwd dir.path = .ok (loc, e) → loc = dir.location

variable {s : Store} {cwd : Location} {leaveOut : Option PathText} {inside : List Ancestor}
  {dir : Ancestor} {n : Name} {ns : List Name} {location : Location}

/-! ## A route, name by name -/

/-- The entry that the first name of a route stands for. -/
theorem Onward.exists_entry (known : Known s cwd dir) (h : Onward s cwd leaveOut inside dir (n :: ns)) :
    ∃ mode e, s.stat? cwd dir.path = .ok (dir.location, .dir mode) ∧
      s.entry? (dir.location ++ [n]) = some e := by
  obtain ⟨loc, mode, hs⟩ := isDir_iff.1 (h.through 0 (Nat.succ_pos _))
  have hs : s.stat? cwd dir.path = .ok (loc, .dir mode) := hs
  obtain rfl := known _ _ hs
  have name := h.names n List.mem_cons_self
  refine ⟨mode, ?_⟩
  -- the name leads on to a directory, or it ends the route at a file
  cases ns with
  | cons m ns =>
    obtain ⟨loc', mode', ht⟩ := isDir_iff.1 (h.through 1 (by simp))
    obtain ⟨e, he⟩ := exists_entry_of_join hs name ht
    exact ⟨e, hs, he⟩
  | nil =>
    rcases h.file with hf | ⟨_, loc', mode', m, i, hs', hl, he⟩
    · obtain ⟨loc', i, ht⟩ := isFile_iff.1 hf
      obtain ⟨e, he⟩ := exists_entry_of_join hs name ht
      exact ⟨e, hs, he⟩
    · cases hl
      obtain rfl := known _ _ hs'
      exact ⟨_, hs, he⟩

/-- An entry that is no link is what its path leads to. -/
theorem stat?_join (wellNamed : s.WellNamed) {mode : Nat} {e : Entry} {place : Location × Entry}
    (hs : s.stat? cwd dir.path = .ok (dir.location, .dir mode))
    (he : s.entry? (dir.location ++ [n]) = some e) (hl : ∀ target, e ≠ .link target)
    (h : s.stat? cwd (join dir.path n) = .ok place) : place = (dir.location ++ [n], e) := by
  have found := entryAt?_join hs (wellNamed.lawful he) (checkText_of_stat? h).2.2 he (.inr ⟨rfl, hl⟩)
  exact Except.ok.inj (h.symm.trans found)

/-- The last name of a route is what the walk reports as a file. -/
theorem Onward.visit_last (wellNamed : s.WellNamed) (known : Known s cwd dir)
    (h : Onward s cwd leaveOut inside dir [n]) :
    visit s cwd inside dir n = .report (.file (join dir.path n)) := by
  obtain ⟨mode, e, hs, he⟩ := h.exists_entry known
  have hn := wellNamed.lawful he
  refine visit_eq_file.2 ⟨rfl, ?_⟩
  rcases h.file with hf | ⟨_, loc, mode', m, i, hs', hl, hi⟩
  · obtain ⟨loc, i, ht⟩ := isFile_iff.1 hf
    by_cases hl : ∃ target, e = .link target
    · obtain ⟨target, rfl⟩ := hl
      exact .inr ⟨⟨target, he⟩, hf⟩
    · rw [not_exists] at hl
      cases stat?_join wellNamed hs he hl ht
      exact .inl ⟨i, he⟩
  · cases hl
    obtain rfl := known _ _ hs'
    exact .inl ⟨i, hi⟩

/-- An earlier name is a directory that the walk enters, and the route goes on from there. -/
theorem Onward.visit_next (wellNamed : s.WellNamed) (known : Known s cwd dir) {m : Name}
    (h : Onward s cwd leaveOut inside dir (n :: m :: ns)) :
    ∃ location, visit s cwd inside dir n = .enter location ∧
      Onward s cwd leaveOut (dir :: inside) ⟨location, join dir.path n⟩ (m :: ns) := by
  obtain ⟨mode, e, hs, he⟩ := h.exists_entry known
  have hn := wellNamed.lawful he
  obtain ⟨location, mode', ht⟩ := isDir_iff.1 (h.through 1 (by simp))
  have ht : s.stat? cwd (join dir.path n) = .ok (location, .dir mode') := ht
  refine ⟨location, visit_eq_enter.2 ?_, ?_⟩
  · by_cases hl : ∃ target, e = .link target
    · obtain ⟨target, rfl⟩ := hl
      have link : s.lstat? cwd (join dir.path n) = _ :=
        entryAt?_join hs hn (checkText_of_stat? ht).2.2 he (.inl rfl)
      obtain ⟨apart, before⟩ := h.fresh 1 Nat.one_pos (by simp) _ _ _ _ link ht
      refine .inr ⟨⟨target, he⟩, ⟨mode', ht⟩, fun above hmem => ?_⟩
      rcases List.mem_cons.1 hmem with rfl | hmem
      · exact fun heq => before 0 Nat.one_pos _ (heq ▸ hs)
      · exact apart above hmem
    · rw [not_exists] at hl
      cases stat?_join wellNamed hs he hl ht
      exact .inl ⟨⟨mode', he⟩, rfl⟩
  · refine ⟨List.cons_ne_nil m ns, fun k hk => h.names k (List.mem_cons_of_mem n hk),
      fun i hi => h.through (i + 1) (Nat.succ_lt_succ hi),
      fun i hi => h.outside (i + 1) (Nat.succ_lt_succ hi), ?_, h.file⟩
    -- the directory that is left now counts among those above
    intro i h0 hi a b target e link leads
    obtain ⟨apart, before⟩ := h.fresh (i + 1) (Nat.succ_pos i) (Nat.succ_lt_succ hi) a b target e
      link leads
    refine ⟨fun above hmem => ?_, fun j hj => before (j + 1) (Nat.succ_lt_succ hj)⟩
    rcases List.mem_cons.1 hmem with rfl | hmem
    · exact fun heq => before 0 (Nat.succ_pos i) _ (heq ▸ hs)
    · exact apart above hmem

theorem Onward.enters (known : Known s cwd dir)
    (h : Onward s cwd leaveOut inside dir (n :: ns)) :
    Enters s cwd leaveOut dir ∧ n ∈ s.names dir.location := by
  obtain ⟨mode, e, hs, he⟩ := h.exists_entry known
  exact ⟨⟨⟨mode, hs⟩, h.outside 0 (Nat.succ_pos _)⟩, mem_names.2 ⟨e, he⟩⟩

/-- A file in a directory that the walk enters is a route. -/
theorem Enters.onward_last (wellNamed : s.WellNamed) (enters : Enters s cwd leaveOut dir)
    (hn : n ∈ s.names dir.location) {path : PathText}
    (hv : visit s cwd inside dir n = .report (.file path)) :
    Onward s cwd leaveOut inside dir [n] := by
  obtain ⟨⟨mode, hs⟩, outside⟩ := enters
  obtain ⟨e, he⟩ := mem_names.1 hn
  have lawful := wellNamed.lawful he
  have first : ∀ i < [n].length, i = 0 := fun i hi => by simpa using hi
  refine ⟨List.cons_ne_nil n [], ?_, ?_, ?_, ?_, ?_⟩
  · intro m hm
    exact List.mem_singleton.1 hm ▸ lawful.toIsName
  · intro i hi
    rw [first i hi]
    exact isDir_iff.2 ⟨_, mode, hs⟩
  · intro i hi
    rw [first i hi]
    exact outside
  · intro i h0 hi
    rw [first i hi] at h0
    exact absurd h0 (Nat.lt_irrefl 0)
  · rcases (visit_eq_file.1 hv).2 with ⟨i, hf⟩ | ⟨_, hf⟩
    · by_cases hl : pathLimit ≤ Utf8.byteLength (join dir.path n)
      · exact .inr ⟨hl, dir.location, mode, n, i, hs, rfl, hf⟩
      · refine .inl (isFile_iff.2 ⟨dir.location ++ [n], i, ?_⟩)
        exact entryAt?_join hs lawful (Nat.not_le.1 hl) hf (.inr ⟨rfl, by simp⟩)
    · exact .inl hf

/-- A route from an entry that the walk enters goes on from the directory before. -/
theorem Enters.onward_next (wellNamed : s.WellNamed) (enters : Enters s cwd leaveOut dir)
    (hn : n ∈ s.names dir.location) (hv : visit s cwd inside dir n = .enter location)
    (h : Onward s cwd leaveOut (dir :: inside) ⟨location, join dir.path n⟩ ns) :
    Onward s cwd leaveOut inside dir (n :: ns) := by
  obtain ⟨⟨mode, hs⟩, outside⟩ := enters
  obtain ⟨e, he⟩ := mem_names.1 hn
  have lawful := wellNamed.lawful he
  refine ⟨List.cons_ne_nil n ns, ?_, ?_, ?_, ?_, ?_⟩
  · intro m hm
    rcases List.mem_cons.1 hm with rfl | hm
    · exact lawful.toIsName
    · exact h.names m hm
  · intro i hi
    cases i with
    | zero => exact isDir_iff.2 ⟨_, mode, hs⟩
    | succ i => exact h.through i (Nat.lt_of_succ_lt_succ hi)
  · intro i hi
    cases i with
    | zero => exact outside
    | succ i => exact h.outside i (Nat.lt_of_succ_lt_succ hi)
  · intro i h0 hi a b target f link leads
    cases i with
    | zero => exact absurd h0 (Nat.lt_irrefl 0)
    | succ i =>
      -- a link at the first name is one that the walk has just followed; of later ones the rest knows
      have apart : ∀ above ∈ dir :: inside, above.location ≠ b := by
        cases i with
        | zero =>
          rcases visit_eq_enter.1 hv with ⟨⟨mode', hd⟩, _⟩ | ⟨_, ⟨mode', ht⟩, free⟩
          · have real : s.lstat? cwd (join dir.path n) = _ :=
              entryAt?_join hs lawful (checkText_of_stat? leads).2.2 hd (.inl rfl)
            cases link.symm.trans real
          · cases ht.symm.trans leads
            exact free
        | succ i =>
          exact (h.fresh (i + 1) (Nat.succ_pos i) (Nat.lt_of_succ_lt_succ hi) a b target f link leads).1
      refine ⟨fun above hmem => apart above (List.mem_cons_of_mem dir hmem), fun j hj g hg => ?_⟩
      cases j with
      | zero =>
        cases hs.symm.trans hg
        exact apart dir List.mem_cons_self rfl
      | succ j =>
        have hij := Nat.lt_of_succ_lt_succ hj
        have hi' := Nat.lt_of_succ_lt_succ hi
        exact (h.fresh i (Nat.zero_lt_of_lt hij) hi' a b target f link leads).2 j hij g hg
  · have last : (n :: ns).getLast? = ns.getLast? := by
      cases ns with
      | nil => exact absurd rfl h.ne_nil
      | cons m ns => rfl
    rw [last, List.dropLast_cons_of_ne_nil h.ne_nil]
    exact h.file

/-- The path of a directory that the walk enters leads where the walk is. -/
theorem Known.next (wellNamed : s.WellNamed) (enters : Enters s cwd leaveOut dir)
    (hn : n ∈ s.names dir.location) (hv : visit s cwd inside dir n = .enter location) :
    Known s cwd ⟨location, join dir.path n⟩ := by
  obtain ⟨⟨mode, hs⟩, _⟩ := enters
  obtain ⟨e, he⟩ := mem_names.1 hn
  rcases visit_eq_enter.1 hv with ⟨⟨mode', hd⟩, rfl⟩ | ⟨_, ⟨mode', ht⟩, _⟩
  · intro loc f h
    cases stat?_join wellNamed hs hd (by simp) h
    rfl
  · intro loc f h
    cases ht.symm.trans h
    rfl

/-! ## The walk by names -/

/-- The names by which a walk through `dir`, at most `depth` directories deep, gets to files. -/
def routesWithin (s : Store) (cwd : Location) (leaveOut : Option PathText) :
    (depth : Nat) → List Ancestor → Ancestor → List (List Name)
  | 0, _, _ => []
  | depth + 1, inside, dir =>
    if leaveOut.isSome && (s.canonical? cwd dir.path).toOption = leaveOut then []
    else
      match s.list? cwd dir.path with
      | .error _ => []
      | .ok names => names.flatMap fun n =>
        match visit s cwd inside dir n with
        | .enter location =>
          (routesWithin s cwd leaveOut depth (dir :: inside) ⟨location, join dir.path n⟩).map (n :: ·)
        | .report (.file _) => [[n]]
        | _ => []

/-- The path of a finding that is a file. -/
def Finding.file? : Finding → Option PathText
  | .file path => some path
  | .fault _ => none

/-- The walk finds the files that it gets to by names. -/
theorem files_findingsWithin (depth : Nat) (inside : List Ancestor) (dir : Ancestor) :
    (findingsWithin s cwd leaveOut depth inside dir).filterMap Finding.file? =
      (routesWithin s cwd leaveOut depth inside dir).map (joinAll dir.path) := by
  induction depth generalizing inside dir with
  | zero => rfl
  | succ depth ih =>
    rw [findingsWithin, routesWithin]
    split
    · rfl
    · cases s.list? cwd dir.path with
      | error cause => rfl
      | ok names =>
        dsimp only
        rw [List.filterMap_flatMap, List.map_flatMap]
        refine congrArg (fun f => names.flatMap f) (funext fun n => ?_)
        cases hv : visit s cwd inside dir n with
        | ignore => rfl
        | report f =>
          cases f with
          | fault f => rfl
          | file path =>
            rw [(visit_eq_file.1 hv).1]
            rfl
        | enter location =>
          dsimp only
          rw [ih, List.map_map]
          rfl

/-- The walk passes a directory over unless it enters it. -/
theorem routesWithin_succ (known : Known s cwd dir) (depth : Nat) :
    ns ∈ routesWithin s cwd leaveOut (depth + 1) inside dir ↔
      Enters s cwd leaveOut dir ∧ ∃ n ∈ s.names dir.location,
        ns ∈ match visit s cwd inside dir n with
          | .enter location => (routesWithin s cwd leaveOut depth (dir :: inside)
              ⟨location, join dir.path n⟩).map (n :: ·)
          | .report (.file _) => [[n]]
          | _ => [] := by
  rw [routesWithin]
  constructor
  · intro h
    split at h
    · cases h
    · next hout =>
      split at h
      · cases h
      · next names hl =>
        obtain ⟨loc, mode, hs, rfl⟩ := list?_eq_ok.1 hl
        obtain rfl := known _ _ hs
        have enters : Enters s cwd leaveOut dir :=
          ⟨⟨mode, hs⟩, fun place hp hc => hout (isLeftOut_iff.2 ⟨place, hp, hc⟩)⟩
        obtain ⟨n, hn, hmem⟩ := List.mem_flatMap.1 h
        exact ⟨enters, n, hn, hmem⟩
  · rintro ⟨enters, n, hn, hmem⟩
    rw [if_neg enters.not_isLeftOut, list?_of_enters enters]
    exact List.mem_flatMap.2 ⟨n, hn, hmem⟩

/-- The walk gets to files by the routes, as far as it is deep. -/
theorem mem_routesWithin (wellNamed : s.WellNamed) (depth : Nat) (known : Known s cwd dir) :
    ns ∈ routesWithin s cwd leaveOut depth inside dir ↔
      Onward s cwd leaveOut inside dir ns ∧ ns.length ≤ depth := by
  induction depth generalizing inside dir ns with
  | zero =>
    refine iff_of_false List.not_mem_nil fun ⟨h, hl⟩ => ?_
    exact h.ne_nil (List.length_eq_zero_iff.1 (Nat.le_zero.1 hl))
  | succ depth ih =>
    rw [routesWithin_succ known]
    constructor
    · rintro ⟨enters, n, hn, hmem⟩
      cases hv : visit s cwd inside dir n with
      | ignore => rw [hv] at hmem; cases hmem
      | report f =>
        rw [hv] at hmem
        cases f with
        | fault f => cases hmem
        | file path =>
          obtain rfl := List.mem_singleton.1 hmem
          exact ⟨enters.onward_last wellNamed hn hv, Nat.succ_le_succ (Nat.zero_le depth)⟩
      | enter location =>
        rw [hv] at hmem
        obtain ⟨rest, hr, rfl⟩ := List.mem_map.1 hmem
        obtain ⟨h, hl⟩ := (ih (Known.next wellNamed enters hn hv)).1 hr
        exact ⟨enters.onward_next wellNamed hn hv h, Nat.succ_le_succ hl⟩
    · rintro ⟨h, hl⟩
      match ns with
      | [] => exact absurd rfl h.ne_nil
      | [n] =>
        obtain ⟨enters, hn⟩ := h.enters known
        refine ⟨enters, n, hn, ?_⟩
        rw [h.visit_last wellNamed known]
        exact List.mem_singleton.2 rfl
      | n :: m :: ns =>
        obtain ⟨enters, hn⟩ := h.enters known
        obtain ⟨location, hv, rest⟩ := h.visit_next wellNamed known
        refine ⟨enters, n, hn, ?_⟩
        rw [hv]
        have deeper := (ih (Known.next wellNamed enters hn hv)).2 ⟨rest, Nat.le_of_succ_le_succ hl⟩
        exact List.mem_map.2 ⟨m :: ns, deeper, rfl⟩

/-! ## How long a route can be -/

/-- Below the directories that a walk is inside of, a route is no longer than the walk can still get deep. -/
theorem Onward.length_le (wellNamed : s.WellNamed) (known : Known s cwd dir)
    (nested : Nested s cwd (dir :: inside)) (h : Onward s cwd leaveOut inside dir ns) :
    inside.length + ns.length ≤ depthLimit s := by
  induction ns generalizing inside dir with
  | nil => exact absurd rfl h.ne_nil
  | cons n rest ih =>
    have height := nested.length_le wellNamed.toRooted
    rw [List.length_cons] at height
    cases rest with
    | nil => exact height
    | cons m ns =>
      obtain ⟨enters, hn⟩ := h.enters known
      obtain ⟨location, hv, onward⟩ := h.visit_next wellNamed known
      have deeper := ih (Known.next wellNamed enters hn hv) (.next nested hv) onward
      rw [List.length_cons] at deeper ⊢
      omega

/-- The walk is deep enough for every route. -/
theorem Onward.length_le_depthLimit (wellNamed : s.WellNamed) (known : Known s cwd dir)
    (h : Onward s cwd leaveOut [] dir ns) : ns.length ≤ depthLimit s := by
  have bound := h.length_le wellNamed known (.root dir)
  rwa [List.length_nil, Nat.zero_add] at bound

/-! ## The order of the walk -/

/-- The walk gets to files in the order of the names, compared one by one. -/
theorem pairwise_routesWithin (depth : Nat) (inside : List Ancestor) (dir : Ancestor) :
    (routesWithin s cwd leaveOut depth inside dir).Pairwise (· < ·) := by
  induction depth generalizing inside dir with
  | zero => exact .nil
  | succ depth ih =>
    rw [routesWithin]
    split
    · exact .nil
    · split
      · exact .nil
      · next names hl =>
        have sorted := pairwise_of_list? hl
        -- all that a name gives begins with that name
        have begins : ∀ n, ∀ ns ∈ (match visit s cwd inside dir n with
            | .enter location => (routesWithin s cwd leaveOut depth (dir :: inside)
                ⟨location, join dir.path n⟩).map (n :: ·)
            | .report (.file _) => [[n]]
            | _ => []), ∃ rest, ns = n :: rest := by
          intro n ns hmem
          split at hmem
          · obtain ⟨rest, _, rfl⟩ := List.mem_map.1 hmem
            exact ⟨rest, rfl⟩
          · exact ⟨[], List.mem_singleton.1 hmem⟩
          · cases hmem
        refine List.pairwise_flatMap.2 ⟨fun n _ => ?_, sorted.imp fun {m n} hlt x hx y hy => ?_⟩
        · split
          · exact List.pairwise_map.2 ((ih _ _).imp fun h => List.cons_lt_cons_self.2 h)
          · exact List.pairwise_singleton _ _
          · exact .nil
        · obtain ⟨rest, rfl⟩ := begins m x hx
          obtain ⟨rest', rfl⟩ := begins n y hy
          exact List.cons_lt_cons_iff.2 (.inl hlt)

/-- The names of a route are those of entries. -/
theorem Onward.lawful (wellNamed : s.WellNamed) (known : Known s cwd dir)
    (h : Onward s cwd leaveOut inside dir ns) : ∀ n ∈ ns, Lawful n := by
  induction ns generalizing inside dir with
  | nil => exact fun n hn => absurd hn List.not_mem_nil
  | cons n ns ih =>
    obtain ⟨_, e, _, he⟩ := h.exists_entry known
    intro k hk
    rcases List.mem_cons.1 hk with rfl | hk
    · exact wellNamed.lawful he
    · cases ns with
      | nil => exact absurd hk List.not_mem_nil
      | cons m ns =>
        obtain ⟨location, hv, rest⟩ := h.visit_next wellNamed known
        obtain ⟨enters, hn⟩ := h.enters known
        exact ih (Known.next wellNamed enters hn hv) rest k hk

/-! ## The whole walk -/

theorem onward_iff_route {input output : PathText} (location : Location) :
    Onward s cwd (s.canonical? cwd output).toOption [] ⟨location, input⟩ ns ↔
      Route s cwd input output ns := by
  constructor
  · intro h
    refine ⟨h.ne_nil, h.names, h.through, fun i hi place hp => h.outside i hi place (toOption_eq_some.2 hp),
      ?_, h.file⟩
    intro j i hj hi a b target e f link leads
    exact (h.fresh i (Nat.zero_lt_of_lt hj) hi a b target e link leads).2 j hj f
  · intro h
    refine ⟨h.ne_nil, h.names, h.through, fun i hi place hp => h.outside i hi place (toOption_eq_some.1 hp),
      ?_, h.file⟩
    intro i _ hi a b target e link leads
    exact ⟨fun _ hmem => absurd hmem List.not_mem_nil,
      fun j hj f => h.fresh j i hj hi a b target e f link leads⟩

theorem known_of_stat? {input : PathText} {e : Entry} (h : s.stat? cwd input = .ok (location, e)) :
    Known s cwd ⟨location, input⟩ := by
  intro loc e h'
  cases h.symm.trans h'
  rfl

/-- The files that a walk finds are the ends of its routes, in the order of the names. -/
theorem exists_routes {input : PathText} (output : PathText) (wellNamed : s.WellNamed) (h : s.isDir cwd input) :
    ∃ routes : List (List Name),
      (findings s cwd input output).filterMap Finding.file? = routes.map (joinAll input) ∧
      (∀ ns, ns ∈ routes ↔ Route s cwd input output ns) ∧ routes.Pairwise (· < ·) := by
  obtain ⟨location, mode, hs⟩ := isDir_iff.1 h
  have known := known_of_stat? hs
  refine ⟨routesWithin s cwd (s.canonical? cwd output).toOption (depthLimit s) [] ⟨location, input⟩,
    ?_, fun ns => ?_, pairwise_routesWithin _ _ _⟩
  · rw [findings, hs]
    exact files_findingsWithin _ _ _
  · rw [mem_routesWithin wellNamed _ known, onward_iff_route]
    refine and_iff_left_of_imp fun route => ?_
    exact ((onward_iff_route location).2 route).length_le_depthLimit wellNamed known

theorem Route.lawful (wellNamed : s.WellNamed) {input output : PathText}
    (h : Route s cwd input output ns) : ∀ n ∈ ns, Lawful n := by
  obtain ⟨location, mode, hs⟩ := isDir_iff.1 (h.through 0 (List.length_pos_iff.2 h.ne_nil))
  exact ((onward_iff_route location).2 h).lawful wellNamed (known_of_stat? hs)

end LuaTree.Walk
