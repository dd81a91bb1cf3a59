import LuaTree.Proofs.Plan.Visit
import LuaTree.Proofs.Store.Joined
import Mathlib.Data.List.Sort

/-!
# What a walk reports

A walk reports entries of the directories that it gets to, and directories that it cannot read. `Inside`
says which directories it gets to, by which names and from inside of which others; `Reported` says what
is reported then. Neither counts how deep the walk is. `exists_reports`: the findings of a walk are what
is `Reported`, once for every sequence of names and in the order of these.
-/

namespace LuaTree.Walk

open PathText Store

/-- The walk through `input` gets to `dir` by the names; it is inside of `inside` then, nearest first. -/
inductive Inside (s : Store) (cwd : Location) (leaveOut : Option PathText) (input : PathText) :
    List Ancestor → Ancestor → List Name → Prop
  | input {location mode} : s.stat? cwd input = .ok (location, .dir mode) →
      Inside s cwd leaveOut input [] ⟨location, input⟩ []
  | dir {inside dir ns n mode} : Inside s cwd leaveOut input inside dir ns → Enters s cwd leaveOut dir →
      s.entry? (dir.location ++ [n]) = some (.dir mode) →
      Inside s cwd leaveOut input (dir :: inside) ⟨dir.location ++ [n], join dir.path n⟩ (ns ++ [n])
  /-- A link is followed unless it leads back to a directory that the walk is inside of. -/
  | link {inside dir ns n target location mode} : Inside s cwd leaveOut input inside dir ns →
      Enters s cwd leaveOut dir → s.entry? (dir.location ++ [n]) = some (.link target) →
      s.stat? cwd (join dir.path n) = .ok (location, .dir mode) →
      (∀ above ∈ dir :: inside, above.location ≠ location) →
      Inside s cwd leaveOut input (dir :: inside) ⟨location, join dir.path n⟩ (ns ++ [n])

/-- The walk through `input` reports a finding under the names. -/
inductive Reported (s : Store) (cwd : Location) (leaveOut : Option PathText) (input : PathText) :
    List Name → Finding → Prop
  | entry {inside dir ns n e f} : Inside s cwd leaveOut input inside dir ns → Enters s cwd leaveOut dir →
      s.entry? (dir.location ++ [n]) = some e → visit s cwd inside dir n = .report f →
      Reported s cwd leaveOut input (ns ++ [n]) f
  | unread {inside dir ns cause} : Inside s cwd leaveOut input inside dir ns →
      (∀ place, leaveOut = some place → s.canonical? cwd dir.path ≠ .ok place) →
      s.stat? cwd dir.path = .error cause →
      Reported s cwd leaveOut input ns (.fault (.unreadable dir.path cause))

variable {s : Store} {cwd : Location} {leaveOut : Option PathText} {input : PathText}
  {inside : List Ancestor} {dir : Ancestor} {n : Name} {ns front : List Name} {location : Location}
  {f : Finding}

/-! ## Getting to a directory -/

theorem Inside.enter (h : Inside s cwd leaveOut input inside dir ns) (enters : Enters s cwd leaveOut dir)
    (hv : visit s cwd inside dir n = .enter location) :
    Inside s cwd leaveOut input (dir :: inside) ⟨location, join dir.path n⟩ (ns ++ [n]) := by
  rcases visit_eq_enter.1 hv with ⟨⟨mode, he⟩, rfl⟩ | ⟨⟨target, he⟩, ⟨mode, ht⟩, free⟩
  · exact .dir h enters he
  · exact .link h enters he ht free

theorem Inside.nested (h : Inside s cwd leaveOut input inside dir ns) : Nested s cwd (dir :: inside) := by
  induction h with
  | input _ => exact .root _
  | dir _ _ he ih => exact .next ih (visit_eq_enter.2 (.inl ⟨⟨_, he⟩, rfl⟩))
  | link _ _ he ht free ih => exact .next ih (visit_eq_enter.2 (.inr ⟨⟨_, he⟩, ⟨_, ht⟩, free⟩))

/-- The path of a directory that a walk gets to leads there, unless it is too long. -/
theorem Inside.stat? (wellNamed : s.WellNamed) (h : Inside s cwd leaveOut input inside dir ns) :
    (∃ mode, s.stat? cwd dir.path = .ok (dir.location, .dir mode)) ∨
      pathLimit ≤ Utf8.byteLength dir.path ∧ s.stat? cwd dir.path = .error (.os .nameTooLong) := by
  cases h with
  | input hs => exact .inl ⟨_, hs⟩
  | link _ _ _ ht _ => exact .inl ⟨_, ht⟩
  | @dir _ dir _ n mode _ enters he =>
    obtain ⟨⟨_, hs⟩, _⟩ := enters
    have hn := wellNamed.lawful he
    obtain ⟨h0, hp, _⟩ := checkText_of_stat? hs
    by_cases long : pathLimit ≤ Utf8.byteLength (join dir.path n)
    · refine .inr ⟨long, stat?_of_long ?_ (join_ne_nil _ hn.ne_nil hn.no_separator) long⟩
      exact not_mem_join h0 (by decide) hn.no_nul
    · exact .inl ⟨mode, entryAt?_join hs hn (Nat.not_le.1 long) he (.inr ⟨rfl, by simp⟩)⟩

/-! ## The walk with its names -/

/-- What a walk through `dir`, at most `depth` directories deep, reports, with the names from there. -/
def reportsWithin (s : Store) (cwd : Location) (leaveOut : Option PathText) :
    (depth : Nat) → List Ancestor → Ancestor → List (List Name × Finding)
  | 0, _, _ => []
  | depth + 1, inside, dir =>
    if leaveOut.isSome && (s.canonical? cwd dir.path).toOption = leaveOut then []
    else
      match s.list? cwd dir.path with
      | .error cause => [([], .fault (.unreadable dir.path cause))]
      | .ok names => names.flatMap fun n =>
        match visit s cwd inside dir n with
        | .enter location =>
          (reportsWithin s cwd leaveOut depth (dir :: inside) ⟨location, join dir.path n⟩).map
            fun r => (n :: r.1, r.2)
        | .report f => [([n], f)]
        | .ignore => []

theorem findingsWithin_eq (depth : Nat) (inside : List Ancestor) (dir : Ancestor) :
    findingsWithin s cwd leaveOut depth inside dir =
      (reportsWithin s cwd leaveOut depth inside dir).map Prod.snd := by
  induction depth generalizing inside dir with
  | zero => rfl
  | succ depth ih =>
    rw [findingsWithin, reportsWithin]
    split
    · rfl
    · cases s.list? cwd dir.path with
      | error cause => rfl
      | ok names =>
        dsimp only
        rw [List.map_flatMap]
        refine congrArg (fun f => names.flatMap f) (funext fun n => ?_)
        cases visit s cwd inside dir n with
        | ignore | report f => rfl
        | enter location =>
          dsimp only
          rw [ih, List.map_map]
          rfl

theorem list?_of_stat?_error {p : PathText} {cause : IoError} (h : s.stat? cwd p = .error cause) :
    s.list? cwd p = .error cause := by
  rw [list?, h]
  rfl

/-- What the reports of a directory that a walk has got to are made of. -/
theorem mem_reportsWithin_succ (wellNamed : s.WellNamed) (h : Inside s cwd leaveOut input inside dir front)
    (depth : Nat) : (ns, f) ∈ reportsWithin s cwd leaveOut (depth + 1) inside dir ↔
      ((∀ place, leaveOut = some place → s.canonical? cwd dir.path ≠ .ok place) ∧
        ∃ cause, s.stat? cwd dir.path = .error cause ∧ ns = [] ∧ f = .fault (.unreadable dir.path cause)) ∨
      Enters s cwd leaveOut dir ∧ ∃ n ∈ s.names dir.location,
        (∃ location rest, visit s cwd inside dir n = .enter location ∧ ns = n :: rest ∧
          (rest, f) ∈ reportsWithin s cwd leaveOut depth (dir :: inside) ⟨location, join dir.path n⟩) ∨
        visit s cwd inside dir n = .report f ∧ ns = [n] := by
  rw [reportsWithin]
  by_cases out : (leaveOut.isSome && (s.canonical? cwd dir.path).toOption = leaveOut) = true
  · rw [if_pos out]
    refine iff_of_false List.not_mem_nil ?_
    rintro (⟨free, _⟩ | ⟨enters, _⟩)
    · exact not_isLeftOut_iff.2 free out
    · exact enters.not_isLeftOut out
  have free := not_isLeftOut_iff.1 out
  rw [if_neg out]
  rcases h.stat? wellNamed with ⟨mode, hs⟩ | ⟨_, hs⟩
  · -- a directory that can be read
    have enters : Enters s cwd leaveOut dir := ⟨⟨mode, hs⟩, free⟩
    rw [list?_of_enters enters]
    simp only [hs, reduceCtorEq, false_and, exists_false, and_false, false_or, enters, true_and,
      List.mem_flatMap]
    refine exists_congr fun n => and_congr_right fun _ => ?_
    cases hv : visit s cwd inside dir n with
    | ignore => simp
    | report g => simp [eq_comm, and_comm]
    | enter location =>
      simp only [List.mem_map, Prod.mk.injEq, Visit.enter.injEq, reduceCtorEq, false_and, or_false]
      constructor
      · rintro ⟨⟨rest, g⟩, hmem, rfl, rfl⟩
        exact ⟨location, rest, rfl, rfl, hmem⟩
      · rintro ⟨_, rest, rfl, rfl, hmem⟩
        exact ⟨(rest, f), hmem, rfl, rfl⟩
  · -- one that cannot
    rw [list?_of_stat?_error hs]
    simp only [List.mem_singleton, Prod.mk.injEq]
    constructor
    · rintro ⟨rfl, rfl⟩
      exact .inl ⟨free, _, hs, rfl, rfl⟩
    · rintro (⟨_, cause, he, rfl, rfl⟩ | ⟨⟨⟨_, he⟩, _⟩, _⟩)
      · cases hs.symm.trans he
        exact ⟨rfl, rfl⟩
      · cases hs.symm.trans he

/-! ## Nothing else is reported -/

theorem reported_of_mem (wellNamed : s.WellNamed) (depth : Nat)
    (h : Inside s cwd leaveOut input inside dir front)
    (hmem : (ns, f) ∈ reportsWithin s cwd leaveOut depth inside dir) :
    Reported s cwd leaveOut input (front ++ ns) f := by
  induction depth generalizing inside dir front ns with
  | zero => exact absurd hmem List.not_mem_nil
  | succ depth ih =>
    rcases (mem_reportsWithin_succ wellNamed h depth).1 hmem with
      ⟨free, cause, hs, rfl, rfl⟩ | ⟨enters, n, hn, ⟨location, rest, hv, rfl, deeper⟩ | ⟨hv, rfl⟩⟩
    · rw [List.append_nil]
      exact .unread h free hs
    · rw [List.append_cons]
      exact ih (h.enter enters hv) deeper
    · obtain ⟨e, he⟩ := mem_names.1 hn
      exact .entry h enters he hv

/-! ## Everything is reported -/

/-- Depth enough is left in `dir`, and what is reported there is reported of the input at `top`. -/
def Covered (s : Store) (cwd : Location) (leaveOut : Option PathText) (top : Ancestor)
    (inside : List Ancestor) (dir : Ancestor) (front : List Name) : Prop :=
  ∃ depth, depth + 1 + inside.length = depthLimit s ∧
    ∀ ns f, (ns, f) ∈ reportsWithin s cwd leaveOut (depth + 1) inside dir →
      (front ++ ns, f) ∈ reportsWithin s cwd leaveOut (depthLimit s) [] top

variable {top : Ancestor}

theorem Covered.enter (wellNamed : s.WellNamed) (covered : Covered s cwd leaveOut top inside dir front)
    (h : Inside s cwd leaveOut input inside dir front) (enters : Enters s cwd leaveOut dir) {e : Entry}
    (he : s.entry? (dir.location ++ [n]) = some e) (hv : visit s cwd inside dir n = .enter location) :
    Covered s cwd leaveOut top (dir :: inside) ⟨location, join dir.path n⟩ (front ++ [n]) := by
  obtain ⟨depth, enough, reports⟩ := covered
  have height := (h.enter enters hv).nested.length_le wellNamed.toRooted
  rw [List.length_cons, List.length_cons] at height
  obtain ⟨d, rfl⟩ : ∃ d, depth = d + 1 := ⟨depth - 1, by omega⟩
  refine ⟨d, ?_, fun ns f hmem => ?_⟩
  · rw [List.length_cons]
    omega
  · rw [← List.append_cons]
    refine reports (n :: ns) f ((mem_reportsWithin_succ wellNamed h _).2 (.inr ⟨enters, n, ?_, .inl ?_⟩))
    · exact mem_names.2 ⟨e, he⟩
    · exact ⟨location, ns, hv, rfl, hmem⟩

theorem Inside.covered (wellNamed : s.WellNamed) (h : Inside s cwd leaveOut input inside dir front)
    {mode : Nat} (hs : s.stat? cwd input = .ok (location, .dir mode)) :
    Covered s cwd leaveOut ⟨location, input⟩ inside dir front := by
  induction h with
  | input hs' =>
    cases hs.symm.trans hs'
    obtain ⟨depth, hd⟩ : ∃ depth, depthLimit s = depth + 1 :=
      Nat.exists_eq_succ_of_ne_zero (Nat.mul_ne_zero (Nat.succ_ne_zero _) (Nat.succ_ne_zero _))
    refine ⟨depth, hd.symm, fun ns f hmem => ?_⟩
    rw [hd]
    exact hmem
  | dir h enters he ih => exact ih.enter wellNamed h enters he (visit_eq_enter.2 (.inl ⟨⟨_, he⟩, rfl⟩))
  | link h enters he ht free ih =>
    exact ih.enter wellNamed h enters he (visit_eq_enter.2 (.inr ⟨⟨_, he⟩, ⟨_, ht⟩, free⟩))

theorem mem_of_reported (wellNamed : s.WellNamed) (h : Reported s cwd leaveOut input ns f)
    {mode : Nat} (hs : s.stat? cwd input = .ok (location, .dir mode)) :
    (ns, f) ∈ reportsWithin s cwd leaveOut (depthLimit s) [] ⟨location, input⟩ := by
  cases h with
  | entry h enters he hv =>
    obtain ⟨depth, _, reports⟩ := h.covered wellNamed hs
    refine reports _ f ((mem_reportsWithin_succ wellNamed h depth).2 (.inr ⟨enters, _, ?_, .inr ⟨hv, rfl⟩⟩))
    exact mem_names.2 ⟨_, he⟩
  | unread h free he =>
    obtain ⟨depth, _, reports⟩ := h.covered wellNamed hs
    have whole := reports [] _ ((mem_reportsWithin_succ wellNamed h depth).2 (.inl ⟨free, _, he, rfl, rfl⟩))
    rwa [List.append_nil] at whole

/-! ## The order -/

theorem pairwise_reportsWithin (depth : Nat) (inside : List Ancestor) (dir : Ancestor) :
    ((reportsWithin s cwd leaveOut depth inside dir).map Prod.fst).Pairwise (· < ·) := by
  induction depth generalizing inside dir with
  | zero => exact .nil
  | succ depth ih =>
    rw [reportsWithin]
    split
    · exact .nil
    · split
      · exact List.pairwise_singleton _ _
      · next names hl =>
        rw [List.map_flatMap]
        refine List.pairwise_flatMap.2 ⟨fun n _ => ?_, (pairwise_of_list? hl).imp fun {m n} hlt x hx y hy => ?_⟩
        · cases visit s cwd inside dir n with
          | ignore => exact .nil
          | report f => exact List.pairwise_singleton _ _
          | enter location =>
            rw [List.map_map]
            have deeper := List.pairwise_map.1 (ih (dir :: inside) ⟨location, join dir.path n⟩)
            exact List.pairwise_map.2 (deeper.imp fun h => List.cons_lt_cons_self.2 h)
        · obtain ⟨rest, rfl⟩ := begins hx
          obtain ⟨rest', rfl⟩ := begins hy
          exact List.cons_lt_cons_iff.2 (.inl hlt)
where
  /-- All that a name gives begins with that name. -/
  begins {depth : Nat} {inside : List Ancestor} {dir : Ancestor} {n : Name} {ns : List Name}
      (h : ns ∈ (match visit s cwd inside dir n with
        | .enter location => (reportsWithin s cwd leaveOut depth (dir :: inside)
            ⟨location, join dir.path n⟩).map fun (r : List Name × Finding) => (n :: r.1, r.2)
        | .report f => [([n], f)]
        | .ignore => []).map Prod.fst) : ∃ rest, ns = n :: rest := by
    cases hv : visit s cwd inside dir n with
    | ignore =>
      rw [hv] at h
      cases h
    | report f =>
      rw [hv] at h
      exact ⟨[], List.mem_singleton.1 h⟩
    | enter location =>
      rw [hv] at h
      simp only [List.map_map, List.mem_map, Function.comp_apply] at h
      obtain ⟨r, _, rfl⟩ := h
      exact ⟨r.1, rfl⟩

/-! ## The whole walk -/

/-- The findings of a walk are what is reported, in the order of the names. -/
theorem exists_reports (wellNamed : s.WellNamed) (output : PathText) (h : s.isDir cwd input) :
    ∃ reports : List (List Name × Finding), findings s cwd input output = reports.map Prod.snd ∧
      (reports.map Prod.fst).Pairwise (· < ·) ∧
      ∀ ns f, (ns, f) ∈ reports ↔ Reported s cwd (s.canonical? cwd output).toOption input ns f := by
  obtain ⟨location, mode, hs⟩ := isDir_iff.1 h
  refine ⟨reportsWithin s cwd (s.canonical? cwd output).toOption (depthLimit s) [] ⟨location, input⟩,
    ?_, pairwise_reportsWithin _ _ _, fun ns f => ⟨reported_of_mem wellNamed _ (.input hs), ?_⟩⟩
  · rw [findings, hs]
    exact findingsWithin_eq _ _ _
  · exact fun reported => mem_of_reported wellNamed reported hs

/-- The fault of a finding that is one. -/
def Finding.fault? : Finding → Option WalkFault
  | .file _ => none
  | .fault f => some f

/-- What is picked from the findings of a walk is picked from what is reported, in its order. -/
theorem exists_picked {β : Type} (pick : Finding → Option β) (wellNamed : s.WellNamed) (output : PathText)
    (h : s.isDir cwd input) :
    ∃ picked : List (List Name × β), (findings s cwd input output).filterMap pick = picked.map Prod.snd ∧
      picked.Pairwise (fun x y => x.1 < y.1) ∧
      ∀ x, x ∈ picked ↔ ∃ f, pick f = some x.2 ∧
        Reported s cwd (s.canonical? cwd output).toOption input x.1 f := by
  obtain ⟨reports, found, sorted, mem⟩ := exists_reports wellNamed output h
  refine ⟨reports.filterMap fun r => (pick r.2).map (r.1, ·), ?_, ?_, fun x => ?_⟩
  · rw [found, List.filterMap_map, List.map_filterMap]
    refine congrArg (fun f => reports.filterMap f) (funext fun r => ?_)
    rw [Option.map_map]
    exact Option.map_id'.symm
  · refine List.pairwise_filterMap.2 ((List.pairwise_map.1 sorted).imp fun hlt x hx y hy => ?_)
    obtain ⟨_, _, rfl⟩ := Option.map_eq_some_iff.1 hx
    obtain ⟨_, _, rfl⟩ := Option.map_eq_some_iff.1 hy
    exact hlt
  · obtain ⟨ns, b⟩ := x
    simp only [List.mem_filterMap, Option.map_eq_some_iff, Prod.mk.injEq, Prod.exists, mem]
    constructor
    · rintro ⟨ns', f, reported, c, hf, rfl, rfl⟩
      exact ⟨f, hf, reported⟩
    · rintro ⟨f, hf, reported⟩
      exact ⟨ns, f, reported, b, hf, rfl, rfl⟩

/-- Lists of things with names that are in the order of the names are known by what is in them. -/
theorem eq_of_sorted {β : Type} {xs ys : List (List Name × β)} (hx : xs.Pairwise fun x y => x.1 < y.1)
    (hy : ys.Pairwise fun x y => x.1 < y.1) (same : ∀ x, x ∈ xs ↔ x ∈ ys) : xs = ys := by
  have irrefl : Std.Irrefl fun x y : List Name × β => x.1 < y.1 := ⟨fun x => List.lt_irrefl x.1⟩
  have antisymm : Std.Antisymm fun x y : List Name × β => x.1 < y.1 :=
    ⟨fun x y hlt hgt => absurd hgt (List.lt_asymm hlt)⟩
  exact hx.eq_of_mem_iff hy same

end LuaTree.Walk
