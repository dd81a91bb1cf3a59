import LuaTree.Proofs.Store.Joined

/-!
# Names below a directory

What is looked up is mostly a directory's path with names behind it, and of the names some may be free.
`Approach` says that a path is of this form; a path whose directory a lookup finds is one
(`Approach.of_stat?`), and so is one that is written behind components (`Base.approach`). Every lookup
of it comes down to the names (`Approach.lookup_eq`, `Approach.locate_eq`).

Where no link is in the way, names lead down and nowhere else: `hindrance` is then all that can come
between (`tour_names`).
-/

namespace LuaTree

open PathText

/-! ## Steps -/

namespace Step

theorem ofPath_joinAll (p : PathText) {way : List Name} (h : ∀ n ∈ way, IsName n) (hne : way ≠ []) :
    ofPath (joinAll p way) = ofText p ++ way.map .enter := by
  obtain ⟨front, n, rfl⟩ := (List.eq_nil_or_concat' way).resolve_left hne
  have hf : ∀ m ∈ front, IsName m := fun m hm => h m (List.mem_append_left _ hm)
  have hn : IsName n := h n (List.mem_append_right _ List.mem_cons_self)
  rw [joinAll_append, joinAll_cons, joinAll_nil, ofPath_join _ hn, ofText_joinAll p hf,
    List.map_append, List.append_assoc]
  rfl

theorem ofPath_ofComponents {cs : List Component} (h : Normal cs) {way : List Name}
    (hw : ∀ n ∈ way, IsName n) (hne : way ≠ []) :
    ofPath (ofComponents (cs ++ way.map .name)) = cs.filterMap Component.step? ++ way.map .enter := by
  rw [← joinAll_ofComponents, ofPath_joinAll _ hw hne, ofText_ofComponents h]

end Step

namespace Store

theorem thins_slash (xs : List Step) : Thins (xs ++ [.slash]) xs := by
  induction xs with
  | nil => exact .slash .nil
  | cons st xs ih => exact .keep ih

theorem Thins.append {xs ys xs' ys' : List Step} (h : Thins xs ys) (h' : Thins xs' ys') :
    Thins (xs ++ xs') (ys ++ ys') := by
  induction h with
  | nil => exact h'
  | keep _ ih => exact .keep ih
  | stay _ ih => exact .stay ih
  | slash _ ih => exact .slash ih

/-- A separator at the end makes no difference to the steps before it. -/
theorem thins_ofText (p : PathText) : Thins (Step.ofPath p) (Step.ofText p) := by
  unfold Step.ofPath
  split
  · exact thins_slash _
  · rw [List.append_nil]
    exact .refl _

/-- A segment is a step, and the component that it is, if it is one, the same step. -/
theorem thins_segments (ss : List (List Char)) : Thins (ss.filterMap Step.ofSegment?)
    ((ss.filterMap Component.ofSegment?).filterMap Component.step?) := by
  induction ss with
  | nil => exact .nil
  | cons segment ss ih =>
    by_cases h0 : segment = []
    · rw [List.filterMap_cons, List.filterMap_cons, Step.ofSegment?, Component.ofSegment?]
      simpa [h0] using ih
    · by_cases h1 : segment = ['.']
      · rw [List.filterMap_cons, List.filterMap_cons, Step.ofSegment?, Component.ofSegment?]
        simpa [h1] using Thins.stay ih
      · by_cases h2 : segment = ['.', '.']
        · rw [List.filterMap_cons, List.filterMap_cons, Step.ofSegment?, Component.ofSegment?]
          simpa [h2, Component.step?] using Thins.keep ih
        · rw [List.filterMap_cons, List.filterMap_cons, Step.ofSegment?, Component.ofSegment?]
          simpa [h0, h1, h2, Component.step?] using Thins.keep ih

/-- The components of a path are its steps, less what makes no difference. -/
theorem thins_components (p : PathText) :
    Thins (Step.ofText p) ((components p).filterMap Component.step?) := by
  rw [components_eq, List.filterMap_append]
  unfold lead
  split
  · exact thins_segments _
  · split
    · next h =>
      obtain ⟨rest, hs⟩ : ∃ rest, segments p = ['.'] :: rest := by
        cases hs : segments p with
        | nil => rw [hs] at h; cases h
        | cons segment rest => rw [hs] at h; cases h; exact ⟨rest, rfl⟩
      rw [Step.ofText, hs]
      exact .keep (thins_segments rest)
    · exact thins_segments _

theorem Thins.mem {xs ys : List Step} (h : Thins xs ys) {st : Step} (hm : st ∈ ys) : st ∈ xs := by
  induction h with
  | nil => exact hm
  | keep _ ih =>
    rcases List.mem_cons.1 hm with rfl | hm
    · exact List.mem_cons_self
    · exact List.mem_cons_of_mem _ (ih hm)
  | stay _ ih | slash _ ih => exact List.mem_cons_of_mem _ (ih hm)

/-- What is found by a path with a name in it is there. -/
theorem entry_of_stat? {s : Store} {cwd b : Location} {p : PathText} {e : Entry} {n : Name}
    (rooted : s.Rooted) (h : s.stat? cwd p = .ok (b, e)) (hn : .name n ∈ components p) :
    s.entry? b = some e := by
  obtain ⟨_, k, _, hr⟩ := lookup_eq_ok.1 (stat?_eq_ok_iff_lookup.1 h)
  refine hr.entry_of_enter rooted (n := n) ((thins_ofText p).mem ((thins_components p).mem ?_))
  exact List.mem_filterMap.2 ⟨_, hn, rfl⟩

/-! ## Approaches -/

/-- The path `p` leads to the directory `a`, and from there on by names. -/
structure Approach (s : Store) (cwd : Location) (p : PathText) (a : Location) (way : List Name) :
    Prop where
  no_nul : '\x00' ∉ p
  holdsDir : s.holdsDir a
  leads : ∃ front, ∃ k ≤ linkLimit, Leads s k (start cwd p) front a ∧
    Step.ofPath p = front ++ way.map .enter

section

variable {s t : Store} {cwd a : Location} {p : PathText} {way : List Name}

/-- Names joined onto the path of a directory. -/
theorem Approach.of_stat? {mode : Nat} (h : s.stat? cwd p = .ok (a, .dir mode)) (there : s.holdsDir a)
    (names : ∀ n ∈ way, IsName n) (nul : ∀ n ∈ way, '\x00' ∉ n) (hne : way ≠ []) :
    Approach s cwd (joinAll p way) a way := by
  obtain ⟨h0, hp, _⟩ := checkText_of_stat? h
  obtain ⟨k, hk, hl⟩ := leads_of_stat? h rfl
  refine ⟨?_, there, Step.ofText p, k, hk, ?_, Step.ofPath_joinAll p names hne⟩
  · exact not_mem_joinAll h0 (by decide) nul
  · rwa [start_of_isAbsolute_eq (isAbsolute_joinAll hp names) cwd]

theorem Approach.mono (h : Approach s cwd p a way) (hk : Keeps s t) : Approach t cwd p a way := by
  obtain ⟨h0, there, front, k, hl, leads, hs⟩ := h
  exact ⟨h0, hk.holdsDir there, front, k, hl, leads.mono hk, hs⟩

/-- Components that lead to a directory. -/
structure Base (s : Store) (cwd : Location) (cs : List Component) (a : Location) : Prop where
  normal : Normal cs
  no_nul : '\x00' ∉ ofComponents cs
  holdsDir : s.holdsDir a
  leads : ∃ k ≤ linkLimit, Leads s k (start cwd (ofComponents cs)) (cs.filterMap Component.step?) a

theorem Base.mono {cs : List Component} (h : Base s cwd cs a) (hk : Keeps s t) : Base t cwd cs a := by
  obtain ⟨normal, h0, there, k, hl, leads⟩ := h
  exact ⟨normal, h0, hk.holdsDir there, k, hl, leads.mono hk⟩

/-- Names behind components that lead to a directory. -/
theorem Base.approach {cs : List Component} (h : Base s cwd cs a) (hw : ∀ n ∈ way, IsName n)
    (nul : ∀ n ∈ way, '\x00' ∉ n) (hne : way ≠ []) :
    Approach s cwd (ofComponents (cs ++ way.map .name)) a way := by
  obtain ⟨normal, h0, there, k, hk, leads⟩ := h
  refine ⟨?_, there, _, k, hk, ?_, Step.ofPath_ofComponents normal hw hne⟩
  · rw [← joinAll_ofComponents]
    exact not_mem_joinAll h0 (by decide) nul
  · rwa [start_of_isAbsolute_eq (isAbsolute_ofComponents_append normal hw) cwd]

theorem Approach.ne_nil (h : Approach s cwd p a way) (hne : way ≠ []) : p ≠ [] := by
  rintro rfl
  obtain ⟨_, _, front, k, _, _, hs⟩ := h
  have hl := congrArg List.length hs
  have := List.length_pos_iff.2 hne
  simp [Step.ofPath, segments, Step.ofSegment?] at hl
  omega

/-- A lookup of an approach comes down to the names. -/
theorem Approach.lookup_eq (h : Approach s cwd p a way) (hne : way ≠ []) : ∃ links, ∀ last,
    s.lookup cwd last p = if pathLimit ≤ Utf8.byteLength p then .error (.os .nameTooLong)
      else (s.tour last links a (way.map .enter)).mapError .os := by
  have hp := h.ne_nil hne
  obtain ⟨h0, _, front, k, hk, leads, hs⟩ := h
  refine ⟨linkLimit - k, fun last => ?_⟩
  have hc := checkText_eq h0 hp
  by_cases hl : pathLimit ≤ Utf8.byteLength p
  · rw [if_pos hl] at hc ⊢
    exact lookup_of_checkText_error s cwd last hc
  · rw [if_neg hl] at hc ⊢
    rw [Store.lookup_eq s cwd last hc, hs, leads.tour_append ?_ hk]
    cases way with
    | nil => exact absurd rfl hne
    | cons n way => exact .inr ⟨.enter n, _, rfl, by simp⟩

/-- Where the name that an approach ends with leads, unless it is a link's. -/
theorem Approach.stat?_eq {n : Name} {e : Entry} (h : Approach s cwd p a [n])
    (hp : Utf8.byteLength p < pathLimit) (hn : Utf8.byteLength n ≤ nameLimit)
    (he : s.entry? (a ++ [n]) = some e) (hl : ∀ target, e ≠ .link target) :
    s.stat? cwd p = .ok (a ++ [n], e) := by
  obtain ⟨links, lookup⟩ := h.lookup_eq (List.cons_ne_nil n [])
  apply stat?_of_lookup
  rw [lookup .follow, if_neg (Nat.not_le.2 hp), List.map_singleton, tour_enter, if_neg (by simp),
    if_neg (Nat.not_lt.2 hn), he]
  cases e with
  | dir mode =>
    dsimp only
    rw [tour_nil, he]
    rfl
  | link target => exact absurd rfl (hl target)
  | file _ | fifo | device _ => rfl

/-- A lookup that ends well finds an entry under the name. -/
theorem Approach.exists_entry {n : Name} {last : LastName} {place : Location × Entry}
    (h : Approach s cwd p a [n]) (hs : s.entryAt? cwd last p = .ok place) :
    ∃ e, s.entry? (a ++ [n]) = some e := by
  obtain ⟨links, lookup⟩ := h.lookup_eq (List.cons_ne_nil n [])
  cases he : s.entry? (a ++ [n]) with
  | some e => exact ⟨e, rfl⟩
  | none =>
    rw [entryAt?, lookup last, List.map_singleton, tour_enter, he] at hs
    dsimp only at hs
    repeat' split at hs
    all_goals cases hs

/-- What is located is the last name, in the directory that the names before it lead to. -/
theorem Approach.locate_eq {n : Name} (h : Approach s cwd p a (way ++ [n])) : ∃ links,
    s.locate cwd p = if pathLimit ≤ Utf8.byteLength p then .error (.os .nameTooLong)
      else match s.tour .follow links a (way.map .enter ++ [.slash]) with
        | .error e => .error (.os e)
        | .ok (.vacant _ _) => .error (.os .noEntry)
        | .ok (.entry dir _) =>
          if nameLimit < Utf8.byteLength n then .error (.os .nameTooLong)
          else if !s.holdsDir dir then .error (.os .noEntry)
          else .ok { dir, name? := some n, slash := false } := by
  have hp := h.ne_nil (List.concat_ne_nil n way)
  obtain ⟨h0, _, front, k, hk, leads, hs⟩ := h
  have slash : p.getLast? ≠ some '/' := by
    intro hl
    have last := congrArg List.getLast? hs
    rw [Step.ofPath, if_pos hl] at last
    simp at last
  have steps : bareSteps p = (front ++ way.map .enter) ++ [.enter n] := by
    rw [Step.ofPath_of_no_slash slash] at hs
    rw [bareSteps, Step.ofPath_of_no_slash slash, Step.filter_ofText, hs]
    simp
  have last : lastName? p = some n := by
    rw [lastName?, steps, List.getLast?_concat]
  refine ⟨linkLimit - k, ?_⟩
  have hc := checkText_eq h0 hp
  by_cases hl : pathLimit ≤ Utf8.byteLength p
  · rw [if_pos hl] at hc ⊢
    rw [locate, hc]
    rfl
  · rw [if_neg hl] at hc ⊢
    rw [Store.locate_eq s cwd hc, steps, List.dropLast_concat, last, List.append_assoc,
      leads.tour_append (.inl rfl) hk]
    cases s.tour .follow (linkLimit - k) a (way.map .enter ++ [.slash]) with
    | error e => rfl
    | ok d =>
      cases d with
      | vacant _ _ => rfl
      | entry dir e => simp only [slash, decide_false]

end

/-! ## Names without links -/

section

variable {s : Store} {last : LastName} {links : Nat} {a : Location} {way : List Name}

/-- No link is at any of the names on the way down from `a`. -/
def LinkFree (s : Store) (a : Location) (way : List Name) : Prop :=
  ∀ front, front <+: way → front ≠ [] → ∀ target, s.entry? (a ++ front) ≠ some (.link target)

theorem LinkFree.nil (s : Store) (a : Location) : LinkFree s a [] :=
  fun _ hp hne => absurd (List.prefix_nil.1 hp) hne

theorem LinkFree.single {n : Name} (h : ∀ target, s.entry? (a ++ [n]) ≠ some (.link target)) :
    LinkFree s a [n] := by
  intro front hp hne
  obtain ⟨rest, rfl, hr⟩ := (List.prefix_cons_iff.1 hp).resolve_left hne
  obtain rfl := List.prefix_nil.1 hr
  exact h

theorem LinkFree.head {n : Name} (h : LinkFree s a (n :: way)) (target : PathText) :
    s.entry? (a ++ [n]) ≠ some (.link target) :=
  h [n] ⟨way, rfl⟩ (List.cons_ne_nil n []) target

theorem LinkFree.tail {n : Name} (h : LinkFree s a (n :: way)) : LinkFree s (a ++ [n]) way := by
  intro front hp hne target
  rw [List.append_assoc]
  exact h (n :: front) (List.cons_prefix_cons.2 ⟨rfl, hp⟩) (List.cons_ne_nil n front) target

theorem LinkFree.front {front : List Name} (h : LinkFree s a way) (hp : front <+: way) :
    LinkFree s a front :=
  fun f hf => h f (hf.trans hp)

/-- What keeps one from going down by names: a name that is too long, nothing there, or something
other than a directory. -/
def hindrance (s : Store) (a : Location) : List Name → Option Errno
  | [] => none
  | n :: way =>
    if nameLimit < Utf8.byteLength n then some .nameTooLong
    else
      match s.entry? (a ++ [n]) with
      | none => some .noEntry
      | some (.dir _) => hindrance s (a ++ [n]) way
      | some _ => some .notDirectory

/-- Names that nothing hinders lead down. -/
theorem tour_names (free : LinkFree s a way) {rest : List Step} (hne : rest ≠ [])
    (hl : last = .follow ∨ ∃ n more, rest = .enter n :: more) :
    s.tour last links a (way.map .enter ++ rest) =
      match s.hindrance a way with
      | some e => .error e
      | none => s.tour last links (a ++ way) rest := by
  -- on the names, one directory further down each time; the first that is none is the hindrance
  induction way generalizing a with
  | nil => simp [hindrance]
  | cons n way ih =>
    have ahead : way.map Step.enter ++ rest ≠ [] := by simp [hne]
    have create : ¬(last = .create ∧ way.map Step.enter ++ rest = [.slash]) := by
      rintro ⟨hc, hr⟩
      rcases hl with hf | ⟨m, more, rfl⟩
      · rw [hf] at hc; cases hc
      · cases way with
        | nil => cases hr
        | cons m' way => simp at hr
    rw [List.map_cons, List.cons_append, tour_enter, if_neg create, hindrance]
    by_cases hn : nameLimit < Utf8.byteLength n
    · rw [if_pos hn, if_pos hn]
    · rw [if_neg hn, if_neg hn]
      cases he : s.entry? (a ++ [n]) with
      | none => simp [ahead]
      | some e =>
        cases e with
        | dir mode =>
          dsimp only
          rw [ih free.tail, List.append_assoc]
          rfl
        | link target => exact absurd he (free.head target)
        | file i => simp [ahead]
        | fifo => simp [ahead]
        | device d => simp [ahead]

theorem hindrance_eq_none (wellNamed : s.WellNamed) (ha : s.holdsDir a) :
    s.hindrance a way = none ↔ s.holdsDir (a ++ way) := by
  induction way generalizing a with
  | nil => simp [hindrance, ha]
  | cons n way ih =>
    rw [List.append_cons, hindrance]
    constructor
    · intro h
      split at h
      · cases h
      · split at h
        · cases h
        · next mode he => exact (ih (holdsDir_of_entry he)).1 h
        · cases h
    · intro h
      obtain ⟨mode, he⟩ : ∃ mode, s.entry? (a ++ [n]) = some (.dir mode) := by
        obtain ⟨mode, he⟩ := holdsDir_iff.1 h
        by_cases hw : way = []
        · subst hw
          rw [List.append_nil] at he
          exact ⟨mode, he⟩
        · exact holdsDir_iff.1 (wellNamed.holdsDir_of_below hw he)
      rw [if_neg (Nat.not_lt.2 (wellNamed.lawful he).short), he]
      exact (ih (holdsDir_of_entry he)).2 h

end

end Store

end LuaTree
