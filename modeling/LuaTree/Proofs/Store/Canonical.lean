import LuaTree.Proofs.Store.Joined

/-!
# Canonical texts

A path is written out as the location that it leads to by a walk of its own (`Store.resolve`), which looks
names up by the text that it has so far. `Resolves` is that walk without its bound on links
(`resolve_eq_ok`).

* `Resolves.reaches`: what a path is written out as is where its steps lead, and it stands there;
* `Reaches.resolve_cases`: where steps lead to, the walk gets, unless the text of a location on the way is too
  long to be looked up;
* `Reaches.resolve_congr`: a store that keeps its directories and links writes the same.

For paths: `canonical?_of_stat?`, `canonical?_eq_ok`, `canonical?_of_removed`, `canonical?_congr`.
-/

namespace LuaTree

open PathText

/-! ## The text of a location -/

theorem text_eq_ofComponents {loc : Location} (h : ∀ n ∈ loc, IsName n) :
    loc.text = ofComponents (.root :: loc.map .name) := by
  have slashed : ∀ (rest : List Name) (p : PathText), p ≠ [] → p.getLast? ≠ some '/' →
      (∀ n ∈ rest, IsName n) → p ++ rest.flatMap (fun n => '/' :: n) = joinAll p rest := by
    intro rest
    induction rest with
    | nil => exact fun p _ _ _ => List.append_nil p
    | cons n rest ih =>
      intro p hp hl hr
      have hn := hr n List.mem_cons_self
      have hj := join_of_no_separator hn.no_separator hp hl
      rw [joinAll_cons, ← ih (join p n) (join_ne_nil p hn.ne_nil hn.no_separator)
        (getLast?_join p hn.ne_nil hn.no_separator) fun m hm => hr m (List.mem_cons_of_mem n hm), hj,
        List.flatMap_cons, List.append_assoc]
  have root : ofComponents [.root] = ['/'] := rfl
  show loc.text = ofComponents ([.root] ++ loc.map .name)
  rw [Location.text, ← joinAll_ofComponents, root]
  cases loc with
  | nil => rfl
  | cons n rest =>
    have hn := h n List.mem_cons_self
    have hj : join ['/'] n = '/' :: n := join_of_separator hn.no_separator (.inr rfl)
    rw [if_neg (List.cons_ne_nil n rest), joinAll_cons, hj]
    refine slashed rest ('/' :: n) (List.cons_ne_nil '/' n) ?_ fun m hm => h m (List.mem_cons_of_mem n hm)
    rw [← hj]
    exact getLast?_join ['/'] hn.ne_nil hn.no_separator

theorem normal_root {loc : Location} (h : ∀ n ∈ loc, IsName n) : Normal (.root :: loc.map .name) := by
  have anchor : Normal [.root] := .root
  exact anchor.append_names h

theorem no_nul_of_lawful {loc : Location} (h : ∀ n ∈ loc, Lawful n) :
    ∀ c ∈ Component.root :: loc.map .name, '\x00' ∉ c.text := by
  intro c hc
  rcases List.mem_cons.1 hc with rfl | hc
  · decide
  · obtain ⟨n, hn, rfl⟩ := List.mem_map.1 hc
    exact (h n hn).no_nul

/-- Different locations have different texts. -/
theorem text_injective {loc loc' : Location} (h : ∀ n ∈ loc, IsName n) (h' : ∀ n ∈ loc', IsName n)
    (he : loc.text = loc'.text) : loc = loc' := by
  rw [text_eq_ofComponents h, text_eq_ofComponents h'] at he
  have same := congrArg components he
  rw [components_ofComponents (normal_root h), components_ofComponents (normal_root h')] at same
  exact (List.map_inj_right fun _ _ => Component.name.inj).1 (List.cons.inj same).2

namespace Store

/-- From `a` the steps are written out as `b`, over `k` links. -/
inductive Resolves (s : Store) : Nat → Location → List Step → Location → Prop
  | here {a} : Resolves s 0 a [] a
  | stay {k a ahead b} : Resolves s k a ahead b → Resolves s k a (.stay :: ahead) b
  | slash {k a ahead b} : Resolves s k a ahead b → Resolves s k a (.slash :: ahead) b
  | up {k a ahead b} : Resolves s k a.dropLast ahead b → Resolves s k a (.up :: ahead) b
  | name {k a n ahead b} : s.readOn? a n ahead = .ok none → Resolves s k (a ++ [n]) ahead b →
      Resolves s k a (.enter n :: ahead) b
  | link {k a n target ahead b} : s.readOn? a n ahead = .ok (some target) →
      Resolves s k (start a target) (Step.ofPath target ++ ahead) b →
      Resolves s (k + 1) a (.enter n :: ahead) b

variable {s t : Store} {cwd a b c : Location} {k links : Nat} {steps ahead : List Step} {p : PathText}
  {n : Name} {e : Entry} {place : PathText}

/-! ## One name -/

theorem readLink?_eq_ok {answer : Option PathText} : s.readLink? a n = .ok answer ↔
    Utf8.byteLength (Location.text (a ++ [n])) < pathLimit ∧ s.holdsDir a ∧
      Utf8.byteLength n ≤ nameLimit ∧ ∃ e, s.entry? (a ++ [n]) = some e ∧ e.target? = answer := by
  unfold readLink?
  split
  · next h => simp [Nat.not_lt.2 h]
  next h =>
  split
  · next hd => simp [Bool.eq_false_iff.2 (by simpa using hd)]
  next hd =>
  split
  · next hn => simp [Nat.not_le.2 hn]
  next hn =>
  have there : s.holdsDir a = true := by simpa using hd
  cases s.entry? (a ++ [n]) <;> simp [Nat.not_le.1 h, there, Nat.not_lt.1 hn]

theorem enterDirectory_eq_ok : s.enterDirectory a n = .ok () ↔
    Utf8.byteLength (Location.text (a ++ [n])) + 1 < pathLimit ∧ Utf8.byteLength n ≤ nameLimit ∧
      s.holdsDir a ∧ s.holdsDir (a ++ [n]) := by
  unfold enterDirectory
  split
  · next h => simp [Nat.not_lt.2 h]
  next h =>
  cases hr : s.readLink? a n with
  | error e =>
    refine iff_of_false (by simp) ?_
    rintro ⟨short, hn, hd, there⟩
    obtain ⟨mode, he⟩ := holdsDir_iff.1 there
    have read := readLink?_eq_ok.2 ⟨Nat.lt_of_succ_lt short, hd, hn, _, he, rfl⟩
    cases hr.symm.trans read
  | ok answer =>
    obtain ⟨_, hd, hn, _⟩ := readLink?_eq_ok.1 hr
    simp [Nat.not_le.1 h, hd, hn]

/-- What is learned of a name: it is short, and so is the text of its location, and where a directory is
needed there is one. -/
theorem readOn?_eq_ok {answer : Option PathText} : s.readOn? a n ahead = .ok answer ↔
    s.readLink? a n = .ok answer ∧
      (answer = none → Step.needDirectory ahead → s.enterDirectory a n = .ok ()) := by
  unfold readOn?
  split
  · next target h =>
    rw [h]
    constructor
    · intro he
      cases he
      exact ⟨rfl, nofun⟩
    · exact fun he => he.1
  · next hl =>
    cases need : Step.needDirectory ahead with
    | false => simp
    | true =>
      simp only [if_true, forall_const]
      cases hd : s.enterDirectory a n with
      | error e =>
        refine iff_of_false (by simp [Except.map]) ?_
        rintro ⟨hr, hd⟩
        cases answer with
        | none => cases hd rfl
        | some target => exact hl target hr
      | ok _ =>
        obtain ⟨short, hn, ha, there⟩ := enterDirectory_eq_ok.1 hd
        obtain ⟨mode, he⟩ := holdsDir_iff.1 there
        have read : s.readLink? a n = .ok none :=
          readLink?_eq_ok.2 ⟨Nat.lt_of_succ_lt short, ha, hn, _, he, rfl⟩
        simp [read, Except.map]

/-- Where a directory is needed although a name comes next, the steps before it say so. -/
theorem needDirectory_append {front rest : List Step} (h : Step.needDirectory (front ++ .enter n :: rest))
    (back : List Step) : Step.needDirectory (front ++ back) := by
  induction front with
  | nil => cases h
  | cons st front ih =>
    cases st with
    | enter m => cases h
    | up => rfl
    | stay | slash =>
      rw [List.cons_append, Step.needDirectory, Bool.or_eq_true] at h
      rw [List.cons_append, Step.needDirectory, ih (h.resolve_left (by simp)), Bool.or_true]

/-! ## The walk -/

theorem resolve_eq (s : Store) (links : Nat) : ∃ expand, s.resolve links = s.resolveWith expand := by
  cases links with
  | zero => exact ⟨_, rfl⟩
  | succ links => exact ⟨_, rfl⟩

theorem resolve_nil (s : Store) (links : Nat) (a : Location) : s.resolve links a [] = .ok a := by
  obtain ⟨expand, he⟩ := s.resolve_eq links
  rw [he, resolveWith]

theorem resolve_stay (s : Store) (links : Nat) (a : Location) (ahead : List Step) :
    s.resolve links a (.stay :: ahead) = s.resolve links a ahead := by
  obtain ⟨expand, he⟩ := s.resolve_eq links
  rw [he, resolveWith]

theorem resolve_slash (s : Store) (links : Nat) (a : Location) (ahead : List Step) :
    s.resolve links a (.slash :: ahead) = s.resolve links a ahead := by
  obtain ⟨expand, he⟩ := s.resolve_eq links
  rw [he, resolveWith]

theorem resolve_up (s : Store) (links : Nat) (a : Location) (ahead : List Step) :
    s.resolve links a (.up :: ahead) = s.resolve links a.dropLast ahead := by
  obtain ⟨expand, he⟩ := s.resolve_eq links
  rw [he, resolveWith]

theorem resolve_enter (s : Store) (links : Nat) (a : Location) (n : Name) (ahead : List Step) :
    s.resolve links a (.enter n :: ahead) =
      match s.readOn? a n ahead with
      | .error e => .error e
      | .ok (some target) =>
        match links with
        | 0 => .error .tooManyLinks
        | links + 1 => s.resolve links (start a target) (Step.ofPath target ++ ahead)
      | .ok none => s.resolve links (a ++ [n]) ahead := by
  cases links <;> rfl

theorem resolve_of_resolves (h : Resolves s k a steps b) : ∀ links, k ≤ links →
    s.resolve links a steps = .ok b := by
  induction h with
  | here => exact fun links _ => s.resolve_nil links _
  | stay _ ih => exact fun links hk => by rw [resolve_stay, ih links hk]
  | slash _ ih => exact fun links hk => by rw [resolve_slash, ih links hk]
  | up _ ih => exact fun links hk => by rw [resolve_up, ih links hk]
  | name hr _ ih =>
    intro links hk
    rw [resolve_enter, hr]
    exact ih links hk
  | link hr _ ih =>
    intro links hk
    obtain ⟨m, rfl⟩ : ∃ m, links = m + 1 := ⟨links - 1, by omega⟩
    rw [resolve_enter, hr]
    exact ih m (Nat.le_of_succ_le_succ hk)

/-- The walk takes its steps as the relation says, if what it does behind a link is in the relation. -/
theorem resolves_of_resolve_of_link (behind : ∀ m target a ahead b, links = m + 1 →
      s.resolve m (start a target) (Step.ofPath target ++ ahead) = .ok b →
      ∃ k ≤ m, Resolves s k (start a target) (Step.ofPath target ++ ahead) b) :
    ∀ (steps : List Step) (a b : Location), s.resolve links a steps = .ok b →
      ∃ k ≤ links, Resolves s k a steps b := by
  intro steps
  induction steps with
  | nil =>
    intro a b h
    rw [resolve_nil] at h
    cases h
    exact ⟨0, Nat.zero_le links, .here⟩
  | cons st ahead ih =>
    intro a b h
    cases st with
    | stay =>
      rw [resolve_stay] at h
      obtain ⟨k, hk, hr⟩ := ih a b h
      exact ⟨k, hk, .stay hr⟩
    | slash =>
      rw [resolve_slash] at h
      obtain ⟨k, hk, hr⟩ := ih a b h
      exact ⟨k, hk, .slash hr⟩
    | up =>
      rw [resolve_up] at h
      obtain ⟨k, hk, hr⟩ := ih a.dropLast b h
      exact ⟨k, hk, .up hr⟩
    | enter n =>
      rw [resolve_enter] at h
      cases hl : s.readOn? a n ahead with
      | error e =>
        rw [hl] at h
        cases h
      | ok answer =>
        rw [hl] at h
        cases answer with
        | none =>
          obtain ⟨k, hk, hr⟩ := ih (a ++ [n]) b h
          exact ⟨k, hk, .name hl hr⟩
        | some target =>
          cases links with
          | zero => cases h
          | succ m =>
            obtain ⟨k, hk, hr⟩ := behind m target a ahead b rfl h
            exact ⟨k + 1, Nat.succ_le_succ hk, .link hl hr⟩

/-- Within the limit on links, the walk gets where the relation says. -/
theorem resolve_eq_ok : s.resolve links a steps = .ok b ↔ ∃ k ≤ links, Resolves s k a steps b := by
  refine ⟨fun h => ?_, fun ⟨k, hk, h⟩ => resolve_of_resolves h links hk⟩
  induction links generalizing a steps b with
  | zero => exact resolves_of_resolve_of_link (fun m _ _ _ _ hm => by cases hm) steps a b h
  | succ links ih =>
    refine resolves_of_resolve_of_link (fun m target a ahead b hm hb => ?_) steps a b h
    cases hm
    exact ih hb

/-! ## Where the walk gets -/

/-- Steps with a name at the end are written out like the steps before it, and then the name. -/
theorem Resolves.snoc (h : Resolves s k a steps b) {front back : List Step} (hs : steps = front ++ back)
    (idle : ∀ st ∈ back, st = .slash) (read : s.readOn? b n [] = .ok none) :
    Resolves s k a (front ++ [.enter n]) (b ++ [n]) := by
  -- a link puts its target in front, so this is an induction on the walk and not on `front`
  induction h generalizing front back with
  | here =>
    obtain ⟨rfl, _⟩ := List.append_eq_nil_iff.1 hs.symm
    exact .name read .here
  | stay h ih =>
    cases front with
    | nil => cases idle _ (hs ▸ List.mem_cons_self)
    | cons st front =>
      obtain ⟨rfl, ahead_eq⟩ := List.cons.inj hs
      exact .stay (ih ahead_eq idle read)
  | slash h ih =>
    cases front with
    | nil =>
      subst hs
      exact ih (List.nil_append _).symm (fun st hst => idle st (List.mem_cons_of_mem _ hst)) read
    | cons st front =>
      obtain ⟨rfl, ahead_eq⟩ := List.cons.inj hs
      exact .slash (ih ahead_eq idle read)
  | up h ih =>
    cases front with
    | nil => cases idle _ (hs ▸ List.mem_cons_self)
    | cons st front =>
      obtain ⟨rfl, ahead_eq⟩ := List.cons.inj hs
      exact .up (ih ahead_eq idle read)
  | name hr h ih =>
    cases front with
    | nil => cases idle _ (hs ▸ List.mem_cons_self)
    | cons st front =>
      obtain ⟨rfl, rfl⟩ := List.cons.inj hs
      obtain ⟨hl, need⟩ := readOn?_eq_ok.1 hr
      exact .name (readOn?_eq_ok.2 ⟨hl, fun hn hd => need hn (needDirectory_append hd _)⟩) (ih rfl idle read)
  | link hr h ih =>
    cases front with
    | nil => cases idle _ (hs ▸ List.mem_cons_self)
    | cons st front =>
      obtain ⟨rfl, rfl⟩ := List.cons.inj hs
      refine .link (readOn?_eq_ok.2 ⟨(readOn?_eq_ok.1 hr).1, nofun⟩) ?_
      show Resolves s _ _ (_ ++ (front ++ [.enter n])) _
      rw [← List.append_assoc]
      exact ih (List.append_assoc _ _ _).symm idle read

/-- Behind something other than a directory there are no steps to take. -/
theorem Resolves.nil_of_not_holdsDir (h : Resolves s k a steps b) (need : Step.needDirectory steps = false)
    (hd : s.holdsDir a = false) : steps = [] := by
  induction h with
  | here => rfl
  | stay h ih | slash h ih =>
    rw [Step.needDirectory, Bool.or_eq_false_iff] at need
    rw [ih need.2 hd] at need
    cases need.1
  | up _ _ => cases need
  | name hr _ _ | link hr _ _ =>
    obtain ⟨_, there, _⟩ := readLink?_eq_ok.1 (readOn?_eq_ok.1 hr).1
    rw [hd] at there
    cases there

/-- What steps are written out as is where they lead, and it stands there. -/
theorem Resolves.reaches (h : Resolves s k a steps b) (rooted : s.Rooted) (ha : s.holdsDir a) :
    ∃ e, Reaches s .follow k a steps (.entry b e) ∧ s.entry? b = some e := by
  induction h with
  | @here a =>
    obtain ⟨mode, he⟩ := holdsDir_iff.1 ha
    have here : Reaches s .follow 0 a [] (.entry a (s.found a)) := .here
    rw [found, he] at here
    exact ⟨_, here, he⟩
  | stay _ ih =>
    obtain ⟨e, hr, he⟩ := ih ha
    exact ⟨e, .stay hr, he⟩
  | slash _ ih =>
    obtain ⟨e, hr, he⟩ := ih ha
    exact ⟨e, .slash hr, he⟩
  | up _ ih =>
    obtain ⟨e, hr, he⟩ := ih (rooted.holdsDir_dropLast ha)
    exact ⟨e, .up hr, he⟩
  | @name k a n ahead b hr h ih =>
    obtain ⟨read, need⟩ := readOn?_eq_ok.1 hr
    obtain ⟨_, _, hn, f, hf, noLink⟩ := readLink?_eq_ok.1 read
    cases hd : s.holdsDir (a ++ [n]) with
    | true =>
      obtain ⟨mode, hdir⟩ := holdsDir_iff.1 hd
      obtain ⟨e, hr, he⟩ := ih hd
      exact ⟨e, .dir hdir hn (by simp) hr, he⟩
    | false =>
      -- something other than a directory is where the steps end
      have unneeded : Step.needDirectory ahead = false := by
        rw [← Bool.not_eq_true]
        intro needed
        obtain ⟨_, _, _, there⟩ := enterDirectory_eq_ok.1 (need rfl needed)
        rw [hd] at there
        cases there
      obtain rfl := h.nil_of_not_holdsDir unneeded hd
      cases h
      refine ⟨f, .last hf hn ?_, hf⟩
      cases f with
      | dir mode =>
        rw [holdsDir_of_entry hf] at hd
        cases hd
      | link target => cases noLink
      | file _ | fifo | device _ => rfl
  | @link k a n target ahead b hr h ih =>
    obtain ⟨_, _, hn, f, hf, leads⟩ := readLink?_eq_ok.1 (readOn?_eq_ok.1 hr).1
    cases f with
    | link target' =>
      cases leads
      obtain ⟨e, hr, he⟩ := ih (holdsDir_start rooted ha target)
      exact ⟨e, .link hf hn (by simp) (by simp) hr, he⟩
    | dir _ | file _ | fifo | device _ => cases leads

/-- A name that a lookup goes on from is learned, unless the text of its location is too long. -/
theorem readOn?_cases (ha : s.holdsDir a) (hn : Utf8.byteLength n ≤ nameLimit)
    (he : s.entry? (a ++ [n]) = some e) (need : e.target? = none → Step.needDirectory ahead → e.isDir) :
    s.readOn? a n ahead = .ok e.target? ∨ s.readOn? a n ahead = .error .nameTooLong ∧
      pathLimit ≤ Utf8.byteLength (Location.text (a ++ [n])) + 1 := by
  by_cases long : pathLimit ≤ Utf8.byteLength (Location.text (a ++ [n]))
  · have longer := Nat.le_succ_of_le long
    refine .inr ⟨?_, longer⟩
    rw [readOn?, readLink?, if_pos long, enterDirectory, if_pos longer]
    cases Step.needDirectory ahead <;> rfl
  · have read := readLink?_eq_ok.2 ⟨Nat.not_le.1 long, ha, hn, e, he, rfl⟩
    by_cases fits : e.target? = none ∧ Step.needDirectory ahead ∧
        pathLimit ≤ Utf8.byteLength (Location.text (a ++ [n])) + 1
    · -- the name itself can be looked up, but not with a separator behind it
      obtain ⟨noLink, needed, longer⟩ := fits
      refine .inr ⟨?_, longer⟩
      rw [readOn?, read, noLink, needed, enterDirectory, if_pos longer]
      rfl
    · refine .inl (readOn?_eq_ok.2 ⟨read, fun noLink needed => enterDirectory_eq_ok.2 ⟨?_, hn, ha, ?_⟩⟩)
      · exact Nat.not_le.1 fun longer => fits ⟨noLink, needed, longer⟩
      · rw [holdsDir, he]
        exact need noLink needed

/-- Where steps lead to, the walk gets, unless the text of a location on the way is too long. -/
theorem Reaches.resolve_cases (h : Reaches s .follow k a steps (.entry b e)) (rooted : s.Rooted)
    (ha : s.holdsDir a) : ∀ links, k ≤ links → s.resolve links a steps = .ok b ∨
      s.resolve links a steps = .error .nameTooLong ∧ ∃ loc f, s.entry? loc = some f ∧
        pathLimit ≤ Utf8.byteLength (Location.text loc) + 1 := by
  generalize hp : Place.entry b e = place at h
  induction h with
  | here =>
    cases hp
    exact fun links _ => .inl (s.resolve_nil links b)
  | stay _ ih => exact fun links hk => by rw [resolve_stay]; exact ih ha hp links hk
  | slash _ ih => exact fun links hk => by rw [resolve_slash]; exact ih ha hp links hk
  | up _ ih =>
    exact fun links hk => by rw [resolve_up]; exact ih (rooted.holdsDir_dropLast ha) hp links hk
  | dir hd hn _ _ ih =>
    intro links hk
    rw [resolve_enter]
    rcases readOn?_cases ha hn hd (fun _ _ => rfl) with hr | ⟨hr, long⟩
    · rw [hr]
      exact ih (holdsDir_of_entry hd) hp links hk
    · rw [hr]
      exact .inr ⟨rfl, _, _, hd, long⟩
  | @link _ _ _ target _ _ hl hn _ _ _ ih =>
    intro links hk
    obtain ⟨m, rfl⟩ : ∃ m, links = m + 1 := ⟨links - 1, by omega⟩
    rw [resolve_enter]
    rcases readOn?_cases ha hn hl (fun noLink => by cases noLink) with hr | ⟨hr, long⟩
    · rw [hr]
      exact ih (holdsDir_start rooted ha target) hp m (Nat.le_of_succ_le_succ hk)
    · rw [hr]
      exact .inr ⟨rfl, _, _, hl, long⟩
  | kept _ _ hk => cases hk
  | @last a n f hf hn passage =>
    cases hp
    have noLink : e.target? = none := by cases e <;> first | rfl | cases passage
    intro links _
    rw [resolve_enter]
    have read : s.readOn? a n [] = .ok e.target? ∨ _ := readOn?_cases ha hn hf fun _ => nofun
    rcases read with hr | ⟨hr, long⟩
    · rw [hr, noLink]
      exact .inl (s.resolve_nil links _)
    · rw [hr]
      exact .inr ⟨rfl, _, _, hf, long⟩
  | free _ _ _ _ => cases hp

theorem readOn?_congr (dir : t.holdsDir a = s.holdsDir a) (he : t.entry? (a ++ [n]) = s.entry? (a ++ [n]))
    (ahead : List Step) : t.readOn? a n ahead = s.readOn? a n ahead := by
  have there : t.holdsDir (a ++ [n]) = s.holdsDir (a ++ [n]) := by rw [holdsDir, he, holdsDir]
  rw [readOn?, readOn?, enterDirectory, enterDirectory, readLink?, readLink?, dir, he, there]

/-- Steps that lead somewhere are written out alike in a store that keeps its directories and links. -/
theorem Reaches.resolve_congr (h : Reaches s .follow k a steps (.entry b e)) (rooted : s.Rooted)
    (ha : s.holdsDir a) (keeps : Keeps s t) (same : t.entry? b = s.entry? b) :
    ∀ links, t.resolve links a steps = s.resolve links a steps := by
  generalize hp : Place.entry b e = place at h
  induction h with
  | here => exact fun links => by rw [resolve_nil, resolve_nil]
  | stay _ ih => exact fun links => by rw [resolve_stay, resolve_stay, ih ha hp links]
  | slash _ ih => exact fun links => by rw [resolve_slash, resolve_slash, ih ha hp links]
  | up _ ih =>
    exact fun links => by rw [resolve_up, resolve_up, ih (rooted.holdsDir_dropLast ha) hp links]
  | dir hd _ _ _ ih =>
    intro links
    have there := (keeps.holdsDir ha).trans ha.symm
    rw [resolve_enter, resolve_enter, readOn?_congr there ((keeps _ _ hd rfl).trans hd.symm),
      ih (holdsDir_of_entry hd) hp links]
    -- a directory is no link, so the links that are left make no difference
    cases hr : s.readOn? _ _ _ with
    | error e => rfl
    | ok answer =>
      obtain ⟨_, _, _, _, hf, rfl⟩ := readLink?_eq_ok.1 (readOn?_eq_ok.1 hr).1
      cases hd.symm.trans hf
      rfl
  | @link _ a n target ahead _ hl _ _ _ _ ih =>
    intro links
    have there := (keeps.holdsDir ha).trans ha.symm
    rw [resolve_enter, resolve_enter, readOn?_congr there ((keeps _ _ hl rfl).trans hl.symm)]
    cases hr : s.readOn? a n ahead with
    | error e => rfl
    | ok answer =>
      obtain ⟨_, _, _, _, hf, rfl⟩ := readLink?_eq_ok.1 (readOn?_eq_ok.1 hr).1
      cases hl.symm.trans hf
      cases links with
      | zero => rfl
      | succ m => exact ih (holdsDir_start rooted ha target) hp m
  | kept _ _ hk => cases hk
  | @last a n f hf _ passage =>
    cases hp
    intro links
    have there := (keeps.holdsDir ha).trans ha.symm
    rw [resolve_enter, resolve_enter, readOn?_congr there same]
    cases hr : s.readOn? a n [] with
    | error e => rfl
    | ok answer =>
      obtain ⟨_, _, _, _, hf', rfl⟩ := readLink?_eq_ok.1 (readOn?_eq_ok.1 hr).1
      cases hf.symm.trans hf'
      cases e with
      | dir _ | link _ => cases passage
      | file _ | fifo | device _ => exact (t.resolve_nil links _).trans (s.resolve_nil links _).symm
  | free _ _ _ _ => cases hp

/-! ## Paths -/

/-- A relative path is written out only from a directory that is there. -/
theorem canonical?_eq (h0 : '\x00' ∉ p) (hne : p ≠ []) (here : isAbsolute p = true ∨ s.holdsDir cwd) :
    s.canonical? cwd p = match s.resolve linkLimit (start cwd p) (Step.ofPath p) with
      | .ok loc => .ok loc.text
      | .error e => .error (.os e) := by
  rw [canonical?, if_neg h0, if_neg hne, cwdText?]
  generalize s.resolve linkLimit (start cwd p) (Step.ofPath p) = answer
  cases ha : isAbsolute p with
  | true => cases answer <;> rfl
  | false =>
    rw [here.resolve_left (by rw [ha]; exact Bool.false_ne_true)]
    cases answer <;> rfl

theorem canonical?_of_removed (h0 : '\x00' ∉ p) (hne : p ≠ []) (ha : isAbsolute p = false)
    (gone : s.holdsDir cwd = false) : s.canonical? cwd p = .error (.os .noEntry) := by
  rw [canonical?, if_neg h0, if_neg hne, ha, cwdText?, gone]
  rfl

theorem holdsDir_start_of_here (root : s.holdsDir []) (here : isAbsolute p = true ∨ s.holdsDir cwd) :
    s.holdsDir (start cwd p) := by
  unfold start
  split
  · exact root
  · next ha => exact here.resolve_left ha

theorem canonical?_eq_ok : s.canonical? cwd p = .ok place ↔ '\x00' ∉ p ∧ p ≠ [] ∧
    (isAbsolute p = true ∨ s.holdsDir cwd) ∧
    ∃ b, s.resolve linkLimit (start cwd p) (Step.ofPath p) = .ok b ∧ place = b.text := by
  by_cases h0 : '\x00' ∈ p
  · rw [canonical?, if_pos h0]
    simp [h0]
  by_cases hne : p = []
  · rw [canonical?, if_neg h0, if_pos hne]
    simp [hne]
  by_cases here : isAbsolute p = true ∨ s.holdsDir cwd
  · rw [canonical?_eq h0 hne here]
    generalize s.resolve linkLimit (start cwd p) (Step.ofPath p) = answer
    cases answer with
    | error e => simp
    | ok b =>
      constructor
      · rintro ⟨⟩
        exact ⟨h0, hne, here, b, rfl, rfl⟩
      · rintro ⟨_, _, _, _, ⟨⟩, rfl⟩
        rfl
  · have lost := here
    rw [not_or, Bool.not_eq_true, Bool.not_eq_true] at lost
    rw [canonical?_of_removed h0 hne lost.1 lost.2]
    exact iff_of_false nofun fun h => here h.2.2.1

/-- What a path is written out as is where its steps lead, and it stands there. -/
theorem Rooted.reaches_of_canonical? (rooted : s.Rooted) (h : s.canonical? cwd p = .ok place) :
    (isAbsolute p = true ∨ s.holdsDir cwd) ∧ ∃ b e, place = b.text ∧ s.entry? b = some e ∧
      ∃ k ≤ linkLimit, Reaches s .follow k (start cwd p) (Step.ofPath p) (.entry b e) := by
  obtain ⟨_, _, here, b, hb, rfl⟩ := canonical?_eq_ok.1 h
  obtain ⟨k, hk, walk⟩ := resolve_eq_ok.1 hb
  obtain ⟨e, reaches, he⟩ := walk.reaches rooted (holdsDir_start_of_here rooted.root here)
  exact ⟨here, b, e, rfl, he, k, hk, reaches⟩

/-- Where a path with a canonical text leads, there is an entry. -/
theorem WellNamed.entry_of_canonical? (wellNamed : s.WellNamed) (h : s.canonical? cwd p = .ok place)
    (hs : s.stat? cwd p = .ok (b, e)) : s.entry? b = some e ∧ place = b.text ∧ ∀ n ∈ b, Lawful n := by
  obtain ⟨_, c, f, rfl, there, l, _, hr⟩ := wellNamed.toRooted.reaches_of_canonical? h
  obtain ⟨_, k, _, hr'⟩ := lookup_eq_ok.1 (stat?_eq_ok_iff_lookup.1 hs)
  cases hr.unique hr'
  have below : s.entry? ([] ++ b) = some e := there
  exact ⟨there, rfl, wellNamed.lawful_of_mem below⟩

/-- What a path leads to has a canonical text, unless the text of a location on the way is too long. -/
theorem Rooted.canonical?_cases (rooted : s.Rooted) (here : isAbsolute p = true ∨ s.holdsDir cwd)
    (hs : s.stat? cwd p = .ok (b, e)) : s.canonical? cwd p = .ok b.text ∨
      s.canonical? cwd p = .error (.os .nameTooLong) ∧ ∃ loc f, s.entry? loc = some f ∧
        pathLimit ≤ Utf8.byteLength (Location.text loc) + 1 := by
  obtain ⟨h0, hne, _⟩ := checkText_of_stat? hs
  obtain ⟨_, k, hk, hr⟩ := lookup_eq_ok.1 (stat?_eq_ok_iff_lookup.1 hs)
  rw [canonical?_eq h0 hne here]
  rcases hr.resolve_cases rooted (holdsDir_start_of_here rooted.root here) linkLimit hk with
    hb | ⟨hb, long⟩
  · rw [hb]
    exact .inl rfl
  · rw [hb]
    exact .inr ⟨rfl, long⟩

/-- What it takes for a path that leads somewhere not to be written out: the way begins nowhere, or it passes
a location whose text is too long. -/
theorem Rooted.canonical?_eq_error {cause : IoError} (rooted : s.Rooted) (hs : s.stat? cwd p = .ok (b, e))
    (h : s.canonical? cwd p = .error cause) :
    (cause = .os .noEntry ∧ isAbsolute p = false ∧ s.holdsDir cwd = false) ∨
      cause = .os .nameTooLong ∧ ∃ loc f, s.entry? loc = some f ∧
        pathLimit ≤ Utf8.byteLength (Location.text loc) + 1 := by
  by_cases here : isAbsolute p = true ∨ s.holdsDir cwd
  · rcases rooted.canonical?_cases here hs with hc | ⟨hc, long⟩
    · cases hc.symm.trans h
    · cases hc.symm.trans h
      exact .inr ⟨rfl, long⟩
  · rw [not_or, Bool.not_eq_true, Bool.not_eq_true] at here
    obtain ⟨h0, hne, _⟩ := checkText_of_stat? hs
    cases (canonical?_of_removed h0 hne here.1 here.2).symm.trans h
    exact .inl ⟨rfl, here⟩

/-- A directory in a directory that is written out is written out as well. -/
theorem WellNamed.canonical?_join {mode : Nat} (wellNamed : s.WellNamed)
    (h : s.canonical? cwd p = .ok a.text) (ha : ∀ m ∈ a, IsName m)
    (he : s.entry? (a ++ [n]) = some (.dir mode))
    (short : Utf8.byteLength (Location.text (a ++ [n])) < pathLimit) :
    s.canonical? cwd (join p n) = .ok (Location.text (a ++ [n])) := by
  have hn : Lawful n := wellNamed.lawful he
  obtain ⟨h0, hne, here, b, hb, text⟩ := canonical?_eq_ok.1 h
  obtain ⟨k, hk, walk⟩ := resolve_eq_ok.1 hb
  obtain ⟨e, _, there⟩ := walk.reaches wellNamed.toRooted (holdsDir_start_of_here wellNamed.root here)
  have below : s.entry? ([] ++ b) = some e := there
  obtain rfl : a = b := text_injective ha (fun m hm => (wellNamed.lawful_of_mem below m hm).toIsName) text
  have read : s.readOn? a n [] = .ok none := readOn?_eq_ok.2
    ⟨readLink?_eq_ok.2 ⟨short, wellNamed.parent he, hn.short, _, he, rfl⟩, fun _ => nofun⟩
  have longer : Resolves s k (start cwd p) (Step.ofText p ++ [.enter n]) (a ++ [n]) :=
    walk.snoc rfl (fun st hst => ?_) read
  · refine canonical?_eq_ok.2 ⟨not_mem_join h0 (by decide) hn.no_nul, join_ne_nil p hn.ne_nil hn.no_separator,
      ?_, _, ?_, rfl⟩
    · rwa [isAbsolute_join hne hn.no_separator]
    · refine resolve_eq_ok.2 ⟨k, hk, ?_⟩
      rwa [Step.ofPath_join p hn.toIsName, start_of_isAbsolute_eq (isAbsolute_join hne hn.no_separator) cwd]
  · split at hst
    · exact List.mem_singleton.1 hst
    · cases hst

/-- A path that leads somewhere is written out alike in a store that keeps its directories and links. -/
theorem canonical?_congr (rooted : s.Rooted) (keeps : Keeps s t) (here : t.holdsDir cwd = s.holdsDir cwd)
    (h : Reaches s .follow k (start cwd p) (Step.ofPath p) (.entry b e))
    (same : t.entry? b = s.entry? b) : t.canonical? cwd p = s.canonical? cwd p := by
  by_cases h0 : '\x00' ∈ p
  · rw [canonical?, canonical?, if_pos h0, if_pos h0]
  by_cases hne : p = []
  · rw [canonical?, canonical?, if_neg h0, if_neg h0, if_pos hne, if_pos hne]
  by_cases lost : isAbsolute p = true ∨ s.holdsDir cwd
  · have walks := h.resolve_congr rooted (holdsDir_start_of_here rooted.root lost) keeps same linkLimit
    rw [canonical?_eq h0 hne lost, canonical?_eq h0 hne (here ▸ lost), walks]
  · rw [not_or, Bool.not_eq_true, Bool.not_eq_true] at lost
    rw [canonical?_of_removed h0 hne lost.1 lost.2, canonical?_of_removed h0 hne lost.1 (here.trans lost.2)]

end Store

end LuaTree
