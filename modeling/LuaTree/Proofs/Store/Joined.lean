import LuaTree.Proofs.Store.Leads

/-!
# A name behind a directory's path

What a walk looks up is a directory's path with a name of the directory joined onto it. In any store with
lawful names, whether there is a working directory or not:

* `entryAt?_join`: such a path names the entry, and leads to it unless that is a link;
* `exists_entry_of_join`: it leads nowhere unless there is an entry;
* `stat?_of_long`: nothing is found by a text that is too long.

What stands at the end of a lookup is there, unless it is a directory that has been removed; and that is not
found by a name (`Reaches.entry_of_enter`).
-/

namespace LuaTree.Store

open PathText

variable {s : Store} {cwd a b : Location} {last : LastName} {k : Nat} {steps : List Step}
  {p : PathText} {n : Name} {e : Entry} {mode : Nat}

/-- To a directory, all steps of a lookup lead on. -/
theorem Reaches.leads (h : Reaches s .follow k a steps (.entry b e)) (he : e.isDir) :
    Leads s k a steps b := by
  generalize hp : Place.entry b e = place at h
  induction h with
  | here =>
    cases hp
    exact .here
  | stay _ ih => exact .stay (ih hp)
  | slash _ ih => exact .slash (ih hp)
  | up _ ih => exact .up (ih hp)
  | dir hd hn _ _ ih => exact .dir hd hn (ih hp)
  | link hl hn _ _ _ ih => exact .link hl hn (ih hp)
  | kept _ _ hk => cases hk
  | last _ _ hf =>
    cases hp
    cases e with
    | dir _ => cases hf
    | file _ | link _ | fifo | device _ => cases he
  | free _ _ _ _ => cases hp

theorem Leads.of_concat_slash (h : Leads s k a (steps ++ [.slash]) b) : Leads s k a steps b := by
  have whole : Reaches s .follow k a (steps ++ [.slash]) (.entry b (s.found b)) := h.reaches
  obtain ⟨m, way, same⟩ := whole.leads_of_slash
  cases same
  exact way

theorem leads_of_stat? (h : s.stat? cwd p = .ok (b, e)) (he : e.isDir) :
    ∃ k ≤ linkLimit, Leads s k (start cwd p) (Step.ofText p) b := by
  obtain ⟨_, k, hk, hr⟩ := lookup_eq_ok.1 (stat?_eq_ok_iff_lookup.1 h)
  have way := hr.leads he
  refine ⟨k, hk, ?_⟩
  unfold Step.ofPath at way
  split at way
  · exact way.of_concat_slash
  · rwa [List.append_nil] at way

/-- A directory that a path leads to is what is found there. -/
theorem found_of_stat? (h : s.stat? cwd p = .ok (b, e)) (he : e.isDir) : s.found b = e := by
  obtain ⟨_, k, _, hr⟩ := lookup_eq_ok.1 (stat?_eq_ok_iff_lookup.1 h)
  cases hr.unique (hr.leads he).reaches
  rfl

/-- Followed to the end, a lookup makes nothing of `.` and separators. -/
theorem Reaches.thin {place : Place} {rest : List Step} (h : Reaches s .follow k a steps place)
    (ht : Thins steps rest) : Reaches s .follow k a rest place := by
  induction h generalizing rest with
  | here =>
    cases ht
    exact .here
  | stay _ ih =>
    -- a step that is dropped is one that stays where it is
    cases ht with
    | keep ht => exact .stay (ih ht)
    | stay ht => exact ih ht
  | slash _ ih =>
    cases ht with
    | keep ht => exact .slash (ih ht)
    | slash ht => exact ih ht
  | up _ ih =>
    cases ht with
    | keep ht => exact .up (ih ht)
  | dir hd hn _ _ ih =>
    cases ht with
    | keep ht => exact .dir hd hn (by simp) (ih ht)
  | link hl hn _ _ _ ih =>
    cases ht with
    | keep ht => exact .link hl hn (by simp) (by simp) (ih (ht.prepend _))
  | kept hl hn hk =>
    cases ht with
    | keep ht =>
      cases ht
      exact .kept hl hn hk
  | last he hn hp =>
    cases ht with
    | keep ht =>
      cases ht
      exact .last he hn hp
  | free he hn hl ha =>
    cases ht with
    | keep ht =>
      cases ht
      exact .free he hn hl ha

/-- On the way on, `.` and separators make no difference. -/
theorem Leads.thin (h : Leads s k a steps b) {rest : List Step} (ht : Thins steps rest) :
    Leads s k a rest b := by
  induction h generalizing rest with
  | here =>
    cases ht
    exact .here
  | stay _ ih =>
    cases ht with
    | keep ht => exact .stay (ih ht)
    | stay ht => exact ih ht
  | slash _ ih =>
    cases ht with
    | keep ht => exact .slash (ih ht)
    | slash ht => exact ih ht
  | up _ ih =>
    cases ht with
    | keep ht => exact .up (ih ht)
  | dir hd hn _ ih =>
    cases ht with
    | keep ht => exact .dir hd hn (ih ht)
  | link hl hn _ ih =>
    cases ht with
    | keep ht => exact .link hl hn (ih (ht.prepend _))

/-- The names of a directory below lead down to it. -/
theorem WellNamed.leads_down (wellNamed : s.WellNamed) {way : List Name}
    (he : s.entry? (a ++ way) = some (.dir mode)) : Leads s 0 a (way.map .enter) (a ++ way) := by
  induction way generalizing a with
  | nil =>
    rw [List.append_nil]
    exact .here
  | cons n way ih =>
    rw [List.append_cons] at he ⊢
    obtain ⟨mode', hd⟩ : ∃ mode', s.entry? (a ++ [n]) = some (.dir mode') := by
      by_cases hw : way = []
      · subst hw
        rw [List.append_nil] at he
        exact ⟨mode, he⟩
      · exact holdsDir_iff.1 (wellNamed.holdsDir_of_below hw he)
    exact .dir hd (wellNamed.lawful hd).short (ih he)

/-- What is found by a name is there. -/
theorem Reaches.entry_of_enter (h : Reaches s last k a steps (.entry b e)) (rooted : s.Rooted)
    (hn : .enter n ∈ steps) : s.entry? b = some e := by
  generalize hp : Place.entry b e = place at h
  induction h with
  | here => exact absurd hn List.not_mem_nil
  | stay _ ih | slash _ ih | up _ ih => exact ih (by simpa using hn) hp
  | @dir _ _ m _ _ _ hd _ _ h _ =>
    -- from the first name on, the lookup is among directories that are there
    subst hp
    exact h.entry_of_holdsDir rooted (holdsDir_of_entry hd)
  | @link _ _ _ target _ _ hl _ _ _ h _ =>
    subst hp
    exact h.entry_of_holdsDir rooted (holdsDir_start rooted (rooted.parent hl) target)
  | kept he _ _ | last he _ _ =>
    cases hp
    exact he
  | free _ _ _ _ => cases hp

theorem checkText_of_stat? {place : Location × Entry} (h : s.stat? cwd p = .ok place) :
    '\x00' ∉ p ∧ p ≠ [] ∧ Utf8.byteLength p < pathLimit :=
  checkText_eq_ok.1 (lookup_eq_ok.1 (stat?_eq_ok_iff_lookup.1 h)).1

theorem stat?_of_long (h0 : '\x00' ∉ p) (hne : p ≠ []) (long : pathLimit ≤ Utf8.byteLength p) :
    s.stat? cwd p = .error (.os .nameTooLong) := by
  refine stat?_of_lookup_error (lookup_of_checkText_error s cwd .follow ?_)
  rw [checkText_eq h0 hne, if_pos long]

/-- A path whose steps lead on to a directory and end in a name names the entry there, and leads to it
unless that is a link. -/
theorem Leads.entryAt? {front : List Step} (way : Leads s k (start cwd p) front a) (hk : k ≤ linkLimit)
    (checked : checkText p = .ok ()) (hs : Step.ofPath p = front ++ [.enter n])
    (hn : Utf8.byteLength n ≤ nameLimit) (he : s.entry? (a ++ [n]) = some e)
    (hl : last = .keep ∨ last = .follow ∧ ∀ target, e ≠ .link target) :
    s.entryAt? cwd last p = .ok (a ++ [n], e) := by
  have there : Reaches s last 0 a [.enter n] (.entry (a ++ [n]) e) := by
    cases e with
    | dir mode =>
      have here : Reaches s last 0 (a ++ [n]) [] (.entry (a ++ [n]) (s.found (a ++ [n]))) := .here
      rw [found, he] at here
      exact .dir he hn (by simp) here
    | link target =>
      rcases hl with rfl | ⟨_, hl⟩
      · exact .kept he hn rfl
      · exact absurd rfl (hl target)
    | file _ | fifo | device _ => exact .last he hn rfl
  have whole := way.append there (.inr ⟨.enter n, [], rfl, by simp⟩)
  rw [Nat.add_zero, ← hs] at whole
  exact entryAt?_eq_ok.2 (lookup_eq_ok.2 ⟨checked, k, hk, whole⟩)

/-- Behind the path of a directory, a name names the entry there, and leads to it unless that is a link. -/
theorem entryAt?_join (hs : s.stat? cwd p = .ok (a, .dir mode)) (hn : Lawful n)
    (short : Utf8.byteLength (join p n) < pathLimit) (he : s.entry? (a ++ [n]) = some e)
    (hl : last = .keep ∨ last = .follow ∧ ∀ target, e ≠ .link target) :
    s.entryAt? cwd last (join p n) = .ok (a ++ [n], e) := by
  obtain ⟨h0, hp, _⟩ := checkText_of_stat? hs
  obtain ⟨k, hk, way⟩ := leads_of_stat? hs rfl
  have checked : checkText (join p n) = .ok () :=
    checkText_eq_ok.2 ⟨not_mem_join h0 (by decide) hn.no_nul, join_ne_nil p hn.ne_nil hn.no_separator, short⟩
  rw [start_of_isAbsolute_eq (isAbsolute_join hp hn.no_separator).symm cwd] at way
  exact way.entryAt? hk checked (Step.ofPath_join p hn.toIsName) hn.short he hl

/-- Behind the path of a directory, a name that leads anywhere is that of an entry. -/
theorem exists_entry_of_join (hs : s.stat? cwd p = .ok (a, .dir mode)) (hn : IsName n)
    {place : Location × Entry} (h : s.stat? cwd (join p n) = .ok place) :
    ∃ e, s.entry? (a ++ [n]) = some e := by
  obtain ⟨_, hp, _⟩ := checkText_of_stat? hs
  obtain ⟨k, _, way⟩ := leads_of_stat? hs rfl
  obtain ⟨_, l, _, whole⟩ := lookup_eq_ok.1 (stat?_eq_ok_iff_lookup.1 h)
  rw [start_of_isAbsolute_eq (isAbsolute_join hp hn.no_separator) cwd] at whole
  obtain ⟨i, j, m, _, front, back⟩ := whole.split (Step.ofPath_join p hn) (List.cons_ne_nil _ _)
  obtain rfl := front.unique way
  generalize hp : Place.entry place.1 place.2 = ending at back
  cases back with
  | dir he _ _ _ => exact ⟨_, he⟩
  | link he _ _ _ _ => exact ⟨_, he⟩
  | kept he _ _ => exact ⟨_, he⟩
  | last he _ _ => exact ⟨_, he⟩
  | free _ _ _ _ => cases hp

end LuaTree.Store
