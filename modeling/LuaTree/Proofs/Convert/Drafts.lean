import LuaTree.Proofs.Convert.Building
import LuaTree.Proofs.Convert.Publishing

/-!
# Temporary files

A temporary file gets a name that nothing has. That alone does not hide it from those who look at the
destination: the free name may be the one that the destination itself has, or that a link there leads to.
`Fresh` says that it is neither; then a file under that name disturbs the destination in no way, whatever
is written to it (`Wrote.undisturbed`). Names that are fresh can always be found (`exists_fresh`).
-/

namespace LuaTree

open PathText

namespace Store

variable {s t u : Store} {cwd tmp loc dir : Location} {p : PathText} {file : Inode} {n : Name}

/-- Nothing stands at the location, and it is not where the path has its name or leads to. -/
structure Fresh (s : Store) (cwd : Location) (p : PathText) (tmp : Location) : Prop where
  free : s.entry? tmp = none
  unnamed : ¬Designates s cwd p tmp
  unled : ∀ dir n, s.lookup cwd .create p = .ok (.vacant dir n) → tmp ≠ dir ++ [n]

/-! ## Looking past a new file -/

/-- A lookup that ends at a new file would have created it before. -/
theorem Wrote.reaches_vacant (h : Wrote s t (dir ++ [n]) file) (free : s.entry? (dir ++ [n]) = none)
    (rooted : s.Rooted) {last : LastName} {k : Nat} {a : Location} {steps : List Step} {e : Entry}
    (ha : s.holdsDir a) (hr : Reaches t last k a steps (.entry (dir ++ [n]) e)) :
    Reaches s .create k a steps (.vacant dir n) := by
  have plain : ∀ {f}, t.entry? (dir ++ [n]) = some f → f.isPassage = false := by
    intro f hf
    obtain ⟨i, hi, _⟩ := h.placed
    cases hi.symm.trans hf
    rfl
  have gone : ¬s.holdsDir (dir ++ [n]) := by
    intro hd
    obtain ⟨mode, hd⟩ := holdsDir_iff.1 hd
    cases free.symm.trans hd
  -- with a separator behind it, the steps would end at a directory that was there before
  have slash : ∀ {last k a e} front, s.holdsDir a →
      ¬Reaches t last k a (front ++ [.slash]) (.entry (dir ++ [n]) e) := by
    intro last k a e front ha hr
    obtain ⟨_, _, m, _, hi, hj⟩ := hr.split rfl (List.cons_ne_nil _ _)
    cases hj with
    | slash hj =>
      cases hj
      exact gone ((hi.mono h.kept_new).holdsDir rooted ha)
  generalize hp : Place.entry (dir ++ [n]) e = place at hr
  -- on its way the lookup meets what was there before; only its last step can be the new name
  induction hr with
  | here =>
    cases hp
    exact absurd ha gone
  | stay _ ih => exact .stay (ih ha hp)
  | slash _ ih => exact .slash (ih ha hp)
  | up _ ih => exact .up (ih (rooted.holdsDir_dropLast ha) hp)
  | dir he hn _ hr ih =>
    subst hp
    have he := h.kept_new _ _ he rfl
    refine .dir he hn ?_ (ih (holdsDir_of_entry he) rfl)
    rintro ⟨_, rfl⟩
    exact slash [] (holdsDir_of_entry he) hr
  | @link _ _ _ target _ _ he hn _ _ hr ih =>
    subst hp
    have he := h.kept_new _ _ he rfl
    have ha := holdsDir_start rooted ha target
    refine .link he hn ?_ (by simp) (ih ha rfl)
    rintro ⟨_, rfl⟩
    exact slash _ ha hr
  | kept he _ _ =>
    obtain ⟨heq, _⟩ := Place.entry.inj hp
    cases plain (heq ▸ he)
  | last _ hn _ =>
    obtain ⟨heq, _⟩ := Place.entry.inj hp
    obtain ⟨rfl, hm⟩ := List.append_inj' heq rfl
    cases hm
    obtain ⟨mode, hd⟩ := holdsDir_iff.1 ha
    exact .free free hn rfl (by rw [hd]; rfl)
  | free _ _ _ _ => cases hp

/-- A new file that the path does not lead to makes no difference to the path. -/
theorem Wrote.undisturbed (h : Wrote s t tmp file) (coherent : s.Coherent cwd)
    (here : s.holdsDir (start cwd p)) (fresh : Fresh s cwd p tmp) : Undisturbed s t cwd p := by
  have elsewhere : ∀ {last loc e}, t.entryAt? cwd last p = .ok (loc, e) → loc ≠ tmp := by
    rintro last loc e ht rfl
    obtain ⟨hc, k, hk, hr⟩ := lookup_eq_ok.1 (entryAt?_eq_ok.1 ht)
    rcases List.eq_nil_or_concat' loc with rfl | ⟨dir, n, rfl⟩
    · obtain ⟨mode, hd⟩ := holdsDir_iff.1 coherent.root
      cases fresh.free.symm.trans hd
    · have vacant := h.reaches_vacant fresh.free coherent.toRooted here hr
      exact fresh.unled dir n (lookup_eq_ok.2 ⟨hc, k, hk, vacant⟩) rfl
  refine ⟨fun {last loc e} => ⟨fun ht => ?_, fun hs => ?_⟩, fun {last loc i} hs => ?_⟩
  · exact entryAt?_mono ht h.kept_new (h.others (elsewhere ht)).symm
  · obtain ⟨_, _, _, hr⟩ := lookup_eq_ok.1 (entryAt?_eq_ok.1 hs)
    have there := hr.entry_of_holdsDir coherent.toRooted here
    refine entryAt?_mono hs (h.keeps_new fresh.free) (h.others ?_)
    rintro rfl
    cases fresh.free.symm.trans there
  · have there : s.entry? loc = some (.file i) := entry_of_lookup (entryAt?_eq_ok.1 hs) rfl
    exact h.inode_eq (coherent.kept there) (by simp [fresh.free])

/-! ## Finding a fresh name -/

/-- A temporary file is only begun where the path can be looked up. -/
theorem holdsDir_start_of_scratchPath (rooted : s.Rooted) {path : PathText}
    (h : Publication.scratchPath s cwd p = .ok path) : s.holdsDir (start cwd p) := by
  rw [start]
  split
  · exact rooted.root
  · next relative =>
    have directory : isAbsolute (Publication.directory p) = false := by
      unfold Publication.directory
      cases hp : parentText? p with
      | none => rfl
      | some dir =>
        obtain ⟨parent, hne⟩ := parent?_of_parentText? hp
        obtain ⟨⟨rest, rfl⟩, _⟩ := exists_steps_of_parent? parent hne
        rw [Option.getD_some, ← isAbsolute_append hne rest]
        simpa using relative
    rw [Publication.scratchPath, directory, cwdText?] at h
    cases hd : s.holdsDir cwd with
    | true => rfl
    | false =>
      rw [hd] at h
      cases h

/-- Any one location can be avoided by looking for a free name where something stands at it. -/
theorem exists_occupied (s : Store) (avoid : Option Location) : ∃ t : Store, ∀ l, t.entry? l = none →
    s.entry? l = none ∧ avoid ≠ some l := by
  cases avoid with
  | none => exact ⟨s, fun l hl => ⟨hl, by simp⟩⟩
  | some bad =>
    refine ⟨s.put bad .fifo, fun l hl => ?_⟩
    rw [entry?_put] at hl
    split at hl
    · cases hl
    · next hne =>
      refine ⟨hl, fun he => hne ?_⟩
      rw [Option.some.inj he]

/-- In every directory there is a name that is fresh. -/
theorem exists_fresh (s : Store) (cwd dir : Location) (p : PathText) :
    ∃ n, Fresh s cwd p (dir ++ [n]) := by
  have named : ∃ avoid, ∀ loc, Designates s cwd p loc → avoid = some loc := by
    by_cases h : ∃ loc, Designates s cwd p loc
    · obtain ⟨loc, h⟩ := h
      exact ⟨some loc, fun loc' h' => congrArg some (h.unique h')⟩
    · exact ⟨none, fun loc h' => absurd ⟨loc, h'⟩ h⟩
  have led : ∃ avoid, ∀ dir n, s.lookup cwd .create p = .ok (.vacant dir n) → avoid = some (dir ++ [n]) := by
    cases hl : s.lookup cwd .create p with
    | error cause => exact ⟨none, fun _ _ h => by cases h⟩
    | ok place =>
      cases place with
      | entry b e => exact ⟨none, fun _ _ h => by cases h⟩
      | vacant d m =>
        refine ⟨some (d ++ [m]), fun dir n h => ?_⟩
        cases h
        rfl
  obtain ⟨bad, hbad⟩ := named
  obtain ⟨bad', hbad'⟩ := led
  obtain ⟨t, ht⟩ := exists_occupied s bad
  obtain ⟨u, hu⟩ := exists_occupied t bad'
  obtain ⟨free', avoided'⟩ := hu _ (u.entry?_freeName dir)
  obtain ⟨free, avoided⟩ := ht _ free'
  refine ⟨Publication.freeName u dir, free, fun h => avoided (hbad _ h), fun d m h heq => ?_⟩
  exact avoided' ((hbad' d m h).trans (congrArg some heq.symm))

/-! ## A temporary file from its beginning to its end -/

/-- What is published stays so while nothing changes about the path. -/
theorem Published.still (h : Published s t cwd p loc file) (undisturbed : Undisturbed t u cwd p)
    (view : u.view loc = t.view loc) : Published s u cwd p loc file where
  names := h.names
  view := view.trans h.view
  ends hu := h.ends (undisturbed.entries.1 hu)
  found last := by
    rw [← h.found last]
    exact exists_congr fun _ => undisturbed.entries

/-- The store `u` is `t` with the temporary file of a publication, which holds what has been written. -/
structure Drafted (t u : Store) (cwd : Location) (p : PathText) (pub : Publication) (written : Bytes) :
    Prop where
  wrote : Wrote t u pub.location ⟨written, t.masked 0o666⟩
  fresh : Fresh t cwd p pub.location
  here : t.holdsDir (start cwd p)
  opened : ∃ i, u.entry? pub.location = some (.file i) ∧ pub.handle = .file i

namespace Drafted

variable {pub : Publication} {written : Bytes}

theorem begin {pick : Location → Name} (rooted : t.Rooted)
    (begun : Publication.beginAs pick t cwd p = .ok (pub, u)) (fresh : Fresh t cwd p pub.location) :
    Drafted t u cwd p pub [] := by
  obtain ⟨path, slot, scratch, _, rfl, rfl⟩ := beginAs_eq_ok.1 begun
  exact ⟨wrote_putFile t _ _, fresh, holdsDir_start_of_scratchPath rooted scratch,
    t.freshInode, by rw [entry?_putFile, if_pos rfl], rfl⟩

theorem write (h : Drafted t u cwd p pub written) (chunk : Bytes) :
    Drafted t (pub.write u chunk) cwd p pub (written ++ chunk) := by
  obtain ⟨i, hi, handle⟩ := h.opened
  obtain ⟨j, hj, contents, _⟩ := h.wrote.placed
  cases hi.symm.trans hj
  have same : pub.write u chunk = u.setInode i ⟨written ++ chunk, t.masked 0o666⟩ := by
    rw [Publication.write, handle, append, contents]
  rw [same]
  exact ⟨h.wrote.setInode hi _, h.fresh, h.here, i, hi, handle⟩

theorem abandon (h : Drafted t u cwd p pub written) : Untouched t (pub.abandon u) :=
  h.wrote.take h.fresh.free

/-- What has been moved to the path is what had been written. -/
theorem commit (h : Drafted t u cwd p pub written) {v : Store} (hc : pub.commit u cwd p = .ok v) :
    ∃ loc, Replaced t v loc ⟨written, t.masked 0o666⟩ ∧
      Published t v cwd p loc ⟨written, t.masked 0o666⟩ := by
  rw [Publication.commit] at hc
  rcases u.moveFile_cases pub.location cwd p with ⟨cause, hm⟩ | ⟨dir, n, e, located, he, _, hm⟩
  · cases hm.symm.trans hc
  · cases hm.symm.trans hc
    obtain ⟨i, hi, _⟩ := h.opened
    cases hi.symm.trans he
    have replaced := h.wrote.move h.fresh.free hi (dir ++ [n])
    exact ⟨_, replaced, replaced.published ((h.wrote.locate_iff h.fresh.free).1 located)⟩

theorem undisturbed (h : Drafted t u cwd p pub written) (coherent : t.Coherent cwd) :
    Undisturbed t u cwd p :=
  h.wrote.undisturbed coherent h.here h.fresh

/-- What stands at the name of the path is what stood there. -/
theorem view_eq (h : Drafted t u cwd p pub written) (coherent : t.Coherent cwd)
    (names : Designates t cwd p loc) : u.view loc = t.view loc := by
  have hne : loc ≠ pub.location := by
    rintro rfl
    exact h.fresh.unnamed names
  exact view_congr (h.wrote.others hne) fun _ he =>
    h.wrote.inode_eq (coherent.kept he) (by simp [h.fresh.free])

end Drafted

end Store

end LuaTree
