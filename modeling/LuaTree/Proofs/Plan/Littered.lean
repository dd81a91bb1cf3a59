import LuaTree.Proofs.Plan.Output
import LuaTree.Proofs.Store.Joined

/-!
# Stores with litter

`Litters s t`: what `t` has beyond `s` is of no use to a lookup for a directory or a regular file. Such a
lookup never comes by a new link, since it could not go on from there, so it is a lookup of `s`
(`Litters.reaches`). So `s` and `t` agree about the directories and regular files that paths lead to
(`Litters.stat?_iff`), and about the paths that mean the same directory (`Litters.same_place_iff`).
-/

namespace LuaTree.Store

open PathText

/-- `t` is `s` with more entries, none of which is a directory or a regular file or a link to one. -/
structure Litters (s t : Store) : Prop where
  gains : Gains s t
  new : ∀ {dir n e}, t.entry? (dir ++ [n]) = some e → s.entry? (dir ++ [n]) = none →
    e.isDir = false ∧ e.isFile = false ∧ ∀ target, e = .link target → ¬t.isDir dir n ∧ ¬t.isFile dir n

variable {s t : Store} {cwd a b : Location} {k : Nat} {steps : List Step} {p : PathText} {n : Name}
  {e : Entry}

theorem Step.ofPath_of_isName (hn : IsName n) : Step.ofPath n = [.enter n] := by
  have joined : join [] n = n := join_of_separator hn.no_separator (.inl rfl)
  have steps := Step.ofPath_join [] hn
  rwa [joined] at steps

/-- Behind a link, a lookup that ends well shows that the link leads to something. -/
theorem exists_stat?_of_link {target : PathText} {ahead : List Step} (wellNamed : t.WellNamed)
    (way : Passable t a) (hl : t.entry? (a ++ [n]) = some (.link target)) (hk : k + 1 ≤ linkLimit)
    (h : Reaches t .follow k (start a target) (Step.ofPath target ++ ahead) (.entry b e))
    (he : e.isDir ∨ e.isFile) : ∃ c f, t.stat? a n = .ok (c, f) ∧ (f.isDir ∨ f.isFile) := by
  have hn := wellNamed.lawful hl
  have relative : start a n = a := by
    rw [start, isAbsolute_of_no_separator hn.no_separator]
    rfl
  have checked : checkText n = .ok () :=
    checkText_eq_ok.2 ⟨hn.no_nul, hn.ne_nil, Nat.lt_of_le_of_lt hn.short (by decide)⟩
  have found {l : Nat} {c : Location} {f : Entry} (hlk : l ≤ k)
      (hr : Reaches t .follow l (start a target) (Step.ofPath target) (.entry c f)) :
      t.stat? a n = .ok (c, f) := by
    refine stat?_eq_ok_iff_lookup.2 (lookup_eq_ok.2 ⟨checked, l + 1, by omega, ?_⟩)
    rw [relative, Step.ofPath_of_isName hn.toIsName]
    refine .link hl hn.short (by simp) (by simp) ?_
    rwa [List.append_nil]
  by_cases hne : ahead = []
  · subst hne
    rw [List.append_nil] at h
    exact ⟨b, e, found (Nat.le_refl k) h, he⟩
  · -- the lookup goes on from a directory
    obtain ⟨i, j, m, rfl, front, _⟩ := h.split rfl hne
    have there := (front.passable (way.start target)).found_isDir
    exact ⟨m, t.found m, found (Nat.le_add_right i j) front.reaches, .inl there⟩

/-- An entry under an unused name is litter, if it is of no use. -/
theorem litters_put (free : s.entry? (a ++ [n]) = none) (noDir : e.isDir = false) (noFile : e.isFile = false)
    (lost : ∀ target, e = .link target →
      ¬(s.put (a ++ [n]) e).isDir a n ∧ ¬(s.put (a ++ [n]) e).isFile a n) :
    Litters s (s.put (a ++ [n]) e) where
  gains := gains_put free
  new := by
    intro dir m f ht hs
    rw [entry?_put] at ht
    by_cases same : dir ++ [m] = a ++ [n]
    · rw [if_pos same] at ht
      cases ht
      obtain ⟨rfl, last⟩ := List.append_inj' same rfl
      cases last
      exact ⟨noDir, noFile, lost⟩
    · rw [if_neg same] at ht
      cases hs.symm.trans ht

namespace Litters

/-- What stands in `t` and could be looked for stood in `s`. -/
theorem entry_of_useful (litters : Litters s t) (root : s.holdsDir []) (he : t.entry? a = some e)
    (hk : e.isDir ∨ e.isFile) : s.entry? a = some e := by
  cases hs : s.entry? a with
  | some f => rw [← litters.gains a f hs, he]
  | none =>
    rcases List.eq_nil_or_concat' a with rfl | ⟨dir, n, rfl⟩
    · obtain ⟨mode, hr⟩ := holdsDir_iff.1 root
      cases hs.symm.trans hr
    · obtain ⟨noDir, noFile, _⟩ := litters.new he hs
      rw [noDir, noFile] at hk
      exact absurd hk (by decide)

theorem holdsDir_iff (litters : Litters s t) (root : s.holdsDir []) : t.holdsDir a ↔ s.holdsDir a := by
  refine ⟨fun h => ?_, litters.gains.keeps.holdsDir⟩
  obtain ⟨mode, he⟩ := Store.holdsDir_iff.1 h
  exact holdsDir_of_entry (litters.entry_of_useful root he (.inl rfl))

/-- A lookup that ends at a directory or a regular file is a lookup of the store without the litter. -/
theorem reaches (litters : Litters s t) (root : s.holdsDir []) (wellNamed : t.WellNamed)
    (way : Passable t a) (h : Reaches t .follow k a steps (.entry b e)) (hk : k ≤ linkLimit)
    (he : e.isDir ∨ e.isFile) : Reaches s .follow k a steps (.entry b e) := by
  generalize hp : Place.entry b e = place at h
  induction h with
  | here =>
    cases hp
    have same : s.found b = t.found b := by
      cases ht : t.entry? b with
      | some f =>
        rw [ht] at he
        rw [found, found, ht, litters.entry_of_useful root ht he]
      | none =>
        have hs : s.entry? b = none := by
          rw [Option.eq_none_iff_forall_ne_some]
          intro f hf
          cases ht.symm.trans (litters.gains b f hf)
        rw [found, found, ht, hs]
    have here : Reaches s .follow 0 b [] (.entry b (s.found b)) := .here
    rwa [same] at here
  | stay _ ih => exact .stay (ih way hk hp)
  | slash _ ih => exact .slash (ih way hk hp)
  | @up _ a _ _ _ ih => exact .up (ih (fun b e hb => way b e (hb.trans (List.dropLast_prefix a))) hk hp)
  | dir hd hn _ _ ih =>
    exact .dir (litters.entry_of_useful root hd (.inl rfl)) hn (by simp) (ih (way.snoc hd) hk hp)
  | @link k a n target ahead _ hl hn _ _ h ih =>
    subst hp
    have behind := ih (way.start target) (Nat.le_of_succ_le hk) rfl
    cases hs : s.entry? (a ++ [n]) with
    | some f =>
      cases (litters.gains _ f hs).symm.trans hl
      exact .link hs hn (by simp) (by simp) behind
    | none =>
      -- a new link would lead somewhere
      obtain ⟨noDir, noFile⟩ := (litters.new hl hs).2.2 target rfl
      obtain ⟨c, f, ht, hf⟩ := exists_stat?_of_link wellNamed way hl hk h he
      rcases hf with hf | hf
      · exact absurd (by rw [isDir, ht]; exact hf) noDir
      · exact absurd (by rw [isFile, ht]; exact hf) noFile
  | kept _ _ keep => cases keep
  | last hf hn hp' =>
    cases hp
    exact .last (litters.entry_of_useful root hf he) hn hp'
  | free _ _ _ _ => cases hp

theorem stat?_of_littered (litters : Litters s t) (root : s.holdsDir []) (wellNamed : t.WellNamed)
    (way : Passable t cwd) (h : t.stat? cwd p = .ok (b, e)) (he : e.isDir ∨ e.isFile) :
    s.stat? cwd p = .ok (b, e) := by
  obtain ⟨hc, k, hk, hr⟩ := lookup_eq_ok.1 (stat?_eq_ok_iff_lookup.1 h)
  have whole := litters.reaches root wellNamed (way.start p) hr hk he
  exact stat?_eq_ok_iff_lookup.2 (lookup_eq_ok.2 ⟨hc, k, hk, whole⟩)

/-- Whatever a path led to, it leads to in spite of the litter. -/
theorem stat?_littered (litters : Litters s t) (root : s.holdsDir []) (way : Passable t cwd)
    (h : s.stat? cwd p = .ok (b, e)) : t.stat? cwd p = .ok (b, e) := by
  refine entryAt?_mono h litters.gains.keeps ?_
  cases hs : s.entry? b with
  | some f => exact litters.gains b f hs
  | none =>
    -- a directory that has been removed, so nothing new stands in its place
    rw [Option.eq_none_iff_forall_ne_some]
    intro f ht
    have gone : e.isDir := by
      cases he : e.isDir with
      | true => rfl
      | false =>
        have there := entry_of_lookup (stat?_eq_ok_iff_lookup.1 h) he
        cases hs.symm.trans there
    obtain ⟨k, _, leads⟩ := leads_of_stat? h gone
    have dir := (leads.mono litters.gains.keeps).passable (way.start p) b f (List.prefix_refl b) ht
    cases hs.symm.trans (litters.entry_of_useful root ht (.inl dir))

theorem stat?_iff (litters : Litters s t) (root : s.holdsDir []) (wellNamed : t.WellNamed)
    (way : Passable t cwd) (he : e.isDir ∨ e.isFile) :
    t.stat? cwd p = .ok (b, e) ↔ s.stat? cwd p = .ok (b, e) :=
  ⟨fun h => litters.stat?_of_littered root wellNamed way h he, litters.stat?_littered root way⟩

/-- The working directory is there in spite of the litter, and only if it was. -/
theorem holdsDir_eq (litters : Litters s t) (root : s.holdsDir []) (a : Location) :
    t.holdsDir a = s.holdsDir a :=
  Bool.eq_iff_iff.2 (litters.holdsDir_iff root)

/-- What a path that leads to a directory is written out as does not depend on the litter. -/
theorem canonical?_eq (litters : Litters s t) (rooted : s.Rooted) (way : Passable t cwd) {mode : Nat}
    (hr : Reaches s .follow k (start cwd p) (Step.ofPath p) (.entry a (.dir mode))) :
    t.canonical? cwd p = s.canonical? cwd p := by
  refine canonical?_congr rooted litters.gains.keeps (litters.holdsDir_eq rooted.root cwd) hr ?_
  cases hs : s.entry? a with
  | some f => exact litters.gains a f hs
  | none =>
    -- a directory that has been removed, so nothing new stands in its place
    rw [Option.eq_none_iff_forall_ne_some]
    intro f ht
    have way' := ((hr.leads rfl).mono litters.gains.keeps).passable (way.start p)
    cases hs.symm.trans (litters.entry_of_useful rooted.root ht (.inl (way' a f List.prefix_rfl ht)))

/-- Whether a directory is the place that another path means does not depend on the litter. -/
theorem same_place_iff (litters : Litters s t) (wellNamed : s.WellNamed) (wellNamed' : t.WellNamed)
    (way : Passable t cwd) {mode : Nat} (hs : s.stat? cwd p = .ok (a, .dir mode)) (q : PathText) :
    (∃ place, t.canonical? cwd q = .ok place ∧ t.canonical? cwd p = .ok place) ↔
      ∃ place, s.canonical? cwd q = .ok place ∧ s.canonical? cwd p = .ok place := by
  obtain ⟨_, k, _, hr⟩ := lookup_eq_ok.1 (stat?_eq_ok_iff_lookup.1 hs)
  rw [litters.canonical?_eq wellNamed.toRooted way hr]
  refine exists_congr fun place => and_congr_left fun hp => ?_
  -- the other path is written out only if it leads to the same directory, in either store
  obtain ⟨there, rfl, names⟩ := wellNamed.entry_of_canonical? hp hs
  have found {u : Store} (named : u.WellNamed) (gains : Gains s u)
      (hq : u.canonical? cwd q = .ok (Location.text a)) : ∃ l ≤ linkLimit,
        Reaches u .follow l (start cwd q) (Step.ofPath q) (.entry a (.dir mode)) := by
    obtain ⟨_, b, e, same, he, l, hl, hr'⟩ := named.toRooted.reaches_of_canonical? hq
    have below : u.entry? ([] ++ b) = some e := he
    obtain rfl := text_injective (fun n hn => (names n hn).toIsName)
      (fun n hn => (named.lawful_of_mem below n hn).toIsName) same
    cases he.symm.trans (gains a _ there)
    exact ⟨l, hl, hr'⟩
  constructor
  · intro hq
    obtain ⟨l, hl, hr'⟩ := found wellNamed' litters.gains hq
    have old := litters.reaches wellNamed.root wellNamed' (way.start q) hr' hl (.inl rfl)
    rwa [← litters.canonical?_eq wellNamed.toRooted way old]
  · intro hq
    obtain ⟨l, _, old⟩ := found wellNamed (Gains.refl s) hq
    rwa [litters.canonical?_eq wellNamed.toRooted way old]

end Litters

end LuaTree.Store
