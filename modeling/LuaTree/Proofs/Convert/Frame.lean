import LuaTree.Proofs.Convert.Destination
import LuaTree.Proofs.Convert.Runs

/-!
# What a conversion leaves alone

A conversion may change an `area` of locations, the one that its destinations are in. `Framed` is the
invariant: outside of it everything is as it was, and in it nothing leads out. What an item needs of a
store for its stages to stay inside is `Confined`; `Framed.step` is the step lemma, `Framed.run` says it
of every schedule.
-/

namespace LuaTree

open PathText Store

namespace Store

variable {s t u : Store} {cwd loc : Location} {p : PathText}

/-! ## Names for locations -/

/-- A path of names that no link is in the way of names the last of them, if lookups get that far. -/
theorem Approach.designates_iff {a : Location} {way : List Name} {n : Name}
    (approach : Approach s cwd p a (way ++ [n])) (free : LinkFree s a way) :
    Designates s cwd p loc ↔ Utf8.byteLength p < pathLimit ∧ s.hindrance a way = none ∧
      Utf8.byteLength n ≤ nameLimit ∧ loc = a ++ way ++ [n] := by
  have located := approach.locate_below free
  constructor
  · rintro ⟨dir, k, slash, h, rfl⟩
    rw [h] at located
    split at located
    · cases located
    · next hl =>
      split at located
      · cases located
      · next hh =>
        split at located
        · cases located
        · next hn =>
          cases located
          exact ⟨Nat.not_le.1 hl, hh, Nat.not_lt.1 hn, rfl⟩
  · rintro ⟨hl, hh, hn, rfl⟩
    rw [if_neg (Nat.not_le.2 hl), hh] at located
    dsimp only at located
    rw [if_neg (Nat.not_lt.2 hn)] at located
    exact ⟨_, _, false, located, rfl⟩

theorem Step.isName_of_enter_mem {n : Name} (h : Step.enter n ∈ Step.ofPath p) :
    IsName n ∧ n ∈ segments p := by
  rw [Step.ofPath, List.mem_append] at h
  rcases h with h | h
  · obtain ⟨segment, hm, hs⟩ := List.mem_filterMap.1 h
    have separator := no_separator_of_mem_segments hm
    rw [Step.ofSegment?] at hs
    split at hs
    · cases hs
    · next h0 =>
      split at hs
      · cases hs
      · next h1 =>
        split at hs
        · cases hs
        · next h2 =>
          cases hs
          exact ⟨⟨h0, h1, h2, separator⟩, hm⟩
  · split at h
    · exact absurd (List.mem_singleton.1 h) (by simp)
    · exact absurd h List.not_mem_nil

/-- A location that is named has a directory above it, and a lawful name. -/
theorem Designates.lawful (h : Designates s cwd p loc) :
    ∃ dir n, loc = dir ++ [n] ∧ s.holdsDir dir ∧ Lawful n := by
  obtain ⟨dir, n, slash, hl, rfl⟩ := h
  obtain ⟨hc, _, hname, hlast, _⟩ := locate_eq_ok_iff.1 hl
  have last : lastName? p = some n := hname.symm
  have mem : Step.enter n ∈ Step.ofPath p := by
    rw [lastName?] at last
    split at last
    · next m hm =>
      cases last
      exact (List.mem_filter.1 (List.mem_of_getLast? hm)).1
    · cases last
  obtain ⟨name, segment⟩ := Step.isName_of_enter_mem mem
  obtain ⟨short, there⟩ := hlast n last
  refine ⟨dir, n, rfl, there, ⟨name, fun h0 => ?_, short⟩⟩
  exact (checkText_eq_ok.1 hc).1 (mem_of_mem_segments segment h0)

/-! ## The invariant -/

/-- The store `t` is `s` with changes in an area only, and what is new there is a directory or has been
written to one of the targets. -/
structure Framed (s t : Store) (cwd : Location) (area : Location → Prop) (targets : List PathText) :
    Prop where
  sound : t.Sound cwd
  keeps : Keeps s t
  outside : ∀ {l}, ¬area l → t.entry? l = s.entry? l
  inode : ∀ {l i}, ¬area l → s.entry? l = some (.file i) → t.inode i = s.inode i
  free : ∀ {l}, area l → ∀ target, t.entry? l ≠ some (.link target)
  apart : ∀ {l l' i}, area l → ¬area l' → t.entry? l = some (.file i) → t.entry? l' ≠ some (.file i)
  new : ∀ {l e}, s.entry? l = none → t.entry? l = some e →
    e.isDir ∨ ∃ p ∈ targets, Designates t cwd p l

namespace Framed

variable {area : Location → Prop} {targets : List PathText}

theorem refl (sound : s.Sound cwd) (free : ∀ l, area l → ∀ target, s.entry? l ≠ some (.link target))
    (apart : ∀ l l' i, area l → ¬area l' → s.entry? l = some (.file i) → s.entry? l' ≠ some (.file i)) :
    Framed s s cwd area targets where
  sound := sound
  keeps := .refl s
  outside := fun _ => rfl
  inode := fun _ _ => rfl
  free := free _
  apart := apart _ _ _
  new := fun h h' => absurd (h.symm.trans h') (by simp)

/-- Nothing can be told apart outside of the area. -/
theorem view (h : Framed s t cwd area targets) {l : Location} (hl : ¬area l) : t.view l = s.view l :=
  view_congr (h.outside hl) fun _ he => h.inode hl he

variable {a : Location} {way : List Name}

/-- New directories in the area. -/
theorem filled (h : Framed s t cwd area targets) (filled : Filled t u a way)
    (names : ∀ n ∈ way, Lawful n)
    (inside : ∀ front, front <+: way → front ≠ [] → area (a ++ front)) :
    Framed s u cwd area targets := by
  -- what is not a directory was there before
  have old : ∀ {l e}, u.entry? l = some e → e.isDir = false → t.entry? l = some e := by
    intro l e hu hd
    cases ht : t.entry? l with
    | some e' =>
      cases (filled.kept ht).symm.trans hu
      rfl
    | none =>
      rw [(filled.new ht hu).1] at hd
      cases hd
  refine ⟨filled.sound h.sound names, h.keeps.trans filled.keeps, fun {l} hl => ?_, fun hl he => ?_,
    fun hl target hu => ?_, fun hl hl' hu hu' => ?_, fun {l e} hs hu => ?_⟩
  · rw [← h.outside hl]
    cases ht : t.entry? l with
    | some e => exact filled.kept ht
    | none =>
      cases hu : u.entry? l with
      | none => rfl
      | some e =>
        obtain ⟨_, front, hp, hne, rfl⟩ := filled.new ht hu
        exact absurd (inside front hp hne) hl
  · rw [filled.inode, h.inode hl he]
  · exact h.free hl target (old hu rfl)
  · exact h.apart hl hl' (old hu rfl) (old hu' rfl)
  · cases ht : t.entry? l with
    | none =>
      rw [(filled.new ht hu).1]
      exact .inl rfl
    | some e' =>
      cases (filled.kept ht).symm.trans hu
      refine (h.new hs ht).imp_right fun ⟨p, hp, hd⟩ => ⟨p, hp, ?_⟩
      exact hd.mono filled.keeps

/-- A file written to a target in the area. -/
theorem wrote (h : Framed s t cwd area targets) {file : Inode} (wrote : Wrote t u loc file)
    (inside : area loc) (hp : p ∈ targets) (names : Designates t cwd p loc)
    (hd : ¬t.holdsDir loc) : Framed s u cwd area targets := by
  obtain ⟨dir, n, heq, above, lawful⟩ := names.lawful
  -- the area holds no links, so that the write replaces a file or fills a free name
  have plain : ∀ e, t.entry? loc = some e → e.isPassage = false := by
    intro e he
    cases e with
    | dir mode => exact absurd (holdsDir_of_entry he) hd
    | link target => exact absurd he (h.free inside target)
    | file _ | fifo | device _ => rfl
  have keeps := wrote.keeps plain
  have sound : u.Sound cwd := by
    rw [heq] at wrote hd
    exact wrote.sound h.sound above lawful hd
  have ne : ∀ {l}, ¬area l → l ≠ loc := fun hl he => hl (he ▸ inside)
  refine ⟨sound, h.keeps.trans keeps, fun hl => ?_, fun {l i} hl he => ?_, fun {l} hl target hu => ?_,
    fun {l l' i} hl hl' hu hu' => ?_, fun {l e} hs hu => ?_⟩
  · rw [wrote.others (ne hl), h.outside hl]
  · have ht : t.entry? l = some (.file i) := (h.outside hl).trans he
    rw [← h.inode hl he]
    exact wrote.inode_eq (h.sound.kept ht) fun hi => h.apart inside hl hi ht
  · by_cases hll : l = loc
    · obtain ⟨i, hi, _⟩ := wrote.placed
      rw [hll, hi] at hu
      cases hu
    · rw [wrote.others hll] at hu
      exact h.free hl target hu
  · rw [wrote.others (ne hl')] at hu'
    by_cases hll : l = loc
    · obtain ⟨j, hj, _, _, hold, _⟩ := wrote.placed
      rw [hll, hj] at hu
      cases hu
      rcases hold with hold | hold
      · exact hold (h.sound.kept hu')
      · exact h.apart inside hl' hold hu'
    · rw [wrote.others hll] at hu
      exact h.apart hl hl' hu hu'
  · by_cases hll : l = loc
    · exact .inr ⟨p, hp, hll ▸ names.mono keeps⟩
    · rw [wrote.others hll] at hu
      refine (h.new hs hu).imp_right fun ⟨q, hq, hn⟩ => ⟨q, hq, ?_⟩
      exact hn.mono keeps

theorem untouched (h : Framed s t cwd area targets) (same : Untouched t u) :
    Framed s u cwd area targets := by
  have keeps : Keeps t u := fun l e he _ => (same.entry l).trans he
  have sound : u.Sound cwd := by
    refine h.sound.mono (fun l hl => keeps.holdsDir hl) (fun l n e he => ?_) fun l i he => ?_
    · exact .inl ⟨e, (same.entry _).symm.trans he⟩
    · exact same.keys (h.sound.kept ((same.entry l).symm.trans he))
  refine ⟨sound, h.keeps.trans keeps, fun hl => ?_, fun hl he => ?_, fun hl target hu => ?_,
    fun hl hl' hu hu' => ?_, fun hs hu => ?_⟩
  · rw [same.entry, h.outside hl]
  · rw [same.inode (h.sound.kept ((h.outside hl).trans he)), h.inode hl he]
  · exact h.free hl target ((same.entry _).symm.trans hu)
  · exact h.apart hl hl' ((same.entry _).symm.trans hu) ((same.entry _).symm.trans hu')
  · refine (h.new hs ((same.entry _).symm.trans hu)).imp_right fun ⟨q, hq, hn⟩ => ⟨q, hq, ?_⟩
    exact hn.mono keeps

end Framed

end Store

/-! ## The stages of an item -/

/-- From the store `t`, what a conversion does to the path `p` stays in the area. -/
structure Confined (t : Store) (cwd : Location) (area : Location → Prop) (p : PathText) : Prop where
  /-- The directories that are created above it are in the area. -/
  parent : (ensureParent t cwd p).2 = t ∨ ∃ a way, Filled t (ensureParent t cwd p).2 a way ∧
    (∀ n ∈ way, Lawful n) ∧ ∀ front, front <+: way → front ≠ [] → area (a ++ front)
  /-- What is opened for writing has the name itself. -/
  opened : ∀ {place}, t.lookup cwd .create p = .ok place →
    (∃ dir n, place = .vacant dir n ∧ t.entry? (dir ++ [n]) = none ∧ Designates t cwd p (dir ++ [n])) ∨
      ∃ loc e, place = .entry loc e ∧ t.entry? loc = some e ∧ (e.isFile → Designates t cwd p loc)
  inside : ∀ {loc}, Designates t cwd p loc → area loc

variable {s t : Store} {d : Decompiler} {cwd : Location} {area : Location → Prop} {items : List WorkItem}
  {item : WorkItem}

section

variable {targets : List PathText} {p : PathText}

theorem Store.Framed.prepared (h : Framed s t cwd area targets) (confined : Confined t cwd area p) :
    Framed s (ensureParent t cwd p).2 cwd area targets := by
  rcases confined.parent with he | ⟨a, way, filled, names, inside⟩
  · rw [he]
    exact h
  · exact h.filled filled names inside

theorem Store.Framed.copied (h : Framed s t cwd area targets) (confined : Confined t cwd area p)
    (target : p ∈ targets) (source : PathText) :
    Framed s (copyVerbatim t cwd source p).2 cwd area targets := by
  have placed : ∀ place e, t.lookup cwd .create p = .ok (.entry place e) → t.entry? place = some e := by
    intro place e hl
    rcases confined.opened hl with ⟨dir, n, he, _⟩ | ⟨loc, e', he, there, _⟩
    · cases he
    · cases he
      exact there
  unfold copyVerbatim
  rcases copyFile_cases h.sound source placed with
    ⟨cause, hc⟩ | hc | ⟨u, place, file, hc, wrote, from_⟩
  · rw [hc]
    exact h
  · rw [hc]
    exact h
  · rw [hc]
    rcases from_ with ⟨dir, n, hl, rfl⟩ | ⟨j, hl⟩
    · rcases confined.opened hl with ⟨dir', n', he, free, names⟩ | ⟨loc, e', he, _⟩
      · cases he
        refine h.wrote wrote (confined.inside names) target names ?_
        rw [Store.holdsDir, free]
        exact Bool.false_ne_true
      · cases he
    · rcases confined.opened hl with ⟨dir', n', he, _⟩ | ⟨loc, e', he, there, names⟩
      · cases he
      · cases he
        refine h.wrote wrote (confined.inside (names rfl)) target (names rfl) ?_
        rw [Store.holdsDir, there]
        exact Bool.false_ne_true

theorem Store.Framed.published (h : Framed s t cwd area targets) (confined : Confined t cwd area p)
    (target : p ∈ targets) (data : Bytes) :
    Framed s (publish t cwd p data).2 cwd area targets := by
  rcases publish_cases p data with
    ⟨cause, u, hp, same⟩ | ⟨u, dir, n, hp, located, hd, replaced⟩
  · rw [hp]
    exact h.untouched same
  · rw [hp]
    have names : Designates t cwd p (dir ++ [n]) := ⟨dir, n, false, located, rfl⟩
    refine h.wrote replaced.toWrote (confined.inside names) target names ?_
    rw [hd]
    exact Bool.false_ne_true

end

/-- No stage of an item leaves the area. -/
theorem Store.Framed.step (quiet : d.Quiet) (h : Framed s t cwd area (items.map (·.destination)))
    (hi : item ∈ items) (confined : Confined t cwd area item.destination) (stage : Stage)
    (notices : List Notice) :
    Framed s (ItemState.step d cwd item ⟨stage, t, notices⟩).store cwd area
      (items.map (·.destination)) := by
  have target : item.destination ∈ items.map (·.destination) := List.mem_map_of_mem hi
  cases stage with
  | prepare =>
    rw [ItemState.store_prepare]
    exact h.prepared confined
  | classify =>
    rw [ItemState.store_classify]
    exact h
  | copy =>
    rw [ItemState.store_copy]
    exact h.copied confined target item.source
  | decompile =>
    rw [ItemState.step_decompile, quiet]
    exact h
  | publish data =>
    rw [ItemState.store_publish]
    exact h.published confined target data
  | done result => exact h

/-- No run of a batch leaves the area. -/
theorem Store.Framed.run (quiet : d.Quiet)
    (confined : ∀ {t}, Framed s t cwd area (items.map (·.destination)) → ∀ item ∈ items,
      Confined t cwd area item.destination)
    {b : BatchState} (h : Framed s b.store cwd area (items.map (·.destination)))
    (hb : b.jobs.map Prod.fst = items) (schedule : List Nat) :
    Framed s (b.run d cwd schedule).store cwd area (items.map (·.destination)) := by
  induction schedule generalizing b with
  | nil => exact h
  | cons k schedule ih =>
    refine ih (b := b.step d cwd k) ?_ ((BatchState.items_step k).trans hb)
    cases hk : b.jobs[k]? with
    | none =>
      rw [BatchState.step_of_none hk]
      exact h
    | some job =>
      obtain ⟨item, stage⟩ := job
      have hi : item ∈ items := by
        rw [← hb]
        exact List.mem_map.2 ⟨(item, stage), List.mem_of_getElem? hk, rfl⟩
      rw [BatchState.step_of_some hk]
      exact h.step quiet hi (confined h item hi) stage []

/-- A path of names that no link is in the way of is confined, if the directories above it are. -/
theorem Store.Approach.confined {a : Location} {way : List Name} {n : Name} {p : PathText}
    (approach : Approach t cwd p a (way ++ [n])) (free : LinkFree t a (way ++ [n]))
    (parent : (ensureParent t cwd p).2 = t ∨ ∃ a way, Filled t (ensureParent t cwd p).2 a way ∧
      (∀ n ∈ way, Lawful n) ∧ ∀ front, front <+: way → front ≠ [] → area (a ++ front))
    (inside : ∀ {loc}, Designates t cwd p loc → area loc) : Confined t cwd area p := by
  refine ⟨parent, fun {place} hl => ?_, inside⟩
  have lookup := approach.lookup_create_below free
  rw [hl] at lookup
  split at lookup
  · cases lookup
  · next hp =>
    split at lookup
    · cases lookup
    · next hh =>
      split at lookup
      · cases lookup
      · next hn =>
        have names : Designates t cwd p (a ++ way ++ [n]) := (approach.designates_iff
          (free.front ⟨[n], rfl⟩)).2 ⟨Nat.not_le.1 hp, hh, Nat.not_lt.1 hn, rfl⟩
        split at lookup
        · next e he =>
          cases lookup
          exact .inr ⟨_, _, rfl, he, fun _ => names⟩
        · next he =>
          cases lookup
          exact .inl ⟨_, _, rfl, he, names⟩

end LuaTree
