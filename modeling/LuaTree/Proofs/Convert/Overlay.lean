import LuaTree.Chunk
import LuaTree.Proofs.Convert.Parents
import LuaTree.Proofs.Convert.Writes

/-!
# Stores with something laid over them

In the course of a conversion the store is the one it began with, with new directories and finished
files laid over it. `Overlay` says so, for any directories that were made and any files that are
finished; creating directories adds to the former (`Overlay.filled`), writing to the latter
(`Overlay.wrote`). What two stores have laid over the same one decides where they are the same
(`Overlay.view_eq`), and laying the same over a store once more changes nothing (`Overlay.again`).

For an item, what is laid over the rest makes no difference: its source is what it was
(`Overlay.stat?_eq`), and so is what is in the way of its destination (`Overlay.obstacle_eq`).
-/

namespace LuaTree.Store

open PathText

variable {s u v : Store} {cwd a loc : Location} {p : PathText} {way : List Name} {file : Inode}
  {made : Location → Prop} {finished : Location → Inode → Prop}

/-- The store `u` is `s` with directories and files laid over it. No file that is finished has another
name, so that none is changed again by what is written elsewhere. -/
structure Overlay (s u : Store) (cwd : Location) (made : Location → Prop)
    (finished : Location → Inode → Prop) : Prop where
  umask : u.umask = s.umask
  sound : u.Sound cwd
  old : ∀ {l}, (∀ f, ¬finished l f) → ¬(made l ∧ s.entry? l = none) → u.entry? l = s.entry? l
  dir : ∀ {l}, (∀ f, ¬finished l f) → made l → s.entry? l = none →
    u.entry? l = some (.dir (s.masked 0o777))
  there : ∀ {l}, made l → u.holdsDir l
  file : ∀ {l f}, finished l f →
    ∃ i, u.entry? l = some (.file i) ∧ u.inode i = f ∧ ∀ l', u.entry? l' = some (.file i) → l' = l
  spared : ∀ {l f}, finished l f → ∀ e, s.entry? l = some e → e.isPassage = false
  inode : ∀ {l i}, (∀ f, ¬finished l f) → s.entry? l = some (.file i) → u.inode i = s.inode i

namespace Overlay

theorem refl (sound : s.Sound cwd) : Overlay s s cwd (fun _ => False) (fun _ _ => False) where
  umask := rfl
  sound := sound
  old := fun _ _ => rfl
  dir := fun _ h => h.elim
  there := fun h => h.elim
  file := fun h => h.elim
  spared := fun h => h.elim
  inode := fun _ _ => rfl

theorem congr {made' : Location → Prop} {finished' : Location → Inode → Prop}
    (h : Overlay s u cwd made finished) (hm : ∀ l, made l ↔ made' l)
    (hf : ∀ l f, finished l f ↔ finished' l f) : Overlay s u cwd made' finished' := by
  obtain rfl : made = made' := funext fun l => propext (hm l)
  obtain rfl : finished = finished' := funext fun l => funext fun f => propext (hf l f)
  exact h

theorem masked_eq (h : Overlay s u cwd made finished) (mode : Nat) : u.masked mode = s.masked mode := by
  rw [Store.masked, Store.masked, h.umask]

/-! ## What is seen -/

theorem view_of_finished (h : Overlay s u cwd made finished) (hf : finished loc file) :
    u.view loc = some (.file file.data file.mode) := by
  obtain ⟨i, hi, rfl, _⟩ := h.file hf
  exact view_eq_file.2 ⟨i, hi, rfl⟩

theorem view_of_made (h : Overlay s u cwd made finished) (hf : ∀ f, ¬finished loc f) (hm : made loc)
    (hs : s.entry? loc = none) : u.view loc = some (.dir (s.masked 0o777)) :=
  view_eq_dir.2 (h.dir hf hm hs)

theorem view_of_old (h : Overlay s u cwd made finished) (hf : ∀ f, ¬finished loc f)
    (hm : ¬(made loc ∧ s.entry? loc = none)) : u.view loc = s.view loc :=
  view_congr (h.old hf hm) fun _ he => h.inode hf he

/-- Where the same is laid over a store, the same is seen. -/
theorem view_eq {made' : Location → Prop} {finished' : Location → Inode → Prop}
    (h : Overlay s u cwd made finished) (h' : Overlay s v cwd made' finished')
    (hm : made loc ↔ made' loc) (hf : ∀ f, finished loc f ↔ finished' loc f) :
    u.view loc = v.view loc := by
  by_cases hl : ∃ f, finished loc f
  · obtain ⟨f, hl⟩ := hl
    rw [h.view_of_finished hl, h'.view_of_finished ((hf f).1 hl)]
  · rw [not_exists] at hl
    have hl' : ∀ f, ¬finished' loc f := fun f hf' => hl f ((hf f).2 hf')
    by_cases hd : made loc ∧ s.entry? loc = none
    · rw [h.view_of_made hl hd.1 hd.2, h'.view_of_made hl' (hm.1 hd.1) hd.2]
    · rw [h.view_of_old hl hd, h'.view_of_old hl' fun hd' => hd ⟨hm.2 hd'.1, hd'.2⟩]

/-- What has been laid over a store can be laid over it again. -/
theorem again (h : Overlay s u cwd made finished) (h' : Overlay u v cwd made finished) : Same u v := by
  intro loc
  by_cases hl : ∃ f, finished loc f
  · obtain ⟨f, hl⟩ := hl
    rw [h.view_of_finished hl, h'.view_of_finished hl]
  · rw [not_exists] at hl
    refine (h'.view_of_old hl ?_).symm
    rintro ⟨hm, hu⟩
    obtain ⟨mode, hd⟩ := holdsDir_iff.1 (h.there hm)
    cases hu.symm.trans hd

/-- Where nothing is finished, there is what there was, or a new directory. -/
theorem entry_cases (h : Overlay s u cwd made finished) (hf : ∀ f, ¬finished loc f) :
    u.entry? loc = s.entry? loc ∨ s.entry? loc = none ∧ u.entry? loc = some (.dir (s.masked 0o777)) := by
  by_cases hm : made loc ∧ s.entry? loc = none
  · exact .inr ⟨hm.2, h.dir hf hm.1 hm.2⟩
  · exact .inl (h.old hf hm)

theorem entry_of_some (h : Overlay s u cwd made finished) (hf : ∀ f, ¬finished loc f) {e : Entry}
    (he : s.entry? loc = some e) : u.entry? loc = some e := by
  rw [h.old hf fun hm => absurd (hm.2.symm.trans he) (by simp), he]

theorem keeps (h : Overlay s u cwd made finished) : Keeps s u := by
  intro l e he hp
  refine h.entry_of_some (fun f hf => ?_) he
  rw [h.spared hf e he] at hp
  cases hp

/-- Where no directory was made, there is one only if there was. -/
theorem holdsDir_eq (h : Overlay s u cwd made finished) (hm : ¬made loc) :
    u.holdsDir loc = s.holdsDir loc := by
  by_cases hl : ∃ f, finished loc f
  · obtain ⟨f, hl⟩ := hl
    obtain ⟨i, hi, _⟩ := h.file hl
    rw [holdsDir, holdsDir, hi]
    cases hs : s.entry? loc with
    | none => rfl
    | some e =>
      have spared := h.spared hl e hs
      cases e with
      | dir mode => cases spared
      | link _ | file _ | fifo | device _ => rfl
  · rw [not_exists] at hl
    rw [holdsDir, holdsDir, h.old hl fun hd => hm hd.1]

/-- A file that nothing was laid over has no other name than before. -/
theorem lone (h : Overlay s u cwd made finished) (hf : ∀ f, ¬finished loc f) {i : Nat}
    (hu : u.entry? loc = some (.file i))
    (hs : s.entry? loc = some (.file i) → ∀ l, s.entry? l = some (.file i) → l = loc) :
    ∀ l, u.entry? l = some (.file i) → l = loc := by
  intro l hl
  have before : ∀ {l'}, (∀ f, ¬finished l' f) → u.entry? l' = some (.file i) →
      s.entry? l' = some (.file i) := by
    intro l' hf' hu'
    rcases h.entry_cases hf' with he | ⟨_, hd⟩
    · exact he.symm.trans hu'
    · cases hd.symm.trans hu'
  by_cases hfl : ∃ f, finished l f
  · obtain ⟨f, hfl⟩ := hfl
    obtain ⟨j, hj, _, alone⟩ := h.file hfl
    cases hj.symm.trans hl
    exact (alone loc hu).symm
  · rw [not_exists] at hfl
    exact hs (before hf hu) l (before hfl hl)

/-! ## What is laid over -/

/-- Directories that were missing on the way down from `a`. -/
theorem filled (h : Overlay s u cwd made finished) (filled : Filled u v a way)
    (names : ∀ n ∈ way, Lawful n) :
    Overlay s v cwd (fun l => made l ∨ ∃ front, front <+: way ∧ front ≠ [] ∧ l = a ++ front)
      finished := by
  refine ⟨filled.umask.trans h.umask, filled.sound h.sound names, fun {l} hf hm => ?_,
    fun {l} hf hm hs => ?_, fun {l} hm => ?_, fun {l f} hf => ?_, h.spared, fun hf he => ?_⟩
  · have hu := h.old hf fun hm' => hm ⟨.inl hm'.1, hm'.2⟩
    cases hs : s.entry? l with
    | some e => exact filled.kept (hu.trans hs)
    | none =>
      cases hv : v.entry? l with
      | none => rfl
      | some e =>
        obtain ⟨_, front, hp, hne, heq⟩ := filled.new (hu.trans hs) hv
        exact absurd ⟨.inr ⟨front, hp, hne, heq⟩, hs⟩ hm
  · cases hu : u.entry? l with
    | some e =>
      rcases h.entry_cases hf with he | ⟨_, hd⟩
      · cases hu.symm.trans (he.trans hs)
      · cases hu.symm.trans hd
        exact filled.kept hu
    | none =>
      rcases hm with hm | ⟨front, hp, hne, rfl⟩
      · cases hu.symm.trans (h.dir hf hm hs)
      · obtain ⟨mode, hd⟩ := holdsDir_iff.1 (filled.there front hp)
        rw [hd, (filled.new hu hd).1, masked, h.umask, masked]
  · rcases hm with hm | ⟨front, hp, _, rfl⟩
    · exact filled.keeps.holdsDir (h.there hm)
    · exact filled.there front hp
  · obtain ⟨i, hi, hfile, alone⟩ := h.file hf
    refine ⟨i, filled.kept hi, (filled.inode i).trans hfile, fun l' hl' => ?_⟩
    cases hu : u.entry? l' with
    | some e =>
      cases (filled.kept hu).symm.trans hl'
      exact alone l' hu
    | none => cases (filled.new hu hl').1
  · rw [filled.inode, h.inode hf he]

/-- A file written where nothing is finished. -/
theorem wrote (h : Overlay s u cwd made finished) (wrote : Wrote u v loc file) (sound : v.Sound cwd)
    (clear : ∀ f, ¬finished loc f) (unmade : ¬made loc)
    (plain : ∀ e, s.entry? loc = some e → e.isPassage = false)
    (lone : ∀ i, u.entry? loc = some (.file i) → ∀ l, u.entry? l = some (.file i) → l = loc) :
    Overlay s v cwd made (fun l f => finished l f ∨ l = loc ∧ f = file) := by
  -- what is no file at the location itself is not written to
  have apart : ∀ {l i}, l ≠ loc → u.entry? l = some (.file i) → v.inode i = u.inode i :=
    fun hne he => wrote.inode_eq (h.sound.kept he) fun hi => hne (lone _ hi _ he)
  have earlier : ∀ {l}, (∀ f, ¬(finished l f ∨ l = loc ∧ f = file)) →
      (∀ f, ¬finished l f) ∧ l ≠ loc := fun hf =>
    ⟨fun f h => hf f (.inl h), fun h => hf file (.inr ⟨h, rfl⟩)⟩
  have another : ∀ {l f}, finished l f → l ≠ loc := fun hf he => clear _ (he ▸ hf)
  refine ⟨wrote.umask.trans h.umask, sound, fun {l} hf hm => ?_, fun {l} hf hm hs => ?_, fun {l} hm => ?_,
    fun {l f} hf => ?_, fun {l f} hf => ?_, fun {l i} hf he => ?_⟩
  · obtain ⟨hf, hne⟩ := earlier hf
    rw [wrote.others hne, h.old hf hm]
  · obtain ⟨hf, hne⟩ := earlier hf
    rw [wrote.others hne, h.dir hf hm hs]
  · rw [holdsDir, wrote.others fun he => unmade (he ▸ hm)]
    exact h.there hm
  · obtain ⟨j, hj, hfile, _, hold, _⟩ := wrote.placed
    rcases hf with hf | ⟨rfl, rfl⟩
    · obtain ⟨i, hi, hfile, alone⟩ := h.file hf
      refine ⟨i, ?_, ?_, fun l' hl' => ?_⟩
      · rwa [wrote.others (another hf)]
      · rw [apart (another hf) hi, hfile]
      · by_cases hl : l' = loc
        · subst hl
          cases hj.symm.trans hl'
          rcases hold with hold | hold
          · exact absurd (h.sound.kept hi) hold
          · exact alone l' hold
        · rw [wrote.others hl] at hl'
          exact alone l' hl'
    · refine ⟨j, hj, hfile, fun l' hl' => ?_⟩
      by_contra hl
      rw [wrote.others hl] at hl'
      rcases hold with hold | hold
      · exact hold (h.sound.kept hl')
      · exact hl (lone j hold l' hl')
  · rcases hf with hf | ⟨rfl, _⟩
    · exact h.spared hf
    · exact plain
  · obtain ⟨hf, hne⟩ := earlier hf
    rw [apart hne (h.entry_of_some hf he), h.inode hf he]

theorem untouched (h : Overlay s u cwd made finished) (same : Untouched u v) :
    Overlay s v cwd made finished := by
  have dirs : ∀ l, u.holdsDir l → v.holdsDir l := by
    intro l hl
    rw [holdsDir, same.entry]
    exact hl
  have sound : v.Sound cwd :=
    h.sound.mono dirs (fun l n e he => .inl ⟨e, (same.entry _).symm.trans he⟩)
      fun l i he => same.keys (h.sound.kept ((same.entry l).symm.trans he))
  refine ⟨same.umask.trans h.umask, sound, fun hf hm => (same.entry _).trans (h.old hf hm),
    fun hf hm hs => (same.entry _).trans (h.dir hf hm hs), fun hm => dirs _ (h.there hm), fun hf => ?_,
    h.spared, fun hf he => ?_⟩
  · obtain ⟨i, hi, hfile, alone⟩ := h.file hf
    refine ⟨i, (same.entry _).trans hi, ?_, fun l' hl' => alone l' ((same.entry l').symm.trans hl')⟩
    rw [same.inode (h.sound.kept hi), hfile]
  · rw [same.inode (h.sound.kept (h.entry_of_some hf he)), h.inode hf he]

/-! ## What makes no difference -/

/-- A source that nothing was laid over is still there, with what it held. -/
theorem stat?_eq (h : Overlay s u cwd made finished) {i : Nat}
    (hs : s.stat? cwd p = .ok (loc, .file i)) (hf : ∀ f, ¬finished loc f) :
    u.stat? cwd p = .ok (loc, .file i) ∧ u.inode i = s.inode i := by
  have he := entry_of_lookup (stat?_eq_ok_iff_lookup.1 hs) rfl
  exact ⟨entryAt?_mono hs h.keeps ((h.entry_of_some hf he).trans he.symm), h.inode hf he⟩

end Overlay

theorem isCompiled_of_file {i : Nat} (h : s.stat? cwd p = .ok (loc, .file i)) :
    Chunk.isCompiled s cwd p = .ok (Chunk.hasHeader (s.inode i).data) := by
  rw [Chunk.isCompiled, openRead_of_file h]
  dsimp only [readUpTo]
  rw [Chunk.hasHeader, Chunk.hasHeader, List.drop_take, List.take_take]
  rfl

theorem isCompiled_of_checkText {cause : IoError} (h : checkText p = .error cause) :
    Chunk.isCompiled s cwd p = .error (.fileOpen p cause) := by
  rw [Chunk.isCompiled, openRead, stat?_of_lookup_error (lookup_of_checkText_error s cwd .follow h)]
  rfl

/-- Nothing blocks where there is nothing but directories. -/
theorem obstacle_eq_none (short : ∀ n ∈ way, Utf8.byteLength n ≤ nameLimit)
    (dirs : ∀ front, front <+: way → front ≠ [] →
      ∀ e, s.entry? (a ++ front) = some e → e.isDir) : s.obstacle a way = none := by
  induction way generalizing a with
  | nil => rfl
  | cons n way ih =>
    rw [obstacle, if_neg (Nat.not_lt.2 (short n List.mem_cons_self))]
    have first := dirs [n] ⟨way, rfl⟩ (List.cons_ne_nil n [])
    cases he : s.entry? (a ++ [n]) with
    | none => rfl
    | some e =>
      cases e with
      | dir mode =>
        refine ih (fun m hm => short m (List.mem_cons_of_mem n hm)) fun front hp _ e he => ?_
        rw [List.append_assoc] at he
        exact dirs (n :: front) (List.cons_prefix_cons.2 ⟨rfl, hp⟩) (List.cons_ne_nil n front) e he
      | file _ | link _ | fifo | device _ => cases first _ he

/-- What is laid over a store is in nobody's way. -/
theorem Overlay.obstacle_eq (h : Overlay s u cwd made finished) (rooted : s.Rooted)
    (short : ∀ n ∈ way.tail, Utf8.byteLength n ≤ nameLimit)
    (clear : ∀ front, front <+: way → front ≠ [] → ∀ f, ¬finished (a ++ front) f) :
    u.obstacle a way = s.obstacle a way := by
  induction way generalizing a with
  | nil => rfl
  | cons n way ih =>
    have deeper : ∀ front, front <+: way → ∀ f, ¬finished (a ++ [n] ++ front) f := by
      intro front hp
      rw [List.append_assoc]
      exact clear (n :: front) (List.cons_prefix_cons.2 ⟨rfl, hp⟩) (List.cons_ne_nil n front)
    rw [obstacle, obstacle]
    split
    · rfl
    · rcases h.entry_cases (clear [n] ⟨way, rfl⟩ (List.cons_ne_nil n [])) with he | ⟨hs, hd⟩
      · rw [he]
        cases s.entry? (a ++ [n]) with
        | none => rfl
        | some e =>
          cases e with
          | dir mode =>
            exact ih (fun m hm => short m (List.mem_of_mem_tail hm)) fun front hp _ => deeper front hp
          | file _ | link _ | fifo | device _ => rfl
      · -- behind a new directory there is nothing but new directories
        rw [hs, hd]
        refine obstacle_eq_none short fun front hp _ e he => ?_
        rcases h.entry_cases (deeper front hp) with hsame | ⟨_, hdir⟩
        · cases (rooted.nothing_below hs front).symm.trans (hsame.symm.trans he)
        · cases he.symm.trans hdir
          rfl

end LuaTree.Store
