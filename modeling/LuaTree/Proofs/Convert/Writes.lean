import LuaTree.Proofs.Store.Below
import LuaTree.Proofs.Store.Leads

/-!
# What a write leaves behind

Copying and publishing put one file at one location. `Wrote` says what that means for everything else in
the store, whether the file is a new one or was there before: other entries stand as they stood, and
other files hold what they held.

* `copyFile_eq`, `copyFile_cases`: what copying does, by what stands at the destination;
* `publishAs_of_locate`, `publishAs_cases`: what publishing does; a failure leaves no entry behind.
-/

namespace LuaTree

open PathText

namespace Store

variable {s t : Store} {cwd loc : Location} {file : Inode}

/-- The store `t` is `s` with a file at `loc`: a new one, or the one that was there. -/
structure Wrote (s t : Store) (loc : Location) (file : Inode) : Prop where
  umask : t.umask = s.umask
  others : ∀ {l}, l ≠ loc → t.entry? l = s.entry? l
  placed : ∃ i, t.entry? loc = some (.file i) ∧ t.inode i = file ∧ i ∈ t.inodes.keys ∧
    (i ∉ s.inodes.keys ∨ s.entry? loc = some (.file i)) ∧ ∀ j, j ≠ i → t.inode j = s.inode j
  keys : ∀ {j}, j ∈ s.inodes.keys → j ∈ t.inodes.keys

theorem wrote_putFile (s : Store) (loc : Location) (file : Inode) :
    Wrote s (s.putFile loc file) loc file where
  umask := rfl
  others := fun h => by rw [entry?_putFile, if_neg h]
  placed := by
    refine ⟨s.freshInode, by rw [entry?_putFile, if_pos rfl], by rw [inode_putFile, if_pos rfl], ?_,
      .inl s.freshInode_not_mem, fun j hj => by rw [inode_putFile, if_neg hj]⟩
    exact (mem_keys_setInode s _ file _).2 (.inl rfl)
  keys := fun h => (mem_keys_setInode s _ file _).2 (.inr h)

/-- A file written again is as good as written once. -/
theorem Wrote.setInode {old : Inode} {i : Nat} (h : Wrote s t loc old)
    (hi : t.entry? loc = some (.file i)) (file : Inode) : Wrote s (t.setInode i file) loc file where
  umask := h.umask
  others := fun hl => h.others hl
  placed := by
    obtain ⟨j, hj, _, hk, hold, hothers⟩ := h.placed
    obtain rfl : j = i := by cases hj.symm.trans hi; rfl
    refine ⟨j, hi, inode_setInode_self t j file, (mem_keys_setInode t j file j).2 (.inl rfl), hold,
      fun k hkj => ?_⟩
    rw [inode_setInode, if_neg hkj]
    exact hothers k hkj
  keys := fun hj => (mem_keys_setInode t _ _ _).2 (.inr (h.keys hj))

theorem wrote_setInode {i : Nat} (hi : s.entry? loc = some (.file i)) :
    Wrote s (s.setInode i file) loc file where
  umask := rfl
  others := fun _ => rfl
  placed := by
    refine ⟨i, hi, inode_setInode_self s i file, (mem_keys_setInode s i file i).2 (.inl rfl), .inr hi,
      fun j hj => ?_⟩
    rw [inode_setInode, if_neg hj]
  keys := fun hj => (mem_keys_setInode s _ _ _).2 (.inr hj)

/-- A file that is kept elsewhere, and under another number than the one written, is as it was. -/
theorem Wrote.inode_eq (h : Wrote s t loc file) {i : Nat} (hi : i ∈ s.inodes.keys)
    (hne : s.entry? loc ≠ some (.file i)) : t.inode i = s.inode i := by
  obtain ⟨j, _, _, _, hold, hothers⟩ := h.placed
  refine hothers i ?_
  rintro rfl
  rcases hold with hold | hold
  · exact hold hi
  · exact hne hold

theorem Wrote.keeps (h : Wrote s t loc file) (hp : ∀ e, s.entry? loc = some e → e.isPassage = false) :
    Keeps s t := by
  intro l e he hpass
  by_cases hl : l = loc
  · subst hl
    rw [hp e he] at hpass
    cases hpass
  · rwa [h.others hl]

theorem Wrote.sound {dir : Location} {n : Name} (h : Wrote s t (dir ++ [n]) file)
    (sound : s.Sound cwd) (hd : s.holdsDir dir) (hn : Lawful n) (hp : ¬s.holdsDir (dir ++ [n])) :
    t.Sound cwd := by
  have dirs : ∀ l, s.holdsDir l → t.holdsDir l := by
    intro l hl
    by_cases he : l = dir ++ [n]
    · exact absurd (he ▸ hl) hp
    · rw [holdsDir, h.others he]
      exact hl
  refine sound.mono dirs (fun l m e he => ?_) fun l i he => ?_
  · by_cases hl : l ++ [m] = dir ++ [n]
    · obtain ⟨rfl, hm⟩ := List.append_inj' hl rfl
      cases hm
      exact .inr ⟨dirs l hd, hn⟩
    · rw [h.others hl] at he
      exact .inl ⟨e, he⟩
  · by_cases hl : l = dir ++ [n]
    · obtain ⟨j, hj, _, hk, _⟩ := h.placed
      rw [hl, hj] at he
      cases he
      exact hk
    · rw [h.others hl] at he
      exact h.keys (sound.kept he)

/-! ## Copying -/

theorem openRead_of_file {p : PathText} {i : Nat} (h : s.stat? cwd p = .ok (loc, .file i)) :
    s.openRead cwd p = .ok (.file i) := by
  rw [openRead, h]
  rfl

/-- A regular file is copied by opening the destination, and then writing to what was opened. -/
theorem copyFile_eq {source : PathText} {i : Nat} (hr : s.openRead cwd source = .ok (.file i))
    (target : PathText) : s.copyFile cwd source target =
      (s.openWrite cwd target (s.inode i).mode).bind fun opened =>
        (opened.2.setMode opened.1 (s.inode i).mode).extend opened.1 (opened.2.inode i).data := by
  rw [copyFile, hr]
  rfl

/-- What is written to a destination that could be opened as a regular file: what the source holds once
the destination has been emptied. -/
theorem copyFile_eq_of_openWrite {source target : PathText} {i j : Nat}
    (hr : s.openRead cwd source = .ok (.file i))
    (hw : s.openWrite cwd target (s.inode i).mode = .ok (.file j, t)) (hj : (t.inode j).data = []) :
    s.copyFile cwd source target = .ok
      ((t.setInode j ⟨[], (s.inode i).mode⟩).setInode j ⟨(t.inode i).data, (s.inode i).mode⟩) := by
  have opened : t.setMode (.file j) (s.inode i).mode = t.setInode j ⟨[], (s.inode i).mode⟩ := by
    rw [setMode]
    dsimp only
    rw [hj]
  rw [copyFile_eq hr, hw]
  show (t.setMode (.file j) (s.inode i).mode).extend (.file j) (t.inode i).data = _
  rw [opened, extend, if_neg (by simp), append, inode_setInode_self]
  rfl

theorem copyFile_of_openWrite {source target : PathText} {i j : Nat}
    (hr : s.openRead cwd source = .ok (.file i))
    (hw : s.openWrite cwd target (s.inode i).mode = .ok (.file j, t)) (hj : (t.inode j).data = [])
    (written : Wrote s t loc file) (placed : t.entry? loc = some (.file j)) :
    ∃ u, s.copyFile cwd source target = .ok u ∧
      Wrote s u loc ⟨(t.inode i).data, (s.inode i).mode⟩ :=
  ⟨_, copyFile_eq_of_openWrite hr hw hj, (written.setInode placed _).setInode placed _⟩

theorem copyFile_of_lookup_error {source target : PathText} {i : Nat} {cause : IoError}
    (hs : s.stat? cwd source = .ok (loc, .file i)) (hl : s.lookup cwd .create target = .error cause) :
    s.copyFile cwd source target = .error cause := by
  rw [copyFile_eq (openRead_of_file hs), openWrite, hl]
  rfl

theorem copyFile_of_dir {source target : PathText} {i mode : Nat} {place : Location}
    (hs : s.stat? cwd source = .ok (loc, .file i))
    (hl : s.lookup cwd .create target = .ok (.entry place (.dir mode))) :
    s.copyFile cwd source target = .error (.os .isDirectory) := by
  rw [copyFile_eq (openRead_of_file hs), openWrite, hl]
  rfl

/-- A file copied to a free name is there with its contents and its mode. -/
theorem copyFile_of_vacant (sound : s.Sound cwd) {source target : PathText} {i : Nat} {dir : Location}
    {n : Name} (hs : s.stat? cwd source = .ok (loc, .file i))
    (hl : s.lookup cwd .create target = .ok (.vacant dir n)) :
    ∃ t, s.copyFile cwd source target = .ok t ∧ Wrote s t (dir ++ [n]) (s.inode i) := by
  have hw : s.openWrite cwd target (s.inode i).mode =
      .ok (.file s.freshInode, s.putFile (dir ++ [n]) ⟨[], s.masked (s.inode i).mode⟩) := by
    rw [openWrite, hl]
    rfl
  have other : i ≠ s.freshInode := sound.ne_fresh (entry_of_lookup (stat?_eq_ok_iff_lookup.1 hs) rfl)
  have fresh := inode_putFile s (dir ++ [n]) ⟨[], s.masked (s.inode i).mode⟩
  obtain ⟨u, hu, written⟩ := copyFile_of_openWrite (openRead_of_file hs) hw
    (by rw [fresh, if_pos rfl]) (wrote_putFile s _ _) (by rw [entry?_putFile, if_pos rfl])
  rw [fresh, if_neg other] at written
  exact ⟨u, hu, written⟩

/-- A file copied over another one replaces its contents and its mode; over itself, it empties it. -/
theorem copyFile_of_entry {source target : PathText} {i j : Nat} {place : Location}
    (hs : s.stat? cwd source = .ok (loc, .file i))
    (hl : s.lookup cwd .create target = .ok (.entry place (.file j)))
    (he : s.entry? place = some (.file j)) :
    ∃ t, s.copyFile cwd source target = .ok t ∧
      Wrote s t place ⟨if i = j then [] else (s.inode i).data, (s.inode i).mode⟩ := by
  have hw : s.openWrite cwd target (s.inode i).mode =
      .ok (.file j, s.setInode j { s.inode j with data := [] }) := by
    rw [openWrite, hl]
    rfl
  obtain ⟨u, hu, written⟩ := copyFile_of_openWrite (openRead_of_file hs) hw
    (by rw [inode_setInode_self]) (wrote_setInode he) he
  rw [inode_setInode] at written
  refine ⟨u, hu, ?_⟩
  split at written
  · next h => rwa [if_pos h]
  · next h => rwa [if_neg h]

/-- What is opened as a regular file is one. -/
theorem stat?_of_openRead {p : PathText} {i : Nat} (h : s.openRead cwd p = .ok (.file i)) :
    ∃ loc, s.stat? cwd p = .ok (loc, .file i) := by
  rw [openRead] at h
  cases hs : s.stat? cwd p with
  | error cause => rw [hs] at h; cases h
  | ok found =>
    obtain ⟨loc, e⟩ := found
    rw [hs] at h
    cases e with
    | file j => cases h; exact ⟨loc, rfl⟩
    | dir _ | link _ | fifo => cases h
    | device d => cases d <;> cases h

/-- A destination that is neither free nor a regular file is not changed by a copy. -/
theorem copyFile_of_other {source target : PathText} {i : Nat} {place : Location} {e : Entry}
    (hr : s.openRead cwd source = .ok (.file i))
    (hl : s.lookup cwd .create target = .ok (.entry place e)) (he : ∀ j, e ≠ .file j) :
    (∃ cause, s.copyFile cwd source target = .error cause) ∨ s.copyFile cwd source target = .ok s := by
  -- what is swallowed leaves no trace
  have swallowed : ∀ d, s.openWrite cwd target (s.inode i).mode = .ok (.device d, s) →
      (∃ cause, s.copyFile cwd source target = .error cause) ∨
        s.copyFile cwd source target = .ok s := by
    intro d hw
    have copied : s.copyFile cwd source target = s.extend (.device d) (s.inode i).data := by
      rw [copyFile_eq hr, hw]
      rfl
    rw [copied, extend]
    split
    · exact .inl ⟨_, rfl⟩
    · exact .inr rfl
  have failed : ∀ cause, s.openWrite cwd target (s.inode i).mode = .error cause →
      ∃ cause, s.copyFile cwd source target = .error cause := by
    intro cause hw
    refine ⟨cause, ?_⟩
    rw [copyFile_eq hr, hw]
    rfl
  rw [openWrite, hl] at swallowed failed
  cases e with
  | file j => exact absurd rfl (he j)
  | dir mode => exact .inl (failed _ rfl)
  | link target => exact swallowed .null rfl
  | fifo => exact swallowed .null rfl
  | device d =>
    cases d with
    | terminal => exact .inl (failed _ rfl)
    | null => exact swallowed .null rfl
    | zero => exact swallowed .zero rfl
    | full => exact swallowed .full rfl
    | descriptor n => exact swallowed (.descriptor n) rfl

/-- Whatever the source is, a copy writes a file where the destination leads to, or nothing. -/
theorem copyFile_cases (sound : s.Sound cwd) (source : PathText) {target : PathText}
    (placed : ∀ place e, s.lookup cwd .create target = .ok (.entry place e) → s.entry? place = some e) :
    (∃ cause, s.copyFile cwd source target = .error cause) ∨ s.copyFile cwd source target = .ok s ∨
      ∃ t place file, s.copyFile cwd source target = .ok t ∧ Wrote s t place file ∧
        ((∃ dir n, s.lookup cwd .create target = .ok (.vacant dir n) ∧ place = dir ++ [n]) ∨
          ∃ j, s.lookup cwd .create target = .ok (.entry place (.file j))) := by
  have failed : ∀ cause, s.openRead cwd source = .error cause →
      ∃ cause, s.copyFile cwd source target = .error cause := by
    intro cause hr
    refine ⟨cause, ?_⟩
    rw [copyFile, hr]
    rfl
  cases hr : s.openRead cwd source with
  | error cause => exact .inl (failed cause hr)
  | ok h =>
    cases h with
    | dir | device d =>
      refine .inl ⟨.refused
        "the source path is neither a regular file nor a symlink to a regular file", ?_⟩
      rw [copyFile, hr]
      rfl
    | file i =>
      obtain ⟨loc, hs⟩ := stat?_of_openRead hr
      cases hl : s.lookup cwd .create target with
      | error cause => exact .inl ⟨cause, copyFile_of_lookup_error hs hl⟩
      | ok place =>
        cases place with
        | vacant dir n =>
          obtain ⟨t, ht, written⟩ := copyFile_of_vacant sound hs hl
          exact .inr (.inr ⟨t, _, _, ht, written, .inl ⟨dir, n, rfl, rfl⟩⟩)
        | entry place e =>
          -- only a regular file is emptied and filled; a device takes what is written and stays as it is
          by_cases he : ∃ j, e = .file j
          · obtain ⟨j, rfl⟩ := he
            obtain ⟨t, ht, written⟩ := copyFile_of_entry hs hl (placed place _ hl)
            exact .inr (.inr ⟨t, _, _, ht, written, .inr ⟨j, rfl⟩⟩)
          · rw [not_exists] at he
            rcases copyFile_of_other hr hl he with hc | hc
            · exact .inl hc
            · exact .inr (.inl hc)

/-! ## Publishing -/

/-- The store `t` has the entries of `s`, and its files hold what they held. -/
structure Untouched (s t : Store) : Prop where
  umask : t.umask = s.umask
  entry : ∀ l, t.entry? l = s.entry? l
  inode : ∀ {j}, j ∈ s.inodes.keys → t.inode j = s.inode j
  keys : ∀ {j}, j ∈ s.inodes.keys → j ∈ t.inodes.keys

theorem Untouched.refl (s : Store) : Untouched s s := ⟨rfl, fun _ => rfl, fun _ => rfl, fun h => h⟩

variable {u : Store} {tmp dest dir : Location} {n : Name} {p : PathText}

/-- The store `t` is `s` with a new file at `loc`, in place of what stood there. -/
structure Replaced (s t : Store) (loc : Location) (file : Inode) : Prop extends Wrote s t loc file where
  old : ∀ {j}, j ∈ s.inodes.keys → t.inode j = s.inode j

/-- A new file that is moved to its destination is as if written there. -/
theorem Wrote.move (h : Wrote s u tmp file) (he : s.entry? tmp = none) {i : Nat}
    (hi : u.entry? tmp = some (.file i)) (dest : Location) :
    Replaced s ((u.take tmp).put dest (.file i)) dest file where
  umask := h.umask
  others := by
    intro l hl
    rw [entry?_put, if_neg hl, entry?_take]
    split
    · next ht => rw [ht, he]
    · next ht => exact h.others ht
  placed := by
    obtain ⟨j, hj, hf, hk, hold, hothers⟩ := h.placed
    obtain rfl : j = i := by cases hj.symm.trans hi; rfl
    refine ⟨j, by rw [entry?_put, if_pos rfl], hf, hk, .inl ?_, hothers⟩
    rcases hold with hold | hold
    · exact hold
    · cases he.symm.trans hold
  keys := fun hj => h.keys hj
  old := fun hj => h.inode_eq hj (by simp [he])

theorem Wrote.view (h : Wrote s t loc file) : t.view loc = some (.file file.data file.mode) := by
  obtain ⟨i, hi, hf, _⟩ := h.placed
  exact view_eq_file.2 ⟨i, hi, hf⟩

/-- A new file under one name leaves the other names of an old one alone. -/
theorem Replaced.view_eq (h : Replaced s t loc file)
    (kept : ∀ {l i}, s.entry? l = some (.file i) → i ∈ s.inodes.keys) {l : Location} (hl : l ≠ loc) :
    t.view l = s.view l :=
  view_congr (h.others hl) fun _ he => h.old (kept he)

theorem Replaced.same (h : Replaced s t loc file) (h' : Replaced s u loc file)
    (kept : ∀ {l i}, s.entry? l = some (.file i) → i ∈ s.inodes.keys) : Same t u := by
  intro l
  by_cases hl : l = loc
  · rw [hl, h.view, h'.view]
  · rw [h.view_eq kept hl, h'.view_eq kept hl]

/-- A new file that is removed again leaves no trace. -/
theorem Wrote.take (h : Wrote s u tmp file) (he : s.entry? tmp = none) : Untouched s (u.take tmp) where
  umask := h.umask
  entry := by
    intro l
    rw [entry?_take]
    split
    · next ht => rw [ht, he]
    · next ht => exact h.others ht
  inode := fun hj => h.inode_eq hj (by simp [he])
  keys := fun hj => h.keys hj

theorem Wrote.holdsDir_eq (h : Wrote s u tmp file) (he : s.entry? tmp = none) (l : Location) :
    u.holdsDir l = s.holdsDir l := by
  rw [holdsDir, holdsDir]
  by_cases ht : l = tmp
  · obtain ⟨i, hi, _⟩ := h.placed
    rw [ht, hi, he]
    rfl
  · rw [h.others ht]

theorem Wrote.keeps_new (h : Wrote s u tmp file) (he : s.entry? tmp = none) : Keeps s u :=
  h.keeps fun _ hs => absurd (he.symm.trans hs) (by simp)

/-- No lookup passes through a file. -/
theorem Wrote.kept_new (h : Wrote s u tmp file) : Keeps u s := by
  intro l e hu hp
  by_cases hl : l = tmp
  · obtain ⟨i, hi, _⟩ := h.placed
    rw [hl, hi] at hu
    cases hu
    cases hp
  · rwa [← h.others hl]

/-- A new file makes no difference to where a path is located. -/
theorem Wrote.locate_iff (h : Wrote s u tmp file) (he : s.entry? tmp = none) {slot : Slot} :
    u.locate cwd p = .ok slot ↔ s.locate cwd p = .ok slot :=
  ⟨fun hl => locate_mono hl h.kept_new, fun hl => locate_mono hl (h.keeps_new he)⟩

theorem moveFile_of_locate {e : Entry} (h0 : '\x00' ∉ p)
    (hl : u.locate cwd p = .ok { dir, name? := some n, slash := false }) (he : u.entry? tmp = some e) :
    u.moveFile tmp cwd p = if u.holdsDir (dir ++ [n]) then .error (.os .isDirectory)
      else .ok ((u.take tmp).put (dir ++ [n]) e) := by
  rw [moveFile, if_neg h0, hl, holdsDir]
  dsimp only [bind, Except.bind, pure, Except.pure]
  rw [if_neg Bool.false_ne_true, he]
  cases u.entry? (dir ++ [n]) with
  | none => rfl
  | some f => cases f <;> rfl

/-- What can be moved to a path is moved to the name that the path is located at. -/
theorem moveFile_cases (tmp cwd : Location) (p : PathText) :
    (∃ cause, u.moveFile tmp cwd p = .error cause) ∨
      ∃ dir n e, u.locate cwd p = .ok { dir, name? := some n, slash := false } ∧
        u.entry? tmp = some e ∧ u.holdsDir (dir ++ [n]) = false ∧
        u.moveFile tmp cwd p = .ok ((u.take tmp).put (dir ++ [n]) e) := by
  by_cases h0 : '\x00' ∈ p
  · refine .inl ⟨.os .invalidArgument, ?_⟩
    rw [moveFile, if_pos h0]
    rfl
  · cases hl : u.locate cwd p with
    | error cause =>
      refine .inl ⟨cause, ?_⟩
      rw [moveFile, if_neg h0, hl]
      rfl
    | ok slot =>
      obtain ⟨dir, name?, slash⟩ := slot
      cases name? with
      | none =>
        refine .inl ⟨.os .busy, ?_⟩
        rw [moveFile, if_neg h0, hl]
        rfl
      | some n =>
        cases slash with
        | true =>
          refine .inl ⟨.os .notDirectory, ?_⟩
          rw [moveFile, if_neg h0, hl]
          rfl
        | false =>
          cases he : u.entry? tmp with
          | none =>
            refine .inl ⟨.os .noEntry, ?_⟩
            rw [moveFile, if_neg h0, hl]
            dsimp only [bind, Except.bind, pure, Except.pure]
            rw [if_neg Bool.false_ne_true, he]
            rfl
          | some e =>
            -- only a directory in the way is left to refuse the move
            have moved := moveFile_of_locate h0 hl he
            cases hd : u.holdsDir (dir ++ [n]) with
            | true =>
              rw [hd, if_pos rfl] at moved
              exact .inl ⟨_, moved⟩
            | false =>
              rw [hd, if_neg Bool.false_ne_true] at moved
              exact .inr ⟨dir, n, e, rfl, rfl, hd, moved⟩

variable {pick : Location → Name}

/-- Publishing begins with a new file. -/
theorem beginAs_eq (pick : Location → Name) {path : PathText}
    (hp : Publication.scratchPath s cwd p = .ok path) :
    Publication.beginAs pick s cwd p =
      match s.locate cwd path with
      | .error cause => .error (.atPath cause path)
      | .ok slot => .ok (⟨slot.dir ++ [pick slot.dir], .file s.freshInode⟩,
          s.putFile (slot.dir ++ [pick slot.dir]) ⟨[], s.masked 0o666⟩) := by
  rw [Publication.beginAs, hp]
  dsimp only [bind, Except.bind]
  cases s.locate cwd path <;> rfl

/-- A publication can be begun where its temporary file is located, under whatever name. -/
theorem beginAs_eq_ok {pub : Publication} : Publication.beginAs pick s cwd p = .ok (pub, t) ↔
    ∃ path slot, Publication.scratchPath s cwd p = .ok path ∧ s.locate cwd path = .ok slot ∧
      pub = ⟨slot.dir ++ [pick slot.dir], .file s.freshInode⟩ ∧
      t = s.putFile pub.location ⟨[], s.masked 0o666⟩ := by
  cases hp : Publication.scratchPath s cwd p with
  | error cause => simp [Publication.beginAs, hp, bind, Except.bind]
  | ok path =>
    rw [beginAs_eq pick hp]
    cases hl : s.locate cwd path with
    | error cause => simp [hl]
    | ok slot =>
      constructor
      · rintro ⟨⟩
        exact ⟨path, slot, rfl, hl, rfl, rfl⟩
      · rintro ⟨_, _, ⟨⟩, hl', rfl, rfl⟩
        cases hl.symm.trans hl'
        rfl

/-- Publishing goes through a new file: it is moved to the destination, or removed again. -/
theorem publishAs_of_locate (free : ∀ dir, s.entry? (dir ++ [pick dir]) = none) (data : Bytes)
    {path : PathText} {slot : Slot} (hp : Publication.scratchPath s cwd p = .ok path)
    (hl : s.locate cwd path = .ok slot) :
    ∃ u tmp i, Wrote s u tmp ⟨data, s.masked 0o666⟩ ∧ s.entry? tmp = none ∧
      u.entry? tmp = some (.file i) ∧ publishAs pick s cwd p data =
        match u.moveFile tmp cwd p with
        | .ok t => (.ok (), t)
        | .error cause => (.error (.fileWrite p cause), u.take tmp) := by
  have free := free slot.dir
  generalize htmp : slot.dir ++ [pick slot.dir] = tmp at free
  have new := wrote_putFile s tmp ⟨[], s.masked 0o666⟩
  have there : Store.entry? (s.putFile tmp ⟨[], s.masked 0o666⟩) tmp = some (.file s.freshInode) := by
    rw [entry?_putFile, if_pos rfl]
  have drafted : Publication.write ⟨tmp, .file s.freshInode⟩ (s.putFile tmp ⟨[], s.masked 0o666⟩) data =
      (s.putFile tmp ⟨[], s.masked 0o666⟩).setInode s.freshInode ⟨data, s.masked 0o666⟩ := by
    rw [Publication.write, append, inode_putFile, if_pos rfl]
    rfl
  refine ⟨_, tmp, s.freshInode, new.setInode there ⟨data, s.masked 0o666⟩, free, there, ?_⟩
  rw [publishAs, beginAs_eq pick hp, hl]
  dsimp only
  rw [htmp, drafted]
  rfl

/-- Whatever the path is, publishing replaces the file that the path is located at, or leaves the store
as it was. -/
theorem publishAs_cases (free : ∀ dir, s.entry? (dir ++ [pick dir]) = none) (p : PathText) (data : Bytes) :
    (∃ cause t, publishAs pick s cwd p data = (.error (.fileWrite p cause), t) ∧ Untouched s t) ∨
      ∃ t dir n, publishAs pick s cwd p data = (.ok (), t) ∧
        s.locate cwd p = .ok { dir, name? := some n, slash := false } ∧
        s.holdsDir (dir ++ [n]) = false ∧ Replaced s t (dir ++ [n]) ⟨data, s.masked 0o666⟩ := by
  rw [publishAs]
  cases hb : Publication.beginAs pick s cwd p with
  | error cause => exact .inl ⟨cause, s, rfl, .refl s⟩
  | ok begun =>
    obtain ⟨pub, t⟩ := begun
    obtain ⟨path, slot, hp, hl, _⟩ := beginAs_eq_ok.1 hb
    obtain ⟨u, tmp, i, new, vacant, there, eq⟩ := publishAs_of_locate free data hp hl
    rw [publishAs, hb] at eq
    rw [eq]
    rcases u.moveFile_cases tmp cwd p with ⟨cause, hm⟩ | ⟨dir, n, e, hloc, he, hd, hm⟩
    · rw [hm]
      exact .inl ⟨cause, _, rfl, new.take vacant⟩
    · rw [hm]
      cases there.symm.trans he
      rw [new.holdsDir_eq vacant] at hd
      exact .inr ⟨_, dir, n, rfl, (new.locate_iff vacant).1 hloc, hd, new.move vacant there _⟩

/-- The first name that nothing has is as good as any other. -/
theorem publish_cases (p : PathText) (data : Bytes) :
    (∃ cause t, publish s cwd p data = (.error (.fileWrite p cause), t) ∧ Untouched s t) ∨
      ∃ t dir n, publish s cwd p data = (.ok (), t) ∧
        s.locate cwd p = .ok { dir, name? := some n, slash := false } ∧
        s.holdsDir (dir ++ [n]) = false ∧ Replaced s t (dir ++ [n]) ⟨data, s.masked 0o666⟩ :=
  publishAs_cases s.entry?_freeName p data

/-! ## Where no link is in the way -/

variable {a : Location} {way : List Name}

/-- What keeps a copy from its destination, once the directory above is there. -/
def copyFault (s : Store) (dest : Location) (p : PathText) : Option Errno :=
  if pathLimit ≤ Utf8.byteLength p then some .nameTooLong
  else if s.holdsDir dest then some .isDirectory
  else none

theorem not_holdsDir_of_copyFault {dest : Location} (h : s.copyFault dest p = none) :
    ¬s.holdsDir dest := by
  intro hd
  rw [copyFault, if_pos hd] at h
  split at h <;> cases h

/-- A copy fails for its fault, or has written the source's contents and mode. -/
theorem copyVerbatim_below (sound : s.Sound cwd) (approach : Approach s cwd p a (way ++ [n]))
    (free : LinkFree s a (way ++ [n])) (hh : s.hindrance a way = none)
    (hn : Utf8.byteLength n ≤ nameLimit) {source : PathText} {i : Nat}
    (hs : s.stat? cwd source = .ok (loc, .file i))
    (plain : ∀ e, s.entry? (a ++ way ++ [n]) = some e → e.isDir ∨ ∃ j, e = .file j ∧ i ≠ j) :
    match s.copyFault (a ++ way ++ [n]) p with
    | some e => copyVerbatim s cwd source p = (.error (.copy source p (.os e)), s)
    | none => ∃ t, copyVerbatim s cwd source p = (.ok (), t) ∧
        Wrote s t (a ++ way ++ [n]) (s.inode i) := by
  have lookup := approach.lookup_create_below free
  rw [copyFault]
  -- the faults come in the order in which a lookup meets them
  by_cases hl : pathLimit ≤ Utf8.byteLength p
  · rw [if_pos hl] at lookup ⊢
    dsimp only
    rw [copyVerbatim, copyFile_of_lookup_error hs lookup]
  · rw [if_neg hl, hh] at lookup
    dsimp only at lookup
    rw [if_neg (Nat.not_lt.2 hn)] at lookup
    rw [if_neg hl, holdsDir]
    cases he : s.entry? (a ++ way ++ [n]) with
    | none =>
      rw [he] at lookup
      obtain ⟨t, ht, written⟩ := copyFile_of_vacant sound hs lookup
      rw [if_neg (by simp)]
      refine ⟨t, ?_, written⟩
      rw [copyVerbatim, ht]
    | some e =>
      rw [he] at lookup
      rcases plain e he with hd | ⟨j, rfl, hne⟩
      · obtain ⟨mode, rfl⟩ : ∃ mode, e = .dir mode := by
          cases e with
          | dir mode => exact ⟨mode, rfl⟩
          | file _ | link _ | fifo | device _ => cases hd
        rw [if_pos (by simpa using hd)]
        dsimp only
        rw [copyVerbatim, copyFile_of_dir hs lookup]
      · obtain ⟨t, ht, written⟩ := copyFile_of_entry hs lookup he
        rw [if_neg hne] at written
        rw [if_neg (by simp [Entry.isDir])]
        refine ⟨t, ?_, written⟩
        rw [copyVerbatim, ht]

/-- The path of the temporary file for a path, written out. -/
def scratchText (cwd : Location) (p : PathText) : PathText :=
  let dir := Publication.directory p
  join (if isAbsolute dir then dir else join cwd.text dir) (Publication.temporaryName 0)

theorem scratchPath_eq (here : isAbsolute (Publication.directory p) = true ∨ s.holdsDir cwd) :
    Publication.scratchPath s cwd p = .ok (scratchText cwd p) := by
  rw [Publication.scratchPath, scratchText, cwdText?]
  dsimp only
  cases ha : isAbsolute (Publication.directory p) with
  | true => rfl
  | false =>
    rw [here.resolve_left (by rw [ha]; exact Bool.false_ne_true)]
    rfl

theorem scratchPath_eq_ok {path : PathText} : Publication.scratchPath s cwd p = .ok path ↔
    (isAbsolute (Publication.directory p) = true ∨ s.holdsDir cwd) ∧ path = scratchText cwd p := by
  constructor
  · intro h
    have here : isAbsolute (Publication.directory p) = true ∨ s.holdsDir cwd := by
      by_contra lost
      rw [not_or, Bool.not_eq_true, Bool.not_eq_true] at lost
      rw [Publication.scratchPath, cwdText?, lost.1, lost.2] at h
      cases h
    rw [scratchPath_eq here] at h
    exact ⟨here, (Except.ok.inj h).symm⟩
  · rintro ⟨here, rfl⟩
    exact scratchPath_eq here

theorem scratchPath_congr (here : t.holdsDir cwd = s.holdsDir cwd) (p : PathText) :
    Publication.scratchPath t cwd p = Publication.scratchPath s cwd p := by
  rw [Publication.scratchPath, Publication.scratchPath, cwdText?, cwdText?, here]

/-- What keeps a publication from its temporary file, once the directory above is there. -/
def scratchFault (s : Store) (cwd : Location) (p : PathText) : Option IoError :=
  match Publication.scratchPath s cwd p with
  | .error cause => some cause
  | .ok path => if pathLimit ≤ Utf8.byteLength path then some (.atPath (.os .nameTooLong) path) else none

/-- What keeps a publication from its destination, once the directory above is there. -/
def publishFault (s : Store) (cwd dest : Location) (p : PathText) : Option IoError :=
  match s.scratchFault cwd p with
  | some cause => some cause
  | none =>
    if pathLimit ≤ Utf8.byteLength p then some (.os .nameTooLong)
    else if s.holdsDir dest then some (.os .isDirectory)
    else none

theorem publishFault_congr {dest : Location} (here : t.holdsDir cwd = s.holdsDir cwd)
    (there : t.holdsDir dest = s.holdsDir dest) (p : PathText) :
    t.publishFault cwd dest p = s.publishFault cwd dest p := by
  rw [publishFault, publishFault, scratchFault, scratchFault, scratchPath_congr here, there]

theorem publishFault_eq_none {dest : Location} : s.publishFault cwd dest p = none ↔
    s.scratchFault cwd p = none ∧ Utf8.byteLength p < pathLimit ∧ ¬s.holdsDir dest := by
  rw [publishFault]
  cases s.scratchFault cwd p with
  | some cause => simp
  | none =>
    dsimp only
    split
    · next h => simp [Nat.not_lt.2 h]
    · next h =>
      split
      · next hd => simp [hd]
      · next hd => simp [Nat.not_le.1 h, hd]

/-- The temporary file goes where its path is located, unless there is a fault. -/
theorem locate_scratch {m : Name}
    (scratch : ∀ path, Publication.scratchPath s cwd p = .ok path → Approach s cwd path a (way ++ [m]))
    (free : LinkFree s a way) (hh : s.hindrance a way = none) (hm : Utf8.byteLength m ≤ nameLimit) :
    match s.scratchFault cwd p with
    | some cause => ∀ data, publish s cwd p data = (.error (.fileWrite p cause), s)
    | none => ∃ path slot, Publication.scratchPath s cwd p = .ok path ∧ s.locate cwd path = .ok slot := by
  rw [scratchFault]
  cases path : Publication.scratchPath s cwd p with
  | error cause =>
    intro data
    rw [publish, publishAs, Publication.beginAs, path]
    rfl
  | ok text =>
    have located := (scratch text path).locate_below free
    dsimp only
    by_cases hs : pathLimit ≤ Utf8.byteLength text
    · rw [if_pos hs] at located ⊢
      intro data
      rw [publish, publishAs, beginAs_eq _ path, located]
    · rw [if_neg hs, hh] at located
      dsimp only at located
      rw [if_neg (Nat.not_lt.2 hm)] at located
      rw [if_neg hs]
      exact ⟨text, _, rfl, located⟩

/-- Where the temporary file cannot be moved to its destination, a publication fails and leaves nothing
behind. -/
theorem publish_refused {m : Name} {cause : IoError}
    (scratch : ∀ path, Publication.scratchPath s cwd p = .ok path → Approach s cwd path a [m])
    (hm : Utf8.byteLength m ≤ nameLimit)
    (refused : ∀ u tmp, Keeps s u → (∀ slot, s.locate cwd p = .ok slot → u.locate cwd p = .ok slot) →
      u.moveFile tmp cwd p = .error cause) (data : Bytes) :
    ∃ t, publish s cwd p data = (.error (.fileWrite p ((s.scratchFault cwd p).getD cause)), t) ∧
      Untouched s t := by
  have located := @locate_scratch s cwd p a [] m scratch (.nil s a) rfl hm
  cases fault : s.scratchFault cwd p with
  | some cause' =>
    rw [fault] at located
    exact ⟨s, located data, .refl s⟩
  | none =>
    rw [fault] at located
    obtain ⟨path, slot, path_eq, located⟩ := located
    obtain ⟨u, tmp, i, new, vacant, there, eq⟩ :=
      publishAs_of_locate s.entry?_freeName data path_eq located
    rw [publish, eq, refused u tmp (new.keeps_new vacant) fun slot => (new.locate_iff vacant).2]
    exact ⟨_, rfl, new.take vacant⟩

/-- A publication fails for its fault, and leaves nothing behind, or has written the new contents. -/
theorem publish_below (approach : Approach s cwd p a (way ++ [n]))
    (free : LinkFree s a way) (hh : s.hindrance a way = none) (hn : Utf8.byteLength n ≤ nameLimit)
    (scratch : ∀ path, Publication.scratchPath s cwd p = .ok path →
      Approach s cwd path a (way ++ [Publication.temporaryName 0]))
    (data : Bytes) :
    match s.publishFault cwd (a ++ way ++ [n]) p with
    | some cause => ∃ t, publish s cwd p data = (.error (.fileWrite p cause), t) ∧ Untouched s t
    | none => ∃ t, publish s cwd p data = (.ok (), t) ∧
        Wrote s t (a ++ way ++ [n]) ⟨data, s.masked 0o666⟩ := by
  have located := locate_scratch scratch free hh (by decide)
  have target := approach.locate_below free
  rw [publishFault]
  cases fault : s.scratchFault cwd p with
  | some cause =>
    rw [fault] at located
    exact ⟨s, located data, .refl s⟩
  | none =>
    rw [fault] at located
    obtain ⟨path, slot, path_eq, located⟩ := located
    obtain ⟨u, tmp, i, new, vacant, there, eq⟩ :=
      publishAs_of_locate s.entry?_freeName data path_eq located
    dsimp only
    rw [publish, eq]
    -- the temporary file is there; what fails from here on takes it away again
    by_cases hl : pathLimit ≤ Utf8.byteLength p
    · have failed : u.moveFile tmp cwd p = .error (.os .nameTooLong) := by
        have hc := checkText_eq approach.no_nul (approach.ne_nil (List.concat_ne_nil n way))
        rw [if_pos hl] at hc
        rw [moveFile, if_neg approach.no_nul, locate, hc]
        rfl
      rw [if_pos hl, failed]
      exact ⟨_, rfl, new.take vacant⟩
    · rw [if_neg hl, hh] at target
      dsimp only at target
      rw [if_neg (Nat.not_lt.2 hn)] at target
      have moved := moveFile_of_locate approach.no_nul
        ((new.locate_iff vacant).2 target) there
      rw [new.holdsDir_eq vacant] at moved
      rw [if_neg hl]
      cases hd : s.holdsDir (a ++ way ++ [n]) with
      | true =>
        rw [hd, if_pos rfl] at moved
        rw [if_pos rfl, moved]
        exact ⟨_, rfl, new.take vacant⟩
      | false =>
        rw [hd, if_neg Bool.false_ne_true] at moved
        rw [if_neg Bool.false_ne_true, moved]
        exact ⟨_, rfl, (new.move vacant there _).toWrote⟩

end Store

end LuaTree
