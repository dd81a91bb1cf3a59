import LuaTree.Proofs.Convert.Writes
import LuaTree.Proofs.Store.Reaches

/-!
# Copies

A copy opens its destination, which empties it, and only then reads its source. So it is faithful exactly
when the two paths do not lead to one file, be it by the same name, by a link or under another name of the
file: then both read afterwards as the source did (`copyVerbatim_reads`). Where they do lead to one file,
what it held is gone.

`Opened` says what opening a destination leaves behind, whether the file is new or was there.
-/

namespace LuaTree

namespace Store

variable {s t u : Store} {cwd loc : Location} {p q : PathText} {i j mode : Nat} {data : Bytes}

/-! ## Reading -/

/-- Opened for reading, a path gives these bytes and no more. -/
def Reads (s : Store) (cwd : Location) (p : PathText) (data : Bytes) : Prop :=
  ∃ h, s.openRead cwd p = .ok h ∧ ∀ n, s.readUpTo n h = .ok (data.take n)

theorem reads_of_file (h : s.stat? cwd p = .ok (loc, .file i)) : s.Reads cwd p (s.inode i).data :=
  ⟨.file i, openRead_of_file h, fun _ => rfl⟩

/-- A path reads as one sequence of bytes. -/
theorem Reads.unique {data' : Bytes} (h : s.Reads cwd p data) (h' : s.Reads cwd p data') :
    data = data' := by
  obtain ⟨f, hf, hr⟩ := h
  obtain ⟨f', hf', hr'⟩ := h'
  cases hf.symm.trans hf'
  have same : ∀ n, data.take n = data'.take n := by
    intro n
    have := (hr n).symm.trans (hr' n)
    simpa using this
  have long := same (max data.length data'.length)
  rwa [List.take_of_length_le (Nat.le_max_left _ _), List.take_of_length_le (Nat.le_max_right _ _)]
    at long

/-- Two paths lead to one regular file. -/
def SameFile (s : Store) (cwd : Location) (p q : PathText) : Prop :=
  ∃ a b i, s.stat? cwd p = .ok (a, .file i) ∧ s.stat? cwd q = .ok (b, .file i)

/-! ## Opening a destination -/

/-- The store `t` is `s` with the file `j`, to which `p` leads, opened for writing from its start. -/
structure Opened (s t : Store) (cwd : Location) (p : PathText) (j : Nat) : Prop where
  gains : Gains s t
  emptied : (t.inode j).data = []
  others : ∀ k, k ≠ j → t.inode k = s.inode k
  there : ∃ loc, t.stat? cwd p = .ok (loc, .file j)
  old : j = s.freshInode ∨ ∃ loc, s.stat? cwd p = .ok (loc, .file j)

theorem openWrite_of_lookup (s : Store) (cwd : Location) (p : PathText) (mode : Nat) :
    s.openWrite cwd p mode = (s.lookup cwd .create p).bind fun place =>
      match place with
      | .vacant dir n => .ok (.file s.freshInode, s.putFile (dir ++ [n]) ⟨[], s.masked mode⟩)
      | .entry _ (.file i) => .ok (.file i, s.setInode i { s.inode i with data := [] })
      | .entry _ (.dir _) => .error (.os .isDirectory)
      | .entry _ (.device .terminal) => .error (.os .noDevice)
      | .entry _ (.device d) => .ok (.device d, s)
      | .entry _ _ => .ok (.device .null, s) := rfl

/-- A regular file that could be opened for writing is empty, and no other file has changed. -/
theorem opened_of_openWrite (h : s.openWrite cwd p mode = .ok (.file j, t)) : Opened s t cwd p j := by
  rw [openWrite_of_lookup] at h
  cases hl : s.lookup cwd .create p with
  | error cause =>
    rw [hl] at h
    cases h
  | ok place =>
    rw [hl] at h
    -- a free name gets a new file, a file that is there is emptied, and the rest is no regular file
    cases place with
    | vacant dir n =>
      cases h
      have free := free_of_lookup hl
      have gains : Gains s (s.putFile (dir ++ [n]) ⟨[], s.masked mode⟩) := by
        intro l e he
        rw [entry?_putFile, if_neg]
        · exact he
        · rintro rfl
          cases free.symm.trans he
      have new : Store.entry? (s.putFile (dir ++ [n]) ⟨[], s.masked mode⟩) (dir ++ [n]) =
          some (.file s.freshInode) := by rw [entry?_putFile, if_pos rfl]
      refine ⟨gains, by rw [inode_putFile, if_pos rfl], fun k hk => by rw [inode_putFile, if_neg hk],
        ⟨dir ++ [n], ?_⟩, .inl rfl⟩
      refine stat?_eq_ok_iff_lookup.2 (lookup_settle (.file s.freshInode) hl (by simp) gains rfl
        (by simp) ?_)
      intro d m heq
      cases heq
      exact new
    | entry place e =>
      cases e with
      | file i =>
        cases h
        have there : s.stat? cwd p = .ok (place, .file j) :=
          stat?_eq_ok_iff_lookup.2 (lookup_settle .fifo hl (by simp) (.refl s) rfl
            (by rintro b e heq; cases heq; rfl) (by simp))
        refine ⟨.refl s, by rw [inode_setInode_self], fun k hk => by rw [inode_setInode, if_neg hk],
          ⟨place, there⟩, .inr ⟨place, there⟩⟩
      | device d => cases d <;> cases h
      | dir _ | link _ | fifo => cases h

/-- What could be opened for writing and is no regular file is neither a file nor a directory. -/
theorem stat?_of_openWrite_device {d : Device} (h : s.openWrite cwd p mode = .ok (.device d, t)) :
    ∃ loc e, s.stat? cwd p = .ok (loc, e) ∧ e.isDir = false ∧ e.isFile = false := by
  rw [openWrite_of_lookup] at h
  cases hl : s.lookup cwd .create p with
  | error cause =>
    rw [hl] at h
    cases h
  | ok place =>
    rw [hl] at h
    cases place with
    | vacant dir n => cases h
    | entry place e =>
      have there : e.isDir = false → s.stat? cwd p = .ok (place, e) := fun he =>
        stat?_eq_ok_iff_lookup.2 (lookup_settle .fifo hl (by simp) (.refl s) rfl
          (by rintro b f heq; cases heq; exact he) (by simp))
      cases e with
      | dir _ | file _ => cases h
      | link _ | fifo | device _ => exact ⟨place, _, there rfl, rfl, rfl⟩

theorem not_dir_of_openWrite : s.openWrite cwd p mode ≠ .ok (.dir, t) := by
  intro h
  rw [openWrite_of_lookup] at h
  cases hl : s.lookup cwd .create p with
  | error cause =>
    rw [hl] at h
    cases h
  | ok place =>
    rw [hl] at h
    cases place with
    | vacant dir n => cases h
    | entry place e =>
      cases e with
      | device d => cases d <;> cases h
      | file _ | dir _ | link _ | fifo => cases h

/-! ## Copying -/

/-- A copy that succeeds has a regular file as its source, and has opened its destination. -/
theorem exists_opened_of_copyFile (h : s.copyFile cwd p q = .ok u)
    (plain : ∀ loc e, s.stat? cwd q = .ok (loc, e) → e.isDir ∨ e.isFile) :
    ∃ loc i j t, s.stat? cwd p = .ok (loc, .file i) ∧ Opened s t cwd q j ∧
      u = (t.setInode j ⟨[], (s.inode i).mode⟩).setInode j ⟨(t.inode i).data, (s.inode i).mode⟩ := by
  cases hr : s.openRead cwd p with
  | error cause =>
    rw [copyFile, hr] at h
    cases h
  | ok f =>
    cases f with
    | dir | device _ =>
      rw [copyFile, hr] at h
      cases h
    | file i =>
      obtain ⟨loc, hs⟩ := stat?_of_openRead hr
      have copied := h
      rw [copyFile_eq hr] at h
      cases hw : s.openWrite cwd q (s.inode i).mode with
      | error cause =>
        rw [hw] at h
        cases h
      | ok found =>
        obtain ⟨f, t⟩ := found
        cases f with
        | file j =>
          have opened := opened_of_openWrite hw
          rw [copyFile_eq_of_openWrite hr hw opened.emptied] at copied
          cases copied
          exact ⟨loc, i, j, t, hs, opened, rfl⟩
        | dir => exact absurd hw not_dir_of_openWrite
        | device d =>
          obtain ⟨loc, e, he, hd, hf⟩ := stat?_of_openWrite_device hw
          rcases plain loc e he with h' | h'
          · rw [hd] at h'
            cases h'
          · rw [hf] at h'
            cases h'

/-- A path that led to a file leads there while a destination is open. -/
theorem Opened.still (h : Opened s t cwd q j) (hs : s.stat? cwd p = .ok (loc, .file i)) :
    t.stat? cwd p = .ok (loc, .file i) :=
  stat?_eq_ok_iff_lookup.2 (lookup_settle .fifo (stat?_eq_ok_iff_lookup.1 hs) (by simp) h.gains rfl
    (by rintro b e heq; cases heq; rfl) (by simp))

/-- The file that was opened is that of another path just if it had both names before. -/
theorem Opened.sameFile_iff (h : Opened s t cwd q j)
    (kept : ∀ loc i, s.entry? loc = some (.file i) → i ∈ s.inodes.keys)
    (hs : s.stat? cwd p = .ok (loc, .file i)) : s.SameFile cwd p q ↔ i = j := by
  obtain ⟨loc', ht⟩ := h.there
  constructor
  · rintro ⟨a, b, k, ha, hb⟩
    cases hs.symm.trans ha
    cases ht.symm.trans (h.still hb)
    rfl
  · rintro rfl
    rcases h.old with rfl | ⟨b, hb⟩
    · have there : s.entry? loc = some (.file s.freshInode) :=
        entry_of_lookup (stat?_eq_ok_iff_lookup.1 hs) rfl
      exact absurd (kept _ _ there) s.freshInode_not_mem
    · exact ⟨loc, b, i, hs, hb⟩

/-- After a copy both paths read as the source did, unless they lead to one file: then both read as nothing,
whatever the file held. -/
theorem copyVerbatim_reads {source target : PathText}
    (kept : ∀ loc i, s.entry? loc = some (.file i) → i ∈ s.inodes.keys)
    (plain : ∀ loc e, s.stat? cwd target = .ok (loc, e) → e.isDir ∨ e.isFile)
    (copied : copyVerbatim s cwd source target = (.ok (), t)) :
    ∃ data, s.Reads cwd source data ∧
      (¬s.SameFile cwd source target → t.Reads cwd target data ∧ t.Reads cwd source data) ∧
      (s.SameFile cwd source target → t.Reads cwd target [] ∧ t.Reads cwd source []) := by
  have ok : s.copyFile cwd source target = .ok t := by
    rw [copyVerbatim] at copied
    split at copied
    · next h =>
      cases copied
      exact h
    · cases copied
  obtain ⟨loc, i, j, v, hs, opened, rfl⟩ := exists_opened_of_copyFile ok plain
  obtain ⟨loc', ht⟩ := opened.there
  have one := opened.sameFile_iff kept hs
  -- from here on only contents change
  generalize hu : (v.setInode j ⟨[], (s.inode i).mode⟩).setInode j ⟨(v.inode i).data, (s.inode i).mode⟩ = u
  have source_leads : u.stat? cwd source = .ok (loc, .file i) := hu ▸ opened.still hs
  have target_leads : u.stat? cwd target = .ok (loc', .file j) := hu ▸ ht
  have written : (u.inode j).data = (v.inode i).data := by rw [← hu, inode_setInode_self]
  have others : i ≠ j → u.inode i = v.inode i := by
    intro hne
    rw [← hu, inode_setInode, if_neg hne, inode_setInode, if_neg hne]
  refine ⟨(s.inode i).data, reads_of_file hs, fun apart => ?_, fun same => ?_⟩
  · have hne : i ≠ j := fun h => apart (one.2 h)
    have target_reads := reads_of_file target_leads
    have source_reads := reads_of_file source_leads
    rw [written, opened.others i hne] at target_reads
    rw [others hne, opened.others i hne] at source_reads
    exact ⟨target_reads, source_reads⟩
  · obtain rfl := one.1 same
    have target_reads := reads_of_file target_leads
    have source_reads := reads_of_file source_leads
    rw [written, opened.emptied] at target_reads source_reads
    exact ⟨target_reads, source_reads⟩

/-- Two files, one of them under three names: its own, a hard link and a symbolic link. -/
def namedTwice : Store :=
  (((empty.putFile [['f']] ⟨[7], 0o644⟩).put [['h']] (.file 1)).put [['l']] (.link ['f'])).putFile [['g']]
    ⟨[8, 9], 0o600⟩

theorem copyVerbatim_reads_namedTwice :
    (∀ loc i, namedTwice.entry? loc = some (.file i) → i ∈ namedTwice.inodes.keys) ∧
    (∀ loc e, namedTwice.stat? [] ['l'] = .ok (loc, e) → e.isDir ∨ e.isFile) ∧
    ∃ t, copyVerbatim namedTwice [] ['g'] ['l'] = (.ok (), t) ∧
      ∃ data, namedTwice.Reads [] ['g'] data ∧
        (¬namedTwice.SameFile [] ['g'] ['l'] → t.Reads [] ['l'] data ∧ t.Reads [] ['g'] data) ∧
        (namedTwice.SameFile [] ['g'] ['l'] → t.Reads [] ['l'] [] ∧ t.Reads [] ['g'] []) := by
  have sound : namedTwice.Sound [] := .of_admits (by decide) (by decide) (by decide)
  have kept : ∀ loc i, namedTwice.entry? loc = some (.file i) → i ∈ namedTwice.inodes.keys :=
    fun _ _ he => sound.kept he
  have leads : namedTwice.stat? [] ['l'] = .ok ([['f']], .file 1) := by decide
  have plain : ∀ loc e, namedTwice.stat? [] ['l'] = .ok (loc, e) → e.isDir ∨ e.isFile := by
    intro loc e h
    cases leads.symm.trans h
    exact .inr rfl
  have copied : copyVerbatim namedTwice [] ['g'] ['l'] =
      (.ok (), (copyVerbatim namedTwice [] ['g'] ['l']).2) := rfl
  exact ⟨kept, plain, _, copied, copyVerbatim_reads kept plain copied⟩

/-- A file that is copied onto itself loses its contents: the copy succeeds, and what read as one byte
reads as nothing. -/
theorem emptied_by_copy : ∃ t, copyVerbatim namedTwice [] ['f'] ['f'] = (.ok (), t) ∧
    namedTwice.Reads [] ['f'] [7] ∧ ¬t.Reads [] ['f'] [7] := by
  have before : namedTwice.stat? [] ['f'] = .ok ([['f']], .file 1) := by decide
  have copied : copyVerbatim namedTwice [] ['f'] ['f'] =
      (.ok (), (copyVerbatim namedTwice [] ['f'] ['f']).2) := rfl
  have after : (copyVerbatim namedTwice [] ['f'] ['f']).2.stat? [] ['f'] = .ok ([['f']], .file 1) ∧
      ((copyVerbatim namedTwice [] ['f'] ['f']).2.inode 1).data = [] := by decide
  obtain ⟨leads, empty⟩ := after
  have nothing := reads_of_file leads
  rw [empty] at nothing
  refine ⟨_, copied, reads_of_file before, fun still => ?_⟩
  cases still.unique nothing

end Store

end LuaTree
