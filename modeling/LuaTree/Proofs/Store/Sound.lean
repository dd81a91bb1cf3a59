import LuaTree.Proofs.Path.Join
import LuaTree.Store.Update
import Mathlib.Data.List.Basic

/-!
# Sound stores

A `Store` is a tree and a table of contents, and not every such pair is one that a file system can be
in. `Sound` says which are: entries stand in directories (`Rooted`) and have lawful names, files have
contents, and the process that looks on is in a directory or in one that has been removed (`Removed`).

Beside it stand the views of the elementary updates, and `Sound.mono`: an update that keeps directories
and adds lawful names in them keeps a store sound.
-/

namespace LuaTree

/-- A name that a directory entry can have. -/
structure Lawful (n : Name) : Prop extends PathText.IsName n where
  no_nul : '\x00' ∉ n
  short : Utf8.byteLength n ≤ Store.nameLimit

namespace Store

/-- A store in which every entry stands in a directory. -/
structure Rooted (s : Store) : Prop where
  root : s.holdsDir []
  parent : ∀ {loc n e}, s.entry? (loc ++ [n]) = some e → s.holdsDir loc

/-- A store in which every entry stands in a directory and has a lawful name. -/
structure WellNamed (s : Store) : Prop extends Rooted s where
  lawful : ∀ {loc n e}, s.entry? (loc ++ [n]) = some e → Lawful n

/-- The location of a directory that has been removed: in a directory that is there, it goes on by a name
that no entry can have. So nothing can come to stand there again, whatever is created under its old name. -/
def Removed (s : Store) (loc : Location) : Prop :=
  ∃ front n rest, loc = front ++ n :: rest ∧ s.holdsDir front ∧ ¬Lawful n

/-- A store as a process that runs in `cwd` can meet it. -/
structure Sound (s : Store) (cwd : Location) : Prop extends Rooted s where
  lawful : ∀ {loc n e}, s.entry? (loc ++ [n]) = some e → Lawful n
  kept : ∀ {loc i}, s.entry? loc = some (.file i) → i ∈ s.inodes.keys
  here : s.holdsDir cwd ∨ s.Removed cwd

theorem holdsDir_iff {s : Store} {loc : Location} :
    s.holdsDir loc ↔ ∃ mode, s.entry? loc = some (.dir mode) := by
  unfold holdsDir
  cases he : s.entry? loc with
  | none => simp
  | some e => cases e <;> simp [Entry.isDir]

theorem holdsDir_of_entry {s : Store} {loc : Location} {mode : Nat}
    (h : s.entry? loc = some (.dir mode)) : s.holdsDir loc :=
  holdsDir_iff.2 ⟨mode, h⟩

/-! ## Views -/

/-- What stands at a location depends on the entry there and on its contents only. -/
theorem view_congr {s t : Store} {loc : Location} (he : t.entry? loc = s.entry? loc)
    (hi : ∀ i, s.entry? loc = some (.file i) → t.inode i = s.inode i) :
    t.view loc = s.view loc := by
  unfold view
  rw [he]
  cases h : s.entry? loc with
  | none => rfl
  | some e =>
    cases e with
    | file i => simp only [Option.map_some, hi i h]
    | dir _ | link _ | fifo | device _ => rfl

theorem view_eq_none {s : Store} {loc : Location} : s.view loc = none ↔ s.entry? loc = none := by
  rw [view, Option.map_eq_none_iff]

theorem view_eq_dir {s : Store} {loc : Location} {mode : Nat} :
    s.view loc = some (.dir mode) ↔ s.entry? loc = some (.dir mode) := by
  unfold view
  cases s.entry? loc with
  | none => simp
  | some e => cases e <;> simp

theorem view_eq_file {s : Store} {loc : Location} {data : Bytes} {mode : Nat} :
    s.view loc = some (.file data mode) ↔
      ∃ i, s.entry? loc = some (.file i) ∧ s.inode i = ⟨data, mode⟩ := by
  unfold view
  cases s.entry? loc with
  | none => simp
  | some e =>
    cases e with
    | file i =>
      simp only [Option.map_some, Option.some.injEq, View.file.injEq, Entry.file.injEq,
        exists_eq_left']
      constructor
      · rintro ⟨rfl, rfl⟩
        rfl
      · intro h
        rw [h]
        exact ⟨rfl, rfl⟩
    | dir _ | link _ | fifo | device _ => simp

/-! ## What the elementary updates do -/

theorem entry?_put (s : Store) (loc : Location) (e : Entry) (l : Location) :
    Store.entry? (s.put loc e) l = if l = loc then some e else s.entry? l :=
  Tree.get?_put s.tree loc e l

theorem entry?_take (s : Store) (loc l : Location) :
    Store.entry? (s.take loc) l = if l = loc then none else s.entry? l :=
  Tree.get?_take s.tree loc l

theorem inode_setInode (s : Store) (i : Nat) (file : Inode) (j : Nat) :
    (s.setInode i file).inode j = if j = i then file else s.inode j := by
  unfold inode setInode
  rw [FiniteMap.get?_insert]
  split <;> rfl

@[simp] theorem inode_setInode_self (s : Store) (i : Nat) (file : Inode) :
    (s.setInode i file).inode i = file := by
  rw [inode_setInode, if_pos rfl]

theorem mem_keys_setInode (s : Store) (i : Nat) (file : Inode) (j : Nat) :
    j ∈ (s.setInode i file).inodes.keys ↔ j = i ∨ j ∈ s.inodes.keys := by
  rw [FiniteMap.mem_keys, FiniteMap.mem_keys, setInode, FiniteMap.get?_insert]
  by_cases h : j = i <;> simp [h]

theorem entry?_putFile (s : Store) (loc : Location) (file : Inode) (l : Location) :
    Store.entry? (s.putFile loc file) l = if l = loc then some (.file s.freshInode) else s.entry? l :=
  entry?_put _ loc _ l

theorem inode_putFile (s : Store) (loc : Location) (file : Inode) (j : Nat) :
    (s.putFile loc file).inode j = if j = s.freshInode then file else s.inode j :=
  inode_setInode s s.freshInode file j

theorem le_foldl_max (ks : List Nat) (m : Nat) : m ≤ ks.foldl max m := by
  induction ks generalizing m with
  | nil => exact Nat.le_refl m
  | cons k ks ih => exact Nat.le_trans (Nat.le_max_left m k) (ih (max m k))

theorem le_foldl_max_of_mem {ks : List Nat} {k : Nat} (h : k ∈ ks) (m : Nat) :
    k ≤ ks.foldl max m := by
  induction ks generalizing m with
  | nil => cases h
  | cons j ks ih =>
    rcases List.mem_cons.1 h with rfl | h
    · exact Nat.le_trans (Nat.le_max_right m k) (le_foldl_max ks (max m k))
    · exact ih h (max m j)

/-- No file is kept under the number that a new one gets. -/
theorem freshInode_not_mem (s : Store) : s.freshInode ∉ s.inodes.keys := by
  intro h
  have := le_foldl_max_of_mem h 0
  unfold freshInode at this
  omega

namespace Rooted

variable {s : Store}

/-- What stands below a location stands in a directory there. -/
theorem holdsDir_of_below (h : s.Rooted) {loc : Location} {way : List Name} {e : Entry}
    (hne : way ≠ []) (he : s.entry? (loc ++ way) = some e) : s.holdsDir loc := by
  induction way generalizing loc with
  | nil => exact absurd rfl hne
  | cons n way ih =>
    rw [List.append_cons] at he
    by_cases hw : way = []
    · subst hw
      rw [List.append_nil] at he
      exact h.parent he
    · obtain ⟨mode, hd⟩ := holdsDir_iff.1 (ih hw he)
      exact h.parent hd

/-- Below a location where nothing stands there is nothing. -/
theorem nothing_below (h : s.Rooted) {loc : Location} (he : s.entry? loc = none) (way : List Name) :
    Store.entry? s (loc ++ way) = none := by
  by_cases hw : way = []
  · rwa [hw, List.append_nil]
  · cases hb : s.entry? (loc ++ way) with
    | none => rfl
    | some e =>
      obtain ⟨mode, hd⟩ := holdsDir_iff.1 (h.holdsDir_of_below hw hb)
      cases he.symm.trans hd

/-- Above a directory there are only directories. -/
theorem holdsDir_dropLast (h : s.Rooted) {loc : Location} (hd : s.holdsDir loc) :
    s.holdsDir loc.dropLast := by
  rcases List.eq_nil_or_concat' loc with rfl | ⟨front, n, rfl⟩
  · exact hd
  · obtain ⟨mode, he⟩ := holdsDir_iff.1 hd
    rw [List.dropLast_concat]
    exact h.parent he

end Rooted

/-- Every name on the way to an entry is lawful. -/
theorem WellNamed.lawful_of_mem {s : Store} (h : s.WellNamed) {loc : Location} {way : List Name}
    {e : Entry} (he : s.entry? (loc ++ way) = some e) : ∀ n ∈ way, Lawful n := by
  induction way generalizing loc with
  | nil => exact fun n hn => absurd hn List.not_mem_nil
  | cons m way ih =>
    rw [List.append_cons] at he
    intro n hn
    rcases List.mem_cons.1 hn with rfl | hn
    · by_cases hw : way = []
      · subst hw
        rw [List.append_nil] at he
        exact h.lawful he
      · obtain ⟨mode, hd⟩ := holdsDir_iff.1 (h.holdsDir_of_below hw he)
        exact h.lawful hd
    · exact ih he n hn

/-- Nothing stands where a directory has been removed, nor below. -/
theorem WellNamed.nothing_at_removed {s t : Store} (h : t.WellNamed) {loc : Location}
    (gone : s.Removed loc) (way : List Name) : t.entry? (loc ++ way) = none := by
  obtain ⟨front, n, rest, rfl, _, unlawful⟩ := gone
  rw [Option.eq_none_iff_forall_ne_some, List.append_assoc, List.cons_append]
  intro e he
  exact unlawful (h.lawful_of_mem he n List.mem_cons_self)

theorem WellNamed.holdsDir_of_removed {s t : Store} (h : t.WellNamed) {loc : Location}
    (gone : s.Removed loc) : t.holdsDir loc = false := by
  have nothing := h.nothing_at_removed gone []
  rw [List.append_nil] at nothing
  rw [holdsDir, nothing]
  rfl

namespace Sound

variable {s t : Store} {cwd : Location}

theorem ne_fresh (h : s.Sound cwd) {loc : Location} {i : Nat}
    (he : s.entry? loc = some (.file i)) : i ≠ s.freshInode := by
  rintro rfl
  exact s.freshInode_not_mem (h.kept he)

theorem wellNamed (h : s.Sound cwd) : s.WellNamed := ⟨h.toRooted, h.lawful⟩

theorem lawful_of_mem (h : s.Sound cwd) {loc : Location} {way : List Name} {e : Entry}
    (he : s.entry? (loc ++ way) = some e) : ∀ n ∈ way, Lawful n := h.wellNamed.lawful_of_mem he

/-- An update that keeps directories, and adds lawful names in directories, keeps a store sound. -/
theorem mono (h : s.Sound cwd) (dirs : ∀ loc, s.holdsDir loc → t.holdsDir loc)
    (new : ∀ loc n e, t.entry? (loc ++ [n]) = some e →
      (∃ e', s.entry? (loc ++ [n]) = some e') ∨ t.holdsDir loc ∧ Lawful n)
    (kept : ∀ loc i, t.entry? loc = some (.file i) → i ∈ t.inodes.keys) : t.Sound cwd where
  root := dirs [] h.root
  parent := by
    intro loc n e he
    rcases new loc n e he with ⟨e', hs⟩ | ⟨hd, _⟩
    · exact dirs loc (h.parent hs)
    · exact hd
  lawful := by
    intro loc n e he
    rcases new loc n e he with ⟨e', hs⟩ | ⟨_, hn⟩
    · exact h.lawful hs
    · exact hn
  kept := fun he => kept _ _ he
  here := by
    refine h.here.imp (dirs cwd) ?_
    rintro ⟨front, n, rest, rfl, above, unlawful⟩
    exact ⟨front, n, rest, rfl, dirs front above, unlawful⟩

/-- A working directory is neither created nor removed by what keeps directories. -/
theorem holdsDir_cwd_eq (h : s.Sound cwd) (h' : t.WellNamed)
    (dirs : ∀ loc, s.holdsDir loc → t.holdsDir loc) : t.holdsDir cwd = s.holdsDir cwd := by
  rcases h.here with here | gone
  · rw [here, dirs cwd here]
  · rw [h'.holdsDir_of_removed gone, h.wellNamed.holdsDir_of_removed gone]

end Sound

end Store

end LuaTree
