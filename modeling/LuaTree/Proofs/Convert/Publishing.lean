import LuaTree.Proofs.Convert.Copying

/-!
# Publications

A publication replaces the name that its path designates, whatever that name led to, or it leaves every
location as it was (`publish_allOrNothing`). What had been written under a link or under another name of
the same file stays there, for what is published is always a new file.

Where the path leads afterwards is another question: a way over a link that has been replaced is gone
(`published_out_of_sight`). `Published` says that whoever looks the path up finds the new file or nothing,
and that the file is found just where the way to it did not lead over what was replaced.
-/

namespace LuaTree

open PathText

namespace Store

variable {s t : Store} {cwd loc dir : Location} {p : PathText} {file : Inode} {n : Name} {last : LastName}

theorem Untouched.view_eq (h : Untouched s t)
    (kept : ∀ {loc i}, s.entry? loc = some (.file i) → i ∈ s.inodes.keys) (loc : Location) :
    t.view loc = s.view loc :=
  view_congr (h.entry loc) fun _ he => h.inode (kept he)

/-- In the store `t` a regular file stands in the place of what the path named in `s`, and no lookup of
the path ends anywhere else. -/
structure Published (s t : Store) (cwd : Location) (p : PathText) (loc : Location) (file : Inode) :
    Prop where
  names : Designates s cwd p loc
  view : t.view loc = some (.file file.data file.mode)
  ends : ∀ {last found e}, t.entryAt? cwd last p = .ok (found, e) → found = loc
  found : ∀ last, (∃ e, t.entryAt? cwd last p = .ok (loc, e)) ↔ Designates (s.take loc) cwd p loc

/-- What leads on past a location where a file has been put, leads on where there is nothing instead. -/
theorem Wrote.keeps_take (h : Wrote s t loc file) : Keeps t (s.take loc) := by
  intro l e ht hp
  rw [entry?_take]
  split
  · next hl =>
    obtain ⟨i, hi, _⟩ := h.placed
    rw [hl, hi] at ht
    cases ht
    cases hp
  · next hl => rwa [← h.others hl]

theorem Wrote.take_keeps (h : Wrote s t loc file) : Keeps (s.take loc) t := by
  intro l e hs _
  rw [entry?_take] at hs
  split at hs
  · cases hs
  · next hl => rwa [h.others hl]

/-- A file written to the name that a path is located at, not to a directory, is what the path is now. -/
theorem Wrote.published (h : Wrote s t (dir ++ [n]) file)
    (located : s.locate cwd p = .ok { dir, name? := some n, slash := false }) :
    Published s t cwd p (dir ++ [n]) file := by
  have names : Designates s cwd p (dir ++ [n]) := ⟨dir, n, false, located, rfl⟩
  obtain ⟨hc, front, m, d, hf, heq, short, above, k, _, way⟩ := designates_iff.1 names
  obtain ⟨rfl, hm⟩ := List.append_inj' heq rfl
  cases hm
  obtain ⟨i, hi, _⟩ := h.placed
  have bare : Step.ofPath p = front ++ [.enter n] := by
    have slash : p.getLast? ≠ some '/' := by
      intro hp
      have := (locate_eq_ok_iff.1 located).2.2.2.2
      simp [hp] at this
    rw [ofPath_eq, hf, if_neg slash, List.append_nil]
  -- the way to the name leads over directories and links that were there before, and the file ends it
  have seen : ∀ {last found e}, t.entryAt? cwd last p = .ok (found, e) →
      found = dir ++ [n] ∧ ∃ k ≤ linkLimit, Leads t k (start cwd p) front dir := by
    intro last found e ht
    obtain ⟨_, k, hk, hr⟩ := lookup_eq_ok.1 (entryAt?_eq_ok.1 ht)
    obtain ⟨k', j, d, rfl, hd, hr⟩ := hr.split bare (List.cons_ne_nil _ _)
    obtain rfl := way.unique (hd.mono h.kept_new)
    refine ⟨?_, k', Nat.le_trans (Nat.le_add_right k' j) hk, hd⟩
    generalize hp : Place.entry found e = place at hr
    cases hr with
    | dir he _ _ _ | link he _ _ _ _ | kept he _ _ => cases hi.symm.trans he
    | last _ _ _ =>
      cases hp
      rfl
    | free he _ _ _ => cases hi.symm.trans he
  refine ⟨names, h.view, fun ht => (seen ht).1, fun last => ⟨?_, fun still => ⟨.file i, ?_⟩⟩⟩
  · rintro ⟨e, ht⟩
    obtain ⟨_, k, hk, hd⟩ := seen ht
    have there : ( s.take (dir ++ [n])).holdsDir dir := by
      rw [holdsDir, entry?_take, if_neg (by simp)]
      exact above
    exact designates_iff.2 ⟨hc, front, n, dir, hf, rfl, short, there, k, hk, hd.mono h.keeps_take⟩
  · obtain ⟨_, front', m, d, hf', heq, _, _, k, hk, way⟩ := designates_iff.1 still
    obtain ⟨rfl, hm⟩ := List.append_inj' heq rfl
    cases hm
    obtain ⟨rfl, _⟩ := List.append_inj' (hf.symm.trans hf') rfl
    refine entryAt?_eq_ok.2 (lookup_eq_ok.2 ⟨hc, k, hk, ?_⟩)
    rw [bare]
    exact (way.mono h.take_keeps).append (.last hi short rfl) (.inr ⟨_, _, rfl, by simp⟩)

variable {pick pick' : Location → Name} (free : ∀ dir, s.entry? (dir ++ [pick dir]) = none)

include free

/-- What can be begun is published, unless a directory stands in its place. -/
theorem exists_publishAs (data : Bytes) {path : PathText} {slot : Slot}
    (scratch : Publication.scratchPath s cwd p = .ok path) (hl : s.locate cwd path = .ok slot)
    (located : s.locate cwd p = .ok { dir, name? := some n, slash := false })
    (hd : s.holdsDir (dir ++ [n]) = false) : ∃ t, publishAs pick s cwd p data = (.ok (), t) := by
  obtain ⟨u, tmp, i, new, vacant, there, eq⟩ := publishAs_of_locate free data scratch hl
  have h0 : '\x00' ∉ p := (checkText_eq_ok.1 (locate_eq_ok_iff.1 located).1).1
  have moved := moveFile_of_locate h0 ((new.locate_iff vacant).2 located) there
  rw [new.holdsDir_eq vacant, hd, if_neg Bool.false_ne_true] at moved
  rw [eq, moved]
  exact ⟨_, rfl⟩

/-- What is published under one name of the temporary file is so under any other. -/
theorem publishAs_of_publishAs (free' : ∀ dir, s.entry? (dir ++ [pick' dir]) = none) {data : Bytes}
    (h : publishAs pick s cwd p data = (.ok (), t)) :
    ∃ u dir n, publishAs pick' s cwd p data = (.ok (), u) ∧
      Replaced s t (dir ++ [n]) ⟨data, s.masked 0o666⟩ ∧ Replaced s u (dir ++ [n]) ⟨data, s.masked 0o666⟩ := by
  rcases publishAs_cases free p data with ⟨cause, v, failed, _⟩ | ⟨v, dir, n, done, located, hd, replaced⟩
  · cases h.symm.trans failed
  · cases h.symm.trans done
    cases hb : Publication.beginAs pick s cwd p with
    | error cause =>
      rw [publishAs, hb] at h
      cases h
    | ok begun =>
      obtain ⟨pub, v⟩ := begun
      obtain ⟨path, slot, scratch, hl, _⟩ := beginAs_eq_ok.1 hb
      obtain ⟨u, done'⟩ := exists_publishAs free' data scratch hl located hd
      rcases publishAs_cases free' p data with
        ⟨cause, w, failed, _⟩ | ⟨w, dir', n', again, located', _, replaced'⟩
      · cases done'.symm.trans failed
      · cases done'.symm.trans again
        cases located.symm.trans located'
        exact ⟨u, dir, n, done', replaced, replaced'⟩

/-- The name of the temporary file makes no difference in the end. -/
theorem publishAs_same (free' : ∀ dir, s.entry? (dir ++ [pick' dir]) = none)
    (kept : ∀ {loc i}, s.entry? loc = some (.file i) → i ∈ s.inodes.keys) (cwd : Location) (p : PathText)
    (data : Bytes) : Same (publishAs pick s cwd p data).2 (publishAs pick' s cwd p data).2 := by
  rcases @publishAs_cases s cwd pick free p data with ⟨_, t, failed, same⟩ | ⟨t, _, _, done, _⟩
  · rcases @publishAs_cases s cwd pick' free' p data with ⟨_, u, failed', same'⟩ | ⟨u, _, _, done', _⟩
    · rw [failed, failed']
      exact fun l => (same.view_eq kept l).trans (same'.view_eq kept l).symm
    · obtain ⟨_, _, _, done, _⟩ := publishAs_of_publishAs free' free done'
      cases failed.symm.trans done
  · obtain ⟨u, _, _, done', replaced, replaced'⟩ := publishAs_of_publishAs free free' done
    rw [done, done']
    exact replaced.same replaced' kept

omit free

/-- What is published is a new file in the place of what its path named, and nothing else has changed; what
could not be published leaves nothing behind. -/
theorem publish_allOrNothing (cwd : Location)
    (kept : ∀ {loc i}, s.entry? loc = some (.file i) → i ∈ s.inodes.keys) (p : PathText) (data : Bytes) :
    match publish s cwd p data with
    | (.ok (), t) => ∃ loc, Published s t cwd p loc ⟨data, s.masked 0o666⟩ ∧
        ∀ l, l ≠ loc → t.view l = s.view l
    | (.error e, t) => (∃ cause, e = .fileWrite p cause) ∧ ∀ l, t.view l = s.view l := by
  rcases publish_cases p data with ⟨cause, t, hp, same⟩ | ⟨t, dir, n, hp, located, _, replaced⟩
  · rw [hp]
    exact ⟨⟨cause, rfl⟩, same.view_eq kept⟩
  · rw [hp]
    exact ⟨dir ++ [n], replaced.published located, fun l hl => replaced.view_eq kept hl⟩

/-- Published under the name of a link, new contents leave the file that it led to alone, and the other
name of that file. -/
theorem publish_allOrNothing_namedTwice : ∃ t, publish namedTwice [] ['l'] [1, 2] = (.ok (), t) ∧
    t.view [['l']] = some (.file [1, 2] 0o644) ∧ ∀ l, l ≠ [['l']] → t.view l = namedTwice.view l := by
  have sound : namedTwice.Sound [] := .of_admits (by decide) (by decide) (by decide)
  have located : namedTwice.locate [] ['l'] = .ok { dir := [], name? := some ['l'], slash := false } := by
    decide
  have begun : namedTwice.locate [] (scratchText [] ['l']) =
      .ok { dir := [], name? := some (Publication.temporaryName 0), slash := false } := by decide
  obtain ⟨t, published⟩ : ∃ t, publish namedTwice [] ['l'] [1, 2] = (.ok (), t) :=
    exists_publishAs namedTwice.entry?_freeName [1, 2] (scratchPath_eq (.inr (by decide))) begun located
      (by decide)
  have all := publish_allOrNothing [] sound.kept ['l'] [1, 2]
  rw [published] at all
  obtain ⟨loc, there, others⟩ := all
  have names : Designates namedTwice [] ['l'] [['l']] := ⟨[], ['l'], false, located, rfl⟩
  obtain rfl := names.unique there.names
  exact ⟨_, published, there.view, others⟩

/-- A link to the directory that it stands in. -/
def dotLinked : Store := Store.empty.put [['l']] (.link ['.'])

/-- A path that leads over the very link that it names leads nowhere once that link has been replaced. -/
theorem published_out_of_sight : ∃ t, publish dotLinked [] "l/l".toList [1, 2] = (.ok (), t) ∧
    t.view [['l']] = some (.file [1, 2] 0o644) ∧
    t.lstat? [] "l/l".toList = .error (.os .notDirectory) ∧
    t.stat? [] "l/l".toList = .error (.os .notDirectory) := by
  have ends : (publish dotLinked [] "l/l".toList [1, 2]).1.isOk := by decide +kernel
  have view : (publish dotLinked [] "l/l".toList [1, 2]).2.view [['l']] = some (.file [1, 2] 0o644) := by
    decide +kernel
  have named : (publish dotLinked [] "l/l".toList [1, 2]).2.lstat? [] "l/l".toList =
      .error (.os .notDirectory) := by decide +kernel
  have led : (publish dotLinked [] "l/l".toList [1, 2]).2.stat? [] "l/l".toList =
      .error (.os .notDirectory) := by decide +kernel
  generalize publish dotLinked [] "l/l".toList [1, 2] = answer at ends view named led ⊢
  obtain ⟨result, t⟩ := answer
  cases result with
  | error e => cases ends
  | ok _ => exact ⟨t, rfl, view, named, led⟩

end Store

end LuaTree
