import LuaTree.Proofs.Convert.Aftermath
import LuaTree.Proofs.Convert.Overlay

/-!
# What becomes of an item

Everything that an item can come to, by what is found once the directories above its destination have been
created: that store decides, not the one before (`convertItem_outcome`). The two differ by directories. A
source that led to a file still leads there, and so does a destination without `..`; but a source or a
destination that leads through one of the new directories and out again leads somewhere only now. So a
destination such as `a/../f` can turn out to be the source itself, which a copy empties
(`emptied_through_new_directory`).
-/

namespace LuaTree

open PathText

namespace Store

variable {s t : Store} {cwd : Location} {p q : PathText} {c : Bytes}

/-- The path leads to a regular file with these contents. -/
def FileAt (s : Store) (cwd : Location) (p : PathText) (c : Bytes) : Prop :=
  ∃ loc i, s.stat? cwd p = .ok (loc, .file i) ∧ (s.inode i).data = c

/-- The directory above the path is there, if its text names one. -/
def HasParent (s : Store) (cwd : Location) (p : PathText) : Prop :=
  ∀ dir, parentText? p = some dir → s.isDir cwd dir

theorem Furnished.stat? {ps : List PathText} (h : Furnished s t cwd ps) {loc : Location} {i : Nat}
    (hs : s.stat? cwd p = .ok (loc, .file i)) : t.stat? cwd p = .ok (loc, .file i) := by
  have there : s.entry? loc = some (.file i) := entry_of_lookup (stat?_eq_ok_iff_lookup.1 hs) rfl
  exact entryAt?_mono hs h.gains.keeps ((h.gains loc _ there).trans there.symm)

theorem Furnished.inode {ps : List PathText} (h : Furnished s t cwd ps) (i : Nat) :
    t.inode i = s.inode i := by
  rw [Store.inode, Store.inode, h.inodes]

theorem Furnished.fileAt {ps : List PathText} (h : Furnished s t cwd ps) (hs : s.FileAt cwd p c) :
    t.FileAt cwd p c := by
  obtain ⟨loc, i, hs, hc⟩ := hs
  exact ⟨loc, i, h.stat? hs, by rw [h.inode, hc]⟩

/-- Two paths lead to one file as they did before, if one led to a file and the other is undisturbed. -/
theorem Furnished.sameFile_iff {ps : List PathText} (h : Furnished s t cwd ps)
    (undisturbed : Undisturbed s t cwd q) (hs : s.FileAt cwd p c) :
    t.SameFile cwd p q ↔ s.SameFile cwd p q := by
  obtain ⟨loc, j, hp, _⟩ := hs
  have there := h.stat? hp
  constructor
  · rintro ⟨a, b, i, ha, hb⟩
    cases there.symm.trans ha
    exact ⟨loc, b, j, hp, undisturbed.entries.1 hb⟩
  · rintro ⟨a, b, i, ha, hb⟩
    exact ⟨a, b, i, h.stat? ha, undisturbed.entries.2 hb⟩

theorem reads_of_fileAt (h : s.FileAt cwd p c) : s.Reads cwd p c := by
  obtain ⟨loc, i, hs, rfl⟩ := h
  exact reads_of_file hs

end Store

open Store

variable {s t : Store} {cwd : Location} {d : Decompiler} {item : WorkItem}

/-- Only a regular file is a compiled chunk, by what it holds. -/
theorem isCompiled_iff {p : PathText} : Chunk.isCompiled t cwd p = .ok true ↔
    ∃ c, t.FileAt cwd p c ∧ ∃ b rest, c = b :: (Chunk.magic ++ rest) := by
  constructor
  · intro h
    have classified := h
    unfold Chunk.isCompiled at h
    split at h
    · cases h
    · next f hr =>
      cases f with
      | dir => cases h
      | device dev => cases dev <;> cases h
      | file i =>
        obtain ⟨loc, hs⟩ := stat?_of_openRead hr
        have marked := (isCompiled_of_file hs).symm.trans classified
        exact ⟨_, ⟨loc, i, hs, rfl⟩, (Chunk.hasHeader_iff _).1 (Except.ok.inj marked)⟩
  · rintro ⟨_, ⟨loc, i, hs, rfl⟩, marked⟩
    rw [isCompiled_of_file hs, (Chunk.hasHeader_iff _).2 marked]

theorem Store.Furnished.isCompiled {ps : List PathText} (h : Furnished s t cwd ps) {p : PathText}
    (hs : Chunk.isCompiled s cwd p = .ok true) : Chunk.isCompiled t cwd p = .ok true := by
  obtain ⟨c, file, marked⟩ := isCompiled_iff.1 hs
  exact isCompiled_iff.2 ⟨c, h.fileAt file, marked⟩

/-- What copying a file with these contents comes to: nothing has changed, or the destination reads as the
source did. Only where the two lead to one file, it reads as nothing. -/
def CopyOutcome (cwd : Location) (t : Store) (item : WorkItem) (c : Bytes) (run : ItemRun) : Prop :=
  run.notices = [.copying item.source] ∧
  ((∃ cause, run.report = ⟨item, .error (.copy item.source item.destination cause)⟩ ∧ run.store = t) ∨
    run.report = ⟨item, .ok .copied⟩ ∧
    ((∀ loc e, t.stat? cwd item.destination = .ok (loc, e) → e.isDir ∨ e.isFile) →
      (¬t.SameFile cwd item.source item.destination → run.store.Reads cwd item.destination c) ∧
      (t.SameFile cwd item.source item.destination → run.store.Reads cwd item.destination [])))

/-- What the answer of the decompiler comes to: its own error, a failure that carries all that it printed,
or a destination that holds just what it printed, if that can be written. -/
def AnswerOutcome (cwd : Location) (t : Store) (item : WorkItem) (answer : Response) (run : ItemRun) :
    Prop :=
  run.notices = .decompiling item.source :: answer.notices ∧
  match answer.result with
  | .error e => run.report = ⟨item, .error e⟩ ∧ run.store = t
  | .ok output =>
    (output.exit ≠ some 0 →
      run.report = ⟨item, .error (.decompilerFailed item.source output)⟩ ∧ run.store = t) ∧
    (output.exit = some 0 →
      (∃ cause, run.report = ⟨item, .error (.fileWrite item.destination cause)⟩) ∨
      run.report = ⟨item, .ok .converted⟩ ∧
        ∃ loc, Published t run.store cwd item.destination loc ⟨output.stdout, t.masked 0o666⟩)

/-- What an item had before the directories above its destination were created, it has in the store `t`. -/
structure Retained (s t : Store) (cwd : Location) (item : WorkItem) : Prop where
  source : ∀ c, s.FileAt cwd item.source c → t.FileAt cwd item.source c
  destination : .up ∉ components item.destination → Undisturbed s t cwd item.destination ∧
    ∀ c, s.FileAt cwd item.source c →
      (t.SameFile cwd item.source item.destination ↔ s.SameFile cwd item.source item.destination)

/-- What an item comes to that finds the store `t` where `s` was, with directories above its destination. -/
structure ItemOutcome (d : Decompiler) (cwd : Location) (s t : Store) (item : WorkItem) (run : ItemRun) :
    Prop extends Retained s t cwd item where
  unprepared : ∀ dir, parentText? item.destination = some dir → ¬t.isDir cwd dir →
    ∃ cause, run = ⟨⟨item, .error (.createDir dir cause)⟩, t, []⟩
  unopened : t.HasParent cwd item.destination → ∀ cause, t.openRead cwd item.source = .error cause →
    run = ⟨⟨item, .error (.fileOpen item.source cause)⟩, t, []⟩
  unread : t.HasParent cwd item.destination → t.openRead cwd item.source = .ok .dir →
    run = ⟨⟨item, .error (.fileRead item.source (.os .isDirectory))⟩, t, []⟩
  device : t.HasParent cwd item.destination → ∀ dev, t.openRead cwd item.source = .ok (.device dev) →
    ∃ cause, run = ⟨⟨item, .error (.copy item.source item.destination cause)⟩, t, [.copying item.source]⟩
  copied : t.HasParent cwd item.destination → ∀ c, t.FileAt cwd item.source c →
    (¬∃ b rest, c = b :: (Chunk.magic ++ rest)) → CopyOutcome cwd t item c run
  decompiled : t.HasParent cwd item.destination → ∀ c, t.FileAt cwd item.source c →
    (∃ b rest, c = b :: (Chunk.magic ++ rest)) →
      AnswerOutcome cwd t item (d.decompile t item.source) run
  /-- Of all the stages it goes through, one asks the decompiler, if the source is a compiled chunk. -/
  turns : ∀ n, (ItemState.steps d cwd item n (.initial s)).stage = .decompile ↔
    n = 2 ∧ t.HasParent cwd item.destination ∧
      ∃ c, t.FileAt cwd item.source c ∧ ∃ b rest, c = b :: (Chunk.magic ++ rest)
  /-- A decompiler makes a difference by its answer about a compiled source only. -/
  asked : ∀ d' : Decompiler,
    (∀ c, t.FileAt cwd item.source c → (∃ b rest, c = b :: (Chunk.magic ++ rest)) →
      d'.decompile t item.source = d.decompile t item.source) → convertItem d' cwd s item = run

theorem retained_prepared (coherent : s.Coherent cwd) (item : WorkItem) :
    Retained s (s.prepared cwd item.destination) cwd item := by
  have built := ensureParent_built s cwd item.destination
  have furnished := built.furnished coherent
  refine ⟨fun c h => furnished.fileAt h, fun up => ?_⟩
  have undisturbed := built.undisturbed coherent (goesOn_of_mem_parentTexts up)
  exact ⟨undisturbed, fun c h => furnished.sameFile_iff undisturbed h⟩

theorem ItemOutcome.of_unprepared {dir : PathText} {cause : IoError} (retained : Retained s t cwd item)
    (hdir : parentText? item.destination = some dir) (no : ¬t.isDir cwd dir)
    (failed : ensureParent s cwd item.destination = (.error (.createDir dir cause), t)) :
    ItemOutcome d cwd s t item (convertItem d cwd s item) :=
  have missing : ¬t.HasParent cwd item.destination := fun h => no (h dir hdir)
  { toRetained := retained
    unprepared := by
      intro dir' hdir' _
      cases hdir.symm.trans hdir'
      exact ⟨cause, convertItem_of_unprepared failed⟩
    unopened := fun h => absurd h missing
    unread := fun h => absurd h missing
    device := fun h => absurd h missing
    copied := fun h => absurd h missing
    decompiled := fun h => absurd h missing
    turns := by
      intro n
      constructor
      · intro h
        obtain ⟨_, u, prepared, _⟩ := ItemState.stage_eq_decompile_iff.1 h
        cases failed.symm.trans prepared
      · rintro ⟨_, h, _⟩
        exact absurd h missing
    asked := fun d' _ => (convertItem_of_unprepared failed).trans (convertItem_of_unprepared failed).symm }

section

variable {c : Bytes} (prepared : ensureParent s cwd item.destination = (.ok (), t))

include prepared

theorem convertItem_of_plain (coherent : t.Coherent cwd) (file : t.FileAt cwd item.source c)
    (plain : ¬∃ b rest, c = b :: (Chunk.magic ++ rest)) :
    CopyOutcome cwd t item c (convertItem d cwd s item) := by
  have reads := reads_of_fileAt file
  obtain ⟨loc, i, hs, rfl⟩ := file
  rw [← Chunk.hasHeader_iff, Bool.not_eq_true] at plain
  have classified := isCompiled_of_file hs
  rw [plain] at classified
  cases hcopy : copyVerbatim t cwd item.source item.destination with
  | mk r u =>
    rw [convertItem_of_copied prepared classified hcopy]
    refine ⟨rfl, ?_⟩
    cases r with
    | error e =>
      unfold copyVerbatim at hcopy
      split at hcopy
      · cases hcopy
      · cases hcopy
        exact .inl ⟨_, rfl, rfl⟩
    | ok _ =>
      refine .inr ⟨rfl, fun kinds => ?_⟩
      obtain ⟨data, hd, apart, same⟩ :=
        copyVerbatim_reads (fun _ _ he => coherent.kept he) kinds hcopy
      obtain rfl := reads.unique hd
      exact ⟨fun h => (apart h).1, fun h => (same h).1⟩

theorem convertItem_of_chunk (quiet : d.Quiet) (classified : Chunk.isCompiled t cwd item.source = .ok true) :
    AnswerOutcome cwd t item (d.decompile t item.source) (convertItem d cwd s item) := by
  rw [convertItem_of_compiled prepared classified, quiet, AnswerOutcome]
  cases (d.decompile t item.source).result with
  | error e => exact ⟨rfl, rfl, rfl⟩
  | ok output =>
    dsimp only
    by_cases hx : output.exit = some 0
    · have success : output.success = true := by rw [ProcessOutput.success, hx]; rfl
      rw [if_pos success]
      refine ⟨rfl, fun hne => absurd hx hne, fun _ => ?_⟩
      rcases publish_cases item.destination output.stdout with
        ⟨cause, u, published, _⟩ | ⟨u, dir, n, published, located, _, replaced⟩
      · rw [published]
        exact .inl ⟨cause, rfl⟩
      · rw [published]
        exact .inr ⟨rfl, _, replaced.published located⟩
    · have failure : output.success = false := by rw [ProcessOutput.success, decide_eq_false hx]
      rw [failure, if_neg Bool.false_ne_true]
      exact ⟨rfl, fun _ => ⟨rfl, rfl⟩, fun h => absurd h hx⟩

/-- What can be read and is no regular file is no compiled chunk, and cannot be copied either. -/
theorem convertItem_of_device {dev : Device} (opened : t.openRead cwd item.source = .ok (.device dev)) :
    ∃ cause, convertItem d cwd s item =
      ⟨⟨item, .error (.copy item.source item.destination cause)⟩, t, [.copying item.source]⟩ := by
  have classified : Chunk.isCompiled t cwd item.source = .ok false := by
    rw [Chunk.isCompiled, opened]
    cases dev <;> rfl
  have copied : ∃ cause, copyVerbatim t cwd item.source item.destination =
      (.error (.copy item.source item.destination cause), t) := by
    rw [copyVerbatim, copyFile, opened]
    exact ⟨_, rfl⟩
  obtain ⟨cause, copied⟩ := copied
  rw [convertItem_of_copied prepared classified copied]
  exact ⟨cause, rfl⟩

theorem convertItem_congr {d' : Decompiler}
    (same : ∀ c, t.FileAt cwd item.source c → (∃ b rest, c = b :: (Chunk.magic ++ rest)) →
      d'.decompile t item.source = d.decompile t item.source) :
    convertItem d' cwd s item = convertItem d cwd s item := by
  cases classified : Chunk.isCompiled t cwd item.source with
  | error e =>
    rw [convertItem_of_unclassified prepared classified, convertItem_of_unclassified prepared classified]
  | ok compiled =>
    cases compiled with
    | false =>
      rw [convertItem_of_copied prepared classified rfl, convertItem_of_copied prepared classified rfl]
    | true =>
      obtain ⟨c, file, marked⟩ := isCompiled_iff.1 classified
      rw [convertItem_of_compiled prepared classified, convertItem_of_compiled prepared classified,
        same c file marked]

theorem ItemOutcome.of_prepared (retained : Retained s t cwd item) (coherent : t.Coherent cwd)
    (quiet : d.Quiet) (parent : t.HasParent cwd item.destination) :
    ItemOutcome d cwd s t item (convertItem d cwd s item) where
  toRetained := retained
  unprepared dir hdir no := absurd (parent dir hdir) no
  unopened _ cause opened := convertItem_of_unclassified prepared (by rw [Chunk.isCompiled, opened])
  unread _ opened := by
    refine convertItem_of_unclassified prepared ?_
    rw [Chunk.isCompiled, opened]
    rfl
  device _ _ opened := convertItem_of_device prepared opened
  copied _ _ file plain := convertItem_of_plain prepared coherent file plain
  decompiled _ c file marked := convertItem_of_chunk prepared quiet (isCompiled_iff.2 ⟨c, file, marked⟩)
  turns n := by
    rw [ItemState.stage_eq_decompile_iff]
    constructor
    · rintro ⟨hn, u, prepared', compiled⟩
      cases prepared.symm.trans prepared'
      exact ⟨hn, parent, isCompiled_iff.1 compiled⟩
    · rintro ⟨hn, _, compiled⟩
      exact ⟨hn, t, prepared, isCompiled_iff.2 compiled⟩
  asked d' same := convertItem_congr prepared same

end

/-- What an item comes to is settled by the store in which its parent has been created, and by what the
decompiler answers about its source there. -/
theorem convertItem_outcome (coherent : s.Coherent cwd) (quiet : d.Quiet) (item : WorkItem) :
    ItemOutcome d cwd s (s.prepared cwd item.destination) item (convertItem d cwd s item) := by
  have furnished := (ensureParent_built s cwd item.destination).furnished coherent
  have parent := ensureParent_cases coherent item.destination
  have retained := retained_prepared coherent item
  rw [Store.prepared] at furnished retained ⊢
  cases prepared : ensureParent s cwd item.destination with
  | mk r t =>
    rw [prepared] at furnished parent retained
    cases r with
    | error e =>
      obtain ⟨dir, cause, hdir, no, rfl⟩ := parent
      exact .of_unprepared retained hdir no prepared
    | ok _ => exact .of_prepared prepared retained furnished.coherent quiet parent

/-- A compiled chunk in a directory of its own. -/
def chunkTree : Store :=
  (empty.put [['i']] (.dir 0o755)).putFile [['i'], ['a']] ⟨27 :: Chunk.magic, 0o644⟩

/-- A compiled chunk whose decompiler reports failure, with a destination below a directory to be created. -/
theorem convertItem_outcome_chunkTree : chunkTree.Coherent [] ∧
    ItemOutcome (.constant (.ok ⟨[7], [8], some 3⟩)) [] chunkTree
      (chunkTree.prepared [] "o/a".toList) ⟨"i/a".toList, "o/a".toList⟩
      (convertItem (.constant (.ok ⟨[7], [8], some 3⟩)) [] chunkTree ⟨"i/a".toList, "o/a".toList⟩) := by
  have coherent : chunkTree.Coherent [] :=
    (Sound.of_admits (by decide) (by decide) (by decide)).coherent
  exact ⟨coherent, convertItem_outcome coherent (fun _ _ => rfl) ⟨"i/a".toList, "o/a".toList⟩⟩

/-- A destination that leads nowhere before the item is converted, and to its source as soon as its parent
has been created: the file is copied onto itself, and what it held is gone. -/
theorem emptied_through_new_directory :
    namedTwice.FileAt [] ['f'] [7] ∧
    (∀ place, namedTwice.stat? [] "a/../f".toList ≠ .ok place) ∧
    (convertItem (.constant (.ok ⟨[], [], some 0⟩)) [] namedTwice
      ⟨['f'], "a/../f".toList⟩).report.result = .ok .copied ∧
    ¬(convertItem (.constant (.ok ⟨[], [], some 0⟩)) [] namedTwice
      ⟨['f'], "a/../f".toList⟩).store.Reads [] "a/../f".toList [7] := by
  have nowhere : namedTwice.stat? [] "a/../f".toList = .error (.os .noEntry) := by decide
  generalize hr : convertItem (.constant (.ok ⟨[], [], some 0⟩)) [] namedTwice ⟨['f'], "a/../f".toList⟩ = run
  have after : run.report.result = .ok .copied ∧
      run.store.stat? [] "a/../f".toList = .ok ([['f']], .file 1) ∧ (run.store.inode 1).data = [] := by
    subst hr
    decide +kernel
  obtain ⟨copied, leads, empty⟩ := after
  have nothing := reads_of_file leads
  rw [empty] at nothing
  refine ⟨⟨[['f']], 1, by decide, by decide⟩, fun place h => ?_, copied, fun still => ?_⟩
  · cases nowhere.symm.trans h
  · cases still.unique nothing

end LuaTree
