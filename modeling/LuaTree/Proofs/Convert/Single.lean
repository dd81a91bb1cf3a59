import LuaTree.Proofs.Convert.Plain

/-!
# What becomes of a single file

In a store of directories and regular files, what becomes of a single file that is converted beside itself
is settled by what the file holds and by whether its destination is a directory (`settled_convertItem`): in
every later store that agrees about these the conversion comes to the same result, and lays the same over
the store (`Placed`).
-/

namespace LuaTree

open PathText Store

variable {s t u : Store} {cwd dir loc place : Location} {source front : PathText} {d : Decompiler}
  {i : Nat} {m : Name} {file? : Option Inode} {data : Bytes}

/-! ## What is laid over a store -/

/-- The store `u` is `s` with a file at `place`, if there is one to put there. -/
def Store.Placed (s u : Store) (cwd place : Location) (file? : Option Inode) : Prop :=
  Overlay s u cwd (fun _ => False) fun l f => l = place ∧ file? = some f

namespace Store.Placed

theorem untouched (sound : s.Sound cwd) (same : Untouched s u) : Placed s u cwd place none :=
  ((Overlay.refl sound).untouched same).congr (fun _ => Iff.rfl) fun _ _ => by simp

theorem wrote {file : Inode} (sound : s.Sound cwd) (plain : s.Plain) (there : s.holdsDir dir)
    (lawful : Lawful m) (hd : ¬s.holdsDir (dir ++ [m])) (wrote : Wrote s u (dir ++ [m]) file) :
    Placed s u cwd (dir ++ [m]) (some file) := by
  refine ((Overlay.refl sound).wrote wrote (wrote.sound sound there lawful hd) (fun _ => id) id
    (fun e he => ?_) fun j hj l hl => plain.single hl hj).congr (fun _ => Iff.rfl) fun l f => ?_
  · rcases plain.kinds he with hdir | hfile
    · rw [holdsDir, he] at hd
      exact absurd hdir hd
    · cases e with
      | file i => rfl
      | dir _ | link _ | fifo | device _ => cases hfile
  · rw [false_or, Option.some.injEq, eq_comm (a := f)]

end Store.Placed

/-- The store `t` is `s` later on, as far as a conversion is concerned that reads the file `i` and writes
to `place`. -/
structure Store.Later (s t : Store) (cwd : Location) (source : PathText) (loc : Location) (i : Nat)
    (place : Location) : Prop where
  umask : t.umask = s.umask
  sound : t.Sound cwd
  plain : t.Plain
  keeps : Keeps s t
  stat? : t.stat? cwd source = .ok (loc, .file i)
  inode : t.inode i = s.inode i
  holdsDir : t.holdsDir place = s.holdsDir place
  here : t.holdsDir cwd = s.holdsDir cwd

theorem Store.Later.refl (sound : s.Sound cwd) (plain : s.Plain)
    (hs : s.stat? cwd source = .ok (loc, .file i)) (place : Location) :
    Later s s cwd source loc i place :=
  ⟨rfl, sound, plain, .refl s, hs, rfl, rfl, rfl⟩

theorem Store.Later.copyFault_eq (h : Later s t cwd source loc i place) (p : PathText) :
    t.copyFault place p = s.copyFault place p := by
  rw [copyFault, copyFault, h.holdsDir]

theorem Store.Later.scratchFault_eq (h : Later s t cwd source loc i place) (p : PathText) :
    t.scratchFault cwd p = s.scratchFault cwd p := by
  rw [scratchFault, scratchFault, scratchPath_congr h.here]

theorem Store.Later.publishFault_eq (h : Later s t cwd source loc i place) (p : PathText) :
    t.publishFault cwd place p = s.publishFault cwd place p :=
  publishFault_congr h.here h.holdsDir p

theorem Store.Placed.later (h : Placed s t cwd place file?) (sound : s.Sound cwd) (plain : s.Plain)
    (hs : s.stat? cwd source = .ok (loc, .file i)) (apart : loc ≠ place) :
    Later s t cwd source loc i place := by
  obtain ⟨ht, inode⟩ := h.stat?_eq hs fun _ hf => apart hf.1
  exact ⟨h.umask, h.sound, h.plain plain, h.keeps, ht, inode, h.holdsDir_eq id,
    sound.holdsDir_cwd_eq h.sound.wellNamed fun _ => h.keeps.holdsDir⟩

/-- Whatever has happened to the store since, the act comes to the same and puts the same at `place`. -/
def Store.Settled {α : Type} (s : Store) (cwd : Location) (source : PathText) (loc : Location) (i : Nat)
    (place : Location) (act : Store → α × Store) : Prop :=
  ∃ (r : α) (file? : Option Inode), ∀ t, Later s t cwd source loc i place →
    ∃ u, act t = (r, u) ∧ Placed t u cwd place file?

theorem Store.Settled.of_untouched {α : Type} {act : Store → α × Store} (r : α)
    (h : ∀ t, Later s t cwd source loc i place → ∃ u, act t = (r, u) ∧ Untouched t u) :
    Settled s cwd source loc i place act := by
  refine ⟨r, none, fun t later => ?_⟩
  obtain ⟨u, hu, same⟩ := h t later
  exact ⟨u, hu, .untouched later.sound same⟩

/-! ## Copying beside a file -/

section

variable (before : Front s cwd front dir)

include before

/-- Nothing is copied to `..`. -/
theorem Front.settled_copy_up (source : PathText) (loc : Location) (i : Nat) (place : Location) :
    Settled s cwd source loc i place fun t => copyVerbatim t cwd source (front ++ ['.', '.']) := by
  cases hc : checkText (front ++ ['.', '.']) with
  | error cause =>
    refine .of_untouched (.error (.copy source (front ++ ['.', '.']) cause)) fun t later =>
      ⟨t, ?_, .refl t⟩
    have lookup := lookup_of_checkText_error t cwd .create hc
    rw [copyVerbatim, copyFile_of_lookup_error later.stat? lookup]
  | ok _ =>
    refine .of_untouched (.error (.copy source (front ++ ['.', '.']) (.os .isDirectory))) fun t later =>
      ⟨t, ?_, .refl t⟩
    obtain ⟨place, mode, hup, _⟩ := (before.mono later.keeps).lookup_up later.sound.toRooted hc
    rw [copyVerbatim, copyFile_of_dir later.stat? hup]

/-- Copying to another name comes to what the fault says. -/
theorem Front.settled_copy_name (hm : IsName m) (h0 : '\x00' ∉ m) (apart : loc ≠ dir ++ [m])
    (source : PathText) (i : Nat) :
    Settled s cwd source loc i (dir ++ [m]) fun t => copyVerbatim t cwd source (front ++ m) := by
  have approach : ∀ {t}, Later s t cwd source loc i (dir ++ [m]) →
      Approach t cwd (front ++ m) dir ([] ++ [m]) := fun later =>
    (before.mono later.keeps).approach hm h0
  have free : ∀ {t}, Later s t cwd source loc i (dir ++ [m]) → LinkFree t dir ([] ++ [m]) :=
    fun later _ _ _ _ => later.plain.no_link
  -- a name that is too long is refused before anything at it matters
  by_cases hn : nameLimit < Utf8.byteLength m
  · refine .of_untouched (.error (.copy source (front ++ m) (.os .nameTooLong))) fun t later =>
      ⟨t, ?_, .refl t⟩
    have lookup := (approach later).lookup_create_below (free later)
    rw [hindrance] at lookup
    dsimp only at lookup ⊢
    rw [if_pos hn, ite_self] at lookup
    rw [copyVerbatim, copyFile_of_lookup_error later.stat? lookup]
  · have other : ∀ {t}, Later s t cwd source loc i (dir ++ [m]) →
        ∀ e, t.entry? (dir ++ [] ++ [m]) = some e → e.isDir ∨ ∃ j, e = .file j ∧ i ≠ j := by
      intro t later e he
      rw [List.append_nil] at he
      refine (later.plain.kinds he).imp_right fun hf => ?_
      cases e with
      | file j =>
        refine ⟨j, rfl, ?_⟩
        rintro rfl
        exact apart (later.plain.single (entry_of_lookup (stat?_eq_ok_iff_lookup.1 later.stat?) rfl) he)
      | dir _ | link _ | fifo | device _ => cases hf
    have copied := fun {t} (later : Later s t cwd source loc i (dir ++ [m])) =>
      copyVerbatim_below later.sound (approach later) (free later) rfl (Nat.not_lt.1 hn) later.stat?
        (other later)
    cases hf : s.copyFault (dir ++ [m]) (front ++ m) with
    | some e =>
      refine .of_untouched (.error (.copy source (front ++ m) (.os e))) fun t later => ⟨t, ?_, .refl t⟩
      have copied := copied later
      rwa [List.append_nil, later.copyFault_eq, hf] at copied
    | none =>
      refine ⟨.ok (), some (s.inode i), fun t later => ?_⟩
      have copied := copied later
      rw [List.append_nil, later.copyFault_eq, hf] at copied
      obtain ⟨u, hu, wrote⟩ := copied
      rw [later.inode] at wrote
      refine ⟨u, hu, .wrote later.sound later.plain (approach later).holdsDir
        ⟨hm, h0, Nat.not_lt.1 hn⟩ ?_ wrote⟩
      rw [later.holdsDir]
      exact not_holdsDir_of_copyFault hf

/-! ## Publishing beside a file -/

/-- Where what is ready cannot be moved to, nothing is published. -/
theorem Front.settled_refused (separated : '/' ∉ m) (hne : m ≠ []) (here : m ≠ ['.']) (cause : IoError)
    (refused : ∀ t, Later s t cwd source loc i place → ∀ u tmp, Keeps t u →
      (∀ slot, t.locate cwd (front ++ m) = .ok slot → u.locate cwd (front ++ m) = .ok slot) →
      u.moveFile tmp cwd (front ++ m) = .error cause) (data : Bytes) :
    Settled s cwd source loc i place fun t => publish t cwd (front ++ m) data := by
  refine .of_untouched (.error (.fileWrite (front ++ m)
    ((s.scratchFault cwd (front ++ m)).getD cause))) fun t later => ?_
  rw [← later.scratchFault_eq]
  exact publish_refused
    (fun _ => (before.mono later.keeps).scratch later.sound.wellNamed separated hne here) (by decide)
    (refused t later) data

/-- Nothing is published at `..`. -/
theorem Front.settled_publish_up (source : PathText) (loc : Location) (i : Nat) (place : Location)
    (data : Bytes) :
    Settled s cwd source loc i place fun t => publish t cwd (front ++ ['.', '.']) data := by
  have nul : '\x00' ∉ front ++ ['.', '.'] := by
    rw [List.mem_append, not_or]
    exact ⟨before.no_nul, by decide⟩
  cases hc : checkText (front ++ ['.', '.']) with
  | error cause =>
    refine before.settled_refused (by decide) (by decide) (by decide) cause (fun t later u tmp _ _ => ?_) data
    rw [moveFile, if_neg nul, locate, hc]
    rfl
  | ok _ =>
    refine before.settled_refused (by decide) (by decide) (by decide) (.os .busy)
      (fun t later u tmp _ locate => ?_) data
    obtain ⟨⟨d, name?, slash⟩, hs, rfl⟩ := (before.mono later.keeps).locate_up hc
    rw [moveFile, if_neg nul, locate _ hs]
    rfl

/-- Publishing at another name comes to what the fault says. -/
theorem Front.settled_publish_name (hm : IsName m) (h0 : '\x00' ∉ m) (source : PathText)
    (loc : Location) (i : Nat) (data : Bytes) :
    Settled s cwd source loc i (dir ++ [m]) fun t => publish t cwd (front ++ m) data := by
  have approach : ∀ {t}, Later s t cwd source loc i (dir ++ [m]) →
      Approach t cwd (front ++ m) dir ([] ++ [m]) := fun later =>
    (before.mono later.keeps).approach hm h0
  -- the temporary file has a short name, so that it is only the move that a long one hinders
  by_cases hn : nameLimit < Utf8.byteLength m
  · refine before.settled_refused hm.no_separator hm.ne_nil hm.ne_here (.os .nameTooLong)
      (fun t later u tmp keeps _ => ?_) data
    have nul : '\x00' ∉ front ++ m := by
      rw [List.mem_append, not_or]
      exact ⟨before.no_nul, h0⟩
    have located := ((approach later).mono keeps).locate_below (.nil u dir)
    rw [hindrance] at located
    dsimp only at located
    rw [if_pos hn, ite_self] at located
    rw [moveFile, if_neg nul, located]
    rfl
  · have published := fun {t} (later : Later s t cwd source loc i (dir ++ [m])) =>
      publish_below (approach later) (.nil t dir) rfl (Nat.not_lt.1 hn)
        (fun _ => (before.mono later.keeps).scratch later.sound.wellNamed hm.no_separator hm.ne_nil
          hm.ne_here) data
    cases hf : s.publishFault cwd (dir ++ [m]) (front ++ m) with
    | some cause =>
      refine .of_untouched (.error (.fileWrite (front ++ m) cause)) fun t later => ?_
      have published := published later
      rwa [List.append_nil, later.publishFault_eq, hf] at published
    | none =>
      refine ⟨.ok (), some ⟨data, s.masked 0o666⟩, fun t later => ?_⟩
      have published := published later
      rw [List.append_nil, later.publishFault_eq, hf] at published
      obtain ⟨u, hu, wrote⟩ := published
      rw [Store.masked, later.umask] at wrote
      refine ⟨u, hu, .wrote later.sound later.plain (approach later).holdsDir
        ⟨hm, h0, Nat.not_lt.1 hn⟩ ?_ wrote⟩
      rw [later.holdsDir]
      exact (publishFault_eq_none.1 hf).2.2

end

/-! ## Converting beside a file -/

/-- What converting a file beside itself comes to is settled. -/
theorem settled_convertItem (quiet : d.Quiet) (byContents : d.ByContents cwd)
    (before : Front s cwd front dir) (hm : m = ['.', '.'] ∨ IsName m) (h0 : '\x00' ∉ m)
    (apart : loc ≠ dir ++ [m]) (hs : s.stat? cwd source = .ok (loc, .file i)) :
    Settled s cwd source loc i (dir ++ [m]) fun t =>
      ((convertItem d cwd t ⟨source, front ++ m⟩).report.result,
        (convertItem d cwd t ⟨source, front ++ m⟩).store) := by
  have prepared : ∀ t, Later s t cwd source loc i (dir ++ [m]) →
      ensureParent t cwd (⟨source, front ++ m⟩ : WorkItem).destination = (.ok (), t) := by
    intro t later
    rcases hm with rfl | hm
    · exact (before.mono later.keeps).ensureParent_eq later.sound.toRooted (by decide) (by decide) (by decide)
    · exact (before.mono later.keeps).ensureParent_eq later.sound.toRooted hm.no_separator hm.ne_nil hm.ne_here
  have classified : ∀ t, Later s t cwd source loc i (dir ++ [m]) →
      Chunk.isCompiled t cwd (⟨source, front ++ m⟩ : WorkItem).source =
        .ok (Chunk.hasHeader (s.inode i).data) := by
    intro t later
    rw [isCompiled_of_file later.stat?, later.inode]
  have answer : ∀ t, Later s t cwd source loc i (dir ++ [m]) →
      (d.decompile t (⟨source, front ++ m⟩ : WorkItem).source).result = (d.decompile s source).result :=
    fun t later => byContents _ _ _ _ _ _ _ later.stat? hs (by rw [later.inode])
  -- what the file holds does not change, so every time the same stages follow
  cases hc : Chunk.hasHeader (s.inode i).data with
  | false =>
    have copy : Settled s cwd source loc i (dir ++ [m]) fun t => copyVerbatim t cwd source (front ++ m) := by
      rcases hm with rfl | hm
      · exact before.settled_copy_up source loc i _
      · exact before.settled_copy_name hm h0 apart source i
    obtain ⟨r, file?, copied⟩ := copy
    refine ⟨r.map fun _ => .copied, file?, fun t later => ?_⟩
    obtain ⟨u, hu, placed⟩ := copied t later
    refine ⟨u, ?_, placed⟩
    dsimp only
    rw [convertItem_of_copied (prepared t later) (hc ▸ classified t later) hu]
  | true =>
    have compiled := fun t later =>
      convertItem_of_compiled (d := d) (prepared t later) (hc ▸ classified t later)
    cases ha : (d.decompile s source).result with
    | error e =>
      refine .of_untouched (.error e) fun t later => ⟨t, ?_, .refl t⟩
      rw [compiled t later, answer t later, ha, quiet]
    | ok output =>
      cases success : output.success with
      | false =>
        refine .of_untouched (.error (.decompilerFailed source output)) fun t later => ⟨t, ?_, .refl t⟩
        rw [compiled t later, answer t later, ha, quiet]
        dsimp only
        rw [success, if_neg Bool.false_ne_true]
      | true =>
        have publish : Settled s cwd source loc i (dir ++ [m]) fun t =>
            LuaTree.publish t cwd (front ++ m) output.stdout := by
          rcases hm with rfl | hm
          · exact before.settled_publish_up source loc i _ output.stdout
          · exact before.settled_publish_name hm h0 source loc i output.stdout
        obtain ⟨r, file?, published⟩ := publish
        refine ⟨r.map fun _ => .converted, file?, fun t later => ?_⟩
        obtain ⟨u, hu, placed⟩ : ∃ u, LuaTree.publish t cwd (front ++ m) output.stdout = (r, u) ∧ _ :=
          published t later
        refine ⟨u, ?_, placed⟩
        dsimp only
        rw [compiled t later, answer t later, ha, quiet]
        dsimp only
        rw [success, if_pos rfl, hu]

end LuaTree
