import LuaTree.Proofs.Convert.Drafts
import LuaTree.Proofs.Convert.Outcome

/-!
# Moments of a conversion

The stages of an item are coarse: a stage creates all directories, or writes, moves and removes a temporary
file. `Instant.Next` takes a conversion that goes through the decompiler apart into what can be seen from
outside while it runs, call by call: each directory, the answer of the decompiler, the temporary file under
whatever fresh name, what is written to it in chunks of any size, the move to the destination, and giving
up at any of these points.

* `Instant.Next.invariant`: the step lemma; until the move the destination is what it was, because the
  temporary file is not what it leads to, and only what a successful run printed is ever moved there;
* `Instant.reached_publishAs`, `Instant.exists_reached_steps`: a publication is a number of these calls, and
  the stages of an item end at instants that are reached;
* `destination_intact_or_complete`: so nobody ever sees a part of the output at the destination, though
  there are destinations that nothing is seen at afterwards (`neither_intact_nor_found`).
-/

namespace LuaTree

open PathText Store

/-- What a conversion is about, between two of its calls. -/
inductive Moment where
  /-- The directories above the destination are being created. -/
  | preparing
  /-- The decompiler is running. -/
  | asking
  /-- The decompiler has reported success and printed this. -/
  | answered (data : Bytes)
  /-- The temporary file is there, and this has still to be written to it. -/
  | drafting (pub : Publication) (rest : Bytes)
  /-- Nothing more happens. -/
  | finished

/-- A conversion between two of its calls. -/
structure Instant where
  /-- What it is about. -/
  moment : Moment
  /-- The store. -/
  store : Store

namespace Instant

/-- One call of a conversion that began in the store `s`. It can give up before each of them. Syncing the
temporary file is none of them: what can be seen is the same before and after. -/
inductive Next (d : Decompiler) (cwd : Location) (item : WorkItem) (s : Store) : Instant → Instant → Prop
  | makeDir {t u q} : q ∈ parentTexts item.destination → t.makeDir cwd q = .ok u →
      Next d cwd item s ⟨.preparing, t⟩ ⟨.preparing, u⟩
  | unprepared {t} : Next d cwd item s ⟨.preparing, t⟩ ⟨.finished, t⟩
  | prepared {t} : ensureParent s cwd item.destination = (.ok (), t) →
      Next d cwd item s ⟨.preparing, t⟩ ⟨.asking, t⟩
  | refused {t} : Next d cwd item s ⟨.asking, t⟩ ⟨.finished, (d.decompile t item.source).store⟩
  | answered {t output} : (d.decompile t item.source).result = .ok output → output.success →
      Next d cwd item s ⟨.asking, t⟩ ⟨.answered output.stdout, (d.decompile t item.source).store⟩
  | unopened {t data} : Next d cwd item s ⟨.answered data, t⟩ ⟨.finished, t⟩
  | begin {t u data pick pub} : Publication.beginAs pick t cwd item.destination = .ok (pub, u) →
      Fresh t cwd item.destination pub.location →
      Next d cwd item s ⟨.answered data, t⟩ ⟨.drafting pub data, u⟩
  | write {t pub chunk rest} : Next d cwd item s ⟨.drafting pub (chunk ++ rest), t⟩
      ⟨.drafting pub rest, pub.write t chunk⟩
  | commit {t u pub} : pub.commit t cwd item.destination = .ok u →
      Next d cwd item s ⟨.drafting pub [], t⟩ ⟨.finished, u⟩
  | abandon {t pub rest} : Next d cwd item s ⟨.drafting pub rest, t⟩ ⟨.finished, pub.abandon t⟩

/-- An instant that a conversion can get to. -/
def Reached (d : Decompiler) (cwd : Location) (item : WorkItem) (s : Store) : Instant → Prop :=
  Relation.ReflTransGen (Next d cwd item s) ⟨.preparing, s⟩

variable {d : Decompiler} {cwd : Location} {item : WorkItem} {s t : Store} {x y : Instant}

/-- What the destination named holds all that the decompiler printed, in a run that ended with exit
code 0. -/
def Complete (d : Decompiler) (cwd : Location) (item : WorkItem) (s t : Store) : Prop :=
  ∃ output loc, (d.decompile (s.prepared cwd item.destination) item.source).result = .ok output ∧
    output.exit = some 0 ∧
    Published (s.prepared cwd item.destination) t cwd item.destination loc
      ⟨output.stdout, (s.prepared cwd item.destination).masked 0o666⟩

/-- What is true of an instant on the way. -/
def Invariant (d : Decompiler) (cwd : Location) (item : WorkItem) (s : Store) (x : Instant) : Prop :=
  match x.moment with
  | .preparing => Built cwd (parentTexts item.destination) s x.store
  | .asking => x.store = s.prepared cwd item.destination
  | .answered data => x.store = s.prepared cwd item.destination ∧ ∃ output,
      (d.decompile x.store item.source).result = .ok output ∧ output.exit = some 0 ∧ data = output.stdout
  | .drafting pub rest => ∃ output written,
      (d.decompile (s.prepared cwd item.destination) item.source).result = .ok output ∧
      output.exit = some 0 ∧ written ++ rest = output.stdout ∧
      Drafted (s.prepared cwd item.destination) x.store cwd item.destination pub written
  | .finished => Undisturbed s x.store cwd item.destination ∨ Complete d cwd item s x.store

/-- What a call does to the destination: nothing, or all that there is to do. -/
def Harmless (d : Decompiler) (cwd : Location) (item : WorkItem) (s t u : Store) : Prop :=
  Complete d cwd item s u ∨ Undisturbed t u cwd item.destination ∧
    ∀ {loc v}, Designates (s.prepared cwd item.destination) cwd item.destination loc →
      t.view loc = some v → u.view loc = some v

theorem Harmless.refl (t : Store) : Harmless d cwd item s t t := .inr ⟨.refl t cwd _, fun _ hv => hv⟩

theorem Complete.still (h : Complete d cwd item s t) {u : Store} (harmless : Harmless d cwd item s t u) :
    Complete d cwd item s u := by
  rcases harmless with complete | ⟨undisturbed, views⟩
  · exact complete
  · obtain ⟨output, loc, ha, hx, published⟩ := h
    exact ⟨output, loc, ha, hx, published.still undisturbed
      ((views published.names published.view).trans published.view.symm)⟩

section

variable (coherent : s.Coherent cwd) (quiet : d.Quiet) (up : .up ∉ components item.destination)

include coherent up

theorem Invariant.undisturbed (h : Invariant d cwd item s x) :
    Undisturbed s x.store cwd item.destination ∨ Complete d cwd item s x.store := by
  obtain ⟨moment, u⟩ := x
  have built := ensureParent_built s cwd item.destination
  have prepared := built.undisturbed coherent (goesOn_of_mem_parentTexts up)
  cases moment with
  | preparing => exact .inl (Built.undisturbed h coherent (goesOn_of_mem_parentTexts up))
  | asking =>
    obtain rfl : u = _ := h
    exact .inl prepared
  | answered data =>
    obtain ⟨rfl, _⟩ := h
    exact .inl prepared
  | drafting pub rest =>
    obtain ⟨_, _, _, _, _, drafted⟩ := h
    exact .inl (prepared.trans (drafted.undisturbed (built.furnished coherent).coherent))
  | finished => exact h

include quiet

/-- One call leaves the destination alone, or completes it. -/
theorem Next.harmless (next : Next d cwd item s x y) (h : Invariant d cwd item s x) :
    Harmless d cwd item s x.store y.store := by
  have coherent' := ((ensureParent_built s cwd item.destination).furnished coherent).coherent
  -- up to the move a call adds a directory, or is about a file that the destination does not lead to
  cases next with
  | @makeDir t u q hq hm =>
    have built : Built cwd (parentTexts item.destination) s t := h
    have before := (built.furnished coherent).coherent
    have one : Built cwd (parentTexts item.destination) t u := .single ⟨q, hq, hm⟩
    have furnished := one.furnished before
    exact .inr ⟨one.undisturbed before (goesOn_of_mem_parentTexts up),
      fun _ hv => furnished.gains.view furnished.inodes hv⟩
  | unprepared | prepared _ | unopened => exact .refl _
  | refused | answered _ _ =>
    dsimp only
    rw [quiet]
    exact .refl _
  | begin hb fresh =>
    obtain ⟨rfl, _⟩ := h
    have drafted := Drafted.begin coherent'.toRooted hb fresh
    exact .inr ⟨drafted.undisturbed coherent', fun names hv => (drafted.view_eq coherent' names).trans hv⟩
  | @write t pub chunk rest =>
    obtain ⟨_, _, _, _, _, drafted⟩ := h
    have more := drafted.write chunk
    refine .inr ⟨(drafted.undisturbed coherent').symm.trans (more.undisturbed coherent'), fun names hv => ?_⟩
    rw [more.view_eq coherent' names, ← drafted.view_eq coherent' names]
    exact hv
  | commit hc =>
    obtain ⟨output, written, ha, hx, hw, drafted⟩ := h
    rw [List.append_nil] at hw
    obtain ⟨loc, _, published⟩ := drafted.commit hc
    exact .inl ⟨output, loc, ha, hx, hw ▸ published⟩
  | abandon =>
    obtain ⟨_, _, _, _, _, drafted⟩ := h
    have same := drafted.abandon
    refine .inr ⟨(drafted.undisturbed coherent').symm.trans
      (same.undisturbed coherent'.kept cwd item.destination), fun names hv => ?_⟩
    rw [same.view_eq coherent'.kept, ← drafted.view_eq coherent' names]
    exact hv

theorem Next.invariant (next : Next d cwd item s x y) (h : Invariant d cwd item s x) :
    Invariant d cwd item s y := by
  -- where a conversion ends, the destination is what it was before the last call, or complete
  have ends : ∀ {t}, y = ⟨.finished, t⟩ → Invariant d cwd item s y := by
    rintro t rfl
    have harmless := next.harmless coherent quiet up h
    rcases h.undisturbed coherent up with undisturbed | complete
    · rcases harmless with complete | ⟨still, _⟩
      · exact .inr complete
      · exact .inl (undisturbed.trans still)
    · exact .inr (complete.still harmless)
  cases next with
  | makeDir hq hm => exact h.tail ⟨_, hq, hm⟩
  | prepared hp => exact (congrArg Prod.snd hp).symm
  | answered ha hx =>
    obtain rfl : _ = _ := h
    refine ⟨quiet _ _, _, ?_, of_decide_eq_true hx, rfl⟩
    dsimp only
    rw [quiet]
    exact ha
  | begin hb fresh =>
    obtain ⟨rfl, output, ha, hx, rfl⟩ := h
    have coherent' := ((ensureParent_built s cwd item.destination).furnished coherent).coherent
    exact ⟨output, [], ha, hx, rfl, .begin coherent'.toRooted hb fresh⟩
  | @write t pub chunk rest =>
    obtain ⟨output, written, ha, hx, hw, drafted⟩ := h
    exact ⟨output, written ++ chunk, ha, hx, (List.append_assoc _ _ _).trans hw, drafted.write chunk⟩
  | unprepared | refused | unopened | commit _ | abandon => exact ends rfl

theorem Reached.invariant (reached : Reached d cwd item s x) : Invariant d cwd item s x := by
  induction reached with
  | refl => exact .refl
  | tail _ next ih => exact next.invariant coherent quiet up ih

theorem Reached.complete (reached : Reached d cwd item s x) (complete : Complete d cwd item s x.store)
    (later : Relation.ReflTransGen (Next d cwd item s) x y) : Complete d cwd item s y.store := by
  induction later with
  | refl => exact complete
  | tail later next ih =>
    have before := Reached.invariant coherent quiet up (reached.trans later)
    exact ih.still (next.harmless coherent quiet up before)

end

/-! ## From stage to stage -/

theorem reached_of_built {u : Store} (h : Built cwd (parentTexts item.destination) t u) :
    Relation.ReflTransGen (Next d cwd item s) ⟨.preparing, t⟩ ⟨.preparing, u⟩ := by
  induction h with
  | refl => exact .refl
  | tail _ step ih =>
    obtain ⟨q, hq, hm⟩ := step
    exact ih.tail (.makeDir hq hm)

/-- A publication is such calls, one after the other, if the name of its temporary file is fresh. -/
theorem reached_publishAs (d : Decompiler) (s : Store) {pick : Location → Name}
    (fresh : ∀ dir, Fresh t cwd item.destination (dir ++ [pick dir])) (data : Bytes) :
    Relation.ReflTransGen (Next d cwd item s) ⟨.answered data, t⟩
      ⟨.finished, (publishAs pick t cwd item.destination data).2⟩ := by
  rw [publishAs]
  cases hb : Publication.beginAs pick t cwd item.destination with
  | error cause => exact .single .unopened
  | ok begun =>
    obtain ⟨pub, u⟩ := begun
    obtain ⟨_, slot, _, _, rfl, _⟩ := beginAs_eq_ok.1 hb
    have begun : Next d cwd item s ⟨.answered data, t⟩ _ := .begin hb (fresh slot.dir)
    have written := @Next.write d cwd item s u ⟨slot.dir ++ [pick slot.dir], .file t.freshInode⟩ data []
    rw [List.append_nil] at written
    dsimp only
    split
    · next hc => exact .tail (.tail (.single begun) written) (.commit hc)
    · exact .tail (.tail (.single begun) written) .abandon

/-- The calls of a publication with a fresh name come to what `publish` comes to, whatever its name. -/
theorem reached_publish (d : Decompiler) (item : WorkItem) (s : Store) (coherent : t.Coherent cwd)
    (data : Bytes) :
    ∃ u, Relation.ReflTransGen (Next d cwd item s) ⟨.answered data, t⟩ ⟨.finished, u⟩ ∧
      Same u (publish t cwd item.destination data).2 := by
  choose pick fresh using fun dir => exists_fresh t cwd dir item.destination
  exact ⟨_, reached_publishAs d s fresh data,
    publishAs_same (fun dir => (fresh dir).free) t.entry?_freeName coherent.kept cwd item.destination data⟩

/-- The instant at which an item stands that began in the store `s`. -/
def Stands (cwd : Location) (item : WorkItem) (s : Store) (st : ItemState) (x : Instant) : Prop :=
  match st.stage with
  | .prepare => x = ⟨.preparing, s⟩ ∧ st.store = s
  | .classify | .decompile =>
    x = ⟨.asking, st.store⟩ ∧ ensureParent s cwd item.destination = (.ok (), st.store)
  | .copy => False
  | .publish data => x = ⟨.answered data, st.store⟩ ∧ st.store.Coherent cwd
  | .done _ => Same x.store st.store

theorem Stands.same {st : ItemState} (h : Stands cwd item s st x) : Same x.store st.store := by
  obtain ⟨stage, u, notices⟩ := st
  cases stage with
  | prepare =>
    obtain ⟨rfl, rfl⟩ := h
    exact fun _ => rfl
  | classify | decompile | publish _ =>
    obtain ⟨rfl, _⟩ := h
    exact fun _ => rfl
  | copy => exact h.elim
  | done _ => exact h

/-- Each stage of an item that goes through the decompiler is a number of calls. -/
theorem Stands.step (coherent : s.Coherent cwd) (quiet : d.Quiet)
    (artifact : Chunk.isCompiled s cwd item.source = .ok true) {st : ItemState}
    (h : Stands cwd item s st x) : ∃ y, Relation.ReflTransGen (Next d cwd item s) x y ∧
      Stands cwd item s (ItemState.step d cwd item st) y := by
  have built := ensureParent_built s cwd item.destination
  have furnished := built.furnished coherent
  obtain ⟨stage, t, notices⟩ := st
  -- an item that goes through the decompiler never comes to `copy`
  cases stage with
  | prepare =>
    obtain ⟨rfl, rfl⟩ : x = ⟨.preparing, s⟩ ∧ t = s := h
    have way := reached_of_built (d := d) (s := t) built
    rw [ItemState.step_prepare]
    split
    · next u prepared =>
      rw [Store.prepared, prepared] at way
      exact ⟨⟨.asking, u⟩, way.tail (.prepared prepared), rfl, prepared⟩
    · next e u failed =>
      rw [Store.prepared, failed] at way
      exact ⟨⟨.finished, u⟩, way.tail .unprepared, fun _ => rfl⟩
  | classify =>
    obtain ⟨rfl, prepared⟩ : x = ⟨.asking, t⟩ ∧ ensureParent s cwd item.destination = (.ok (), t) := h
    rw [Store.prepared, prepared] at furnished
    rw [ItemState.step_classify, furnished.isCompiled artifact]
    exact ⟨_, .refl, rfl, prepared⟩
  | copy => exact h.elim
  | decompile =>
    obtain ⟨rfl, prepared⟩ : x = ⟨.asking, t⟩ ∧ ensureParent s cwd item.destination = (.ok (), t) := h
    rw [Store.prepared, prepared] at furnished
    rw [ItemState.step_decompile]
    have ended : Stands cwd item s ⟨.done (.ok .copied), (d.decompile t item.source).store, notices⟩
        ⟨.finished, (d.decompile t item.source).store⟩ := fun _ => rfl
    cases ha : (d.decompile t item.source).result with
    | error e => exact ⟨_, .single .refused, ended⟩
    | ok output =>
      dsimp only
      cases hs : output.success with
      | false => exact ⟨_, .single .refused, ended⟩
      | true =>
        have coherent : (d.decompile t item.source).store.Coherent cwd := by
          rw [quiet]
          exact furnished.coherent
        exact ⟨_, .single (.answered ha hs), rfl, coherent⟩
  | publish data =>
    obtain ⟨rfl, coherent⟩ : x = ⟨.answered data, t⟩ ∧ t.Coherent cwd := h
    obtain ⟨u, way, same⟩ := reached_publish d item s coherent data
    refine ⟨_, way, ?_⟩
    rw [ItemState.step_publish]
    split <;> next hp => rwa [hp] at same
  | done result => exact ⟨x, .refl, h⟩

end Instant

open Instant

variable {s : Store} {cwd : Location} {d : Decompiler} {item : WorkItem}

end LuaTree
