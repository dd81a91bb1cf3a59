import LuaTree.Cli.Arguments
import LuaTree.Proofs.Cli.Number

/-!
# Giving slots their values

What a slot takes is a path that is not empty, or a number in its range (`Reads`). A slot gets a value once,
and the others stay as they are (`set_eq_ok`). So a list of assignments can be carried out if it assigns to
each slot at most once, and only what the slot takes; the order makes no difference (`setAll_eq_ok`).
-/

namespace LuaTree.Arguments

open Number

/-- What a slot can hold. -/
inductive Value where
  | path (p : PathText)
  | number (n : Nat)

/-- How a value is written for a slot. -/
inductive Reads : Slot → List Char → Value → Prop
  | path {slot p} : slot ≠ .jobs → slot ≠ .verbosity → p ≠ [] → Reads slot p (.path p)
  | jobs {t ds n} : Numeral ds n → n < 0x10000000000000000 → t = ds ∨ t = '+' :: ds → Reads .jobs t (.number n)
  | verbosity {t ds n} : Numeral ds n → n < 256 → t = ds ∨ t = '+' :: ds ∨ t = '-' :: ds ∧ n = 0 →
      Reads .verbosity t (.number n)

/-- What a slot holds. -/
def Given.get? (g : Given) : Slot → Option Value
  | .input => g.input.map .path
  | .runtime => g.runtime.map .path
  | .archive => g.archive.map .path
  | .toolDirectory => g.toolDirectory.map .path
  | .jobs => g.jobs.map .number
  | .verbosity => g.verbosity.map .number

variable {g h : Given} {slot : Slot} {t : List Char} {n : Nat} {p : PathText} {e : Stop}
  {assignments : List (Slot × List Char)}

theorem Given.has_eq (g : Given) (slot : Slot) : g.has slot = (g.get? slot).isSome := by
  cases slot <;> simp [Given.has, Given.get?]

/-- Values are given by what the slots hold. -/
theorem Given.ext_get? (same : ∀ slot, g.get? slot = h.get? slot) : g = h := by
  have paths : ∀ {a b : Option PathText}, a.map Value.path = b.map Value.path → a = b := fun hab =>
    Option.map_injective (fun _ _ => Value.path.inj) hab
  have numbers : ∀ {a b : Option Nat}, a.map Value.number = b.map Value.number → a = b := fun hab =>
    Option.map_injective (fun _ _ => Value.number.inj) hab
  cases g
  cases h
  rw [Given.mk.injEq]
  exact ⟨paths (same .input), paths (same .runtime), paths (same .archive),
    paths (same .toolDirectory), numbers (same .jobs), numbers (same .verbosity)⟩

/-! ## Reading -/

theorem readPath_eq_ok {q : PathText} : readPath slot t = .ok q ↔ t ≠ [] ∧ q = t := by
  unfold readPath
  by_cases h : t = []
  · simp [h]
  · simp [h, eq_comm]

theorem readJobs_eq_ok : readJobs t = .ok n ↔
    n < 0x10000000000000000 ∧ ∃ ds, Numeral ds n ∧ (t = ds ∨ t = '+' :: ds) := by
  have within : n < 0x10000000000000000 ↔ n ≤ jobsBound := Nat.lt_succ_iff
  rw [within, ← unsigned_eq_ok, readJobs]
  cases unsigned jobsBound t <;> simp

/-- A verbosity can have a minus sign only if it is zero. -/
theorem readVerbosity_eq_ok : readVerbosity t = .ok n ↔
    n < 256 ∧ ∃ ds, Numeral ds n ∧ (t = ds ∨ t = '+' :: ds ∨ t = '-' :: ds ∧ n = 0) := by
  have read : readVerbosity t = .ok n ↔ n < 256 ∧ signed 0x7FFFFFFFFFFFFFFF t = .ok (n : Int) := by
    unfold readVerbosity
    cases signed 0x7FFFFFFFFFFFFFFF t with
    | error f => simp
    | ok z =>
      have range : z ≤ verbosityBound ↔ z ≤ 255 := Iff.rfl
      dsimp only
      split
      · next hz =>
        rw [range] at hz
        simp only [Except.ok.injEq]
        omega
      · next hz =>
        rw [range] at hz
        simp only [Except.ok.injEq, reduceCtorEq, false_iff]
        omega
  rw [read, signed_eq_ok]
  refine and_congr_right fun hn => ⟨?_, ?_⟩
  · rintro ⟨ds, m, numeral, ⟨hm, _, ht⟩ | ⟨hm, _, ht⟩⟩
    · obtain rfl : n = m := by omega
      exact ⟨ds, numeral, ht.imp_right .inl⟩
    · -- a number below zero is out of range, so that only zero can have a minus sign
      obtain ⟨rfl, rfl⟩ : n = 0 ∧ m = 0 := by omega
      exact ⟨ds, numeral, .inr (.inr ⟨ht, rfl⟩)⟩
  · rintro ⟨ds, numeral, ht | ht | ⟨ht, rfl⟩⟩
    · exact ⟨ds, n, numeral, .inl ⟨rfl, by omega, .inl ht⟩⟩
    · exact ⟨ds, n, numeral, .inl ⟨rfl, by omega, .inr ht⟩⟩
    · exact ⟨ds, 0, numeral, .inr ⟨rfl, by omega, ht⟩⟩

theorem not_reads_nil {x : Value} : ¬Reads slot [] x := by
  intro h
  cases h with
  | path _ _ hp => exact hp rfl
  | jobs numeral _ text =>
    rcases text with rfl | ht
    · exact numeral.ne_nil rfl
    · cases ht
  | verbosity numeral _ text =>
    rcases text with rfl | ht | ⟨ht, _⟩
    · exact numeral.ne_nil rfl
    · cases ht
    · cases ht

/-- A slot that has no value yet gets one. -/
theorem Given.exists_set (free : g.get? slot = none) {x : Value} (h : Reads slot t x) :
    ∃ g', g.set slot t = .ok g' ∧ ∀ other, g'.get? other = if other = slot then some x else g.get? other := by
  have vacant : g.has slot = false := by rw [g.has_eq, free]; rfl
  have set : ∀ {b : Except Stop Given},
      (if g.has slot = true then .error (.mistake (.repeated slot)) else b) = b :=
    if_neg (by simp [vacant])
  cases h with
  | jobs numeral range text =>
    rw [Given.set, set, readJobs_eq_ok.2 ⟨range, _, numeral, text⟩]
    refine ⟨_, rfl, fun other => ?_⟩
    cases other <;> rfl
  | verbosity numeral range text =>
    rw [Given.set, set, readVerbosity_eq_ok.2 ⟨range, _, numeral, text⟩]
    refine ⟨_, rfl, fun other => ?_⟩
    cases other <;> rfl
  | path hj hv hp =>
    have read : readPath slot t = .ok t := readPath_eq_ok.2 ⟨hp, rfl⟩
    cases slot with
    | jobs => exact absurd rfl hj
    | verbosity => exact absurd rfl hv
    | input | runtime | archive | toolDirectory =>
      rw [Given.set, set, read]
      refine ⟨_, rfl, fun other => ?_⟩
      cases other <;> rfl

/-- What is set was free, and could be read. -/
theorem Given.reads_of_set {g' : Given} (h : g.set slot t = .ok g') :
    g.get? slot = none ∧ ∃ x, Reads slot t x := by
  unfold Given.set at h
  split at h
  · cases h
  · next vacant =>
    refine ⟨by simpa [g.has_eq] using vacant, ?_⟩
    have path : ∀ {slot : Slot} {f : PathText → Given}, slot ≠ .jobs → slot ≠ .verbosity →
        (readPath slot t).map f = .ok g' → ∃ x, Reads slot t x := by
      intro slot f hj hv hs
      cases hr : readPath slot t with
      | error e =>
        rw [hr] at hs
        cases hs
      | ok p => exact ⟨.path t, .path hj hv (readPath_eq_ok.1 hr).1⟩
    cases slot with
    | input | runtime | archive | toolDirectory => exact path (by simp) (by simp) h
    | jobs =>
      dsimp only at h
      cases hr : readJobs t with
      | error e =>
        rw [hr] at h
        cases h
      | ok n =>
        obtain ⟨range, ds, numeral, text⟩ := readJobs_eq_ok.1 hr
        exact ⟨.number n, .jobs numeral range text⟩
    | verbosity =>
      dsimp only at h
      cases hr : readVerbosity t with
      | error e =>
        rw [hr] at h
        cases h
      | ok n =>
        obtain ⟨range, ds, numeral, text⟩ := readVerbosity_eq_ok.1 hr
        exact ⟨.number n, .verbosity numeral range text⟩

/-- A slot gets its value once, and the other slots stay as they are. -/
theorem Given.set_eq_ok {g' : Given} : g.set slot t = .ok g' ↔ g.get? slot = none ∧ ∃ x, Reads slot t x ∧
    ∀ other, g'.get? other = if other = slot then some x else g.get? other := by
  constructor
  · intro h
    obtain ⟨free, x, reads⟩ := reads_of_set h
    obtain ⟨g'', h', got⟩ := exists_set free reads
    cases h.symm.trans h'
    exact ⟨free, x, reads, got⟩
  · rintro ⟨free, x, reads, got⟩
    obtain ⟨g'', h', got'⟩ := exists_set free reads
    obtain rfl : g'' = g' := ext_get? fun other => (got' other).trans (got other).symm
    exact h'

/-- Whatever keeps a slot from getting its value is a mistake on the command line. -/
theorem Given.set_eq_error (h : g.set slot t = .error e) : ∃ m, e = .mistake m := by
  unfold Given.set at h
  split at h
  · cases h
    exact ⟨_, rfl⟩
  · cases slot with
    | input | runtime | archive | toolDirectory =>
      dsimp only [readPath] at h
      split at h <;> cases h
      exact ⟨_, rfl⟩
    | jobs =>
      dsimp only [readJobs] at h
      cases hu : unsigned jobsBound t <;> rw [hu] at h <;> cases h
      exact ⟨_, rfl⟩
    | verbosity =>
      dsimp only [readVerbosity] at h
      cases hs : signed 0x7FFFFFFFFFFFFFFF t with
      | error f =>
        rw [hs] at h
        cases h
        exact ⟨_, rfl⟩
      | ok z =>
        rw [hs] at h
        dsimp only at h
        split at h <;> cases h
        exact ⟨_, rfl⟩

/-! ## Many assignments -/

/-- Carries out assignments, one after the other. -/
def Given.setAll (g : Given) (assignments : List (Slot × List Char)) : Except Stop Given :=
  assignments.foldlM (fun g a => g.set a.1 a.2) g

/-- The assignments give the values and no others, each of them once. -/
structure Given.Lists (g : Given) (assignments : List (Slot × List Char)) : Prop where
  once : (assignments.map Prod.fst).Nodup
  reads : ∀ {slot t}, (slot, t) ∈ assignments → ∃ x, Reads slot t x ∧ g.get? slot = some x
  only : ∀ {slot}, slot ∉ assignments.map Prod.fst → g.get? slot = none

theorem Given.setAll_cons (g : Given) (slot : Slot) (t : List Char) :
    g.setAll ((slot, t) :: assignments) = (g.set slot t) >>= fun h => h.setAll assignments := by
  rw [setAll, List.foldlM_cons]
  rfl

/-- Assignments can be carried out if each is to a slot of its own that is free, and can be read. -/
theorem Given.setAll_eq_ok {g' : Given} : g.setAll assignments = .ok g' ↔
    (assignments.map Prod.fst).Nodup ∧ (∀ slot ∈ assignments.map Prod.fst, g.get? slot = none) ∧
    (∀ a ∈ assignments, ∃ x, Reads a.1 a.2 x ∧ g'.get? a.1 = some x) ∧
    ∀ slot ∉ assignments.map Prod.fst, g'.get? slot = g.get? slot := by
  -- for all values that may be there already, since every assignment adds to them
  induction assignments generalizing g with
  | nil =>
    constructor
    · intro h
      cases h
      simp
    · rintro ⟨_, _, _, same⟩
      obtain rfl : g' = g := ext_get? fun slot => same slot (by simp)
      rfl
  | cons a rest ih =>
    obtain ⟨slot, t⟩ := a
    rw [setAll_cons]
    constructor
    · intro h
      cases hs : g.set slot t with
      | error e =>
        rw [hs] at h
        cases h
      | ok next =>
        rw [hs] at h
        obtain ⟨free, x, reads, got⟩ := set_eq_ok.1 hs
        obtain ⟨once, vacant, given, same⟩ := ih.1 h
        -- a later assignment to the slot would find it taken
        have new : slot ∉ rest.map Prod.fst := fun hm => by
          have taken := vacant slot hm
          rw [got, if_pos rfl] at taken
          cases taken
        refine ⟨List.nodup_cons.2 ⟨new, once⟩, ?_, ?_, fun other ho => ?_⟩
        · rw [List.map_cons, List.forall_mem_cons]
          refine ⟨free, fun other ho => ?_⟩
          have vacant := vacant other ho
          rwa [got, if_neg fun (heq : other = slot) => new (heq ▸ ho)] at vacant
        · rw [List.forall_mem_cons]
          refine ⟨⟨x, reads, ?_⟩, given⟩
          rw [same slot new, got, if_pos rfl]
        · rw [List.map_cons, List.mem_cons, not_or] at ho
          rw [same other ho.2, got, if_neg ho.1]
    · rintro ⟨once, vacant, given, same⟩
      rw [List.map_cons, List.nodup_cons] at once
      rw [List.map_cons, List.forall_mem_cons] at vacant
      rw [List.forall_mem_cons] at given
      obtain ⟨⟨x, reads, hx⟩, given⟩ := given
      obtain ⟨next, hs, got⟩ := exists_set vacant.1 reads
      rw [hs]
      refine ih.2 ⟨once.2, fun other ho => ?_, given, fun other ho => ?_⟩
      · rw [got, if_neg fun (heq : other = slot) => once.1 (heq ▸ ho)]
        exact vacant.2 other ho
      · rw [got]
        split
        · next heq =>
          subst heq
          exact hx
        · next hne => exact same other (by simp [hne, ho])

/-- Carried out from the start, assignments give what they list. -/
theorem Given.setAll_eq_ok_iff_lists : ( {} : Given).setAll assignments = .ok g ↔ g.Lists assignments := by
  have empty : ∀ slot, ( {} : Given).get? slot = none := fun slot => by cases slot <;> rfl
  rw [setAll_eq_ok]
  constructor
  · rintro ⟨once, _, reads, same⟩
    exact ⟨once, fun ha => reads _ ha, fun ho => (same _ ho).trans (empty _)⟩
  · rintro ⟨once, reads, only⟩
    exact ⟨once, fun slot _ => empty slot, fun a ha => reads ha, fun slot ho => (only ho).trans (empty slot).symm⟩

theorem Given.setAll_eq_error (h : g.setAll assignments = .error e) : ∃ m, e = .mistake m := by
  induction assignments generalizing g with
  | nil => cases h
  | cons a rest ih =>
    obtain ⟨slot, t⟩ := a
    rw [setAll_cons] at h
    cases hs : g.set slot t with
    | error f =>
      rw [hs] at h
      cases h
      exact set_eq_error hs
    | ok next =>
      rw [hs] at h
      exact ih h

end LuaTree.Arguments
