import LuaTree.Proofs.Store.Tour

/-!
# Where a lookup ends

`Reaches` says where a lookup ends, without its trail and with the number of links that it follows: in any
store, from a working directory that may be gone, and also at a free name where something can be created.
It is a relation that follows the steps, so what is to be known about lookups is proved by induction on it:

* `tour_of_reaches`, `reaches_of_tour`: within the limit on links a lookup ends exactly there;
* `Reaches.entry`, `Reaches.free_name`: what stands at the end, or that nothing does;
* `Reaches.ends_in_name`: a lookup that does not end in a name leads to a directory;
* `Reaches.settle`: in a store that has gained entries, the same steps lead to the same entry, and to the
  new one where the name was free.
-/

namespace LuaTree

namespace Store

/-- From the directory at `a` the steps lead to a place, over `k` links. -/
inductive Reaches (s : Store) (last : LastName) : Nat → Location → List Step → Place → Prop
  | here {a} : Reaches s last 0 a [] (.entry a (( s.entry? a).getD (.dir removedMode)))
  | stay {k a ahead place} : Reaches s last k a ahead place → Reaches s last k a (.stay :: ahead) place
  | slash {k a ahead place} : Reaches s last k a ahead place → Reaches s last k a (.slash :: ahead) place
  | up {k a ahead place} : Reaches s last k a.dropLast ahead place →
      Reaches s last k a (.up :: ahead) place
  | dir {k a n mode ahead place} : s.entry? (a ++ [n]) = some (.dir mode) →
      Utf8.byteLength n ≤ nameLimit → ¬(last = .create ∧ ahead = [.slash]) →
      Reaches s last k (a ++ [n]) ahead place → Reaches s last k a (.enter n :: ahead) place
  | link {k a n target ahead place} : s.entry? (a ++ [n]) = some (.link target) →
      Utf8.byteLength n ≤ nameLimit → ¬(last = .create ∧ ahead = [.slash]) →
      ¬(last = .keep ∧ ahead = []) →
      Reaches s last k (start a target) (Step.ofPath target ++ ahead) place →
      Reaches s last (k + 1) a (.enter n :: ahead) place
  | kept {a n target} : s.entry? (a ++ [n]) = some (.link target) →
      Utf8.byteLength n ≤ nameLimit → last = .keep →
      Reaches s last 0 a [.enter n] (.entry (a ++ [n]) (.link target))
  | last {a n e} : s.entry? (a ++ [n]) = some e → Utf8.byteLength n ≤ nameLimit →
      e.isPassage = false → Reaches s last 0 a [.enter n] (.entry (a ++ [n]) e)
  | free {a n} : s.entry? (a ++ [n]) = none → Utf8.byteLength n ≤ nameLimit → last = .create →
      ( s.entry? a).isSome → Reaches s last 0 a [.enter n] (.vacant a n)

variable {s t : Store} {last : LastName} {k links : Nat} {a b dir : Location} {steps : List Step}
  {place : Place} {e : Entry} {n : Name}

/-! ## Lookups -/

/-- Within the limit on links, a lookup ends where the relation says. -/
theorem tour_of_reaches (h : Reaches s last k a steps place) : ∀ links, k ≤ links →
    s.tour last links a steps = .ok place := by
  induction h with
  | here =>
    intro links _
    exact tour_nil s last links _
  | stay _ ih =>
    intro links hk
    rw [tour_stay, ih links hk]
  | slash _ ih =>
    intro links hk
    rw [tour_slash, ih links hk]
  | up _ ih =>
    intro links hk
    rw [tour_up, ih links hk]
  | dir he hn hs _ ih =>
    intro links hk
    rw [tour_enter, if_neg hs, if_neg (Nat.not_lt.2 hn), he]
    exact ih links hk
  | link he hn hs hl _ ih =>
    intro links hk
    -- a link takes one off the links that may still be followed
    obtain ⟨m, rfl⟩ : ∃ m, links = m + 1 := ⟨links - 1, by omega⟩
    rw [tour_enter, if_neg hs, if_neg (Nat.not_lt.2 hn), he]
    simp only [if_neg hl, detour]
    exact ih m (by omega)
  | kept he hn hl =>
    intro links _
    rw [tour_enter, if_neg (by simp), if_neg (Nat.not_lt.2 hn), he]
    simp only [hl, and_self, if_true]
  | @last a n e he hn hp =>
    intro links _
    rw [tour_enter, if_neg (by simp), if_neg (Nat.not_lt.2 hn), he]
    cases e with
    | dir _ | link _ => cases hp
    | file _ | fifo | device _ => rfl
  | free he hn hl ha =>
    intro links _
    rw [tour_enter, if_neg (by simp), if_neg (Nat.not_lt.2 hn), he]
    simp only [hl, ha, and_self, if_true]

/-- A lookup takes its steps as the relation says, if what it does behind a link is in the relation. -/
theorem reaches_of_tour_of_detour (behind : ∀ a target ahead place,
      s.detour last a target ahead links = .ok place →
      ∃ k, k + 1 ≤ links ∧ Reaches s last k (start a target) (Step.ofPath target ++ ahead) place) :
    ∀ (steps : List Step) (a : Location) (place : Place), s.tour last links a steps = .ok place →
      ∃ k ≤ links, Reaches s last k a steps place := by
  intro steps
  -- on the steps alone: what a lookup does behind a link is given by `behind`
  induction steps with
  | nil =>
    intro a place h
    rw [tour_nil] at h
    cases h
    exact ⟨0, Nat.zero_le links, .here⟩
  | cons st ahead ih =>
    intro a place h
    cases st with
    | stay =>
      rw [tour_stay] at h
      obtain ⟨k, hk, hr⟩ := ih a place h
      exact ⟨k, hk, .stay hr⟩
    | slash =>
      rw [tour_slash] at h
      obtain ⟨k, hk, hr⟩ := ih a place h
      exact ⟨k, hk, .slash hr⟩
    | up =>
      rw [tour_up] at h
      obtain ⟨k, hk, hr⟩ := ih a.dropLast place h
      exact ⟨k, hk, .up hr⟩
    | enter n =>
      rw [tour_enter] at h
      split at h
      · cases h
      next hs =>
      split at h
      · cases h
      next hn =>
      have hn := Nat.not_lt.1 hn
      split at h
      · next he =>
        split at h
        · next hv =>
          obtain ⟨hl, rfl, ha⟩ := hv
          cases h
          exact ⟨0, Nat.zero_le links, .free he hn hl ha⟩
        · cases h
      · next target he =>
        split at h
        · next hl =>
          obtain ⟨hl, rfl⟩ := hl
          cases h
          exact ⟨0, Nat.zero_le links, .kept he hn hl⟩
        · next hl =>
          -- behind a link the steps ahead are others, so that the induction says nothing of them
          obtain ⟨k, hk, hr⟩ := behind a target ahead place h
          exact ⟨k + 1, hk, .link he hn hs hl hr⟩
      · next mode he =>
        obtain ⟨k, hk, hr⟩ := ih (a ++ [n]) place h
        exact ⟨k, hk, .dir he hn hs hr⟩
      · next e hlink hdir he =>
        split at h
        · next ha =>
          subst ha
          cases h
          refine ⟨0, Nat.zero_le links, .last he hn ?_⟩
          cases e with
          | dir mode => exact absurd rfl (hdir mode)
          | link target => exact absurd rfl (hlink target)
          | file _ | fifo | device _ => rfl
        · cases h

/-- Where a lookup ended is where the relation says. -/
theorem reaches_of_tour (h : s.tour last links a steps = .ok place) :
    ∃ k ≤ links, Reaches s last k a steps place := by
  induction links generalizing a steps place with
  | zero =>
    refine reaches_of_tour_of_detour ?_ steps a place h
    intro a target ahead place hd
    cases hd
  | succ links ih =>
    refine reaches_of_tour_of_detour ?_ steps a place h
    intro a target ahead place hd
    obtain ⟨k, hk, hr⟩ := ih hd
    exact ⟨k, Nat.succ_le_succ hk, hr⟩

/-! ## What is there -/

/-- What a lookup ends at stands there, but for a directory that is gone. -/
theorem Reaches.entry (h : Reaches s last k a steps (.entry b e)) (he : e.isDir = false) :
    s.entry? b = some e := by
  generalize hp : Place.entry b e = place at h
  induction h with
  | @here a =>
    cases ha : s.entry? a with
    | none =>
      rw [ha] at hp
      cases hp
      cases he
    | some f =>
      rw [ha] at hp
      cases hp
      exact ha
  | stay _ ih | slash _ ih | up _ ih | dir _ _ _ _ ih | link _ _ _ _ _ ih => exact ih hp
  | kept hf _ _ | last hf _ _ =>
    cases hp
    exact hf
  | free _ _ _ _ => cases hp

/-- Nothing stands at a free name. -/
theorem Reaches.free_name (h : Reaches s last k a steps (.vacant dir n)) :
    s.entry? (dir ++ [n]) = none := by
  generalize hp : Place.vacant dir n = place at h
  induction h with
  | here | kept _ _ _ | last _ _ _ => cases hp
  | stay _ ih | slash _ ih | up _ ih | dir _ _ _ _ ih | link _ _ _ _ _ ih => exact ih hp
  | free he _ _ _ =>
    cases hp
    exact he

/-- On the way to a location nothing but directories stands, so that a lookup can start there. -/
def Passable (s : Store) (a : Location) : Prop := ∀ b e, b <+: a → s.entry? b = some e → e.isDir

theorem Passable.start (h : Passable s a) (p : PathText) : Passable s (start a p) := by
  intro b e hb he
  refine h b e (hb.trans ?_) he
  rw [Store.start]
  split
  · exact List.nil_prefix
  · exact List.prefix_refl a

theorem Passable.snoc {mode : Nat} (h : Passable s a) (he : s.entry? (a ++ [n]) = some (.dir mode)) :
    Passable s (a ++ [n]) := by
  intro b e hb hbe
  rcases List.prefix_concat_iff.1 hb with rfl | hb
  · rw [he] at hbe
    cases hbe
    rfl
  · exact h b e hb hbe

/-- Only a name at the end leads to anything but a directory. -/
theorem Reaches.ends_in_name (h : Reaches s last k a steps (.entry b e)) (way : Passable s a)
    (he : e.isDir = false) : ∃ front n, steps = front ++ [.enter n] := by
  generalize hp : Place.entry b e = place at h
  induction h with
  | here =>
    cases hp
    cases hb : s.entry? b with
    | none =>
      rw [hb] at he
      cases he
    | some f =>
      rw [hb, Option.getD_some, way b f (List.prefix_refl b) hb] at he
      cases he
  | stay _ ih | slash _ ih =>
    obtain ⟨front, n, rfl⟩ := ih way hp
    exact ⟨_ :: front, n, rfl⟩
  | @up _ a _ _ _ ih =>
    obtain ⟨front, n, rfl⟩ := ih (fun b e hb => way b e (hb.trans (List.dropLast_prefix a))) hp
    exact ⟨_ :: front, n, rfl⟩
  | dir hd _ _ _ ih =>
    obtain ⟨front, n, rfl⟩ := ih (way.snoc hd) hp
    exact ⟨_ :: front, n, rfl⟩
  | @link _ _ n target ahead _ _ _ _ _ _ ih =>
    obtain ⟨front, m, hs⟩ := ih (way.start target) hp
    -- the last step is one of those behind the link, if there are any
    rcases List.eq_nil_or_concat' ahead with rfl | ⟨rest, st, rfl⟩
    · exact ⟨[], n, rfl⟩
    · rw [← List.append_assoc] at hs
      cases (List.append_inj' hs rfl).2
      exact ⟨.enter n :: rest, m, rfl⟩
  | @kept _ n _ _ _ _ | @last _ n _ _ _ _ => exact ⟨[], n, rfl⟩
  | free _ _ _ _ => cases hp

/-! ## Stores that have gained entries -/

/-- What stands in one store stands in the other as well. -/
def Gains (s t : Store) : Prop := ∀ loc e, s.entry? loc = some e → t.entry? loc = some e

theorem Gains.refl (s : Store) : Gains s s := fun _ _ h => h

end Store

/-- Where a lookup leads once a new entry stands at the free name that it ended at. -/
def Place.settled (fresh : Entry) : Place → Place
  | .entry b e => .entry b e
  | .vacant dir n => .entry (dir ++ [n]) fresh

namespace Store

variable {s t : Store} {cwd : Location} {last : LastName} {k : Nat} {a b : Location} {steps : List Step}
  {place : Place} {e fresh : Entry} {p : PathText}

/-- What steps led to they still lead to, followed to the end; where the name was free, they lead to what
stands there now. -/
theorem Reaches.settle (h : Reaches s last k a steps place) (hl : last ≠ .keep) (gains : Gains s t)
    (plain : fresh.isPassage = false)
    (old : ∀ b e, place = .entry b e → e.isDir = false)
    (new : ∀ dir n, place = .vacant dir n → t.entry? (dir ++ [n]) = some fresh) :
    Reaches t .follow k a steps (place.settled fresh) := by
  induction h with
  | @here a =>
    cases ha : s.entry? a with
    | none =>
      rw [ha] at old
      cases old a _ rfl
    | some e =>
      have hb := gains a e ha
      have there : Reaches t .follow 0 a [] (.entry a (( t.entry? a).getD (.dir removedMode))) := .here
      rw [hb] at there
      exact there
  | stay _ ih => exact .stay (ih old new)
  | slash _ ih => exact .slash (ih old new)
  | up _ ih => exact .up (ih old new)
  | dir he hn _ _ ih => exact .dir (gains _ _ he) hn (by simp) (ih old new)
  | link he hn _ _ _ ih => exact .link (gains _ _ he) hn (by simp) (by simp) (ih old new)
  | kept _ _ hk => exact absurd hk hl
  | last he hn hp => exact .last (gains _ _ he) hn hp
  | @free a n he hn _ _ => exact .last (new a n rfl) hn plain

/-! ## Lookups by path -/

theorem lookup_eq_ok : s.lookup cwd last p = .ok place ↔ checkText p = .ok () ∧
    ∃ k ≤ linkLimit, Reaches s last k (start cwd p) (Step.ofPath p) place := by
  cases hc : checkText p with
  | error cause => simp [lookup_of_checkText_error s cwd last hc]
  | ok _ =>
    rw [lookup_eq s cwd last hc]
    constructor
    · intro h
      cases ht : s.tour last linkLimit (start cwd p) (Step.ofPath p) with
      | error cause =>
        rw [ht] at h
        cases h
      | ok found =>
        rw [ht] at h
        cases h
        exact ⟨rfl, reaches_of_tour ht⟩
    · rintro ⟨_, k, hk, hr⟩
      rw [tour_of_reaches hr linkLimit hk]
      rfl

theorem stat?_eq_ok_iff_lookup : s.stat? cwd p = .ok (b, e) ↔
    s.lookup cwd .follow p = .ok (.entry b e) := by
  constructor
  · intro h
    rw [stat?, entryAt?] at h
    cases hl : s.lookup cwd .follow p with
    | error cause =>
      rw [hl] at h
      cases h
    | ok found =>
      rw [hl] at h
      cases found with
      | entry b e =>
        cases h
        rfl
      | vacant dir n => cases h
  · exact stat?_of_lookup

/-- A path that is written with a separator at its end leads to a directory, or nowhere. -/
theorem isDir_of_trailing_separator (h : s.lookup cwd last p = .ok (.entry b e)) (way : Passable s cwd)
    (hp : p.getLast? = some '/') : e.isDir := by
  obtain ⟨_, k, _, hr⟩ := lookup_eq_ok.1 h
  cases he : e.isDir with
  | true => rfl
  | false =>
    obtain ⟨front, n, hs⟩ := hr.ends_in_name (way.start p) he
    rw [Step.ofPath, if_pos hp] at hs
    cases (List.append_inj' hs rfl).2

/-- What a path leads to stands there, but for a directory that is gone. -/
theorem entry_of_lookup (h : s.lookup cwd last p = .ok (.entry b e)) (he : e.isDir = false) :
    s.entry? b = some e := by
  obtain ⟨_, k, _, hr⟩ := lookup_eq_ok.1 h
  exact hr.entry he

theorem free_of_lookup {dir : Location} {n : Name} (h : s.lookup cwd last p = .ok (.vacant dir n)) :
    s.entry? (dir ++ [n]) = none := by
  obtain ⟨_, k, _, hr⟩ := lookup_eq_ok.1 h
  exact hr.free_name

/-- A path that led to something other than a directory still leads there, and one that could be created
leads to what has been. -/
theorem lookup_settle (fresh : Entry) (h : s.lookup cwd last p = .ok place) (hl : last ≠ .keep)
    (gains : Gains s t) (plain : fresh.isPassage = false) (old : ∀ b e, place = .entry b e → e.isDir = false)
    (new : ∀ dir n, place = .vacant dir n → t.entry? (dir ++ [n]) = some fresh) :
    t.lookup cwd .follow p = .ok (place.settled fresh) := by
  obtain ⟨hc, k, hk, hr⟩ := lookup_eq_ok.1 h
  exact lookup_eq_ok.2 ⟨hc, k, hk, hr.settle hl gains plain old new⟩

end Store

end LuaTree
