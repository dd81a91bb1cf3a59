import LuaTree.Proofs.Path.Normal
import LuaTree.Proofs.Store.Sound
import Mathlib.Data.List.Induction

/-!
# What a lookup does at a step

A lookup carries a trail of trees. `tour` is the same from a location: what it does at each step
(`tour_stay`, `tour_slash`, `tour_up`, `tour_enter`) is all that is known of lookups elsewhere. The lookups
by path are tours of the steps of their texts (`lookup_eq`, `locate_eq`).

Steps can be left out where they make no difference (`Thins`), and stores can be exchanged that have the
same directories and links (`Keeps`).
-/

namespace LuaTree

namespace Trail

variable (root : Tree Entry) (loc : Location)

theorem ofLocation_concat (n : Name) : ofLocation root (loc ++ [n]) = (ofLocation root loc).enter n := by
  rw [ofLocation, List.foldl_append]
  rfl

theorem location_ofLocation : (ofLocation root loc).location = loc := by
  induction loc using List.reverseRecOn with
  | nil => rfl
  | append_singleton loc n ih =>
    rw [ofLocation_concat]
    show (n :: (ofLocation root loc).way.map Prod.fst).reverse = loc ++ [n]
    rw [List.reverse_cons]
    exact congrArg (· ++ [n]) ih

theorem here_ofLocation : (ofLocation root loc).here = root.sub loc := by
  induction loc using List.reverseRecOn with
  | nil => rfl
  | append_singleton loc n ih =>
    rw [ofLocation_concat, Tree.sub_append]
    show (ofLocation root loc).here.child n = (root.sub loc).child n
    rw [ih]

theorem root_ofLocation : (ofLocation root loc).root = root := by
  induction loc using List.reverseRecOn with
  | nil => rfl
  | append_singleton loc n ih => rw [ofLocation_concat]; exact ih

theorem top_ofLocation : (ofLocation root loc).top = ofLocation root [] := by
  rw [top, root_ofLocation]
  rfl

theorem up_ofLocation : (ofLocation root loc).up = ofLocation root loc.dropLast := by
  induction loc using List.reverseRecOn with
  | nil => rfl
  | append_singleton loc n _ =>
    rw [ofLocation_concat, List.dropLast_concat]
    rfl

end Trail

/-- An entry that a lookup passes through. -/
def Entry.isPassage : Entry → Bool
  | .dir _ | .link _ => true
  | _ => false

namespace Store

/-- Takes the steps ahead from a directory, following at most `links` links. -/
def tour (s : Store) (last : LastName) (links : Nat) (a : Location) (steps : List Step) :
    Except Errno Place :=
  walk last links (Trail.ofLocation s.tree a) steps

variable {s t : Store} {last : LastName} {links : Nat} {a b : Location}

theorem walk_eq (last : LastName) (links : Nat) : ∃ expand, walk last links = walkWith last expand := by
  cases links with
  | zero => exact ⟨_, rfl⟩
  | succ links => exact ⟨_, rfl⟩

theorem tour_nil (s : Store) (last : LastName) (links : Nat) (a : Location) :
    s.tour last links a [] = .ok (.entry a (( s.entry? a).getD (.dir removedMode))) := by
  obtain ⟨expand, he⟩ := walk_eq last links
  rw [tour, he, walkWith, Trail.location_ofLocation, Trail.here_ofLocation]
  rfl

theorem tour_stay (s : Store) (last : LastName) (links : Nat) (a : Location) (ahead : List Step) :
    s.tour last links a (.stay :: ahead) = s.tour last links a ahead := by
  obtain ⟨expand, he⟩ := walk_eq last links
  rw [tour, tour, he, walkWith]

theorem tour_slash (s : Store) (last : LastName) (links : Nat) (a : Location) (ahead : List Step) :
    s.tour last links a (.slash :: ahead) = s.tour last links a ahead := by
  obtain ⟨expand, he⟩ := walk_eq last links
  rw [tour, tour, he, walkWith]

theorem tour_up (s : Store) (last : LastName) (links : Nat) (a : Location) (ahead : List Step) :
    s.tour last links a (.up :: ahead) = s.tour last links a.dropLast ahead := by
  obtain ⟨expand, he⟩ := walk_eq last links
  rw [tour, tour, he, walkWith, Trail.up_ofLocation]

/-- The link at a name, followed: its text is looked up from the directory it stands in. -/
def detour (s : Store) (last : LastName) (a : Location) (target : PathText) (ahead : List Step) :
    Nat → Except Errno Place
  | 0 => .error .tooManyLinks
  | links + 1 => s.tour last links (start a target) (Step.ofPath target ++ ahead)

/-- Everything that a lookup can do at a name. -/
theorem tour_enter (s : Store) (last : LastName) (links : Nat) (a : Location) (n : Name)
    (ahead : List Step) : s.tour last links a (.enter n :: ahead) =
      if last = .create ∧ ahead = [.slash] then .error .isDirectory
      else if nameLimit < Utf8.byteLength n then .error .nameTooLong
      else
        match s.entry? (a ++ [n]) with
        | none =>
          if last = .create ∧ ahead = [] ∧ ( s.entry? a).isSome then .ok (.vacant a n)
          else .error .noEntry
        | some (.link target) =>
          if last = .keep ∧ ahead = [] then .ok (.entry (a ++ [n]) (.link target))
          else s.detour last a target ahead links
        | some (.dir _) => s.tour last links (a ++ [n]) ahead
        | some e => if ahead = [] then .ok (.entry (a ++ [n]) e) else .error .notDirectory := by
  have held : ((Trail.ofLocation s.tree a).here.child n).held = s.entry? (a ++ [n]) := by
    rw [Trail.here_ofLocation, entry?, Tree.get?, Tree.sub_append]
    rfl
  have here : (Trail.ofLocation s.tree a).here.held = s.entry? a := by
    rw [Trail.here_ofLocation]
    rfl
  have entered : (Trail.ofLocation s.tree a).enter n = Trail.ofLocation s.tree (a ++ [n]) :=
    (Trail.ofLocation_concat s.tree a n).symm
  have expanded : ∀ target : PathText,
      (if PathText.isAbsolute target then (Trail.ofLocation s.tree a).top
        else Trail.ofLocation s.tree a) = Trail.ofLocation s.tree (start a target) := by
    intro target
    rw [Trail.top_ofLocation, start]
    split <;> rfl
  cases links with
  | zero =>
    rw [tour, walk, walkWith, held, here, entered, Trail.location_ofLocation,
      Trail.location_ofLocation]
    rfl
  | succ links =>
    rw [tour, walk, walkWith, held, here, entered, Trail.location_ofLocation,
      Trail.location_ofLocation]
    simp only [expanded]
    rfl

theorem holdsDir_start (rooted : s.Rooted) (ha : s.holdsDir a) (p : PathText) :
    s.holdsDir (start a p) := by
  unfold start
  split
  · exact rooted.root
  · exact ha

/-! ## Steps that make no difference -/

/-- The second list of steps is the first one with some `.` and separators left out. -/
inductive Thins : List Step → List Step → Prop
  | nil : Thins [] []
  | keep {st xs ys} : Thins xs ys → Thins (st :: xs) (st :: ys)
  | stay {xs ys} : Thins xs ys → Thins (.stay :: xs) ys
  | slash {xs ys} : Thins xs ys → Thins (.slash :: xs) ys

theorem Thins.refl (xs : List Step) : Thins xs xs := by
  induction xs with
  | nil => exact .nil
  | cons st xs ih => exact .keep ih

theorem Thins.prepend {xs ys : List Step} (h : Thins xs ys) (front : List Step) :
    Thins (front ++ xs) (front ++ ys) := by
  induction front with
  | nil => exact h
  | cons st front ih => exact .keep ih

/-! ## Stores that keep their directories and links -/

/-- The directories and links of one store are in the other as well. -/
def Keeps (s t : Store) : Prop :=
  ∀ loc e, s.entry? loc = some e → e.isPassage → t.entry? loc = some e

theorem Keeps.refl (s : Store) : Keeps s s := fun _ _ h _ => h

theorem Keeps.trans {u : Store} (h : Keeps s t) (h' : Keeps t u) : Keeps s u :=
  fun loc e he hp => h' loc e (h loc e he hp) hp

theorem Keeps.holdsDir (h : Keeps s t) {loc : Location} (hd : s.holdsDir loc) : t.holdsDir loc := by
  obtain ⟨mode, he⟩ := holdsDir_iff.1 hd
  exact holdsDir_of_entry (h loc _ he rfl)

open PathText

variable {cwd : Location} {p : PathText}

/-! ## Texts -/

/-- A text without NUL that says something can only be too long. -/
theorem checkText_eq (h : '\x00' ∉ p) (hne : p ≠ []) : checkText p =
    if pathLimit ≤ Utf8.byteLength p then .error (.os .nameTooLong) else .ok () := by
  rw [checkText, if_neg h, if_neg hne]

theorem checkText_eq_ok : checkText p = .ok () ↔
    '\x00' ∉ p ∧ p ≠ [] ∧ Utf8.byteLength p < pathLimit := by
  unfold checkText
  split
  · next h => simp [h]
  · next h =>
    split
    · next hne => simp [hne]
    · next hne =>
      split
      · next hl => simp [Nat.not_lt.2 hl]
      · next hl => simp [h, hne, Nat.not_le.1 hl]

theorem start_of_isAbsolute_eq {q : PathText} (h : isAbsolute p = isAbsolute q) (cwd : Location) :
    start cwd p = start cwd q := by
  rw [start, start, h]

/-! ## Lookups -/

theorem lookup_eq (s : Store) (cwd : Location) (last : LastName) (h : checkText p = .ok ()) :
    s.lookup cwd last p =
      (s.tour last linkLimit (start cwd p) (Step.ofPath p)).mapError .os := by
  unfold lookup follow tour
  rw [h]
  dsimp only [bind, Except.bind]
  cases walk last linkLimit (Trail.ofLocation s.tree (start cwd p)) (Step.ofPath p) <;> rfl

theorem lookup_of_checkText_error (s : Store) (cwd : Location) (last : LastName) {cause : IoError}
    (h : checkText p = .error cause) : s.lookup cwd last p = .error cause := by
  unfold lookup
  rw [h]
  rfl

theorem stat?_of_lookup {e : Entry} (h : s.lookup cwd .follow p = .ok (.entry b e)) :
    s.stat? cwd p = .ok (b, e) := by
  rw [stat?, entryAt?, h]
  rfl

theorem stat?_of_lookup_error {cause : IoError} (h : s.lookup cwd .follow p = .error cause) :
    s.stat? cwd p = .error cause := by
  rw [stat?, entryAt?, h]
  rfl

theorem isDir_iff {s : Store} {cwd : Location} {p : PathText} :
    s.isDir cwd p ↔ ∃ loc mode, s.stat? cwd p = .ok (loc, .dir mode) := by
  unfold isDir
  split
  · next loc e h =>
    rw [h]
    cases e <;> simp [Entry.isDir]
  · next h => simp [h]

theorem isFile_iff {s : Store} {cwd : Location} {p : PathText} :
    s.isFile cwd p ↔ ∃ loc i, s.stat? cwd p = .ok (loc, .file i) := by
  unfold isFile
  split
  · next loc e h =>
    rw [h]
    cases e <;> simp [Entry.isFile]
  · next h => simp [h]

/-! ## Locating -/

/-- The steps of a path without the separators at its end. -/
def bareSteps (p : PathText) : List Step := (Step.ofPath p).filter (· ≠ .slash)

/-- The name at the end of a path, with a lookup in mind: `.` and `..` are none. -/
def lastName? (p : PathText) : Option Name :=
  match (bareSteps p).getLast? with
  | some (.enter n) => some n
  | _ => none

theorem locate_eq (s : Store) (cwd : Location) (h : checkText p = .ok ()) : s.locate cwd p =
    match s.tour .follow linkLimit (start cwd p) ((bareSteps p).dropLast ++ [.slash]) with
    | .error e => .error (.os e)
    | .ok (.vacant _ _) => .error (.os .noEntry)
    | .ok (.entry dir _) =>
      match lastName? p with
      | none => .ok { dir, name? := none, slash := decide (p.getLast? = some '/') }
      | some n =>
        if nameLimit < Utf8.byteLength n then .error (.os .nameTooLong)
        else if !s.holdsDir dir then .error (.os .noEntry)
        else .ok { dir, name? := some n, slash := decide (p.getLast? = some '/') } := by
  unfold locate lastName? bareSteps tour follow
  rw [h]
  dsimp only [bind, Except.bind]
  generalize walk _ _ _ _ = found
  generalize ((Step.ofPath p).filter (· ≠ .slash)).getLast? = last
  cases found with
  | error e => rfl
  | ok place =>
    cases place with
    | vacant _ _ => rfl
    | entry dir _ =>
      cases last with
      | none => rfl
      | some st =>
        cases st with
        | stay | up | slash => rfl
        | enter n =>
          dsimp only
          by_cases hn : nameLimit < Utf8.byteLength n
          · rw [if_pos hn, if_pos hn]
            rfl
          · rw [if_neg hn, if_neg hn]
            cases s.holdsDir dir <;> rfl

end Store

end LuaTree
