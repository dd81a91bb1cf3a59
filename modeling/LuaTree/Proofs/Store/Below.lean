import LuaTree.Proofs.Store.Approach
import LuaTree.Proofs.Store.Entries

/-!
# Lookups where no link is in the way

Below a directory without links, every lookup of a path is a matter of the entries at its names. This
module says what each of them answers (`Approach.locate_below`, `Approach.lookup_create_below`,
`Approach.makeDir_below`, `Approach.isDir_below`), failures included, in terms of `hindrance`.
-/

namespace LuaTree.Store

open PathText

variable {s t : Store} {cwd a : Location} {p : PathText} {way : List Name} {n : Name}

/-! ## What hinders -/

theorem holdsDir_of_hindrance (ha : s.holdsDir a) (h : s.hindrance a way = none) :
    s.holdsDir (a ++ way) := by
  induction way generalizing a with
  | nil => rwa [List.append_nil]
  | cons n way ih =>
    rw [List.append_cons]
    rw [hindrance] at h
    split at h
    · cases h
    · split at h
      · cases h
      · next mode he => exact ih (holdsDir_of_entry he) h
      · cases h

/-- Nothing hinders on a way of directories. -/
theorem hindrance_of_holdsDir (short : ∀ n ∈ way, Utf8.byteLength n ≤ nameLimit)
    (dirs : ∀ front, front <+: way → front ≠ [] → s.holdsDir (a ++ front)) :
    s.hindrance a way = none := by
  induction way generalizing a with
  | nil => rfl
  | cons n way ih =>
    obtain ⟨mode, he⟩ := holdsDir_iff.1 (dirs [n] ⟨way, rfl⟩ (List.cons_ne_nil n []))
    rw [hindrance, if_neg (Nat.not_lt.2 (short n List.mem_cons_self)), he]
    refine ih (fun m hm => short m (List.mem_cons_of_mem n hm)) fun front hp _ => ?_
    rw [List.append_assoc]
    exact dirs (n :: front) (List.cons_prefix_cons.2 ⟨rfl, hp⟩) (List.cons_ne_nil n front)

/-! ## Lookups -/

theorem Approach.locate_below (h : Approach s cwd p a (way ++ [n])) (free : LinkFree s a way) :
    s.locate cwd p = if pathLimit ≤ Utf8.byteLength p then .error (.os .nameTooLong)
      else match s.hindrance a way with
        | some e => .error (.os e)
        | none =>
          if nameLimit < Utf8.byteLength n then .error (.os .nameTooLong)
          else .ok { dir := a ++ way, name? := some n, slash := false } := by
  obtain ⟨links, hl⟩ := h.locate_eq
  rw [hl, tour_names free (List.cons_ne_nil _ _) (.inl rfl)]
  split
  · rfl
  · cases hh : s.hindrance a way with
    | some e => rfl
    | none =>
      have there := holdsDir_of_hindrance h.holdsDir hh
      dsimp only
      rw [tour_slash, tour_nil]
      dsimp only
      rw [there]
      rfl

theorem Approach.lookup_below (h : Approach s cwd p a (way ++ [n])) (free : LinkFree s a way) :
    ∃ links, ∀ last, s.lookup cwd last p =
      if pathLimit ≤ Utf8.byteLength p then .error (.os .nameTooLong)
      else match s.hindrance a way with
        | some e => .error (.os e)
        | none => (s.tour last links (a ++ way) [.enter n]).mapError .os := by
  obtain ⟨links, hl⟩ := h.lookup_eq (List.concat_ne_nil n way)
  refine ⟨links, fun last => ?_⟩
  rw [hl last, List.map_append, List.map_singleton,
    tour_names free (List.cons_ne_nil _ _) (.inr ⟨n, [], rfl⟩)]
  split
  · rfl
  · cases s.hindrance a way <;> rfl

/-- What can be created at a path, or stands there already. -/
theorem Approach.lookup_create_below (h : Approach s cwd p a (way ++ [n]))
    (free : LinkFree s a (way ++ [n])) : s.lookup cwd .create p =
      if pathLimit ≤ Utf8.byteLength p then .error (.os .nameTooLong)
      else match s.hindrance a way with
        | some e => .error (.os e)
        | none =>
          if nameLimit < Utf8.byteLength n then .error (.os .nameTooLong)
          else match s.entry? (a ++ way ++ [n]) with
            | some e => .ok (.entry (a ++ way ++ [n]) e)
            | none => .ok (.vacant (a ++ way) n) := by
  obtain ⟨links, hl⟩ := h.lookup_below (free.front ⟨[n], rfl⟩)
  rw [hl .create]
  split
  · rfl
  · cases hh : s.hindrance a way with
    | some e => rfl
    | none =>
      obtain ⟨mode, there⟩ := holdsDir_iff.1 (holdsDir_of_hindrance h.holdsDir hh)
      dsimp only
      rw [tour_enter, if_neg (by simp), there]
      split
      · rfl
      · cases he : s.entry? (a ++ way ++ [n]) with
        | none => rfl
        | some e =>
          cases e with
          | dir mode =>
            dsimp only
            rw [tour_nil, he]
            rfl
          | link target =>
            rw [List.append_assoc] at he
            exact absurd he (free _ List.prefix_rfl (List.concat_ne_nil n way) target)
          | file _ | fifo | device _ => rfl

/-- Where a path leads. -/
theorem Approach.stat?_below (h : Approach s cwd p a (way ++ [n])) (free : LinkFree s a (way ++ [n])) :
    s.stat? cwd p = if pathLimit ≤ Utf8.byteLength p then .error (.os .nameTooLong)
      else match s.hindrance a way with
        | some e => .error (.os e)
        | none =>
          if nameLimit < Utf8.byteLength n then .error (.os .nameTooLong)
          else match s.entry? (a ++ way ++ [n]) with
            | some e => .ok (a ++ way ++ [n], e)
            | none => .error (.os .noEntry) := by
  obtain ⟨links, hl⟩ := h.lookup_below (free.front ⟨[n], rfl⟩)
  rw [stat?, entryAt?, hl .follow]
  split
  · rfl
  · cases hh : s.hindrance a way with
    | some e => rfl
    | none =>
      dsimp only
      rw [tour_enter, if_neg (by simp)]
      split
      · rfl
      · cases he : s.entry? (a ++ way ++ [n]) with
        | none => rfl
        | some e =>
          cases e with
          | dir mode =>
            dsimp only
            rw [tour_nil, he]
            rfl
          | link target =>
            rw [List.append_assoc] at he
            exact absurd he (free _ List.prefix_rfl (List.concat_ne_nil n way) target)
          | file _ | fifo | device _ => rfl

/-- What stands at a path itself. -/
theorem Approach.lstat?_below (h : Approach s cwd p a (way ++ [n])) (free : LinkFree s a way) :
    s.lstat? cwd p = if pathLimit ≤ Utf8.byteLength p then .error (.os .nameTooLong)
      else match s.hindrance a way with
        | some e => .error (.os e)
        | none =>
          if nameLimit < Utf8.byteLength n then .error (.os .nameTooLong)
          else match s.entry? (a ++ way ++ [n]) with
            | some e => .ok (a ++ way ++ [n], e)
            | none => .error (.os .noEntry) := by
  obtain ⟨links, hl⟩ := h.lookup_below free
  rw [lstat?, entryAt?, hl .keep]
  split
  · rfl
  · cases hh : s.hindrance a way with
    | some e => rfl
    | none =>
      dsimp only
      rw [tour_enter, if_neg (by simp)]
      split
      · rfl
      · cases he : s.entry? (a ++ way ++ [n]) with
        | none => rfl
        | some e =>
          cases e with
          | dir mode =>
            dsimp only
            rw [tour_nil, he]
            rfl
          | link _ | file _ | fifo | device _ => rfl

theorem Approach.isDir_below (h : Approach s cwd p a (way ++ [n])) (free : LinkFree s a (way ++ [n])) :
    s.isDir cwd p ↔ Utf8.byteLength p < pathLimit ∧ s.hindrance a way = none ∧
      Utf8.byteLength n ≤ nameLimit ∧ s.holdsDir (a ++ way ++ [n]) := by
  rw [isDir, h.stat?_below free, Store.holdsDir]
  by_cases hp : pathLimit ≤ Utf8.byteLength p
  · simp [hp, Nat.not_lt.2 hp]
  · by_cases hn : nameLimit < Utf8.byteLength n
    · cases s.hindrance a way <;> simp [hp, hn, Nat.not_le.2 hn]
    · cases s.hindrance a way with
      | some e => simp [hp]
      | none =>
        cases s.entry? (a ++ way ++ [n]) <;> simp [hp, hn, Nat.not_le.1 hp, Nat.not_lt.1 hn]

/-- Creating a directory needs its parent, and a name that is free. -/
theorem Approach.makeDir_below (h : Approach s cwd p a (way ++ [n])) (free : LinkFree s a way) :
    s.makeDir cwd p = if pathLimit ≤ Utf8.byteLength p then .error (.os .nameTooLong)
      else match s.hindrance a way with
        | some e => .error (.os e)
        | none =>
          if nameLimit < Utf8.byteLength n then .error (.os .nameTooLong)
          else match s.entry? (a ++ way ++ [n]) with
            | some _ => .error (.os .alreadyExists)
            | none => .ok (s.put (a ++ way ++ [n]) (.dir (s.masked 0o777))) := by
  rw [makeDir, h.locate_below free]
  split
  · rfl
  · cases s.hindrance a way with
    | some e => rfl
    | none =>
      dsimp only
      split
      · rfl
      · dsimp only [bind, Except.bind]
        cases s.entry? (a ++ way ++ [n]) <;> rfl

end LuaTree.Store
