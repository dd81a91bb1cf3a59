import LuaTree.Proofs.Plan.Items
import LuaTree.Proofs.Store.Below

/-!
# Trees without links

Below a directory without links, paths lead where their names say (`stat?_joinAll`), and the routes of a
walk are the files of the tree (`route_iff`): each route leads to one (`Route.entry`), and each file has a
route whose directory can be looked up and does not belong to what the walk leaves out (`route_of_entry`).
-/

namespace LuaTree.Walk

open PathText Store

variable {s : Store} {cwd top : Location} {input output : PathText} {ns : List Name} {mode : Nat}
  {place : Location × Entry}

/-- Nothing at or below a location is a link. -/
def Unlinked (s : Store) (top : Location) : Prop :=
  ∀ (ns : List Name) (target : PathText), s.entry? (top ++ ns) ≠ some (.link target)

theorem Unlinked.linkFree (h : Unlinked s top) (ns : List Name) : LinkFree s top ns :=
  fun front _ _ target => h front target

/-- Above an entry are directories. -/
theorem exists_dir_above (rooted : s.Rooted) {e : Entry} (he : s.entry? (top ++ ns) = some e) {j : Nat}
    (hj : j < ns.length) : ∃ mode, s.entry? (top ++ ns.take j) = some (.dir mode) := by
  rw [← List.take_append_drop j ns, ← List.append_assoc] at he
  refine holdsDir_iff.1 (rooted.holdsDir_of_below (fun hd => ?_) he)
  rw [List.drop_eq_nil_iff] at hd
  omega

section

variable (wellNamed : s.WellNamed) (h : s.stat? cwd input = .ok (top, .dir mode))
  (there : s.entry? top = some (.dir mode)) (links : Unlinked s top)

include h there links

/-- A path of names leads where the names lead. -/
theorem stat?_joinAll (names : ∀ n ∈ ns, IsName n) (nul : ∀ n ∈ ns, '\x00' ∉ n)
    (hs : s.stat? cwd (joinAll input ns) = .ok place) :
    place.1 = top ++ ns ∧ s.entry? (top ++ ns) = some place.2 := by
  rcases List.eq_nil_or_concat' ns with rfl | ⟨front, n, rfl⟩
  · cases h.symm.trans hs
    rw [List.append_nil]
    exact ⟨rfl, there⟩
  · have hne : front ++ [n] ≠ [] := List.concat_ne_nil n front
    have approach := Approach.of_stat? h (holdsDir_of_entry there) names nul hne
    have found := approach.stat?_below (links.linkFree _)
    rw [hs] at found
    rw [← List.append_assoc]
    split at found
    · cases found
    · split at found
      · cases found
      · split at found
        · cases found
        · split at found
          · next e he =>
            cases found
            exact ⟨rfl, he⟩
          · cases found

/-- No path of names leads to a link. -/
theorem lstat?_ne_link (names : ∀ n ∈ ns, IsName n) (nul : ∀ n ∈ ns, '\x00' ∉ n) (hne : ns ≠ [])
    (loc : Location) (target : PathText) :
    s.lstat? cwd (joinAll input ns) ≠ .ok (loc, .link target) := by
  obtain ⟨front, n, rfl⟩ := (List.eq_nil_or_concat' ns).resolve_left hne
  intro hs
  have found := (Approach.of_stat? h (holdsDir_of_entry there) names nul hne).lstat?_below (links.linkFree front)
  rw [hs] at found
  split at found
  · cases found
  · split at found
    · cases found
    · split at found
      · cases found
      · split at found
        · next e he =>
          cases found
          rw [List.append_assoc] at he
          exact links _ target he
        · cases found

include wellNamed

/-- What stands at names can be looked up, if the path is not too long. -/
theorem stat?_of_entry {e : Entry} (he : s.entry? (top ++ ns) = some e)
    (hl : Utf8.byteLength (joinAll input ns) < pathLimit) :
    s.stat? cwd (joinAll input ns) = .ok (top ++ ns, e) := by
  rcases List.eq_nil_or_concat' ns with rfl | ⟨front, n, rfl⟩
  · rw [List.append_nil] at he ⊢
    cases he.symm.trans there
    exact h
  · have lawful := wellNamed.lawful_of_mem he
    have found := (Approach.of_stat? h (holdsDir_of_entry there) (fun k hk => (lawful k hk).toIsName)
      (fun k hk => (lawful k hk).no_nul) (List.concat_ne_nil n front)).stat?_below (links.linkFree _)
    rw [← List.append_assoc] at he ⊢
    have free := (Store.hindrance_eq_none wellNamed (holdsDir_of_entry there)).2 (wellNamed.parent he)
    rw [if_neg (Nat.not_le.2 hl), free] at found
    dsimp only at found
    rw [if_neg (Nat.not_lt.2 (lawful n (List.mem_append_right _ List.mem_cons_self)).short), he] at found
    exact found

/-- So can the directories above it, if the nearest one can. -/
theorem exists_stat?_take {e : Entry} (he : s.entry? (top ++ ns) = some e)
    (hl : Utf8.byteLength (joinAll input ns.dropLast) < pathLimit) {j : Nat} (hj : j < ns.length) :
    ∃ mode', s.stat? cwd (joinAll input (ns.take j)) = .ok (top ++ ns.take j, .dir mode') := by
  have lawful := wellNamed.lawful_of_mem he
  obtain ⟨mode', hd⟩ := exists_dir_above wellNamed.toRooted he hj
  refine ⟨mode', stat?_of_entry wellNamed h there links hd (Nat.lt_of_le_of_lt ?_ hl)⟩
  refine byteLength_joinAll_mono input ?_ fun n hn =>
    (lawful n ((List.dropLast_sublist ns).subset hn)).toIsName
  rw [List.dropLast_eq_take]
  exact List.take_prefix_take_left (Nat.le_sub_one_of_lt hj)

/-- Every route leads to a file of the tree. -/
theorem Route.entry (route : Route s cwd input output ns) : ∃ i, s.entry? (top ++ ns) = some (.file i) := by
  have lawful := route.lawful wellNamed
  rcases route.file with hf | ⟨_, dir, mode', n, i, hs, hn, he⟩
  · obtain ⟨loc, i, hs⟩ := isFile_iff.1 hf
    exact ⟨i, (stat?_joinAll h there links route.names (fun n hn => (lawful n hn).no_nul) hs).2⟩
  · obtain ⟨front, rfl⟩ := List.getLast?_eq_some_iff.1 hn
    rw [List.dropLast_concat] at hs
    obtain ⟨rfl, _⟩ := stat?_joinAll h there links
      (fun k hk => route.names k (List.mem_append_left _ hk))
      (fun k hk => (lawful k (List.mem_append_left _ hk)).no_nul) hs
    refine ⟨i, ?_⟩
    rw [← List.append_assoc]
    exact he

/-- Every file of the tree has a route, if its directory can be looked up and nothing on the way to it is
left out. -/
theorem route_of_entry (outside : ∀ j < ns.length, ∀ place, s.canonical? cwd output = .ok place →
      s.canonical? cwd (joinAll input (ns.take j)) ≠ .ok place)
    {i : Nat} (he : s.entry? (top ++ ns) = some (.file i))
    (hl : Utf8.byteLength (joinAll input ns.dropLast) < pathLimit) : Route s cwd input output ns := by
  have lawful := wellNamed.lawful_of_mem he
  have names : ∀ n ∈ ns, IsName n := fun n hn => (lawful n hn).toIsName
  have hne : ns ≠ [] := by
    rintro rfl
    rw [List.append_nil] at he
    cases he.symm.trans there
  have through := fun j hj => exists_stat?_take wellNamed h there links he hl (j := j) hj
  refine ⟨hne, names, fun j hj => ?_, outside, ?_, ?_⟩
  · obtain ⟨mode', hs⟩ := through j hj
    exact isDir_iff.2 ⟨_, mode', hs⟩
  · intro j k hjk hk a b target e f link
    refine absurd link (lstat?_ne_link h there links (fun n hn => names n (List.mem_of_mem_take hn))
      (fun n hn => (lawful n (List.mem_of_mem_take hn)).no_nul) (fun ht => ?_) a target)
    rw [List.take_eq_nil_iff] at ht
    rcases ht with ht | ht
    · omega
    · exact hne ht
  · by_cases hl' : Utf8.byteLength (joinAll input ns) < pathLimit
    · exact .inl (isFile_iff.2 ⟨_, i, stat?_of_entry wellNamed h there links he hl'⟩)
    · obtain ⟨mode', hs⟩ := through _ (Nat.sub_one_lt_of_lt (List.length_pos_iff.2 hne))
      rw [← List.dropLast_eq_take] at hs
      refine .inr ⟨Nat.not_lt.1 hl', _, mode', ns.getLast hne, i, hs, List.getLast?_eq_some_getLast hne, ?_⟩
      rwa [List.append_assoc, List.dropLast_append_getLast]

/-- The directories of a route are where the names say. -/
theorem Route.stat?_take (route : Route s cwd input output ns) {j : Nat} (hj : j < ns.length) :
    ∃ mode', s.stat? cwd (joinAll input (ns.take j)) = .ok (top ++ ns.take j, .dir mode') := by
  obtain ⟨loc, mode', hs⟩ := isDir_iff.1 (route.through j hj)
  have lawful : ∀ n ∈ ns.take j, Lawful n := fun n hn => route.lawful wellNamed n (List.mem_of_mem_take hn)
  obtain ⟨rfl, _⟩ := stat?_joinAll h there links (fun n hn => (lawful n hn).toIsName)
    (fun n hn => (lawful n hn).no_nul) hs
  exact ⟨mode', hs⟩

/-- The routes of a walk are the files of the tree whose directories can be looked up, and belong to
nothing that is left out. -/
theorem route_iff : Route s cwd input output ns ↔ (∃ i, s.entry? (top ++ ns) = some (.file i)) ∧
      Utf8.byteLength (joinAll input ns.dropLast) < pathLimit ∧
      ∀ j < ns.length, ∀ place, s.canonical? cwd output = .ok place →
        s.canonical? cwd (joinAll input (ns.take j)) ≠ .ok place := by
  constructor
  · intro route
    refine ⟨route.entry wellNamed h there links, ?_, route.outside⟩
    obtain ⟨mode', hs⟩ := route.stat?_take wellNamed h there links
      (Nat.sub_one_lt_of_lt (List.length_pos_iff.2 route.ne_nil))
    rw [← List.dropLast_eq_take] at hs
    exact (checkText_of_stat? hs).2.2
  · rintro ⟨⟨i, he⟩, hl, outside⟩
    exact route_of_entry wellNamed h there links outside he hl

end

end LuaTree.Walk
