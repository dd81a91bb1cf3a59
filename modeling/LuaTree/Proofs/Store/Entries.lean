import LuaTree.Convert.Writer
import LuaTree.Proofs.Store.Sound

/-!
# What a store can list

A store finds an entry by its location; it can also list them. This module ties the two together:

* `mem_names`, `pairwise_names`: a directory lists exactly its entries, each once and in order;
* `length_le_dirCount`: different directories are never more than the store counts;
* `entry?_freeName`: the name chosen for a temporary file is free.

As the entries can be listed, whether a store is sound can be decided.
-/

namespace LuaTree

/-! ## Trees -/

namespace Forest

variable {ε : Type}

theorem mem_entries_held {f : Forest ε} {n : Name} {e : ε} {below : Forest ε} (above : Location)
    (h : f.find? n = some (some e, below)) : (above ++ [n], e) ∈ f.entries above := by
  induction f with
  | nil => cases h
  | node m held _ _ _ ih =>
    rw [find?] at h
    rw [entries, List.mem_append, List.mem_append]
    split at h
    · next hm =>
      cases h
      subst hm
      exact .inl (.inl (by simp))
    · exact .inr (ih h)

theorem mem_entries_below {f : Forest ε} {n : Name} {held : Option ε} {below : Forest ε}
    {above : Location} {x : Location × ε} (h : f.find? n = some (held, below))
    (hx : x ∈ below.entries (above ++ [n])) : x ∈ f.entries above := by
  induction f with
  | nil => cases h
  | node m held _ _ _ ih =>
    rw [find?] at h
    rw [entries, List.mem_append, List.mem_append]
    split at h
    · next hm =>
      cases h
      subst hm
      exact .inl (.inr hx)
    · exact .inr (ih h)

theorem count_eq (kind : ε → Bool) (f : Forest ε) (above : Location) :
    f.count kind = ((f.entries above).filter fun x => kind x.2).length := by
  induction f generalizing above with
  | nil => rfl
  | node n held below beside ihb ihs =>
    rw [count, entries, List.filter_append, List.filter_append, List.length_append,
      List.length_append, ihb (above ++ [n]), ihs above]
    cases held with
    | none => rfl
    | some e => by_cases h : kind e <;> simp [h]

theorem nodup_heldNames {f : Forest ε} (h : f.Distinct) : f.heldNames.Nodup := by
  induction f with
  | nil => exact List.nodup_nil
  | node n held below beside _ ih =>
    have rest := ih h.2.2
    rw [heldNames]
    split
    · refine List.nodup_cons.2 ⟨fun hm => ?_, rest⟩
      obtain ⟨e, below', hf⟩ := (mem_heldNames h.2.2 n).1 hm
      exact h.1 (mem_names_of_find? hf)
    · exact rest
where
  mem_names_of_find? {g : Forest ε} {n : Name} {x : Option ε × Forest ε} (hf : g.find? n = some x) :
      n ∈ g.names := by
    induction g with
    | nil => cases hf
    | node m _ _ _ _ ih =>
      rw [find?] at hf
      rw [names, List.mem_cons]
      split at hf
      · next hm => exact .inl hm.symm
      · exact .inr (ih hf)

end Forest

namespace Tree

variable {ε : Type}

theorem mem_below_entries {t : Tree ε} {n : Name} {loc : Location} {e : ε} (above : Location)
    (h : t.get? (n :: loc) = some e) : (above ++ n :: loc, e) ∈ t.below.entries above := by
  induction loc generalizing t n above with
  | nil =>
    simp only [get?, sub, child] at h
    split at h
    · next held below hf =>
      subst h
      exact Forest.mem_entries_held above hf
    · cases h
  | cons m loc ih =>
    have deeper : (t.child n).get? (m :: loc) = some e := h
    have hm := ih (above ++ [n]) deeper
    rw [List.append_assoc, List.singleton_append] at hm
    unfold child at hm
    split at hm
    · next held below hf => exact Forest.mem_entries_below hf hm
    · cases hm

/-- Every entry is listed. -/
theorem mem_entries {t : Tree ε} {loc : Location} {e : ε} (h : t.get? loc = some e) :
    (loc, e) ∈ t.entries := by
  rw [entries, List.mem_append]
  cases loc with
  | nil =>
    have held : t.held = some e := h
    exact .inl (by simp [held])
  | cons n loc => exact .inr (mem_below_entries [] h)

theorem count_eq (kind : ε → Bool) (t : Tree ε) :
    t.count kind = (t.entries.filter fun x => kind x.2).length := by
  rw [count, entries, List.filter_append, List.length_append, Forest.count_eq kind t.below []]
  cases t.held with
  | none => rfl
  | some e => by_cases h : kind e <;> simp [h]

end Tree

namespace Store

variable {s : Store} {cwd : Location}

/-! ## Directories -/

/-- There are no more directories than the store counts. -/
theorem length_le_dirCount {dirs : List Location} (distinct : dirs.Nodup)
    (h : ∀ dir ∈ dirs, s.holdsDir dir) : dirs.length ≤ s.dirCount := by
  rw [dirCount, Tree.count_eq, ← List.length_map Prod.fst]
  refine distinct.length_le_of_subset fun dir hdir => ?_
  obtain ⟨mode, he⟩ := holdsDir_iff.1 (h dir hdir)
  exact List.mem_map.2 ⟨(dir, .dir mode), List.mem_filter.2 ⟨Tree.mem_entries he, rfl⟩, rfl⟩

/-- The way down to a directory is shorter than the number of directories. -/
theorem length_lt_dirCount (rooted : s.Rooted) {dir : Location} (h : s.holdsDir dir) :
    dir.length < s.dirCount := by
  have distinct : ((List.range (dir.length + 1)).map dir.take).Nodup := by
    refine List.pairwise_map.2 (List.pairwise_lt_range.imp_of_mem fun {i j} _ hj hlt he => ?_)
    have lengths := congrArg List.length he
    rw [List.mem_range] at hj
    rw [List.length_take, List.length_take] at lengths
    omega
  have count := length_le_dirCount (s := s) distinct fun front hf => ?_
  · rw [List.length_map, List.length_range] at count
    exact count
  · obtain ⟨i, _, rfl⟩ := List.mem_map.1 hf
    by_cases hne : dir.drop i = []
    · rw [List.drop_eq_nil_iff] at hne
      rwa [List.take_of_length_le hne]
    · obtain ⟨mode, he⟩ := holdsDir_iff.1 h
      rw [← List.take_append_drop i dir] at he
      exact rooted.holdsDir_of_below hne he

/-! ## Names in a directory -/

theorem mem_names {dir : Location} {n : Name} :
    n ∈ s.names dir ↔ ∃ e, s.entry? (dir ++ [n]) = some e := by
  rw [names, List.mem_mergeSort, Tree.mem_names, Option.isSome_iff_exists, entry?, Tree.get?,
    Tree.get?, Tree.sub_append]

/-- A directory lists its names in strictly increasing order, so each of them once. -/
theorem pairwise_names (s : Store) (dir : Location) : (s.names dir).Pairwise (· < ·) := by
  have le_iff : ∀ m n : Name, nameLe m n ↔ ¬ n < m := fun m n => by simp [nameLe]
  have sorted : (s.names dir).Pairwise fun m n => nameLe m n := by
    refine List.pairwise_mergeSort (fun a b c hab hbc => ?_) (fun a b => ?_) _
    · rw [le_iff] at hab hbc ⊢
      exact List.not_lt.2 (List.le_trans (List.not_lt.1 hab) (List.not_lt.1 hbc))
    · rw [Bool.or_eq_true, le_iff, le_iff]
      exact (List.le_total a b).imp List.not_lt.2 List.not_lt.2
  have distinct : (s.names dir).Nodup :=
    (List.mergeSort_perm _ _).nodup_iff.2 (Forest.nodup_heldNames (s.tree.sub dir).distinct)
  refine (sorted.and distinct).imp fun {m n} h => ?_
  refine List.not_le.1 fun hle => h.2 ?_
  exact List.le_antisymm (List.not_lt.1 ((le_iff m n).1 h.1)) hle

/-! ## A free name -/

theorem temporaryName_injective {j k : Nat}
    (h : Publication.temporaryName j = Publication.temporaryName k) : j = k := by
  have value : ∀ n, Nat.ofDigitChars 10 ((Publication.temporaryName n).drop 4) 0 = n := by
    intro n
    have digits : (Publication.temporaryName n).drop 4 =
        List.replicate (6 - (Nat.toDigits 10 n).length) '0' ++ Nat.toDigits 10 n := rfl
    rw [digits, Nat.ofDigitChars_append, Nat.ofDigitChars_replicate_zero, Nat.mul_zero,
      Nat.ofDigitChars_ten_toDigits]
  rw [← value j, h, value k]

/-- The name chosen for a temporary file is free: of one more name than there are entries, one is. -/
theorem entry?_freeName (s : Store) (dir : Location) :
    s.entry? (dir ++ [Publication.freeName s dir]) = none := by
  unfold Publication.freeName
  dsimp only
  cases hf : (List.range (s.names dir).length).find? fun k =>
      ( s.entry? (dir ++ [Publication.temporaryName k])).isNone with
  | some k =>
    have free := List.find?_some hf
    exact Option.isNone_iff_eq_none.1 free
  | none =>
    rw [Option.getD_none, Option.eq_none_iff_forall_ne_some]
    intro e he
    have taken : ∀ n ∈ (List.range ((s.names dir).length + 1)).map Publication.temporaryName,
        n ∈ s.names dir := by
      intro n hn
      obtain ⟨k, hk, rfl⟩ := List.mem_map.1 hn
      rw [List.range_succ, List.mem_append, List.mem_singleton] at hk
      rcases hk with hk | rfl
      · have := List.find?_eq_none.1 hf k hk
        rw [Bool.not_eq_true, Option.isNone_eq_false_iff] at this
        exact mem_names.2 (Option.isSome_iff_exists.1 this)
      · exact mem_names.2 ⟨e, he⟩
    have distinct : ((List.range ((s.names dir).length + 1)).map Publication.temporaryName).Nodup :=
      List.pairwise_map.2 (List.nodup_range.imp fun hne he => hne (temporaryName_injective he))
    have := distinct.length_le_of_subset taken
    rw [List.length_map, List.length_range] at this
    omega

/-! ## Deciding soundness -/

instance (n : Name) : Decidable (Lawful n) :=
  decidable_of_iff ((n ≠ [] ∧ n ≠ ['.'] ∧ n ≠ ['.', '.'] ∧ '/' ∉ n) ∧ '\x00' ∉ n ∧
      Utf8.byteLength n ≤ nameLimit)
    ⟨fun ⟨⟨a, b, c, d⟩, e, f⟩ => ⟨⟨a, b, c, d⟩, e, f⟩,
      fun h => ⟨⟨h.ne_nil, h.ne_here, h.ne_up, h.no_separator⟩, h.no_nul, h.short⟩⟩

/-- Whether an entry is one that a sound store can have at a location. -/
def admits (s : Store) (loc : Location) (e : Entry) : Bool :=
  (match loc.getLast? with
    | none => true
    | some n => s.holdsDir loc.dropLast && decide (Lawful n)) &&
  match e with
    | .file i => decide (i ∈ s.inodes.keys)
    | _ => true

/-- A store is sound if its root and the working directory are there and it admits all its entries. -/
theorem Sound.of_admits (root : s.holdsDir []) (here : s.holdsDir cwd)
    (h : s.tree.entries.all fun x => s.admits x.1 x.2) : s.Sound cwd := by
  have admitted : ∀ {loc e}, s.entry? loc = some e → s.admits loc e = true :=
    fun he => List.all_eq_true.1 h _ (Tree.mem_entries he)
  have named : ∀ {loc n e}, s.entry? (loc ++ [n]) = some e → s.holdsDir loc ∧ Lawful n := by
    intro loc n e he
    have := (Bool.and_eq_true_iff.1 (admitted he)).1
    rw [List.getLast?_concat, List.dropLast_concat] at this
    simpa using this
  refine
    { root, here := .inl here, parent := fun he => (named he).1, lawful := fun he => (named he).2
      kept := ?_ }
  intro loc i he
  have := admitted he
  rw [admits, Bool.and_eq_true] at this
  exact of_decide_eq_true this.2

end Store

end LuaTree
