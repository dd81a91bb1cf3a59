import LuaTree.Proofs.Path.Ending

/-!
# The steps of a parent

The parent of a path is cut off at a separator, so the steps of a path are those of its parent and some
more (`exists_steps_of_parent?`), and so it is with every path above it (`exists_steps_of_mem_ancestors`).
What is cut off leads somewhere: it has a name in it, or `..`.
-/

namespace LuaTree

namespace Step

open PathText

theorem ofSegment?_of_live {segment : List Char} (h : isDead segment = false) :
    ofSegment? segment = some .up ∨ ∃ n, ofSegment? segment = some (.enter n) := by
  have hne : segment ≠ [] ∧ segment ≠ ['.'] := by simpa [isDead] using h
  rw [ofSegment?, if_neg hne.1, if_neg hne.2]
  split
  · exact .inl rfl
  · exact .inr ⟨segment, rfl⟩

/-- A `..` among the steps of a path is one among its components. -/
theorem up_mem_components {p : PathText} (h : .up ∈ ofText p) : .up ∈ components p := by
  obtain ⟨segment, hm, hs⟩ := List.mem_filterMap.1 h
  rw [components_eq]
  refine List.mem_append_right _ (List.mem_filterMap.2 ⟨segment, hm, ?_⟩)
  unfold ofSegment? at hs
  split at hs
  · cases hs
  · next h0 =>
    split at hs
    · cases hs
    · next h1 =>
      split at hs
      · next h2 =>
        rw [h2]
        rfl
      · cases hs

end Step

namespace PathText

/-- The last segment that is left is a component. -/
theorem dropDeadEnd_eq_concat {ss : List (List Char)} (h : dropDeadEnd ss ≠ []) :
    ∃ front last, dropDeadEnd ss = front ++ [last] ∧ isDead last = false := by
  have hne : ss.reverse.dropWhile isDead ≠ [] := fun hd => h (by rw [dropDeadEnd, hd]; rfl)
  refine ⟨(ss.reverse.dropWhile isDead).tail.reverse, (ss.reverse.dropWhile isDead).head hne, ?_, ?_⟩
  · rw [dropDeadEnd, ← List.reverse_cons, List.cons_head_tail]
  · simpa using List.head_dropWhile_not isDead hne

theorem joinSegments_append {xs ys : List (List Char)} (hx : xs ≠ []) (hy : ys ≠ []) :
    joinSegments (xs ++ ys) = joinSegments xs ++ '/' :: joinSegments ys := by
  induction xs with
  | nil => exact absurd rfl hx
  | cons x xs ih =>
    cases xs with
    | nil =>
      obtain ⟨y, ys, rfl⟩ := List.exists_cons_of_ne_nil hy
      rw [joinSegments, List.cons_append, List.nil_append, List.intercalate_cons_cons, joinSegments,
        List.intercalate_singleton, List.append_assoc]
      rfl
    | cons x' xs =>
      have ih := ih (List.cons_ne_nil _ _)
      unfold joinSegments at ih ⊢
      rw [List.cons_append, List.cons_append, List.intercalate_cons_cons, ← List.cons_append, ih,
        List.intercalate_cons_cons, List.append_assoc, List.append_assoc, List.append_assoc]

/-- What a text starts with is a separator, nothing, or a leading `.` with a separator behind it. -/
theorem anchor_cases (p : PathText) : (anchor p).1 = ['/'] ∨ (anchor p).1 = [] ∨
    (anchor p).1 = ['.'] ∧ ∃ rest, (anchor p).2 = [] :: rest := by
  unfold anchor
  split
  · exact .inl rfl
  · split
    · next rest _ => exact .inr (.inr ⟨rfl, rest, rfl⟩)
    · exact .inr (.inl rfl)

theorem no_separator_of_mem_anchor {p : PathText} {segment : List Char} (h : segment ∈ (anchor p).2) :
    '/' ∉ segment := by
  unfold anchor at h
  split at h
  · exact no_separator_of_mem_segments h
  · next hp =>
    split at h
    · next rest hs =>
      rcases List.mem_cons.1 h with rfl | h
      · exact List.not_mem_nil
      · exact no_separator_of_mem_segments (p := p) (hs ▸ List.mem_cons_of_mem _ h)
    · exact no_separator_of_mem_segments h

/-- A path is its parent, and behind a separator what is cut off. -/
theorem exists_text_of_parent? {p dir : PathText} (h : parent? p = some dir) (hne : dir ≠ []) :
    ∃ cut last, (p = dir ++ '/' :: joinSegments cut ∨ dir = ['/'] ∧ p = '/' :: joinSegments cut) ∧
      (∀ segment ∈ cut, '/' ∉ segment) ∧ last ∈ cut ∧ isDead last = false := by
  have text := anchor_text p
  have separated : ∀ segment ∈ (anchor p).2, '/' ∉ segment := fun _ => no_separator_of_mem_anchor
  obtain ⟨dead, hd, _⟩ := dropDeadEnd_append (anchor p).2
  unfold parent? at h
  dsimp only at h
  split at h
  · split at h
    · cases h
      exact absurd rfl hne
    · cases h
  · next hlive =>
    cases h
    obtain ⟨front, last, hl, live⟩ := dropDeadEnd_eq_concat hlive
    obtain ⟨dead', hd', _⟩ := dropDeadEnd_append front
    rw [hl, List.dropLast_concat] at hne ⊢
    -- the segments are those of the parent, the last one that is left, and dead ones around it
    have body : (anchor p).2 = dropDeadEnd front ++ (dead' ++ last :: dead) := by
      rw [← List.append_assoc, ← hd', hd, hl, List.append_assoc]
      rfl
    have mem : last ∈ dead' ++ last :: dead := List.mem_append_right _ List.mem_cons_self
    have clean : ∀ segment ∈ dead' ++ last :: dead, '/' ∉ segment := fun segment hs =>
      separated segment (body ▸ List.mem_append_right _ hs)
    by_cases hx : dropDeadEnd front = []
    · rw [hx] at hne ⊢
      rw [hx, List.nil_append] at body
      rw [body] at text
      rcases anchor_cases p with ha | ha | ⟨ha, rest, hr⟩
      · rw [ha] at text ⊢
        exact ⟨_, last, .inr ⟨rfl, text.symm⟩, clean, mem, live⟩
      · rw [ha] at hne
        exact absurd rfl hne
      · -- a leading `.` is followed by an empty segment, which is not the last one
        rw [hr] at body
        have mem' : last ∈ rest := by
          rw [← body] at mem
          rcases List.mem_cons.1 mem with rfl | hm
          · cases live
          · exact hm
        refine ⟨rest, last, .inl ?_, fun segment hs => ?_, mem', live⟩
        · have join := @joinSegments_append [[]] rest (List.cons_ne_nil _ _) (List.ne_nil_of_mem mem')
          rw [← body, ha] at text
          rw [ha]
          exact text.symm.trans (congrArg _ join)
        · exact clean segment (body ▸ List.mem_cons_of_mem _ hs)
    · refine ⟨_, last, .inl ?_, clean, mem, live⟩
      rw [body, joinSegments_append hx (List.ne_nil_of_mem mem), ← List.append_assoc] at text
      exact text.symm

/-- The steps of a path are those of its parent and some more, among them one that leads somewhere. -/
theorem exists_steps_of_parent? {p dir : PathText} (h : parent? p = some dir) (hne : dir ≠ []) :
    dir <+: p ∧ ∃ more, Step.ofText p = Step.ofText dir ++ more ∧ (.up ∈ more ∨ ∃ n, .enter n ∈ more) := by
  obtain ⟨cut, last, text, clean, mem, live⟩ := exists_text_of_parent? h hne
  have leads : .up ∈ Step.ofText (joinSegments cut) ∨ ∃ n, .enter n ∈ Step.ofText (joinSegments cut) := by
    rw [steps_joinSegments clean]
    refine (Step.ofSegment?_of_live live).imp (fun hs => ?_) fun ⟨n, hs⟩ => ⟨n, ?_⟩
    · exact List.mem_filterMap.2 ⟨last, mem, hs⟩
    · exact List.mem_filterMap.2 ⟨last, mem, hs⟩
  rcases text with rfl | ⟨rfl, rfl⟩
  · exact ⟨List.prefix_append _ _, _, Step.ofText_append_separator dir _, leads⟩
  · exact ⟨⟨joinSegments cut, rfl⟩, _, rfl, leads⟩

/-- The path above is a shorter text. -/
theorem length_lt_of_parent? {p dir : PathText} (h : parent? p = some dir) (hne : dir ≠ []) :
    dir.length < p.length := by
  obtain ⟨front, more, steps, leads⟩ := exists_steps_of_parent? h hne
  refine Nat.lt_of_le_of_ne front.length_le fun same => ?_
  obtain rfl := front.eq_of_length same
  obtain rfl := List.append_right_eq_self.1 steps.symm
  simp at leads

theorem climb_ne_nil (n : Nat) (p : PathText) : ancestors.climb n p ≠ [] := by
  cases n with
  | zero => exact List.cons_ne_nil p []
  | succ n =>
    rw [ancestors.climb]
    split <;> exact List.cons_ne_nil p _

/-- The steps of a path begin with those of every path above it. -/
theorem exists_steps_of_mem_ancestors {p q : PathText} (h : q ∈ ancestors p) :
    q <+: p ∧ (p ≠ [] → q ≠ []) ∧ ∃ more, Step.ofText p = Step.ofText q ++ more := by
  rw [ancestors] at h
  generalize p.length = bound at h
  have self : ∀ p : PathText, p <+: p ∧ (p ≠ [] → p ≠ []) ∧
      ∃ more, Step.ofText p = Step.ofText p ++ more := fun p =>
    ⟨List.prefix_rfl, id, [], (List.append_nil _).symm⟩
  -- on the bound of the climb, since a parent need not be a part of its path by structure
  induction bound generalizing p with
  | zero =>
    rw [ancestors.climb, List.mem_singleton] at h
    subst h
    exact self q
  | succ bound ih =>
    rw [ancestors.climb] at h
    split at h
    · rw [List.mem_singleton] at h
      subst h
      exact self q
    · rw [List.mem_singleton] at h
      subst h
      exact self q
    · next dir hdir hp =>
      rcases List.mem_cons.1 h with rfl | h
      · exact self q
      · have hne : dir ≠ [] := fun hd => hdir hd
        obtain ⟨front, more, hs, _⟩ := exists_steps_of_parent? hp hne
        obtain ⟨front', some_, more', hs'⟩ := ih h
        refine ⟨front'.trans front, fun _ => some_ hne, more' ++ more, ?_⟩
        rw [hs, hs', List.append_assoc]

end PathText

end LuaTree
