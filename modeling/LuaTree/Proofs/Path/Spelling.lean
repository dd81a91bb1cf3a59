import LuaTree.Proofs.Path.Normal

/-!
# Ways to write a path

Separators at the end or one after another, and `.` segments after the first, change the text of a path
but none of its components: all that stands behind a separator adds the components of its segments
(`components_append_separator`), and empty segments and `.` have none. Writing the components anew makes
no text longer (`byteLength_ofComponents_components_le`).
-/

namespace LuaTree.PathText

variable {p : PathText}

theorem components_append_separator (hp : p ≠ []) (q : PathText) :
    components (p ++ '/' :: q) = components p ++ (segments q).filterMap Component.ofSegment? := by
  have front : lead (p ++ '/' :: q) = lead p := by
    have head : (segments (p ++ '/' :: q)).head? = (segments p).head? := by
      rw [segments_append_separator]
      cases hs : segments p with
      | nil => exact absurd hs (segments_ne_nil p)
      | cons segment rest => rfl
    rw [lead, lead, isAbsolute_append hp, head]
  rw [components_eq, components_eq, front, segments_append_separator, List.filterMap_append,
    List.append_assoc]

theorem components_trailing_separator (hp : p ≠ []) : components (p ++ ['/']) = components p := by
  rw [components_append_separator hp]
  exact List.append_nil _

theorem components_trailing_here (hp : p ≠ []) : components (p ++ ['/', '.']) = components p := by
  rw [components_append_separator hp]
  exact List.append_nil _

theorem components_repeated_separator (hp : p ≠ []) (q : PathText) :
    components (p ++ '/' :: '/' :: q) = components (p ++ '/' :: q) := by
  rw [components_append_separator hp, components_append_separator hp]
  rfl

theorem components_inner_here (hp : p ≠ []) (q : PathText) :
    components (p ++ '/' :: '.' :: '/' :: q) = components (p ++ '/' :: q) := by
  rw [components_append_separator hp, components_append_separator hp]
  rfl

theorem replicate_append_separator (p : PathText) (k : Nat) :
    p ++ List.replicate (k + 1) '/' = (p ++ List.replicate k '/') ++ '/' :: [] := by
  rw [List.replicate_succ', List.append_assoc]

theorem components_separators (hp : p ≠ []) (k : Nat) :
    components (p ++ List.replicate k '/') = components p := by
  induction k with
  | zero => rw [List.replicate_zero, List.append_nil]
  | succ k ih =>
    have hne : p ++ List.replicate k '/' ≠ [] := fun he => hp (List.append_eq_nil_iff.1 he).1
    rw [replicate_append_separator, components_trailing_separator hne, ih]

theorem ofText_separators (p : PathText) (k : Nat) :
    Step.ofText (p ++ List.replicate k '/') = Step.ofText p := by
  induction k with
  | zero => rw [List.replicate_zero, List.append_nil]
  | succ k ih =>
    rw [replicate_append_separator, Step.ofText_append_separator, ih]
    exact List.append_nil _

theorem byteLength_separators (k : Nat) : Utf8.byteLength (List.replicate k '/') = k := by
  induction k with
  | zero => rfl
  | succ k ih =>
    rw [List.replicate_succ', Utf8.byteLength_append, ih]
    rfl

/-! ## How long a text is -/

theorem byteLength_append_separator (p q : PathText) :
    Utf8.byteLength (p ++ '/' :: q) = Utf8.byteLength p + (1 + Utf8.byteLength q) := by
  rw [Utf8.byteLength_append, Utf8.byteLength]
  rfl

theorem text_of_ofSegment? {segment : List Char} {c : Component}
    (h : Component.ofSegment? segment = some c) : c.text = segment := by
  unfold Component.ofSegment? at h
  split at h
  · cases h
  · split at h
    · next hup =>
      cases h
      exact hup.symm
    · cases h
      rfl

theorem byteLength_join_le (p : PathText) {n : Name} (h : '/' ∉ n) :
    Utf8.byteLength (join p n) ≤ Utf8.byteLength p + 1 + Utf8.byteLength n := by
  by_cases hs : p = [] ∨ p.getLast? = some '/'
  · rw [join_of_separator h hs, Utf8.byteLength_append]
    omega
  · rw [not_or] at hs
    rw [join_of_no_separator h hs.1 hs.2, byteLength_append_separator]
    omega

/-- A text with separators is one with a last separator. -/
theorem exists_last_separator (h : '/' ∈ p) : ∃ q segment, p = q ++ '/' :: segment ∧ '/' ∉ segment := by
  induction p with
  | nil => cases h
  | cons c p ih =>
    by_cases hp : '/' ∈ p
    · obtain ⟨q, segment, rfl, hs⟩ := ih hp
      exact ⟨c :: q, segment, rfl, hs⟩
    · rcases List.mem_cons.1 h with rfl | h
      · exact ⟨[], p, rfl, hp⟩
      · exact absurd h hp

theorem ofComponents_singleton {c : Component} (h : c.Inner) : ofComponents [c] = c.text :=
  join_of_separator h.no_separator (.inl rfl)

theorem ofComponents_components_of_no_separator (h : '/' ∉ p) : ofComponents (components p) = p := by
  have relative := isAbsolute_of_no_separator h
  rw [components_eq, lead, relative, segments_of_no_separator h]
  by_cases here : p = ['.']
  · subst here
    rfl
  · simp only [Bool.false_eq_true, if_false, List.head?_cons, Option.some.injEq, here, List.nil_append]
    cases hc : Component.ofSegment? p with
    | none =>
      have empty : p = [] := by
        by_contra hne
        unfold Component.ofSegment? at hc
        rw [if_neg (not_or.2 ⟨hne, here⟩)] at hc
        split at hc <;> cases hc
      subst empty
      rfl
    | some c =>
      have inner := Component.Inner.of_ofSegment? h hc
      rw [List.filterMap_cons, hc]
      exact (ofComponents_singleton inner).trans (text_of_ofSegment? hc)

theorem byteLength_ofComponents_concat_le {segment : List Char} (h : '/' ∉ segment)
    (cs : List Component) : Utf8.byteLength (ofComponents (cs ++ [segment].filterMap Component.ofSegment?)) ≤
      Utf8.byteLength (ofComponents cs) + 1 + Utf8.byteLength segment := by
  cases hc : Component.ofSegment? segment with
  | none =>
    rw [List.filterMap_cons, hc]
    simp only [List.filterMap_nil, List.append_nil]
    omega
  | some c =>
    rw [List.filterMap_cons, hc]
    show Utf8.byteLength (ofComponents (cs ++ [c])) ≤ _
    rw [ofComponents_snoc, text_of_ofSegment? hc]
    exact byteLength_join_le _ h

theorem byteLength_ofComponents_absolute_le {segment : List Char} (h : '/' ∉ segment) :
    Utf8.byteLength (ofComponents (components ('/' :: segment))) ≤ Utf8.byteLength ('/' :: segment) := by
  have root : components ('/' :: segment) = [.root] ++ [segment].filterMap Component.ofSegment? := by
    rw [components_eq, segments, if_pos rfl, segments_of_no_separator h]
    rfl
  rw [root]
  cases hc : Component.ofSegment? segment with
  | none =>
    rw [List.filterMap_cons, hc]
    exact Nat.le_add_right 1 _
  | some c =>
    rw [List.filterMap_cons, hc, List.filterMap_nil, ofComponents_snoc, text_of_ofSegment? hc]
    have joined : join ['/'] segment = '/' :: segment := join_of_separator h (.inr rfl)
    exact Nat.le_of_eq (congrArg _ joined)

/-- Spelled by its components, no path is longer. -/
theorem byteLength_ofComponents_components_le (p : PathText) :
    Utf8.byteLength (ofComponents (components p)) ≤ Utf8.byteLength p := by
  -- by the number of separators: the last segment adds itself and one of them
  induction hk : p.length using Nat.strongRecOn generalizing p with
  | ind k ih =>
    by_cases h : '/' ∈ p
    · obtain ⟨q, segment, rfl, hs⟩ := exists_last_separator h
      by_cases hq : q = []
      · subst hq
        exact byteLength_ofComponents_absolute_le hs
      · have whole : Utf8.byteLength (q ++ '/' :: segment) =
            Utf8.byteLength q + (1 + Utf8.byteLength segment) := Utf8.byteLength_append _ _
        have shorter := ih q.length (by rw [← hk, List.length_append, List.length_cons]; omega) q rfl
        have last := byteLength_ofComponents_concat_le hs (components q)
        rw [components_append_separator hq, segments_of_no_separator hs, byteLength_append_separator]
        omega
    · exact Nat.le_of_eq (congrArg _ (ofComponents_components_of_no_separator h))

end LuaTree.PathText
