import LuaTree.Proofs.Store.Approach
import Mathlib.Data.List.TakeDrop

/-!
# The end of a path

A path to a file is the text of a directory with a name behind it (`exists_final`). What the text of the
directory is without the separators at its end makes no difference to a lookup (`thins_trimEnd`).
-/

namespace LuaTree.PathText

/-! ## The last name -/

/-- Every text is one that ends in a separator, or none, with a name behind it. -/
theorem exists_final (p : PathText) :
    ∃ front n, p = front ++ n ∧ '/' ∉ n ∧ (front = [] ∨ front.getLast? = some '/') := by
  induction p with
  | nil => exact ⟨[], [], rfl, List.not_mem_nil, .inl rfl⟩
  | cons c p ih =>
    obtain ⟨front, n, rfl, hn, hf⟩ := ih
    rcases hf with rfl | hf
    · by_cases hc : c = '/'
      · exact ⟨['/'], n, by rw [hc]; rfl, hn, .inr rfl⟩
      · refine ⟨[], c :: n, rfl, ?_, .inl rfl⟩
        rw [List.mem_cons, not_or]
        exact ⟨Ne.symm hc, hn⟩
    · refine ⟨c :: front, n, rfl, hn, .inr ?_⟩
      rw [List.getLast?_cons, hf]
      rfl

theorem finalName?_join_up (front : PathText) : finalName? (join front ['.', '.']) = none := by
  obtain ⟨ss, hs, _⟩ := segments_join front (n := ['.', '.']) (by decide)
  have last : (components (join front ['.', '.'])).getLast? = some .up := by
    rw [components_eq, hs, List.filterMap_append, ← List.append_assoc, List.getLast?_append]
    rfl
  rw [finalName?, last]

/-! ## The text before the last name -/

theorem dropDeadEnd_append (ss : List (List Char)) :
    ∃ dead, ss = dropDeadEnd ss ++ dead ∧ ∀ d ∈ dead, isDead d := by
  refine ⟨(ss.reverse.takeWhile isDead).reverse, ?_, fun d hd => ?_⟩
  · rw [dropDeadEnd, ← List.reverse_append, List.takeWhile_append_dropWhile, List.reverse_reverse]
  · exact List.all_eq_true.1 List.all_takeWhile d (List.mem_reverse.1 hd)

theorem joinSegments_isPrefix (xs ys : List (List Char)) : joinSegments xs <+: joinSegments (xs ++ ys) := by
  induction xs with
  | nil => exact List.nil_prefix
  | cons x xs ih =>
    rw [joinSegments, joinSegments, List.cons_append]
    cases xs with
    | nil =>
      cases ys with
      | nil => exact List.prefix_rfl
      | cons y ys =>
        rw [List.nil_append, List.intercalate_cons_cons, List.intercalate_singleton, List.append_assoc]
        exact List.prefix_append _ _
    | cons x' xs =>
      rw [List.cons_append, List.intercalate_cons_cons, List.intercalate_cons_cons]
      exact (List.prefix_append_right_inj _).2 ih

/-- What is cut off is at the end. -/
theorem trimEnd_isPrefix (p : PathText) : trimEnd p <+: p := by
  obtain ⟨dead, hd, _⟩ := dropDeadEnd_append (anchor p).2
  have text := anchor_text p
  rw [hd] at text
  unfold trimEnd
  dsimp only
  conv_rhs => rw [← text]
  exact (List.prefix_append_right_inj _).2 (joinSegments_isPrefix _ _)

theorem segments_joinSegments {ss : List (List Char)} (hne : ss ≠ []) (h : ∀ s ∈ ss, '/' ∉ s) :
    segments (joinSegments ss) = ss := by
  induction ss with
  | nil => exact absurd rfl hne
  | cons s ss ih =>
    have hs := h s List.mem_cons_self
    cases ss with
    | nil =>
      rw [joinSegments, List.intercalate_singleton]
      exact segments_of_no_separator hs
    | cons s' ss =>
      have rest := ih (List.cons_ne_nil _ _) fun x hx => h x (List.mem_cons_of_mem s hx)
      rw [joinSegments, List.intercalate_cons_cons, ← joinSegments, List.append_assoc,
        List.singleton_append, segments_append_separator, segments_of_no_separator hs, rest]
      rfl

/-! ## Steps -/

theorem steps_joinSegments {ss : List (List Char)} (h : ∀ s ∈ ss, '/' ∉ s) :
    Step.ofText (joinSegments ss) = ss.filterMap Step.ofSegment? := by
  by_cases hne : ss = []
  · subst hne
    rfl
  · rw [Step.ofText, segments_joinSegments hne h]

/-- Segments that are no components make no difference at the end. -/
theorem thins_dropDeadEnd (ss : List (List Char)) :
    Store.Thins (ss.filterMap Step.ofSegment?) ((dropDeadEnd ss).filterMap Step.ofSegment?) := by
  obtain ⟨dead, hd, all⟩ := dropDeadEnd_append ss
  have gone : Store.Thins (dead.filterMap Step.ofSegment?) [] := by
    clear hd
    induction dead with
    | nil => exact .nil
    | cons d dead ih =>
      have ih := ih fun x hx => all x (List.mem_cons_of_mem d hx)
      have none_or : d = [] ∨ d = ['.'] := by simpa [isDead] using all d List.mem_cons_self
      rcases none_or with rfl | rfl
      · exact ih
      · exact .stay ih
  have both := (Store.Thins.refl ((dropDeadEnd ss).filterMap Step.ofSegment?)).append gone
  rwa [List.append_nil, ← List.filterMap_append, ← hd] at both

theorem no_separator_of_mem_dropDeadEnd {ss : List (List Char)} (h : ∀ s ∈ ss, '/' ∉ s) :
    ∀ s ∈ dropDeadEnd ss, '/' ∉ s := by
  obtain ⟨dead, hd, _⟩ := dropDeadEnd_append ss
  exact fun s hs => h s (hd ▸ List.mem_append_left dead hs)

/-- What is cut off at the end of a path makes no difference to where it leads. -/
theorem thins_trimEnd (p : PathText) : Store.Thins (Step.ofText p) (Step.ofText (trimEnd p)) := by
  have clean : ∀ {q : PathText}, ∀ s ∈ segments q, '/' ∉ s := fun s hs => no_separator_of_mem_segments hs
  have separated : ∀ q, Step.ofText ('/' :: q) = Step.ofText q := fun q => rfl
  have dotted : ∀ q, Step.ofText ('.' :: '/' :: q) = .stay :: Step.ofText q := by
    intro q
    have hs : segments ('.' :: '/' :: q) = ['.'] :: segments q := segments_append_separator ['.'] q
    rw [Step.ofText, hs]
    rfl
  unfold trimEnd
  dsimp only
  -- what a text is anchored by stays; the cases are those of `anchor`
  cases ha : isAbsolute p with
  | true =>
    obtain ⟨rest, rfl⟩ : ∃ rest, p = '/' :: rest := by
      unfold isAbsolute at ha
      split at ha
      · exact ⟨_, rfl⟩
      · cases ha
    show Store.Thins (Step.ofText ('/' :: rest))
      (Step.ofText ('/' :: joinSegments (dropDeadEnd (segments rest))))
    rw [separated, separated, steps_joinSegments (no_separator_of_mem_dropDeadEnd clean)]
    exact thins_dropDeadEnd _
  | false =>
    rw [anchor_of_relative ha]
    split
    · next rest hs =>
      have steps : Step.ofText p = .stay :: ([] :: rest).filterMap Step.ofSegment? := by
        rw [Step.ofText, hs]
        rfl
      have slashes : ∀ s ∈ [] :: rest, '/' ∉ s := by
        intro s hm
        rcases List.mem_cons.1 hm with rfl | hm
        · exact List.not_mem_nil
        · exact clean s (hs ▸ List.mem_cons_of_mem _ hm)
      have thin := thins_dropDeadEnd ([] :: rest)
      obtain ⟨dead, hd, _⟩ := dropDeadEnd_append ([] :: rest)
      have live := no_separator_of_mem_dropDeadEnd slashes
      rw [steps]
      -- a leading dot gets its separator back only if a segment is left behind it
      cases hl : dropDeadEnd ([] :: rest) with
      | nil =>
        rw [hl] at thin
        exact .keep thin
      | cons l ls =>
        rw [hl] at hd thin live
        obtain rfl : [] = l := (List.cons.inj hd).1
        cases ls with
        | nil => exact .keep thin
        | cons l' ls =>
          have text : ['.'] ++ joinSegments ([] :: l' :: ls) = '.' :: '/' :: joinSegments (l' :: ls) := by
            rw [joinSegments, List.intercalate_cons_cons]
            rfl
          rw [text, dotted, steps_joinSegments fun s hm => live s (List.mem_cons_of_mem _ hm)]
          exact .keep thin
    · show Store.Thins _ (Step.ofText (joinSegments _))
      rw [steps_joinSegments (no_separator_of_mem_dropDeadEnd clean)]
      exact thins_dropDeadEnd _

theorem isAbsolute_trimEnd (p : PathText) : isAbsolute (trimEnd p) = isAbsolute p := by
  cases ha : isAbsolute p with
  | true =>
    obtain ⟨rest, rfl⟩ : ∃ rest, p = '/' :: rest := by
      unfold isAbsolute at ha
      split at ha
      · exact ⟨_, rfl⟩
      · cases ha
    rfl
  | false =>
    obtain ⟨rest, hr⟩ := trimEnd_isPrefix p
    cases ht : trimEnd p with
    | nil => rfl
    | cons c q =>
      rw [← ha, ← hr, ht]
      exact (isAbsolute_append (List.cons_ne_nil c q) rest).symm

end LuaTree.PathText
