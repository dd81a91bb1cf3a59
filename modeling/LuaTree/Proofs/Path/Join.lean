import LuaTree.Path.Extension
import LuaTree.Store.Lookup

/-!
# Joining names onto a path

What a path means is read off its segments, and what happens to a path is that names are joined onto
it. This module ties the two together:

* `segments_join`: joining adds one segment, after the empty one that a final separator leaves;
* `components_join`, `Step.ofText_join`: so it adds one component, and one step of a lookup;
* `relativeTo?_joinAll`: taking the components of a path off again gives back the names that were
  joined onto it.
-/

namespace LuaTree

namespace PathText

/-- A segment that stands for an entry: neither empty nor made of dots, and without a separator. -/
structure IsName (n : Name) : Prop where
  ne_nil : n ≠ []
  ne_here : n ≠ ['.']
  ne_up : n ≠ ['.', '.']
  no_separator : '/' ∉ n

/-- Joins names onto a path, one after the other. -/
def joinAll (p : PathText) (way : List Name) : PathText := way.foldl join p

@[simp] theorem joinAll_nil (p : PathText) : joinAll p [] = p := rfl

@[simp] theorem joinAll_cons (p : PathText) (n : Name) (way : List Name) :
    joinAll p (n :: way) = joinAll (join p n) way := rfl

@[simp] theorem joinAll_append (p : PathText) (way rest : List Name) :
    joinAll p (way ++ rest) = joinAll (joinAll p way) rest := List.foldl_append

/-! ## Segments -/

theorem segments_ne_nil (p : PathText) : segments p ≠ [] := by
  cases p with
  | nil => simp [segments]
  | cons c cs =>
    rw [segments]
    split
    · simp
    · split <;> simp

theorem segments_cons_of_ne {c : Char} (hc : c ≠ '/') (p : PathText) :
    ∃ s rest, segments p = s :: rest ∧ segments (c :: p) = (c :: s) :: rest := by
  cases hs : segments p with
  | nil => exact absurd hs (segments_ne_nil p)
  | cons s rest => exact ⟨s, rest, rfl, by rw [segments, if_neg hc, hs]⟩

/-- A text without separators is one segment. -/
theorem segments_of_no_separator {n : Name} (h : '/' ∉ n) : segments n = [n] := by
  induction n with
  | nil => rfl
  | cons c n ih =>
    rw [List.mem_cons, not_or] at h
    rw [segments, if_neg (Ne.symm h.1), ih h.2]

/-- A separator ends one segment and begins the next. -/
theorem segments_append_separator (p q : PathText) :
    segments (p ++ '/' :: q) = segments p ++ segments q := by
  induction p with
  | nil => simp [segments]
  | cons c p ih =>
    by_cases hc : c = '/'
    · rw [List.cons_append, segments, if_pos hc, ih, segments, if_pos hc, List.cons_append]
    · obtain ⟨s, rest, hp, hcp⟩ := segments_cons_of_ne hc p
      rw [List.cons_append, segments, if_neg hc, ih, hp, hcp]
      rfl

/-- Segments written with separators between them are the text they were cut from. -/
theorem joinSegments_segments (p : PathText) : joinSegments (segments p) = p := by
  induction p with
  | nil => rfl
  | cons c p ih =>
    cases hs : segments p with
    | nil => exact absurd hs (segments_ne_nil p)
    | cons s rest =>
      rw [hs] at ih
      by_cases hc : c = '/'
      · rw [segments, if_pos hc, hs, joinSegments, List.intercalate_cons_cons, ← joinSegments, ih, hc]
        rfl
      · rw [segments, if_neg hc, hs]
        show joinSegments ((c :: s) :: rest) = c :: p
        rw [← ih]
        cases rest with
        | nil => simp [joinSegments]
        | cons r rest => simp [joinSegments, List.intercalate_cons_cons]

/-! ## What a join does to the segments -/

theorem isAbsolute_of_no_separator {n : Name} (h : '/' ∉ n) : isAbsolute n = false := by
  cases n with
  | nil => rfl
  | cons c n =>
    have hc : c ≠ '/' := fun e => h (e ▸ List.mem_cons_self)
    unfold isAbsolute
    split
    · next heq => exact absurd (List.cons.inj heq).1 hc
    · rfl

theorem join_of_separator {p : PathText} {n : Name} (h : '/' ∉ n)
    (hp : p = [] ∨ p.getLast? = some '/') : join p n = p ++ n := by
  rw [join, isAbsolute_of_no_separator h]
  simp [hp]

theorem join_of_no_separator {p : PathText} {n : Name} (h : '/' ∉ n) (hp : p ≠ [])
    (hl : p.getLast? ≠ some '/') : join p n = p ++ '/' :: n := by
  rw [join, isAbsolute_of_no_separator h]
  simp [hp, hl]

/-- A join adds the name as the last segment; the empty segment after a final separator makes room
for it. -/
theorem segments_join (p : PathText) {n : Name} (h : '/' ∉ n) :
    ∃ front, segments (join p n) = front ++ [n] ∧
      (segments p = front ∨ segments p = front ++ [[]]) := by
  by_cases hp : p = []
  · subst hp
    refine ⟨[], ?_, .inr rfl⟩
    rw [join_of_separator h (.inl rfl), List.nil_append, segments_of_no_separator h]
    rfl
  · by_cases hl : p.getLast? = some '/'
    · obtain ⟨q, rfl⟩ := List.getLast?_eq_some_iff.1 hl
      refine ⟨segments q, ?_, .inr ?_⟩
      · rw [join_of_separator h (.inr hl), List.append_assoc, List.singleton_append,
          segments_append_separator, segments_of_no_separator h]
      · rw [segments_append_separator]
        rfl
    · refine ⟨segments p, ?_, .inl rfl⟩
      rw [join_of_no_separator h hp hl, segments_append_separator, segments_of_no_separator h]

theorem isAbsolute_append {p : PathText} (hp : p ≠ []) (q : PathText) :
    isAbsolute (p ++ q) = isAbsolute p := by
  cases p with
  | nil => exact absurd rfl hp
  | cons c p =>
    unfold isAbsolute
    by_cases hc : c = '/'
    · subst hc; rfl
    · split
      · next heq => exact absurd (List.cons.inj heq).1 hc
      · split
        · next heq => exact absurd (List.cons.inj heq).1 hc
        · rfl

theorem isAbsolute_join {p : PathText} (hp : p ≠ []) {n : Name} (h : '/' ∉ n) :
    isAbsolute (join p n) = isAbsolute p := by
  by_cases hl : p.getLast? = some '/'
  · rw [join_of_separator h (.inr hl), isAbsolute_append hp]
  · rw [join_of_no_separator h hp hl, isAbsolute_append hp]

/-- The joined name is the end of the text. -/
theorem exists_join_eq_append (p : PathText) {n : Name} (h : '/' ∉ n) :
    ∃ front, join p n = front ++ n := by
  by_cases hs : p = [] ∨ p.getLast? = some '/'
  · exact ⟨p, join_of_separator h hs⟩
  · rw [not_or] at hs
    exact ⟨p ++ ['/'], by rw [join_of_no_separator h hs.1 hs.2]; simp⟩

theorem join_ne_nil (p : PathText) {n : Name} (hn : n ≠ []) (h : '/' ∉ n) : join p n ≠ [] := by
  obtain ⟨front, hf⟩ := exists_join_eq_append p h
  rw [hf]
  simp [hn]

theorem getLast?_join (p : PathText) {n : Name} (hn : n ≠ []) (h : '/' ∉ n) :
    (join p n).getLast? ≠ some '/' := by
  obtain ⟨front, hf⟩ := exists_join_eq_append p h
  rw [hf]
  intro hl
  rw [List.getLast?_append, List.getLast?_eq_some_getLast hn, Option.some_or,
    Option.some_inj] at hl
  exact h (hl ▸ List.getLast_mem hn)

theorem not_mem_join {c : Char} {p n : PathText} (hp : c ∉ p) (hs : c ≠ '/') (hn : c ∉ n) :
    c ∉ join p n := by
  unfold join
  repeat' split
  · exact hn
  · simp [hp, hn]
  · simp [hp, hs, hn]

/-- A character is in a path only if it is in one of the texts that were joined. -/
theorem not_mem_joinAll {c : Char} {p : PathText} {way : List Name} (hp : c ∉ p) (hs : c ≠ '/')
    (h : ∀ n ∈ way, c ∉ n) : c ∉ joinAll p way := by
  induction way generalizing p with
  | nil => exact hp
  | cons n way ih =>
    exact ih (not_mem_join hp hs (h n List.mem_cons_self)) fun m hm => h m (List.mem_cons_of_mem n hm)

theorem isAbsolute_joinAll {p : PathText} (hp : p ≠ []) {way : List Name}
    (h : ∀ n ∈ way, IsName n) : isAbsolute (joinAll p way) = isAbsolute p := by
  induction way generalizing p with
  | nil => rfl
  | cons n way ih =>
    have hn := h n List.mem_cons_self
    rw [joinAll_cons, ih (join_ne_nil p hn.ne_nil hn.no_separator)
      (fun m hm => h m (List.mem_cons_of_mem n hm)), isAbsolute_join hp hn.no_separator]

theorem byteLength_pos {t : List Char} (h : t ≠ []) : 0 < Utf8.byteLength t := by
  cases t with
  | nil => exact absurd rfl h
  | cons c t => exact Nat.lt_of_lt_of_le c.utf8Size_pos (Nat.le_add_right _ _)

theorem byteLength_le_join (p : PathText) {n : Name} (h : '/' ∉ n) :
    Utf8.byteLength p ≤ Utf8.byteLength (join p n) := by
  by_cases hs : p = [] ∨ p.getLast? = some '/'
  · rw [join_of_separator h hs, Utf8.byteLength_append]
    omega
  · rw [not_or] at hs
    rw [join_of_no_separator h hs.1 hs.2, Utf8.byteLength_append]
    omega

theorem byteLength_le_joinAll (p : PathText) {way : List Name} (h : ∀ n ∈ way, IsName n) :
    Utf8.byteLength p ≤ Utf8.byteLength (joinAll p way) := by
  induction way generalizing p with
  | nil => exact Nat.le_refl _
  | cons n way ih =>
    exact Nat.le_trans (byteLength_le_join p (h n List.mem_cons_self).no_separator)
      (ih (join p n) fun m hm => h m (List.mem_cons_of_mem n hm))

/-- A path with fewer names is no longer. -/
theorem byteLength_joinAll_mono (p : PathText) {front way : List Name} (hp : front <+: way)
    (h : ∀ n ∈ way, IsName n) : Utf8.byteLength (joinAll p front) ≤ Utf8.byteLength (joinAll p way) := by
  obtain ⟨rest, rfl⟩ := hp
  rw [joinAll_append]
  exact byteLength_le_joinAll _ fun n hn => h n (List.mem_append_right _ hn)

/-! ## What a join does to the components -/

/-- What a path starts with counts as a component, unless it is an ordinary segment. -/
def lead (p : PathText) : List Component :=
  if isAbsolute p then [.root] else if (segments p).head? = some ['.'] then [.here] else []

theorem components_eq (p : PathText) :
    components p = lead p ++ (segments p).filterMap Component.ofSegment? := by
  cases p with
  | nil => simp [components, lead, isAbsolute, segments, Component.ofSegment?]
  | cons c p =>
    by_cases hc : c = '/'
    · subst hc
      simp [components, lead, isAbsolute, segments, Component.ofSegment?]
    · have absolute : isAbsolute (c :: p) = false := by
        unfold isAbsolute
        split
        · next heq => exact absurd (List.cons.inj heq).1 hc
        · rfl
      unfold components lead
      rw [absolute]
      split
      · next heq => exact absurd (List.cons.inj heq).1 hc
      · split
        · next heq => simp [heq, Component.ofSegment?]
        · next hne =>
          rw [if_neg Bool.false_ne_true, if_neg]
          · rfl
          · intro hd
            -- what does not begin with a dot segment has no lead, and all its segments are ordinary
            cases hs : segments (c :: p) with
            | nil => exact segments_ne_nil _ hs
            | cons s rest =>
              rw [hs, List.head?_cons, Option.some_inj] at hd
              exact hne rest (hd ▸ hs)

theorem lead_join {p : PathText} (hp : p ≠ []) {n : Name} (h : '/' ∉ n) :
    lead (join p n) = lead p := by
  obtain ⟨front, hj, hs⟩ := segments_join p h
  have front_ne : front ≠ [] := by
    rintro rfl
    rcases hs with hs | hs
    · exact segments_ne_nil p hs
    · have := joinSegments_segments p
      rw [hs] at this
      exact hp this.symm
  have head : (segments (join p n)).head? = (segments p).head? := by
    rw [hj]
    rcases hs with hs | hs <;> rw [hs] <;> cases front <;> simp_all
  rw [lead, lead, isAbsolute_join hp h, head]

/-- A join adds one component. -/
theorem components_join {p : PathText} (hp : p ≠ []) {n : Name} {c : Component} (h : '/' ∉ n)
    (hc : Component.ofSegment? n = some c) : components (join p n) = components p ++ [c] := by
  obtain ⟨front, hj, hs⟩ := segments_join p h
  rw [components_eq, components_eq, lead_join hp h, hj, List.append_assoc]
  have last : [n].filterMap Component.ofSegment? = [c] := by rw [List.filterMap_cons, hc]; rfl
  have empty : [[]].filterMap Component.ofSegment? = [] := rfl
  rcases hs with hs | hs <;> rw [hs]
  · rw [List.filterMap_append, last]
  · rw [List.filterMap_append, List.filterMap_append, last, empty, List.append_nil]

theorem ofSegment?_of_isName {n : Name} (h : IsName n) :
    Component.ofSegment? n = some (.name n) := by
  rw [Component.ofSegment?, if_neg (not_or.2 ⟨h.ne_nil, h.ne_here⟩), if_neg h.ne_up]

theorem components_joinAll {p : PathText} (hp : p ≠ []) {way : List Name}
    (h : ∀ n ∈ way, IsName n) :
    components (joinAll p way) = components p ++ way.map .name := by
  induction way generalizing p with
  | nil => simp
  | cons n way ih =>
    have hn := h n List.mem_cons_self
    rw [joinAll_cons, ih (join_ne_nil p hn.ne_nil hn.no_separator)
        (fun m hm => h m (List.mem_cons_of_mem n hm)),
      components_join hp hn.no_separator (ofSegment?_of_isName hn)]
    simp

theorem stripComponents_append (bs cs : List Component) :
    stripComponents bs (bs ++ cs) = some cs := by
  induction bs with
  | nil => rfl
  | cons b bs ih => rw [List.cons_append, stripComponents, if_pos rfl, ih]

/-- The names that were joined onto a path are what is left of it. -/
theorem relativeTo?_joinAll {p : PathText} (hp : p ≠ []) {way : List Name}
    (h : ∀ n ∈ way, IsName n) :
    relativeTo? p (joinAll p way) = some (ofComponents (way.map .name)) := by
  rw [relativeTo?, components_joinAll hp h, stripComponents_append]
  rfl

/-- Different names give different paths. -/
theorem joinAll_injective {p : PathText} (hp : p ≠ []) {way rest : List Name}
    (hw : ∀ n ∈ way, IsName n) (hr : ∀ n ∈ rest, IsName n)
    (h : joinAll p way = joinAll p rest) : way = rest := by
  have same := congrArg components h
  rw [components_joinAll hp hw, components_joinAll hp hr, List.append_cancel_left_eq] at same
  exact (List.map_inj_right fun _ _ e => Component.name.inj e).1 same

end PathText

/-! ## What a join does to the steps of a lookup -/

namespace Step

open PathText

/-- The steps of a path, a separator at its end left out. -/
def ofText (p : PathText) : List Step := (segments p).filterMap ofSegment?

theorem ofPath_of_no_slash {p : PathText} (h : p.getLast? ≠ some '/') : ofPath p = ofText p := by
  rw [ofPath, if_neg h, List.append_nil]
  rfl

theorem slash_not_mem_ofText (p : PathText) : .slash ∉ ofText p := by
  intro h
  obtain ⟨segment, _, hs⟩ := List.mem_filterMap.1 h
  unfold ofSegment? at hs
  repeat' split at hs <;> try exact absurd hs (by simp)

theorem filter_ofText (p : PathText) : (ofText p).filter (· ≠ .slash) = ofText p := by
  refine List.filter_eq_self.2 fun st hst => decide_eq_true ?_
  rintro rfl
  exact slash_not_mem_ofText p hst

theorem ofSegment?_of_isName {n : Name} (h : IsName n) : ofSegment? n = some (.enter n) := by
  rw [ofSegment?, if_neg h.ne_nil, if_neg h.ne_here, if_neg h.ne_up]

theorem ofText_append_separator (p q : PathText) : ofText (p ++ '/' :: q) = ofText p ++ ofText q := by
  rw [ofText, segments_append_separator, List.filterMap_append]
  rfl

/-- A join adds one step. -/
theorem ofText_join (p : PathText) {n : Name} {step : Step} (h : '/' ∉ n)
    (hs : ofSegment? n = some step) : ofText (join p n) = ofText p ++ [step] := by
  obtain ⟨front, hj, hp⟩ := segments_join p h
  have last : [n].filterMap ofSegment? = [step] := by rw [List.filterMap_cons, hs]; rfl
  have empty : [[]].filterMap ofSegment? = [] := rfl
  rw [ofText, ofText, hj]
  rcases hp with hp | hp <;> rw [hp]
  · rw [List.filterMap_append, last]
  · rw [List.filterMap_append, List.filterMap_append, last, empty, List.append_nil]

theorem ofText_joinAll (p : PathText) {way : List Name} (h : ∀ n ∈ way, IsName n) :
    ofText (joinAll p way) = ofText p ++ way.map .enter := by
  induction way generalizing p with
  | nil => simp
  | cons n way ih =>
    rw [joinAll_cons, ih (join p n) (fun m hm => h m (List.mem_cons_of_mem n hm)),
      ofText_join p (h n List.mem_cons_self).no_separator
        (ofSegment?_of_isName (h n List.mem_cons_self))]
    simp

theorem ofPath_join (p : PathText) {n : Name} (h : IsName n) :
    ofPath (join p n) = ofText p ++ [.enter n] := by
  rw [ofPath_of_no_slash (getLast?_join p h.ne_nil h.no_separator),
    ofText_join p h.no_separator (ofSegment?_of_isName h)]

end Step

end LuaTree
