import LuaTree.Proofs.Path.Join
import Mathlib.Data.List.Basic
import Mathlib.Data.List.Induction

/-!
# Paths in normal form

A path written from components has no segment that means nothing. Taking such paths apart undoes
putting them together:

* `components_ofComponents`: the components are the ones it was written from;
* `parent?_ofComponents`, `ancestors_ofComponents`: a parent is what is written without the last one;
* `ofText_ofComponents`: a lookup takes one step for each of them.
-/

namespace LuaTree

open PathText

namespace Component

/-- A component that can stand after others. -/
inductive Inner : Component → Prop
  | up : Inner .up
  | name {n : Name} : IsName n → Inner (.name n)

theorem Inner.text_ne_nil {c : Component} (h : c.Inner) : c.text ≠ [] := by
  cases h with
  | up => simp [text]
  | name hn => exact hn.ne_nil

theorem Inner.no_separator {c : Component} (h : c.Inner) : '/' ∉ c.text := by
  cases h with
  | up => simp [text]
  | name hn => exact hn.no_separator

theorem Inner.text_ne_here {c : Component} (h : c.Inner) : c.text ≠ ['.'] := by
  cases h with
  | up => simp [text]
  | name hn => exact hn.ne_here

theorem Inner.ofSegment?_text {c : Component} (h : c.Inner) : ofSegment? c.text = some c := by
  cases h with
  | up => rfl
  | name hn => exact ofSegment?_of_isName hn

/-- A segment that is a component is one that can stand after others. -/
theorem Inner.of_ofSegment? {segment : List Char} {c : Component} (h : '/' ∉ segment)
    (hc : ofSegment? segment = some c) : c.Inner := by
  unfold ofSegment? at hc
  split at hc
  · cases hc
  · next hdead =>
    rw [not_or] at hdead
    split at hc
    · cases hc
      exact .up
    · next hup =>
      cases hc
      exact .name ⟨hdead.1, hdead.2, hup, h⟩

/-- The step that a lookup takes for a component. -/
def step? : Component → Option Step
  | .root => none
  | .here => some .stay
  | .up => some .up
  | .name n => some (.enter n)

theorem Inner.step_eq {c : Component} (h : c.Inner) : Step.ofSegment? c.text = c.step? := by
  cases h with
  | up => rfl
  | name hn => exact Step.ofSegment?_of_isName hn

end Component

namespace PathText

/-- Components as a path has them: a separator or a `.` can only come first. -/
inductive Normal : List Component → Prop
  | nil : Normal []
  | root : Normal [.root]
  | here : Normal [.here]
  | snoc {cs : List Component} {c : Component} : Normal cs → c.Inner → Normal (cs ++ [c])

theorem Normal.append {cs ds : List Component} (h : Normal cs) (hd : ∀ c ∈ ds, c.Inner) :
    Normal (cs ++ ds) := by
  induction ds generalizing cs with
  | nil => rwa [List.append_nil]
  | cons d ds ih =>
    rw [List.append_cons]
    exact ih (.snoc h (hd d List.mem_cons_self)) fun c hc => hd c (List.mem_cons_of_mem d hc)

theorem Normal.append_names {cs : List Component} {way : List Name} (h : Normal cs)
    (names : ∀ n ∈ way, IsName n) : Normal (cs ++ way.map .name) := by
  refine h.append fun c hc => ?_
  obtain ⟨n, hn, rfl⟩ := List.mem_map.1 hc
  exact .name (names n hn)

theorem no_separator_of_mem_segments {p : PathText} {segment : List Char}
    (h : segment ∈ segments p) : '/' ∉ segment := by
  induction p generalizing segment with
  | nil =>
    rw [segments, List.mem_singleton] at h
    simp [h]
  | cons c p ih =>
    by_cases hc : c = '/'
    · rw [segments, if_pos hc] at h
      rcases List.mem_cons.1 h with h | h
      · simp [h]
      · exact ih h
    · obtain ⟨s, rest, hp, hcp⟩ := segments_cons_of_ne hc p
      rw [hcp] at h
      rcases List.mem_cons.1 h with h | h
      · rw [h, List.mem_cons, not_or]
        exact ⟨Ne.symm hc, ih (hp ▸ List.mem_cons_self)⟩
      · exact ih (hp ▸ List.mem_cons_of_mem s h)

/-- The components of any path are in normal form. -/
theorem normal_components (p : PathText) : Normal (components p) := by
  rw [components_eq]
  refine Normal.append ?_ fun c hc => ?_
  · unfold lead
    split
    · exact .root
    · split
      · exact .here
      · exact .nil
  · obtain ⟨segment, hs, hc⟩ := List.mem_filterMap.1 hc
    exact .of_ofSegment? (no_separator_of_mem_segments hs) hc

theorem isName_of_mem_components {p : PathText} {n : Name} (h : .name n ∈ components p) : IsName n := by
  rw [components_eq, List.mem_append] at h
  rcases h with h | h
  · unfold lead at h
    repeat' split at h
    all_goals simp at h
  · obtain ⟨segment, hs, hc⟩ := List.mem_filterMap.1 h
    cases Component.Inner.of_ofSegment? (no_separator_of_mem_segments hs) hc with
    | name hn => exact hn

theorem mem_of_mem_segments {p : PathText} {segment : List Char} (h : segment ∈ segments p) {c : Char}
    (hc : c ∈ segment) : c ∈ p := by
  induction p generalizing segment with
  | nil =>
    rw [segments, List.mem_singleton] at h
    rw [h] at hc
    exact hc
  | cons d p ih =>
    by_cases hd : d = '/'
    · rw [segments, if_pos hd] at h
      rcases List.mem_cons.1 h with h | h
      · rw [h] at hc
        cases hc
      · exact List.mem_cons_of_mem d (ih h hc)
    · obtain ⟨s, rest, hp, hcp⟩ := segments_cons_of_ne hd p
      rw [hcp] at h
      rcases List.mem_cons.1 h with h | h
      · rw [h] at hc
        rcases List.mem_cons.1 hc with rfl | hc
        · exact List.mem_cons_self
        · exact List.mem_cons_of_mem d (ih (hp ▸ List.mem_cons_self) hc)
      · exact List.mem_cons_of_mem d (ih (hp ▸ List.mem_cons_of_mem s h) hc)

theorem not_mem_ofComponents {c : Char} {cs : List Component} (hs : c ≠ '/')
    (h : ∀ d ∈ cs, c ∉ d.text) : c ∉ ofComponents cs := by
  induction cs using List.reverseRecOn with
  | nil => exact List.not_mem_nil
  | append_singleton cs d ih =>
    rw [ofComponents, List.foldl_append]
    refine not_mem_join (ih fun e he => h e (List.mem_append_left _ he)) hs ?_
    exact h d (List.mem_append_right _ List.mem_cons_self)

/-- Of NUL characters there are no more in the components of a path than in its text. -/
theorem no_nul_of_mem_components {p : PathText} (h : '\x00' ∉ p) :
    ∀ d ∈ components p, '\x00' ∉ d.text := by
  intro d hd
  rw [components_eq, List.mem_append] at hd
  rcases hd with hd | hd
  · unfold lead at hd
    repeat' split at hd
    all_goals simp at hd
    all_goals subst hd; decide
  · obtain ⟨segment, hs, hc⟩ := List.mem_filterMap.1 hd
    have text : d.text = segment := by
      unfold Component.ofSegment? at hc
      split at hc
      · cases hc
      · split at hc
        · next h2 => cases hc; exact h2.symm
        · cases hc; rfl
    rw [text]
    exact fun hn => h (mem_of_mem_segments hs hn)

@[simp] theorem ofComponents_nil : ofComponents [] = [] := rfl

theorem ofComponents_snoc (cs : List Component) (c : Component) :
    ofComponents (cs ++ [c]) = join (ofComponents cs) c.text := by
  rw [ofComponents, List.foldl_append]
  rfl

/-- Joining names onto a path written from components writes them behind these. -/
theorem joinAll_ofComponents (cs : List Component) (way : List Name) :
    joinAll (ofComponents cs) way = ofComponents (cs ++ way.map .name) := by
  induction way generalizing cs with
  | nil => simp
  | cons n way ih =>
    rw [joinAll_cons, List.map_cons, List.append_cons, ← ih, ofComponents_snoc]
    rfl

theorem join_join (p : PathText) {q n : PathText} (hq : q ≠ []) (hl : q.getLast? ≠ some '/')
    (h : '/' ∉ n) : join p (join q n) = join (join p q) n := by
  rw [join_of_no_separator h hq hl]
  by_cases ha : isAbsolute q = true
  · have hj : join p q = q := by rw [join, if_pos ha]
    rw [hj, join_of_no_separator h hq hl, join, if_pos ((isAbsolute_append hq _).trans ha)]
  · have ha' : ¬isAbsolute (q ++ '/' :: n) = true := by rwa [isAbsolute_append hq]
    have last : ∀ front : PathText, (front ++ q).getLast? ≠ some '/' := by
      intro front
      rw [List.getLast?_append]
      rw [List.getLast?_eq_some_getLast hq] at hl ⊢
      exact hl
    rw [join, if_neg ha', join.eq_def p q, if_neg ha]
    split
    · rw [join_of_no_separator h (by simp [hq]) (last p), List.append_assoc]
    · have last' := last (p ++ ['/'])
      rw [List.append_assoc, List.singleton_append] at last'
      rw [join_of_no_separator h (by simp) last', List.append_assoc]
      rfl

/-- The text of names, joined onto a path, is as good as the names joined one by one. -/
theorem join_ofComponents (p : PathText) {way : List Name} (h : ∀ n ∈ way, IsName n) (hne : way ≠ []) :
    join p (ofComponents (way.map .name)) = joinAll p way := by
  induction way using List.reverseRecOn with
  | nil => exact absurd rfl hne
  | append_singleton way n ih =>
    have hn : IsName n := h n (List.mem_append_right _ List.mem_cons_self)
    rw [List.map_append, List.map_singleton, ofComponents_snoc, joinAll_append, joinAll_cons, joinAll_nil]
    rcases List.eq_nil_or_concat' way with rfl | ⟨front, m, rfl⟩
    · exact congrArg (join p) (join_of_separator hn.no_separator (.inl rfl))
    · have names : ∀ k ∈ front ++ [m], IsName k := fun k hk => h k (List.mem_append_left _ hk)
      have hm : IsName m := names m (List.mem_append_right _ List.mem_cons_self)
      rw [← ih names (List.concat_ne_nil m front), List.map_append, List.map_singleton, ofComponents_snoc]
      exact join_join p (join_ne_nil _ hm.ne_nil hm.no_separator)
        (getLast?_join _ hm.ne_nil hm.no_separator) hn.no_separator

theorem ofComponents_ne_nil {cs : List Component} (h : Normal cs) (hne : cs ≠ []) :
    ofComponents cs ≠ [] := by
  cases h with
  | nil => exact absurd rfl hne
  | root => simp [ofComponents, Component.text, join, isAbsolute]
  | here => simp [ofComponents, Component.text, join, isAbsolute]
  | snoc _ hc =>
    rw [ofComponents_snoc]
    exact join_ne_nil _ hc.text_ne_nil hc.no_separator

/-- A path written from components has just these. -/
theorem components_ofComponents {cs : List Component} (h : Normal cs) :
    components (ofComponents cs) = cs := by
  induction h with
  | nil => rfl
  | root => rfl
  | here => rfl
  | @snoc cs c hcs hc ih =>
    rw [ofComponents_snoc]
    by_cases hne : cs = []
    · subst hne
      rw [ofComponents_nil, join_of_separator hc.no_separator (.inl rfl), List.nil_append,
        components_eq, lead, isAbsolute_of_no_separator hc.no_separator,
        segments_of_no_separator hc.no_separator]
      simp [hc.text_ne_here, hc.ofSegment?_text]
    · rw [components_join (ofComponents_ne_nil hcs hne) hc.no_separator hc.ofSegment?_text, ih]

theorem finalName?_ofComponents {cs : List Component} {n : Name} (h : Normal (cs ++ [.name n])) :
    finalName? (ofComponents (cs ++ [.name n])) = some n := by
  rw [finalName?, components_ofComponents h, List.getLast?_concat]

theorem Normal.of_snoc {cs : List Component} {c : Component} (h : Normal (cs ++ [c])) :
    Normal cs ∧ (cs ≠ [] → c.Inner) := by
  generalize hl : cs ++ [c] = l at h
  cases h with
  | nil => simp at hl
  | root =>
    obtain ⟨rfl, _⟩ := List.append_inj' (hl.trans (List.nil_append _).symm) rfl
    exact ⟨.nil, fun hne => absurd rfl hne⟩
  | here =>
    obtain ⟨rfl, _⟩ := List.append_inj' (hl.trans (List.nil_append _).symm) rfl
    exact ⟨.nil, fun hne => absurd rfl hne⟩
  | snoc hcs hc =>
    obtain ⟨rfl, hcc⟩ := List.append_inj' hl rfl
    cases hcc
    exact ⟨hcs, fun _ => hc⟩

/-! ## Parents -/

/-- What a text starts with and the segments after it give back the text. -/
theorem anchor_text (p : PathText) : (anchor p).1 ++ joinSegments (anchor p).2 = p := by
  unfold anchor
  split
  · next rest => exact congrArg _ (joinSegments_segments rest)
  · split
    · next rest heq =>
      rw [← joinSegments_segments p, heq]
      cases rest with
      | nil => rfl
      | cons r rest => simp [joinSegments, List.intercalate_cons_cons]
    · exact joinSegments_segments p

theorem join_cons_separator (p : PathText) {n : Name} (h : '/' ∉ n) :
    join ('/' :: p) n = '/' :: join p n := by
  by_cases hp : p = []
  · subst hp
    rw [join_of_separator h (.inr rfl), join_of_separator h (.inl rfl)]
    rfl
  · have hl : ('/' :: p).getLast? = p.getLast? := by
      rw [List.getLast?_cons, List.getLast?_eq_some_getLast hp]
      rfl
    by_cases hs : p.getLast? = some '/'
    · rw [join_of_separator h (.inr (hl.trans hs)), join_of_separator h (.inr hs)]
      rfl
    · rw [join_of_no_separator h (by simp) (hl ▸ hs), join_of_no_separator h hp hs]
      rfl

theorem anchor_of_relative {p : PathText} (h : isAbsolute p = false) :
    anchor p = match segments p with
      | ['.'] :: rest => (['.'], [] :: rest)
      | ss => ([], ss) := by
  unfold anchor
  split
  · exact absurd h (by simp [isAbsolute])
  · rfl

/-- A join adds a segment to those after what the text starts with. -/
theorem anchor_join {p : PathText} {n : Name} (h : '/' ∉ n) (hne : n ≠ ['.']) :
    ∃ front, anchor (join p n) = ((anchor p).1, front ++ [n]) ∧
      ((anchor p).2 = front ∨ (anchor p).2 = front ++ [[]]) := by
  cases ha : isAbsolute p with
  | true =>
    obtain ⟨q, rfl⟩ : ∃ q, p = '/' :: q := by
      unfold isAbsolute at ha
      split at ha
      · exact ⟨_, rfl⟩
      · cases ha
    obtain ⟨front, hj, hs⟩ := segments_join q h
    refine ⟨front, ?_, hs⟩
    rw [join_cons_separator q h]
    show (['/'], segments (join q n)) = _
    rw [hj]
    rfl
  | false =>
    obtain ⟨front, hj, hs⟩ := segments_join p h
    have hja : isAbsolute (join p n) = false := by
      by_cases hp : p = []
      · rw [hp, join_of_separator h (.inl rfl), List.nil_append, isAbsolute_of_no_separator h]
      · rw [isAbsolute_join hp h, ha]
    rw [anchor_of_relative hja, anchor_of_relative ha, hj]
    -- a leading `.` segment is told apart from the others
    match front with
    | [] =>
      have hn : ([] ++ [n] : List (List Char)) = [n] := rfl
      rw [hn]
      refine ⟨[], ?_, ?_⟩
      · rcases hs with hs | hs
        · exact absurd hs (segments_ne_nil p)
        · rw [hs]
          split
          · next heq => exact absurd (List.cons.inj heq).1 hne
          · rfl
      · rcases hs with hs | hs
        · exact absurd hs (segments_ne_nil p)
        · rw [hs]
          exact .inr rfl
    | s :: front =>
      by_cases hdot : s = ['.']
      · subst hdot
        refine ⟨[] :: front, ?_, ?_⟩ <;> rcases hs with hs | hs <;> rw [hs] <;> simp
      · refine ⟨s :: front, ?_, ?_⟩
        · rcases hs with hs | hs <;> rw [hs] <;> simp [hdot]
        · rcases hs with hs | hs <;> rw [hs] <;> simp [hdot]

theorem dropDeadEnd_concat {ss : List (List Char)} {segment : List Char} (h : isDead segment = false) :
    dropDeadEnd (ss ++ [segment]) = ss ++ [segment] := by
  rw [dropDeadEnd, List.reverse_concat, List.dropWhile_cons_of_neg (by simp [h]),
    List.reverse_cons, List.reverse_reverse]

theorem dropDeadEnd_concat_nil (ss : List (List Char)) :
    dropDeadEnd (ss ++ [[]]) = dropDeadEnd ss := by
  rw [dropDeadEnd, List.reverse_concat, List.dropWhile_cons_of_pos (by simp [isDead])]
  rfl

theorem isDead_eq_false {segment : List Char} (h : segment ≠ []) (hne : segment ≠ ['.']) :
    isDead segment = false := by
  simp [isDead, h, hne]

/-- The parent of a path onto which a name was joined is that path, less what means nothing at its
end. -/
theorem parent?_join (p : PathText) {n : Name} (h : '/' ∉ n) (hn : n ≠ []) (hne : n ≠ ['.']) :
    parent? (join p n) = some (trimEnd p) := by
  obtain ⟨front, hj, hs⟩ := anchor_join (p := p) h hne
  have live : dropDeadEnd (front ++ [n]) = front ++ [n] :=
    dropDeadEnd_concat (isDead_eq_false hn hne)
  have trimmed : dropDeadEnd (anchor p).2 = dropDeadEnd front := by
    rcases hs with hs | hs
    · rw [hs]
    · rw [hs, dropDeadEnd_concat_nil]
  unfold parent? trimEnd
  rw [hj]
  simp only [live, trimmed]
  split
  · next heq => exact absurd heq (by simp)
  · rw [List.dropLast_concat]

theorem trimEnd_join (p : PathText) {n : Name} (h : '/' ∉ n) (hn : n ≠ []) (hne : n ≠ ['.']) :
    trimEnd (join p n) = join p n := by
  obtain ⟨front, hj, _⟩ := anchor_join (p := p) h hne
  have text := anchor_text (join p n)
  rw [hj] at text
  unfold trimEnd
  rw [hj]
  simp only [dropDeadEnd_concat (isDead_eq_false hn hne)]
  exact text

theorem trimEnd_ofComponents {cs : List Component} (h : Normal cs) :
    trimEnd (ofComponents cs) = ofComponents cs := by
  cases h with
  | nil => rfl
  | root => rfl
  | here => rfl
  | snoc _ hc =>
    rw [ofComponents_snoc]
    exact trimEnd_join _ hc.no_separator hc.text_ne_nil hc.text_ne_here

/-- The parent of a path written from components is written without the last one. -/
theorem parent?_ofComponents {cs : List Component} {c : Component} (h : Normal cs) (hc : c.Inner) :
    parent? (ofComponents (cs ++ [c])) = some (ofComponents cs) := by
  rw [ofComponents_snoc, parent?_join _ hc.no_separator hc.text_ne_nil hc.text_ne_here,
    trimEnd_ofComponents h]

theorem length_lt_length_join (p : PathText) {n : Name} (h : '/' ∉ n) (hn : n ≠ []) :
    p.length < (join p n).length := by
  have positive : 0 < n.length := List.length_pos_iff.2 hn
  by_cases hs : p = [] ∨ p.getLast? = some '/'
  · rw [join_of_separator h hs, List.length_append]
    omega
  · rw [not_or] at hs
    rw [join_of_no_separator h hs.1 hs.2, List.length_append, List.length_cons]
    omega

theorem climb_succ_of_parent {p dir : PathText} (h : parent? p = some dir) (hne : dir ≠ []) (n : Nat) :
    ancestors.climb (n + 1) p = p :: ancestors.climb n dir := by
  rw [ancestors.climb, h]
  cases dir with
  | nil => exact absurd rfl hne
  | cons a dir => rfl

theorem climb_succ_of_bare {p : PathText} (h : parent? p = some []) (n : Nat) :
    ancestors.climb (n + 1) p = [p] := by
  rw [ancestors.climb, h]

/-- Any bound that reaches the length of a path finds all its parents. -/
theorem climb_ofComponents {cs : List Component} (h : Normal cs) :
    ∀ n, (ofComponents cs).length ≤ n →
      ancestors.climb n (ofComponents cs) = ancestors (ofComponents cs) := by
  induction h with
  | nil =>
    intro n _
    cases n <;> rfl
  | root =>
    intro n hn
    cases n with
    | zero => simp [ofComponents, Component.text, join, isAbsolute] at hn
    | succ n => rfl
  | here =>
    intro n hn
    cases n with
    | zero => simp [ofComponents, Component.text, join, isAbsolute] at hn
    | succ n => rfl
  | @snoc cs c hcs hc ih =>
    have longer : (ofComponents cs).length < (ofComponents (cs ++ [c])).length := by
      rw [ofComponents_snoc]
      exact length_lt_length_join _ hc.no_separator hc.text_ne_nil
    -- both sides unroll to the same thing, since the bound of either is large enough for the rest
    have unrolled : ∀ n, (ofComponents (cs ++ [c])).length ≤ n + 1 →
        ancestors.climb (n + 1) (ofComponents (cs ++ [c])) =
          if ofComponents cs = [] then [ofComponents (cs ++ [c])]
          else ofComponents (cs ++ [c]) :: ancestors (ofComponents cs) := by
      intro n hn
      split
      · next hq =>
        exact climb_succ_of_bare (by rw [parent?_ofComponents hcs hc, hq]) n
      · next hq =>
        rw [climb_succ_of_parent (parent?_ofComponents hcs hc) hq, ih n (by omega)]
    intro n hn
    obtain ⟨m, rfl⟩ : ∃ m, n = m + 1 := ⟨n - 1, by omega⟩
    obtain ⟨l, hl⟩ : ∃ l, (ofComponents (cs ++ [c])).length = l + 1 :=
      ⟨(ofComponents (cs ++ [c])).length - 1, by omega⟩
    rw [unrolled m hn]
    show _ = ancestors.climb (ofComponents (cs ++ [c])).length (ofComponents (cs ++ [c]))
    rw [hl, unrolled l (by omega)]

/-- The parents of a path written from components. -/
theorem ancestors_ofComponents {cs : List Component} {c : Component} (h : Normal cs)
    (hc : c.Inner) : ancestors (ofComponents (cs ++ [c])) =
      ofComponents (cs ++ [c]) :: if cs = [] then [] else ancestors (ofComponents cs) := by
  have longer : (ofComponents cs).length < (ofComponents (cs ++ [c])).length := by
    rw [ofComponents_snoc]
    exact length_lt_length_join _ hc.no_separator hc.text_ne_nil
  obtain ⟨l, hl⟩ : ∃ l, (ofComponents (cs ++ [c])).length = l + 1 :=
    ⟨(ofComponents (cs ++ [c])).length - 1, by omega⟩
  rw [ancestors, hl]
  by_cases hne : cs = []
  · subst hne
    exact climb_succ_of_bare (parent?_ofComponents h hc) l
  · rw [if_neg hne,
      climb_succ_of_parent (parent?_ofComponents h hc) (ofComponents_ne_nil h hne),
      climb_ofComponents h l (by omega)]

/-! ## Steps -/

theorem isAbsolute_ofComponents {cs : List Component} (h : Normal cs) :
    isAbsolute (ofComponents cs) = (cs.head? == some .root) := by
  induction h with
  | nil => rfl
  | root => rfl
  | here => rfl
  | @snoc cs c hcs hc ih =>
    rw [ofComponents_snoc]
    by_cases hne : cs = []
    · subst hne
      rw [ofComponents_nil, join_of_separator hc.no_separator (.inl rfl), List.nil_append,
        isAbsolute_of_no_separator hc.no_separator]
      cases hc <;> rfl
    · rw [isAbsolute_join (ofComponents_ne_nil hcs hne) hc.no_separator, ih,
        List.head?_append, List.head?_eq_some_head hne, Option.some_or]

theorem isAbsolute_eq (p : PathText) : isAbsolute p = ((components p).head? == some .root) := by
  cases ha : isAbsolute p with
  | true =>
    rw [components_eq, lead, if_pos ha]
    rfl
  | false =>
    rw [components_eq, lead, ha, if_neg Bool.false_ne_true]
    symm
    rw [beq_eq_false_iff_ne]
    intro h
    have root : Component.root ∈ (if (segments p).head? = some ['.'] then [Component.here] else []) ++
        (segments p).filterMap Component.ofSegment? := List.mem_of_head? h
    rcases List.mem_append.1 root with hm | hm
    · split at hm <;> simp at hm
    · obtain ⟨segment, hs, hc⟩ := List.mem_filterMap.1 hm
      cases Component.Inner.of_ofSegment? (no_separator_of_mem_segments hs) hc

theorem isAbsolute_ofComponents_append {cs : List Component} (h : Normal cs) {way : List Name}
    (hw : ∀ n ∈ way, IsName n) :
    isAbsolute (ofComponents (cs ++ way.map .name)) = isAbsolute (ofComponents cs) := by
  rw [isAbsolute_ofComponents (h.append_names hw), isAbsolute_ofComponents h]
  cases cs with
  | nil => cases way <;> rfl
  | cons c cs => rfl

/-- What stands before a final name is in normal form. -/
theorem normal_of_components {p : PathText} {cs : List Component} {n : Name}
    (h : components p = cs ++ [.name n]) : Normal cs ∧ IsName n := by
  have normal : Normal (cs ++ [.name n]) := h ▸ normal_components p
  exact ⟨normal.of_snoc.1, isName_of_mem_components (h ▸ List.mem_append_right cs List.mem_cons_self)⟩

/-- It also decides whether the path is absolute. -/
theorem isAbsolute_of_components {p : PathText} {cs : List Component} {n : Name}
    (h : components p = cs ++ [.name n]) : isAbsolute p = isAbsolute (ofComponents cs) := by
  obtain ⟨normal, name⟩ := normal_of_components h
  have front : isAbsolute (ofComponents (cs ++ [n].map .name)) = isAbsolute (ofComponents cs) :=
    isAbsolute_ofComponents_append normal fun m hm => List.mem_singleton.1 hm ▸ name
  rw [isAbsolute_eq, h, ← front]
  exact (isAbsolute_ofComponents (.snoc normal (.name name))).symm

/-- A lookup takes a step for every component but the root. -/
theorem ofText_ofComponents {cs : List Component} (h : Normal cs) :
    Step.ofText (ofComponents cs) = cs.filterMap Component.step? := by
  induction h with
  | nil => rfl
  | root => rfl
  | here => rfl
  | @snoc cs c hcs hc ih =>
    obtain ⟨step, hstep⟩ : ∃ step, c.step? = some step := by cases hc <;> exact ⟨_, rfl⟩
    rw [ofComponents_snoc, Step.ofText_join _ hc.no_separator (hc.step_eq.trans hstep), ih,
      List.filterMap_append, List.filterMap_cons, hstep]
    rfl

end PathText

end LuaTree
