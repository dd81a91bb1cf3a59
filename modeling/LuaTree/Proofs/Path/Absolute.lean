import LuaTree.Path.Absolute
import LuaTree.Proofs.Path.Spelling

/-!
# Absolute texts in normal form

An absolute text is a root, one separator or two, with components behind it, and a separator at the end
where the path had one (`absoluteText`). Made absolute, every path is of this form
(`absolute?_of_isAbsolute`, `absolute?_of_relative`), and a text of this form is left as it is from wherever
it is seen (`absolute?_absoluteText`).
-/

namespace LuaTree.PathText

variable {root p : PathText} {cs : List Component}

/-- Components written behind a text. -/
def spell (root : PathText) (cs : List Component) : PathText := cs.foldl (fun q c => join q c.text) root

/-- Components written behind a root, and a separator behind them if there is to be one. -/
def absoluteText (root : PathText) (cs : List Component) (slash : Bool) : PathText :=
  if slash then withTrailingSeparator (spell root cs) else spell root cs

/-- What an absolute text can start with. -/
def IsRoot (root : PathText) : Prop := root = ['/'] ∨ root = ['/', '/']

theorem isRoot_rootText (p : PathText) : IsRoot (rootText p) := by
  unfold rootText
  split
  · exact .inl rfl
  · exact .inr rfl
  · exact .inl rfl

theorem IsRoot.getLast? (h : IsRoot root) : root.getLast? = some '/' := by
  rcases h with rfl | rfl <;> rfl

theorem IsRoot.ne_nil (h : IsRoot root) : root ≠ [] := by
  rcases h with rfl | rfl <;> simp

theorem IsRoot.components (h : IsRoot root) : components root = [.root] := by
  rcases h with rfl | rfl <;> rfl

theorem head?_of_isAbsolute (h : isAbsolute p = true) : p.head? = some '/' := by
  unfold isAbsolute at h
  split at h
  · rfl
  · cases h

/-! ## Components behind a root -/

theorem spell_append (root : PathText) (cs ds : List Component) :
    spell root (cs ++ ds) = spell (spell root cs) ds := List.foldl_append

theorem spell_concat (root : PathText) (cs : List Component) (c : Component) :
    spell root (cs ++ [c]) = join (spell root cs) c.text := spell_append root cs [c]

theorem spell_ne_nil (hr : root ≠ []) (hc : ∀ c ∈ cs, c.Inner) : spell root cs ≠ [] := by
  rcases List.eq_nil_or_concat' cs with rfl | ⟨cs, c, rfl⟩
  · exact hr
  · have inner := hc c (List.mem_append_right _ List.mem_cons_self)
    rw [spell_concat]
    exact join_ne_nil _ inner.text_ne_nil inner.no_separator

theorem components_spell (hr : root ≠ []) (hc : ∀ c ∈ cs, c.Inner) :
    components (spell root cs) = components root ++ cs := by
  induction cs using List.reverseRecOn with
  | nil => exact (List.append_nil _).symm
  | append_singleton cs c ih =>
    have front : ∀ d ∈ cs, d.Inner := fun d hd => hc d (List.mem_append_left _ hd)
    have inner := hc c (List.mem_append_right _ List.mem_cons_self)
    rw [spell_concat, components_join (spell_ne_nil hr front) inner.no_separator inner.ofSegment?_text,
      ih front, List.append_assoc]

theorem join_isPrefix (p : PathText) {n : Name} (h : '/' ∉ n) : p <+: join p n := by
  by_cases hs : p = [] ∨ p.getLast? = some '/'
  · exact ⟨n, (join_of_separator h hs).symm⟩
  · rw [not_or] at hs
    exact ⟨'/' :: n, (join_of_no_separator h hs.1 hs.2).symm⟩

/-- Behind a separator, components are written as they are. -/
theorem exists_spell_eq_append (hr : root = [] ∨ root.getLast? = some '/') {c : Component}
    (hc : ∀ d ∈ c :: cs, d.Inner) : ∃ rest, spell root (c :: cs) = root ++ (c.text ++ rest) := by
  induction cs using List.reverseRecOn with
  | nil =>
    refine ⟨[], ?_⟩
    rw [List.append_nil]
    exact join_of_separator (hc c List.mem_cons_self).no_separator hr
  | append_singleton cs d ih =>
    rw [← List.cons_append] at hc ⊢
    obtain ⟨rest, hs⟩ := ih fun e he => hc e (List.mem_append_left _ he)
    obtain ⟨more, hm⟩ := join_isPrefix (spell root (c :: cs))
      (hc d (List.mem_append_right _ List.mem_cons_self)).no_separator
    exact ⟨rest ++ more, by rw [spell_concat, ← hm, hs, List.append_assoc, List.append_assoc]⟩

/-- Only a root with nothing behind it ends in a separator. -/
theorem getLast?_spell (hc : ∀ c ∈ cs, c.Inner) (hne : cs ≠ []) :
    (spell root cs).getLast? ≠ some '/' := by
  obtain ⟨cs, c, rfl⟩ := (List.eq_nil_or_concat' cs).resolve_left hne
  have inner := hc c (List.mem_append_right _ List.mem_cons_self)
  rw [spell_concat]
  exact getLast?_join _ inner.text_ne_nil inner.no_separator

/-! ## A separator at the end -/

/-- A separator is put at the end where there is none yet. -/
theorem withTrailingSeparator_eq (hp : p ≠ []) : withTrailingSeparator p =
    if p.getLast? = some '/' then p else p ++ ['/'] := by
  unfold withTrailingSeparator
  split
  · next hl => rw [join_of_separator List.not_mem_nil (.inr hl), List.append_nil]
  · next hl => exact join_of_no_separator List.not_mem_nil hp hl

theorem getLast?_withTrailingSeparator (hp : p ≠ []) : (withTrailingSeparator p).getLast? = some '/' := by
  rw [withTrailingSeparator_eq hp]
  split
  · next hl => exact hl
  · exact List.getLast?_concat

theorem components_withTrailingSeparator (hp : p ≠ []) :
    components (withTrailingSeparator p) = components p := by
  rw [withTrailingSeparator_eq hp]
  split
  · rfl
  · exact components_trailing_separator hp

/-! ## Making a path absolute -/

theorem innerComponents_eq (p : PathText) :
    innerComponents p = (segments p).filterMap Component.ofSegment? := by
  have inner : ∀ c ∈ (segments p).filterMap Component.ofSegment?, decide (c ≠ .root) && c ≠ .here := by
    intro c hc
    obtain ⟨segment, hs, hc⟩ := List.mem_filterMap.1 hc
    cases Component.Inner.of_ofSegment? (no_separator_of_mem_segments hs) hc with
    | up | name _ => simp
  have front : (lead p).filter (fun c => c ≠ .root && c ≠ .here) = [] := by
    unfold lead
    repeat' split
    all_goals rfl
  rw [innerComponents, components_eq, List.filter_append, front, List.filter_eq_self.2 inner,
    List.nil_append]

theorem inner_of_mem_innerComponents {c : Component} (h : c ∈ innerComponents p) : c.Inner := by
  rw [innerComponents_eq] at h
  obtain ⟨segment, hs, hc⟩ := List.mem_filterMap.1 h
  exact .of_ofSegment? (no_separator_of_mem_segments hs) hc

/-- A path that starts at the root keeps its components, from wherever it is seen. -/
theorem absolute?_of_isAbsolute (ha : isAbsolute p = true) (here : PathText) : absolute? here p =
    some (absoluteText (rootText p) (innerComponents p) (p.getLast? = some '/')) := by
  have hne : p ≠ [] := by
    rintro rfl
    cases ha
  rw [absolute?, if_neg hne, ha]
  simp [absoluteText, spell]

/-- A path that does not gets those of the place it is seen from in front. -/
theorem absolute?_of_relative (ha : isAbsolute p = false) (hp : p ≠ []) (ds : List Component) :
    absolute? (spell ['/'] ds) p =
      some (absoluteText ['/'] (ds ++ innerComponents p) (p.getLast? = some '/')) := by
  rw [absolute?, if_neg hp, ha, absoluteText, spell_append]
  simp [spell]

theorem absoluteText_cases (root : PathText) (cs : List Component) (slash : Bool) (hr : IsRoot root)
    (hc : ∀ c ∈ cs, c.Inner) : absoluteText root cs slash = spell root cs ∧ (slash = true → cs = []) ∨
      absoluteText root cs slash = spell root cs ++ ['/'] ∧ slash = true ∧ cs ≠ [] := by
  unfold absoluteText
  cases slash with
  | false => exact .inl ⟨rfl, fun h => by cases h⟩
  | true =>
    rw [if_pos rfl, withTrailingSeparator_eq (spell_ne_nil hr.ne_nil hc)]
    by_cases hne : cs = []
    · subst hne
      rw [if_pos (show (spell root []).getLast? = some '/' from hr.getLast?)]
      exact .inl ⟨rfl, fun _ => rfl⟩
    · rw [if_neg (getLast?_spell hc hne)]
      exact .inr ⟨rfl, rfl, hne⟩

theorem not_mem_absoluteText {x : Char} (hr : x ∉ root) (hs : x ≠ '/') (hc : ∀ c ∈ cs, x ∉ c.text)
    (slash : Bool) : x ∉ absoluteText root cs slash := by
  have bare : x ∉ spell root cs := by
    induction cs using List.reverseRecOn with
    | nil => exact hr
    | append_singleton cs c ih =>
      rw [spell_concat]
      exact not_mem_join (ih fun d hd => hc d (List.mem_append_left _ hd)) hs
        (hc c (List.mem_append_right _ List.mem_cons_self))
  unfold absoluteText
  split
  · exact not_mem_join bare hs List.not_mem_nil
  · exact bare

theorem components_absoluteText (hr : IsRoot root) (hc : ∀ c ∈ cs, c.Inner) (slash : Bool) :
    components (absoluteText root cs slash) = .root :: cs := by
  have whole : components (spell root cs) = .root :: cs := by
    rw [components_spell hr.ne_nil hc, hr.components]
    rfl
  unfold absoluteText
  split
  · rw [components_withTrailingSeparator (spell_ne_nil hr.ne_nil hc), whole]
  · exact whole

theorem isAbsolute_absoluteText (hr : IsRoot root) (hc : ∀ c ∈ cs, c.Inner) (slash : Bool) :
    isAbsolute (absoluteText root cs slash) = true := by
  rw [isAbsolute_eq, components_absoluteText hr hc slash]
  rfl

/-- What a text starts with is all of its root, if no separator follows. -/
theorem rootText_append (hr : IsRoot root) {rest : PathText} (hh : ∀ c ∈ rest.head?, c ≠ '/') :
    rootText (root ++ rest) = root := by
  cases rest with
  | nil => rcases hr with rfl | rfl <;> rfl
  | cons c rest =>
    have hc : c ≠ '/' := hh c rfl
    rcases hr with rfl | rfl
    · show rootText ('/' :: c :: rest) = _
      unfold rootText
      split
      · next heq => exact absurd (List.cons.inj (List.cons.inj heq).2).1 hc
      · next heq => exact absurd (List.cons.inj (List.cons.inj heq).2).1 hc
      · rfl
    · show rootText ('/' :: '/' :: c :: rest) = _
      unfold rootText
      split
      · next heq => exact absurd (List.cons.inj (List.cons.inj (List.cons.inj heq).2).2).1 hc
      · rfl
      · next _ h => exact absurd rfl (h _)

/-- Behind the root of a text in normal form no separator follows. -/
theorem exists_absoluteText_eq_append (hr : IsRoot root) (hc : ∀ c ∈ cs, c.Inner) (slash : Bool) :
    ∃ rest, absoluteText root cs slash = root ++ rest ∧ ∀ c ∈ rest.head?, c ≠ '/' := by
  cases cs with
  | nil =>
    refine ⟨[], ?_, by simp⟩
    rcases absoluteText_cases root [] slash hr hc with ⟨h, _⟩ | ⟨_, _, h⟩
    · rw [h, List.append_nil]
      rfl
    · exact absurd rfl h
  | cons c cs =>
    obtain ⟨rest, hs⟩ := exists_spell_eq_append (.inr hr.getLast?) hc
    have inner := hc c List.mem_cons_self
    have first : ∀ more, ∀ d ∈ (c.text ++ more).head?, d ≠ '/' := by
      intro more d hd
      obtain ⟨x, xs, hx⟩ := List.exists_cons_of_ne_nil inner.text_ne_nil
      rw [hx] at hd
      cases hd
      rintro rfl
      exact inner.no_separator (hx ▸ List.mem_cons_self)
    rcases absoluteText_cases root (c :: cs) slash hr hc with ⟨h, _⟩ | ⟨h, _⟩
    · exact ⟨c.text ++ rest, by rw [h, hs], first rest⟩
    · exact ⟨c.text ++ (rest ++ ['/']), by rw [h, hs]; simp, first _⟩

/-- A text in normal form starts with its root. -/
theorem rootText_absoluteText (hr : IsRoot root) (hc : ∀ c ∈ cs, c.Inner) (slash : Bool) :
    rootText (absoluteText root cs slash) = root := by
  obtain ⟨rest, text, first⟩ := exists_absoluteText_eq_append hr hc slash
  rw [text]
  exact rootText_append hr first

/-- A text in normal form is absolute, and stays as it is. -/
theorem absolute?_absoluteText (hr : IsRoot root) (hc : ∀ c ∈ cs, c.Inner) (slash : Bool)
    (here : PathText) : absolute? here (absoluteText root cs slash) = some (absoluteText root cs slash) := by
  have whole := components_absoluteText hr hc slash
  have hne : absoluteText root cs slash ≠ [] := by
    intro he
    rw [he] at whole
    cases whole
  have inner : innerComponents (absoluteText root cs slash) = cs := by
    have self : cs.filter (fun c => c ≠ .root && c ≠ .here) = cs := by
      refine List.filter_eq_self.2 fun c hm => ?_
      cases hc c hm with
      | up | name _ => simp
    rw [innerComponents, whole, ← self]
    simp
  rw [absolute?, if_neg hne, isAbsolute_absoluteText hr hc slash, if_pos rfl,
    rootText_absoluteText hr hc slash, inner]
  show some (if _ then withTrailingSeparator (spell root cs) else spell root cs) = _
  congr 1
  rcases absoluteText_cases root cs slash hr hc with ⟨h, hs⟩ | ⟨h, rfl, _⟩
  · -- what ends in a separator is a root alone
    rw [h]
    split
    · next hl => rw [withTrailingSeparator_eq (spell_ne_nil hr.ne_nil hc), if_pos hl]
    · rfl
  · rw [if_pos (h ▸ List.getLast?_concat)]
    rfl

end LuaTree.PathText
