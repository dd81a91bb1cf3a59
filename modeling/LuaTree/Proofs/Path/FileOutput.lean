import LuaTree.Path.Extension
import LuaTree.Proofs.Path.Ending
import LuaTree.Proofs.Path.Spelling
import Mathlib.Data.List.DropRight

/-!
# The output of a single file, by its text

The output of a file goes by the *stem* of its name: the name up to its last dot, if there is one behind
the first character. `fileOutput` finds the old extension on the name and cuts it off the end of the text,
where separators and `.` segments may follow the name (`Trailing`), so what it cuts need not be the
extension. `fileOutput_eq` says that the new name is the right one all the same, with one exception: a
name such as `..lua` at the very end of a text becomes `..`, which is no name.
-/

namespace LuaTree.PathText

/-! ## Stems -/

/-- A name up to its last dot, if it has one behind its first character. -/
def stem (n : Name) : Name := if '.' ∈ n.tail then (n.rdropWhile (· ≠ '.')).dropLast else n

theorem no_dot_of_mem_reverse {ext : Name} (he : '.' ∉ ext) :
    ∀ c ∈ ext.reverse, decide (c ≠ '.') = true := by
  intro c hc
  refine decide_eq_true ?_
  rintro rfl
  exact he (List.mem_reverse.1 hc)

theorem stem_append {st ext : Name} (hs : st ≠ []) (he : '.' ∉ ext) : stem (st ++ '.' :: ext) = st := by
  have dotted : '.' ∈ (st ++ '.' :: ext).tail := by
    rw [List.tail_append_of_ne_nil hs]
    exact List.mem_append_right _ List.mem_cons_self
  have plain := no_dot_of_mem_reverse he
  have cut : (st ++ '.' :: ext).rdropWhile (· ≠ '.') = st ++ ['.'] := by
    rw [List.rdropWhile, List.reverse_append, List.reverse_cons, List.append_assoc,
      List.dropWhile_append_of_pos plain, List.singleton_append, List.dropWhile_cons_of_neg (by decide),
      List.reverse_cons, List.reverse_reverse]
  rw [stem, if_pos dotted, cut, List.dropLast_concat]

theorem stem_of_not_mem {n : Name} (h : '.' ∉ n.tail) : stem n = n := if_neg h

/-- A name is its stem, or its stem with a last dot and an extension. -/
theorem stem_cases (n : Name) :
    (∃ ext, n = stem n ++ '.' :: ext ∧ stem n ≠ [] ∧ '.' ∉ ext) ∨ '.' ∉ n.tail ∧ stem n = n := by
  by_cases h : '.' ∈ n.tail
  · cases n with
    | nil => cases h
    | cons c rest =>
      -- the first dot from the end is the last one
      obtain ⟨ext, front, hr, he⟩ := List.eq_append_cons_of_mem (List.mem_reverse.2 h)
      have text : c :: rest = (c :: front.reverse) ++ '.' :: ext.reverse := by
        have := congrArg List.reverse hr
        rw [List.reverse_reverse, List.reverse_append, List.reverse_cons, List.append_assoc] at this
        exact congrArg (c :: ·) this
      have he : '.' ∉ ext.reverse := fun hm => he (List.mem_reverse.1 hm)
      have hs := stem_append (List.cons_ne_nil c front.reverse) he
      rw [← text] at hs
      exact .inl ⟨ext.reverse, hs ▸ text, hs ▸ List.cons_ne_nil _ _, he⟩
  · exact .inr ⟨h, stem_of_not_mem h⟩

theorem stem_subset (n : Name) : stem n ⊆ n := by
  rcases stem_cases n with ⟨ext, hn, _⟩ | ⟨_, hs⟩
  · conv_rhs => rw [hn]
    exact List.subset_append_left _ _
  · rw [hs]
    exact fun _ hc => hc

/-- A name with an extension is its stem, a dot and the extension. -/
theorem splitExtension_eq (n : Name) : (∃ ext, n = (splitExtension n).1 ++ '.' :: ext ∧
    (splitExtension n).1 ≠ [] ∧ (splitExtension n).2 = some ext) ∨
      (splitExtension n).1 = n ∧ (splitExtension n).2 = none := by
  have text : n.reverse.takeWhile (· ≠ '.') ++ n.reverse.dropWhile (· ≠ '.') = n.reverse :=
    List.takeWhile_append_dropWhile
  unfold splitExtension
  rw [List.span_eq_takeWhile_dropWhile]
  split
  · exact .inr ⟨rfl, rfl⟩
  · match hd : n.reverse.dropWhile (· ≠ '.') with
    | [] => exact .inr ⟨rfl, rfl⟩
    | [_] => exact .inr ⟨rfl, rfl⟩
    | c :: b :: st =>
      have dot : c = '.' := by
        have := List.head?_dropWhile_not (· ≠ '.') n.reverse
        rw [hd] at this
        simpa using this
      refine .inl ⟨(n.reverse.takeWhile (· ≠ '.')).reverse, ?_, ?_, rfl⟩
      · rw [hd, dot] at text
        have := congrArg List.reverse text
        rw [List.reverse_reverse] at this
        conv_lhs => rw [← this]
        simp
      · simp

/-- A name is split at its last dot. -/
theorem splitExtension_append {st ext : Name} (hs : st ≠ []) (he : '.' ∉ ext)
    (hup : st ++ '.' :: ext ≠ ['.', '.']) : splitExtension (st ++ '.' :: ext) = (st, some ext) := by
  have plain := no_dot_of_mem_reverse he
  have text : (st ++ '.' :: ext).reverse = ext.reverse ++ '.' :: st.reverse := by simp
  have span : (st ++ '.' :: ext).reverse.span (· ≠ '.') = (ext.reverse, '.' :: st.reverse) := by
    rw [List.span_eq_takeWhile_dropWhile, text, List.takeWhile_append_of_pos plain,
      List.dropWhile_append_of_pos plain, List.takeWhile_cons_of_neg (by decide),
      List.dropWhile_cons_of_neg (by decide), List.append_nil]
  obtain ⟨c, rest, hr⟩ := List.exists_cons_of_ne_nil (mt List.reverse_eq_nil_iff.1 hs)
  rw [splitExtension, if_neg hup, span, hr]
  dsimp only
  rw [List.reverse_reverse, ← hr, List.reverse_reverse]

theorem splitExtension_of_not_mem {n : Name} (h : '.' ∉ n.tail) : splitExtension n = (n, none) := by
  rcases splitExtension_eq n with ⟨ext, hn, hs, _⟩ | ⟨hfst, hsnd⟩
  · generalize (splitExtension n).1 = st at hn hs
    subst hn
    rw [List.tail_append_of_ne_nil hs] at h
    exact absurd (List.mem_append_right _ List.mem_cons_self) h
  · exact Prod.ext hfst hsnd

/-- But for `..`, a name is split into its stem and the rest. -/
theorem splitExtension_fst {n : Name} (hup : n ≠ ['.', '.']) : (splitExtension n).1 = stem n := by
  rcases stem_cases n with ⟨ext, hn, hs, he⟩ | ⟨h, hs⟩
  · generalize stem n = st at hn hs
    subst hn
    rw [splitExtension_append hs he hup]
  · rw [splitExtension_of_not_mem h, hs]

/-! ## Behind the last component -/

/-- A join adds a component, whatever it is added to. -/
theorem components_join_inner (p : PathText) {c : Component} (hc : c.Inner) :
    components (join p c.text) = components p ++ [c] := by
  by_cases hp : p = []
  · subst hp
    have one : components (ofComponents [c]) = [c] := components_ofComponents (.snoc .nil hc)
    exact one
  · exact components_join hp hc.no_separator hc.ofSegment?_text

/-- What can follow the last component of a text: separators and `.` segments. -/
inductive Trailing : List Char → Prop
  | nil : Trailing []
  | snoc {t segment} : Trailing t → isDead segment → Trailing (t ++ '/' :: segment)

theorem isDead_iff {segment : List Char} : isDead segment ↔ segment = [] ∨ segment = ['.'] := by
  simp [isDead]

theorem no_separator_of_isDead {segment : List Char} (h : isDead segment) : '/' ∉ segment := by
  rcases isDead_iff.1 h with rfl | rfl <;> decide

theorem ofSegment?_eq_none {segment : List Char} :
    Component.ofSegment? segment = none ↔ isDead segment := by
  rw [isDead_iff]
  unfold Component.ofSegment?
  split
  · next h => simp [h]
  · next h => split <;> simp [h]

theorem Trailing.front {x y : List Char} (h : Trailing (x ++ y)) : Trailing x := by
  generalize hz : x ++ y = z at h
  induction h generalizing y with
  | nil =>
    rw [(List.append_eq_nil_iff.1 hz).1]
    exact .nil
  | @snoc t segment ht dead ih =>
    rcases List.append_eq_append_iff.1 hz with ⟨more, rfl, _⟩ | ⟨more, rfl, hs⟩
    · exact ih rfl
    · -- the text ends within the last segment
      cases more with
      | nil => rwa [List.append_nil]
      | cons c more =>
        obtain ⟨rfl, rfl⟩ := List.cons.inj hs
        refine .snoc ht (isDead_iff.2 ?_)
        rcases isDead_iff.1 dead with hd | hd
        · exact .inl (List.append_eq_nil_iff.1 hd).1
        · rcases List.append_eq_singleton_iff.1 hd with ⟨hm, _⟩ | ⟨hm, _⟩
          · exact .inl hm
          · exact .inr hm

theorem components_append_trailing {p t : PathText} (hp : p ≠ []) (h : Trailing t) :
    components (p ++ t) = components p := by
  induction h with
  | nil => rw [List.append_nil]
  | @snoc t segment _ dead ih =>
    have hne : p ++ t ≠ [] := fun he => hp (List.append_eq_nil_iff.1 he).1
    have gone : [segment].filterMap Component.ofSegment? = [] := by
      rw [List.filterMap_cons, ofSegment?_eq_none.2 dead]
      rfl
    rw [← List.append_assoc, components_append_separator hne,
      segments_of_no_separator (no_separator_of_isDead dead), gone, List.append_nil, ih]

theorem components_of_trailing {front t : PathText} {c : Component}
    (hf : front = [] ∨ front.getLast? = some '/') (hc : c.Inner) (ht : Trailing t) :
    components (front ++ (c.text ++ t)) = components front ++ [c] := by
  have hne := join_ne_nil front hc.text_ne_nil hc.no_separator
  rw [← List.append_assoc, ← join_of_separator hc.no_separator hf, components_append_trailing hne ht,
    components_join_inner front hc]

theorem finalName?_of_trailing {front t : PathText} {n : Name}
    (hf : front = [] ∨ front.getLast? = some '/') (hn : IsName n) (ht : Trailing t) :
    finalName? (front ++ (n ++ t)) = some n := by
  have text : components (front ++ (n ++ t)) = components front ++ [.name n] :=
    components_of_trailing hf (.name hn) ht
  rw [finalName?, text, List.getLast?_concat]

theorem anchor_append_separator {p : PathText} (hp : p ≠ []) {segment : List Char} (h : '/' ∉ segment) :
    anchor (p ++ '/' :: segment) = ((anchor p).1, (anchor p).2 ++ [segment]) := by
  have last : ∀ q, segments (q ++ '/' :: segment) = segments q ++ [segment] := fun q => by
    rw [segments_append_separator, segments_of_no_separator h]
  cases ha : isAbsolute p with
  | true =>
    obtain ⟨rest, rfl⟩ : ∃ rest, p = '/' :: rest := by
      unfold isAbsolute at ha
      split at ha
      · exact ⟨_, rfl⟩
      · cases ha
    exact congrArg (Prod.mk ['/']) (last rest)
  | false =>
    have ha' : isAbsolute (p ++ '/' :: segment) = false := (isAbsolute_append hp _).trans ha
    rw [anchor_of_relative ha, anchor_of_relative ha', last]
    cases hs : segments p with
    | nil => exact absurd hs (segments_ne_nil p)
    | cons first rest =>
      by_cases here : first = ['.']
      · subst here
        rfl
      · simp [here]

theorem dropDeadEnd_concat_dead (ss : List (List Char)) {segment : List Char} (h : isDead segment) :
    dropDeadEnd (ss ++ [segment]) = dropDeadEnd ss := by
  rw [dropDeadEnd, List.reverse_append, List.reverse_singleton, List.singleton_append,
    List.dropWhile_cons_of_pos h, dropDeadEnd]

theorem trimEnd_append_trailing {p t : PathText} (hp : p ≠ []) (h : Trailing t) :
    trimEnd (p ++ t) = trimEnd p := by
  induction h with
  | nil => rw [List.append_nil]
  | @snoc t segment _ dead ih =>
    have hne : p ++ t ≠ [] := fun he => hp (List.append_eq_nil_iff.1 he).1
    rw [← List.append_assoc, trimEnd, anchor_append_separator hne (no_separator_of_isDead dead), ← ih,
      trimEnd]
    dsimp only
    rw [dropDeadEnd_concat_dead _ dead]

/-- A name stands at the end of a text only where nothing follows it. -/
theorem trailing_eq_nil_iff {front t : PathText} {n : Name} (hn : IsName n) (ht : Trailing t) :
    n <:+ front ++ (n ++ t) ↔ t = [] := by
  constructor
  · intro hsuffix
    cases ht with
    | nil => rfl
    | @snoc t segment _ dead =>
      rw [← List.append_assoc, ← List.append_assoc] at hsuffix
      obtain ⟨rest, hr⟩ := hsuffix
      rcases List.append_eq_append_iff.1 hr with ⟨more, _, hm⟩ | ⟨more, _, hm⟩
      · -- the name would hold the separator
        exact absurd (hm ▸ List.mem_append_right more List.mem_cons_self) hn.no_separator
      · -- or it would be a part of a `.` segment
        cases more with
        | nil =>
          rw [List.nil_append] at hm
          exact absurd (hm ▸ List.mem_cons_self) hn.no_separator
        | cons c more =>
          obtain ⟨rfl, rfl⟩ := List.cons.inj hm
          rcases isDead_iff.1 dead with hd | hd
          · exact absurd (List.append_eq_nil_iff.1 hd).2 hn.ne_nil
          · rcases List.append_eq_singleton_iff.1 hd with ⟨_, h⟩ | ⟨_, h⟩
            · exact absurd h hn.ne_here
            · exact absurd h hn.ne_nil
  · rintro rfl
    rw [List.append_nil]
    exact List.suffix_append front n

/-- A text with a final name is what stands before the name, the name, and what can follow it. -/
theorem exists_trailing {p : PathText} {front : List Component} {n : Name}
    (h : components p = front ++ [.name n]) : ∃ base t, p = base ++ (n ++ t) ∧
      (base = [] ∨ base.getLast? = some '/') ∧ components base = front ∧ Trailing t := by
  induction hk : p.length using Nat.strongRecOn generalizing p with
  | ind k ih =>
    obtain ⟨base, last, rfl, hl, hb⟩ := exists_final p
    cases hc : Component.ofSegment? last with
    | none =>
      -- the last segment is no component: the name is in what stands before
      have dead := ofSegment?_eq_none.1 hc
      have gone : [last].filterMap Component.ofSegment? = [] := by
        rw [List.filterMap_cons, hc]
        rfl
      rcases hb with rfl | hb
      · rcases isDead_iff.1 dead with rfl | rfl
        · simp [components, segments, Component.ofSegment?] at h
        · cases front <;> simp [components, segments] at h
      · obtain ⟨p, rfl⟩ := List.getLast?_eq_some_iff.1 hb
        rw [List.append_assoc, List.singleton_append] at h hk ⊢
        by_cases hp : p = []
        · subst hp
          have root : components ('/' :: last) = [.root] := by
            rw [components, segments_of_no_separator hl, gone]
          rw [List.nil_append, root] at h
          cases front <;> simp at h
        · rw [components_append_separator hp, segments_of_no_separator hl, gone, List.append_nil] at h
          obtain ⟨base, t, rfl, hb, hf, ht⟩ :=
            ih p.length (by rw [← hk, List.length_append, List.length_cons]; omega) h rfl
          refine ⟨base, t ++ '/' :: last, ?_, hb, hf, .snoc ht dead⟩
          rw [List.append_assoc, List.append_assoc]
    | some c =>
      -- the last segment is a component, so it is the name
      have text := text_of_ofSegment? hc
      have joined := components_join_inner base (.of_ofSegment? hl hc)
      rw [text, join_of_separator hl hb, h] at joined
      obtain ⟨hf, hn⟩ := List.append_inj' joined rfl
      cases hn
      exact ⟨base, [], by rw [List.append_nil, ← text]; rfl, hb, hf.symm, .nil⟩

/-! ## The new name -/

/-- What takes up its own bytes can be dropped from the end. -/
theorem dropEndBytes_append (p ext : List Char) : dropEndBytes (Utf8.byteLength ext) (p ++ ext) = p := by
  have go : ∀ cs rest : List Char,
      dropEndBytes.go (Utf8.byteLength cs) (cs ++ rest) = dropEndBytes.go 0 rest := by
    intro cs rest
    induction cs with
    | nil => rfl
    | cons c cs ih =>
      have size : Utf8.byteLength (c :: cs) = c.utf8Size + Utf8.byteLength cs := by
        exact Utf8.byteLength_append [c] cs
      have positive := c.utf8Size_pos
      rw [List.cons_append, dropEndBytes.go, if_pos ⟨by omega, by omega⟩, size,
        Nat.add_sub_cancel_left]
      exact ih
  have none_ : ∀ cs, dropEndBytes.go 0 cs = cs := by
    intro cs
    cases cs with
    | nil => rfl
    | cons c cs => rw [dropEndBytes.go, if_neg (by simp)]
  have same : Utf8.byteLength ext = Utf8.byteLength ext.reverse := by
    induction ext with
    | nil => rfl
    | cons c cs ih =>
      have size : Utf8.byteLength (c :: cs) = Utf8.byteLength [c] + Utf8.byteLength cs :=
        Utf8.byteLength_append [c] cs
      rw [List.reverse_cons, Utf8.byteLength_append, size, ih, Nat.add_comm]
  rw [dropEndBytes, List.reverse_append, same, go, none_, List.reverse_reverse]

/-- No more is dropped from the end than what takes up the bytes. -/
theorem exists_dropEndBytes (k : Nat) (p : List Char) :
    ∃ cut, p = dropEndBytes k p ++ cut ∧ Utf8.byteLength cut ≤ k := by
  have go : ∀ (cs : List Char) (k : Nat),
      ∃ cut, cs = cut.reverse ++ dropEndBytes.go k cs ∧ Utf8.byteLength cut ≤ k := by
    intro cs
    induction cs with
    | nil => exact fun k => ⟨[], rfl, Nat.zero_le k⟩
    | cons c cs ih =>
      intro k
      rw [dropEndBytes.go]
      split
      · next fits =>
        obtain ⟨cut, hc, hl⟩ := ih (k - c.utf8Size)
        refine ⟨cut ++ [c], ?_, ?_⟩
        · rw [List.reverse_append, List.reverse_singleton, List.append_assoc, ← hc]
          rfl
        · have one : Utf8.byteLength [c] = c.utf8Size := rfl
          rw [Utf8.byteLength_append, one]
          omega
      · exact ⟨[], rfl, Nat.zero_le k⟩
  obtain ⟨cut, hc, hl⟩ := go p.reverse k
  refine ⟨cut, ?_, hl⟩
  have := congrArg List.reverse hc
  rwa [List.reverse_reverse, List.reverse_append, List.reverse_reverse] at this

/-- A name with a dot behind its stem. -/
theorem isName_append_dot {st x n : Name} (hn : IsName n) (hs : st ≠ []) (sub : st ++ '.' :: x ⊆ n)
    (hup : st ++ '.' :: x ≠ ['.', '.']) : IsName (st ++ '.' :: x) where
  ne_nil := by simp
  ne_here he := by
    have := congrArg List.length he
    rw [List.length_append, List.length_cons] at this
    exact hs (List.eq_nil_of_length_eq_zero (by simp at this; omega))
  ne_up := hup
  no_separator hm := hn.no_separator (sub hm)

/-- What is cut off leaves a name with the same stem, unless nothing but two dots are left. -/
theorem dropExtension_cases {front t : PathText} {n : Name} (hf : front = [] ∨ front.getLast? = some '/')
    (hn : IsName n) (ht : Trailing t) :
    stem n = ['.'] ∧ t = [] ∧ dropExtension (front ++ (n ++ t)) = front ++ ['.', '.'] ∨
      ¬(stem n = ['.'] ∧ t = []) ∧ ∃ k t', dropExtension (front ++ (n ++ t)) = front ++ (k ++ t') ∧
        IsName k ∧ k ⊆ n ∧ stem k = stem n ∧ Trailing t' := by
  rw [dropExtension, finalName?_of_trailing hf hn ht, Option.bind_some]
  rcases stem_cases n with ⟨ext, text, hs, he⟩ | ⟨plain, hs⟩
  · generalize stem n = st at text hs
    subst text
    rw [splitExtension_append hs he hn.ne_up]
    dsimp only
    by_cases hnil : t = []
    · -- the extension stands at the end, so that it is what is cut off
      subst hnil
      have text : front ++ (st ++ '.' :: ext ++ []) = (front ++ (st ++ ['.'])) ++ ext := by simp
      rw [text, dropEndBytes_append]
      by_cases hd : st = ['.']
      · subst hd
        exact .inl ⟨rfl, rfl, rfl⟩
      · have sub : st ++ '.' :: [] ⊆ st ++ '.' :: ext := by
          rw [List.append_cons st '.' ext]
          exact List.subset_append_left _ _
        have hup : st ++ '.' :: [] ≠ ['.', '.'] := fun h => hd (List.append_inj' h rfl).1
        exact .inr ⟨fun h => hd h.1, st ++ '.' :: [], [], by simp, isName_append_dot hn hs sub hup, sub,
          stem_append hs List.not_mem_nil, .nil⟩
    · -- a part of what is cut off stands behind the name, so that something is left of the extension
      refine .inr ⟨fun h => hnil h.2, ?_⟩
      obtain ⟨cut, hcut, hl⟩ := exists_dropEndBytes (Utf8.byteLength ext) (front ++ (st ++ '.' :: ext ++ t))
      have room := byteLength_pos hnil
      have text : front ++ (st ++ '.' :: ext ++ t) = (front ++ (st ++ ['.'])) ++ (ext ++ t) := by simp
      rw [text] at hcut
      rcases List.append_eq_append_iff.1 hcut with ⟨x, hd, hx⟩ | ⟨x, _, hx⟩
      · rw [text, hd]
        rcases List.append_eq_append_iff.1 hx with ⟨t', rfl, rfl⟩ | ⟨rest, rfl, rfl⟩
        · -- only what stands behind the name is cut off
          exact ⟨st ++ '.' :: ext, t', by simp, hn, fun _ hc => hc, stem_append hs he, ht.front⟩
        · rw [Utf8.byteLength_append, Utf8.byteLength_append] at hl
          have hne : x ≠ [] := by
            rintro rfl
            rw [Utf8.byteLength_nil] at hl
            omega
          have sub : st ++ '.' :: x ⊆ st ++ '.' :: (x ++ rest) := by
            rw [← List.cons_append, ← List.append_assoc]
            exact List.subset_append_left _ _
          have hup : st ++ '.' :: x ≠ ['.', '.'] := by
            intro h
            have := congrArg List.length h
            rw [List.length_append, List.length_cons] at this
            have := List.length_pos_iff.2 hs
            have := List.length_pos_iff.2 hne
            simp at *
            omega
          exact ⟨st ++ '.' :: x, [], by simp, isName_append_dot hn hs sub hup, sub,
            stem_append hs fun hm => he (List.mem_append_left rest hm), .nil⟩
      · -- the extension and more would take up no more bytes than the extension
        rw [hx, Utf8.byteLength_append, Utf8.byteLength_append] at hl
        omega
  · rw [splitExtension_of_not_mem plain]
    exact .inr ⟨fun h => hn.ne_here (hs.symm.trans h.1), n, t, rfl, hn, fun _ hc => hc, rfl, ht⟩

/-- A new extension goes behind the stem of the name, and what followed the name is gone. -/
theorem replaceExtension_eq {front t : PathText} {n : Name} (hf : front = [] ∨ front.getLast? = some '/')
    (hn : IsName n) (ht : Trailing t) (ext : Name) :
    replaceExtension (front ++ (n ++ t)) ext = front ++ (stem n ++ '.' :: ext) := by
  have joined := join_of_separator hn.no_separator hf
  have hne := join_ne_nil front hn.ne_nil hn.no_separator
  rw [replaceExtension, finalName?_of_trailing hf hn ht, ← List.append_assoc, ← joined,
    trimEnd_append_trailing hne ht, trimEnd_join _ hn.no_separator hn.ne_nil hn.ne_here]
  dsimp only
  rw [splitExtension_fst hn.ne_up, joined, List.length_append, Nat.add_sub_cancel, List.take_left,
    List.append_assoc]

/-- The name of an output. -/
def outputName (n : Name) : Name := stem n ++ '.' :: fileExtension

/-- The output of a file stands where the file stands, under the name for it; but at the end of a text a
name of two dots and an extension becomes `..`. -/
theorem fileOutput_eq {front t : PathText} {n : Name} (hf : front = [] ∨ front.getLast? = some '/')
    (hn : IsName n) (ht : Trailing t) : fileOutput (front ++ (n ++ t)) =
      front ++ if stem n = ['.'] ∧ t = [] then ['.', '.'] else outputName n := by
  rcases dropExtension_cases hf hn ht with ⟨hs, rfl, hd⟩ | ⟨hne, k, t', hd, hk, _, hs, ht'⟩
  · rw [if_pos ⟨hs, rfl⟩, fileOutput, hd, replaceExtension, ← join_of_separator (by decide) hf,
      finalName?_join_up]
  · rw [if_neg hne, fileOutput, hd, replaceExtension_eq hf hk ht', hs, outputName]

theorem length_outputName (n : Name) : (outputName n).length = (stem n).length + 8 := by
  rw [outputName, List.length_append]
  rfl

theorem isName_outputName {n : Name} (hn : IsName n) : IsName (outputName n) where
  ne_nil := by simp [outputName]
  ne_here h := by
    have length := congrArg List.length h
    rw [length_outputName, List.length_singleton] at length
    omega
  ne_up h := by
    have length := congrArg List.length h
    rw [length_outputName, List.length_cons, List.length_singleton] at length
    omega
  no_separator := by
    rw [outputName, List.mem_append, not_or]
    exact ⟨fun hm => hn.no_separator (stem_subset n hm), by decide⟩

/-- No name is the name of its own output: that would keep a part of the extension in its stem. -/
theorem outputName_ne (n : Name) : outputName n ≠ n := by
  intro h
  have text : outputName n = (stem n ++ ".src".toList) ++ '.' :: "lua".toList := by
    rw [List.append_assoc]
    rfl
  have hs : stem n ++ ".src".toList ≠ [] := by simp
  have same := @stem_append _ "lua".toList hs (by decide)
  rw [← text, h] at same
  have := congrArg List.length same
  simp at this

/-- The output of a file is another name in the place of its own, or `..`. -/
theorem exists_fileOutput {front : PathText} (hf : front = [] ∨ front.getLast? = some '/') {n : Name}
    (h : IsName n) : ∃ m, fileOutput (front ++ n) = front ++ m ∧ (m = ['.', '.'] ∨ IsName m) ∧
      ('\x00' ∉ n → '\x00' ∉ m) := by
  have output := fileOutput_eq hf h .nil
  rw [List.append_nil] at output
  refine ⟨_, output, ?_, fun h0 => ?_⟩
  · split
    · exact .inl rfl
    · exact .inr (isName_outputName h)
  · split
    · decide
    · rw [outputName, List.mem_append, not_or]
      exact ⟨fun hm => h0 (stem_subset n hm), by decide⟩

/-- The output of a file is never the file itself. -/
theorem fileOutput_ne {front : PathText} (hf : front = [] ∨ front.getLast? = some '/') {n : Name}
    (h : IsName n) : fileOutput (front ++ n) ≠ front ++ n := by
  have output := fileOutput_eq hf h .nil
  rw [List.append_nil] at output
  rw [output]
  intro he
  have he := List.append_cancel_left he
  split at he
  · exact h.ne_up he.symm
  · exact outputName_ne n he

/-- The output of a file stands beside it, under its stem and the new extension. There is one exception:
where the text ends in a name that is two dots and an extension, so that the stem is a dot alone, it ends
in `..` afterwards. The output never has the components of the file. A path without a final name stays as
it is. -/
theorem fileOutput_beside (p : PathText) :
    (∀ front n, components p = front ++ [.name n] →
      (stem n = ['.'] ∧ n <:+ p ∧ components (fileOutput p) = front ++ [.up] ∨
        ¬(stem n = ['.'] ∧ n <:+ p) ∧
          components (fileOutput p) = front ++ [.name (stem n ++ ".src.lua".toList)] ∧
          finalName? (fileOutput p) = some (stem n ++ ".src.lua".toList)) ∧
      components (fileOutput p) ≠ components p) ∧
    (finalName? p = none → fileOutput p = p) := by
  refine ⟨fun front n h => ?_, fun h => ?_⟩
  · have name : IsName n := isName_of_mem_components (h ▸ List.mem_append_right front List.mem_cons_self)
    obtain ⟨base, t, rfl, hb, rfl, ht⟩ := exists_trailing h
    have output := fileOutput_eq hb name ht
    have named : IsName (stem n ++ ".src.lua".toList) := isName_outputName name
    rw [h, trailing_eq_nil_iff name ht]
    by_cases swallowed : stem n = ['.'] ∧ t = []
    · rw [if_pos swallowed] at output
      have up : components (fileOutput (base ++ (n ++ t))) = components base ++ [.up] := by
        have joined := components_of_trailing hb .up .nil
        rw [List.append_nil] at joined
        rw [output]
        exact joined
      refine ⟨.inl ⟨swallowed.1, swallowed.2, up⟩, fun same => ?_⟩
      rw [up] at same
      cases (List.append_inj' same rfl).2
    · rw [if_neg swallowed] at output
      have beside : components (fileOutput (base ++ (n ++ t))) =
          components base ++ [.name (stem n ++ ".src.lua".toList)] := by
        have joined := components_of_trailing hb (.name named) .nil
        rw [List.append_nil] at joined
        rw [output]
        exact joined
      refine ⟨.inr ⟨swallowed, beside, ?_⟩, fun same => ?_⟩
      · rw [finalName?, beside, List.getLast?_concat]
      · rw [beside] at same
        have same := List.singleton_inj.1 (List.append_cancel_left same)
        exact outputName_ne n (Component.name.inj same)
  · rw [fileOutput, dropExtension, h]
    dsimp only [Option.bind_none]
    rw [replaceExtension, h]

/-- Dots in front stay, and what follows the name goes. -/
theorem fileOutput_beside_dottedName :
    components "./a.b/..x.luac/.".toList = [.here, .name "a.b".toList] ++ [.name "..x.luac".toList] ∧
      components (fileOutput "./a.b/..x.luac/.".toList) =
        [.here, .name "a.b".toList] ++ [.name "..x.src.lua".toList] ∧
      finalName? "./a.b/..".toList = none ∧ fileOutput "./a.b/..".toList = "./a.b/..".toList := by
  have named : components "./a.b/..x.luac/.".toList =
      [.here, .name "a.b".toList] ++ [.name "..x.luac".toList] := by decide
  have other : ¬(stem "..x.luac".toList = ['.'] ∧ "..x.luac".toList <:+ "./a.b/..x.luac/.".toList) := by decide
  refine ⟨named, ?_, by decide, (fileOutput_beside _).2 (by decide)⟩
  rcases ((fileOutput_beside _).1 _ _ named).1 with ⟨hs, ht, _⟩ | ⟨_, beside, _⟩
  · exact absurd ⟨hs, ht⟩ other
  · exact beside

/-- A file whose name is two dots and an extension has the directory above its own as its output. -/
theorem output_is_directory_above :
    components "a/..q".toList = [.name ['a']] ++ [.name "..q".toList] ∧ stem "..q".toList = ['.'] ∧
      components (fileOutput "a/..q".toList) = [.name ['a'], .up] ∧
      finalName? (fileOutput "a/..q".toList) = none := by
  decide

end LuaTree.PathText
