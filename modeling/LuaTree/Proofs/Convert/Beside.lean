import LuaTree.Proofs.Convert.Destination
import LuaTree.Proofs.Path.FileOutput

/-!
# Destinations beside a file

A single file is converted beside itself: its path is a name behind a text that leads to a directory
(`Front`), and so is its destination, but for another name. That name can be `..`, which leads to a
directory and names nothing that could be written to (`Front.lookup_up`, `Front.locate_up`).
-/

namespace LuaTree

open PathText Store

variable {s t : Store} {cwd dir : Location} {input : PathText}

/-- The text before the last name leads to the directory at `dir`. -/
structure Front (s : Store) (cwd : Location) (front : PathText) (dir : Location) : Prop where
  separated : front = [] ∨ front.getLast? = some '/'
  no_nul : '\x00' ∉ front
  short : Utf8.byteLength front < pathLimit
  holdsDir : s.holdsDir dir
  leads : ∃ k ≤ linkLimit, Leads s k (start cwd front) (Step.ofText front) dir

theorem Front.mono {front : PathText} (h : Front s cwd front dir) (hk : Keeps s t) :
    Front t cwd front dir := by
  obtain ⟨separated, h0, short, there, k, hl, leads⟩ := h
  exact ⟨separated, h0, short, hk.holdsDir there, k, hl, leads.mono hk⟩

theorem start_join (cwd : Location) (front : PathText) {n : Name} (h : '/' ∉ n) :
    start cwd (join front n) = start cwd front := by
  by_cases hf : front = []
  · rw [hf, join_of_separator h (.inl rfl), List.nil_append, start, start, isAbsolute_of_no_separator h]
    rfl
  · exact start_of_isAbsolute_eq (isAbsolute_join hf h) cwd

/-- A path to a regular file is a name behind a text that leads to a directory. -/
theorem exists_front_of_stat? (coherent : s.Coherent cwd) {loc : Location} {i : Nat}
    (h : s.stat? cwd input = .ok (loc, .file i)) : ∃ front n dir, input = front ++ n ∧ IsName n ∧
      '\x00' ∉ n ∧ Front s cwd front dir := by
  obtain ⟨hc, k, hk, hf⟩ := lookup_eq_ok.1 (stat?_eq_ok_iff_lookup.1 h)
  obtain ⟨h0, _, hl⟩ := checkText_eq_ok.1 hc
  obtain ⟨front, n, rfl, hn, separated⟩ := exists_final input
  have text := join_of_separator hn separated
  obtain ⟨steps, m, hs⟩ := hf.ends_in_name (coherent.way.start _) rfl
  rw [List.mem_append, not_or] at h0
  rw [Utf8.byteLength_append] at hl
  have last : (Step.ofPath (front ++ n)).getLast? = some (.enter m) := by
    rw [hs, List.getLast?_concat]
  -- the last step is the last segment, which is then a name
  obtain rfl | hne := eq_or_ne n []
  · rw [List.append_nil] at last
    rcases separated with rfl | separated
    · cases last
    · rw [Step.ofPath, if_pos separated, List.getLast?_concat] at last
      cases last
  have slash : (front ++ n).getLast? ≠ some '/' := by
    rw [← text]
    exact getLast?_join front hne hn
  obtain ⟨ss, hj, _⟩ := segments_join front hn
  rw [text] at hj
  rw [Step.ofPath_of_no_slash slash, Step.ofText, hj, List.filterMap_append] at last
  have name : IsName n := by
    refine ⟨hne, ?_, ?_, hn⟩
    · rintro rfl
      rw [List.filterMap_cons, Step.ofSegment?] at last
      simp at last
    · rintro rfl
      rw [List.filterMap_cons, Step.ofSegment?] at last
      simp at last
  have steps' : Step.ofPath (front ++ n) = Step.ofText front ++ [.enter n] := by
    rw [← text]
    exact Step.ofPath_join front name
  rw [← text, start_join cwd front hn, text] at hf
  obtain ⟨i', j, dir, rfl, hi, back⟩ := hf.split steps' (List.cons_ne_nil _ _)
  have there : s.holdsDir dir := by
    generalize hp : Place.entry loc (.file i) = place at back
    cases back with
    | dir he _ _ _ | link he _ _ _ _ | kept he _ _ | last he _ _ => exact coherent.parent he
    | free _ _ _ _ => cases hp
  exact ⟨front, n, dir, rfl, name, h0.2, separated, h0.1, by omega, there, i',
    Nat.le_trans (Nat.le_add_right i' j) hk, hi⟩

variable {front : PathText}

/-- The text before the last name, less what makes no difference to it, leads to the same directory. -/
theorem Front.leads_trimEnd (h : Front s cwd front dir) : ∃ k ≤ linkLimit,
    Leads s k (start cwd (trimEnd front)) (Step.ofText (trimEnd front)) dir := by
  obtain ⟨_, _, _, _, k, hk, leads⟩ := h
  refine ⟨k, hk, ?_⟩
  rw [start_of_isAbsolute_eq (isAbsolute_trimEnd front)]
  exact leads.thin (thins_trimEnd front)

theorem Front.checkText_trimEnd (h : Front s cwd front dir) (hne : trimEnd front ≠ []) :
    checkText (trimEnd front) = .ok () := by
  obtain ⟨rest, hr⟩ := trimEnd_isPrefix front
  have h0 := h.no_nul
  have hl := h.short
  rw [← hr, List.mem_append, not_or] at h0
  rw [← hr, Utf8.byteLength_append] at hl
  exact checkText_eq_ok.2 ⟨h0.1, hne, by omega⟩

/-- The parent of a name is what the text before it says. -/
theorem Front.parentText?_eq (h : Front s cwd front dir) {n : Name} (hn : '/' ∉ n) (hne : n ≠ [])
    (hdot : n ≠ ['.']) : parentText? (front ++ n) =
      if trimEnd front = [] then none else some (trimEnd front) := by
  rw [parentText?, ← join_of_separator hn h.separated, parent?_join front hn hne hdot]
  cases trimEnd front <;> rfl

/-- The directory of a name is there, so there is nothing to create. -/
theorem Front.ensureParent_eq (h : Front s cwd front dir) (rooted : s.Rooted) {n : Name}
    (hn : '/' ∉ n) (hne : n ≠ []) (hdot : n ≠ ['.']) : ensureParent s cwd (front ++ n) = (.ok (), s) := by
  rw [ensureParent, h.parentText?_eq hn hne hdot]
  by_cases ht : trimEnd front = []
  · rw [if_pos ht]
  · obtain ⟨k, hk, leads⟩ := h.leads_trimEnd
    obtain ⟨mode, he⟩ := holdsDir_iff.1 h.holdsDir
    rw [← bareSteps_eq] at leads
    have found := leads.stat? (h.checkText_trimEnd ht) hk
    rw [Store.found, he] at found
    have there : s.isDir cwd (trimEnd front) := isDir_iff.2 ⟨dir, mode, found⟩
    rw [if_neg ht]
    dsimp only
    rw [makeDirs_of_isDir rooted there]
    rfl

/-- The temporary file for a name would be in the same directory. -/
theorem Front.scratch (h : Front s cwd front dir) (wellNamed : s.WellNamed) {n : Name} (hn : '/' ∉ n)
    (hne : n ≠ []) (hdot : n ≠ ['.']) {path : PathText}
    (scratch : Publication.scratchPath s cwd (front ++ n) = .ok path) :
    Approach s cwd path dir [Publication.temporaryName 0] := by
  obtain ⟨k, hk, leads⟩ := h.leads_trimEnd
  have parent := h.parentText?_eq hn hne hdot
  show Approach s cwd path dir ([] ++ [Publication.temporaryName 0])
  by_cases ht : trimEnd front = []
  · -- a bare name is in the working directory
    have here : Publication.directory (front ++ n) = ['.'] := by
      rw [Publication.directory, parent, if_pos ht]
      rfl
    rw [ht] at leads
    exact approach_scratch wellNamed scratch here (by decide) (by decide) h.holdsDir hk
      (.stay leads) (List.append_nil _).symm
  · have above : Publication.directory (front ++ n) = trimEnd front := by
      rw [Publication.directory, parent, if_neg ht]
      rfl
    obtain ⟨h0, _, _⟩ := checkText_eq_ok.1 (h.checkText_trimEnd ht)
    exact approach_scratch wellNamed scratch above ht h0 h.holdsDir hk leads
      (List.append_nil _).symm

theorem Front.approach (h : Front s cwd front dir) {n : Name} (hn : IsName n) (h0 : '\x00' ∉ n) :
    Approach s cwd (front ++ n) dir [n] := by
  obtain ⟨separated, nul, _, there, k, hk, leads⟩ := h
  have text := join_of_separator hn.no_separator separated
  refine ⟨by rw [List.mem_append, not_or]; exact ⟨nul, h0⟩, there, Step.ofText front, k, hk, ?_, ?_⟩
  · rwa [← text, start_join cwd front hn.no_separator]
  · rw [← text]
    exact Step.ofPath_join front hn

/-! ## The directory above -/

theorem Front.steps_up (h : Front s cwd front dir) :
    Step.ofPath (front ++ ['.', '.']) = Step.ofText front ++ [.up] := by
  have text := join_of_separator (n := ['.', '.']) (by decide) h.separated
  have slash : (front ++ ['.', '.']).getLast? ≠ some '/' := by
    rw [← text]
    exact getLast?_join front (by decide) (by decide)
  rw [Step.ofPath_of_no_slash slash, ← text]
  exact Step.ofText_join front (by decide) rfl

theorem Front.start_up (h : Front s cwd front dir) : start cwd (front ++ ['.', '.']) = start cwd front := by
  rw [← join_of_separator (n := ['.', '.']) (by decide) h.separated, start_join cwd front (by decide)]

/-- What could be written at `..` is a directory. -/
theorem Front.lookup_up (h : Front s cwd front dir) (rooted : s.Rooted)
    (hc : checkText (front ++ ['.', '.']) = .ok ()) : ∃ place mode,
      s.lookup cwd .create (front ++ ['.', '.']) = .ok (.entry place (.dir mode)) ∧
      s.entry? place = some (.dir mode) := by
  obtain ⟨k, hk, leads⟩ := h.leads
  obtain ⟨mode, he⟩ := holdsDir_iff.1 (rooted.holdsDir_dropLast h.holdsDir)
  refine ⟨dir.dropLast, mode, ?_, he⟩
  rw [lookup_eq s cwd .create hc, h.steps_up, h.start_up,
    leads.tour_append (.inr ⟨.up, [], rfl, by simp⟩) hk, tour_up, tour_nil, he]
  rfl

theorem Front.lastName?_up (h : Front s cwd front dir) : lastName? (front ++ ['.', '.']) = none := by
  rw [lastName?, bareSteps, h.steps_up, List.filter_append]
  simp

/-- Nothing is located at `..` that could be replaced. -/
theorem Front.locate_up (h : Front s cwd front dir) (hc : checkText (front ++ ['.', '.']) = .ok ()) : ∃ slot,
      s.locate cwd (front ++ ['.', '.']) = .ok slot ∧ slot.name? = none := by
  obtain ⟨k, hk, leads⟩ := h.leads
  have bare : bareSteps (front ++ ['.', '.']) = Step.ofText front ++ [.up] := by
    rw [bareSteps, h.steps_up, List.filter_append, Step.filter_ofText]
    rfl
  refine ⟨⟨dir, none, decide ((front ++ ['.', '.']).getLast? = some '/')⟩,
    locate_eq_ok_iff.2 ⟨hc, ⟨k, hk, ?_⟩, h.lastName?_up.symm, ?_, rfl⟩, rfl⟩
  · rwa [bare, List.dropLast_concat, h.start_up]
  · intro n hn
    cases h.lastName?_up.symm.trans hn

end LuaTree
