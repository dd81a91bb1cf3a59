import LuaTree.Decompiler
import LuaTree.Exec.Launch
import LuaTree.Proofs.Path.Absolute
import LuaTree.Proofs.Plan.Output
import LuaTree.Proofs.Store.Joined

/-!
# The file that a process is given

A tool starts its process in its own directory, so it hands the path of a source over as an absolute text.
That text leads to what the path leads to, through any links, and from every working directory
(`stat?_fullText`). For `.` segments and repeated separators make no difference to a lookup
(`Reaches.thin`), `..` segments and a separator at the end are kept, and the names of the working directory
lead down to it without a link.

Two things get in the way: an absolute text can be too long where the path was not, and a working directory
that has been removed has no text (`absolute_of_removed`).
-/

namespace LuaTree

open PathText

namespace Store

variable {s : Store} {cwd loc : Location} {k : Nat} {e : Entry} {p root : PathText} {cs : List Component}

/-! ## Lookups of absolute texts -/

theorem ofText_spell (hc : ∀ c ∈ cs, c.Inner) :
    Step.ofText (spell root cs) = Step.ofText root ++ cs.filterMap Component.step? := by
  induction cs using List.reverseRecOn with
  | nil => exact (List.append_nil _).symm
  | append_singleton cs c ih =>
    have inner := hc c (List.mem_append_right _ List.mem_cons_self)
    obtain ⟨step, hs⟩ : ∃ step, c.step? = some step := by
      cases inner with
      | up => exact ⟨_, rfl⟩
      | name _ => exact ⟨_, rfl⟩
    rw [spell_concat, Step.ofText_join _ inner.no_separator (inner.step_eq.trans hs),
      ih fun d hd => hc d (List.mem_append_left _ hd), List.filterMap_append, List.append_assoc,
      List.filterMap_cons, hs]
    rfl

/-- The steps of a text in normal form are those of its components. -/
theorem ofText_absoluteText (hr : IsRoot root) (hc : ∀ c ∈ cs, c.Inner) (slash : Bool) :
    Step.ofText (absoluteText root cs slash) = cs.filterMap Component.step? := by
  have bare : Step.ofText (spell root cs) = cs.filterMap Component.step? := by
    rw [ofText_spell hc]
    rcases hr with rfl | rfl <;> rfl
  rcases absoluteText_cases root cs slash hr hc with ⟨h, _⟩ | ⟨h, _⟩
  · rw [h, bare]
  · rw [h, Step.ofText_append_separator, bare]
    exact List.append_nil _

/-- A path as a process that runs elsewhere has to be given it. -/
def fullText (cwd : Location) (p : PathText) : PathText :=
  absoluteText (rootText p) ((start cwd p).map .name ++ innerComponents p) (p.getLast? = some '/')

theorem lawful_of_mem_start (wellNamed : s.WellNamed) (there : s.holdsDir (start cwd p)) :
    ∀ n ∈ start cwd p, Lawful n := by
  obtain ⟨mode, hd⟩ := holdsDir_iff.1 there
  have below : s.entry? ([] ++ start cwd p) = some (.dir mode) := hd
  exact wellNamed.lawful_of_mem below

theorem inner_of_mem_fullText (wellNamed : s.WellNamed) (there : s.holdsDir (start cwd p)) :
    ∀ c ∈ (start cwd p).map .name ++ innerComponents p, c.Inner := by
  intro c hc
  rcases List.mem_append.1 hc with hc | hc
  · obtain ⟨n, hn, rfl⟩ := List.mem_map.1 hc
    exact .name (lawful_of_mem_start wellNamed there n hn).toIsName
  · exact inner_of_mem_innerComponents hc

theorem isAbsolute_fullText (wellNamed : s.WellNamed) (there : s.holdsDir (start cwd p)) :
    isAbsolute (fullText cwd p) = true :=
  isAbsolute_absoluteText (isRoot_rootText p) (inner_of_mem_fullText wellNamed there) _

theorem absolute?_fullText (wellNamed : s.WellNamed) (there : s.holdsDir (start cwd p))
    (here : PathText) : absolute? here (fullText cwd p) = some (fullText cwd p) :=
  absolute?_absoluteText (isRoot_rootText p) (inner_of_mem_fullText wellNamed there) _ here

/-- The absolute text of a path takes the names of the place it starts from, and then the steps of the path. -/
theorem reaches_fullText (wellNamed : s.WellNamed) (there : s.holdsDir (start cwd p))
    (h : Reaches s .follow k (start cwd p) (Step.ofPath p) (.entry loc e)) :
    Reaches s .follow k [] (Step.ofPath (fullText cwd p)) (.entry loc e) := by
  obtain ⟨mode, hd⟩ := holdsDir_iff.1 there
  have below : s.entry? ([] ++ start cwd p) = some (.dir mode) := hd
  have hr := isRoot_rootText p
  have hc := inner_of_mem_fullText wellNamed there
  have down : Leads s 0 [] ((start cwd p).map .enter) (start cwd p) := wellNamed.leads_down below
  -- `.` segments and repeated separators are left out
  have thinned : Thins (Step.ofText p) ((innerComponents p).filterMap Component.step?) :=
    innerComponents_eq p ▸ thins_segments _
  have steps : Step.ofText (fullText cwd p) =
      (start cwd p).map .enter ++ (innerComponents p).filterMap Component.step? := by
    rw [fullText, ofText_absoluteText hr hc, List.filterMap_append, filterMap_step?_names]
  have path : Step.ofPath p = Step.ofText p ++ if p.getLast? = some '/' then [.slash] else [] := rfl
  show Reaches s .follow k [] (Step.ofText (fullText cwd p) ++ _) _
  rw [steps, List.append_assoc]
  by_cases hs : p.getLast? = some '/'
  · -- a separator at the end stays there
    have last : (fullText cwd p).getLast? = some '/' := by
      rw [fullText, absoluteText, if_pos (decide_eq_true hs)]
      exact getLast?_withTrailingSeparator (spell_ne_nil hr.ne_nil hc)
    rw [path, if_pos hs] at h
    rw [if_pos last]
    have whole := down.append (h.thin (thinned.append (.refl _))) (.inl rfl)
    rwa [Nat.zero_add] at whole
  · rw [path, if_neg hs, List.append_nil] at h
    have whole := down.append (h.thin thinned) (.inl rfl)
    rw [Nat.zero_add] at whole
    by_cases last : (fullText cwd p).getLast? = some '/'
    · -- one that the path did not have is the root's
      have none : (start cwd p).map Component.name ++ innerComponents p = [] := by
        by_contra hne
        rw [fullText, absoluteText, if_neg (by simpa using hs)] at last
        exact getLast?_spell hc hne last
      obtain ⟨top, inner⟩ := List.append_eq_nil_iff.1 none
      rw [if_pos last, inner, List.map_eq_nil_iff.1 top]
      rw [inner, List.map_eq_nil_iff.1 top] at whole
      exact .slash whole
    · rwa [if_neg last, List.append_nil]

/-- What a path becomes when it is made absolute. -/
theorem absolute?_eq_fullText (wellNamed : s.WellNamed) (there : s.holdsDir (start cwd p)) (hp : p ≠ [])
    (here : PathText) (hh : isAbsolute p = false → here = cwd.text) :
    absolute? here p = some (fullText cwd p) := by
  cases ha : isAbsolute p with
  | true =>
    rw [absolute?_of_isAbsolute ha, fullText, start, ha]
    rfl
  | false =>
    have hs : start cwd p = cwd := by rw [start, ha]; rfl
    have names : ∀ n ∈ cwd, IsName n := fun n hn =>
      (lawful_of_mem_start wellNamed there n (hs.symm ▸ hn)).toIsName
    have root : rootText p = ['/'] := by
      unfold rootText
      split
      · cases ha
      · cases ha
      · rfl
    rw [hh ha, text_eq_ofComponents names, fullText, hs, root]
    exact absolute?_of_relative ha hp _

/-- A path that leads somewhere leads there as an absolute text as well, unless that is too long. -/
theorem stat?_fullText (wellNamed : s.WellNamed) (there : s.holdsDir (start cwd p))
    (h : s.stat? cwd p = .ok (loc, e)) (elsewhere : Location) : s.stat? elsewhere (fullText cwd p) =
      if Utf8.byteLength (fullText cwd p) < pathLimit then .ok (loc, e)
      else .error (.os .nameTooLong) := by
  obtain ⟨hcheck, k, hk, hreach⟩ := lookup_eq_ok.1 (stat?_eq_ok_iff_lookup.1 h)
  obtain ⟨h0, hp, _⟩ := checkText_eq_ok.1 hcheck
  have noNul : '\x00' ∉ fullText cwd p := by
    refine not_mem_absoluteText ?_ (by decide) (fun c hm => ?_) _
    · rcases isRoot_rootText p with hr | hr <;> rw [hr] <;> decide
    · rcases List.mem_append.1 hm with hm | hm
      · obtain ⟨n, hn, rfl⟩ := List.mem_map.1 hm
        exact (lawful_of_mem_start wellNamed there n hn).no_nul
      · exact no_nul_of_mem_components h0 c (List.mem_filter.1 hm).1
  have absolute := isAbsolute_fullText wellNamed there
  have hne : fullText cwd p ≠ [] := by
    intro he
    rw [he] at absolute
    cases absolute
  split
  · next short =>
    refine stat?_eq_ok_iff_lookup.2 (lookup_eq_ok.2 ⟨checkText_eq_ok.2 ⟨noNul, hne, short⟩, k, hk, ?_⟩)
    have top : start elsewhere (fullText cwd p) = [] := by
      rw [start, absolute]
      rfl
    rw [top]
    exact reaches_fullText wellNamed there hreach
  · next long => exact stat?_of_long noNul hne (Nat.not_lt.1 long)

end Store

/-! ## The process of a tool -/

namespace Tool

open Store

variable {s : Store} {cwd loc : Location} {source : PathText} {e : Entry}

theorem holdsDir_start_of_there (rooted : s.Rooted)
    (there : isAbsolute source = true ∨ s.holdsDir cwd = true) : s.holdsDir (start cwd source) := by
  rcases there with ha | hd
  · rw [start, ha]
    exact rooted.root
  · exact holdsDir_start rooted hd source

theorem absolute_of_removed (hne : source ≠ []) (ha : isAbsolute source = false)
    (gone : s.holdsDir cwd = false) : decompiler.absolute cwd s source = .error (.os .noEntry) := by
  simp [decompiler.absolute, ha, hne, cwdText?, gone, bind, Except.bind]

theorem absolute_of_there (wellNamed : s.WellNamed) (hne : source ≠ [])
    (there : isAbsolute source = true ∨ s.holdsDir cwd = true) :
    decompiler.absolute cwd s source = .ok (fullText cwd source) := by
  have rooted := holdsDir_start_of_there wellNamed.toRooted there
  cases ha : isAbsolute source with
  | true =>
    have full := absolute?_eq_fullText wellNamed rooted hne [] (by simp [ha])
    simp [decompiler.absolute, ha, full, pure, Except.pure, bind, Except.bind]
  | false =>
    have here : s.holdsDir cwd = true := there.resolve_left (by simp [ha])
    have full := absolute?_eq_fullText wellNamed rooted hne cwd.text fun _ => rfl
    simp [decompiler.absolute, ha, hne, full, cwdText?, here, pure, Except.pure, bind, Except.bind]

/-- A source that leads somewhere is handed over as an absolute text, which is no option and which leads
there from everywhere. There are two exceptions: a text that has become too long leads nowhere, and a
relative source is refused in a working directory that has been removed. -/
theorem decompile_finds_source (tool : Tool) (launch : Launcher) (wellNamed : s.WellNamed)
    (hs : s.stat? cwd source = .ok (loc, e)) :
    (isAbsolute source = false ∧ s.holdsDir cwd = false ∧ (tool.decompiler launch cwd).decompile s source =
      { result := .error (.fileOpen source (.os .noEntry)), store := s }) ∨
    ((isAbsolute source = true ∨ s.holdsDir cwd = true) ∧
      ∃ full, absolute? cwd.text source = some full ∧ full.head? = some '/' ∧
        (∀ here, absolute? here full = some full) ∧
        (∀ elsewhere, s.stat? elsewhere full = if Utf8.byteLength full < pathLimit then .ok (loc, e)
          else .error (.os .nameTooLong)) ∧
        ∃ answer after, launch s cwd
            { program := tool.runtime
              arguments := ["-jar".toList, tool.archive, "--rawstring".toList, full]
              directory := tool.directory } = (answer, after) ∧
          (tool.decompiler launch cwd).decompile s source =
            { result := answer.mapError (.decompilerSpawn tool.runtime)
              store := after
              notices := [.running tool.runtime tool.archive full] }) := by
  obtain ⟨_, hne, _⟩ := checkText_of_stat? hs
  by_cases there : isAbsolute source = true ∨ s.holdsDir cwd = true
  · have rooted := holdsDir_start_of_there wellNamed.toRooted there
    refine .inr ⟨there, fullText cwd source, ?_⟩
    refine ⟨absolute?_eq_fullText wellNamed rooted hne _ fun _ => rfl, ?_, ?_,
      stat?_fullText wellNamed rooted hs, _, _, rfl, ?_⟩
    · exact head?_of_isAbsolute (isAbsolute_fullText wellNamed rooted)
    · exact absolute?_fullText wellNamed rooted
    · simp [decompiler, absolute_of_there wellNamed hne there, invocation]
  · rw [not_or, Bool.not_eq_true, Bool.not_eq_true] at there
    refine .inl ⟨there.1, there.2, ?_⟩
    simp [decompiler, absolute_of_removed hne there.1 there.2]

/-- A directory `d` with a file in it, and a link to a directory below it. -/
def sidewaysTree : Store :=
  (((Store.empty.put [['d']] (.dir 0o755)).put [['d'], ['e']] (.dir 0o755)).putFile [['d'], ['x']]
    ⟨[7], 0o644⟩).put [['l']] (.link "d/e".toList)

/-- A tool in a directory beside `d`. -/
def sidewaysTool : Tool := { directory := "/t".toList }

/-- Behind a link, `..` does not lead back, and so it is kept. -/
theorem decompile_finds_source_sideways : sidewaysTree.WellNamed ∧
    sidewaysTree.stat? [['d']] "../l//./../x".toList = .ok ([['d'], ['x']], .file 1) ∧
    ((sidewaysTool.decompiler Exec.launch [['d']]).decompile sidewaysTree "../l//./../x".toList).notices =
      [.running sidewaysTool.runtime sidewaysTool.archive "/d/../l/../x".toList] ∧
    ∀ elsewhere, sidewaysTree.stat? elsewhere "/d/../l/../x".toList = .ok ([['d'], ['x']], .file 1) := by
  have sound : sidewaysTree.Sound [['d']] := .of_admits (by decide) (by decide) (by decide)
  have found : sidewaysTree.stat? [['d']] "../l//./../x".toList = .ok ([['d'], ['x']], .file 1) := by
    refine stat?_eq_ok_iff_lookup.2 (lookup_eq_ok.2 ⟨by decide, 1, by decide, ?_⟩)
    have steps : Step.ofPath "../l//./../x".toList = [.up, .enter ['l'], .stay, .up, .enter ['x']] := by decide
    have target : Step.ofPath "d/e".toList = [.enter ['d'], .enter ['e']] := by decide
    have link : sidewaysTree.entry? ([] ++ [['l']]) = some (.link "d/e".toList) := by decide
    have outer : sidewaysTree.entry? ([] ++ [['d']]) = some (.dir 0o755) := by decide
    have inner : sidewaysTree.entry? ([['d']] ++ [['e']]) = some (.dir 0o755) := by decide
    have file : sidewaysTree.entry? ([['d']] ++ [['x']]) = some (.file 1) := by decide
    rw [steps]
    refine .up (.link link (by decide) (by decide) (by decide) ?_)
    rw [target]
    exact .dir outer (by decide) (by decide) (.dir inner (by decide) (by decide)
      (.stay (.up (.last file (by decide) rfl))))
  have spelled : absolute? (Location.text [['d']]) "../l//./../x".toList = some "/d/../l/../x".toList := by decide
  rcases decompile_finds_source sidewaysTool Exec.launch sound.wellNamed found with
    ⟨_, gone, _⟩ | ⟨_, full, text, _, _, leads, answer, after, _, run⟩
  · have there : sidewaysTree.holdsDir [['d']] = true := by decide
    cases gone.symm.trans there
  · obtain rfl : full = "/d/../l/../x".toList := Option.some.inj (text.symm.trans spelled)
    exact ⟨sound.wellNamed, found, by rw [run], fun elsewhere => (leads elsewhere).trans (if_pos (by decide))⟩

/-! ### Where the source is not found -/

/-- The name `f`, seen from `k` directories further down. -/
def climbing : Nat → PathText
  | 0 => ['f']
  | k + 1 => ['.', '.'] ++ '/' :: climbing k

theorem segments_climbing (k : Nat) :
    segments (climbing k) = List.replicate k ['.', '.'] ++ [['f']] := by
  induction k with
  | zero => rfl
  | succ k ih =>
    rw [climbing, segments_append_separator, ih]
    rfl

theorem byteLength_climbing (k : Nat) : Utf8.byteLength (climbing k) = 3 * k + 1 := by
  induction k with
  | zero => rfl
  | succ k ih =>
    have up : Utf8.byteLength ['.', '.'] = 2 := by decide
    rw [climbing, byteLength_append_separator, ih, up]
    omega

theorem getLast?_climbing (k : Nat) : (climbing k).getLast? = some 'f' := by
  induction k with
  | zero => rfl
  | succ k ih => rw [climbing, List.getLast?_append, List.getLast?_cons, ih]; rfl

theorem no_nul_climbing (k : Nat) : '\x00' ∉ climbing k := by
  induction k with
  | zero => decide
  | succ k ih => simpa [climbing] using ih

theorem ofPath_climbing (k : Nat) :
    Step.ofPath (climbing k) = List.replicate k .up ++ [.enter ['f']] := by
  rw [Step.ofPath, segments_climbing, getLast?_climbing, List.filterMap_append, List.filterMap_replicate,
    if_neg (by decide), List.append_nil]
  rfl

theorem innerComponents_climbing (k : Nat) :
    innerComponents (climbing k) = List.replicate k .up ++ [.name ['f']] := by
  rw [innerComponents_eq, segments_climbing, List.filterMap_append, List.filterMap_replicate]
  rfl

/-- Behind a directory it is written as it is. -/
theorem spell_climbing (k : Nat) {p : PathText} (hp : p ≠ []) (hl : p.getLast? ≠ some '/') :
    spell p (List.replicate k .up ++ [.name ['f']]) = p ++ '/' :: climbing k := by
  induction k generalizing p with
  | zero => exact join_of_no_separator (show '/' ∉ ['f'] by decide) hp hl
  | succ k ih =>
    have noSeparator : '/' ∉ ['.', '.'] := by decide
    have up : join p ['.', '.'] = p ++ '/' :: ['.', '.'] := join_of_no_separator noSeparator hp hl
    have further := ih (join_ne_nil p (by decide) noSeparator) (getLast?_join p (by decide) noSeparator)
    rw [List.replicate_succ, List.cons_append]
    show spell (join p ['.', '.']) _ = _
    rw [further, up, climbing]
    simp

/-- Going up from the root leads to the root. -/
theorem reaches_climbing (k : Nat) {i : Nat} (hf : s.entry? [['f']] = some (.file i)) :
    Reaches s .follow 0 [] (List.replicate k .up ++ [.enter ['f']]) (.entry [['f']] (.file i)) := by
  induction k with
  | zero => exact .last hf (by decide) rfl
  | succ k ih => exact .up ih

/-- A directory `b` and a file. -/
def lowTree : Store := (Store.empty.put [['b']] (.dir 0o755)).putFile [['f']] ⟨[7], 0o644⟩

theorem stat?_climbing {k : Nat} (short : 3 * k + 1 < pathLimit) (hk : 0 < k) (dir : Name) :
    lowTree.stat? [dir] (climbing k) = .ok ([['f']], .file 1) := by
  obtain ⟨k, rfl⟩ := Nat.exists_eq_succ_of_ne_zero (Nat.pos_iff_ne_zero.1 hk)
  have file : lowTree.entry? [['f']] = some (.file 1) := by decide
  have checked : checkText (climbing (k + 1)) = .ok () :=
    checkText_eq_ok.2 ⟨no_nul_climbing _, List.cons_ne_nil _ _, byteLength_climbing (k + 1) ▸ short⟩
  refine stat?_eq_ok_iff_lookup.2 (lookup_eq_ok.2 ⟨checked, 0, Nat.zero_le _, ?_⟩)
  rw [ofPath_climbing]
  exact .up (reaches_climbing k file)

/-- Written behind `/b/`, the text gets longer by three bytes. -/
theorem byteLength_fullText_climbing {k : Nat} (hk : 0 < k) :
    Utf8.byteLength (fullText [['b']] (climbing k)) = 3 * k + 4 := by
  obtain ⟨k, rfl⟩ := Nat.exists_eq_succ_of_ne_zero (Nat.pos_iff_ne_zero.1 hk)
  have text : fullText [['b']] (climbing (k + 1)) = ['/', 'b'] ++ '/' :: climbing (k + 1) := by
    rw [fullText, absoluteText, getLast?_climbing, innerComponents_climbing]
    exact @spell_climbing (k + 1) ['/', 'b'] (by decide) (by decide)
  have front : Utf8.byteLength ['/', 'b'] = 2 := by decide
  rw [text, byteLength_append_separator, byteLength_climbing, front]
  omega

/-- The two exceptions: a text of 4093 bytes that gets too long, and a working directory that is gone. -/
theorem decompile_loses_source :
    (lowTree.WellNamed ∧ lowTree.stat? [['b']] (climbing 1364) = .ok ([['f']], .file 1) ∧
      ∃ full, ((sidewaysTool.decompiler Exec.launch [['b']]).decompile lowTree (climbing 1364)).notices =
          [.running sidewaysTool.runtime sidewaysTool.archive full] ∧
        ∀ elsewhere, lowTree.stat? elsewhere full = .error (.os .nameTooLong)) ∧
    lowTree.holdsDir [['g']] = false ∧ lowTree.stat? [['g']] (climbing 1) = .ok ([['f']], .file 1) ∧
      ((sidewaysTool.decompiler Exec.launch [['g']]).decompile lowTree (climbing 1)).result =
        .error (.fileOpen (climbing 1) (.os .noEntry)) := by
  have sound : lowTree.Sound [['b']] := .of_admits (by decide) (by decide) (by decide)
  have found : lowTree.stat? [['b']] (climbing 1364) = .ok ([['f']], .file 1) :=
    stat?_climbing (by decide) (by decide) ['b']
  have there : isAbsolute (climbing 1364) = true ∨ lowTree.holdsDir [['b']] = true := .inr (by decide)
  have gone : decompiler.absolute [['g']] lowTree (climbing 1) = .error (.os .noEntry) :=
    absolute_of_removed (List.cons_ne_nil _ _) rfl (by decide)
  have long : ¬ Utf8.byteLength (fullText [['b']] (climbing 1364)) < pathLimit := by
    rw [byteLength_fullText_climbing (by decide)]
    decide
  obtain ⟨_, hne, _⟩ := checkText_of_stat? found
  have handed := absolute_of_there sound.wellNamed hne there
  generalize climbing 1364 = source at found there long hne handed ⊢
  refine ⟨⟨sound.wellNamed, found, fullText [['b']] source, ?_, fun elsewhere => ?_⟩, by decide,
    stat?_climbing (by decide) (by decide) ['g'], ?_⟩
  · simp [decompiler, handed, Exec.launch]
  · have rooted := holdsDir_start_of_there sound.toRooted there
    rw [stat?_fullText sound.wellNamed rooted found, if_neg long]
  · simp [decompiler, gone]

end Tool

end LuaTree
