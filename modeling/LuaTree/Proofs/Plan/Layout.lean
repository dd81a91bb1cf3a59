import LuaTree.Proofs.Plan.Items
import Mathlib.Data.List.Nodup

/-!
# How the items of a plan lie to each other

Sources and destinations mirror each other by their names, so what keeps destinations apart is what keeps
routes apart: no route goes on from the end of another (`Route.eq_of_isPrefix`), since a name of a walk
that leads to a file never leads to a directory as well. All this is about the components of paths;
nothing has to exist at the output.
-/

namespace LuaTree.Walk

open PathText Store

variable {s : Store} {cwd : Location} {input output : PathText} {ms ns : List Name}

/-- No route goes on from the end of another. -/
theorem Route.eq_of_isPrefix (hm : Route s cwd input output ms) (hn : Route s cwd input output ns)
    (h : ms <+: ns) : ms = ns := by
  by_contra hne
  have shorter : ms.length < ns.length :=
    Nat.lt_of_le_of_ne h.length_le fun heq => hne (h.eq_of_length heq)
  obtain ⟨loc, mode, hs⟩ := isDir_iff.1 (hn.through ms.length shorter)
  rw [← List.prefix_iff_eq_take.1 h] at hs
  rcases hm.file with hf | ⟨long, _⟩
  · obtain ⟨loc', i, hs'⟩ := isFile_iff.1 hf
    cases hs.symm.trans hs'
  · exact absurd (checkText_of_stat? hs).2.2 (Nat.not_lt.2 long)

end LuaTree.Walk

namespace LuaTree.Plan

open PathText Store

/-- How the items of a plan lie to each other, by the components of their paths. -/
structure Separated (plan : Plan) : Prop where
  sources : (plan.items.map fun item => components item.source).Nodup
  destinations : (plan.items.map fun item => components item.destination).Nodup
  /-- A destination is to the output root what its source is to the input. -/
  mirrored : ∀ item ∈ plan.items, ∃ way, components item.source = components plan.input ++ way ∧
    components item.destination = components plan.outputRoot ++ way
  /-- No destination is an ancestor of another. -/
  unnested : ∀ a ∈ plan.items, ∀ b ∈ plan.items,
    components a.destination <+: components b.destination → a = b
  /-- The destinations of an input that ends in a name are not below it. -/
  outside : finalName? plan.input ≠ none →
    ∀ item ∈ plan.items, ¬ components plan.input <+: components item.destination
  /-- So no destination equals, contains or lies inside a source. -/
  apart : finalName? plan.input ≠ none → ∀ a ∈ plan.items, ∀ b ∈ plan.items,
    ¬ components a.destination <+: components b.source ∧
      ¬ components b.source <+: components a.destination

variable {s : Store} {cwd : Location} {input output : PathText}

/-- Neither of two lists that part at some place goes on from the other. -/
theorem not_isPrefix_of_ne {α : Type} {m n : α} (h : m ≠ n) (l ms ns : List α) :
    ¬ l ++ m :: ms <+: l ++ n :: ns := by
  rw [List.prefix_append_right_inj, List.cons_prefix_cons]
  exact fun hp => h hp.1

theorem nodup_components {routes : List (List Name)} {p : PathText} (hp : p ≠ [])
    (names : ∀ ns ∈ routes, ∀ n ∈ ns, IsName n) (h : routes.Nodup) :
    (routes.map fun ns => components (joinAll p ns)).Nodup := by
  refine List.Nodup.map_on (fun ms hms ns hns heq => ?_) h
  have heq : components (joinAll p ms) = components (joinAll p ns) := heq
  rw [components_joinAll hp (names ms hms), components_joinAll hp (names ns hns),
    List.append_cancel_left_eq] at heq
  exact List.map_injective_iff.2 (fun _ _ => Component.name.inj) heq

/-- The output root of an input that ends in a name has the same components up to that name. -/
theorem exists_parting (hd : directoryOutput s cwd input = .ok output) (h : finalName? input ≠ none) :
    ∃ cs m n, m ≠ n ∧ components input = cs ++ [m] ∧ components output = cs ++ [n] := by
  obtain ⟨n, hn⟩ := Option.ne_none_iff_exists'.1 h
  obtain ⟨cs, hc⟩ := finalName?_eq_some.1 hn
  have isName : IsName n := isName_of_mem_components (hc ▸ List.mem_append_right cs List.mem_cons_self)
  have normal : Normal (cs ++ [.name n]) := hc ▸ normal_components input
  rw [directoryOutput_of_components s cwd hc, Except.ok.injEq] at hd
  refine ⟨cs, .name n, .name (n ++ directorySuffix), fun he => ?_, hc, ?_⟩
  · exact append_suffix_ne n (Component.name.inj he)
  · rw [← hd]
    exact components_ofComponents (.snoc normal.of_snoc.1 (.name (isName_append_suffix isName)))

theorem separated_ofDirectory (wellNamed : s.WellNamed) (h : s.isDir cwd input)
    (hd : directoryOutput s cwd input = .ok output) : (ofDirectory s cwd input output).Separated := by
  obtain ⟨routes, items, mem, sorted⟩ := items_ofDirectory wellNamed h output
  obtain ⟨top, mode, hs⟩ := isDir_iff.1 h
  obtain ⟨_, cs, dir, m, outlet⟩ := outlet_of_directoryOutput wellNamed hs hd
  have hi : input ≠ [] := (checkText_of_stat? hs).2.1
  have ho : output ≠ [] := by
    rw [outlet.text]
    exact ofComponents_ne_nil (.snoc outlet.base.normal (.name outlet.name))
      (List.append_ne_nil_of_right_ne_nil cs (List.cons_ne_nil _ []))
  have names : ∀ ns ∈ routes, ∀ n ∈ ns, IsName n := fun ns hns => ((mem ns).1 hns).names
  have source {ns : List Name} (hns : ns ∈ routes) := components_joinAll hi (names ns hns)
  have destination {ns : List Name} (hns : ns ∈ routes) := components_joinAll ho (names ns hns)
  have route {item : WorkItem} (hitem : item ∈ (ofDirectory s cwd input output).items) :
      ∃ ns ∈ routes, itemAt input output ns = item := List.mem_map.1 (items ▸ hitem)
  -- input and output part at their last components, which no name of a route takes back
  refine ⟨?_, ?_, fun item hitem => ?_, fun a ha b hb hab => ?_, fun final item hitem => ?_,
    fun final a ha b hb => ?_⟩
  · rw [items, List.map_map]
    exact nodup_components hi names (nodup_of_sorted sorted)
  · rw [items, List.map_map]
    exact nodup_components ho names (nodup_of_sorted sorted)
  · obtain ⟨ns, hns, rfl⟩ := route hitem
    exact ⟨ns.map .name, source hns, destination hns⟩
  · obtain ⟨ms, hms, rfl⟩ := route ha
    obtain ⟨ns, hns, rfl⟩ := route hb
    have hab : components (joinAll output ms) <+: components (joinAll output ns) := hab
    rw [destination hms, destination hns, List.prefix_append_right_inj] at hab
    have hmn : ms <+: ns := (List.prefix_map_iff_of_injective fun _ _ => Component.name.inj).1 hab
    rw [((mem ms).1 hms).eq_of_isPrefix ((mem ns).1 hns) hmn]
  · obtain ⟨ns, hns, rfl⟩ := route hitem
    obtain ⟨ds, c, c', hne, hci, hco⟩ := exists_parting hd final
    show ¬ components input <+: components (joinAll output ns)
    rw [destination hns, hci, hco, List.append_assoc]
    exact not_isPrefix_of_ne hne ds [] _
  · obtain ⟨ms, hms, rfl⟩ := route ha
    obtain ⟨ns, hns, rfl⟩ := route hb
    obtain ⟨ds, c, c', hne, hci, hco⟩ := exists_parting hd final
    show ¬ components (joinAll output ms) <+: components (joinAll input ns) ∧
      ¬ components (joinAll input ns) <+: components (joinAll output ms)
    rw [destination hms, source hns, hci, hco, List.append_assoc, List.append_assoc]
    exact ⟨not_isPrefix_of_ne hne.symm ds _ _, not_isPrefix_of_ne hne ds _ _⟩

/-- A directory is refused because there is no canonical text to name its output by, or it has a plan, and
its items never get in each other's way. -/
theorem ofInput_separated (wellNamed : s.WellNamed) (h : s.isDir cwd input) :
    (∃ cause, Stranded s cwd input cause ∧ ofInput s cwd input = .error (.fileOpen input cause)) ∨
      ∃ plan, ofInput s cwd input = .ok plan ∧ plan.kind = .directory ∧ plan.input = input ∧
        plan.Separated := by
  rcases stranded_or_planned h with ⟨cause, stranded⟩ | ⟨output, hd, planned⟩
  · exact .inl ⟨cause, stranded, ofInput_of_stranded stranded⟩
  · exact .inr ⟨_, planned, rfl, rfl, separated_ofDirectory wellNamed h hd⟩

theorem ofInput_separated_linkedTree : linkedTree.WellNamed ∧ linkedTree.isDir [] "i/.".toList ∧
    ∃ plan, ofInput linkedTree [] "i/.".toList = .ok plan ∧ plan.kind = .directory ∧
      plan.input = "i/.".toList ∧ plan.Separated := by
  have sound : linkedTree.Sound [] := .of_admits (by decide) (by decide) (by decide)
  have dir : linkedTree.isDir [] "i/.".toList := by decide
  refine ⟨sound.wellNamed, dir, (ofInput_separated sound.wellNamed dir).resolve_left ?_⟩
  rintro ⟨cause, stranded, _⟩
  exact absurd stranded.nameless (by decide)

end LuaTree.Plan
