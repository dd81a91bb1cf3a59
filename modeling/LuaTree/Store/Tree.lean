import LuaTree.Path.Basic

/-!
# Trees of entries

A `Tree` keeps what stands at every location as a tree of names, so that a step from a directory to one of
its entries costs no more than looking through that directory. Brothers hang behind each other in a
`Forest`, a plain inductive type, so everything here is structural recursion.

All there is to know about a tree is `get?`. `update` changes what stands below one location, and
`get?_update` says what that does to every location; putting, taking and grafting are instances of it.
-/

namespace LuaTree

/-- The names on the way down from the root. -/
abbrev Location := List Name

/-- Named places beside each other, each with what stands there and the places below it. -/
inductive Forest (ε : Type) where
  | nil
  -- a place, and the ones beside it
  | node (name : Name) (held : Option ε) (below beside : Forest ε)

namespace Forest

variable {ε : Type}

def names : Forest ε → List Name
  | .nil => []
  | .node n _ _ beside => n :: beside.names

/-- Whether no two places beside each other have the same name, at any depth. -/
def Distinct : Forest ε → Prop
  | .nil => True
  | .node n _ below beside => n ∉ beside.names ∧ below.Distinct ∧ beside.Distinct

def find? : Forest ε → Name → Option (Option ε × Forest ε)
  | .nil, _ => none
  | .node m held below beside, n => if m = n then some (held, below) else beside.find? n

def set : Forest ε → Name → Option ε → Forest ε → Forest ε
  | .nil, n, held, below => .node n held below .nil
  | .node m old? old beside, n, held, below =>
    if m = n then .node m held below beside else .node m old? old (beside.set n held below)

def count (kind : ε → Bool) : Forest ε → Nat
  | .nil => 0
  | .node _ held below beside =>
    (if held.any kind then 1 else 0) + below.count kind + beside.count kind

/-- All entries with their locations, `above` being the location of the whole. -/
def entries (above : Location) : Forest ε → List (Location × ε)
  | .nil => []
  | .node n held below beside =>
    held.toList.map (fun e => (above ++ [n], e)) ++ below.entries (above ++ [n])
      ++ beside.entries above

def heldNames : Forest ε → List Name
  | .nil => []
  | .node n held _ beside => if held.isSome then n :: beside.heldNames else beside.heldNames

theorem Distinct.of_find? {f : Forest ε} (h : f.Distinct) {n : Name} {held : Option ε}
    {below : Forest ε} (found : f.find? n = some (held, below)) : below.Distinct := by
  induction f with
  | nil => simp [find?] at found
  | node m _ _ _ _ ih =>
    rw [find?] at found
    split at found
    · cases found
      exact h.2.1
    · exact ih h.2.2 found

theorem mem_names_set {f : Forest ε} {n m : Name} {held : Option ε} {below : Forest ε} :
    m ∈ (f.set n held below).names ↔ m = n ∨ m ∈ f.names := by
  induction f with
  | nil => simp [set, names]
  | node k _ _ _ _ ih =>
    rw [set]
    split
    · next h => subst h; simp [names]
    · simp only [names, List.mem_cons, ih]
      grind

theorem Distinct.set {f below : Forest ε} (h : f.Distinct) (hb : below.Distinct) (n : Name)
    (held : Option ε) : (f.set n held below).Distinct := by
  induction f with
  | nil => simp [Forest.set, Distinct, names, hb]
  | node k _ _ _ _ ih =>
    rw [Forest.set]
    split
    · exact ⟨h.1, hb, h.2.2⟩
    · next hne =>
      refine ⟨fun hmem => ?_, h.2.1, ih h.2.2⟩
      rcases mem_names_set.1 hmem with e | e
      · exact hne e
      · exact h.1 e

theorem find?_set (f : Forest ε) (n : Name) (held : Option ε) (below : Forest ε) (m : Name) :
    (f.set n held below).find? m = if m = n then some (held, below) else f.find? m := by
  induction f with
  | nil =>
    simp only [set, find?]
    grind
  | node k _ _ _ _ ih =>
    rw [set]
    split <;> grind [find?]

/-- A name is held exactly when an entry is found under it. -/
theorem mem_heldNames {f : Forest ε} (h : f.Distinct) (n : Name) :
    n ∈ f.heldNames ↔ ∃ e below, f.find? n = some (some e, below) := by
  have among : ∀ {g : Forest ε} {m : Name}, m ∈ g.heldNames → m ∈ g.names := by
    intro g m hm
    induction g with
    | nil => simp [heldNames] at hm
    | node k e? _ _ _ ih =>
      rw [heldNames] at hm
      rw [names, List.mem_cons]
      split at hm
      · exact (List.mem_cons.1 hm).imp_right ih
      · exact .inr (ih hm)
  induction f with
  | nil => simp [heldNames, find?]
  | node k e? _ beside _ ih =>
    have ih := ih h.2.2
    by_cases hk : k = n
    · subst hk
      have : k ∉ beside.heldNames := fun hm => h.1 (among hm)
      cases e? <;> simp [heldNames, find?, this]
    · have hk' : ¬ n = k := fun e => hk e.symm
      cases e? <;> simp [heldNames, find?, hk, hk', ih]

end Forest

/-- What stands at a location and below it. -/
structure Tree (ε : Type) where
  held : Option ε
  below : Forest ε
  distinct : below.Distinct -- no name occurs twice beside itself

namespace Tree

variable {ε : Type}

/-- The tree without entries. -/
def empty : Tree ε := ⟨none, .nil, trivial⟩

instance : Inhabited (Tree ε) := ⟨empty⟩

/-- The tree below a name; there is always one, if only an empty one. -/
def child (t : Tree ε) (n : Name) : Tree ε :=
  match h : t.below.find? n with
  | some (held, below) => ⟨held, below, t.distinct.of_find? h⟩
  | none => empty

def setChild (t : Tree ε) (n : Name) (c : Tree ε) : Tree ε :=
  ⟨t.held, t.below.set n c.held c.below, t.distinct.set c.distinct n c.held⟩

def sub (t : Tree ε) : Location → Tree ε
  | [] => t
  | n :: loc => (t.child n).sub loc

def get? (t : Tree ε) (loc : Location) : Option ε := (t.sub loc).held

def update (f : Tree ε → Tree ε) : Location → Tree ε → Tree ε
  | [], t => f t
  | n :: loc, t => t.setChild n (update f loc (t.child n))

def put (t : Tree ε) (loc : Location) (e : ε) : Tree ε := t.update (fun u => { u with held := some e }) loc

def take (t : Tree ε) (loc : Location) : Tree ε := t.update (fun u => { u with held := none }) loc

/-- Puts a whole tree at a location. -/
def graft (t : Tree ε) (loc : Location) (u : Tree ε) : Tree ε := t.update (fun _ => u) loc

/-- The names of the entries right below the top. -/
def names (t : Tree ε) : List Name := t.below.heldNames

def count (kind : ε → Bool) (t : Tree ε) : Nat :=
  (if t.held.any kind then 1 else 0) + t.below.count kind

def entries (t : Tree ε) : List (Location × ε) :=
  t.held.toList.map (fun e => ([], e)) ++ t.below.entries []

/-! ## What the updates do to the view -/

theorem child_setChild (t : Tree ε) (n : Name) (c : Tree ε) (m : Name) :
    (t.setChild n c).child m = if m = n then c else t.child m := by
  have key := Forest.find?_set t.below n c.held c.below m
  unfold child setChild
  split
  · next e b hf =>
    rw [hf] at key
    split at key
    · next h =>
      rw [if_pos h]
      cases key
      rfl
    · next h =>
      rw [if_neg h]
      split
      · next h2 => rw [h2] at key; cases key; rfl
      · next h2 => rw [h2] at key; cases key
  · next hf =>
    rw [hf] at key
    split at key
    · cases key
    · next h =>
      rw [if_neg h]
      split
      · next h2 => rw [h2] at key; cases key
      · rfl

theorem sub_append (t : Tree ε) (a b : Location) : t.sub (a ++ b) = (t.sub a).sub b := by
  induction a generalizing t with
  | nil => rfl
  | cons n a ih => exact ih (t.child n)

/-- A change at a location is seen there and below, and nowhere else. -/
theorem get?_update (f : Tree ε → Tree ε) (loc : Location) (t : Tree ε) (l : Location) :
    (t.update f loc).get? l =
      if loc.isPrefixOf l then (f (t.sub loc)).get? (l.drop loc.length) else t.get? l := by
  induction loc generalizing t l with
  | nil => simp [update, sub]
  | cons n loc ih =>
    cases l with
    | nil => simp [update, get?, sub, setChild]
    | cons m l =>
      by_cases h : m = n
      · subst h
        have := ih (t.child m) l
        simp only [get?] at this
        simp [get?, update, sub, child_setChild, this]
      · have hb : (n == m) = false := by simp only [beq_eq_false_iff_ne]; exact fun e => h e.symm
        simp [get?, update, sub, child_setChild, h, List.isPrefixOf, hb]

theorem get?_put (t : Tree ε) (loc : Location) (e : ε) (l : Location) :
    (t.put loc e).get? l = if l = loc then some e else t.get? l := by
  rw [put, get?_update]
  by_cases h : loc.isPrefixOf l
  · obtain ⟨rest, rfl⟩ := List.isPrefixOf_iff_prefix.1 h
    cases rest with
    | nil => simp [get?, sub]
    | cons n rest => simp [get?, sub, sub_append, child]
  · have : l ≠ loc := fun e => h (e ▸ List.isPrefixOf_iff_prefix.2 List.prefix_rfl)
    simp [h, this]

theorem get?_take (t : Tree ε) (loc l : Location) :
    (t.take loc).get? l = if l = loc then none else t.get? l := by
  rw [take, get?_update]
  by_cases h : loc.isPrefixOf l
  · obtain ⟨rest, rfl⟩ := List.isPrefixOf_iff_prefix.1 h
    cases rest with
    | nil => simp [get?, sub]
    | cons n rest => simp [get?, sub, sub_append, child]
  · have : l ≠ loc := fun e => h (e ▸ List.isPrefixOf_iff_prefix.2 List.prefix_rfl)
    simp [h, this]

/-- The names of a tree are those under which an entry is found. -/
theorem mem_names (t : Tree ε) (n : Name) : n ∈ t.names ↔ (t.get? [n]).isSome := by
  rw [names, Forest.mem_heldNames t.distinct, get?, sub, sub, child]
  split
  · next e b h => cases e <;> simp [h]
  · next h => simp [h, empty]

end Tree

end LuaTree
