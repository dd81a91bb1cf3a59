/-!
# Finite maps

`FiniteMap κ ν` is a finite map kept as a list of pairs with distinct keys. Everything that the
rest of the library stores (directory entries, file contents) is stored in one, and every fact about
a store is a fact about `get?`:

* `get?_insert`, `get?_erase`, `get?_keep` say what each update does to the view;
* `mem_keys` ties the list of keys to the view, so a map can also be enumerated.
-/

namespace LuaTree

/-- A finite map: pairs of a key and a value, no key twice. -/
structure FiniteMap (κ ν : Type) where
  entries : List (κ × ν) -- the pairs, latest insertion first
  distinct : (entries.map Prod.fst).Nodup -- no key occurs twice

namespace FiniteMap

variable {κ ν : Type}

/-- The map without entries. -/
def empty : FiniteMap κ ν := ⟨[], List.nodup_nil⟩

instance : Inhabited (FiniteMap κ ν) := ⟨empty⟩

def keys (m : FiniteMap κ ν) : List κ := m.entries.map Prod.fst

def size (m : FiniteMap κ ν) : Nat := m.entries.length

/-- Keeps the entries whose key passes the test. -/
def keep (m : FiniteMap κ ν) (test : κ → Bool) : FiniteMap κ ν where
  entries := m.entries.filter fun p => test p.1
  distinct := m.distinct.sublist (List.filter_sublist.map _)

variable [DecidableEq κ]

def get? (m : FiniteMap κ ν) (k : κ) : Option ν :=
  (m.entries.find? fun p => p.1 = k).map Prod.snd

def erase (m : FiniteMap κ ν) (k : κ) : FiniteMap κ ν := m.keep fun k' => k' ≠ k

/-- Sets the value at a key. -/
def insert (m : FiniteMap κ ν) (k : κ) (v : ν) : FiniteMap κ ν where
  entries := (k, v) :: (m.erase k).entries
  distinct := by
    refine List.nodup_cons.2 ⟨?_, (m.erase k).distinct⟩
    simp [erase, keep]

/-! ## What the updates do to the view -/

theorem get?_keep (m : FiniteMap κ ν) (test : κ → Bool) (k : κ) :
    (m.keep test).get? k = if test k then m.get? k else none := by
  have same : (fun p : κ × ν => decide (test p.1 = true ∧ decide (p.1 = k) = true)) =
      fun p => test k && decide (p.1 = k) := by
    funext p
    by_cases h : p.1 = k <;> simp [h]
  unfold get? keep
  rw [List.find?_filter, same]
  cases h : test k <;> simp

theorem get?_erase (m : FiniteMap κ ν) (k k' : κ) :
    (m.erase k).get? k' = if k' = k then none else m.get? k' := by
  rw [erase, get?_keep]
  by_cases h : k' = k <;> simp [h]

theorem get?_insert (m : FiniteMap κ ν) (k : κ) (v : ν) (k' : κ) :
    (m.insert k v).get? k' = if k' = k then some v else m.get? k' := by
  by_cases h : k' = k
  · subst h; simp [get?, insert]
  · have hne : ¬ k = k' := fun e => h e.symm
    have := get?_erase m k k'
    rw [if_neg h] at this ⊢
    rw [← this]
    simp [get?, insert, hne]

/-- The list of keys holds exactly the keys at which the map has a value. -/
theorem mem_keys (m : FiniteMap κ ν) (k : κ) : k ∈ m.keys ↔ (m.get? k).isSome := by
  simp only [keys, get?, Option.isSome_map, List.find?_isSome, List.mem_map, decide_eq_true_eq]

end FiniteMap

end LuaTree
