import LuaTree.Cli.Number

/-!
# Which texts are numbers

A numeral is one digit or more, and its value is read off from left to right, as `Nat.ofDigitChars` does.
What the command line reads as a number is a numeral, with a sign in front or without, whose value is
within bounds (`unsigned_eq_ok`, `signed_eq_ok`): that a number is refused as soon as it is above its bound
makes no difference, since more digits only make it larger.
-/

namespace LuaTree.Number

variable {bound read n : Nat} {excess : Fault} {ds t : List Char}

/-- Digits that write a number. -/
structure Numeral (ds : List Char) (n : Nat) : Prop where
  ne_nil : ds ≠ []
  digits : ∀ c ∈ ds, c.isDigit
  value : Nat.ofDigitChars 10 ds 0 = n

theorem Numeral.head_isDigit {c : Char} (h : Numeral (c :: ds) n) : c.isDigit := h.digits c List.mem_cons_self

theorem digit?_eq (c : Char) : digit? c = if c.isDigit then some (c.toNat - '0'.toNat) else none := by
  have range : ('0' ≤ c ∧ c ≤ '9') ↔ c.isDigit = true := by
    simp [Char.isDigit, Char.le_def]
  simp only [digit?, range]

/-- More digits only make a number larger. -/
theorem le_ofDigitChars (ds : List Char) (read : Nat) : read ≤ Nat.ofDigitChars 10 ds read := by
  induction ds generalizing read with
  | nil => exact Nat.le_refl read
  | cons c ds ih =>
    rw [Nat.ofDigitChars_cons]
    exact Nat.le_trans (by omega) (ih _)

/-- Digits are read as the number that they write, if that is within the bound. -/
theorem digits_eq_ok (hb : read ≤ bound) : digits bound excess read ds = .ok n ↔
    (∀ c ∈ ds, c.isDigit) ∧ Nat.ofDigitChars 10 ds read = n ∧ n ≤ bound := by
  induction ds generalizing read with
  | nil =>
    constructor
    · intro h
      cases h
      exact ⟨by simp, rfl, hb⟩
    · rintro ⟨_, rfl, _⟩
      rfl
  | cons c ds ih =>
    rw [digits, digit?_eq, Nat.ofDigitChars_cons, List.forall_mem_cons, Nat.mul_comm read]
    by_cases hc : c.isDigit
    · rw [if_pos hc]
      dsimp only
      by_cases hlarge : bound < 10 * read + (c.toNat - '0'.toNat)
      · rw [if_pos hlarge]
        have more := le_ofDigitChars ds (10 * read + (c.toNat - '0'.toNat))
        constructor
        · intro h
          cases h
        · rintro ⟨_, rfl, hn⟩
          omega
      · rw [if_neg hlarge, ih (Nat.not_lt.1 hlarge), and_assoc]
        simp [hc]
    · simp [hc]

theorem digits_eq_ok_of_ne_nil (hne : ds ≠ []) :
    digits bound excess 0 ds = .ok n ↔ n ≤ bound ∧ Numeral ds n := by
  rw [digits_eq_ok (Nat.zero_le bound)]
  exact ⟨fun ⟨all, value, hn⟩ => ⟨hn, hne, all, value⟩, fun ⟨hn, h⟩ => ⟨h.digits, h.value, hn⟩⟩

/-- A sign is no digit. -/
theorem Numeral.no_sign {c : Char} (h : Numeral ds n) (hc : c.isDigit = false) {rest : List Char} :
    ds ≠ c :: rest := by
  rintro rfl
  exact absurd h.head_isDigit (by simp [hc])

/-- Read without a minus sign, a number is a numeral with a plus sign or without. -/
theorem unsigned_eq_ok : unsigned bound t = .ok n ↔
    n ≤ bound ∧ ∃ ds, Numeral ds n ∧ (t = ds ∨ t = '+' :: ds) := by
  unfold unsigned
  split
  · constructor
    · intro h
      cases h
    · rintro ⟨_, ds, h, rfl | ht⟩
      · exact absurd rfl h.ne_nil
      · cases ht
  · constructor
    · intro h
      cases h
    · rintro ⟨_, ds, h, rfl | ht⟩
      · exact absurd rfl (h.no_sign (by decide))
      · cases ht
        exact absurd rfl h.ne_nil
  · next ds hne =>
    rw [digits_eq_ok_of_ne_nil fun h => hne (by rw [h])]
    constructor
    · rintro ⟨hn, h⟩
      exact ⟨hn, ds, h, .inr rfl⟩
    · rintro ⟨hn, _, h, rfl | ht⟩
      · exact absurd rfl (h.no_sign (by decide))
      · cases ht
        exact ⟨hn, h⟩
  · next h0 _ hplus =>
    rw [digits_eq_ok_of_ne_nil h0]
    constructor
    · rintro ⟨hn, h⟩
      exact ⟨hn, _, h, .inl rfl⟩
    · rintro ⟨hn, ds, h, rfl | ht⟩
      · exact ⟨hn, h⟩
      · exact absurd ht (hplus ds)

/-- Read with any sign, a number without a minus sign is what it is read without. -/
theorem signed_of_no_minus (h : ∀ ds, t ≠ '-' :: ds) :
    signed bound t = (unsigned bound t).map Int.ofNat := by
  cases t with
  | nil => rfl
  | cons c rest =>
    by_cases hc : c = '+'
    · subst hc
      cases rest with
      | nil => rfl
      | cons c rest => rfl
    · have hm : c ≠ '-' := fun hm => h rest (by rw [hm])
      have plain : unsigned bound (c :: rest) = digits bound .tooLarge 0 (c :: rest) := by
        unfold unsigned
        split <;> simp_all
      rw [plain]
      unfold signed
      split <;> simp_all

theorem signed_minus (hne : ds ≠ []) : signed bound ('-' :: ds) =
    (digits (bound + 1) .tooSmall 0 ds).map fun n => -Int.ofNat n := by
  obtain ⟨c, ds, rfl⟩ := List.exists_cons_of_ne_nil hne
  rfl

/-- Read with any sign, a number is a numeral with a sign or without. -/
theorem signed_eq_ok {z : Int} : signed bound t = .ok z ↔ ∃ ds n, Numeral ds n ∧
    (z = n ∧ n ≤ bound ∧ (t = ds ∨ t = '+' :: ds) ∨ z = -n ∧ n ≤ bound + 1 ∧ t = '-' :: ds) := by
  -- the number behind a minus sign may be larger by one; any other text is read as one without a sign
  by_cases hminus : ∃ ds, t = '-' :: ds
  · obtain ⟨ds, rfl⟩ := hminus
    have other : ∀ {ds' n}, Numeral ds' n → ¬('-' :: ds = ds' ∨ '-' :: ds = '+' :: ds') := by
      rintro ds' n h (rfl | hp)
      · exact h.no_sign (by decide) rfl
      · cases hp
    by_cases hne : ds = []
    · subst hne
      constructor
      · intro h
        cases h
      · rintro ⟨ds', n, h, ⟨_, _, ht⟩ | ⟨_, _, ht⟩⟩
        · exact absurd ht (other h)
        · exact absurd (List.cons.inj ht).2.symm h.ne_nil
    · rw [signed_minus hne]
      constructor
      · intro h
        cases hd : digits (bound + 1) .tooSmall 0 ds with
        | error f =>
          rw [hd] at h
          cases h
        | ok n =>
          rw [hd] at h
          cases h
          obtain ⟨hn, numeral⟩ := (digits_eq_ok_of_ne_nil hne).1 hd
          exact ⟨ds, n, numeral, .inr ⟨rfl, hn, rfl⟩⟩
      · rintro ⟨ds', n, h, ⟨_, _, ht⟩ | ⟨rfl, hn, ht⟩⟩
        · exact absurd ht (other h)
        · obtain rfl := (List.cons.inj ht).2
          rw [(digits_eq_ok_of_ne_nil hne).2 ⟨hn, h⟩]
          rfl
  · rw [not_exists] at hminus
    rw [signed_of_no_minus hminus]
    constructor
    · intro h
      cases hu : unsigned bound t with
      | error f =>
        rw [hu] at h
        cases h
      | ok n =>
        rw [hu] at h
        cases h
        obtain ⟨hn, ds, numeral, ht⟩ := unsigned_eq_ok.1 hu
        exact ⟨ds, n, numeral, .inl ⟨rfl, hn, ht⟩⟩
    · rintro ⟨ds, n, h, ⟨rfl, hn, ht⟩ | ⟨_, _, ht⟩⟩
      · rw [unsigned_eq_ok.2 ⟨hn, ds, h, ht⟩]
        rfl
      · exact absurd ht (hminus ds)

end LuaTree.Number
