import LuaTree.Text

/-!
# The order of encodings

Texts compare like their encodings do (`encode_lt_encode`): a character that comes before another one
has an encoding that comes before the other's at the first byte in which they differ.
-/

namespace LuaTree.Utf8

/-- Byte strings compare by their first byte, and only then by the rest. -/
theorem cons_ofNat_lt {m n : Nat} (hm : m < 256) (hn : n < 256) (x y : Bytes) :
    UInt8.ofNat m :: x < UInt8.ofNat n :: y ↔ m < n ∨ m = n ∧ x < y := by
  have value : ∀ {k}, k < 256 → (UInt8.ofNat k).toNat = k := fun hk => UInt8.toNat_ofNat_of_lt hk
  rw [List.cons_lt_cons_iff, UInt8.lt_iff_toNat_lt, ← UInt8.toNat_inj, value hm, value hn]

theorem toNat_lt (c : Char) : c.val.toNat < 0x110000 := by
  rcases c.valid with h | h <;> omega

/-- The encodings of two characters differ early enough for what follows not to matter. -/
theorem encodeChar_append_lt {c d : Char} (h : c < d) (x y : Bytes) :
    String.utf8EncodeChar c ++ x < String.utf8EncodeChar d ++ y := by
  have hlt : c.val.toNat < d.val.toNat := h
  have hc := toNat_lt c
  have hd := toNat_lt d
  unfold String.utf8EncodeChar
  generalize c.val.toNat = v at *
  generalize d.val.toNat = w at *
  -- the more bytes an encoding takes, the larger its first byte; of the same number of bytes, the
  -- first one that differs decides
  dsimp only
  split
  · split
    · simp only [List.cons_append, List.nil_append]
      rw [cons_ofNat_lt (by omega) (by omega)]
      omega
    · split
      · simp only [List.cons_append, List.nil_append]
        rw [cons_ofNat_lt (by omega) (by omega)]
        omega
      · split
        all_goals
          simp only [List.cons_append, List.nil_append]
          rw [cons_ofNat_lt (by omega) (by omega)]
          omega
  · have w1 : ¬w ≤ 0x7f := by omega
    rw [if_neg w1]
    split
    · split
      · simp only [List.cons_append, List.nil_append]
        rw [cons_ofNat_lt (by omega) (by omega), cons_ofNat_lt (by omega) (by omega)]
        omega
      · split
        all_goals
          simp only [List.cons_append, List.nil_append]
          rw [cons_ofNat_lt (by omega) (by omega)]
          omega
    · have w2 : ¬w ≤ 0x7ff := by omega
      rw [if_neg w2]
      split
      · split
        · simp only [List.cons_append, List.nil_append]
          rw [cons_ofNat_lt (by omega) (by omega), cons_ofNat_lt (by omega) (by omega),
            cons_ofNat_lt (by omega) (by omega)]
          omega
        · simp only [List.cons_append, List.nil_append]
          rw [cons_ofNat_lt (by omega) (by omega)]
          omega
      · have w3 : ¬w ≤ 0xffff := by omega
        rw [if_neg w3]
        simp only [List.cons_append, List.nil_append]
        rw [cons_ofNat_lt (by omega) (by omega), cons_ofNat_lt (by omega) (by omega),
          cons_ofNat_lt (by omega) (by omega), cons_ofNat_lt (by omega) (by omega)]
        -- the digits to base 64 one by one
        have digits : ∀ k, k / 262144 = k / 64 / 64 / 64 ∧ k / 4096 = k / 64 / 64 := by
          intro k
          omega
        rw [(digits v).1, (digits v).2, (digits w).1, (digits w).2]
        omega

/-- Texts compare like their encodings. -/
theorem encode_lt_encode {s t : List Char} (h : s < t) : encode s < encode t := by
  induction h with
  | @nil c t =>
    obtain ⟨b, rest, hb⟩ := List.exists_cons_of_ne_nil (String.utf8EncodeChar_ne_nil (c := c))
    show ([] : Bytes) < String.utf8EncodeChar c ++ encode t
    rw [hb]
    exact List.nil_lt_cons b _
  | @cons c s t _ ih => exact List.append_left_lt ih
  | @rel c s d t hcd => exact encodeChar_append_lt hcd (encode s) (encode t)

/-- So do sequences of texts, compared one by one. -/
theorem map_encode_lt_map_encode {ms ns : List (List Char)} (h : ms < ns) :
    ms.map encode < ns.map encode := by
  induction h with
  | nil => exact .nil
  | cons _ ih => exact .cons ih
  | rel hlt => exact .rel (encode_lt_encode hlt)

end LuaTree.Utf8
