import LuaTree.Cli.Console
import Mathlib.Data.List.Basic
import Mathlib.Data.List.Flatten

/-!
# What lines are printed as

The verbosity decides which notices are printed and nothing else, so a higher one adds lines to what is
printed (`lines_sublist`). What is printed of notices is one line for each of those that the verbosity
lets through (`render_notices`), with the message in it. Escaping leaves the messages alone that tell
nothing but numbers (`escape_message`).
-/

namespace LuaTree

/-- A text line by line. -/
def linesOf (t : String) : List (List Char) := t.toList.splitOn '\n'

namespace Console

variable {v w : Nat} {coloured : Bool}

/-! ## Which notices are printed -/

theorem isPrinted_mono (h : v ≤ w) {level : Level} (hv : isPrinted v level) : isPrinted w level := by
  have rank : (threshold v).rank ≤ (threshold w).rank := by
    rcases v with _ | _ | _ | v <;> rcases w with _ | _ | _ | w <;>
      simp [threshold, Level.rank] at h ⊢
  exact decide_eq_true (Nat.le_trans (of_decide_eq_true hv) rank)

theorem isPrinted_error (v : Nat) : isPrinted v .error := isPrinted_mono (Nat.zero_le v) rfl

/-- At the lowest verbosity only errors are printed. -/
theorem isPrinted_zero {level : Level} : isPrinted 0 level ↔ level = .error := by
  cases level <;> simp [isPrinted, threshold, Level.rank]

theorem isPrinted_warn : isPrinted v .warn ↔ 1 ≤ v := by
  rcases v with _ | _ | _ | v <;> simp [isPrinted, threshold, Level.rank]

theorem isPrinted_info : isPrinted v .info ↔ 2 ≤ v := by
  rcases v with _ | _ | _ | v <;> simp [isPrinted, threshold, Level.rank]

/-! ## Lines -/

/-- A line that is printed is printed in the same way at every higher verbosity. -/
theorem text?_mono (h : v ≤ w) {line : Line} {text : String} (hv : line.text? v coloured = some text) :
    line.text? w coloured = some text := by
  cases line with
  | plain t => exact hv
  | notice n =>
    unfold Line.text? at hv ⊢
    dsimp only at hv ⊢
    split at hv
    · next printed =>
      rw [if_pos (isPrinted_mono h printed)]
      exact hv
    · cases hv

theorem filterMap_sublist (h : v ≤ w) (lines : List Line) :
    (lines.filterMap (·.text? v coloured)).Sublist (lines.filterMap (·.text? w coloured)) := by
  induction lines with
  | nil => exact .slnil
  | cons line lines ih =>
    rw [List.filterMap_cons, List.filterMap_cons]
    cases hv : line.text? v coloured with
    | none =>
      cases line.text? w coloured with
      | none => exact ih
      | some _ => exact ih.cons _
    | some text =>
      rw [text?_mono h hv]
      exact ih.cons_cons text

/-- The lines of a transcript are those of the texts that are printed, and an empty one at the end. -/
theorem linesOf_render (lines : List Line) :
    linesOf (render v coloured lines) =
      (lines.filterMap (·.text? v coloured)).flatMap linesOf ++ [[]] := by
  unfold render
  generalize lines.filterMap (·.text? v coloured) = texts
  induction texts with
  | nil => rfl
  | cons text texts ih =>
    rw [List.map_cons, String.join_cons, linesOf, String.toList_append, String.toList_append,
      List.append_assoc]
    have cut := List.splitOnP_append_cons (p := (· == '\n')) text.toList
      (String.join (texts.map (· ++ "\n"))).toList (beq_self_eq_true '\n')
    rw [List.flatMap_cons, List.append_assoc, ← ih]
    exact cut

/-- A higher verbosity adds lines. -/
theorem lines_sublist (h : v ≤ w) (lines : List Line) :
    (linesOf (render v coloured lines)).Sublist (linesOf (render w coloured lines)) := by
  rw [linesOf_render, linesOf_render]
  exact ((filterMap_sublist h lines).flatMap linesOf).append (.refl _)

theorem render_append (xs ys : List Line) :
    render v coloured (xs ++ ys) = render v coloured xs ++ render v coloured ys := by
  unfold render
  rw [List.filterMap_append, List.map_append, String.join_append]

theorem render_plain (text : String) (lines : List Line) :
    render v coloured (.plain text :: lines) = text ++ "\n" ++ render v coloured lines := by
  have printed : Line.text? v coloured (.plain text) = some text := rfl
  unfold render
  rw [List.filterMap_cons_some printed, List.map_cons, String.join_cons]

/-! ## Notices -/

/-- What is printed of notices. -/
theorem render_notices (v : Nat) (coloured : Bool) (ns : List Notice) :
    render v coloured (ns.map .notice) =
      String.join ((ns.filter fun n => isPrinted v n.level).map fun n => noticeText coloured n ++ "\n") := by
  unfold render
  induction ns with
  | nil => rfl
  | cons n ns ih =>
    by_cases printed : isPrinted v n.level
    · have text : Line.text? v coloured (.notice n) = some (noticeText coloured n) := if_pos printed
      rw [List.map_cons, List.filterMap_cons_some text, List.filter_cons, if_pos printed, List.map_cons,
        List.map_cons, String.join_cons, String.join_cons, ih]
    · have text : Line.text? v coloured (.notice n) = none := if_neg printed
      rw [List.map_cons, List.filterMap_cons_none text, List.filter_cons, if_neg printed, ih]

theorem render_of_not_error {ns : List Notice} (h : ∀ n ∈ ns, n.level ≠ .error) :
    render 0 coloured (ns.map .notice) = "" := by
  have silent : (ns.filter fun n => isPrinted 0 n.level) = [] :=
    List.filter_eq_nil_iff.2 fun n hn printed => h n hn (isPrinted_zero.1 printed)
  rw [render_notices, silent]
  rfl

/-- The line of an error. -/
def errorLine (coloured : Bool) (message : String) : String :=
  (if coloured then "\x1b[31mERROR\x1b[0m" else "ERROR") ++ " " ++ escape message ++ "\n"

theorem render_error (v : Nat) (coloured : Bool) {n : Notice} (h : n.level = .error) :
    render v coloured [.notice n] = errorLine coloured n.message := by
  have printed : isPrinted v n.level := h ▸ isPrinted_error v
  have text : noticeText coloured n ++ "\n" = errorLine coloured n.message := by
    unfold noticeText errorLine
    rw [h]
    cases coloured <;> rfl
  have shown : [n].filter (fun n => isPrinted v n.level) = [n] :=
    List.filter_eq_self.2 fun m hm => List.mem_singleton.1 hm ▸ printed
  have line := render_notices v coloured [n]
  rw [shown] at line
  have joined : String.join [noticeText coloured n ++ "\n"] = noticeText coloured n ++ "\n" :=
    String.join_cons.trans String.append_empty
  exact line.trans (joined.trans text)

/-! ## Escaping -/

theorem escape_append (x y : String) : escape (x ++ y) = escape x ++ escape y := by
  unfold escape
  rw [String.toList_append, List.flatMap_append, String.ofList_append]

theorem escapeChar_of_isDigit {c : Char} (h : c.isDigit) : escapeChar c = [c] := by
  have range : 0x30 ≤ c.val ∧ c.val ≤ 0x39 := by simpa [Char.isDigit] using h
  have other : ∀ d : Char, ¬(0x30 ≤ d.val ∧ d.val ≤ 0x39) → c ≠ d := by
    rintro d hd rfl
    exact hd range
  have low : ¬(0x80 ≤ c.val ∧ c.val ≤ 0x9F) := fun high =>
    absurd (UInt32.le_trans high.1 range.2) (by decide)
  unfold escapeChar
  rw [if_neg (other _ (by decide)), if_neg (other _ (by decide)), if_neg (other _ (by decide)),
    if_neg (other _ (by decide)), if_neg (other _ (by decide)), if_neg low]

theorem escape_toString (n : Nat) : escape (toString n) = toString n := by
  have digits : ∀ c ∈ (toString n).toList, escapeChar c = [c] := by
    intro c hc
    have text : toString n = String.ofList (Nat.toDigits 10 n) := rfl
    rw [text, String.toList_ofList] at hc
    exact escapeChar_of_isDigit (Nat.isDigit_of_mem_toDigits (by decide) (by decide) hc)
  unfold escape
  rw [List.flatMap_congr digits, List.flatMap_singleton', String.ofList_toList]

theorem escape_seconds (hundredths : Nat) :
    escape (Notice.seconds hundredths) = Notice.seconds hundredths := by
  have point : escape "." = "." := by decide
  have zero : escape "0" = "0" := by decide
  unfold Notice.seconds
  dsimp only
  rw [escape_append, escape_append, escape_toString, point]
  split
  · rw [escape_append, zero, escape_toString]
  · rw [escape_toString]

/-- Messages that tell numbers are printed as they are. -/
theorem escape_message {n : Notice}
    (h : (∃ failed items, n = .someFailed failed items) ∨
      ∃ converted copied failed hundredths, n = .summary converted copied failed hundredths) :
    escape n.message = n.message := by
  rcases h with ⟨failed, items, rfl⟩ | ⟨converted, copied, failed, hundredths, rfl⟩
  · have of : escape " of " = " of " := by decide
    have files : escape " files failed" = " files failed" := by decide
    unfold Notice.message
    simp only [escape_append, escape_toString, of, files]
  · have one : escape "Converted " = "Converted " := by decide
    have two : escape ", copied " = ", copied " := by decide
    have three : escape ", failed " = ", failed " := by decide
    have four : escape " in " = " in " := by decide
    have five : escape "s" = "s" := by decide
    unfold Notice.message
    simp only [escape_append, escape_toString, escape_seconds, one, two, three, four, five]

end Console

end LuaTree
