import LuaTree.Cli.Run
import LuaTree.Proofs.Cli.Values
import Mathlib.Data.List.TakeDrop
import Mathlib.Data.List.TakeWhile

/-!
# Spellings of a command line

`Spells` says how assignments can be written as arguments: options in any order and in any of their forms
(`Writes`), an input anywhere between them, and `--` with inputs after it. The scan carries out what is
spelled. It keeps a value in hand until the next argument, so what is related to the assignments is not the
state of the scan but what it would be settled to (`Scan.answer`): one spelling moves that on by one
assignment (`Writes.moves`), and all of them by all (`Spells.run`). Where the two fail they do not always
report the same mistake, since a second input is met before it is assigned (`Agrees`).
-/

namespace LuaTree.Arguments

/-! ## Spellings -/

/-- The long option of a slot. -/
def Slot.longName? : Slot → Option String
  | .input => none
  | .runtime => some "runtime"
  | .archive => some "archive"
  | .toolDirectory => some "tool-dir"
  | .jobs => some "jobs"
  | .verbosity => some "verbosity"

/-- The short option of a slot. -/
def Slot.letter? : Slot → Option Char
  | .jobs => some 'j'
  | .verbosity => some 'v'
  | _ => none

/-- An argument that is not taken for a value: a dash, and something behind it. -/
def LooksLikeOption (a : List Char) : Prop := a.head? = some '-' ∧ a ≠ ['-']

instance (a : List Char) : Decidable (LooksLikeOption a) := inferInstanceAs (Decidable (_ ∧ _))

/-- An option of a slot, without a value. -/
inductive Names : Slot → List Char → Prop
  | long {slot name} : slot.longName? = some name → Names slot ('-' :: '-' :: name.toList)
  | short {slot c} : slot.letter? = some c → Names slot ['-', c]

/-- The ways to write one assignment. -/
inductive Writes : Slot → List Char → List (List Char) → Prop
  | input {a} : ¬LooksLikeOption a → Writes .input a [a]
  | apart {slot opt value} : Names slot opt → ¬LooksLikeOption value → Writes slot value [opt, value]
  | long {slot name value} : slot.longName? = some name →
      Writes slot value ['-' :: '-' :: (name.toList ++ '=' :: value)]
  | short {slot c value} : slot.letter? = some c → value ≠ [] → value.head? ≠ some '=' →
      Writes slot value ['-' :: c :: value]
  | shortEquals {slot c value} : slot.letter? = some c → Writes slot value ['-' :: c :: '=' :: value]

/-- The ways to write assignments, one after the other. An option that finds no value has an empty one. -/
inductive Spells : List (Slot × List Char) → List (List Char) → Prop
  | nothing : Spells [] []
  | dashes (inputs) : Spells (inputs.map (.input, ·)) (['-', '-'] :: inputs)
  | write {slot value front assignments arguments} : Writes slot value front → Spells assignments arguments →
      Spells ((slot, value) :: assignments) (front ++ arguments)
  | lost {slot opt rest} : Names slot opt → (∀ a ∈ rest.head?, LooksLikeOption a) →
      Spells [(slot, [])] (opt :: rest)

variable {scan : Scan} {slot : Slot} {a value opt : List Char} {name : String} {c : Char}
  {front arguments : List (List Char)} {assignments : List (Slot × List Char)} {α β : Type}

/-! ## Meeting one argument -/

theorem Slot.ofLong?_longName? (h : slot.longName? = some name) :
    ofLong? name.toList = some slot ∧ '=' ∉ name.toList ∧ name.toList ≠ [] := by
  cases slot with
  | input => cases h
  | runtime | archive | toolDirectory | jobs | verbosity =>
    cases h
    decide

theorem Slot.ofShort?_letter? (h : slot.letter? = some c) : ofShort? c = some slot ∧ c ≠ '-' := by
  cases slot with
  | jobs | verbosity =>
    cases h
    decide
  | input | runtime | archive | toolDirectory => cases h

theorem span_of_not_mem {x : Char} {xs rest : List Char} (h : x ∉ xs) :
    (xs ++ x :: rest).span (· ≠ x) = (xs, x :: rest) ∧ xs.span (· ≠ x) = (xs, []) := by
  have all : ∀ y ∈ xs, decide (y ≠ x) = true := fun y hy => decide_eq_true fun heq => h (heq ▸ hy)
  rw [List.span_eq_takeWhile_dropWhile, List.span_eq_takeWhile_dropWhile]
  constructor
  · rw [List.takeWhile_append_of_pos all, List.dropWhile_append_of_pos all, List.takeWhile_cons,
      List.dropWhile_cons]
    simp
  · rw [List.takeWhile_eq_self_iff.2 all, List.dropWhile_eq_nil_iff.2 all]

theorem argument_long (opened : scan.optionsOver = false) (h : slot.longName? = some name) :
    scan.argument ('-' :: '-' :: (name.toList ++ '=' :: value)) = scan.option slot (some value) ∧
      scan.argument ('-' :: '-' :: name.toList) = scan.option slot none := by
  obtain ⟨named, plain, hne⟩ := Slot.ofLong?_longName? h
  have spans := @span_of_not_mem '=' name.toList value plain
  have dashes : ∀ {body}, body ≠ [] → scan.argument ('-' :: '-' :: body) = scan.long body := by
    intro body hb
    obtain ⟨c, rest, rfl⟩ := List.exists_cons_of_ne_nil hb
    simp [Scan.argument, opened]
  rw [dashes (by simp), dashes hne, Scan.long, Scan.long, spans.1, spans.2]
  simp [named]

theorem argument_short (opened : scan.optionsOver = false) (h : slot.letter? = some c) :
    scan.argument ['-', c] = scan.option slot none ∧
      scan.argument ('-' :: c :: '=' :: value) = scan.option slot (some value) ∧
      (value ≠ [] → value.head? ≠ some '=' →
        scan.argument ('-' :: c :: value) = scan.option slot (some value)) := by
  obtain ⟨named, hc⟩ := Slot.ofShort?_letter? h
  have dash : ∀ rest, scan.argument ('-' :: c :: rest) = scan.short c rest := fun rest => by
    simp [Scan.argument, opened, hc]
  refine ⟨?_, ?_, fun hne heq => ?_⟩
  · rw [dash, Scan.short, named]
  · rw [dash, Scan.short, named]
  · obtain ⟨d, rest, rfl⟩ := List.exists_cons_of_ne_nil hne
    have other : d ≠ '=' := fun hd => heq (by rw [hd]; rfl)
    rw [dash]
    simp [Scan.short, named, other]

theorem Names.argument (h : Names slot opt) (opened : scan.optionsOver = false) :
    scan.argument opt = scan.option slot none := by
  cases h with
  | long h => exact (@argument_long scan slot [] _ opened h).2
  | short h => exact (@argument_short scan slot [] _ opened h).1

/-- What does not look like an option is an option's value, or else an input. -/
theorem argument_value (opened : scan.optionsOver = false) (h : ¬LooksLikeOption a) :
    scan.argument a = match scan.held with
      | .option slot => .ok { scan with held := .value slot a }
      | _ => scan.positional a := by
  have shape : ∀ c rest, a ≠ '-' :: c :: rest := by
    rintro c rest rfl
    exact h ⟨rfl, by simp⟩
  unfold Scan.argument
  rw [opened]
  simp only [Bool.false_eq_true, if_false]
  split
  · exact absurd rfl (shape '-' [])
  · exact absurd rfl (shape '-' _)
  · exact absurd rfl (shape _ _)
  · rfl

/-! ## The state of a scan -/

/-- The values so far, with what is in hand put away. -/
def Scan.answer (scan : Scan) : Except Stop Given := scan.settle.map Scan.given

/-- The values after more arguments. -/
def Scan.run (scan : Scan) (arguments : List (List Char)) : Except Stop Given :=
  arguments.foldlM Scan.argument scan >>= Scan.answer

theorem Scan.answer_eq (scan : Scan) : scan.answer = match scan.held with
    | .nothing => .ok scan.given
    | .option slot => .error (.mistake (.noValue slot))
    | .value slot value => scan.given.set slot value := by
  obtain ⟨given, held, inputMet, optionsOver⟩ := scan
  unfold Scan.answer Scan.settle
  cases held with
  | nothing | option slot => rfl
  | value slot value =>
    dsimp only
    cases given.set slot value <;> rfl

theorem parse_eq (arguments : List PathText) :
    parse arguments = ( {} : Scan).run arguments >>= Given.settings := by
  unfold parse Scan.run Scan.answer
  cases arguments.foldlM Scan.argument {} with
  | error e => rfl
  | ok scan =>
    show (scan.settle >>= fun scan => scan.given.settings) = scan.settle.map Scan.given >>= Given.settings
    cases scan.settle <;> rfl

theorem Scan.run_append (scan : Scan) (front arguments : List (List Char)) :
    scan.run (front ++ arguments) = front.foldlM Scan.argument scan >>= fun next => next.run arguments := by
  unfold Scan.run
  rw [List.foldlM_append, bind_assoc]

/-- Either both have the same result, or mistakes were made. -/
inductive Agrees : Except Stop α → Except Stop α → Prop
  | ok x : Agrees (.ok x) (.ok x)
  | mistake m m' : Agrees (.error (.mistake m)) (.error (.mistake m'))

theorem Agrees.refl {x : Except Stop α} (h : ∀ e, x = .error e → ∃ m, e = .mistake m) : Agrees x x := by
  cases x with
  | ok x => exact .ok x
  | error e =>
    obtain ⟨m, rfl⟩ := h e rfl
    exact .mistake m m

theorem Agrees.bind {x y : Except Stop α} {f g : α → Except Stop β} (h : Agrees x y)
    (hf : ∀ a, Agrees (f a) (g a)) : Agrees (x >>= f) (y >>= g) := by
  cases h with
  | ok a => exact hf a
  | mistake m m' => exact .mistake m m'

/-- A scan between two assignments: no option waits for its value, and an input that was met counts. -/
structure Between (scan : Scan) : Prop where
  complete : ∀ slot, scan.held ≠ .option slot
  met : scan.inputMet → ∀ g, scan.answer = .ok g → g.get? .input ≠ none

/-- The step of a scan that carries out one assignment, or finds a mistake where that would make one. -/
inductive Moves (scan : Scan) (slot : Slot) (value : List Char) : Except Stop Scan → Prop
  | ok {next : Scan} : Between next → next.optionsOver = scan.optionsOver →
      next.answer = (scan.answer >>= fun g => g.set slot value) → Moves scan slot value (.ok next)
  | mistake {m m'} : (scan.answer >>= fun g => g.set slot value) = .error (.mistake m') →
      Moves scan slot value (.error (.mistake m))

/-- What is in hand can be put away, or is a mistake. -/
theorem Between.settle (between : Between scan) :
    (∃ m, scan.settle = .error (.mistake m) ∧ scan.answer = .error (.mistake m)) ∨
      ∃ g, scan.settle = .ok { scan with given := g, held := .nothing } ∧ scan.answer = .ok g := by
  obtain ⟨given, held, inputMet, optionsOver⟩ := scan
  cases held with
  | nothing => exact .inr ⟨given, rfl, rfl⟩
  | option slot => exact absurd rfl (between.complete slot)
  | value slot value =>
    unfold Scan.answer Scan.settle
    dsimp only
    cases hs : given.set slot value with
    | ok g => exact .inr ⟨g, rfl, rfl⟩
    | error e =>
      obtain ⟨m, rfl⟩ := Given.set_eq_error hs
      exact .inl ⟨m, rfl, rfl⟩

theorem Between.answer_eq_error (between : Between scan) {e : Stop} (h : scan.answer = .error e) :
    ∃ m, e = .mistake m := by
  obtain ⟨m, _, answer⟩ | ⟨g, _, answer⟩ := between.settle
  · cases h.symm.trans answer
    exact ⟨m, rfl⟩
  · cases h.symm.trans answer

theorem Given.input_of_set {g h : Given} (set : g.set slot value = .ok h) (hg : g.get? .input ≠ none) :
    h.get? .input ≠ none := by
  obtain ⟨free, x, _, got⟩ := Given.set_eq_ok.1 set
  rw [got]
  split
  · simp
  · exact hg

theorem Between.attached (between : Between scan) :
    Moves scan slot value (scan.option slot (some value)) := by
  unfold Scan.option
  obtain ⟨m, settle, answer⟩ | ⟨g, settle, answer⟩ := between.settle
  · rw [settle]
    exact .mistake (by rw [answer]; rfl)
  · rw [settle]
    cases hs : g.set slot value with
    | error e =>
      obtain ⟨m, rfl⟩ := Given.set_eq_error hs
      simp only [bind, Except.bind, hs]
      exact .mistake (by rw [answer]; exact hs)
    | ok h =>
      simp only [bind, Except.bind, hs]
      refine .ok ⟨by simp, fun met g' hg => ?_⟩ rfl (by rw [answer]; exact hs.symm)
      cases hg
      exact Given.input_of_set hs (between.met met g answer)

theorem Between.waiting (between : Between scan) (opened : scan.optionsOver = false)
    (h : ¬LooksLikeOption value) : Moves scan slot value (scan.option slot none >>= fun next =>
      next.argument value) := by
  unfold Scan.option
  obtain ⟨m, settle, answer⟩ | ⟨g, settle, answer⟩ := between.settle
  · rw [settle]
    exact .mistake (by rw [answer]; rfl)
  · rw [settle]
    simp only [bind, Except.bind, pure, Except.pure]
    rw [@argument_value { scan with given := g, held := .option slot } value opened h]
    have set : Scan.answer { scan with given := g, held := .value slot value } = g.set slot value :=
      Scan.answer_eq _
    refine .ok ⟨by simp, fun met g' hg => ?_⟩ rfl (by rw [set, answer]; rfl)
    rw [set] at hg
    exact Given.input_of_set hg (between.met met g answer)

theorem Between.positional (between : Between scan) : Moves scan .input a (scan.positional a) := by
  unfold Scan.positional
  by_cases met : scan.inputMet
  · rw [if_pos met]
    cases ha : scan.answer with
    | error e =>
      obtain ⟨m, rfl⟩ := between.answer_eq_error ha
      exact .mistake (by rw [ha]; rfl)
    | ok g =>
      cases hs : g.set .input a with
      | ok h => exact absurd (Given.set_eq_ok.1 hs).1 (between.met met g ha)
      | error e =>
        obtain ⟨m, rfl⟩ := Given.set_eq_error hs
        exact .mistake (by rw [ha]; exact hs)
  · rw [if_neg met]
    obtain ⟨m, settle, answer⟩ | ⟨g, settle, answer⟩ := between.settle
    · rw [settle]
      exact .mistake (by rw [answer]; rfl)
    · rw [settle]
      simp only [bind, Except.bind, pure, Except.pure]
      have set : Scan.answer { scan with given := g, held := .value .input a, inputMet := true } =
          g.set .input a := Scan.answer_eq _
      refine .ok ⟨by simp, fun _ g' hg => ?_⟩ rfl (by rw [set, answer]; rfl)
      rw [set] at hg
      obtain ⟨_, x, _, got⟩ := Given.set_eq_ok.1 hg
      simp [got]

theorem foldlM_single (scan : Scan) (a : List Char) : [a].foldlM Scan.argument scan = scan.argument a := by
  rw [List.foldlM_cons]
  exact bind_pure _

/-- The arguments that write an assignment carry it out. -/
theorem Writes.moves (h : Writes slot value front) (between : Between scan)
    (opened : scan.optionsOver = false) : Moves scan slot value (front.foldlM Scan.argument scan) := by
  cases h with
  | input h =>
    rw [foldlM_single, argument_value opened h]
    split
    · next heq => exact absurd heq (between.complete _)
    · exact between.positional
  | apart names h =>
    rw [List.foldlM_cons, names.argument opened]
    simp only [foldlM_single]
    exact between.waiting opened h
  | long h =>
    rw [foldlM_single, (argument_long opened h).1]
    exact between.attached
  | short h hne heq =>
    rw [foldlM_single, (argument_short opened h).2.2 hne heq]
    exact between.attached
  | shortEquals h =>
    rw [foldlM_single, (argument_short opened h).2.1]
    exact between.attached

/-! ## An option without its value -/

theorem settle_waiting (h : scan.held = .option slot) : scan.settle = .error (.mistake (.noValue slot)) := by
  rw [Scan.settle, h]

theorem positional_waiting (h : scan.held = .option slot) (a : List Char) :
    ∃ m, scan.positional a = .error (.mistake m) := by
  unfold Scan.positional
  split
  · exact ⟨_, rfl⟩
  · rw [settle_waiting h]
    exact ⟨_, rfl⟩

/-- Whatever looks like an option and comes where a value is awaited is a mistake, be it an option, a flag
or nothing of the kind. -/
theorem argument_waiting (h : scan.held = .option slot) (opened : scan.optionsOver = false)
    (looks : LooksLikeOption a) (hne : a ≠ ['-', '-']) : ∃ m, scan.argument a = .error (.mistake m) := by
  have option : ∀ slot' attached, ∃ m, scan.option slot' attached = .error (.mistake m) := by
    intro slot' attached
    rw [Scan.option, settle_waiting h]
    exact ⟨_, rfl⟩
  have flag : ∀ stop, ∃ m, scan.flag stop = .error (.mistake m) := by
    intro stop
    rw [Scan.flag, settle_waiting h]
    exact ⟨_, rfl⟩
  -- every branch settles what is in hand first, and that is what fails
  unfold Scan.argument
  rw [opened]
  simp only [Bool.false_eq_true, if_false]
  split
  · exact absurd rfl hne
  · unfold Scan.long
    dsimp only
    repeat' split
    all_goals first | exact option _ _ | exact flag _ | exact ⟨_, rfl⟩
  · unfold Scan.short
    repeat' split
    all_goals first | exact option _ _ | exact flag _ | exact ⟨_, rfl⟩
  · next dash =>
    obtain ⟨head, hd⟩ := looks
    cases a with
    | nil => cases head
    | cons c rest =>
      cases head
      cases rest with
      | nil => exact absurd rfl hd
      | cons d rest => exact absurd rfl (dash d rest)

theorem run_waiting (h : scan.held = .option slot) (opened : scan.optionsOver = false)
    (lost : ∀ a ∈ arguments.head?, LooksLikeOption a) : ∃ m, scan.run arguments = .error (.mistake m) := by
  have settled : ∀ {ended : Scan}, ended.held = .option slot →
      ended.answer = .error (.mistake (.noValue slot)) := by
    intro ended ho
    rw [Scan.answer_eq, ho]
  unfold Scan.run
  cases arguments with
  | nil => exact ⟨_, settled h⟩
  | cons a rest =>
    rw [List.foldlM_cons]
    by_cases hne : a = ['-', '-']
    · -- behind `--` the first input finds the option waiting, and so does the end
      subst hne
      have met : scan.argument ['-', '-'] = .ok { scan with optionsOver := true } := by
        simp [Scan.argument, opened]
      rw [met]
      cases rest with
      | nil => exact ⟨_, @settled { scan with optionsOver := true } h⟩
      | cons b rest =>
        obtain ⟨m, hm⟩ := @positional_waiting { scan with optionsOver := true } slot h b
        refine ⟨m, ?_⟩
        simp only [bind, Except.bind]
        rw [List.foldlM_cons]
        simp [Scan.argument, hm, bind, Except.bind]
    · obtain ⟨m, hm⟩ := argument_waiting h opened (lost a rfl) hne
      exact ⟨m, by rw [hm]; rfl⟩

/-! ## A whole command line -/

theorem Between.run_nil (between : Between scan) :
    Agrees (scan.run []) (scan.answer >>= fun g => g.setAll []) := by
  have unchanged : (scan.answer >>= fun g => g.setAll []) = scan.answer := bind_pure _
  rw [unchanged]
  exact .refl fun e he => between.answer_eq_error he

/-- One assignment is carried out, and then the others are. -/
theorem Moves.run (moves : Moves scan slot value (front.foldlM Scan.argument scan))
    (rest : ∀ next : Scan, Between next → next.optionsOver = scan.optionsOver →
      Agrees (next.run arguments) (next.answer >>= fun g => g.setAll assignments)) :
    Agrees (scan.run (front ++ arguments))
      (scan.answer >>= fun g => g.setAll ((slot, value) :: assignments)) := by
  have first : (scan.answer >>= fun g => g.setAll ((slot, value) :: assignments)) =
      (scan.answer >>= fun g => g.set slot value) >>= fun g => g.setAll assignments := by
    simp only [Given.setAll_cons, bind_assoc]
  rw [Scan.run_append, first]
  generalize front.foldlM Scan.argument scan = result at moves
  cases moves with
  | ok between same answer =>
    rw [← answer]
    exact rest _ between same
  | mistake hm =>
    rw [hm]
    exact .mistake _ _

/-- Behind `--` there are inputs only. -/
theorem Between.run_inputs (between : Between scan) (ended : scan.optionsOver = true)
    (inputs : List (List Char)) :
    Agrees (scan.run inputs) (scan.answer >>= fun g => g.setAll (inputs.map (Slot.input, ·))) := by
  induction inputs generalizing scan with
  | nil => exact between.run_nil
  | cons a inputs ih =>
    have met : [a].foldlM Scan.argument scan = scan.positional a := by
      rw [foldlM_single]
      simp [Scan.argument, ended]
    have moves : Moves scan .input a ([a].foldlM Scan.argument scan) := met ▸ between.positional
    exact moves.run fun next hb ho => ih hb (ho.trans ended)

/-- A scan carries out what is spelled. -/
theorem Spells.run (h : Spells assignments arguments) (between : Between scan)
    (opened : scan.optionsOver = false) :
    Agrees (scan.run arguments) (scan.answer >>= fun g => g.setAll assignments) := by
  induction h generalizing scan with
  | nothing => exact between.run_nil
  | dashes inputs =>
    have met : scan.run (['-', '-'] :: inputs) = Scan.run { scan with optionsOver := true } inputs := by
      unfold Scan.run
      rw [List.foldlM_cons]
      simp [Scan.argument, opened, bind, Except.bind]
    have same : Scan.answer { scan with optionsOver := true } = scan.answer := by
      rw [Scan.answer_eq, Scan.answer_eq]
    have behind : Between { scan with optionsOver := true } := ⟨between.complete, same ▸ between.met⟩
    rw [met, ← same]
    exact behind.run_inputs rfl inputs
  | write writes _ ih => exact (writes.moves between opened).run fun next hb ho => ih hb (ho.trans opened)
  | @lost slot opt rest names lost =>
    -- an option without its value stands for an assignment that cannot be read, and is no other mistake
    have unread : ∃ m, (scan.answer >>= fun g => g.setAll [(slot, [])]) = .error (.mistake m) := by
      cases ha : scan.answer with
      | error e =>
        obtain ⟨m, rfl⟩ := between.answer_eq_error ha
        exact ⟨m, rfl⟩
      | ok g =>
        cases hs : g.setAll [(slot, [])] with
        | error e =>
          obtain ⟨m, rfl⟩ := Given.setAll_eq_error hs
          exact ⟨m, hs⟩
        | ok h =>
          obtain ⟨_, _, reads, _⟩ := Given.setAll_eq_ok.1 hs
          obtain ⟨x, hx, _⟩ := reads _ List.mem_cons_self
          exact absurd hx not_reads_nil
    have mistaken : ∃ m, scan.run (opt :: rest) = .error (.mistake m) := by
      have met : scan.run (opt :: rest) = scan.option slot none >>= fun next => next.run rest := by
        unfold Scan.run
        rw [List.foldlM_cons, names.argument opened, bind_assoc]
      rw [met, Scan.option]
      obtain ⟨m, settle, _⟩ | ⟨g, settle, _⟩ := between.settle
      · rw [settle]
        exact ⟨m, rfl⟩
      · rw [settle]
        exact @run_waiting { scan with given := g, held := .option slot } slot rest rfl opened lost
    obtain ⟨m, hm⟩ := mistaken
    obtain ⟨m', hm'⟩ := unread
    rw [hm, hm']
    exact .mistake m m'

theorem parse_agrees (h : Spells assignments arguments) :
    Agrees (parse arguments) (( {} : Given).setAll assignments >>= Given.settings) := by
  have start : Between {} := ⟨by simp, by simp⟩
  rw [parse_eq]
  refine (h.run start rfl).bind fun g => .refl fun e he => ?_
  unfold Given.settings at he
  split at he
  · cases he
    exact ⟨_, rfl⟩
  · cases he

/-- Whatever way they are spelled, assignments that give an input, and any option at most once, are what is
parsed, with the default for every option that they do not give. Where an assignment is repeated or cannot
be read, or no input is given, the program ends with a usage error before it has done anything. -/
theorem parse_spelled (h : Spells assignments arguments) :
    (∀ (g : Given) input, g.Lists assignments → g.input = some input → parse arguments = .ok
      { input
        runtime := g.runtime.getD "java".toList
        archive := g.archive.getD "unluac.jar".toList
        toolDirectory := g.toolDirectory
        jobs := g.jobs.getD 1
        verbosity := g.verbosity.getD 1 }) ∧
    (¬(assignments.map Prod.fst).Nodup ∨ .input ∉ assignments.map Prod.fst ∨
        (∃ slot text, (slot, text) ∈ assignments ∧ ∀ x, ¬Reads slot text x) →
      ∃ m, parse arguments = .error (.mistake m) ∧ ∀ converter host s coloured,
        Cli.runBy converter host s arguments coloured =
          { exit := 2, stdout := "", stderr := m.message ++ "\n", store := s }) := by
  have agrees := parse_agrees h
  refine ⟨fun g input lists hi => ?_, fun wrong => ?_⟩
  · have settings : ( {} : Given).setAll assignments >>= Given.settings = g.settings := by
      rw [Given.setAll_eq_ok_iff_lists.2 lists]
      rfl
    rw [settings, Given.settings, hi] at agrees
    generalize parse arguments = result at agrees
    cases agrees
    rfl
  · have failed : ∀ settings, ( {} : Given).setAll assignments >>= Given.settings ≠ .ok settings := by
      intro settings hs
      cases hg : ( {} : Given).setAll assignments with
      | error e =>
        rw [hg] at hs
        cases hs
      | ok g =>
        rw [hg] at hs
        have lists := Given.setAll_eq_ok_iff_lists.1 hg
        rcases wrong with twice | missing | ⟨slot, text, hm, unread⟩
        · exact twice lists.once
        · have none : g.input = none := Option.map_eq_none_iff.1 (lists.only missing)
          rw [show (Except.ok g >>= Given.settings) = g.settings from rfl, Given.settings, none] at hs
          cases hs
        · obtain ⟨x, hx, _⟩ := lists.reads hm
          exact unread x hx
    generalize ( {} : Given).setAll assignments >>= Given.settings = expected at agrees failed
    cases hp : parse arguments with
    | ok settings =>
      rw [hp] at agrees
      cases agrees
      exact absurd rfl (failed settings)
    | error e =>
      rw [hp] at agrees
      cases agrees with
      | mistake m _ =>
        refine ⟨m, rfl, fun converter host s coloured => ?_⟩
        rw [Cli.runBy, hp]

/-- Options on both sides of an input, and a number that is out of range. -/
theorem parse_spelled_between :
    Spells [(.runtime, "r=s".toList), (.input, ['x']), (.jobs, "+07".toList)]
      ["--runtime=r=s".toList, ['x'], ['-', 'j'], "+07".toList] ∧
    parse ["--runtime=r=s".toList, ['x'], ['-', 'j'], "+07".toList] =
      .ok { input := ['x'], runtime := "r=s".toList, jobs := 7 } ∧
    Spells [(.verbosity, "256".toList), (.input, "-x".toList)] ["-v256".toList, ['-', '-'], "-x".toList] ∧
    ∃ m, parse ["-v256".toList, ['-', '-'], "-x".toList] = .error (.mistake m) := by
  have spelled : Spells [(.runtime, "r=s".toList), (.input, ['x']), (.jobs, "+07".toList)]
      ["--runtime=r=s".toList, ['x'], ['-', 'j'], "+07".toList] :=
    have free : ¬LooksLikeOption ['x'] := by decide
    have awaited : ¬LooksLikeOption "+07".toList := by decide
    have runtime : Slot.longName? .runtime = some "runtime" := rfl
    have jobs : Slot.letter? .jobs = some 'j' := rfl
    .write (@Writes.long _ _ "r=s".toList runtime) (.write (.input free)
      (.write (.apart (.short jobs) awaited) .nothing))
  have misspelled : Spells [(.verbosity, "256".toList), (.input, "-x".toList)]
      ["-v256".toList, ['-', '-'], "-x".toList] :=
    have verbosity : Slot.letter? .verbosity = some 'v' := rfl
    .write (@Writes.short _ _ "256".toList verbosity (by decide) (by decide)) (.dashes ["-x".toList])
  have lists : ({ input := some ['x'], runtime := some "r=s".toList, jobs := some 7 } : Given).Lists
      [(.runtime, "r=s".toList), (.input, ['x']), (.jobs, "+07".toList)] :=
    Given.setAll_eq_ok_iff_lists.1 (by decide)
  have unread : ∀ x, ¬Reads .verbosity "256".toList x := by
    intro x hx
    cases hx with
    | path _ hv _ => exact hv rfl
    | verbosity numeral range text =>
      have read := readVerbosity_eq_ok.2 ⟨range, _, numeral, text⟩
      have refused : (readVerbosity "256".toList).toOption = none := by decide
      rw [read] at refused
      cases refused
  refine ⟨spelled, (parse_spelled spelled).1 _ _ lists rfl, misspelled, ?_⟩
  obtain ⟨m, hm, _⟩ := (parse_spelled misspelled).2 (.inr (.inr ⟨_, _, List.mem_cons_self, unread⟩))
  exact ⟨m, hm⟩

end LuaTree.Arguments
