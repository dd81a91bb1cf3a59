import LuaTree.Proofs.Cli.Exit
import LuaTree.Proofs.Cli.Printing
import LuaTree.Proofs.Convert.Failures
import Mathlib.Data.List.Flatten

/-!
# What is printed

A higher verbosity adds lines to the transcript (`lines_sublist`), and the lowest leaves the lines about the
items, each of which has a block of its own (`ItemReport.block`), or the one line about an input that cannot
be used. The two halves are put together in `transcript`.
-/

namespace LuaTree

open Console

/-! ## The block of an item -/

/-- What a failed process printed, under headings. -/
def ProcessOutput.block (o : ProcessOutput) : String :=
  "Standard Output:\n" ++ String.ofList (Utf8.decodeLossy o.stdout) ++ "\nStandard Error:\n" ++
    String.ofList (Utf8.decodeLossy o.stderr) ++ "\n"

/-- What is printed about an item at the lowest verbosity. -/
def ItemReport.block (coloured : Bool) (r : ItemReport) : String :=
  match r.result with
  | .ok _ => String.ofList r.item.source ++ "\n"
  | .error e =>
    (match e with
      | .decompilerFailed _ o => o.block
      | _ => "") ++
      errorLine coloured ("Failed to process " ++ String.ofList r.item.source ++ ": " ++ e.message)

namespace Cli

open PathText Store Plan

variable {host : Host} {s : Store} {settings : Settings} {arguments : List PathText} {coloured : Bool}

theorem render_diagnostics (o : ProcessOutput) :
    render 0 coloured [.plain "Standard Output:", .plain (String.ofList (Utf8.decodeLossy o.stdout)),
      .plain "Standard Error:", .plain (String.ofList (Utf8.decodeLossy o.stderr))] = o.block := by
  have none : render 0 coloured [] = "" := rfl
  have out : "Standard Output:" ++ "\n" = "Standard Output:\n" := rfl
  have err : "\n" ++ ("Standard Error:" ++ "\n") = "\nStandard Error:\n" := rfl
  unfold ProcessOutput.block
  generalize String.ofList (Utf8.decodeLossy o.stdout) = printed
  generalize String.ofList (Utf8.decodeLossy o.stderr) = complaints
  rw [render_plain, render_plain, render_plain, render_plain, none, out, ← err]
  simp only [String.append_assoc, String.append_empty]

theorem render_itemLines (r : ItemReport) : render 0 coloured (itemLines r) = r.block coloured := by
  obtain ⟨item, result⟩ := r
  cases result with
  | ok outcome =>
    have silent : render 0 coloured ([.finished outcome item.source].map .notice) = "" :=
      render_of_not_error fun n hn => List.mem_singleton.1 hn ▸ nofun
    show render 0 coloured ([.finished outcome item.source].map .notice ++
      [.plain (String.ofList item.source)]) = _
    rw [render_append, silent, render_plain]
    exact String.empty_append.trans String.append_empty
  | error e =>
    have failure := render_error 0 coloured (n := .itemFailed item.source e) rfl
    unfold itemLines ItemReport.block
    dsimp only
    rw [render_append, failure]
    refine congrArg (fun t => t ++ errorLine coloured _) ?_
    cases e with
    | decompilerFailed p o =>
      exact render_diagnostics o
    | invalidInput _ | unknownExecutable _ | walk _ | fileOpen _ _ | fileRead _ _ | fileWrite _ _
    | createDir _ _ | copy _ _ _ | decompilerSpawn _ _ | decompilerIo _ _ => rfl

/-- Where nothing said is an error, the blocks of the items are all that is printed of a batch. -/
theorem render_events {events : List BatchEvent} (h : ∀ n, .said n ∈ events → n.level ≠ .error) :
    render 0 coloured (events.flatMap eventLines) =
      String.join ((events.filterMap (·.finished?)).map (·.block coloured)) := by
  induction events with
  | nil => rfl
  | cons e events ih =>
    have rest := ih fun n hn => h n (List.mem_cons_of_mem e hn)
    rw [List.flatMap_cons, render_append, rest]
    cases e with
    | said n =>
      have silent : render 0 coloured ([n].map .notice) = "" :=
        render_of_not_error fun m hm => List.mem_singleton.1 hm ▸ h n List.mem_cons_self
      rw [List.filterMap_cons_none rfl]
      show render 0 coloured ([n].map .notice) ++ _ = _
      rw [silent, String.empty_append]
    | finished r =>
      have first : BatchEvent.finished? (.finished r) = some r := rfl
      rw [List.filterMap_cons_some first, List.map_cons, String.join_cons]
      exact congrArg (· ++ _) (render_itemLines r)

/-! ## A session, quietly -/

/-- Nothing that is said in a batch is an error. -/
theorem level_of_inOrder (t : Tool) (launch : Launcher) (cwd : Location) (jobs : Nat) (s : Store)
    (items : List WorkItem) (n : Notice)
    (h : .said n ∈ (Converter.inOrder (t.decompiler launch cwd) cwd jobs s items).events) :
    n.level ≠ .error := by
  rw [← Converter.scheduled_sequential] at h
  exact Tool.said_scheduled (P := fun n => n.level ≠ .error) (fun _ _ => nofun) (fun _ => nofun)
    (fun _ => nofun) (fun _ _ _ => nofun) t launch cwd _ jobs s items n h

/-- The answers of a tool that was not started hold no output of a process. -/
theorem plainspoken_tool (t : Tool) (launch : Launcher) (cwd : Location) :
    (t.decompiler launch cwd).Plainspoken := by
  intro u p e h
  rcases t.decompile_cases launch cwd u p with ⟨cause, answer⟩ | ⟨full, answer⟩
  · rw [answer] at h
    cases h
    rfl
  · rw [answer] at h
    dsimp only at h
    cases hl : (launch u cwd (t.invocation full)).1 with
    | error cause =>
      rw [hl] at h
      cases h
      rfl
    | ok o =>
      rw [hl] at h
      cases h

/-- Every item of a batch is converted in the store that the ones before it left. -/
theorem exists_store_of_mem {d : Decompiler} {cwd : Location} {items : List WorkItem} {run : ItemRun}
    (h : run ∈ (convertItems d cwd s items).1) :
    ∃ before, run = convertItem d cwd before run.report.item := by
  induction items generalizing s with
  | nil => cases h
  | cons item items ih =>
    rcases List.mem_cons.1 h with rfl | h
    · exact ⟨s, rfl⟩
    · exact ih h

/-- What the program prints at the lowest verbosity. -/
structure Quiet (host : Host) (s : Store) (settings : Settings) (coloured : Bool) (outcome : Outcome) :
    Prop where
  unusable : ¬s.isDir host.cwd settings.input → ¬s.isFile host.cwd settings.input →
    outcome.stdout = errorLine coloured
      ("input path is neither a file nor a directory: " ++ String.ofList settings.input)
  stranded : ∀ cause, Stranded s host.cwd settings.input cause → outcome.stdout = "" ∧ outcome.exit = 1
  toolless : ∀ plan e, Plan.ofInput s host.cwd settings.input = .ok plan →
    tool host settings = .error e → outcome.stdout = "" ∧ outcome.exit = 1
  converted : ∀ plan t, Plan.ofInput s host.cwd settings.input = .ok plan → tool host settings = .ok t →
    let d := t.decompiler host.launch host.cwd
    ∃ batch, convertPath d host.cwd settings.jobs s settings.input = .ok (plan, batch) ∧
      batch.report.items.map (·.item) = plan.items ∧
      outcome.stdout = String.join (batch.report.items.map (·.block coloured)) ∧
      ∀ run ∈ batch.runs, ∃ before, run = convertItem d host.cwd before run.report.item ∧
        ∀ p o, run.report.result = .error (.decompilerFailed p o) ↔ p = run.report.item.source ∧
          ∃ k, ItemState.Rejected d run.report.item
            (ItemState.steps d host.cwd run.report.item k (.initial before)) o

theorem quiet_outcome (host : Host) (s : Store) (settings : Settings) (coloured : Bool) :
    Quiet host s settings coloured ((convert host s settings).outcome 0 coloured) := by
  refine ⟨?_, ?_, ?_, ?_⟩
  · intro hd hf
    have refused := ofInput_eq_error.2 (.inl ⟨hd, hf, rfl⟩)
    rw [convert, convertBy_of_unusable .inOrder refused]
    exact render_error 0 coloured rfl
  · intro cause stranded
    rw [convert, convertBy_of_stranded .inOrder stranded]
    exact ⟨rfl, rfl⟩
  · intro plan e planned missing
    rw [convert, convertBy_of_no_tool .inOrder planned missing]
    refine ⟨render_of_not_error fun n hn => ?_, rfl⟩
    rcases Plan.mem_notices hn with ⟨_, rfl⟩ | ⟨_, _, rfl⟩
    · exact nofun
    · exact nofun
  · intro plan t planned found d
    refine ⟨convertBatch d host.cwd settings.jobs s plan.items, ?_, ?_, ?_, ?_⟩
    · rw [convertPath, planned]
      rfl
    · exact Converter.items_inOrder d host.cwd settings.jobs s plan.items
    · rw [convert, convertBy_of_plan .inOrder planned found rfl]
      show render 0 coloured _ = _
      rw [closingLines_eq, render_append, render_append, render_events (level_of_inOrder t _ _ _ s _),
        render_of_not_error fun n hn => (mem_openingNotices hn).2.1,
        render_of_not_error fun n hn => (mem_closingNotices hn).2.1, Converter.finished_inOrder]
      exact String.append_empty.trans String.empty_append
    · intro run hrun
      obtain ⟨before, whole⟩ := exists_store_of_mem hrun
      refine ⟨before, whole, fun p o => ?_⟩
      rw [← result_eq_decompilerFailed (plainspoken_tool t host.launch host.cwd), ← whole]

/-! ## Two runs -/

/-- The clock has no say in what the program does. -/
theorem convert_elapsed (host : Host) (s : Store) (settings : Settings) (elapsed : Nat) :
    (convert { host with elapsed } s settings).failure = (convert host s settings).failure ∧
      (convert { host with elapsed } s settings).store = (convert host s settings).store ∧
      ∀ directory, (convert { host with elapsed } s settings).invocations directory =
        (convert host s settings).invocations directory := by
  cases planned : Plan.ofInput s host.cwd settings.input with
  | error e =>
    have planned' : Plan.ofInput s ({ host with elapsed } : Host).cwd settings.input = .error e := planned
    rcases ofInput_eq_error.1 planned with ⟨_, _, rfl⟩ | ⟨cause, stranded, rfl⟩
    · rw [convert, convert, convertBy_of_unusable .inOrder planned,
        convertBy_of_unusable .inOrder planned']
      exact ⟨rfl, rfl, fun _ => rfl⟩
    · have stranded' : Stranded s ({ host with elapsed } : Host).cwd settings.input cause := stranded
      rw [convert, convert, convertBy_of_stranded .inOrder stranded,
        convertBy_of_stranded .inOrder stranded']
      exact ⟨rfl, rfl, fun _ => rfl⟩
  | ok plan =>
    have planned' : Plan.ofInput s ({ host with elapsed } : Host).cwd settings.input = .ok plan := planned
    cases found : tool host settings with
    | error e =>
      have found' : tool { host with elapsed } settings = .error e := found
      rw [convert, convert, convertBy_of_no_tool .inOrder planned found,
        convertBy_of_no_tool .inOrder planned' found']
      exact ⟨rfl, rfl, fun _ => rfl⟩
    | ok t =>
      have found' : tool { host with elapsed } settings = .ok t := found
      have whole := convertBy_of_plan .inOrder planned found rfl
      have whole' := convertBy_of_plan .inOrder planned' found' rfl
      refine ⟨?_, ?_, fun directory => ?_⟩
      · rw [convert, convert, whole, whole']
      · rw [convert, convert, whole, whole']
      · rw [convert, convert, invocations_convertBy .inOrder planned found rfl,
          invocations_convertBy .inOrder planned' found' rfl]

/-- Verbosity only adds lines, and the quiet transcript is exact. For every store and host, and any two
lists of arguments that differ in the verbosity only, the items being taken in order:

* the exit code, what is complained about, the store and the processes are the same, whatever the clock
  says;
* the lines that the quieter one prints are among those of the other, in their order;
* at the lowest verbosity the program prints a block for every item, in the order of the plan, or the
  line about an unusable input, and nothing at all when it fails: on a stranded input, or for want of a
  tool. -/
theorem transcript (host : Host) (s : Store) {quiet loud : List PathText} {settings : Settings} {w : Nat}
    (coloured : Bool) (parsed : Arguments.parse quiet = .ok settings)
    (parsed' : Arguments.parse loud = .ok { settings with verbosity := w })
    (le : settings.verbosity ≤ w) :
    (∀ elapsed,
      let one := run host s quiet coloured
      let other := run { host with elapsed } s loud coloured
      other.exit = one.exit ∧ other.stderr = one.stderr ∧ other.store = one.store ∧
        ∀ directory,
          (convert { host with elapsed } s { settings with verbosity := w }).invocations directory =
            (convert host s settings).invocations directory) ∧
    (linesOf (run host s quiet coloured).stdout).Sublist (linesOf (run host s loud coloured).stdout) ∧
    (settings.verbosity = 0 → Quiet host s settings coloured (run host s quiet coloured)) := by
  have one : run host s quiet coloured =
      (convert host s settings).outcome settings.verbosity coloured :=
    runBy_of_parse .inOrder host s coloured parsed
  have other : ∀ host : Host,
      run host s loud coloured = (convert host s settings).outcome w coloured :=
    fun host => runBy_of_parse .inOrder host s coloured parsed'
  refine ⟨fun elapsed => ?_, ?_, fun silent => ?_⟩
  · obtain ⟨failure, store, invocations⟩ := convert_elapsed host s settings elapsed
    rw [one, other, Session.outcome, Session.outcome, failure, store]
    exact ⟨rfl, rfl, rfl, invocations⟩
  · rw [one, other]
    exact lines_sublist le (convert host s settings).lines
  · rw [one, silent]
    exact quiet_outcome host s settings coloured

/-- A directory with one file in it, converted quietly and with all there is to say. -/
theorem transcript_leftTree :
    Arguments.parse [['o'], "-v0".toList] = .ok { input := ['o'], verbosity := 0 } ∧
    Arguments.parse [['o'], "-v3".toList] = .ok { input := ['o'], verbosity := 3 } ∧
    leftTree.isDir [] ['o'] ∧ (tool (machineHost []) { input := ['o'], verbosity := 0 }).isOk ∧
    (run { machineHost [] with elapsed := 7 } leftTree [['o'], "-v3".toList] false).store =
      (run (machineHost []) leftTree [['o'], "-v0".toList] false).store ∧
    (linesOf (run (machineHost []) leftTree [['o'], "-v0".toList] false).stdout).Sublist
      (linesOf (run (machineHost []) leftTree [['o'], "-v3".toList] false).stdout) ∧
    Quiet (machineHost []) leftTree { input := ['o'], verbosity := 0 } false
      (run (machineHost []) leftTree [['o'], "-v0".toList] false) := by
  have parsed : Arguments.parse [['o'], "-v0".toList] = .ok { input := ['o'], verbosity := 0 } := by
    decide
  have parsed' : Arguments.parse [['o'], "-v3".toList] = .ok { input := ['o'], verbosity := 3 } := by
    decide
  obtain ⟨same, lines, quiet⟩ := transcript (machineHost []) leftTree false parsed parsed' (Nat.zero_le 3)
  obtain ⟨_, _, store, _⟩ := same 7
  exact ⟨parsed, parsed', by decide, by decide, store, lines, quiet rfl⟩

/-- A failing program prints nothing at the lowest verbosity: neither a block for the file in the
directory nor the line about an unusable input. -/
theorem silent_failure :
    leftTree.isDir [[]] roundabout ∧ leftTree.isFile [[]] (roundabout ++ "/f".toList) ∧
    Arguments.parse [roundabout, "-v0".toList] = .ok { input := roundabout, verbosity := 0 } ∧
    (run (machineHost [[]]) leftTree [roundabout, "-v0".toList] false).stdout = "" ∧
    (run (machineHost [[]]) leftTree [roundabout, "-v0".toList] false).exit = 1 ∧
    ∀ message, errorLine false message ≠ "" := by
  have parsed : Arguments.parse [roundabout, "-v0".toList] =
      .ok { input := roundabout, verbosity := 0 } := by decide
  have failure : convertBy .inOrder (machineHost [[]]) leftTree { input := roundabout, verbosity := 0 } = _ :=
    convertBy_of_stranded .inOrder stranded_leftTree
  rw [run, runBy_of_parse .inOrder _ _ _ parsed, failure]
  refine ⟨stranded_leftTree.dir, by decide, parsed, rfl, rfl, fun message he => ?_⟩
  have length := congrArg String.length he
  simp [errorLine] at length

end Cli
end LuaTree
