import LuaTree.Proofs.Cli.Printing
import LuaTree.Proofs.Cli.Session
import LuaTree.Proofs.Plan.Items

/-!
# The program and the library

The program plans and converts by itself, with defaults of its own and a line for everything. What it
leaves behind is what `convertPath` leaves with the tool that the arguments describe, the processes are
the same, and the lines that are printed at the end tell the counts of that report (`runBy_agrees`). This
holds under every schedule. The program takes the items in order, which is one of them.
-/

namespace LuaTree.Cli

open PathText Store Plan

variable {host : Host} {s : Store} {settings : Settings} {arguments : List PathText}
  {directory : PathText}

/-- The tool that the settings describe, when it is in this directory. -/
def toolIn (settings : Settings) (directory : PathText) : Tool :=
  { runtime := settings.runtime, archive := settings.archive, directory }

theorem tool_eq_ok
    (placed : settings.toolDirectory.or (PathText.parent? host.executable) = some directory) :
    tool host settings = .ok (toolIn settings directory) := by
  unfold tool
  dsimp only
  cases hd : settings.toolDirectory with
  | some given =>
    rw [hd, Option.some_or] at placed
    cases placed
    rfl
  | none =>
    rw [hd, Option.none_or] at placed
    unfold Tool.ofExecutable
    rw [placed]
    rfl

/-- A session tells, at a verbosity, what converting a plan came to, and its last lines are printed. -/
structure Agrees (session : Session) (plan : Plan) (batch : BatchTrace) (directory : PathText)
    (verbosity elapsed : Nat) : Prop where
  store : session.store = batch.store
  invocations : session.invocations directory = batch.invocations directory
  counts : batch.report.converted + batch.report.copied + batch.report.failed = plan.items.length
  closing : (session.logged verbosity).filter (·.isClosing) =
    if plan.items = [] then (if 1 ≤ verbosity then [.nothingFound plan.input] else [])
    else
      (if 1 ≤ verbosity ∧ 0 < batch.report.failed then
        [.someFailed batch.report.failed plan.items.length] else []) ++
      (if 2 ≤ verbosity then
        [.summary batch.report.converted batch.report.copied batch.report.failed elapsed] else [])
  printed : ∀ coloured, ∃ before, Console.render verbosity coloured session.lines =
    before ++ String.join (((session.logged verbosity).filter (·.isClosing)).map fun n =>
      Console.noticeText coloured n ++ "\n")
  unescaped : ∀ n ∈ (session.logged verbosity).filter (·.isClosing), n ≠ .nothingFound plan.input →
    Console.escape n.message = n.message

/-! ## What is said on the way -/

theorem filter_isClosing_events {events : List BatchEvent}
    (h : ∀ n, .said n ∈ events → n.isClosing = false) :
    (events.flatMap (·.notices)).filter (·.isClosing) = [] := by
  rw [List.filter_eq_nil_iff]
  intro n hn
  obtain ⟨e, he, hn⟩ := List.mem_flatMap.1 hn
  rw [Bool.not_eq_true]
  cases e with
  | said m =>
    rw [List.mem_singleton.1 hn]
    exact h m he
  | finished r => exact (mem_notices_finished hn).1

theorem filter_isClosing_opening (plan : Plan) (t : Tool) (jobs : Nat) :
    (openingNotices plan t jobs).filter (·.isClosing) = [] := by
  rw [List.filter_eq_nil_iff]
  intro n hn
  rw [(mem_openingNotices hn).1]
  exact Bool.false_ne_true

/-! ## What is said at the end -/

theorem filter_isClosing_closing (input : PathText) (report : BatchReport) (elapsed : Nat) :
    (closingNotices input report elapsed).filter (·.isClosing) = closingNotices input report elapsed :=
  List.filter_eq_self.2 fun _ hn => (mem_closingNotices hn).1

theorem filter_isPrinted_warn {n : Notice} (h : n.level = .warn) (verbosity : Nat) :
    [n].filter (fun n => Console.isPrinted verbosity n.level) = if 1 ≤ verbosity then [n] else [] := by
  simp only [List.filter_cons, List.filter_nil, h, Console.isPrinted_warn]

theorem filter_isPrinted_info {n : Notice} (h : n.level = .info) (verbosity : Nat) :
    [n].filter (fun n => Console.isPrinted verbosity n.level) = if 2 ≤ verbosity then [n] else [] := by
  simp only [List.filter_cons, List.filter_nil, h, Console.isPrinted_info]

/-- Which of the notices at the end are printed. -/
theorem filter_isPrinted_closing (input : PathText) (report : BatchReport) (verbosity elapsed : Nat) :
    (closingNotices input report elapsed).filter (fun n => Console.isPrinted verbosity n.level) =
      if report.items = [] then (if 1 ≤ verbosity then [.nothingFound input] else [])
      else
        (if 1 ≤ verbosity ∧ 0 < report.failed then [.someFailed report.failed report.size] else []) ++
        (if 2 ≤ verbosity then
          [.summary report.converted report.copied report.failed elapsed] else []) := by
  unfold closingNotices
  by_cases hr : report.items = []
  · have empty : report.isEmpty = true := List.isEmpty_iff.2 hr
    rw [if_pos empty, if_pos hr]
    exact filter_isPrinted_warn rfl verbosity
  · have some : ¬report.isEmpty = true := fun h => hr (List.isEmpty_iff.1 h)
    rw [if_neg some, if_neg hr, List.filter_append, filter_isPrinted_info rfl]
    refine congrArg (· ++ _) ?_
    by_cases hf : 0 < report.failed
    · rw [if_pos hf, filter_isPrinted_warn rfl]
      simp only [hf, and_true]
    · rw [if_neg hf, if_neg fun h => hf h.2]
      rfl

theorem input_of_ofInput {cwd : Location} {input : PathText} {plan : Plan}
    (h : Plan.ofInput s cwd input = .ok plan) : plan.input = input := by
  unfold Plan.ofInput at h
  split at h
  · cases ho : directoryOutput s cwd input with
    | error e =>
      rw [ho] at h
      cases h
    | ok output =>
      rw [ho] at h
      cases h
      rfl
  · split at h
    · cases h
      rfl
    · cases h

/-- A session that converts tells what the batch came to. -/
theorem agrees_convertBy (schedule : List Nat) {plan : Plan} (verbosity : Nat)
    (planned : Plan.ofInput s host.cwd settings.input = .ok plan)
    (placed : settings.toolDirectory.or (PathText.parent? host.executable) = some directory) :
    Agrees (convertBy (.scheduled schedule) host s settings) plan
      (Converter.scheduled schedule ((toolIn settings directory).decompiler host.launch host.cwd)
        host.cwd settings.jobs s plan.items) directory verbosity host.elapsed := by
  have told := tool_eq_ok placed
  have input := input_of_ofInput planned
  have clamped := Converter.scheduled_max_one schedule
    ((toolIn settings directory).decompiler host.launch host.cwd) host.cwd settings.jobs s plan.items
  have quiet := Tool.said_scheduled (P := fun n => n.isClosing = false) (fun _ _ => rfl) (fun _ => rfl)
    (fun _ => rfl) (fun _ _ _ => rfl) (toolIn settings directory) host.launch host.cwd schedule
    settings.jobs s plan.items
  have items := Converter.items_scheduled schedule
    ((toolIn settings directory).decompiler host.launch host.cwd) host.cwd settings.jobs s plan.items
  generalize Converter.scheduled schedule ((toolIn settings directory).decompiler host.launch host.cwd)
    host.cwd settings.jobs s plan.items = batch at clamped quiet items ⊢
  have notices := notices_convertBy (.scheduled schedule) planned told clamped
  have size : batch.report.size = plan.items.length := by
    rw [← items, List.length_map]
    rfl
  have said : (convertBy (.scheduled schedule) host s settings).notices.filter (·.isClosing) =
      closingNotices settings.input batch.report host.elapsed := by
    rw [notices, List.filter_append, List.filter_append, filter_isClosing_opening,
      filter_isClosing_events quiet, filter_isClosing_closing]
    rfl
  have closing : ((convertBy (.scheduled schedule) host s settings).logged verbosity).filter (·.isClosing) =
      (closingNotices settings.input batch.report host.elapsed).filter fun n =>
        Console.isPrinted verbosity n.level := by
    rw [Session.logged, List.filter_comm, said]
  have none : batch.report.items = [] ↔ plan.items = [] := by
    rw [← items, List.map_eq_nil_iff]
  refine ⟨?_, ?_, ?_, ?_, ?_, ?_⟩
  · rw [convertBy_of_plan _ planned told clamped]
  · exact invocations_convertBy (.scheduled schedule) planned told clamped directory
  · rw [batch.report.size_eq, size]
  · rw [closing, filter_isPrinted_closing, size, input]
    simp only [none]
  · intro coloured
    rw [closing, convertBy_of_plan _ planned told clamped]
    dsimp only
    rw [closingLines_eq, Console.render_append, Console.render_notices]
    exact ⟨_, rfl⟩
  · intro n hn named
    rw [closing] at hn
    rw [input] at named
    exact Console.escape_message ((closingNotices_cases (List.mem_filter.1 hn).1).resolve_left named)

/-- A converter that does with the items of the plan what another one does has the same session. -/
theorem convertBy_congr {converter converter' : Converter}
    (same : ∀ plan d, Plan.ofInput s host.cwd settings.input = .ok plan →
      converter d host.cwd (max settings.jobs 1) s plan.items =
        converter' d host.cwd (max settings.jobs 1) s plan.items) :
    convertBy converter host s settings = convertBy converter' host s settings := by
  cases planned : Plan.ofInput s host.cwd settings.input with
  | error e =>
    rcases ofInput_eq_error.1 planned with ⟨_, _, rfl⟩ | ⟨_, stranded, rfl⟩
    · rw [convertBy_of_unusable converter planned, convertBy_of_unusable converter' planned]
    · rw [convertBy_of_stranded converter stranded, convertBy_of_stranded converter' stranded]
  | ok plan =>
    cases ht : tool host settings with
    | error e => rw [convertBy_of_no_tool converter planned ht, convertBy_of_no_tool converter' planned ht]
    | ok t =>
      rw [convertBy_of_plan converter planned ht (same plan _ planned),
        convertBy_of_plan converter' planned ht rfl]

/-- The schedules that come to the same as taking the items in order: any of them with one job, and one
of them with several. -/
def InOrder (host : Host) (s : Store) (settings : Settings) (schedule : List Nat) : Prop :=
  settings.jobs ≤ 1 ∨ ∃ plan, Plan.ofInput s host.cwd settings.input = .ok plan ∧
    schedule = BatchState.sequential plan.items.length

theorem InOrder.scheduled_eq {schedule : List Nat} (h : InOrder host s settings schedule) {plan : Plan}
    (planned : Plan.ofInput s host.cwd settings.input = .ok plan) (d : Decompiler) {jobs : Nat}
    (hj : settings.jobs ≤ 1 → jobs ≤ 1) :
    Converter.scheduled schedule d host.cwd jobs s plan.items =
      Converter.inOrder d host.cwd jobs s plan.items := by
  rcases h with single | ⟨plan', planned', rfl⟩
  · exact Converter.scheduled_of_le_one (hj single) schedule d host.cwd s plan.items
  · cases planned.symm.trans planned'
    exact Converter.scheduled_sequential d host.cwd jobs s plan.items

/-- The program and the library agree. For every store, every host, all arguments that are settings, and
every schedule that several jobs may come to:

* the program leaves the store of its session and prints the lines of its session;
* where the input has no plan, the session changes nothing and starts no process;
* otherwise it leaves the store that converting the input with the tool of the arguments leaves, it starts
  the same processes in the same order, and its last lines tell the counts of that report, which add up
  to the number of items;
* the program itself and `convertPath` take the items in order, which is one of the schedules, and with
  one job at most comes to the same as any. -/
theorem runBy_agrees (schedule : List Nat) (host : Host) (s : Store) {arguments : List PathText}
    {settings : Settings} {directory : PathText} (coloured : Bool)
    (parsed : Arguments.parse arguments = .ok settings)
    (placed : settings.toolDirectory.or (PathText.parent? host.executable) = some directory) :
    let d := (toolIn settings directory).decompiler host.launch host.cwd
    let session := convertBy (.scheduled schedule) host s settings
    let outcome := runBy (.scheduled schedule) host s arguments coloured
    let library := convertPathBy (.scheduled schedule) d host.cwd settings.jobs s settings.input
    outcome.store = session.store ∧
    outcome.stdout = Console.render settings.verbosity coloured session.lines ∧
    (∀ e, library = .error e → session.store = s ∧ session.invocations directory = []) ∧
    (∀ plan batch, library = .ok (plan, batch) →
      Agrees session plan batch directory settings.verbosity host.elapsed) ∧
    (InOrder host s settings schedule → run host s arguments coloured = outcome ∧
      (convertPath d host.cwd settings.jobs s settings.input).map (fun r => (r.1, r.2.trace)) =
        library) := by
  intro d session outcome library
  have program : outcome = session.outcome settings.verbosity coloured :=
    runBy_of_parse _ host s coloured parsed
  refine ⟨by rw [program]; rfl, by rw [program]; rfl, ?_, ?_, ?_⟩
  · intro e refused
    obtain ⟨store, invocations⟩ := convertBy_of_refused (.scheduled schedule)
      (convertPathBy_eq_error.1 refused)
    exact ⟨store, invocations directory⟩
  · intro plan batch done
    obtain ⟨planned, rfl⟩ := convertPathBy_eq_ok.1 done
    exact agrees_convertBy schedule settings.verbosity planned placed
  · intro order
    have clamped : settings.jobs ≤ 1 → max settings.jobs 1 ≤ 1 :=
      fun h => Nat.max_le.2 ⟨h, Nat.le_refl 1⟩
    have same : session = convertBy .inOrder host s settings :=
      convertBy_congr fun plan d planned => order.scheduled_eq planned d clamped
    refine ⟨?_, ?_⟩
    · rw [program, same]
      exact runBy_of_parse .inOrder host s coloured parsed
    · rw [← convertPathBy_inOrder]
      exact convertPathBy_congr fun plan planned => (order.scheduled_eq planned d id).symm

/-- A directory with a compiled chunk and another file. -/
def smallTree : Store :=
  ((Store.empty.put [['i']] (.dir 0o755)).putFile [['i'], ['a']]
    ⟨[0x1B, 0x4C, 0x75, 0x61, 0x51], 0o644⟩).putFile [['i'], ['b']] ⟨[7], 0o644⟩

/-- The settings for the directory, with no jobs at all, and the summary to be printed. -/
def jobless : Settings where
  input := ['i']
  jobs := 0
  verbosity := 2

/-- Converting two files with no jobs at all. -/
theorem runBy_agrees_smallTree :
    Arguments.parse [['i'], "-j0".toList, "-v2".toList] = .ok jobless ∧
    jobless.toolDirectory.or (PathText.parent? (machineHost []).executable) = some "/bin".toList ∧
    ∃ plan batch,
      (convertPath ((toolIn jobless "/bin".toList).decompiler (machineHost []).launch []) [] 0 smallTree
        ['i']).map (fun r => (r.1, r.2.trace)) = .ok (plan, batch) ∧
      (run (machineHost []) smallTree [['i'], "-j0".toList, "-v2".toList] false).store = batch.store ∧
      Agrees (convert (machineHost []) smallTree jobless) plan batch "/bin".toList 2 0 := by
  have parsed : Arguments.parse [['i'], "-j0".toList, "-v2".toList] = .ok jobless := by decide
  have placed : jobless.toolDirectory.or (PathText.parent? (machineHost []).executable) =
      some "/bin".toList := by decide
  have dir : smallTree.isDir [] ['i'] := by decide
  have output : directoryOutput smallTree [] ['i'] = .ok ['i', '.', 's', 'r', 'c'] := by decide
  obtain ⟨store, _, _, agrees, inOrder⟩ := runBy_agrees [] (machineHost []) smallTree false parsed placed
  have order : InOrder (machineHost []) smallTree jobless [] := .inl (Nat.zero_le 1)
  obtain ⟨program, library⟩ := inOrder order
  have same : convertBy (.scheduled []) (machineHost []) smallTree jobless =
      convert (machineHost []) smallTree jobless :=
    convertBy_congr fun plan d planned => order.scheduled_eq planned d fun _ => Nat.le_refl 1
  have done : convertPathBy (.scheduled [])
      ((toolIn jobless "/bin".toList).decompiler (machineHost []).launch []) [] 0 smallTree ['i'] = _ :=
    convertPathBy_eq_ok.2 ⟨ofInput_of_directoryOutput dir output, rfl⟩
  have told := agrees _ _ done
  rw [same] at told
  refine ⟨parsed, placed, _, _, library.trans done, ?_, told⟩
  rw [program, store, same]
  exact told.store

end LuaTree.Cli
