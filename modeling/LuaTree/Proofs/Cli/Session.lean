import LuaTree.Cli.Run
import LuaTree.Exec.Launch
import LuaTree.Proofs.Convert.Trace
import LuaTree.Proofs.Plan.Refusal

/-!
# What a run of the program does

The program reads its arguments and then has one session (`runBy_of_parse`). A session ends in one of
four ways, by the input and the tool: it says that the input is unusable, it fails on a stranded input,
it fails for want of a tool, or it converts (`convertBy_of_plan`). Only the two failures give a failing
exit code.

A session consists of lines, and most of them are notices. The processes that were started can be told
from the notices, since a tool announces each of them (`Tool.decompile_cases`).
-/

namespace LuaTree

/-- A tool either cannot make its source's path absolute, or it starts a process and says so. -/
theorem Tool.decompile_cases (t : Tool) (launch : Launcher) (cwd : Location) (s : Store)
    (source : PathText) :
    (∃ cause, (t.decompiler launch cwd).decompile s source =
      { result := .error (.fileOpen source cause), store := s }) ∨
    ∃ full, (t.decompiler launch cwd).decompile s source =
      { result := (launch s cwd (t.invocation full)).1.mapError (.decompilerSpawn t.runtime)
        store := (launch s cwd (t.invocation full)).2
        notices := [.running t.runtime t.archive full] } := by
  unfold decompiler
  dsimp only
  cases decompiler.absolute cwd s source with
  | error cause => exact .inl ⟨cause, rfl⟩
  | ok full => exact .inr ⟨full, rfl⟩

/-- What holds of the notices of items, and of the one before a process, holds of all that is said in a
batch. -/
theorem Tool.said_scheduled {P : Notice → Prop} (pooled : ∀ items jobs, P (.pooled items jobs))
    (copying : ∀ p, P (.copying p)) (decompiling : ∀ p, P (.decompiling p))
    (running : ∀ runtime archive p, P (.running runtime archive p)) (t : Tool) (launch : Launcher)
    (cwd : Location) (schedule : List Nat) (jobs : Nat) (s : Store) (items : List WorkItem) :
    ∀ n, .said n ∈ (Converter.scheduled schedule (t.decompiler launch cwd) cwd jobs s items).events →
      P n := by
  refine Converter.said_scheduled pooled copying decompiling ?_ schedule jobs s items
  intro u p n hn
  rcases t.decompile_cases launch cwd u p with ⟨cause, answer⟩ | ⟨full, answer⟩
  · rw [answer] at hn
    cases hn
  · rw [answer] at hn
    rw [List.mem_singleton.1 hn]
    exact running _ _ _

/-- The process that a notice announces, when the tool runs in this directory. -/
def Notice.invocation? (directory : PathText) : Notice → Option Invocation
  | .running runtime archive source => some (Tool.invocation { runtime, archive, directory } source)
  | _ => none

/-- Whether a notice is one of those that close a conversion. -/
def Notice.isClosing : Notice → Bool
  | .nothingFound _ | .someFailed _ _ | .summary _ _ _ _ => true
  | _ => false

/-- The notices about something that happened. -/
def BatchEvent.notices : BatchEvent → List Notice
  | .said n => [n]
  | .finished r =>
    match r.result with
    | .ok outcome => [.finished outcome r.item.source]
    | .error e => [.itemFailed r.item.source e]

/-- The processes that were started in the course of a batch, in order. -/
def BatchTrace.invocations (directory : PathText) (b : BatchTrace) : List Invocation :=
  b.events.flatMap fun
    | .said n => ( n.invocation? directory).toList
    | .finished _ => []

/-- The notices of a plan are about the walk. -/
theorem Plan.mem_notices {plan : Plan} {n : Notice} (h : n ∈ plan.notices) :
    (∃ fault, n = .skipped fault) ∨ ∃ count input, n = .found count input := by
  unfold notices at h
  split at h
  · cases h
  · rcases List.mem_append.1 h with h | h
    · obtain ⟨fault, _, rfl⟩ := List.mem_map.1 h
      exact .inl ⟨fault, rfl⟩
    · exact .inr ⟨_, _, List.mem_singleton.1 h⟩

namespace Cli

open PathText Store Plan

variable {host : Host} {s : Store} {settings : Settings} {arguments : List PathText} {plan : Plan}
  {directory : PathText}

/-- The program as it is started in a directory, on the machine that its runtimes run on. -/
def machineHost (cwd : Location) : Host where
  cwd
  executable := "/bin/delua".toList
  launch := Exec.launch

/-- What a run that has this session leaves behind. -/
def Session.outcome (session : Session) (verbosity : Nat) (coloured : Bool) : Outcome where
  exit := if session.failure.isNone then 0 else 1
  stdout := Console.render verbosity coloured session.lines
  stderr :=
    match session.failure with
    | none => ""
    | some (doing, _) => "Error: " ++ doing ++ "\n"
  store := session.store

/-- The program does what its session does. -/
theorem runBy_of_parse (converter : Converter) (host : Host) (s : Store) (coloured : Bool)
    (parsed : Arguments.parse arguments = .ok settings) :
    runBy converter host s arguments coloured =
      (convertBy converter host s settings).outcome settings.verbosity coloured := by
  unfold runBy Session.outcome
  rw [parsed]
  dsimp only
  cases (convertBy converter host s settings).failure with
  | none => rfl
  | some _ => rfl

/-- An input that leads nowhere useful is a matter of one line. -/
theorem convertBy_of_unusable (converter : Converter) {p : PathText}
    (h : Plan.ofInput s host.cwd settings.input = .error (.invalidInput p)) :
    convertBy converter host s settings =
      { lines := [.notice (.unusable (.invalidInput p))], store := s } := by
  unfold convertBy
  rw [h]

theorem convertBy_of_stranded (converter : Converter) {cause : IoError}
    (h : Stranded s host.cwd settings.input cause) :
    convertBy converter host s settings =
      { lines := [], store := s
        failure := some ("Failed to resolve input", .fileOpen settings.input cause) } := by
  unfold convertBy
  rw [ofInput_of_stranded h]

theorem convertBy_of_no_tool (converter : Converter) {e : Error}
    (h : Plan.ofInput s host.cwd settings.input = .ok plan) (ht : tool host settings = .error e) :
    convertBy converter host s settings =
      { lines := plan.notices.map .notice, store := s
        failure := some ("Failed to determine the decompiler directory", e) } := by
  unfold convertBy
  rw [h, ht]

/-- What is said before the items are converted. -/
def openingNotices (plan : Plan) (t : Tool) (jobs : Nat) : List Notice :=
  plan.notices ++ [.converting plan.items.length plan.outputRoot,
    .configured t.runtime t.archive t.directory, .jobCount jobs]

/-- Converting says what it is about to do, what happens, and what came of it. -/
theorem convertBy_of_plan (converter : Converter) {t : Tool} {batch : BatchTrace}
    (h : Plan.ofInput s host.cwd settings.input = .ok plan) (ht : tool host settings = .ok t)
    (hb : converter (t.decompiler host.launch host.cwd) host.cwd (max settings.jobs 1) s plan.items =
      batch) :
    convertBy converter host s settings =
      { lines := (openingNotices plan t (max settings.jobs 1)).map .notice ++
          batch.events.flatMap eventLines ++ closingLines settings.input batch.report host.elapsed
        store := batch.store } := by
  unfold convertBy
  rw [h, ht]
  dsimp only
  rw [hb]
  rfl

/-! ## The notices of a session -/

/-- The notice that a line is. -/
def noticeOf? : Console.Line → Option Notice
  | .plain _ => none
  | .notice n => some n

/-- What was said in a session, whether it was printed or not. -/
def Session.notices (session : Session) : List Notice := session.lines.filterMap noticeOf?

/-- What was said in a session and printed at a verbosity. -/
def Session.logged (session : Session) (verbosity : Nat) : List Notice :=
  session.notices.filter fun n => Console.isPrinted verbosity n.level

/-- The processes that were started in a session, in order. -/
def Session.invocations (session : Session) (directory : PathText) : List Invocation :=
  session.notices.filterMap (·.invocation? directory)

/-- The notices that close a conversion. -/
def closingNotices (input : PathText) (report : BatchReport) (elapsed : Nat) : List Notice :=
  if report.isEmpty then [.nothingFound input]
  else
    (if 0 < report.failed then [.someFailed report.failed report.size] else []) ++
      [.summary report.converted report.copied report.failed elapsed]

theorem filterMap_noticeOf? (ns : List Notice) : (ns.map .notice).filterMap noticeOf? = ns := by
  rw [List.filterMap_map]
  exact List.filterMap_some

theorem filterMap_eventLines (events : List BatchEvent) :
    (events.flatMap eventLines).filterMap noticeOf? = events.flatMap (·.notices) := by
  rw [List.filterMap_flatMap]
  refine congrArg (List.flatMap · events) (funext fun e => ?_)
  cases e with
  | said n => rfl
  | finished r =>
    obtain ⟨item, result⟩ := r
    cases result with
    | ok outcome => rfl
    | error e => cases e <;> rfl

theorem closingLines_eq (input : PathText) (report : BatchReport) (elapsed : Nat) :
    closingLines input report elapsed = (closingNotices input report elapsed).map .notice := by
  unfold closingLines closingNotices
  split
  · rfl
  · split <;> rfl

/-- What is said in a conversion. -/
theorem notices_convertBy (converter : Converter) {t : Tool} {batch : BatchTrace}
    (h : Plan.ofInput s host.cwd settings.input = .ok plan) (ht : tool host settings = .ok t)
    (hb : converter (t.decompiler host.launch host.cwd) host.cwd (max settings.jobs 1) s plan.items =
      batch) :
    (convertBy converter host s settings).notices =
      openingNotices plan t (max settings.jobs 1) ++ batch.events.flatMap (·.notices) ++
        closingNotices settings.input batch.report host.elapsed := by
  rw [convertBy_of_plan converter h ht hb, Session.notices]
  dsimp only
  rw [closingLines_eq, List.filterMap_append, List.filterMap_append, filterMap_noticeOf?,
    filterMap_noticeOf?, filterMap_eventLines]

/-- Where there is no plan, the store stays as it was, and no process is started. -/
theorem convertBy_of_refused (converter : Converter) {e : Error}
    (h : Plan.ofInput s host.cwd settings.input = .error e) :
    (convertBy converter host s settings).store = s ∧
      ∀ directory, (convertBy converter host s settings).invocations directory = [] := by
  rcases ofInput_eq_error.1 h with ⟨_, _, rfl⟩ | ⟨_, stranded, rfl⟩
  · rw [convertBy_of_unusable converter h]
    exact ⟨rfl, fun _ => rfl⟩
  · rw [convertBy_of_stranded converter stranded]
    exact ⟨rfl, fun _ => rfl⟩

/-- What is said before the items are converted: where and how, and what the walk skipped. -/
theorem mem_openingNotices {t : Tool} {jobs : Nat} {n : Notice} (h : n ∈ openingNotices plan t jobs) :
    n.isClosing = false ∧ n.level ≠ .error ∧ ∀ directory, n.invocation? directory = none := by
  rcases List.mem_append.1 h with h | h
  · rcases Plan.mem_notices h with ⟨_, rfl⟩ | ⟨_, _, rfl⟩
    · exact ⟨rfl, nofun, fun _ => rfl⟩
    · exact ⟨rfl, nofun, fun _ => rfl⟩
  · simp only [List.mem_cons, List.not_mem_nil, or_false] at h
    rcases h with rfl | rfl | rfl
    · exact ⟨rfl, nofun, fun _ => rfl⟩
    · exact ⟨rfl, nofun, fun _ => rfl⟩
    · exact ⟨rfl, nofun, fun _ => rfl⟩

/-- All that is said in the end tells numbers, unless there was nothing to convert. -/
theorem closingNotices_cases {input : PathText} {report : BatchReport} {elapsed : Nat} {n : Notice}
    (h : n ∈ closingNotices input report elapsed) : n = .nothingFound input ∨
      (∃ failed items, n = .someFailed failed items) ∨
      ∃ converted copied failed hundredths, n = .summary converted copied failed hundredths := by
  unfold closingNotices at h
  split at h
  · exact .inl (List.mem_singleton.1 h)
  · rcases List.mem_append.1 h with h | h
    · split at h
      · exact .inr (.inl ⟨_, _, List.mem_singleton.1 h⟩)
      · cases h
    · exact .inr (.inr ⟨_, _, _, _, List.mem_singleton.1 h⟩)

/-- What is said in the end. -/
theorem mem_closingNotices {input : PathText} {report : BatchReport} {elapsed : Nat} {n : Notice}
    (h : n ∈ closingNotices input report elapsed) :
    n.isClosing ∧ n.level ≠ .error ∧ ∀ directory, n.invocation? directory = none := by
  rcases closingNotices_cases h with rfl | ⟨_, _, rfl⟩ | ⟨_, _, _, _, rfl⟩
  · exact ⟨rfl, nofun, fun _ => rfl⟩
  · exact ⟨rfl, nofun, fun _ => rfl⟩
  · exact ⟨rfl, nofun, fun _ => rfl⟩

/-! ## The processes of a session -/

/-- What is printed of a finished item does not close the conversion, nor does it start a process. -/
theorem mem_notices_finished {r : ItemReport} {n : Notice} (h : n ∈ (BatchEvent.finished r).notices) :
    n.isClosing = false ∧ ∀ directory, n.invocation? directory = none := by
  unfold BatchEvent.notices at h
  dsimp only at h
  split at h <;> rw [List.mem_singleton.1 h] <;> exact ⟨rfl, fun _ => rfl⟩

/-- The processes that are told from the notices of a batch are those that were started in it. -/
theorem filterMap_invocation?_events (events : List BatchEvent) (report : BatchReport) (s : Store) :
    (events.flatMap (·.notices)).filterMap (·.invocation? directory) =
      (BatchTrace.mk events report s).invocations directory := by
  unfold BatchTrace.invocations
  rw [List.filterMap_flatMap]
  refine congrArg (List.flatMap · events) (funext fun e => ?_)
  cases e with
  | said n =>
    show List.filterMap _ [n] = ( n.invocation? directory).toList
    cases hn : n.invocation? directory with
    | none => rw [List.filterMap_cons_none hn]; rfl
    | some i => rw [List.filterMap_cons_some hn]; rfl
  | finished r =>
    exact List.filterMap_eq_nil_iff.2 fun n hn => (mem_notices_finished hn).2 directory

theorem filterMap_invocation?_opening (plan : Plan) (t : Tool) (jobs : Nat) :
    (openingNotices plan t jobs).filterMap (·.invocation? directory) = [] :=
  List.filterMap_eq_nil_iff.2 fun _ hn => (mem_openingNotices hn).2.2 directory

theorem filterMap_invocation?_closing (input : PathText) (report : BatchReport) (elapsed : Nat) :
    (closingNotices input report elapsed).filterMap (·.invocation? directory) = [] :=
  List.filterMap_eq_nil_iff.2 fun _ hn => (mem_closingNotices hn).2.2 directory

/-- The processes of a session are those of its batch. -/
theorem invocations_convertBy (converter : Converter) {t : Tool} {batch : BatchTrace}
    (h : Plan.ofInput s host.cwd settings.input = .ok plan) (ht : tool host settings = .ok t)
    (hb : converter (t.decompiler host.launch host.cwd) host.cwd (max settings.jobs 1) s plan.items =
      batch) (directory : PathText) :
    (convertBy converter host s settings).invocations directory = batch.invocations directory := by
  rw [Session.invocations, notices_convertBy converter h ht hb, List.filterMap_append,
    List.filterMap_append, filterMap_invocation?_opening, filterMap_invocation?_closing, List.append_nil,
    filterMap_invocation?_events batch.events batch.report batch.store]
  rfl

end Cli

end LuaTree
