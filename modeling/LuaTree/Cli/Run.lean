import LuaTree.Cli.Arguments
import LuaTree.Cli.Console
import LuaTree.Cli.Usage
import LuaTree.Convert.Trace

/-!
# The command line

`Cli.run` is the program: it reads the arguments, plans and converts the input, and says what
happened. Mistaken arguments end it with exit code 2 before anything is done. An input that cannot be
used, or items that fail, are reported and are no reason for a failing exit code.

How the batch is converted is a parameter (`runBy`); the program converts its items in order (`run`).
-/

namespace LuaTree.Cli

/-- What the program finds around it. -/
structure Host where
  cwd : Location
  executable : PathText
  launch : Launcher
  elapsed : Nat := 0 -- how long a conversion takes, in hundredths of a second

/-- What a run of the program leaves behind. -/
structure Outcome where
  exit : Nat
  stdout : String
  stderr : String
  store : Store
  deriving Inhabited

/-- A conversion as the program carries it out: what it prints, and what it leaves behind. -/
structure Session where
  lines : List Console.Line -- the lines, those included that the verbosity keeps back
  store : Store
  -- the error that the program ends with, with what it was doing
  failure : Option (String × Error) := none
  deriving Inhabited

def itemLines (r : ItemReport) : List Console.Line :=
  match r.result with
  | .ok outcome =>
    [.notice (.finished outcome r.item.source), .plain (String.ofList r.item.source)]
  | .error e =>
    (match e.diagnostics? with
    | none => []
    | some (stdout, stderr) =>
      [.plain "Standard Output:", .plain (String.ofList (Utf8.decodeLossy stdout)),
        .plain "Standard Error:", .plain (String.ofList (Utf8.decodeLossy stderr))])
      ++ [.notice (.itemFailed r.item.source e)]

def closingLines (input : PathText) (report : BatchReport) (elapsed : Nat) : List Console.Line :=
  if report.isEmpty then [.notice (.nothingFound input)]
  else
    (if 0 < report.failed then [.notice (.someFailed report.failed report.size)] else [])
      ++ [.notice (.summary report.converted report.copied report.failed elapsed)]

def tool (host : Host) (settings : Settings) : Except Error Tool :=
  let place : Except Error Tool :=
    match settings.toolDirectory with
    | some directory => .ok { directory }
    | none => Tool.ofExecutable host.executable
  place.map fun t => { t with runtime := settings.runtime, archive := settings.archive }

def eventLines : BatchEvent → List Console.Line
  | .said n => [.notice n]
  | .finished r => itemLines r

/-- Converts what the settings ask for, in some way. -/
def convertBy (converter : Converter) (host : Host) (s : Store) (settings : Settings) : Session :=
  match Plan.ofInput s host.cwd settings.input with
  | .error (.invalidInput p) => { lines := [.notice (.unusable (.invalidInput p))], store := s }
  | .error e => { lines := [], store := s, failure := some ("Failed to resolve input", e) }
  | .ok plan =>
    match tool host settings with
    | .error e =>
      { lines := plan.notices.map .notice, store := s
        failure := some ("Failed to determine the decompiler directory", e) }
    | .ok tool =>
      let jobs := max settings.jobs 1
      let batch := converter (tool.decompiler host.launch host.cwd) host.cwd jobs s plan.items
      let opening := plan.notices ++
        [.converting plan.items.length plan.outputRoot,
          .configured tool.runtime tool.archive tool.directory, .jobCount jobs]
      { lines := opening.map .notice ++ batch.events.flatMap eventLines
          ++ closingLines settings.input batch.report host.elapsed
        store := batch.store }

/-- Runs the program, the batch being converted in some way. -/
def runBy (converter : Converter) (host : Host) (s : Store) (arguments : List PathText)
    (coloured : Bool) : Outcome :=
  match Arguments.parse arguments with
  | .error (.mistake m) => { exit := 2, stdout := "", stderr := m.message ++ "\n", store := s }
  | .error .help => { exit := 0, stdout := Usage.help, stderr := "", store := s }
  | .error .version => { exit := 0, stdout := Usage.version, stderr := "", store := s }
  | .ok settings =>
    let session := convertBy converter host s settings
    let stdout := Console.render settings.verbosity coloured session.lines
    match session.failure with
    | none => { exit := 0, stdout, stderr := "", store := session.store }
    | some (doing, _) =>
      { exit := 1, stdout, stderr := "Error: " ++ doing ++ "\n", store := session.store }

def convert (host : Host) (s : Store) (settings : Settings) : Session :=
  convertBy .inOrder host s settings

def run (host : Host) (s : Store) (arguments : List PathText) (coloured : Bool) : Outcome :=
  runBy .inOrder host s arguments coloured

end LuaTree.Cli
