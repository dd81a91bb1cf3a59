import LuaTree.Shell.Utility.Awk.Evaluate

/-!
# The command

`awk` as a command: its options, and the order in which the rules of a program are followed.
-/

namespace LuaTree.Shell.Awk

open Run Utility

/-- What the options of the command tell. -/
structure Setup where
  separator? : Option Raw := none
  assignments : List Raw := [] -- what is assigned before the program begins
  files : List Raw := []
  tellsVersion : Bool := false -- whether only the version is told
  operands : List Raw := []

def Setup.read : (fuel : Nat) → Setup → List Raw → Except Raw Setup
  | 0, s, _ => .ok s
  | _ + 1, s, [] => .ok s
  | fuel + 1, s, a :: rest =>
    let lacks (c : Char) : Except Raw Setup := .error ("option -".toList ++ c :: " lacks argument".toList)
    let withValue (c : Char) (t : Raw) (rest : List Raw) : Except Raw Setup :=
      match c with
      | 'F' => read fuel { s with separator? := some t } rest
      | 'v' =>
        if Step.isAssignment t then read fuel { s with assignments := s.assignments ++ [t] } rest
        else .error ("improper assignment: -v ".toList ++ t)
      | 'f' => read fuel { s with files := s.files ++ [t] } rest
      | _ => read fuel { s with tellsVersion := s.tellsVersion || t = "version".toList || t = "v".toList } rest
    match a with
    | ['-', '-'] => .ok { s with operands := rest }
    | '-' :: '-' :: name =>
      if name = "version".toList then .ok { s with tellsVersion := true }
      else .error ("not an option: ".toList ++ a)
    | ['-', c] =>
      if "FvfW".toList.contains c then
        match rest with
        | t :: rest => withValue c t rest
        | [] => lacks c
      else .error ("not an option: ".toList ++ a)
    | '-' :: c :: t =>
      if "FvfW".toList.contains c then withValue c t rest else .error ("not an option: ".toList ++ a)
    | _ => .ok { s with operands := a :: rest }

namespace Step

/-- Does something and answers how it has been left, if it has. -/
def leaving? (act : Step Unit) : Step (Option Leaving) := do
  try
    act
    return none
  catch e => return some e

/-- How deep expressions and statements may lie within each other. -/
def depth : Nat := 20000

/-- Follows the rules with a record, as far as they apply. -/
def obey (k : Tools) : List (Pattern × Statement) → Step Unit
  | [] => return ()
  | (p, body) :: rest => do
    let applies : Bool ← match p with
      | .first | .last => pure false
      | .always => pure true
      | .whenever e => pure (← value k depth e).isTrue
      | .between n a b =>
        let begun := (← get).within.contains n
        let begins ← if begun then pure true else pure (← value k depth a).isTrue
        if begins then
          if !begun then modify fun s => { s with within := n :: s.within }
          if (← value k depth b).isTrue then
            modify fun s => { s with within := s.within.filter (· ≠ n) }
        pure begins
    if applies then discard (run k depth body)
    obey k rest

/-- Follows the rules for the beginning or the end. -/
def obeyAt (k : Tools) (atEnd : Bool) (rules : List (Pattern × Statement)) : Step Unit := do
  for (p, body) in rules do
    match p, atEnd with
    | .first, false | .last, true => discard (run k depth body)
    | _, _ => pure ()

/-- Goes through the records; answers how that has been left. -/
def records (k : Tools) (rules : List (Pattern × Statement)) : (left : Nat) → Step (Option Leaving)
  | 0 => return none
  | left + 1 => do
    if left % 256 = 0 then outside (spend 1)
    let goesOn ← leaving? do
      if !(← advance?) then throw .exit
    match goesOn with
    | some .exit => return none
    | some e => return some e
    | none =>
      match ← leaving? (obey k rules) with
      | none | some .next => records k rules left
      | some e => return some e

/-- Does all that a program says. -/
def whole (k : Tools) : Step Unit := do
  let rules := (← get).program.rules
  let needsInput := rules.any fun (p, _) => match p with
    | .first => false
    | _ => true
  let left? ← leaving? (obeyAt k false rules)
  let left? ← match left?, needsInput with
    | none, true => records k rules Run.rounds
    | left?, _ => pure left?
  if left? ≠ some .failed then discard (leaving? (obeyAt k true rules))
  for x in (← get).sinks do discard (closeSink k x)
  flush

end Step

/-- What is said about the use of the command. -/
def usage : List String :=
  ["Usage: mawk [Options] [Program] [file ...]",
   "",
   "Program:",
   "    The -f option value is the name of a file containing program text.",
   "    If no -f option is given, a \"--\" ends option processing; the following",
   "    parameters are the program text."]

def firstValues (s : Setup) : Std.HashMap Raw Value :=
  let texts : List (String × Raw) :=
    [("FS", [' ']), ("OFS", [' ']), ("ORS", ['\n']), ("RS", ['\n']), ("SUBSEP", ['\x1c']),
     ("CONVFMT", "%.6g".toList), ("OFMT", "%.6g".toList)]
  let numbers : List (String × Float) :=
    [("NR", 0), ("FNR", 0), ("RSTART", 0), ("RLENGTH", -1), ("ARGC", Float.ofNat (s.operands.length + 1))]
  let values : Std.HashMap Raw Value := {}
  let values := texts.foldl (fun vs (x, t) => vs.insert x.toList (.text t)) values
  let values := numbers.foldl (fun vs (x, n) => vs.insert x.toList (.number n)) values
  match s.separator? with
  | some t => values.insert "FS".toList (.input (unescaped (t.length + 1) t))
  | none => values

def Program.start (start : Starter) (s : Setup) (p : Program) : Run Nat := do
  let e ← environment
  let environ := e.bindings.entries.reverse.foldl (fun (t : Table) (x, v) =>
    if v.exported then t.insert (.text x) (.input v.value) else t) {}
  let argv := s.operands.zipIdx.foldl (fun (t : Table) (a, n) => t.insert (.whole (n + 1 : Nat)) (.input a))
    ((default : Table).insert (.whole 0) (.input "awk".toList))
  let tables : Std.HashMap Raw Table := {}
  let state : State :=
    { program := p, values := firstValues s
      tables := (tables.insert "ENVIRON".toList environ).insert "ARGV".toList argv }
  let k : Tools := { start, tableArguments := p.tableArguments (p.functions.length + 1) }
  let act : Step Unit := do
    for a in s.assignments do Step.assignArgument a
    Step.whole k
  let (_, state) ← StateT.run (ExceptT.run act) state
  return state.status

/-- `awk`: follows rules for records. -/
def awk : StartingUtility := fun start _ arguments => do
  let told (t : Raw) : Run Nat := do
    complain "awk".toList t
    return 2
  match Setup.read (arguments.length + 1) {} arguments with
  | .error message => told message
  | .ok s =>
    if s.tellsVersion then
      putLine "mawk 1.3.4 20240123".toList
      return 0
    let mut text := []
    let mut s := s
    if s.files = [] then
      match s.operands with
      | [] =>
        for line in usage do complainLine line.toList
        return 2
      | t :: rest =>
        text := t
        s := { s with operands := rest }
    else
      for file in s.files do
        match ← inputOf (if file = "/dev/stdin".toList then ['-'] else file) with
        | .ok data => text := text ++ Raw.ofBytes data
        | .error e =>
          return ← told ("cannot open \"".toList ++ file ++ "\" (".toList ++ (refusalText e).toList ++ [')'])
    match Program.read text with
    | .error f =>
      told ((if f.isBare then [] else "line ".toList) ++ Raw.ofNat f.line ++ ": ".toList ++ f.message)
    | .ok p => p.start start s

end LuaTree.Shell.Awk
