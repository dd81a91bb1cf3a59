import LuaTree.Shell.Utility.Date

/-!
# Utilities that deal with the clock

What time it is (`date`), and when files have been written to (`touch`).
-/

namespace LuaTree.Shell.Utility

open Run

def presentMoment : Run Moment := do
  let m ← get
  return Moment.ofSeconds m.now (m.clock % 1000000 * 1000)

def momentOf (m : Machine) (e : Entry) : Moment := Moment.ofSeconds (secondOfTick (m.timeOf e))

/-- `touch`: creates files that are missing, and sets when files have been written to. -/
def touch : Utility := withOptions "acmhf" "drtT"
    [("no-create", 'c'), ("date", 'd'), ("reference", 'r'), ("no-dereference", 'h'), ("time", 'T')]
    fun name o => do
  if let some which := o.value? 'T' then
    if !(["atime", "access", "use", "mtime", "modify"].contains (String.ofList which)) then
      return ← complainChoice name "time".toList which ["atime', 'access', 'use", "mtime', 'modify"]
  if o.has 't' ∧ (o.has 'd' ∨ o.has 'r') then
    return ← complainUsage name "cannot specify times from more than one source".toList
  let now ← presentMoment
  let start ← match o.value? 'r' with
    | none => pure none
    | some file =>
      match ← targetOf file with
      | .error e =>
        complainAbout name "failed to get attributes of" file e
        return 1
      | .ok (_, e) => pure (some ((← get).timeOf e))
  let described : Option (Raw × Option Int) :=
    match o.value? 'd', o.value? 't' with
    | some t, _ =>
      let origin := (start.map fun ticks => Moment.ofSeconds (secondOfTick ticks)).getD now
      some (t, (describedMoment? origin t).map fun (second, fraction) => tickOf second fraction)
    | none, some t => some (t, (stampedMoment? now t).map fun second => tickOf second 0)
    | none, none => none
  let ticks? ← match described with
    | some (t, none) =>
      complain name ("invalid date format ".toList ++ Quote.shown t)
      return 1
    | some (_, some ticks) => pure (some ticks)
    | none => pure start
  if o.operands = [] then return ← complainMissing name "file operand"
  let keeps : Bool := o.has 'a' && !o.has 'm'
  let mark (p : Raw) : Run Unit := do
    match ← targetOf p with
    | .ok (_, .file i) =>
      if !keeps then
        modify fun m => match ticks? with
          | some ticks => m.dated i ticks
          | none => m.touched i
    | _ => return ()
  forEach o.operands fun p => do
    if p = ['-'] then return true
    match ← (if o.has 'h' then entryAt else targetOf) p with
    | .ok _ =>
      mark p
      return true
    | .error e =>
      if o.has 'h' then
        complainAbout name "setting times of" p e
        return false
      if o.has 'c' ∧ e = .os .noEntry then return true
      match ← openOutput .atEnd (Raw.path p) with
      | .ok _ =>
        mark p
        return true
      | .error e =>
        complainAbout name "cannot touch" p e
        return false

/-- `date`: tells the time, or the time that is asked for. -/
def date : Utility := withTable
    { flags := "uR", valued := "drfs3", optional := "I"
      long := [("date", 'd'), ("reference", 'r'), ("file", 'f'), ("set", 's'), ("rfc-3339", '3'),
        ("iso-8601", 'I'), ("universal", 'u'), ("utc", 'u'), ("uct", 'u'), ("rfc-email", 'R'), ("rfc-822", 'R'),
        ("rfc-2822", 'R')] } fun name o => do
  let chosen ← match o.value? 'I', o.value? '3' with
    | some t, _ =>
      match String.ofList t with
      | "" | "date" => pure (some "%Y-%m-%d")
      | "hours" => pure (some "%Y-%m-%dT%H%:z")
      | "minutes" => pure (some "%Y-%m-%dT%H:%M%:z")
      | "seconds" => pure (some "%Y-%m-%dT%H:%M:%S%:z")
      | "ns" => pure (some "%Y-%m-%dT%H:%M:%S,%N%:z")
      | _ =>
        return ← complainChoice name "iso-8601".toList t ["hours", "minutes", "date", "seconds", "ns"]
    | none, some t =>
      match String.ofList t with
      | "date" => pure (some "%Y-%m-%d")
      | "seconds" => pure (some "%Y-%m-%d %H:%M:%S%:z")
      | "ns" => pure (some "%Y-%m-%d %H:%M:%S.%N%:z")
      | _ => return ← complainChoice name "rfc-3339".toList t ["date", "seconds", "ns"]
    | none, none => pure (if o.has 'R' then some "%a, %d %b %Y %H:%M:%S %z" else none)
  let sources := ["d", "r", "f"].countP fun l => o.has (l.toList.headD ' ')
  if 1 < sources then
    return ← complainUsage name "the options to specify dates for printing are mutually exclusive".toList
  let pattern ← match o.operands with
    | [] => pure ((chosen.getD "%a %b %e %H:%M:%S %Z %Y").toList)
    | ('+' :: t) :: more =>
      if let next :: _ := more then return ← complainExtra name next
      if chosen.isSome then
        complain name "multiple output formats specified".toList
        return 1
      pure t
    | t :: more =>
      if let next :: _ := more then return ← complainExtra name next
      if sources ≠ 0 then
        complain name ("the argument ".toList ++ Quote.shown t ++ " lacks a leading '+';".toList)
        complainLine "when using an option to specify date(s), any non-option".toList
        complainLine "argument must be a format string beginning with '+'".toList
        complainLine ("Try '".toList ++ name ++ " --help' for more information.".toList)
        return 1
      complain name ("invalid date ".toList ++ Quote.shown t)
      return 1
  let now ← presentMoment
  let tell (t : Raw) : Run Bool := do
    match describedMoment? now t with
    | some (second, fraction) =>
      putLine ((Moment.ofSeconds second fraction).format pattern)
      return true
    | none =>
      complain name ("invalid date ".toList ++ Quote.shown t)
      return false
  match o.value? 'd', o.value? 'r', o.value? 'f' with
  | some t, _, _ => return if ← tell t then 0 else 1
  | none, some file, _ =>
    match ← targetOf file with
    | .ok (_, e) =>
      putLine ((momentOf (← get) e).format pattern)
      return 0
    | .error e =>
      complainFile name file e
      return 1
  | none, none, some file =>
    match ← inputOf file with
    | .ok data => forEach (linesOf data) tell
    | .error e =>
      complainFile name file e
      return 1
  | none, none, none =>
    putLine (now.format pattern)
    return 0

end LuaTree.Shell.Utility
