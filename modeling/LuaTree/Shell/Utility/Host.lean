import LuaTree.Shell.Process
import LuaTree.Shell.Signal
import LuaTree.Shell.Utility.Files

/-!
# Utilities about the machine and its users

What the machine is (`uname`, `arch`), who uses it (`id`, `whoami`, `groups`, `logname`), where programs are
found (`which`), and signals for processes (`kill`). There is one user, to whom everything belongs.
-/

namespace LuaTree.Shell.Utility

open Run

def processor : Raw := "x86_64".toList

def machineName : String := "localhost"

/-- `uname`: tells what the machine is. -/
def uname : Utility := withOptions "asnrvmpio" ""
    [("all", 'a'), ("kernel-name", 's'), ("nodename", 'n'), ("kernel-release", 'r'), ("kernel-version", 'v'),
     ("machine", 'm'), ("processor", 'p'), ("hardware-platform", 'i'), ("operating-system", 'o')]
    fun name o => do
  if let extra :: _ := o.operands then return ← complainExtra name extra
  let parts : List (Char × String) :=
    [('s', "Linux"), ('n', machineName), ('r', "6.0.0"), ('v', "#1 SMP"), ('m', "x86_64"), ('p', "x86_64"),
     ('i', "x86_64"), ('o', "GNU/Linux")]
  let wanted := parts.filter fun (c, _) => o.has 'a' || o.has c
  let shown := if wanted = [] then ["Linux"] else wanted.map Prod.snd
  putLine ([' '].intercalate (shown.map String.toList))
  return 0

/-- A utility that takes no operands and writes a line. -/
def telling (line : Raw) : Utility := withOptions "" "" [] fun name o => do
  if let extra :: _ := o.operands then return ← complainExtra name extra
  putLine line
  return 0

/-- `arch`: tells the kind of processor. -/
def arch : Utility := telling processor

/-- `hostname`: tells the name of the machine. -/
def hostname : Utility := telling machineName.toList

/-- `nproc`: tells how many processors there are. -/
def nproc : Utility := withOptions "" "i" [("all", 'a'), ("ignore", 'i')] fun _ _ => do
  putLine ['1']
  return 0

def userName : Raw := "root".toList

/-- `whoami`: tells the name of the user. -/
def whoami : Utility := telling userName

def isUser (t : Raw) : Bool := t = userName || t = ['0']

/-- `id`: tells the names and numbers of a user. -/
def identity : Utility := withOptions "agGnruz" ""
    [("group", 'g'), ("groups", 'G'), ("name", 'n'), ("real", 'r'), ("user", 'u'), ("zero", 'z')]
    fun name o => do
  let kinds := ['u', 'g', 'G'].filter o.has
  if 1 < kinds.length then
    complain name "cannot print \"only\" of more than one choice".toList
    return 1
  if kinds = [] ∧ (o.has 'n' ∨ o.has 'r') then
    complain name "cannot print only names or real IDs in default format".toList
    return 1
  if kinds = [] ∧ o.has 'z' then
    complain name "option --zero not permitted in default format".toList
    return 1
  let ending : Raw := if o.has 'z' then ['\x00'] else ['\n']
  let shown : Raw :=
    if kinds = [] then "uid=0(root) gid=0(root) groups=0(root)".toList
    else if o.has 'n' then userName
    else ['0']
  if o.operands = [] then
    putText (shown ++ ending)
    return 0
  forEach o.operands fun u => do
    if isUser u then
      putText (shown ++ ending)
      return true
    complain name (Quote.always u ++ ": no such user".toList)
    return false

/-- `groups`: tells the groups of users. -/
def userGroups : Utility := withOptions "" "" [] fun name o => do
  if o.operands = [] then
    putLine userName
    return 0
  forEach o.operands fun u => do
    if isUser u then
      putLine (u ++ " : ".toList ++ userName)
      return true
    complain name (Quote.always u ++ ": no such user".toList)
    return false

/-- `logname`: there is nobody who has logged in. -/
def logname : Utility := withOptions "" "" [] fun name o => do
  if let extra :: _ := o.operands then return ← complainExtra name extra
  complain name "no login name".toList
  return 1

/-- `link`: gives a file another name. -/
def linkOne : Utility := withOptions "" "" [] fun name o => do
  match o.operands with
  | [] => complainMissing name
  | [a] => complainUsage name ("missing operand after ".toList ++ Quote.shown a)
  | _ :: _ :: c :: _ => complainExtra name c
  | [a, b] =>
    match ← entryAt a with
    | .error e =>
      complain name ("cannot create link ".toList ++ Quote.always b ++ " to ".toList ++ Quote.always a
        ++ ": ".toList ++ (refusalText e).toList)
      return 1
    | .ok _ =>
      match ← updateAt (Raw.path b) fun s cwd => s.makeHardLink cwd (Raw.path a) (Raw.path b) with
      | .ok () => return 0
      | .error e =>
        complain name ("cannot create link ".toList ++ Quote.always b ++ " to ".toList ++ Quote.always a
          ++ ": ".toList ++ (refusalText e).toList)
        return 1

/-- `which`: tells where programs are found. -/
def which : Utility := fun _ arguments => do
  let options := (arguments.takeWhile fun a => a.head? = some '-' && a ≠ ['-'] && a ≠ ['-', '-'])
  let letters := options.flatMap (List.drop 1)
  let operands := (arguments.drop options.length)
  let operands := if operands.head? = some ['-', '-'] then operands.drop 1 else operands
  match letters.find? fun c => c ≠ 'a' && c ≠ 's' with
  | some c =>
    complainLine ("Illegal option -".toList ++ [c])
    putText "Usage: /usr/bin/which [-as] args\n".toList
    return 2
  | none =>
    let m ← get
    let e := m.environment
    let path := ((e.bindings.get? "PATH".toList).map Variable.value).getD []
    let runs (p : Raw) : Bool :=
      match m.store.stat? e.cwd (Raw.path p) with
      | .ok (_, entry) => !entry.isDir && m.store.allows entry .run
      | .error _ => false
    let places := (path.splitOn ':').map fun d => if d = [] then ['.'] else d
    let mut status := if operands = [] then 1 else 0
    for name in operands do
      let found := if name.contains '/' then (if runs name then [name] else [])
        else (places.map fun d => d ++ '/' :: name).filter runs
      if found = [] then status := 1
      else if !letters.contains 's' then
        putText (unlines (if letters.contains 'a' then found else found.take 1))
    return status

/-- How `kill` is called. -/
def killUsage (name : Raw) : Run Nat := do
  let lines :=
    ["", "Usage:", s!" {String.ofList (lastName name)} [options] <pid> [...]", "", "Options:",
     " <pid> [...]            send signal to every <pid> listed",
     " -<signal>, -s, --signal <signal>",
     "                        specify the <signal> to be sent",
     " -q, --queue <value>    integer value to be sent with the signal",
     " -l, --list=[<signal>]  list all signal names, or convert one to a name",
     " -L, --table            list all signal names in a nice table", "",
     " -h, --help     display this help and exit", " -V, --version  output version information and exit", "",
     "For more details see kill(1)."]
  for l in lines do complainLine l.toList
  return 1

/-- The names of the signals, in lines. -/
def signalNames : List Raw :=
  let names := Signal.table.map fun p => if p.1 = "IO" then "POLL".toList else p.1.toList
  [[' '].intercalate (names.take 16), [' '].intercalate (names.drop 16)]

/-- `kill`: sends signals to processes. -/
def kill : Utility := fun name arguments => do
  let sendAll (signal : Nat) (targets : List Raw) : Run Nat := do
    if targets = [] then return ← killUsage name
    let mut status := 0
    for t in targets do
      match Raw.int? t with
      | none =>
        complain name ("failed to parse argument: '".toList ++ t ++ ['\''])
        return 1
      | some n =>
        let isSent ← if n < 0 then pure false else send n.toNat signal
        if !isSent then
          complain name ('(' :: t ++ "): No such process".toList)
          status := 1
    return status
  match arguments with
  | [] => killUsage name
  | ['-', 'l'] :: rest =>
    match rest with
    | [] =>
      putText (unlines signalNames)
      return 0
    | t :: _ =>
      match Raw.nat? t with
      | some n =>
        match Signal.table.find? fun p => p.2 = n % 128 with
        | some (text, _) => putLine text.toList
        | none => putLine t
        return 0
      | none =>
        match Signal.ofText? t with
        | some n => putLine (Raw.ofNat n)
        | none =>
          complain name ("unknown signal name ".toList ++ t)
          return 1
        return 0
  | ['-', 's'] :: signal :: targets =>
    match Signal.ofText? signal with
    | some n => sendAll n targets
    | none =>
      complain name ('(' :: targets.headD [] ++ "): Invalid argument".toList)
      return 1
  | ['-', '-'] :: targets => sendAll 15 targets
  | ('-' :: signal) :: targets =>
    match Signal.ofText? signal with
    | some n => sendAll n targets
    | none =>
      complain name ("invalid argument ".toList ++ signal.take 1)
      killUsage name
  | targets => sendAll 15 targets

end LuaTree.Shell.Utility
