import LuaTree.Shell.Condition
import LuaTree.Shell.Utility.Awk.Command
import LuaTree.Shell.Utility.Characters
import LuaTree.Shell.Utility.Compare
import LuaTree.Shell.Utility.Copies
import LuaTree.Shell.Utility.Dump
import LuaTree.Shell.Utility.Edit.Run
import LuaTree.Shell.Utility.Expr
import LuaTree.Shell.Utility.Find.Run
import LuaTree.Shell.Utility.Grep
import LuaTree.Shell.Utility.Host
import LuaTree.Shell.Utility.Lines
import LuaTree.Shell.Utility.Listing
import LuaTree.Shell.Utility.Merge
import LuaTree.Shell.Utility.Order
import LuaTree.Shell.Utility.Records
import LuaTree.Shell.Utility.Sequence
import LuaTree.Shell.Utility.Split
import LuaTree.Shell.Utility.Streams
import LuaTree.Shell.Utility.Sums

/-!
# The utilities of the machine

All utilities by name. Shells are not among them, since they have to run scripts; those that start other
programs stand apart.
-/

namespace LuaTree.Shell.Utility

open Run

/-- `test`: asks about its arguments. -/
def test : Utility := fun name arguments => do
  let m ← get
  let isBracket := lastName name = ['[']
  if isBracket ∧ arguments.getLast? ≠ some [']'] then
    complain name "missing ']'".toList
    return 2
  let arguments := if isBracket then arguments.dropLast else arguments
  let world : Condition.World := { store := m.store, cwd := m.environment.cwd, timeOf := m.timeOf }
  match Condition.holds .utility world arguments with
  | .ok holds => return if holds then 0 else 1
  | .error fault =>
    complain name (fault.text .utility Quote.shown)
    return 2

def idle : Utility := withOptions "df" "" [("data", 'd'), ("file-system", 'f')] fun _ _ => return 0

/-- `tty`: names the terminal, of which there is none. -/
def tty : Utility := withOptions "s" "" [("silent", 's'), ("quiet", 's')] (fun name o => do
  match o.operands with
  | a :: _ => complainExtra name a 2
  | [] =>
    if !o.has 's' then putLine "not a tty".toList 3
    return 1) 2

/-- `printenv`: writes the variables that programs get to see. -/
def printenv : Utility := withOptions "0" "" [("null", '0')] (fun _ o => do
  let ending : Raw := if o.has '0' then ['\x00'] else ['\n']
  let e ← environment
  match o.operands with
  | [] =>
    for (x, v) in e.bindings.entries.reverse do
      if v.exported then putText (x ++ '=' :: v.value ++ ending) 2
    return 0
  | names =>
    forEach names fun x => do
      match e.bindings.get? x with
      | some v =>
        if !v.exported then return false
        putText (v.value ++ ending) 2
        return true
      | none => return false) 2

/-- The utilities that start programs, with the names they are called by. -/
def startingTable : List (String × StartingUtility) :=
  [("awk", Awk.awk), ("env", env), ("find", Find.find), ("mawk", Awk.awk), ("nice", nice),
   ("nohup", nohup), ("setsid", setsid), ("stdbuf", stdbuf), ("timeout", timeout), ("xargs", xargs)]

/-- The other utilities, with the names they are called by. -/
def table : List (String × Utility) :=
  digestTable ++
  [("[", test), ("arch", arch), ("base32", base32), ("base64", base64), ("basename", basename), ("cat", cat),
   ("chmod", chmod), ("cksum", cksum), ("cmp", cmp), ("comm", comm), ("cp", cp), ("cut", cut), ("date", date),
   ("dd", dd), ("diff", diff), ("dir", dir), ("dirname", dirname), ("echo", echo), ("egrep", egrep), ("expand", expand),
   ("expr", expr), ("factor", factor), ("false", fun _ _ => return 1), ("fgrep", fgrep), ("fold", fold),
   ("grep", grep), ("groups", userGroups), ("head", head), ("hostname", hostname),
   ("id", identity), ("install", install), ("join", join),
   ("kill", kill), ("link", linkOne), ("ln", ln), ("logname", logname), ("ls", ls), ("mkdir", mkdir),
   ("mkfifo", mkfifo), ("mktemp", mktemp), ("mv", mv), ("nl", nl), ("nproc", nproc), ("od", od), ("paste", paste),
   ("printenv", printenv), ("printf", printf), ("pwd", pwd), ("readlink", readlink), ("realpath", realpath),
   ("rev", rev), ("rm", rm), ("rmdir", rmdir), ("sed", sed), ("seq", seq), ("sleep", sleep), ("sort", sort),
   ("split", split), ("stat", stat), ("sum", sum), ("sync", idle), ("tac", tac), ("tail", tail), ("tee", tee),
   ("test", test), ("touch", touch), ("tr", tr), ("true", fun _ _ => return 0), ("truncate", truncate),
   ("tsort", tsort), ("tty", tty), ("uname", uname), ("unexpand", unexpand), ("uniq", uniq),
   ("unlink", unlink), ("vdir", vdir), ("wc", wc), ("which", which), ("whoami", whoami), ("yes", yes)]

end LuaTree.Shell.Utility
