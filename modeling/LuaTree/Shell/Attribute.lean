import LuaTree.Shell.Machine
import LuaTree.Shell.Quote

/-!
# What variables are

A variable of the extended dialect may be a list, a sum, unchangeable, seen by programs, or a name for another
variable. This module tells how that is shown: by letters (`Variable.letters`), and as the command that would
make the variable anew (`Variable.declared`).
-/

namespace LuaTree.Shell.Variable

def letters (v : Variable) : Raw :=
  let mark (holds : Bool) (c : Char) : Raw := if holds then [c] else []
  mark (v.list?.isSome && !v.byName) 'a' ++ mark (v.list?.isSome && v.byName) 'A' ++ mark v.isSum 'i'
    ++ mark v.refers 'n' ++ mark v.isFixed 'r' ++ mark v.exported 'x' ++ mark (v.recased? = some false) 'l'
    ++ mark (v.recased? = some true) 'u'

/-- The command that gives a variable its letters, up to the name. -/
def head (x : Raw) (v : Variable) : Raw :=
  "declare -".toList ++ (if v.letters = [] then ['-'] else v.letters) ++ ' ' :: x

/-- The places of a list and their values, between parentheses. -/
def listText (byName : Bool) (list : List (Raw × Raw)) : Raw :=
  let place (t : Raw) : Raw :=
    if byName ∧ (Quote.hasMeaning t ∨ !t.all Quote.isShown) then Quote.double t else t
  let entry (p : Raw × Raw) : Raw := '[' :: place p.1 ++ "]=".toList ++ Quote.double p.2
  if byName then ['('] ++ list.flatMap (fun p => entry p ++ [' ']) ++ [')']
  else ['('] ++ [' '].intercalate (list.map entry) ++ [')']

def declared (x : Raw) (v : Variable) : Raw :=
  v.head x ++
    if !v.isSet then []
    else '=' :: match v.list? with
      | some list => listText v.byName list
      | none => Quote.double v.value

def setting (x : Raw) (v : Variable) : Raw :=
  x ++ '=' :: match v.list? with
    | some list => listText v.byName list
    | none => if v.value = [] then [] else Quote.listedAgain v.value

def recased (v : Variable) (t : Raw) : Raw :=
  match v.recased? with
  | some upper => t.map fun c => if upper then c.toUpper else c.toLower
  | none => t

end LuaTree.Shell.Variable
