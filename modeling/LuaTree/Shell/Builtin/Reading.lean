import LuaTree.Shell.Builtin.Variables

/-!
# Commands that read input and arguments

`read` cuts a line into the values of variables; a backslash keeps a character from separating. `getopts`
takes the arguments apart, one option at a time.
-/

namespace LuaTree.Shell.Builtin

open Run

/-! ## Lines -/

/-- The state of cutting a line into a number of values. -/
structure Sharing where
  done : List Raw := [] -- the finished values, last one first
  current : Raw := [] -- the value that has been begun, backwards
  left : Nat -- how many values are still to come
  afterBlank : Bool := false -- whether only blanks came since a value ended at a blank
  limit? : Option Nat := none -- how much of the last value remains if nothing else follows

/-- Takes the next character, which is marked if it stands behind a backslash. -/
def Sharing.step (ifs : Raw) (s : Sharing) (c : Char × Bool) : Sharing :=
  let isSeparator := !c.2 && ifs.contains c.1
  let isBlank := isSeparator && (c.1 = ' ' || c.1 = '\t' || c.1 = '\n')
  let add (s : Sharing) : Sharing := { s with current := c.1 :: s.current }
  if s.left = 0 then
    -- the last value takes everything, but for blanks at its end
    if c.2 then { add s with afterBlank := false }
    else if isBlank then { add s with limit? := some (s.limit?.getD s.current.length) }
    else { add s with
      limit? := if isSeparator && s.afterBlank then s.limit? else none
      afterBlank := false }
  else
    let begins := s.afterBlank
    if begins ∧ isBlank then s
    else if begins ∧ isSeparator then { s with afterBlank := false }
    else if isSeparator then
      if s.current = [] ∧ isBlank ∧ s.limit?.isNone then s
      else if s.left = 1 then
        { add s with left := 0, limit? := some s.current.length, afterBlank := isBlank }
      else
        { s with done := s.current.reverse :: s.done, current := [], left := s.left - 1, afterBlank := isBlank }
    else { add s with afterBlank := false }

def shares (ifs : Raw) (names : Nat) (line : List (Char × Bool)) : List Raw :=
  let s := line.foldl (Sharing.step ifs) { left := names }
  let last := s.current.reverse
  let last := match s.limit? with
    | some n => last.take n
    | none => last
  (if last = [] then s.done else last :: s.done).reverse

/-- The characters of a line, marked if they stand behind a backslash; tells whether the line goes on. -/
def marked (keep : Bool) : Raw → List (Char × Bool) × Bool
  | [] => ([], false)
  | '\\' :: rest =>
    if keep then
      let (cs, more) := marked keep rest
      (('\\', false) :: cs, more)
    else
      match rest with
      | c :: rest =>
        let (cs, more) := marked keep rest
        ((c, true) :: cs, more)
      | [] => ([], true)
  | c :: rest =>
    let (cs, more) := marked keep rest
    ((c, false) :: cs, more)

/-- Reads a line, with those that it is continued on; tells whether its end was met. -/
def markedLine (descriptor : Nat) (delimiter : UInt8) (keep : Bool) :
    (fuel : Nat) → Run (Except Errno (List (Char × Bool) × Bool))
  | 0 => return .ok ([], false)
  | fuel + 1 => do
    match ← readUntil descriptor delimiter 1000000 [] with
    | .error e => return .error e
    | .ok (data, ended) =>
      let (cs, more) := marked keep ((Raw.ofBytes data).filter (· ≠ '\x00'))
      if more ∧ ended then
        match ← markedLine descriptor delimiter keep fuel with
        | .error e => return .error e
        | .ok (rest, ended) => return .ok (cs ++ rest, ended)
      else return .ok (cs, ended)

/-- Sets variables to values, and those without a value to nothing. -/
def setAll : List Raw → List Raw → Run Unit
  | [], _ => return ()
  | x :: xs, values => do
    if !Raw.isName x then
      if ← isExtended then
        complainOwn ('\x60' :: x ++ "': not a valid identifier".toList)
        throw (.failed 1)
      else badName x
    setVariable x (values.headD [])
    setAll xs (values.drop 1)

def setList (name : Raw) (values : List Raw) : Run Unit :=
  rebind name fun v =>
    let new := Variable.ofList values
    { v with value := new.value, isSet := true, list? := new.list? }

/-- `read`: sets variables from a line of input. -/
def readLine : Builtin := fun _ arguments => do
  let extended ← isExtended
  let g ← if extended then given "rse" "apdntuNi" arguments else given "r" "p" arguments
  let ifs ← Expand.separators
  if g.operands = [] ∧ !extended then fatal "arg count".toList
  let delimiter := if extended then
      match g.value? 'd' with
      | some t => (t.headD '\x00').toUInt8
      | none => 10
    else 10
  let descriptor := ((g.value? 'u').bind Raw.nat?).getD 0
  let answer ← match (g.value? 'n').bind Raw.nat?, extended with
    | some n, true => do
      match ← readUntil descriptor delimiter 1000000 [] with
      | .error e => pure (.error e)
      | .ok (data, ended) =>
        if n < data.length then giveBack descriptor (data.drop n ++ (if ended then [delimiter] else []))
        else if ended && data.length = n then giveBack descriptor [delimiter]
        pure (.ok ((marked (g.has 'r') (Raw.ofBytes (data.take n))).1, ended || n ≤ data.length))
    | _, _ => markedLine descriptor delimiter (g.has 'r') 100000
  match answer with
  | .error e =>
    if extended then
      complainOwn ("read error: ".toList ++ Raw.ofNat descriptor ++ ": ".toList ++ e.text.toList)
    else setAll g.operands []
    return 1
  | .ok (cs, ended) =>
    if extended ∧ (g.value? 'a').isSome then
      setList ((g.value? 'a').getD []) (shares ifs 1000000 cs)
    else if g.operands = [] then setVariable "REPLY".toList (cs.map Prod.fst)
    else setAll g.operands (shares ifs g.operands.length cs)
    return if ended then 0 else 1

/-- `mapfile`: makes a list of the lines of the input. -/
def readList : Builtin := fun _ arguments => do
  let g ← given "t" "dnOsu" arguments
  match ← readAll 0 with
  | .error _ => return 1
  | .ok data =>
    let (ls, ended) := Raw.lines (Raw.ofBytes data)
    let n := ls.length
    let values := ls.zipIdx.map fun (l, k) => if g.has 't' ∨ (k + 1 = n ∧ !ended) then l else l ++ ['\n']
    setList (g.operands.headD "MAPFILE".toList) values
    return 0

/-! ## Options -/

/-- What looking for an option has come to. -/
structure Found where
  letter : Char -- the letter, or what stands for the mistake
  value? : Option (Option Raw) -- the value that the option is given, if it is to be set
  index : Nat
  place : Nat -- where in the argument before that the next option is, or zero
  message? : Option Raw := none
  isEnd : Bool := false

/-- Whether an option is known, and whether it has a value. -/
def wanted? (c : Char) : Raw → Option Bool
  | [] => none
  | d :: rest =>
    if c = d then some (rest.head? = some ':')
    else if rest.head? = some ':' then wanted? c (rest.drop 1) else wanted? c rest
termination_by t => t.length

def nextOption (wanted : Raw) (arguments : List Raw) (index place : Nat) : Found :=
  let arg? (k : Nat) : Option Raw := if k = 0 then none else arguments[k - 1]?
  let word := (arg? (index - 1)).getD []
  let inWord := 1 < index && place ≠ 0 && place < word.length
  let silent := wanted.head? = some ':'
  let atEnd (index : Nat) : Found := { letter := '?', value? := none, index, place := 0, isEnd := true }
  let begin? : Option (Raw × Nat × Nat) :=
    if inWord then some (word, place, index)
    else
      match arg? index with
      | some ('-' :: c :: t) => some ('-' :: c :: t, 1, index + 1)
      | _ => none
  match begin? with
  | none => atEnd index
  | some (text, spot, index) =>
    if !inWord ∧ text = ['-', '-'] then atEnd index
    else
      let c := (text[spot]?).getD '?'
      let rest := text.drop (spot + 1)
      let place := if rest = [] then 0 else spot + 1
      match wanted? c wanted with
      | none =>
        if silent then { letter := '?', value? := some (some [c]), index, place }
        else { letter := '?', value? := some none, index, place
               message? := some ("Illegal option -".toList ++ [c]) }
      | some false => { letter := c, value? := some (some []), index, place }
      | some true =>
        if rest ≠ [] then { letter := c, value? := some (some rest), index, place := 0 }
        else
          match arg? index with
          | some v => { letter := c, value? := some (some v), index := index + 1, place := 0 }
          | none =>
            if silent then { letter := ':', value? := some (some [c]), index, place := 0 }
            else { letter := '?', value? := some none, index, place := 0
                   message? := some ("No arg for -".toList ++ c :: " option".toList) }

/-- `getopts`: takes the next option from the arguments. -/
def nextOptionOf : Builtin := fun _ arguments => do
  match arguments with
  | wanted :: name :: given =>
    let e ← environment
    let among := if given = [] then e.arguments else given
    let isBeyond := among.length + 1 < e.optionIndex
    let found := nextOption wanted among (if isBeyond then 1 else e.optionIndex) (if isBeyond then 0 else e.optionPlace)
    match found.message? with
    | some message =>
      if e.dialect = .extended then
        let isUnknown := "Illegal".toList.isPrefixOf message
        complainLine (e.name ++ (if isUnknown then ": illegal option -- "
          else ": option requires an argument -- ").toList
          ++ [if isUnknown then message.getLastD '?' else (message.drop 12).headD '?'])
      else complainLine message
    | none => pure ()
    match found.value? with
    | some (some v) => setVariable "OPTARG".toList v
    | some none => forget "OPTARG".toList
    | none => pure ()
    setVariable "OPTIND".toList (Raw.ofNat found.index)
    if Raw.isName name then setVariable name [found.letter]
    else badName name
    modifyEnvironment fun e => { e with optionIndex := found.index, optionPlace := found.place }
    return if found.isEnd then 1 else 0
  | _ =>
    if ← isExtended then
      complainUse
      return 2
    else fatal "Usage: getopts optstring var [arg...]".toList

end LuaTree.Shell.Builtin
