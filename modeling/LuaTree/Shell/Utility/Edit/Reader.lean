import LuaTree.Shell.Format
import LuaTree.Shell.Utility.Edit.Basic

/-!
# Reading scripts that edit lines

A script comes in parts, each of them an argument or a file; what a part leaves open, the next one can close.
A mistake is told with the part and the place in it where it has been found.
-/

namespace LuaTree.Shell.Edit

/-- A part of a script. -/
inductive Part where
  | argument (number : Nat) -- an argument; they are counted
  | file (name : Raw)
  | none
  deriving Inhabited

/-- A mistake in a script. -/
structure Mistake where
  part : Part
  place : Nat -- the place, as a count of characters in an argument, and of lines in a file
  text : Raw

def Mistake.message (m : Mistake) : Raw :=
  match m.part with
  | .argument n =>
    "-e expression #".toList ++ Raw.ofNat n ++ ", char ".toList ++ Raw.ofNat m.place ++ ": ".toList ++ m.text
  | .file name => "file ".toList ++ name ++ " line ".toList ++ Raw.ofNat m.place ++ ": ".toList ++ m.text
  | .none => m.text

/-- A command whose text goes on. -/
inductive Pending where
  | before
  | after
  | instead

def Pending.verb : Pending → Raw → Verb
  | .before, t => .before t
  | .after, t => .after t
  | .instead, t => .instead t

/-- What has been read and what is still to be read. -/
structure Reading where
  rest : Raw := []
  taken : Nat := 0
  line : Nat := 1
  part : Part := .argument 0
  isExtended : Bool := false
  edits : Array Instruction := #[]
  -- the blocks that are open: where they begin in the row, in which part and in which line, the last
  -- one first
  blocks : List (Nat × Part × Nat) := []
  labels : List (Raw × Nat) := []
  jumps : List (Nat × Raw) := []
  pending? : Option (Nat × Pending × Raw) := none -- a command whose text goes on with the next part
  isQuiet : Bool := false -- whether lines are written only when a command says so

/-- A reader: takes characters away, or finds a mistake. -/
abbrev Reader := StateT Reading (Except Mistake)

namespace Reader

def fail {α : Type} (text : String) : Reader α := do
  let s ← get
  let place := match s.part with
    | .file _ => s.line
    | _ => s.taken
  throw { part := s.part, place, text := text.toList }

def take? : Reader (Option Char) := do
  let s ← get
  match s.rest with
  | [] => return none
  | c :: rest =>
    set { s with rest, taken := s.taken + 1, line := if c = '\n' then s.line + 1 else s.line }
    return some c

def putBack (c? : Option Char) : Reader Unit := do
  match c? with
  | some c =>
    modify fun s =>
      { s with rest := c :: s.rest, taken := s.taken - 1, line := if c = '\n' then s.line - 1 else s.line }
  | none => return ()

def isBlank (c : Char) : Bool := c = ' ' || c = '\t'

/-- Whether a character is a blank or ends a line. -/
def isSpace (c : Char) : Bool := c = ' ' || ('\t' ≤ c && c ≤ '\r')

/-- Leaves characters behind that pass a test. -/
def skipWhile (test : Char → Bool) : Reader Unit := do
  for _ in (← get).rest do
    if !(← get).rest.head?.any test then break
    discard take?

/-- Takes the next character that is not a blank. -/
def takeSolid? : Reader (Option Char) := do
  skipWhile isBlank
  take?

def takeWhile (test : Char → Bool) : Reader Raw := do
  let t := (← get).rest.takeWhile test
  skipWhile test
  return t

/-- Takes a number, which is zero if there are no digits. -/
def number : Reader Nat := do return (Raw.nat? (← takeWhile Char.isDigit)).getD 0

/-- Takes the end of a command. -/
def finish : Reader Unit := do
  match ← takeSolid? with
  | none | some '\n' | some ';' => return ()
  | some c => if c = '\x7d' ∨ c = '#' then putBack (some c) else fail "extra characters after command"

def label : Reader Raw := do
  skipWhile isBlank
  takeWhile fun c => !isSpace c && c ≠ ';' && c ≠ '\x7d'

def fileName : Reader Raw := do
  skipWhile isBlank
  let name ← takeWhile (· ≠ '\n')
  discard take?
  if name = [] then fail "missing filename in r/R/w/W commands"
  return name

/-- Where text is to be written that goes under a name. -/
def target : Reader Target := do
  let name ← fileName
  match String.ofList name with
  | "/dev/stdout" => return .output
  | "/dev/stderr" => return .errors
  | _ => return .file name

/-- Takes the rest of a set within brackets, which are the last characters read; nothing if it is not closed. -/
def setRest : (fuel : Nat) → (isFirst : Bool) → (read : Array Char) → Reader (Option (Array Char))
  | 0, _, _ => return none
  | fuel + 1, isFirst, read => do
    match ← take? with
    | none => return none
    | some '\n' => return none
    | some ']' => if isFirst then setRest fuel false (read.push ']') else return some (read.push ']')
    | some '^' => setRest fuel (isFirst && read.back? = some '[') (read.push '^')
    | some '[' =>
      match (← get).rest with
      | mark :: t =>
        if mark = ':' ∨ mark = '.' ∨ mark = '=' then
          match Regular.named? mark [] t with
          | some (name, _) =>
            for _ in name ++ "123".toList do discard take?
            setRest fuel false (read ++ (['[', mark] ++ name ++ [mark, ']']).toArray)
          | none => return none
        else setRest fuel false (read.push '[')
      | [] => return none
    | some c => setRest fuel false (read.push c)

/-- Takes a text up to a delimiter; nothing if there is none in the line. -/
def delimited (delimiter : Char) (isRegex : Bool) : (fuel : Nat) → (read : Array Char) →
    Reader (Option Raw)
  | 0, _ => return none
  | fuel + 1, read => do
    match ← take? with
    | none => return none
    | some '\n' =>
      putBack (some '\n')
      return none
    | some c =>
      if c = delimiter then return some read.toList
      else if c = '\\' then
        match ← take? with
        | none => return none
        | some d =>
          if d = 'n' ∧ isRegex ∧ delimiter ≠ 'n' then delimited delimiter isRegex fuel (read.push '\n')
          else if d = '\n' then
            delimited delimiter isRegex fuel (if isRegex then read.push d else (read.push '\\').push d)
          else if d = delimiter ∧ (isRegex ∨ d ≠ '&') then delimited delimiter isRegex fuel (read.push d)
          else delimited delimiter isRegex fuel ((read.push '\\').push d)
      else if c = '[' ∧ isRegex then
        match ← setRest fuel true (read.push '[') with
        | some read => delimited delimiter isRegex fuel read
        | none => return none
      else delimited delimiter isRegex fuel (read.push c)

/-! ## Numbered characters -/

/-- The character that is given behind a backslash by its number or as a control key, and what follows. -/
def numbered? : Raw → Option (Char × Raw)
  | 'x' :: t => (Format.hex? 2 t).map fun (n, rest) => (Format.byte n, rest)
  | 'o' :: t =>
    let ds := (t.take 3).takeWhile Format.isOctal
    if ds = [] then none
    else some (Format.byte (ds.foldl (fun n c => n * 8 + (c.toNat - 48)) 0), t.drop ds.length)
  | 'd' :: t =>
    let ds := (t.take 3).takeWhile Char.isDigit
    if ds = [] then none else some (Format.byte ((Raw.nat? ds).getD 0), t.drop ds.length)
  | 'c' :: c :: t => if c = '\\' then none else some (Format.byte (c.toUpper.toNat ^^^ 64), t)
  | _ => none

def withNumbered : (fuel : Nat) → Raw → Raw
  | 0, t => t
  | _ + 1, [] => []
  | fuel + 1, '\\' :: t =>
    match numbered? t with
    | some (c, rest) => c :: withNumbered fuel rest
    | none =>
      match t with
      | [] | ['c'] => ['\\']
      | c :: rest => '\\' :: c :: withNumbered fuel rest
  | fuel + 1, c :: t => c :: withNumbered fuel t

/-! ## Searching and changing -/

/-- What a regular expression searches for; so many parts are asked about. -/
def search (text : Raw) (folds hasLines : Bool) (asked : Nat := 0) : Reader Search := do
  if text = [] then
    if folds ∨ hasLines then fail "cannot specify modifiers on empty regexp"
    return { regex? := none }
  let style : Regular.Style := { isExtended := (← get).isExtended, hasLetters := true, isStrict := true }
  match Regular.read style (withNumbered (text.length + 1) text) with
  | .error .bareClass => throw { part := .none, place := 0, text := Regular.Fault.bareClass.text.toList }
  | .error fault => fail fault.text
  | .ok (r, parts) =>
    if parts < asked then
      fail ("invalid reference \\" ++ toString asked ++ " on \x60s' command's RHS")
    return { regex? := some r, folds, hasLines }

def inserts : (fuel : Nat) → (text : Raw) → Raw → List Insert
  | 0, text, _ => [.text text.reverse]
  | fuel + 1, text, t =>
    let done : List Insert := if text = [] then [] else [.text text.reverse]
    match t with
    | [] => done
    | '&' :: t => done ++ .part 0 :: inserts fuel [] t
    | '\\' :: c :: t =>
      match numbered? (c :: t) with
      | some (d, rest) => inserts fuel (d :: text) rest
      | none =>
        match c with
        | 'U' => done ++ .casing .upper :: inserts fuel [] t
        | 'L' => done ++ .casing .lower :: inserts fuel [] t
        | 'u' => done ++ .casing .nextUpper :: inserts fuel [] t
        | 'l' => done ++ .casing .nextLower :: inserts fuel [] t
        | 'E' => done ++ .casing .same :: inserts fuel [] t
        | 'c' => if t = [] then inserts fuel ('\\' :: text) t else inserts fuel ('c' :: text) t
        | c =>
          if c.isDigit then done ++ .part (c.toNat - 48) :: inserts fuel [] t
          else inserts fuel ((Regular.letter? c).getD c :: text) t
    | c :: t => inserts fuel (c :: text) t

/-- The options of a change. -/
structure ChangeOptions where
  folds : Bool := false -- whether the case of letters makes no difference
  hasLines : Bool := false -- whether lines begin and end within the text
  isGlobal : Bool := false
  prints : Bool := false
  first? : Option Nat := none -- the first match that is changed
  target? : Option Target := none

def changeOptions : (fuel : Nat) → ChangeOptions → Reader ChangeOptions
  | 0, k => return k
  | fuel + 1, k => do
    match ← take? with
    | none | some '\n' | some ';' => return k
    | some c =>
      if c = '\x7d' ∨ c = '#' then
        putBack (some c)
        return k
      else if isBlank c ∨ c = '\r' then changeOptions fuel k
      else if c.isDigit then
        if k.first?.isSome then fail "multiple number options to \x60s' command"
        putBack (some c)
        let n ← number
        if n = 0 then fail "number option to \x60s' command may not be zero"
        changeOptions fuel { k with first? := some n }
      else
        match c with
        | 'i' | 'I' => changeOptions fuel { k with folds := true }
        | 'm' | 'M' => changeOptions fuel { k with hasLines := true }
        | 'p' =>
          if k.prints then fail "multiple \x60p' options to \x60s' command"
          changeOptions fuel { k with prints := true }
        | 'g' =>
          if k.isGlobal then fail "multiple \x60g' options to \x60s' command"
          changeOptions fuel { k with isGlobal := true }
        | 'w' => return { k with target? := some (← target) }
        | _ => fail "unknown option to \x60s'"

def change : Reader Verb := do
  let open_ : String := "unterminated \x60s' command"
  match ← take? with
  | none | some '\n' | some '\\' => fail open_
  | some delimiter =>
    let fuel := (← get).rest.length + 1
    match ← delimited delimiter true fuel #[] with
    | none => fail open_
    | some pattern =>
      match ← delimited delimiter false fuel #[] with
      | none => fail open_
      | some text =>
        let k ← changeOptions fuel {}
        let inserts := inserts (text.length + 1) [] text
        let asked := inserts.foldl (fun n i => match i with
          | .part k => max n k
          | _ => n) 0
        let search ← search pattern k.folds k.hasLines asked
        return .change
          { search, inserts, isGlobal := k.isGlobal, prints := k.prints, first := k.first?.getD 1
            target? := k.target? }

/-- The characters of an exchange, of which some stand behind backslashes. -/
def exchanged : Raw → Raw
  | '\\' :: '\\' :: t => '\\' :: exchanged t
  | '\\' :: 'n' :: t => '\n' :: exchanged t
  | '\\' :: '\n' :: t => '\n' :: exchanged t
  | '\\' :: c :: t =>
    match Regular.letter? c with
    | some d => d :: exchanged t
    | none => c :: exchanged t
  | c :: t => c :: exchanged t
  | [] => []

def exchange : Reader Verb := do
  let open_ : String := "unterminated \x60y' command"
  match ← take? with
  | none => fail open_
  | some delimiter =>
    let fuel := (← get).rest.length + 1
    match ← delimited delimiter false fuel #[] with
    | none => fail open_
    | some old =>
      match ← delimited delimiter false fuel #[] with
      | none => fail open_
      | some new =>
        let old := exchanged old
        let new := exchanged new
        if old.length ≠ new.length then fail "strings for \x60y' command are different lengths"
        finish
        return .map (old.zip new)

/-! ## Addresses -/

def address? (c? : Option Char) : Reader (Option Address) := do
  match c? with
  | none => return none
  | some c =>
    if c = '/' ∨ c = '\\' then
      let delimiter? ← if c = '\\' then take? else pure (some '/')
      match delimiter? with
      | none => fail "unterminated address regex"
      | some delimiter =>
        match ← delimited delimiter true ((← get).rest.length + 1) #[] with
        | none => fail "unterminated address regex"
        | some text =>
          let mut folds := false
          let mut hasLines := false
          for _ in (← get).rest do
            match ← takeSolid? with
            | some 'I' => folds := true
            | some 'M' => hasLines := true
            | d =>
              putBack d
              break
          return some (.found (← search text folds hasLines))
    else if c.isDigit then
      putBack (some c)
      let n ← number
      match ← takeSolid? with
      | some '~' =>
        skipWhile isBlank
        let step ← number
        return some (if step = 0 then .line n else .step n step)
      | d =>
        putBack d
        return some (.line n)
    else if c = '+' ∨ c = '~' then
      skipWhile isBlank
      let n ← number
      return some (if c = '+' then .more n else .multiple n)
    else if c = '$' then return some .last
    else return none

/-! ## Commands -/

/-- Takes away backslashes in a text that is to be written. -/
def plainText : Raw → Raw
  | '\\' :: c :: t =>
    match numbered? (c :: t) with
    | some (d, _) =>
      let used := match c with
        | 'c' => 1
        | 'x' => ((t.take 2).takeWhile fun e => (Decimal.hexValue e).isSome).length
        | 'o' => ((t.take 3).takeWhile Format.isOctal).length
        | _ => ((t.take 3).takeWhile Char.isDigit).length
      d :: plainText (t.drop used)
    | none => (Regular.letter? c).getD c :: plainText t
  | ['\\'] => []
  | c :: t => c :: plainText t
  | [] => []
termination_by t => t.length
decreasing_by all_goals simp_wf <;> omega

/-- Takes a text up to the first end of a line that does not stand behind a backslash; tells whether the part
ends within it. -/
def textLines : (fuel : Nat) → (read : Array Char) → Reader (Raw × Bool)
  | 0, read => return (read.toList, true)
  | fuel + 1, read => do
    match ← take? with
    | none => return (read.toList, false)
    | some '\n' => return (read.toList, false)
    | some '\\' =>
      match ← take? with
      | none => return (read.toList, true)
      | some c => textLines fuel ((read.push '\\').push c)
    | some c => textLines fuel (read.push c)

/-- Takes the text of a command, which has the given place in the row. -/
def textOf (place : Nat) (kind : Pending) : Reader Verb := do
  let body (begun : Raw) : Reader Verb := do
    let (t, goesOn) ← textLines ((← get).rest.length + 1) begun.toArray
    if goesOn then
      modify fun s => { s with pending? := some (place, kind, t ++ ['\n']) }
      return kind.verb (plainText t ++ ['\n'])
    return kind.verb (plainText t ++ ['\n'])
  match ← takeSolid? with
  | none => fail "expected \\ after \x60a', \x60c' or \x60i'"
  | some '\\' =>
    let s ← get
    let blank := s.rest.takeWhile isBlank
    match s.rest.drop blank.length with
    | [] =>
      skipWhile isBlank
      modify fun s => { s with pending? := some (place, kind, []) }
      return kind.verb []
    | '\n' :: _ =>
      skipWhile isBlank
      discard take?
      body []
    | _ => body []
  | some c =>
    putBack (some c)
    body []

def add (e : Instruction) : Reader Unit := modify fun s => { s with edits := s.edits.push e }

/-- Takes the verb of a command, whose first character has been taken; nothing if it is only a note. -/
def verb? (e : Instruction) (c? : Option Char) : Reader (Option Verb) := do
  let s ← get
  let place := s.edits.size
  let simple (v : Verb) : Reader (Option Verb) := do
    finish
    return some v
  let jump (v : Verb) : Reader (Option Verb) := do
    let name ← label
    if name ≠ [] then modify fun s => { s with jumps := (place, name) :: s.jumps }
    return some v
  match c? with
  | none | some '\n' | some ';' => fail "missing command"
  | some c =>
    if c = '\x7b' then
      modify fun s => { s with blocks := (place, s.part, s.line) :: s.blocks }
      return some (.enter 0)
    else if c = '\x7d' then
      match s.blocks with
      | [] => fail "unexpected \x60\x7d'"
      | (start, _) :: outer =>
        if e.first?.isSome then fail "\x7d doesn't want any addresses"
        finish
        modify fun s =>
          { s with
            blocks := outer
            edits := s.edits.modify start fun b => { b with verb := .enter place } }
        return some .exit
    else
      match c with
      | '#' =>
        if e.first?.isSome then fail "comments don't accept any addresses"
        let t ← takeWhile (· ≠ '\n')
        if t.head? = some 'n' ∧ s.taken = 1 ∧ s.edits.isEmpty then modify fun s => { s with isQuiet := true }
        return none
      | 'v' =>
        let version ← label
        let numbers := (version.splitOn '.').map fun t => (Raw.nat? t).getD 0
        if 4 < numbers.headD 0 ∨ (numbers.headD 0 = 4 ∧ 9 < (numbers.drop 1).headD 0) then
          fail "expected newer version of sed"
        finish
        return none
      | 'a' => return some (← textOf place .after)
      | 'i' => return some (← textOf place .before)
      | 'c' => return some (← textOf place .instead)
      | ':' =>
        if e.first?.isSome then fail ": doesn't want any addresses"
        let name ← label
        if name = [] then fail "\":\" lacks a label"
        modify fun s => { s with labels := s.labels ++ [(name, place)] }
        return some .label
      | 'b' => jump (.jump none)
      | 't' => jump (.jumpIf true none)
      | 'T' => jump (.jumpIf false none)
      | 'q' | 'Q' =>
        if e.last?.isSome then fail "command only uses one address"
        skipWhile isBlank
        let n ← number
        simple (.quit n (c = 'Q'))
      | 'l' =>
        skipWhile isBlank
        let isGiven : Bool := (← get).rest.head?.any Char.isDigit
        let n ← number
        simple (.show (if isGiven then some n else none))
      | '=' => simple .number
      | 'd' => simple .delete
      | 'D' => simple .deleteFirst
      | 'F' => simple .fileName
      | 'g' => simple .takeBack
      | 'G' => simple .addBack
      | 'h' => simple .putAside
      | 'H' => simple .addAside
      | 'n' => simple .next
      | 'N' => simple .addNext
      | 'p' => simple .print
      | 'P' => simple .printFirst
      | 'z' => simple .clear
      | 'x' => simple .exchange
      | 'r' => return some (.insertFile (← fileName))
      | 'R' => return some (.insertLine (← fileName))
      | 'w' => return some (.write (← target) false)
      | 'W' => return some (.write (← target) true)
      | 's' => return some (← change)
      | 'y' => return some (← exchange)
      | c => fail ("unknown command: \x60" ++ String.ofList [c] ++ "'")

/-- Takes a command, if there is one; answers whether there was. -/
def edit : Reader Bool := do
  skipWhile fun c => c = ';' || isSpace c
  match ← take? with
  | none => return false
  | some c =>
    let first? ← address? (some c)
    let mut next? := some c
    let mut last? : Option Address := none
    match first? with
    | some (.more n) | some (.multiple n) =>
      if n ≠ 0 then fail "invalid usage of +N or ~N as first address"
      next? ← takeSolid?
    | some _ =>
      next? ← takeSolid?
      if next? = some ',' then
        last? ← address? (← takeSolid?)
        if last?.isNone then fail "unexpected \x60,'"
        next? ← takeSolid?
    | none => pure ()
    let first? : Option Address := match first? with
      | some (.more _) | some (.multiple _) => none
      | a => a
    let isRegex : Bool := match last? with
      | some (.found _) => true
      | _ => false
    match first? with
    | some (.line 0) => if !isRegex then fail "invalid usage of line address 0"
    | _ => pure ()
    let mut isInverted := false
    if next? = some '!' then
      isInverted := true
      next? ← takeSolid?
      if next? = some '!' then fail "multiple \x60!'s"
    let e : Instruction := { first?, last?, isInverted, verb := .exit }
    match ← verb? e next? with
    | some verb => add { e with verb }
    | none => pure ()
    return true

def edits : (fuel : Nat) → Reader Unit
  | 0 => return ()
  | fuel + 1 => do if ← edit then edits fuel

/-- Goes on with the text of a command that a part before has left open. -/
def goOn : Reader Unit := do
  match (← get).pending? with
  | none => return ()
  | some (place, kind, begun) =>
    modify fun s => { s with pending? := none }
    let (t, goesOn) ← textLines ((← get).rest.length + 1) #[]
    let whole := begun ++ t
    modify fun s =>
      { s with
        edits := s.edits.modify place fun e => { e with verb := kind.verb (plainText whole ++ ['\n']) }
        pending? := if goesOn then some (place, kind, whole ++ ['\n']) else none }

def parts : List (Part × Raw) → Reader Unit
  | [] => return ()
  | (part, text) :: rest => do
    modify fun s => { s with part, rest := text, taken := 0, line := 1 }
    goOn
    edits (text.length + 1)
    parts rest

end Reader

/-- What is said about a script. -/
inductive Refusal where
  | mistake (m : Mistake)
  | noLabel (name : Raw)

def Refusal.message : Refusal → Raw
  | .mistake m => m.message
  | .noLabel name => "can't find label for jump to \x60".toList ++ name ++ ['\'']

def Script.read (isExtended : Bool) (parts : List (Part × Raw)) : Except Refusal Script :=
  match (Reader.parts parts).run { isExtended } with
  | .error m => .error (.mistake m)
  | .ok ((), s) =>
    match s.blocks with
    | (_, part, line) :: _ =>
      let place := match part with
        | .file _ => line
        | _ => 0
      .error (.mistake { part, place, text := "unmatched \x60\x7b'".toList })
    | [] =>
      let joined := s.jumps.reverse.foldl (fun (edits : Except Refusal (Array Instruction)) (place, name) =>
        edits.bind fun edits =>
          match s.labels.lookup name with
          | none => .error (.noLabel name)
          | some goal =>
            .ok (edits.modify place fun e =>
              { e with
                verb := match e.verb with
                  | .jumpIf c _ => .jumpIf c (some goal)
                  | _ => .jump (some goal) })) (.ok s.edits)
      joined.map fun edits => { edits, isQuiet := s.isQuiet }

end LuaTree.Shell.Edit
