import LuaTree.Shell.Arithmetic
import LuaTree.Shell.Brace
import LuaTree.Shell.Options
import LuaTree.Shell.Parser
import LuaTree.Shell.Pattern

/-!
# Expansion

From words to the arguments of a command: what stands for something is put in, the result is cut into
fields, and fields that are patterns become the names of files. Every character carries a mark that
tells where it comes from, since that decides which of these steps it takes part in.

How scripts inside of words run is a parameter (`Inner`), so this module does not need to know how commands
run.
-/

namespace LuaTree.Shell

/-- Where a character comes from. -/
inductive Mark where
  | literal -- it stands in the script, unquoted
  | quoted
  | expanded -- it was put in, unquoted
  deriving DecidableEq, Inhabited

/-- A part of an expanded word. -/
inductive Sign where
  | char (c : Char) (mark : Mark)
  | empty -- quotes with nothing between them
  | cut -- the end of one field and the beginning of another
  deriving DecidableEq, Inhabited

/-- How scripts inside of words run. -/
structure Inner where
  output : (line : Nat) → Raw → Run Raw
  -- the name of a pipe that a script reads from or writes to
  process : (reads : Bool) → (line : Nat) → Raw → Run Raw

namespace Expand

open Run

/-- The characters of a text, marked. -/
def signs (mark : Mark) (t : Raw) : List Sign := t.map (.char · mark)

def valueSigns (quoted : Bool) (t : Raw) : List Sign :=
  if quoted then if t = [] then [.empty] else signs .quoted t else signs .expanded t

/-- The text of signs; fields are joined by a separator. -/
def textOf (separator : Raw) (ss : List Sign) : Raw :=
  ss.flatMap fun
    | .char c _ => [c]
    | .empty => []
    | .cut => separator

/-- Signs as the characters of a pattern. -/
def glyphsOf (ss : List Sign) : List Glyph :=
  ss.filterMap fun
    | .char c mark => some ⟨c, mark = .quoted⟩
    | .cut => some ⟨' ', true⟩
    | .empty => none

/-- The same signs as if they had been put in. -/
def asExpanded (ss : List Sign) : List Sign :=
  ss.map fun
    | .char c .literal => .char c .expanded
    | s => s

/-! ## Parameters -/

/-- What stands between the braces of a parameter. -/
structure Parameter where
  name : Raw
  place? : Option Raw := none
  length : Bool := false
  indirect : Bool := false -- whether the parameter that it names is meant
  op : String := ""
  operand : Raw := []
  deriving Inhabited

/-- The operations, longer ones first. -/
def operations (dialect : Dialect) : List String :=
  [":-", ":=", ":?", ":+", "-", "=", "?", "+", "%%", "%", "##", "#"]
    ++ (match dialect with
        | .plain => []
        | .extended => ["//", "/#", "/%", "/", "^^", "^", ",,", ",", "@", ":"])

def parameterName (t : Raw) : Raw :=
  match t with
  | c :: rest =>
    if Raw.startsName c then c :: rest.takeWhile Raw.inName
    else if c.isDigit then c :: rest.takeWhile Char.isDigit
    else if "@*#?-$!".toList.contains c then [c]
    else []
  | [] => []

/-- Reads a parameter and its place in a list, and what follows them. -/
def parameterHead (dialect : Dialect) (t : Raw) : Raw × Option Raw × Raw :=
  let name := parameterName t
  let rest := t.drop name.length
  match dialect, rest with
  | .extended, '[' :: inner =>
    let place := inner.takeWhile (· ≠ ']')
    if place.length < inner.length ∧ Raw.isName name then
      (name, some place, inner.drop (place.length + 1))
    else (name, none, rest)
  | _, _ => (name, none, rest)

/-- Reads what stands between the braces of a parameter. -/
def parameter? (dialect : Dialect) (body : Raw) : Option Parameter :=
  let (named, namedPlace?, after) := parameterHead dialect (body.drop 1)
  if body.head? = some '#' ∧ named ≠ [] ∧ after = [] then
    some { name := named, place? := namedPlace?, length := true }
  else
    let indirect := dialect = .extended && body.head? = some '!' && named.head?.any Raw.inName
    let (name, place?, rest) :=
      if indirect then (named, namedPlace?, after) else parameterHead dialect body
    if name = [] then none
    else if rest = [] then some { name, place?, indirect }
    else if indirect ∧ (rest = ['*'] ∨ rest = ['@']) then
      some { name, place? := some rest, indirect, op := "names" }
    else
      ((operations dialect).find? fun op => op.toList.isPrefixOf rest).map fun op =>
        { name, place?, indirect, op, operand := rest.drop op.length }

/-- The value of a parameter, if it is set. -/
def valueOf? (name : Raw) : Run (Option Raw) := do
  let e ← environment
  match name with
  | ['?'] => return some (Raw.ofNat e.status)
  | ['#'] => return some (Raw.ofNat e.arguments.length)
  | ['$'] => return some (Raw.ofNat e.self)
  | ['!'] => return e.aside?.map Raw.ofNat
  | ['-'] =>
    return some ((Options.shownLetters e.dialect).filter e.options.contains)
  | _ =>
    match Raw.nat? name with
    | some 0 => return some e.name
    | some (n + 1) => return e.arguments[n]?
    | none => varValue? name

def separators : Run Raw := return (← varValue? "IFS".toList).getD " \t\n".toList

/-- What stands between values that are joined. -/
def joint : Run Raw := return (← separators).take 1

/-- What a parameter leads to. -/
inductive Reach where
  | one (value? : Option Raw) -- one value, if it is set
  | several (values : List Raw) (joined : Bool) -- several values, which may be meant as one text

def listOf (name : Raw) : Run (List (Raw × Raw)) := do
  match ← binding? name with
  | some v => return if v.isSet then v.list?.getD [(['0'], v.value)] else []
  | none => return []

/-- What a parameter leads to; `text` puts in what the place of a list stands for. -/
def reach (text : Raw → Run Raw) (p : Parameter) : Run Reach := do
  let e ← environment
  match p.name, p.place? with
  | ['@'], _ => return .several e.arguments false
  | ['*'], _ => return .several e.arguments true
  | name, none => return .one (← valueOf? name)
  | name, some ['@'] => return .several ((← listOf name).map Prod.snd) false
  | name, some ['*'] => return .several ((← listOf name).map Prod.snd) true
  | name, some place =>
    let list ← listOf name
    let key ←
      if (← binding? name).any Variable.byName then text place
      else do
        let n ← Arithmetic.evaluate (← text place)
        -- places below zero count from the end
        let size : Nat := ((list.getLast?.bind fun p => Raw.nat? p.1).map (· + 1)).getD 0
        pure (Raw.ofInt (if n < 0 then size + n else n))
    return .one (list.lookup key)

namespace Reach

def isSet : Reach → Bool
  | .one v? => v?.isSome
  | .several vs _ => !vs.isEmpty

def whole (separator : Raw) : Reach → Raw
  | .one v? => v?.getD []
  | .several vs _ => separator.intercalate vs

def signs (quoted : Bool) (separator : Raw) : Reach → List Sign
  | .one v? => valueSigns quoted (v?.getD [])
  | .several vs joined =>
    if joined ∧ quoted then valueSigns true (separator.intercalate vs)
    else [Sign.cut].intercalate (vs.map (valueSigns quoted))

def map (f : Raw → Raw) : Reach → Reach
  | .one v? => .one (v?.map f)
  | .several vs joined => .several (vs.map f) joined

/-- Takes the part that a pattern accepts from several values as if they were one text, from whose
beginning it can only reach to the end of the first. -/
def trimmed (atEnd longest : Bool) (items : List Pattern.Item) : Reach → Reach
  | .several (v :: vs) joined =>
    if !atEnd then .several (Pattern.trim false longest items v :: vs) joined
    else
      let all := v :: vs
      let order := if longest then List.range all.length else (List.range all.length).reverse
      let accepted (v : Raw) : Bool := (Pattern.tails v).any (Pattern.accepts items)
      match order.find? fun k => (all[k]?).any accepted with
      | some k => .several
          (all.take k ++ ((all[k]?).map (Pattern.trim true longest items)).toList) joined
      | none => .several all joined
  | r => r.map (Pattern.trim atEnd longest items)

end Reach

/-- Complains if a parameter has to be set and is not. -/
def checkSet (p : Parameter) (r : Reach) : Run Unit := do
  let e ← environment
  if !r.isSet ∧ e.options.contains 'u' then
    match r, e.dialect with
    | .several _ _, _ => return ()
    | .one _, .plain => fatal (p.name ++ ": parameter not set".toList)
    | .one _, .extended =>
      let mark := if p.name.all Char.isDigit then ['$'] else []
      let place := p.place?.elim [] fun t => '[' :: t ++ [']']
      fatal (mark ++ p.name ++ place ++ ": unbound variable".toList) 1

/-! ## Operations of the extended dialect -/

/-- Splits a text at the first character of a kind that stands neither in quotes nor in braces or
parentheses. -/
def splitOutside (at? : Char) : (fuel : Nat) → (depth : Nat) → (read : Raw) → Raw → Raw × Option Raw
  | 0, _, read, t => (read.reverse ++ t, none)
  | _ + 1, _, read, [] => (read.reverse, none)
  | fuel + 1, depth, read, c :: rest =>
    let skipped (n : Nat) (depth : Nat) : Raw × Option Raw :=
      splitOutside at? fuel depth ((c :: rest.take n).reverse ++ read) (rest.drop n)
    if c = at? ∧ depth = 0 then (read.reverse, some rest)
    else if c = '\\' then skipped 1 depth
    else if c = '\'' ∨ c = '"' then skipped ((rest.takeWhile (· ≠ c)).length + 1) depth
    else if c = '\x7b' ∨ c = '(' then skipped 0 (depth + 1)
    else if c = '\x7d' ∨ c = ')' then skipped 0 (depth - 1)
    else skipped 0 depth

/-- Replaces what a pattern accepts; `put` makes the replacement of what was found. -/
def replaced (all : Bool) (items : List Pattern.Item) (put : Raw → Raw) : (fuel : Nat) → Raw → Raw
  | 0, t => t
  | fuel + 1, t =>
    let longest := (List.range (t.length + 1)).reverse.find? fun k => Pattern.accepts items (t.take k)
    match longest, t with
    | some (n + 1), _ =>
      put (t.take (n + 1)) ++
        if all then replaced all items put fuel (t.drop (n + 1)) else t.drop (n + 1)
    | _, c :: rest => c :: replaced all items put fuel rest
    | _, [] => []

/-- Replaces what a pattern accepts at the start or at the end. -/
def replacedAt (atEnd : Bool) (items : List Pattern.Item) (put : Raw → Raw) (t : Raw) : Raw :=
  let kept := Pattern.trim atEnd true items t
  let found := if atEnd then t.drop kept.length else t.take (t.length - kept.length)
  if !Pattern.accepts items found then t
  else if atEnd then kept ++ put found else put found ++ kept

/-- A text with the signs of a replacement, where an unquoted ampersand stands for what was found. -/
def replacement (ss : List Sign) (found : Raw) : Raw :=
  ss.flatMap fun
    | .char '&' .quoted => ['&']
    | .char '&' _ => found
    | .char c _ => [c]
    | .empty => []
    | .cut => [' ']

/-- Changes the case of the first character, or of all, where a pattern accepts it. -/
def recased (upper all : Bool) (items : List Pattern.Item) (t : Raw) : Raw :=
  let change (c : Char) : Char :=
    if Pattern.accepts items [c] then if upper then c.toUpper else c.toLower else c
  if all then t.map change
  else
    match t with
    | c :: rest => change c :: rest
    | [] => []

/-- A part of a text or of several values. -/
def slice (r : Reach) (script : Raw) (start : Int) (length? : Option Int) : Option Reach :=
  let part {α : Type} (xs : List α) : Option (List α) :=
    let size : Int := xs.length
    let first := if start < 0 then size + start else start
    if first < 0 ∨ size < first then some []
    else
      match length? with
      | none => some (xs.drop first.toNat)
      | some n =>
        let last := if n < 0 then size + n else first + n
        if last < first then none else some ((xs.drop first.toNat).take (last - first).toNat)
  match r with
  | .one v? => (part (v?.getD [])).map fun v => .one (some v)
  | .several vs joined =>
    -- the name of the script comes before its arguments
    let vs := if script = [] then vs else script :: vs
    (part vs).map (.several · joined)

/-! ## Putting values in -/

/-- Expands a parameter; `word` expands its operand. -/
def parameter (word : Word → Run (List Sign)) (quoted : Bool) (body : Raw) (p : Parameter) :
    Run (List Sign) := do
  let e ← environment
  let separator ← joint
  let operandIn (k : Lexer.Context) (t : Raw) : Run (List Sign) := do
    match Lexer.wordOf e.dialect k e.line t with
    | .ok w => word w
    | .error mistake => mistaken mistake
  let textIn (t : Raw) : Run Raw := return textOf separator (← operandIn .operand t)
  if p.op = "names" then
    let names := (e.bindings.keys.filter p.name.isPrefixOf).mergeSort fun a b => !decide (b < a)
    return Reach.signs quoted separator (.several names (p.place? = some ['*']))
  if p.indirect ∧ (p.place? = some ['@'] ∨ p.place? = some ['*']) then
    return Reach.signs quoted separator
      (.several ((← listOf p.name).map Prod.fst) (p.place? = some ['*']))
  let r ← reach textIn p
  let r ←
    if !p.indirect then pure r
    else do
      match parameter? e.dialect (r.whole separator) with
      | some q => reach textIn q
      | none => giveUp (r.whole separator ++ ": invalid variable name".toList)
  if p.length then
    checkSet p r
    match r, e.dialect with
    | .several vs _, .extended => return valueSigns quoted (Raw.ofNat vs.length)
    | r, _ => return valueSigns quoted (Raw.ofNat (r.whole separator).length)
  let shown (r : Reach) : Run (List Sign) := do
    checkSet p r
    return r.signs quoted separator
  if p.op = "" then return ← shown r
  let colon := p.op.startsWith ":"
  -- with a colon, an empty value counts as none
  let isSet := r.isSet && (!colon || r.whole separator ≠ [])
  let operand : Run (List Sign) := do
    if quoted then operandIn (.quotedOperand false) p.operand
    else return asExpanded (← operandIn .operand p.operand)
  let pattern (t : Raw) : Run (List Pattern.Item) := do
    let gs := glyphsOf (← operandIn .operand t)
    return Pattern.ofGlyphs (if (← environment).dialect = .plain then Pattern.withoutCaret gs else gs)
  match p.op with
  | ":-" | "-" => if isSet then shown r else operand
  | ":+" | "+" => if isSet then operand else return valueSigns quoted []
  | ":=" | "=" =>
    if isSet then shown r
    else
      let t := textOf separator (← operand)
      if !Raw.isName p.name then
        if e.dialect = .extended then
          giveUp ('$' :: p.name ++ ": cannot assign in this way".toList)
        else fatal (p.name ++ ": bad variable name".toList)
      match p.place? with
      | some place => setPlace p.name place t
      | none => setVariable p.name t
      return valueSigns quoted t
  | ":?" | "?" =>
    if isSet then shown r
    else
      let t := textOf separator (← operand)
      let usual :=
        if !colon then "parameter not set"
        else if e.dialect = .extended then "parameter null or not set" else "parameter not set or null"
      fatal (p.name ++ ": ".toList ++ if t = [] then usual.toList else t)
        (if e.dialect = .extended then 1 else 2)
  | "%" | "%%" | "#" | "##" =>
    checkSet p r
    let items ← pattern p.operand
    let atEnd := p.op.startsWith "%"
    let longest := decide (p.op.length = 2)
    let r :=
      if e.dialect = .extended then r.map (Pattern.trim atEnd longest items)
      else r.trimmed atEnd longest items
    return r.signs quoted separator
  | "/" | "//" | "/#" | "/%" =>
    checkSet p r
    let (source, put?) := splitOutside '/' (p.operand.length + 1) 0 [] p.operand
    let items ← pattern source
    let put ← operandIn .operand (put?.getD [])
    let f (t : Raw) : Raw :=
      if p.op = "/#" ∨ p.op = "/%" then replacedAt (p.op = "/%") items (replacement put) t
      else replaced (p.op = "//") items (replacement put) (t.length + 1) t
    return (r.map f).signs quoted separator
  | "^" | "^^" | "," | ",," =>
    checkSet p r
    let items ← if p.operand = [] then pure [Pattern.Item.one] else pattern p.operand
    return (r.map (recased (p.op.startsWith "^") (p.op.length = 2) items)).signs quoted separator
  | "@" =>
    let v? ← binding? p.name
    match p.operand with
    | ['Q'] => return (r.map Quote.again).signs quoted separator
    | ['a'] => return (r.map fun _ => (v?.map Variable.letters).getD []).signs quoted separator
    | ['A'] =>
      match v?, r with
      | some v, .several _ _ => return valueSigns quoted (v.declared p.name)
      | some v, .one (some t) =>
        let isPlain := v.letters = []
        let text := (if isPlain then p.name else v.head p.name) ++ '=' :: Quote.again t
        return valueSigns quoted text
      | _, r => return r.signs quoted separator
    | ['U'] => return (r.map (recased true true [.one])).signs quoted separator
    | ['u'] => return (r.map (recased true false [.one])).signs quoted separator
    | ['L'] => return (r.map (recased false true [.one])).signs quoted separator
    | ['E'] => return (r.map fun t => Lexer.ansi (t.length + 1) #[] t).signs quoted separator
    | _ => giveUp ("$\x7b".toList ++ body ++ "\x7d: bad substitution".toList)
  | _ =>
    checkSet p r
    let (start, length?) := splitOutside ':' (p.operand.length + 1) 0 [] p.operand
    let number (t : Raw) : Run Int := do Arithmetic.evaluate (← textIn t)
    let start ← number start
    let length? ← match length? with
      | some t => some <$> number t
      | none => pure none
    let script := if p.name = ['@'] ∨ p.name = ['*'] then e.name else []
    match slice r script start length? with
    | some r => return r.signs quoted separator
    | none => giveUp (Raw.ofInt (length?.getD 0) ++ ": substring expression < 0".toList)

/-! ## Words -/

/-- Expands a piece; `word` expands further words. -/
def piece (inner : Inner) (word : Word → Run (List Sign)) : Piece → Run (List Sign)
  | .text quoted t =>
    return if quoted then if t = [] then [.empty] else signs .quoted t else signs .literal t
  | .parameter quoted body => do
    let dialect := (← environment).dialect
    match parameter? dialect body with
    | some p => parameter word quoted body p
    | none =>
      if dialect = .extended then
        giveUp ("$\x7b".toList ++ body ++ "\x7d: bad substitution".toList)
      else fatal "Bad substitution".toList
  | .output quoted line script => return valueSigns quoted (← inner.output line script)
  | .arithmetic quoted expression => do
    let e ← environment
    match Lexer.wordOf e.dialect .document e.line expression with
    | .error mistake => mistaken mistake
    | .ok w =>
      let t := textOf [' '] (← word w)
      let n ← Arithmetic.evaluate (if e.dialect = .extended then t.filter (· ≠ '"') else t)
      return valueSigns quoted (Raw.ofInt n)
  | .process reads line script => return valueSigns true (← inner.process reads line script)

/-- Expands a word; operands may be nested down to some depth. -/
def word (inner : Inner) : (depth : Nat) → Word → Run (List Sign)
  | 0, _ => return []
  | depth + 1, w => return (← w.mapM (piece inner (word inner depth))).flatten

/-- How deeply operands may be nested. -/
def nesting : Nat := 64

/-! ## Home directories -/

def homes : List (String × String) :=
  [("root", "/root"), ("daemon", "/usr/sbin"), ("bin", "/bin"), ("sys", "/dev"), ("nobody", "/nonexistent")]

/-- The pieces for a text that begins with a tilde, behind it, if it stands for a home directory; `ended`
tells whether the word ends with the text. -/
def homeOf? (e : Environment) (ended : Bool) (t : Raw) : Option Word :=
  let name := t.takeWhile (· ≠ '/')
  let rest := t.drop name.length
  let dir? : Option Raw :=
    let valueOf (x : String) : Option Raw :=
      (e.bindings.get? x.toList).bind fun v => if v.isSet then some v.value else none
    match String.ofList name with
    | "" => valueOf "HOME"
    | "+" => if e.dialect = .extended then valueOf "PWD" else none
    | "-" => if e.dialect = .extended then valueOf "OLDPWD" else none
    | name => (homes.lookup name).map String.toList
  if rest = [] ∧ !ended then none
  else dir?.map fun dir => [.text true dir, .text false rest].filter (· ≠ .text false [])

/-- Puts in the home directory for a tilde at the start of a word. -/
def home (e : Environment) (w : Word) : Word :=
  match w with
  | .text false ('~' :: t) :: rest =>
    match homeOf? e rest.isEmpty t with
    | some ps => ps ++ rest
    | none => w
  | _ => w

/-- Puts in home directories for tildes at the start of a word and behind colons. -/
def homesIn (e : Environment) (w : Word) : Word :=
  let part (ended : Bool) (t : Raw) : Word :=
    match t with
    | '~' :: rest => (homeOf? e ended rest).getD [.text false t]
    | [] => []
    | t => [.text false t]
  let n := w.length
  (w.zipIdx.flatMap fun (p, k) =>
    match p with
    | .text false t =>
      let parts := t.splitOn ':'
      (parts.zipIdx.flatMap fun (t, i) =>
        (if i = 0 then [] else [Piece.text false [':']])
          ++ if i = 0 ∧ k ≠ 0 then (if t = [] then [] else [Piece.text false t])
             else part (i + 1 < parts.length || k + 1 = n) t)
    | p => [p])

/-! ## Fields -/

/-- The state of cutting signs into fields. -/
structure Cutting where
  done : List (List Glyph) := [] -- the finished fields, last one first
  current : Option (List Glyph) := none -- the field that has been begun, backwards
  afterBlank : Bool := false -- whether only blanks came since a field ended at a blank

namespace Cutting

/-- Ends the field that has been begun. -/
def close (k : Cutting) : Cutting :=
  match k.current with
  | some gs => { done := gs.reverse :: k.done, current := none }
  | none => { k with afterBlank := false }

/-- Adds a character to the field. -/
def add (k : Cutting) (g : Glyph) : Cutting :=
  { k with current := some (g :: k.current.getD []), afterBlank := false }

/-- Whether a character separates fields without being worth anything itself. -/
def isBlank (c : Char) : Bool := c = ' ' || c = '\t' || c = '\n'

def step (ifs : Raw) (k : Cutting) : Sign → Cutting
  | .empty => { k with current := some (k.current.getD []), afterBlank := false }
  | .cut => k.close
  | .char c mark =>
    if mark = .expanded ∧ ifs.contains c then
      if isBlank c then
        if k.current.isSome then { k.close with afterBlank := true } else k
      else if k.current.isSome then k.close
      else if k.afterBlank then { k with afterBlank := false }
      else { k with done := [] :: k.done }
    else k.add ⟨c, mark = .quoted⟩

end Cutting

def cut (ifs : Raw) (ss : List Sign) : List (List Glyph) :=
  (ss.foldl (Cutting.step ifs) {}).close.done.reverse

/-! ## Names of files -/

def shown (gs : List Glyph) : Raw := gs.map Glyph.char

/-- The paths that continue some paths by a segment of a pattern. -/
def continued (s : Store) (cwd : Location) (dots : Bool) (gs : List Glyph) (bases : List Raw) : List Raw :=
  if !Pattern.isActive gs then bases.map (· ++ shown gs)
  else
    let items := Pattern.ofGlyphs gs
    let hidden := gs.head?.any (·.char = '.')
    bases.flatMap fun base =>
      let dir : PathText := if base = [] then ['.'] else Raw.path base
      let isOpen := match s.stat? cwd dir with
        | .ok (_, e) => s.allows e .read
        | .error _ => false
      match if isOpen then s.list? cwd dir else .ok [] with
      | .error _ => []
      | .ok names =>
        let names := names.map Raw.ofPath
        let names := if dots && isOpen then [['.'], ['.', '.']] ++ names else names
        (names.filter fun n =>
          (n.head? ≠ some '.' || hidden) && Pattern.accepts items n).map (base ++ ·)

/-- The names of files that a field stands for, or the field itself when there are none. -/
def files (s : Store) (cwd : Location) (dots : Bool) (field : List Glyph) : List Raw :=
  if !Pattern.isActive field then [shown field]
  else
    let segments := field.splitOnP fun g => g.char = '/'
    let paths := (segments.zipIdx.foldl (fun bases (segment, k) =>
      continued s cwd dots segment (if k = 0 then bases else bases.map (· ++ ['/']))) [[]])
    let found := paths.filter fun p => (s.lstat? cwd (Raw.path p)).toOption.isSome
    if found = [] then [shown field] else found.mergeSort fun a b => !decide (b < a)

def fields (inner : Inner) (words : List Word) : Run (List Raw) := do
  let mut all := #[]
  let extended ← isExtended
  for w in if extended then words.flatMap Brace.words else words do
    let ss ← word inner nesting (home (← environment) w)
    let m ← get
    for field in cut (← separators) ss do
      if m.environment.options.contains 'f' then all := all.push (shown field)
      else
        let field := if extended then field else Pattern.withoutCaret field
        all := all ++ (files m.store m.environment.cwd (!extended) field).toArray
  return all.toList

/-- The text that a word stands for, without being cut. -/
def text (inner : Inner) (w : Word) : Run Raw := do
  let ss ← word inner nesting (home (← environment) w)
  return textOf (← joint) ss

/-- The text that a variable is set to. -/
def assigned (inner : Inner) (w : Word) : Run Raw := do
  let ss ← word inner nesting (homesIn (← environment) w)
  return textOf (← joint) ss

/-- The pattern that a word stands for, as glyphs. -/
def glyphs (inner : Inner) (w : Word) : Run (List Glyph) := do
  return glyphsOf (← word inner nesting (home (← environment) w))

def pattern (inner : Inner) (w : Word) : Run (List Pattern.Item) := do
  let gs ← glyphs inner w
  return Pattern.ofGlyphs (if ← isExtended then gs else Pattern.withoutCaret gs)

end Expand

end LuaTree.Shell
