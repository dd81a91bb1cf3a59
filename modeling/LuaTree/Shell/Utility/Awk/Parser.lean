import LuaTree.Shell.Utility.Awk.Lexer

/-!
# Reading programs

Tokens are put together to rules, statements and expressions by descending through the levels at which operators
bind.
-/

namespace LuaTree.Shell.Awk

/-- What has been read of a program. -/
structure Reading where
  rest : List (Token × Nat)
  line : Nat := 1 -- the line of the last one
  lastLine : Nat -- the number of the line behind the last one
  opened : Nat := 0
  braces : Nat := 0
  loops : Nat := 0
  inFunction : Bool := false
  inRule : Bool := false
  pairs : Nat := 0
  -- the functions that have been called, with the numbers of the arguments and the lines
  called : List (Raw × Nat × Nat) := []

/-- Takes tokens. -/
abbrev Reader := StateT Reading (Except Fault)

/-- Where an expression stands, which takes the meaning from some signs. -/
structure Place where
  inPrint : Bool := false -- whether a sign for a comparison begins the target of output
  inHead : Bool := false -- whether the word for keys belongs to a loop

namespace Reader

def fail {α : Type} (message : Raw) : Reader α := do
  let s ← get
  throw { message, line := ((s.rest.head?).map (·.2)).getD s.line }

/-- Complains about the next token. -/
def unexpected {α : Type} : Reader α := do
  let s ← get
  match s.rest with
  | (.sign "\x7d", line) :: _ =>
    if 0 < s.opened then throw { message := "missing ) near \x7d".toList, line }
    else if s.braces = 0 then throw { message := "extra '\x7d'".toList, line }
    else throw { message := "syntax error at or near \x7d".toList, line }
  | (.sign ")", line) :: _ =>
    if s.opened = 0 then throw { message := "extra ')'".toList, line }
    else throw { message := "syntax error at or near )".toList, line }
  | (t, line) :: _ => throw { message := "syntax error at or near ".toList ++ t.shown, line }
  | [] =>
    if 0 < s.braces then throw { message := "missing \x7d near end of file".toList, line := s.lastLine + 1 }
    else throw { message := "syntax error at or near end of line".toList, line := s.lastLine }

def peek? : Reader (Option Token) := return ((← get).rest.head?).map (·.1)

/-- Passes over the next token. -/
def skip : Reader Unit := modify fun s =>
  match s.rest with
  | (t, line) :: rest =>
    let opened := if t.isSign "(" then s.opened + 1 else if t.isSign ")" then s.opened - 1 else s.opened
    let braces := if t.isSign "\x7b" then s.braces + 1 else if t.isSign "\x7d" then s.braces - 1 else s.braces
    { s with rest, line, opened, braces }
  | [] => s

def atSign (t : String) : Reader Bool := return (← peek?).any (·.isSign t)

def atKeyword (t : String) : Reader Bool := return (← peek?).any (·.isKeyword t)

/-- Takes a sign if it comes next. -/
def sign? (t : String) : Reader Bool := do
  if ← atSign t then
    skip
    return true
  return false

def signOf? (among : List String) : Reader (Option String) := do
  match ← peek? with
  | some (.sign t) =>
    if among.contains t then
      skip
      return some t
    return none
  | _ => return none

def sign (t : String) : Reader Unit := do if !(← sign? t) then unexpected

/-- Passes over the ends of lines. -/
def newlines : Reader Unit := modify fun s =>
  let rest := s.rest.dropWhile fun (t, _) => match t with
    | .newline => true
    | _ => false
  { s with rest }

/-- Passes over the ends of lines and statements. -/
def separators : Reader Unit := modify fun s =>
  let rest := s.rest.dropWhile fun (t, _) => match t with
    | .newline => true
    | t => t.isSign ";"
  { s with rest }

def name : Reader Raw := do
  match ← peek? with
  | some (.name t) | some (.callee t) =>
    skip
    return t
  | _ => unexpected

def isTarget : Expr → Bool
  | .named _ | .element _ _ | .field _ => true
  | _ => false

def assignment? : String → Option (Option Operator)
  | "=" => some none
  | "+=" => some (some .plus)
  | "-=" => some (some .minus)
  | "*=" => some (some .times)
  | "/=" => some (some .divided)
  | "%=" => some (some .modulo)
  | "^=" => some (some .power)
  | _ => none

def comparison? : String → Option Comparison
  | "<" => some .less
  | "<=" => some .atMost
  | "==" => some .equal
  | "!=" => some .unequal
  | ">" => some .greater
  | ">=" => some .atLeast
  | _ => none

/-- Whether a token begins something that can stand behind another text. -/
def beginsText : Token → Bool
  | .number _ | .text _ | .regular _ | .name _ | .callee _ | .known _ => true
  | .sign s => ["$", "(", "++", "--", "!"].contains s
  | _ => false

/-- How many arguments a function takes at least and at most. -/
def arity : String → Nat × Nat
  | "length" => (0, 1)
  | "substr" => (2, 3)
  | "index" | "atan2" => (2, 2)
  | "split" => (2, 3)
  | "sub" | "gsub" => (2, 3)
  | "match" => (2, 2)
  | "sprintf" => (1, 1000)
  | "rand" => (0, 0)
  | "srand" | "fflush" => (0, 1)
  | _ => (1, 1)

mutual

def expression : (fuel : Nat) → Place → Reader Expr
  | 0, _ => fail "expression is too deep".toList
  | fuel + 1, p => do
    let a ← choices fuel p
    if isTarget a then
      match ← peek? with
      | some (.sign t) =>
        match assignment? t with
        | some op? =>
          skip
          newlines
          return .assign op? a (← expression fuel p)
        | none => return a
      | _ => return a
    else return a

/-- Takes a condition and what depends on it. -/
def choices : (fuel : Nat) → Place → Reader Expr
  | 0, _ => fail "expression is too deep".toList
  | fuel + 1, p => do
    let c ← alternatives fuel p
    if !(← sign? "?") then return c
    newlines
    let a ← expression fuel p
    newlines
    sign ":"
    newlines
    return .choose c a (← expression fuel p)

def alternatives : (fuel : Nat) → Place → Reader Expr
  | 0, _ => fail "expression is too deep".toList
  | fuel + 1, p => do
    let a ← conditions fuel p
    if !(← sign? "||") then return a
    newlines
    return .either a (← alternatives fuel p)

def conditions : (fuel : Nat) → Place → Reader Expr
  | 0, _ => fail "expression is too deep".toList
  | fuel + 1, p => do
    let a ← keyed fuel p (← fitting fuel p)
    if !(← sign? "&&") then return a
    newlines
    return .both a (← conditions fuel p)

/-- Takes what follows a key that is looked up in tables. -/
def keyed : (fuel : Nat) → Place → Expr → Reader Expr
  | 0, _, _ => fail "expression is too deep".toList
  | fuel + 1, p, a => do
    if p.inHead || !(← atKeyword "in") then return a
    skip
    let x ← name
    keyed fuel p (.holds x [a])

/-- Takes texts and the patterns they are to fit. -/
def fitting : (fuel : Nat) → Place → Reader Expr
  | 0, _ => fail "expression is too deep".toList
  | fuel + 1, p => do fittingRest fuel p (← comparing fuel p)

/-- Takes the patterns that a text is to fit. -/
def fittingRest : (fuel : Nat) → Place → Expr → Reader Expr
  | 0, _, _ => fail "expression is too deep".toList
  | fuel + 1, p, a => do
    match ← signOf? ["~", "!~"] with
    | none => return a
    | some t =>
      let r ← comparing fuel p
      fittingRest fuel p (.fits (t = "~") a r)

def comparing : (fuel : Nat) → Place → Reader Expr
  | 0, _ => fail "expression is too deep".toList
  | fuel + 1, p => do comparingRest fuel p (← texts fuel p)

def comparingRest : (fuel : Nat) → Place → Expr → Reader Expr
  | 0, _, _ => fail "expression is too deep".toList
  | fuel + 1, p, a => do
    let among := ["<", "<=", "==", "!=", ">="] ++ if p.inPrint then [] else [">"]
    match (← signOf? among).bind comparison? with
    | none => return a
    | some c =>
      let b ← texts fuel p
      comparingRest fuel p (.compare c a b)

def texts : (fuel : Nat) → Place → Reader Expr
  | 0, _ => fail "expression is too deep".toList
  | fuel + 1, p => do textsRest fuel p (← sums fuel p)

def textsRest : (fuel : Nat) → Place → Expr → Reader Expr
  | 0, _, _ => fail "expression is too deep".toList
  | fuel + 1, p, a => do
    if (← peek?).any beginsText then
      let b ← sums fuel p
      textsRest fuel p (.joined a b)
    else return a

def sums : (fuel : Nat) → Place → Reader Expr
  | 0, _ => fail "expression is too deep".toList
  | fuel + 1, p => do sumsRest fuel p (← products fuel p)

def sumsRest : (fuel : Nat) → Place → Expr → Reader Expr
  | 0, _, _ => fail "expression is too deep".toList
  | fuel + 1, p, a => do
    match ← signOf? ["+", "-"] with
    | none => return a
    | some t =>
      let b ← products fuel p
      sumsRest fuel p (.compute (if t = "+" then .plus else .minus) a b)

def products : (fuel : Nat) → Place → Reader Expr
  | 0, _ => fail "expression is too deep".toList
  | fuel + 1, p => do productsRest fuel p (← signed fuel p)

def productsRest : (fuel : Nat) → Place → Expr → Reader Expr
  | 0, _, _ => fail "expression is too deep".toList
  | fuel + 1, p, a => do
    match ← signOf? ["*", "/", "%"] with
    | none => return a
    | some t =>
      let b ← signed fuel p
      productsRest fuel p (.compute (if t = "*" then .times else if t = "/" then .divided else .modulo) a b)

def signed : (fuel : Nat) → Place → Reader Expr
  | 0, _ => fail "expression is too deep".toList
  | fuel + 1, p => do
    match ← signOf? ["!", "-", "+"] with
    | some "!" => return .no (← signed fuel p)
    | some "-" => return .negative (← signed fuel p)
    | some _ => return .numeric (← signed fuel p)
    | none => powers fuel p

def powers : (fuel : Nat) → Place → Reader Expr
  | 0, _ => fail "expression is too deep".toList
  | fuel + 1, p => do
    let a ← piped fuel (← stepped fuel p)
    if !(← sign? "^") then return a
    return .compute .power a (← signed fuel p)

def piped : (fuel : Nat) → Expr → Reader Expr
  | 0, _ => fail "expression is too deep".toList
  | fuel + 1, a => do
    match (← get).rest with
    | (.sign "|", _) :: (.keyword "getline", _) :: _ =>
      skip
      skip
      let target? ← target? fuel
      piped fuel (.readCommand a target?)
    | _ => return a

/-- Takes an operand, and what steps it up or down. -/
def stepped : (fuel : Nat) → Place → Reader Expr
  | 0, _ => fail "expression is too deep".toList
  | fuel + 1, p => do
    match ← signOf? ["++", "--"] with
    | some t =>
      let a ← operand fuel p
      if isTarget a then return .stepped (t = "++") true a else unexpected
    | none =>
      let a ← operand fuel p
      if isTarget a then
        match ← signOf? ["++", "--"] with
        | some t => return .stepped (t = "++") false a
        | none => return a
      else return a

/-- Takes what is read into, if there is something. -/
def target? : (fuel : Nat) → Reader (Option Expr)
  | 0 => fail "expression is too deep".toList
  | fuel + 1 => do
    match ← peek? with
    | some (.name _) | some (.sign "$") => return some (← operand fuel {})
    | _ => return none

def list : (fuel : Nat) → Place → Reader (List Expr)
  | 0, _ => fail "expression is too deep".toList
  | fuel + 1, p => do
    let a ← expression fuel p
    if ← sign? "," then
      newlines
      return a :: (← list fuel p)
    return [a]

def arguments : (fuel : Nat) → Reader (List Expr)
  | 0 => fail "expression is too deep".toList
  | fuel + 1 => do
    sign "("
    newlines
    if ← sign? ")" then return []
    let as ← list fuel {}
    newlines
    sign ")"
    return as

def operand : (fuel : Nat) → Place → Reader Expr
  | 0, _ => fail "expression is too deep".toList
  | fuel + 1, p => do
    match ← peek? with
    | some (.number x) =>
      skip
      return .constant (.number x)
    | some (.text t) =>
      skip
      return .constant (.text t)
    | some (.regular t) =>
      skip
      return .regular t
    | some (.sign "$") =>
      skip
      match ← signOf? ["++", "--", "-", "+"] with
      | some "-" => return .field (.negative (← operand fuel p))
      | some "+" => return .field (.numeric (← operand fuel p))
      | some t => return .field (.stepped (t = "++") true (← operand fuel p))
      | none => return .field (← operand fuel p)
    | some (.sign "(") =>
      skip
      newlines
      let as ← list fuel {}
      newlines
      sign ")"
      match as with
      | [a] =>
        return .grouped a
      | as =>
        if !(← atKeyword "in") then unexpected
        skip
        return .holds (← name) as
    | some (.name x) =>
      skip
      if ← sign? "[" then
        let keys ← list fuel {}
        sign "]"
        return .element x keys
      return .named x
    | some (.callee f) =>
      let line := ((← get).rest.head?).elim 0 (·.2)
      skip
      let as ← arguments fuel
      modify fun s => { s with called := (f, as.length, line) :: s.called }
      return .call f as
    | some (.known f) =>
      skip
      let text := String.ofList f
      if text = "length" && !(← atSign "(") then return .known f []
      let as ← arguments fuel
      let (least, most) := arity text
      if as.length < least ∨ most < as.length then
        fail ("wrong number of arguments in call to ".toList ++ f)
      return .known f as
    | some (.keyword "getline") =>
      skip
      let target? ← target? fuel
      if ← sign? "<" then return .readFile (← stepped fuel p) target?
      return .readNext target?
    | _ => unexpected

end

/-- Takes the end of a statement. -/
def terminator : Reader Unit := do
  match ← peek? with
  | some .newline =>
    skip
    newlines
  | some (.sign ";") =>
    skip
    newlines
  | some (.sign "\x7d") => return ()
  | none => if 0 < (← get).braces then unexpected
  | _ => unexpected

def endsList : Option Token → Bool
  | none | some .newline => true
  | some (.sign s) => [";", "\x7d", ">", ">>", "|"].contains s
  | _ => false

def printed (fuel : Nat) : Reader (List Expr) := do
  if endsList (← peek?) then return []
  let s ← get
  let whole : Reader (List Expr) := do
    let as ← arguments fuel
    if endsList (← peek?) then return as else unexpected
  match if s.rest.head?.any (·.1.isSign "(") then some (whole.run s) else none with
  | some (.ok (as, s)) =>
    set s
    return as
  | _ => list fuel { inPrint := true }

/-- Takes the target of output. -/
def outlet? (fuel : Nat) : Reader (Option (Outlet × Expr)) := do
  match ← signOf? [">", ">>", "|"] with
  | some ">" => return some (.file, ← expression fuel {})
  | some ">>" => return some (.fileEnd, ← expression fuel {})
  | some _ => return some (.command, ← expression fuel {})
  | none => return none

def simple (fuel : Nat) : Reader Statement := do
  match ← peek? with
  | some (.keyword "print") =>
    skip
    let as ← printed fuel
    return .print as (← outlet? fuel)
  | some (.keyword "printf") =>
    skip
    let as ← printed fuel
    if as.isEmpty then fail "no arguments in call to printf".toList
    return .printf as (← outlet? fuel)
  | some (.keyword "delete") =>
    skip
    let x ← name
    if ← sign? "[" then
      let keys ← list fuel {}
      sign "]"
      return .delete x keys
    return .deleteAll x
  | _ => return .work (← expression fuel {})

def condition (fuel : Nat) : Reader Expr := do
  sign "("
  newlines
  let c ← expression fuel {}
  newlines
  sign ")"
  return c

def looping {α : Type} (act : Reader α) : Reader α := do
  modify fun s => { s with loops := s.loops + 1 }
  let a ← act
  modify fun s => { s with loops := s.loops - 1 }
  return a

def isEnd (t : Option Token) : Bool := match t with
  | none | some .newline => true
  | some t => t.isSign ";" || t.isSign "\x7d"

mutual

def statement : (fuel : Nat) → Reader Statement
  | 0 => fail "statement is too deep".toList
  | fuel + 1 => do
    match ← peek? with
    | some (.sign "\x7b") => block fuel
    | some (.sign ";") =>
      skip
      newlines
      return .block []
    | some (.keyword "if") =>
      skip
      let c ← condition 1000
      newlines
      let yes ← statement fuel
      let s ← get
      separators
      if ← atKeyword "else" then
        skip
        newlines
        return .choose c yes (some (← statement fuel))
      set s
      return .choose c yes none
    | some (.keyword "while") =>
      skip
      let c ← condition 1000
      if ← sign? ";" then
        newlines
        return .loop none (some c) none (.block [])
      newlines
      return .loop none (some c) none (← looping (statement fuel))
    | some (.keyword "do") =>
      skip
      newlines
      let body ← looping (statement fuel)
      separators
      if !(← atKeyword "while") then unexpected
      skip
      let c ← condition 1000
      terminator
      return .loopFirst body c
    | some (.keyword "for") =>
      skip
      match (← get).rest with
      | (.sign "(", _) :: (.name x, _) :: (.keyword "in", _) :: (.name table, _) :: (.sign ")", _) :: _ =>
        for _ in [0, 1, 2, 3, 4] do skip
        newlines
        return .each x table (← looping (statement fuel))
      | _ =>
        sign "("
        let first? ← if ← atSign ";" then pure none else some <$> simple 1000
        sign ";"
        newlines
        let c? ← if ← atSign ";" then pure none else some <$> expression 1000 {}
        sign ";"
        newlines
        let behind? ← if ← atSign ")" then pure none else some <$> simple 1000
        sign ")"
        if ← sign? ";" then
          newlines
          return .loop first? c? behind? (.block [])
        newlines
        return .loop first? c? behind? (← looping (statement fuel))
    | some (.keyword "break") =>
      if (← get).loops = 0 then fail "break statement outside of loop".toList
      skip
      terminator
      return .stop
    | some (.keyword "continue") =>
      if (← get).loops = 0 then fail "continue statement outside of loop".toList
      skip
      terminator
      return .again
    | some (.keyword "next") =>
      let s ← get
      if !s.inRule && !s.inFunction then fail "improper use of next".toList
      skip
      terminator
      return .next
    | some (.keyword "nextfile") =>
      let s ← get
      if !s.inRule && !s.inFunction then fail "improper use of nextfile".toList
      skip
      terminator
      return .nextFile
    | some (.keyword "exit") =>
      skip
      let e? ← if isEnd (← peek?) then pure none else some <$> expression 1000 {}
      terminator
      return .exit e?
    | some (.keyword "return") =>
      if !(← get).inFunction then fail "return outside function body".toList
      skip
      let e? ← if isEnd (← peek?) then pure none else some <$> expression 1000 {}
      terminator
      return .leave e?
    | _ =>
      let a ← simple 1000
      terminator
      return a

def block : (fuel : Nat) → Reader Statement
  | 0 => fail "statement is too deep".toList
  | fuel + 1 => do
    sign "\x7b"
    let as ← statements fuel
    sign "\x7d"
    newlines
    return .block as

def statements : (fuel : Nat) → Reader (List Statement)
  | 0 => fail "statement is too deep".toList
  | fuel + 1 => do
    newlines
    if ← atSign "\x7d" then return []
    if (← peek?).isNone then unexpected
    let a ← statement fuel
    return a :: (← statements fuel)

end

/-- Takes the names of the arguments of a function. -/
def parameters : (fuel : Nat) → List Raw → Reader (List Raw)
  | 0, read => return read.reverse
  | fuel + 1, read => do
    if ← sign? ")" then return read.reverse
    let x ← name
    if read.contains x then fail (x ++ " is duplicated in argument list".toList)
    if ← sign? "," then newlines
    else if !(← atSign ")") then unexpected
    parameters fuel (x :: read)

/-- Takes a rule or a function. -/
def item (fuel : Nat) (p : Program) : Reader Program := do
  let action : Reader Statement := block fuel
  match ← peek? with
  | some (.keyword "function") =>
    skip
    let f ← name
    sign "("
    let parameters ← parameters 1000 []
    newlines
    modify fun s => { s with inFunction := true }
    let body ← action
    modify fun s => { s with inFunction := false }
    return { p with functions := p.functions ++ [(f, { parameters, body })] }
  | some (.keyword "BEGIN") =>
    skip
    if !(← atSign "\x7b") then unexpected
    return { p with rules := p.rules ++ [(.first, ← action)] }
  | some (.keyword "END") =>
    skip
    if !(← atSign "\x7b") then unexpected
    return { p with rules := p.rules ++ [(.last, ← action)] }
  | _ =>
    let pattern : Pattern ←
      if ← atSign "\x7b" then pure .always
      else do
        let a ← expression 1000 {}
        if ← sign? "," then
          newlines
          let b ← expression 1000 {}
          let s ← get
          set { s with pairs := s.pairs + 1 }
          pure (.between s.pairs a b)
        else pure (.whenever a)
    if ← atSign "\x7b" then
      modify fun s => { s with inRule := true }
      let body ← action
      modify fun s => { s with inRule := false }
      return { p with rules := p.rules ++ [(pattern, body)] }
    match ← peek? with
    | none | some .newline => pure ()
    | some t => if !t.isSign ";" then unexpected
    return { p with rules := p.rules ++ [(pattern, .print [] none)] }

def items : (fuel : Nat) → Program → Reader Program
  | 0, p => return p
  | fuel + 1, p => do
    separators
    if (← peek?).isNone then return p
    items fuel (← item 10000 p)

end Reader

def Program.read (t : Raw) : Except Fault Program := do
  let ts ← tokens (t.length + 1) 1 [] t
  let lastLine := (t.filter (· = '\n')).length + 1
  let (p, s) ← (Reader.items (ts.length + 1) {}).run { rest := ts, lastLine }
  match s.called.reverse.findSome? fun (f, n, line) =>
      match p.functions.lookup f with
      | none => some (⟨"function ".toList ++ f ++ " never defined".toList, lastLine + 1, false⟩ : Fault)
      | some g =>
        if g.parameters.length < n then some ⟨"too many arguments in call to ".toList ++ f, line, false⟩ else none with
  | some fault => throw fault
  | none => return p

end LuaTree.Shell.Awk
