import LuaTree.Shell.Lexer

/-!
# Reading commands

One statement is read at a time: a line, with what belongs to it on the lines that follow. The functions
recurse on fuel, and a multiple of the text's own length is always enough of it.
-/

namespace LuaTree.Shell

/-- The words that mean something of their own where a command can begin. -/
def keywords : List String :=
  ["!", "case", "do", "done", "elif", "else", "esac", "fi", "for", "if", "in", "then", "until", "while",
   "\x7b", "\x7d"]

def extendedKeywords : List String := ["[[", "function", "time", "]]"]

/-- The commands whose mistakes end the shell. -/
def specialCommands : List String :=
  [":", ".", "break", "continue", "eval", "exec", "exit", "export", "local", "readonly", "return", "set",
   "shift", "times", "trap", "unset"]

namespace Parser

open Reader

def plain? : Token → Option String
  | .word w false => w.plain?.map String.ofList
  | _ => none

/-- The words at which commands end. -/
def closers : List String := ["do", "done", "elif", "else", "esac", "fi", "then", "\x7d"]

def closes (t : Token) : Bool :=
  match t with
  | .operator text => text ∈ [")", ";;", ";&", ";;&"]
  | .finish => true
  | t => (plain? t).any fun text => closers.contains text

def isFinish : Token → Bool
  | .finish => true
  | _ => false

def putBack (t : Token) : Reader Unit := modify fun s => { s with back? := some t }

def unexpected {α : Type} (t : Token) (wanted : String := "") : Reader α := fail (.unexpected t wanted)

/-- Complains about a token where no word is reserved. -/
def unexpectedWord {α : Type} (t : Token) (wanted : String) : Reader α :=
  match t with
  | .word w _ => unexpected (.word w true) wanted
  | t => unexpected t wanted

/-- A reserved word as complaints name it. -/
def quotedText (text : String) : String := "\"" ++ text ++ "\""

/-- Puts another text in for a word that stands for it. -/
def putIn (name value : Raw) : Reader Unit :=
  modify fun s => { s with rest := value ++ s.rest, putIn := (name, s.rest.length) :: s.putIn }

/-- The text that a word stands for, unless it is that text which is being read. -/
def aliasOf? (t : Token) : Reader (Option (Raw × Raw)) := do
  let s ← get
  if s.aliases.isEmpty then return none
  match plain? t with
  | none => return none
  | some text =>
    let name := text.toList
    let inUse := s.putIn.any fun (n, left) => n = name && left ≤ s.rest.length
    return if inUse then none else (s.aliases.lookup name).map (name, ·)

/-- Reads a token; ends of lines may be passed over, and words may stand for other texts. -/
def next (nested : Reader Unit) (newlines aliases : Bool) : (fuel : Nat) → Reader Token
  | 0 => return .finish
  | fuel + 1 => do
    let t ← Lexer.token nested fuel
    match t with
    | .operator "\n" => if newlines then next nested newlines aliases fuel else return t
    | .word _ _ =>
      if aliases then
        let extended := (← get).dialect = .extended
        let isKeyword := (plain? t).any fun text =>
          keywords.contains text || (extended && extendedKeywords.contains text)
        if isKeyword then return t
        match ← aliasOf? t with
        | some (name, value) =>
          putIn name value
          next nested newlines aliases fuel
        | none => return t
      else return t
    | t => return t

/-- The name, place and value of a word that sets a variable. -/
def assignment? (dialect : Dialect) : Word → Option Assignment
  | .text false t :: rest =>
    let name := t.takeWhile Raw.inName
    if !Raw.isName name then none
    else
      let valued (index? : Option Raw) (t : Raw) (rest : Word) : Option Assignment :=
        match t with
        | '=' :: value =>
          some { name, index?, value := .text (if value = [] then rest else .text false value :: rest) }
        | '+' :: '=' :: value =>
          if dialect = .plain then none
          else some { name, index?, adds := true,
                      value := .text (if value = [] then rest else .text false value :: rest) }
        | _ => none
      match t.drop name.length with
      | '[' :: t =>
        if dialect = .plain then none
        else
          -- the place may be made of several pieces
          let rec place (read : Raw) : Word → Option (Raw × Raw × Word)
            | .text q t :: rest =>
              let inner := if q then t else t.takeWhile (· ≠ ']')
              if inner.length = t.length then place (read ++ t) rest
              else some (read ++ inner, t.drop (inner.length + 1), rest)
            | p :: rest => place (read ++ Lexer.unquoted [p]) rest
            | [] => none
          match place [] (.text false t :: rest) with
          | some (index, t, rest) => valued (some index) t rest
          | none => none
      | t => valued none t rest
  | _ => none

/-- A simple command while it is being read, latest parts first. -/
structure Parts where
  assignments : List Assignment := []
  words : List Word := []
  redirections : List Redirection := []

def target (nested : Reader Unit) (fuel : Nat) (t : Token) : Reader Redirection := do
  match ← Lexer.token nested fuel with
  | .word w quoted =>
    match t with
    | .lines descriptor strip =>
      let number := (← get).next
      let waits : Awaited :=
        { number, delimiter := Lexer.unquoted w, literal := quoted, strip }
      modify fun s => { s with next := number + 1, awaited := s.awaited ++ [waits] }
      return { descriptor, action := .document, target := [], awaited := some number }
    | .redirect descriptor action => return { descriptor, action, target := w }
    | t => unexpected t
  | t => unexpected t

def redirections (nested : Reader Unit) : (fuel : Nat) → List Redirection → Reader (List Redirection)
  | 0, read => return read.reverse
  | fuel + 1, read => do
    match ← next nested false true fuel with
    | .redirect d a => redirections nested fuel ((← target nested fuel (.redirect d a)) :: read)
    | .lines d s => redirections nested fuel ((← target nested fuel (.lines d s)) :: read)
    | t =>
      putBack t
      return read.reverse

/-- Reads the words up to the end of a line or a semicolon. -/
def wordsOfLine (nested : Reader Unit) : (fuel : Nat) → List Word → Reader (List Word)
  | 0, read => return read.reverse
  | fuel + 1, read => do
    match ← Lexer.token nested fuel with
    | .word w _ => wordsOfLine nested fuel (w :: read)
    | .operator text =>
      if text = "\n" ∨ text = ";" then return read.reverse
      unexpected (.operator text)
    | t => unexpected t

def questionWords (nested : Reader Unit) : (fuel : Nat) → List Word → Reader (List Word)
  | 0, _ => unexpected .finish
  | fuel + 1, read => do
    -- what follows the operator of a regular expression has rules of its own
    let isExpression := read.head? = some [.text false ['=', '~']]
    if isExpression then
      discard (Reader.takeWhile Lexer.isBlank)
      let w := Lexer.assemble (← Lexer.pieces nested (← get).line fuel (.expression 0) [])
      questionWords nested fuel (w :: read)
    else
      let plain (text : String) : Word := [.text false text.toList]
      match ← Lexer.token nested fuel with
      | .word [.text false [']', ']']] false => return read.reverse
      | .word w _ => questionWords nested fuel (w :: read)
      | .operator "\n" => questionWords nested fuel read
      | .operator text => questionWords nested fuel (plain text :: read)
      | .redirect _ .input => questionWords nested fuel (plain "<" :: read)
      | .redirect _ .output => questionWords nested fuel (plain ">" :: read)
      | t => unexpected t

/-- Reads the text of a sum whose two parentheses are still ahead. -/
def sumText (nested : Reader Unit) (fuel : Nat) : Reader Raw := do
  discard take?
  discard take?
  let (_, text) ← measured (Lexer.pieces nested (← get).line fuel (.sum 0) [])
  return text.take (text.length - 2)

def atSum (nested : Reader Unit) (fuel : Nat) : Reader Bool := do
  let s ← get
  if s.dialect = .plain then return false
  let rest := match s.back? with
    | none => s.rest.dropWhile Lexer.isBlank
    | some (.operator "(") => '(' :: s.rest
    | some _ => []
  match rest with
  | '(' :: '(' :: _ =>
    set { s with back? := none, rest := rest.drop 1 }
    let isSum ← Lexer.closesTwice nested s.line fuel
    set (if isSum then { s with back? := none, rest } else s)
    return isSum
  | _ => return false

mutual

/-- Reads commands up to the parenthesis that closes them, which is taken as well. -/
def nested : (fuel : Nat) → Reader Unit
  | 0 => unexpected .finish
  | fuel + 1 => do
    let outer ← get
    set { outer with awaited := [], aliases := [], isWhole := false }
    discard (commands fuel true)
    match ← Lexer.token (nested fuel) fuel with
    | .operator ")" => pure ()
    | t => if !(outer.isWhole ∧ closes t) then unexpected t (quotedText ")")
    Lexer.documents (nested fuel)
    modify fun s =>
      { s with awaited := outer.awaited, aliases := outer.aliases, isWhole := outer.isWhole }

/-- Reads commands up to a closing token, which stays; there may have to be at least one. -/
def commands : (fuel : Nat) → (mayBeNone : Bool) → Reader Command
  | 0, _ => unexpected .finish
  | fuel + 1, mayBeNone => do
    let t ← next (nested fuel) true true fuel
    putBack t
    if (mayBeNone ∧ closes t) ∨ isFinish t then return .nothing
    let first ← chain fuel
    match ← Lexer.token (nested fuel) fuel with
    | .operator "&" => return .sequence (.detached first) (← commands fuel true)
    | .operator ";" => return .sequence first (← commands fuel true)
    | .operator "\n" => return .sequence first (← commands fuel true)
    | t =>
      putBack t
      return first

def chain : (fuel : Nat) → Reader Command
  | 0 => unexpected .finish
  | fuel + 1 => do links fuel (← pipeline fuel false)

def links : (fuel : Nat) → Command → Reader Command
  | 0, _ => unexpected .finish
  | fuel + 1, first => do
    match ← Lexer.token (nested fuel) fuel with
    | .operator "&&" => links fuel (.both first (← pipeline fuel true))
    | .operator "||" => links fuel (.either first (← pipeline fuel true))
    | t =>
      putBack t
      return first

def pipeline : (fuel : Nat) → (newlines : Bool) → Reader Command
  | 0, _ => unexpected .finish
  | fuel + 1, newlines => do
    if ← atSum (nested fuel) fuel then return ← stages fuel (← command fuel .finish)
    let t ← next (nested fuel) newlines true fuel
    match plain? t with
    | some "!" =>
      if (← get).dialect = .extended then return .negated (← pipeline fuel false)
      let t ← next (nested fuel) false true fuel
      return .negated (← stages fuel (← command fuel t))
    | some "time" =>
      if (← get).dialect = .extended then return .timed (← pipeline fuel false)
      stages fuel (← command fuel t)
    | _ => stages fuel (← command fuel t)

def stages : (fuel : Nat) → Command → Reader Command
  | 0, _ => unexpected .finish
  | fuel + 1, first => do
    match ← Lexer.token (nested fuel) fuel with
    | .operator "|" =>
      let second ← command fuel (← next (nested fuel) true true fuel)
      return .piped false first (← stages fuel second)
    | .operator "|&" =>
      let second ← command fuel (← next (nested fuel) true true fuel)
      return .piped true first (← stages fuel second)
    | t =>
      putBack t
      return first

/-- Reads a single command, whose first token is given. -/
def command : (fuel : Nat) → Token → Reader Command
  | 0, t => unexpected t
  | fuel + 1, t => do
    let line := (← get).line
    let extended := (← get).dialect = .extended
    if ← (match t with
        | .finish => atSum (nested fuel) fuel
        | _ => pure false) then
      let e ← sumText (nested fuel) fuel
      return ← withRedirections fuel line (.sum line e)
    match t, plain? t with
    | _, some "if" => withRedirections fuel line (← branches fuel)
    | _, some "while" => withRedirections fuel line (← repetition fuel true)
    | _, some "until" => withRedirections fuel line (← repetition fuel false)
    | _, some "for" => forLoop fuel line
    | _, some "case" =>
      let subject ←
        match ← Lexer.token (nested fuel) fuel with
        | .word w _ => pure w
        | t => unexpected t "word"
      keyword fuel true "in"
      let body ← arms fuel
      withRedirections fuel line (.byForm line subject body)
    | _, some "\x7b" =>
      let body ← commands fuel false
      keyword fuel false "\x7d"
      withRedirections fuel line body
    | .operator "(", _ =>
      let body ← commands fuel false
      match ← Lexer.token (nested fuel) fuel with
      | .operator ")" => pure ()
      | t => unexpected t (quotedText ")")
      withRedirections fuel line (.subshell line body)
    | _, some text =>
      if extended ∧ text = "[[" then
        let ws ← questionWords (nested fuel) fuel []
        withRedirections fuel line (.question line ws)
      else if extended ∧ text = "function" then
        match ← Lexer.token (nested fuel) fuel with
        | .word w _ =>
          let name := Lexer.unquoted w
          match ← next (nested fuel) true true fuel with
          | .operator "(" =>
            match ← Lexer.token (nested fuel) fuel with
            | .operator ")" => functionBody fuel line name (← next (nested fuel) true true fuel)
            | t => unexpected t
          | t => functionBody fuel line name t
        | t => unexpected t
      else if keywords.contains text then unexpected t
      else simple fuel line t {}
    | .word _ _, _ | .redirect _ _, _ | .lines _ _, _ | .list _, _ => simple fuel line t {}
    | t, _ => unexpected t

/-- Reads the body of a function, whose first token is given. -/
def functionBody : (fuel : Nat) → (line : Nat) → Raw → Token → Reader Command
  | 0, _, _, t => unexpected t
  | fuel + 1, line, name, t => do
    let body ← command fuel t
    return .define line name body

/-- Reads a simple command, whose next token is given. -/
def simple : (fuel : Nat) → (line : Nat) → Token → Parts → Reader Command
  | 0, _, t, _ => unexpected t
  | fuel + 1, line, t, read => do
    let dialect := (← get).dialect
    let go (read : Parts) : Reader Command := do
      let s ← get
      -- a text that ends in a blank lets the next word stand for another text, too
      let again := s.putIn.head?.any fun (name, left) =>
        s.rest.length ≤ left && ((s.aliases.lookup name).bind List.getLast?).any Lexer.isBlank
      if again then modify fun s => { s with putIn := s.putIn.tail }
      simple fuel line (← next (nested fuel) false (read.words.isEmpty || again) fuel) read
    match t with
    | .word w _ =>
      match if read.words = [] then assignment? dialect w else none with
      | some a => go { read with assignments := a :: read.assignments }
      | none => go { read with words := w :: read.words }
    | .list a => go { read with assignments := a :: read.assignments }
    | .redirect _ _ | .lines _ _ =>
      go { read with redirections := (← target (nested fuel) fuel t) :: read.redirections }
    | t =>
      if t.isOperator "(" ∧ read.words.length = 1 ∧ read.assignments.isEmpty
          ∧ read.redirections.isEmpty then
        match ← Lexer.token (nested fuel) fuel with
        | .operator ")" => pure ()
        | t => unexpectedWord t (quotedText ")")
        let w := read.words.headD []
        let name := Lexer.unquoted w
        let isGood :=
          if dialect = .extended then w.plain?.isSome
          else w.plain?.isSome && Raw.isName name && !specialCommands.contains (String.ofList name)
        if !isGood then fail (.functionName name)
        return ← functionBody fuel line name (← next (nested fuel) true true fuel)
      putBack t
      return .simple line read.assignments.reverse read.words.reverse read.redirections.reverse

/-- Reads the redirections after a command that is not simple. -/
def withRedirections : (fuel : Nat) → (line : Nat) → Command → Reader Command
  | 0, _, c => return c
  | fuel + 1, line, c => do
    let rs ← redirections (nested fuel) fuel []
    return if rs.isEmpty then c else .redirected line c rs

/-- Takes a reserved word away, which must come next. -/
def keyword : (fuel : Nat) → (newlines : Bool) → (text : String) → Reader Unit
  | 0, _, _ => unexpected .finish
  | fuel + 1, newlines, text => do
    let t ← next (nested fuel) newlines true fuel
    if plain? t ≠ some text then unexpected t (quotedText text)

/-- Reads the rest of a loop over words. -/
def forLoop : (fuel : Nat) → (line : Nat) → Reader Command
  | 0, _ => unexpected .finish
  | fuel + 1, line => do
    if ← atSum (nested fuel) fuel then
      let text ← sumText (nested fuel) fuel
      let parts := text.splitOn ';'
      let t ← next (nested fuel) true true fuel
      let t ← match t with
        | .operator ";" => next (nested fuel) true true fuel
        | t => pure t
      let body ←
        match plain? t with
        | some "\x7b" => do
          let body ← commands fuel false
          keyword fuel false "\x7d"
          pure body
        | some "do" => do
          let body ← commands fuel false
          keyword fuel false "done"
          pure body
        | _ => unexpected t (quotedText "do")
      return ← withRedirections fuel line
        (.counted line (parts.headD []) (parts.getD 1 []) (parts.getD 2 []) body)
    let name ←
      match ← Lexer.token (nested fuel) fuel with
      | .word w false =>
        match w.plain? with
        | some name => if Raw.isName name then pure name else fail (.loopVariable name)
        | none => fail (.loopVariable (Lexer.unquoted w))
      | .word w _ => fail (.loopVariable (Lexer.unquoted w))
      | _ => fail (.loopVariable [])
    let t ← next (nested fuel) true true fuel
    let words ←
      if plain? t = some "in" then some <$> wordsOfLine (nested fuel) fuel []
      else do
        match t with
        | .operator ";" => pure ()
        | t => putBack t
        pure none
    let t ← next (nested fuel) true true fuel
    match plain? t with
    | some "do" =>
      let body ← commands fuel false
      keyword fuel false "done"
      withRedirections fuel line (.each line name words body)
    | some "\x7b" =>
      if (← get).dialect = .plain then unexpected t (quotedText "do")
      let body ← commands fuel false
      keyword fuel false "\x7d"
      withRedirections fuel line (.each line name words body)
    | _ => unexpected t (quotedText "do")

/-- Reads the rest of a decision, from the condition on. -/
def branches : (fuel : Nat) → Reader Command
  | 0 => unexpected .finish
  | fuel + 1 => do
    let condition ← commands fuel false
    keyword fuel false "then"
    let yes ← commands fuel false
    let t ← next (nested fuel) false true fuel
    match plain? t with
    | some "elif" => return .branch condition yes (← branches fuel)
    | some "else" =>
      let no ← commands fuel false
      keyword fuel false "fi"
      return .branch condition yes no
    | some "fi" => return .branch condition yes .nothing
    | _ => unexpected t (quotedText "fi")

/-- Reads the rest of a loop, from the condition on. -/
def repetition : (fuel : Nat) → Bool → Reader Command
  | 0, _ => unexpected .finish
  | fuel + 1, wanted => do
    let condition ← commands fuel false
    keyword fuel false "do"
    let body ← commands fuel false
    keyword fuel false "done"
    return .loop wanted condition body

def arms : (fuel : Nat) → Reader Command
  | 0 => unexpected .finish
  | fuel + 1 => do
    let t ← next (nested fuel) true false fuel
    if plain? t = some "esac" then return .nothing
    let t ← match t with
      | .operator "(" => Lexer.token (nested fuel) fuel
      | t => pure t
    let patterns ← alternatives fuel t []
    let body ← commands fuel true
    let t ← next (nested fuel) true false fuel
    match t with
    | .operator text =>
      if text ∈ [";;", ";&", ";;&"] then return .arm patterns body text.toList (← arms fuel)
      unexpected t (quotedText ";;")
    | _ =>
      if plain? t = some "esac" then return .arm patterns body [] .nothing
      unexpected t (quotedText ";;")

/-- Reads the patterns of an arm, the first token of which is given. -/
def alternatives : (fuel : Nat) → Token → List Word → Reader (List Word)
  | 0, t, _ => unexpected t
  | fuel + 1, t, read => do
    let extended := (← get).dialect = .extended
    -- what is no word is only noticed by what does not follow it
    let w ← match t with
      | .word w _ => pure w
      | t => if extended then unexpected t else pure []
    match ← Lexer.token (nested fuel) fuel with
    | .operator "|" => alternatives fuel (← Lexer.token (nested fuel) fuel) (w :: read)
    | .operator ")" => return (w :: read).reverse
    | t => unexpectedWord t (quotedText ")")

end

/-- Reads what stands on a line, with what belongs to it on the lines that follow; nothing at the end. -/
def statement : (fuel : Nat) → (first? : Option Command) → Reader (Option Command)
  | 0, first? => return first?
  | fuel + 1, first? => do
    let joined (c : Command) : Command :=
      match first? with
      | some first => .sequence first c
      | none => c
    let t ← next (nested fuel) false true fuel
    match t with
    | .finish =>
      putBack t
      return first?
    | .operator "\n" => return some (first?.getD .nothing)
    | t =>
      putBack t
      let c ← chain fuel
      match ← Lexer.token (nested fuel) fuel with
      | .operator "&" => statement fuel (some (joined (.detached c)))
      | .operator ";" => statement fuel (some (joined c))
      | .operator "\n" => return some (joined c)
      | .finish =>
        putBack .finish
        return some (joined c)
      | t => unexpected t

/-- Puts the lines that have been met in the places that wait for them. -/
def settled (documents : List (Nat × Word)) (c : Command) : Command :=
  if documents.isEmpty then c
  else
    c.mapRedirections fun r =>
      match r.awaited with
      | some n => { r with target := (documents.lookup n).getD [], awaited := none }
      | none => r

end Parser

/-- Reads the next statement of a script; nothing when there is none left. -/
def nextStatement (s : Source) : Except Mistake (Option (Command × Source)) :=
  let s := { s with documents := [], lineStart := s.rest }
  match (Parser.statement (Lexer.fuelFor s.rest) none).run s with
  | .error mistake => .error mistake
  | .ok (none, _) => .ok none
  | .ok (some c, s) => .ok (some (Parser.settled s.documents c, s))

def Lexer.wordOf (dialect : Dialect) (k : Lexer.Context) (line : Nat) (t : Raw) : Except Mistake Word :=
  Lexer.word dialect (Parser.nested (Lexer.fuelFor t)) k line t

end LuaTree.Shell
