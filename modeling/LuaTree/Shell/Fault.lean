import LuaTree.Shell.Parser

/-!
# What is said about mistakes in scripts
-/

namespace LuaTree.Shell

namespace Token

def shown (t : Token) : String :=
  match t with
  | .operator "\n" => "newline"
  | .operator text => Parser.quotedText text
  | .redirect _ _ | .lines _ _ => "redirection"
  | .word _ _ | .list _ =>
    match Parser.plain? t with
    | some text => if keywords.contains text then Parser.quotedText text else "word"
    | none => "word"
  | .finish => "end of file"

def written (t : Token) : String :=
  match t with
  | .operator "\n" => "newline"
  | .operator text => text
  | .redirect _ action =>
    match action with
    | .input => "<"
    | .append => ">>"
    | .same => ">&"
    | _ => ">"
  | .lines _ _ => "<<"
  | .word w _ => String.ofList (Lexer.unquoted w)
  | .list _ => "("
  | .finish => "end of file"

end Token

def Mistake.lines (m : Mistake) : Dialect → List Raw
  | .plain =>
    let text : String :=
      match m.fault with
      | .openQuote _ => "Unterminated quoted string"
      | .openBrace => "Missing '\x7d'"
      | .openSum => "Missing '))'"
      | .openGrave => "EOF in backquote substitution"
      | .openParenthesis => "end of file unexpected (expecting \")\")"
      | .unexpected t wanted =>
        t.shown ++ " unexpected" ++ if wanted = "" then "" else " (expecting " ++ wanted ++ ")"
      | .loopVariable _ => "Bad for loop variable"
      | .functionName _ => "Bad function name"
    ["Syntax error: ".toList ++ text.toList]
  | .extended =>
    let matching (c : Char) : List Raw :=
      ["unexpected EOF while looking for matching \x60".toList ++ [c, '\'']]
    match m.fault with
    | .openQuote c => matching c
    | .openBrace => matching '\x7d'
    | .openSum | .openParenthesis => matching ')'
    | .openGrave => matching '\x60'
    | .unexpected .finish _ => ["syntax error: unexpected end of file".toList]
    | .unexpected t _ =>
      ["syntax error near unexpected token \x60".toList ++ t.written.toList ++ ['\''],
        '\x60' :: m.text ++ ['\'']]
    | .loopVariable name | .functionName name =>
      ['\x60' :: name ++ "': not a valid identifier".toList]

end LuaTree.Shell
