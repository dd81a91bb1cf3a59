import LuaTree.Path.Basic

/-!
# Absolute texts

`absolute? cwd p` rewrites a path so that it means the same from every working directory: a relative
text is appended to the working directory's. The rewriting is lexical. It drops `.` segments and
repeated separators, which no lookup notices, and keeps `..` segments and a trailing separator, which
a lookup may.
-/

namespace LuaTree.PathText

/-- What an absolute text starts with: two separators are kept apart from one, more are one. -/
def rootText : PathText → PathText
  | '/' :: '/' :: '/' :: _ => ['/']
  | '/' :: '/' :: _ => ['/', '/']
  | _ => ['/']

/-- The components after the start of a text, whether that is a separator or a `.`. -/
def innerComponents (p : PathText) : List Component :=
  (components p).filter fun c => c ≠ .root && c ≠ .here

def withTrailingSeparator (p : PathText) : PathText := join p []

/-- The absolute form of a path, seen from the working directory `cwd`; the empty path has none. -/
def absolute? (cwd p : PathText) : Option PathText :=
  if p = [] then none
  else
    let start := if isAbsolute p then rootText p else cwd
    let text := (innerComponents p).foldl (fun q c => join q c.text) start
    some (if p.getLast? = some '/' then withTrailingSeparator text else text)

end LuaTree.PathText
