import LuaTree.Path.Basic

/-!
# Output names

Where the output of an input goes, by its name alone. `fileOutput` puts the text of a converted file
beside it under the extension `.src.lua`; `siblingDirectory` puts a converted tree beside the
directory under the suffix `.src`.

The extension of a name is what follows its last dot, unless that dot is the first character. It is
taken off the *end of the text*, which is the end of the name only when the path has no trailing
separator; the name that is left then decides about the new extension.
-/

namespace LuaTree.PathText

/-- The extension given to the output of a single file. -/
def fileExtension : Name := "src.lua".toList

def directorySuffix : Name := ".src".toList

/-- Splits a name at its last dot into stem and extension. A name whose only dot comes first has no
extension, and neither has `..`. -/
def splitExtension (n : Name) : Name × Option Name :=
  if n = ['.', '.'] then (n, none)
  else
    match n.reverse.span (· ≠ '.') with
    | (_, []) | (_, [_]) => (n, none)
    | (ext, _ :: stem) => (stem.reverse, some ext.reverse)

/-- Drops characters from the end until they took `n` bytes; a character that takes more than what
is left of `n` stays. -/
def dropEndBytes (n : Nat) (p : PathText) : PathText := (go n p.reverse).reverse
where
  -- the same from the front of the reversed text
  go (n : Nat) : List Char → List Char
    | [] => []
    | c :: cs => if 0 < n ∧ c.utf8Size ≤ n then go (n - c.utf8Size) cs else c :: cs

/-- The text with the extension of its final name cut off at the end. -/
def dropExtension (p : PathText) : PathText :=
  match (finalName? p).bind fun n => (splitExtension n).2 with
  | none => p
  | some ext => dropEndBytes (Utf8.byteLength ext) p

/-- Ends a path right after the stem of its final name, followed by a new extension; a path without
a final name stays as it is. -/
def replaceExtension (p : PathText) (ext : Name) : PathText :=
  match finalName? p with
  | none => p
  | some n =>
    let text := trimEnd p
    text.take (text.length - n.length) ++ (splitExtension n).1 ++ '.' :: ext

def fileOutput (p : PathText) : PathText := replaceExtension (dropExtension p) fileExtension

/-- The sibling of a path whose name carries the output suffix. -/
def siblingDirectory (p : PathText) : PathText :=
  match finalName? p with
  | some n => withFinalName p (n ++ directorySuffix)
  | none => withFinalName p directorySuffix

end LuaTree.PathText
