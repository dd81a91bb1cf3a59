import LuaTree.Shell.Regular.Reader
import LuaTree.Shell.Utility.Streams

/-!
# Records and numbered lines

`tac` writes records with the last one first, `rev` turns lines around, and `nl` numbers lines, page by page.
-/

namespace LuaTree.Shell.Utility

open Run

/-! ## Turning around -/

def lastPlace? (holds : Nat → Bool) : (limit : Nat) → Option Nat
  | 0 => none
  | n + 1 => if holds n then some n else lastPlace? holds n

/-- The places at which a text is cut, the last one first; `find?` tells where the last separator before a
limit begins and ends. -/
def cutsBefore (find? : Nat → Option (Nat × Nat)) (atStart : Bool) : (fuel : Nat) → (limit : Nat) → List Nat
  | 0, _ => []
  | fuel + 1, limit =>
    match find? limit with
    | none => []
    | some (start, finish) => (if atStart then start else finish) :: cutsBefore find? atStart fuel start

/-- What separates records. -/
inductive Separator where
  | text (t : Raw)
  | pattern (r : Regular)

def Separator.lastBefore? (chars : Array Char) (limit : Nat) : Separator → Option (Nat × Nat)
  | .text t =>
    let s : Regular.Subject := { chars }
    (lastPlace? (fun p => p + t.length ≤ limit && s.holdsAt p t.toArray) limit).map fun p => (p, p + t.length)
  | .pattern r =>
    let s : Regular.Subject := { chars := chars.extract 0 limit, hasLines := true }
    match lastPlace? (fun p => (r.matchAt? s p).isSome) limit with
    | some p => (r.matchAt? s p).map fun m => (p, m.finish)
    | none => none

/-- The records of a text, the last one first. -/
def recordsBackwards (separator : Separator) (atStart : Bool) (t : Raw) : List Raw :=
  let chars := t.toArray
  let cuts := cutsBefore (separator.lastBefore? chars) atStart (chars.size + 1) chars.size
  let (records, stop) := cuts.foldl (fun ((records, stop) : List Raw × Nat) cut =>
    ((chars.extract cut stop).toList :: records, cut)) ([], chars.size)
  ((chars.extract 0 stop).toList :: records).reverse

/-- `tac`: writes its input with the last record first. -/
def tac : Utility := withOptions "br" "s" [("before", 'b'), ("regex", 'r'), ("separator", 's')] fun name o => do
  let mark := (o.value? 's').getD ['\n']
  let separator : Separator ←
    if !o.has 'r' then pure (.text (if mark = [] then ['\x00'] else mark))
    else if mark = [] then
      complain name "separator cannot be empty".toList
      return 1
    else
      match Regular.read { isExtended := false, isLenient := true } mark with
      | .ok (r, _) => pure (.pattern r)
      | .error f =>
        complain name f.text.toList
        return 1
  let mut status := 0
  for file in inputFiles o.operands do
    match ← inputOf file with
    | .ok data => putText (recordsBackwards separator (o.has 'b') (Raw.ofBytes data)).flatten
    | .error e =>
      if e = .os .isDirectory then
        complain name (Quote.ifNeeded true file ++ ": read error: Is a directory".toList)
      else
        complain name ("failed to open ".toList ++ Quote.always file ++ " for reading: ".toList
          ++ (refusalText e).toList)
      status := 1
  return status

/-- `rev`: turns lines around. -/
def rev : Utility := withOptions "" "" [] fun name o => do
  let mut status := 0
  for file in inputFiles o.operands do
    match ← inputOf file with
    | .ok data =>
      let parts := (Raw.ofBytes data).splitOn '\n'
      putText (['\n'].intercalate (parts.map List.reverse))
    | .error e =>
      complain name ("cannot open ".toList ++ file ++ ": ".toList ++ (refusalText e).toList)
      status := 1
  return status

/-! ## Numbered lines -/

/-- The parts of a page. -/
inductive PagePart where
  | header -- the part that comes first
  | body
  | footer -- the part that comes last
  deriving DecidableEq

/-- Which lines are numbered. -/
inductive NumberStyle where
  | all
  | filled -- those that are not empty
  | nothing
  | having (r : Regular)

/-- How lines are numbered. -/
structure Numbering where
  style : PagePart → NumberStyle
  start : Int
  step : Int -- how much a number is greater than the one before
  joins : Nat -- how many empty lines count as one
  goesOn : Bool -- whether numbers go on from one part to the next
  width : Nat
  format : String
  separator : Raw -- what stands behind a number
  mark : Raw -- the mark of which the lines between parts consist

/-- Where a numbering has got to. -/
structure Numbered where
  part : PagePart := .body
  next : Int
  empty : Nat := 0 -- how many empty lines have come in a row

namespace Numbering

def shown (k : Numbering) (n : Int) : Raw :=
  let t := Raw.ofInt n
  let fill (c : Char) : Raw := List.replicate (k.width - t.length) c
  match k.format with
  | "ln" => t ++ fill ' '
  | "rz" => if n < 0 then '-' :: fill '0' ++ t.drop 1 else fill '0' ++ t
  | _ => fill ' ' ++ t

def partOf? (k : Numbering) (line : Raw) : Option PagePart :=
  if k.mark.length < 2 then none
  else if line = k.mark ++ k.mark ++ k.mark then some .header
  else if line = k.mark ++ k.mark then some .body
  else if line = k.mark then some .footer
  else none

def line (k : Numbering) (s : Numbered) (t : Raw) : Raw × Numbered :=
  match k.partOf? t with
  | some part => (['\n'], { s with part, next := if k.goesOn then s.next else k.start })
  | none =>
    let counted (s : Numbered) : Raw × Numbered :=
      (k.shown s.next ++ k.separator ++ t ++ ['\n'], { s with next := s.next + k.step })
    let left (s : Numbered) : Raw × Numbered :=
      (List.replicate (k.width + k.separator.length) ' ' ++ t ++ ['\n'], s)
    match k.style s.part with
    | .all =>
      if k.joins ≤ 1 ∨ t ≠ [] ∨ s.empty + 1 = k.joins then
        counted (if k.joins ≤ 1 then s else { s with empty := 0 })
      else left { s with empty := s.empty + 1 }
    | .filled => if t = [] then left s else counted s
    | .nothing => left s
    | .having r => if r.occurs { chars := t.toArray } then counted s else left s

end Numbering

/-- `nl`: numbers lines. -/
def nl : Utility := withOptions "p" "bfhdilnsvw"
    [("body-numbering", 'b'), ("footer-numbering", 'f'), ("header-numbering", 'h'), ("section-delimiter", 'd'),
     ("line-increment", 'i'), ("join-blank-lines", 'l'), ("number-format", 'n'), ("no-renumber", 'p'),
     ("number-separator", 's'), ("starting-line-number", 'v'), ("number-width", 'w')] fun name o => do
  let most : Int := 9223372036854775807
  let mut isFine := true
  for (c, t) in o.given do
    let styled (part : String) : Run Bool := do
      match t with
      | 'p' :: t =>
        match Regular.read { isExtended := false, isLenient := true } t with
        | .ok _ => return true
        | .error f =>
          complain name f.text.toList
          throw (.exit 1)
      | 'a' :: _ | 't' :: _ | 'n' :: _ => return true
      | _ =>
        complain name ("invalid ".toList ++ part.toList ++ " numbering style: ".toList ++ Quote.shown t)
        return false
    let check (what : String) (least most : Int) : Run Bool := do
      discard (numberWithin name ("invalid " ++ what) least most t)
      return true
    let answer ← match c with
      | 'b' => styled "body"
      | 'f' => styled "footer"
      | 'h' => styled "header"
      | 'v' => check "starting line number" (-most - 1) most
      | 'i' => check "line number increment" (-most - 1) most
      | 'l' => check "line number of blank lines" 1 most
      | 'w' => check "line number field width" 1 2147483647
      | 'n' =>
        if t = "ln".toList ∨ t = "rn".toList ∨ t = "rz".toList then pure true
        else do
          complain name ("invalid line numbering format: ".toList ++ Quote.shown t)
          pure false
      | _ => pure true
    isFine := isFine && answer
  if !isFine then
    complainLine ("Try '".toList ++ name ++ " --help' for more information.".toList)
    return 1
  let number (c : Char) (usual : Int) : Int :=
    ((o.value? c).bind fun t => Raw.int? (t.dropWhile Char.isWhitespace)).getD usual
  let style (c : Char) (usual : NumberStyle) : NumberStyle :=
    match o.value? c with
    | some ('a' :: _) => .all
    | some ('t' :: _) => .filled
    | some ('n' :: _) => .nothing
    | some ('p' :: t) =>
      match Regular.read { isExtended := false, isLenient := true } t with
      | .ok (r, _) => .having r
      | .error _ => .nothing
    | _ => usual
  let (header, body, footer) := (style 'h' .nothing, style 'b' .filled, style 'f' .nothing)
  let k : Numbering :=
    { style := fun
        | .header => header
        | .body => body
        | .footer => footer
      start := number 'v' 1, step := number 'i' 1, joins := (number 'l' 1).toNat, goesOn := o.has 'p'
      width := (number 'w' 6).toNat, format := String.ofList ((o.value? 'n').getD "rn".toList)
      separator := (o.value? 's').getD ['\t']
      mark := match o.value? 'd' with
        | some [c] => [c, ':']
        | some t => t
        | none => ['\\', ':'] }
  let mut status := 0
  let mut reached : Numbered := { next := k.start }
  for file in inputFiles o.operands do
    match ← inputOf file with
    | .ok data =>
      let (texts, s) := (linesOf data).foldl (fun ((texts, s) : List Raw × Numbered) t =>
        let (text, s) := k.line s t
        (text :: texts, s)) ([], reached)
      putText texts.reverse.flatten
      reached := s
    | .error e =>
      complainFile name file e
      status := 1
  return status

end LuaTree.Shell.Utility
