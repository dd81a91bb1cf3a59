import LuaTree.Shell.Utility.Streams

/-!
# Splitting files

`split` cuts a file into pieces, which are named by letters or digits in a row. `Suffixes.nth?` says how a piece
is named.
-/

namespace LuaTree.Shell.Utility

open Run

/-- The endings of the names of pieces. -/
structure Suffixes where
  signs : Raw -- the signs that are counted with
  width : Nat := 2
  grows : Bool := true -- whether the names become longer if there are too many
  start : Nat := 0 -- the number that is counted from

namespace Suffixes

def counted (s : Suffixes) : (width n : Nat) → Raw
  | 0, _ => []
  | width + 1, n => counted s width (n / s.signs.length) ++ [s.signs.getD (n % s.signs.length) 'a']

/-- The ending of a piece; if there are too many pieces and names may grow, the last sign goes in front. -/
def ending? (s : Suffixes) : (fuel : Nat) → (width n : Nat) → Option Raw
  | 0, _, _ => none
  | fuel + 1, width, n =>
    let base := s.signs.length
    let whole := (List.replicate width base).foldl (· * ·) 1
    if s.grows then
      let room := whole - whole / base
      if n < room then some (s.counted width n)
      else (ending? s fuel (width + 1) (n - room)).map fun t => s.signs.getLastD 'z' :: t
    else if n < whole then some (s.counted width n) else none

def nth? (s : Suffixes) (n : Nat) : Option Raw := s.ending? 100 s.width (s.start + n)

end Suffixes

def piecesOf (size : Nat) : (fuel : Nat) → Bytes → List Bytes
  | 0, _ => []
  | fuel + 1, data => if data = [] then [] else data.take size :: piecesOf size fuel (data.drop size)

def wholeLines (ending : UInt8) : (fuel : Nat) → Bytes → List Bytes
  | 0, _ => []
  | fuel + 1, data =>
    if data = [] then []
    else
      let n := (data.takeWhile (· ≠ ending)).length + 1
      data.take n :: wholeLines ending fuel (data.drop n)

def linePieces (count : Nat) : (fuel : Nat) → List Bytes → List Bytes
  | 0, _ => []
  | fuel + 1, ls => if ls = [] then [] else (ls.take count).flatten :: linePieces count fuel (ls.drop count)

/-- Pieces of whole lines of at most so many bytes; a line that is longer is cut. -/
def linesUpTo (size : Nat) : (fuel : Nat) → (begun : Bytes) → List Bytes → List Bytes
  | 0, begun, _ => [begun]
  | _ + 1, begun, [] => if begun = [] then [] else [begun]
  | fuel + 1, begun, l :: rest =>
    if begun.length + l.length ≤ size then linesUpTo size fuel (begun ++ l) rest
    else if begun ≠ [] then begun :: linesUpTo size fuel [] (l :: rest)
    else l.take size :: linesUpTo size fuel [] (l.drop size :: rest)

/-- The places at which a number of bytes is cut into so many chunks. -/
def chunkEnds (size count : Nat) : List Nat :=
  (List.range count).map fun k => (k + 1) * (size / count) + min (k + 1) (size % count)

/-- Chunks of about the same number of bytes. -/
def byteChunks (count : Nat) (data : Bytes) : List Bytes :=
  (chunkEnds data.length count).zipIdx.map fun (stop, k) =>
    let start := if k = 0 then 0 else (chunkEnds data.length count).getD (k - 1) 0
    (data.drop start).take (stop - start)

/-- Chunks of whole lines of about the same number of bytes; a line belongs to the chunk in which it begins. -/
def lineChunks (count : Nat) (lines : List Bytes) : List Bytes :=
  let size := lines.foldl (fun n l => n + l.length) 0
  let ends := chunkEnds size count
  let (placed, _) := lines.foldl (fun ((placed, start) : List (Nat × Bytes) × Nat) l =>
    let k := ends.findIdx (start < ·)
    (placed ++ [(k, l)], start + l.length)) ([], 0)
  (List.range count).map fun k => (placed.filter fun p => p.1 = k).flatMap Prod.snd

def dealtChunks (count : Nat) (lines : List Bytes) : List Bytes :=
  (List.range count).map fun k => (lines.zipIdx.filter fun p => p.2 % count = k).flatMap Prod.fst

/-- How pieces are cut. -/
inductive Cut where
  | lines (n : Nat)
  | bytes (n : Nat)
  | upTo (n : Nat) -- into whole lines of at most so many bytes
  -- into so many pieces, of which maybe only one is wanted
  | chunks (way : Char) (only? : Option Nat) (n : Nat)

def Cut.pieces (c : Cut) (ending : UInt8) (data : Bytes) : List Bytes :=
  let fuel := 2 * data.length + 2
  let whole := wholeLines ending fuel data
  match c with
  | .lines n => linePieces n fuel whole
  | .bytes n => piecesOf n fuel data
  | .upTo n => linesUpTo n fuel [] whole
  | .chunks 'l' _ n => lineChunks n whole
  | .chunks 'r' _ n => dealtChunks n whole
  | .chunks _ _ n => byteChunks n data

/-- Reads how many chunks there are to be; fails with what is wrong. -/
def chunks? (t : Raw) : Except Raw Cut := do
  let (way, t) : Char × Raw := match t with
    | 'l' :: '/' :: rest => ('l', rest)
    | 'r' :: '/' :: rest => ('r', rest)
    | t => ('b', t)
  let wrong (t : Raw) : Except Raw Nat := .error ("invalid number of chunks: ".toList ++ Quote.shown t)
  let first := t.takeWhile (· ≠ '/')
  if first.length < t.length then
    let second := t.drop (first.length + 1)
    let n ← match Raw.nat? second with
      | some n => if n = 0 then wrong second else pure n
      | none => wrong second
    match Raw.nat? first with
    | some k =>
      if 0 < k ∧ k ≤ n then return .chunks way (some k) n
      else .error ("invalid chunk number: ".toList ++ Quote.shown first)
    | none => .error ("invalid chunk number: ".toList ++ Quote.shown first)
  else
    match Raw.nat? t with
    | some n => if n = 0 then return .lines (← wrong t) else return .chunks way none n
    | none => return .lines (← wrong t)

/-- `split`: cuts a file into pieces. -/
def split : Utility := withTable
    { flags := "deuvx0123456789", valued := "aAbClnt", optional := "DX"
      long := [("suffix-length", 'a'), ("additional-suffix", 'A'), ("bytes", 'b'), ("line-bytes", 'C'),
        ("lines", 'l'), ("number", 'n'), ("numeric-suffixes", 'D'), ("hex-suffixes", 'X'),
        ("elide-empty-files", 'e'), ("separator", 't'), ("unbuffered", 'u'), ("verbose", 'v')] } fun name o => do
  let fail (t : Raw) : Run Nat := do
    complain name t
    return 1
  let digits := (o.given.map Prod.fst).filter Char.isDigit
  let ways := ['l', 'b', 'C', 'n'].filter o.has
  if 1 < ways.length + (if digits = [] then 0 else 1) then
    return ← complainUsage name "cannot split in more than one way".toList
  let amount (what : String) (t : Raw) : Except Raw Nat :=
    match count? t with
    | some n => if n = 0 then .error ("invalid number of ".toList ++ what.toList ++ ": ".toList ++ Quote.shown t)
      else .ok n
    | none => .error ("invalid number of ".toList ++ what.toList ++ ": ".toList ++ Quote.shown t)
  let cut? : Except Raw Cut :=
    match o.value? 'l', o.value? 'b', o.value? 'C', o.value? 'n' with
    | some t, _, _, _ => (amount "lines" t).map .lines
    | _, some t, _, _ => (amount "bytes" t).map .bytes
    | _, _, some t, _ => (amount "bytes" t).map .upTo
    | _, _, _, some t => chunks? t
    | _, _, _, _ => .ok (.lines (if digits = [] then 1000 else (Raw.nat? digits).getD 1000))
  let cut ← match cut? with
    | .ok c => pure c
    | .error t => return ← fail t
  let width? ← match o.value? 'a' with
    | none => pure none
    | some t =>
      match Raw.nat? t with
      | some n => pure (some n)
      | none => return ← fail ("invalid suffix length: ".toList ++ Quote.shown t)
  let tail := (o.value? 'A').getD []
  if tail.contains '/' then
    return ← complainUsage name
      ("invalid suffix ".toList ++ Quote.shown tail ++ ", contains directory separator".toList)
  let start := ((o.value? 'D') <|> (o.value? 'X')).getD []
  if start ≠ [] ∧ (Raw.nat? start).isNone then
    complain name (Quote.shown start ++ ": invalid start value for numerical suffix".toList)
    complainLine ("Try '".toList ++ name ++ " --help' for more information.".toList)
    return 1
  let signs :=
    if o.has 'd' || o.has 'D' then "0123456789".toList
    else if o.has 'x' || o.has 'X' then "0123456789abcdef".toList
    else "abcdefghijklmnopqrstuvwxyz".toList
  let wanted : Nat := match cut with
    | .chunks _ _ n => (Nat.toDigits signs.length (n - 1)).length
    | _ => 0
  let isCounted : Bool := match cut with
    | .chunks .. => true
    | _ => false
  let suffixes : Suffixes :=
    { signs, width := match width? with
        | some n => if n = 0 then 2 else n
        | none => max 2 wanted
      grows := width?.isNone && start = [] && !isCounted
      start := (Raw.nat? start).getD 0 }
  let (file, stem) ← match o.operands with
    | [] => pure (['-'], ['x'])
    | [file] => pure (file, ['x'])
    | [file, stem] => pure (file, stem)
    | _ :: _ :: extra :: _ => return ← complainExtra name extra
  let separator := (o.value? 't').bind List.head?
  match ← inputOf file with
  | .error (.os e) =>
    if e = .isDirectory then fail (file ++ ": ".toList ++ e.text.toList)
    else fail ("cannot open ".toList ++ Quote.always file ++ " for reading: ".toList ++ e.text.toList)
  | .error e => fail ("cannot open ".toList ++ Quote.always file ++ " for reading: ".toList ++ (refusalText e).toList)
  | .ok data =>
    let pieces := cut.pieces (separator.map Char.toUInt8 |>.getD 10) data
    match cut with
    | .chunks _ (some k) _ =>
      put (pieces.getD (k - 1) [])
      return 0
    | _ =>
      let pieces := if o.has 'e' then pieces.filter (· ≠ []) else pieces
      for (piece, k) in pieces.zipIdx do
        match suffixes.nth? k with
        | none => return ← fail "output file suffixes exhausted".toList
        | some suffix =>
          let target := stem ++ suffix ++ tail
          if o.has 'v' then putLine ("creating file ".toList ++ Quote.always target)
          match ← openOutput .anew (Raw.path target) with
          | .error e => return ← fail (target ++ ": ".toList ++ (refusalText e).toList)
          | .ok c =>
            setDescriptor inputDescriptor (some c)
            match ← write inputDescriptor piece with
            | .ok () => pure ()
            | .error e => return ← fail (target ++ ": ".toList ++ e.text.toList)
      return 0

end LuaTree.Shell.Utility
