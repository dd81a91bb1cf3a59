import LuaTree.Digest.Base64
import LuaTree.Digest.Crc
import LuaTree.Digest.Md5
import LuaTree.Shell.Format
import LuaTree.Shell.Utility.Names

/-!
# Check sums

What sums up a file in a number or a digest: `cksum`, `sum` and the digests by name, which can also be compared
with those in a list; and `base64` and its like, which write data as letters.
-/

namespace LuaTree.Shell.Utility

open Run

/-! ## Digests -/

/-- A digest. -/
structure DigestKind where
  tag : String -- the name as lists show it
  size : Nat
  digest : Bytes → Bytes

def digests : List (String × DigestKind) :=
  [("md5", ⟨"MD5", 16, Digest.md5⟩), ("sha1", ⟨"SHA1", 20, Digest.sha1⟩),
   ("sha224", ⟨"SHA224", 28, Digest.sha224⟩), ("sha256", ⟨"SHA256", 32, Digest.sha256⟩),
   ("sha384", ⟨"SHA384", 48, Digest.sha384⟩), ("sha512", ⟨"SHA512", 64, Digest.sha512⟩)]

def hexOf (data : Bytes) : Raw :=
  data.flatMap fun b => [Nat.digitChar (b.toNat / 16), Nat.digitChar (b.toNat % 16)]

/-- A name with backslashes in place of what would break a line. -/
def unbroken (t : Raw) : Raw :=
  t.flatMap fun c =>
    if c = '\\' then "\\\\".toList else if c = '\n' then "\\n".toList else if c = '\r' then "\\r".toList else [c]

/-- The name that an unbroken one stands for. -/
def broken : Raw → Raw
  | '\\' :: 'n' :: t => '\n' :: broken t
  | '\\' :: 'r' :: t => '\r' :: broken t
  | '\\' :: '\\' :: t => '\\' :: broken t
  | c :: t => c :: broken t
  | [] => []

def digestLine (k : DigestKind) (tagged binary zero : Bool) (file : Raw) (data : Bytes) : Raw :=
  let shown := if zero then file else unbroken file
  let mark : Raw := if shown = file then [] else ['\\']
  let text := hexOf (k.digest data)
  mark ++ (if tagged then k.tag.toList ++ " (".toList ++ shown ++ ") = ".toList ++ text
    else text ++ [' ', if binary then '*' else ' '] ++ shown)
    ++ [if zero then '\x00' else '\n']

/-- Reads a line of a list of digests: the digest and the name of the file. -/
def digestLine? (k : DigestKind) (line : Raw) : Option (Raw × Raw) :=
  let line := line.dropWhile fun c => c = ' ' || c = '\t'
  let (escaped, line) : Bool × Raw := match line with
    | '\\' :: t => (true, t)
    | t => (false, t)
  let name (t : Raw) : Raw := if escaped then broken t else t
  let tag := k.tag.toList ++ " (".toList
  let isDigest (t : Raw) : Bool :=
    t.length = 2 * k.size && t.all fun c => c.isDigit || ('a' ≤ c.toLower && c.toLower ≤ 'f')
  if tag.isPrefixOf line then
    let body := line.drop tag.length
    let text := (body.reverse.takeWhile fun c => c ≠ ' ').reverse
    let file := body.take (body.length - text.length)
    if ") = ".toList.isSuffixOf file && isDigest text then some (text, name (file.take (file.length - 4)))
    else none
  else
    let text := line.take (2 * k.size)
    match line.drop (2 * k.size) with
    | ' ' :: c :: t =>
      if !isDigest text then none
      else if (c = ' ' ∨ c = '*') ∧ t ≠ [] then some (text, name t)
      else some (text, name (c :: t))
    | _ => none

/-- How many of something there were, in words. -/
def counted (n : Nat) (one many : String) : Raw :=
  "WARNING: ".toList ++ Raw.ofNat n ++ ' ' :: (if n = 1 then one else many).toList

def checkDigests (name : Raw) (o : Options) (k : DigestKind) (file : Raw) : Run Bool := do
  let shown := if file = ['-'] then "standard input".toList else file
  match ← inputOf file with
  | .error e =>
    complainFile name shown e
    return false
  | .ok data =>
    let isSilent := o.has '\x05'
    let mut formed := 0
    let mut unformed := 0
    let mut unread := 0
    let mut different := 0
    let mut matched := 0
    let mut number := 0
    for line in linesOf data do
      number := number + 1
      if line.head? ≠ some '#' ∧ line ≠ [] then
        match digestLine? k line with
        | none =>
          unformed := unformed + 1
          if o.has 'w' then
            complain name (Quote.ifNeeded true shown ++ ": ".toList ++ Raw.ofNat number
              ++ ": improperly formatted ".toList ++ k.tag.toList ++ " checksum line".toList)
        | some (text, path) =>
          formed := formed + 1
          let label := (if unbroken path = path then [] else ['\\']) ++ unbroken path
          match ← inputOf path with
          | .error e =>
            if !(o.has '\x07' && e == .os .noEntry) then
              unread := unread + 1
              complainFile name path e
              if !isSilent then putLine (label ++ ": FAILED open or read".toList)
          | .ok data =>
            if hexOf (k.digest data) = text.map Char.toLower then
              matched := matched + 1
              if !isSilent ∧ !o.has '\x04' then putLine (label ++ ": OK".toList)
            else
              different := different + 1
              if !isSilent then putLine (label ++ ": FAILED".toList)
    if formed = 0 then
      complain name (Quote.ifNeeded true shown ++ ": no properly formatted checksum lines found".toList)
      return false
    if !isSilent then
      if unformed ≠ 0 then
        complain name (counted unformed "line is improperly formatted" "lines are improperly formatted")
      if unread ≠ 0 then
        complain name (counted unread "listed file could not be read" "listed files could not be read")
      if different ≠ 0 then
        complain name (counted different "computed checksum did NOT match" "computed checksums did NOT match")
      if o.has '\x07' ∧ matched = 0 then
        complain name (Quote.ifNeeded true shown ++ ": no file was verified".toList)
    return different = 0 && unread = 0 && (unformed = 0 || !o.has '\x06') && (matched != 0 || !o.has '\x07')

def digestsOf (k : DigestKind) (tagged : Bool) (name : Raw) (o : Options) : Run Nat := do
  let checks := o.has 'c'
  let idle? : Option String :=
    if checks then none
    else
      [('\x07', "--ignore-missing"), ('\x05', "--status"), ('w', "--warn"), ('\x04', "--quiet"),
        ('\x06', "--strict")].findSome? fun (c, option) => if o.has c then some option else none
  match idle? with
  | some option =>
    complainUsage name
      ("the ".toList ++ option.toList ++ " option is meaningful only when verifying checksums".toList)
  | none =>
    if checks then
      if o.has '\x03' then
        return ← complainUsage name "the --tag option is meaningless when verifying checksums".toList
      return ← forEach (inputFiles o.operands) (checkDigests name o k)
    let (read, status) ← inputs name o.operands
    for (file, data) in read do putText (digestLine k tagged (o.has 'b') (o.has 'z') file data)
    return status

def digestOptions : OptionTable where
  flags := "bctwz\x03\x04\x05\x06\x07\x08"
  valued := "al"
  long := [("binary", 'b'), ("check", 'c'), ("text", 't'), ("warn", 'w'), ("zero", 'z'), ("tag", '\x03'),
    ("quiet", '\x04'), ("status", '\x05'), ("strict", '\x06'), ("ignore-missing", '\x07'),
    ("algorithm", 'a'), ("untagged", '\x08')]

/-- `md5sum` and its like: write or check a digest. -/
def digestSum (k : DigestKind) : Utility :=
  withTable { digestOptions with valued := "", flags := "bctwz\x03\x04\x05\x06\x07" } fun name o =>
    digestsOf k (o.has '\x03') name o

/-! ## Sums -/

/-- How a file is summed up in a number. -/
inductive SumKind where
  | remainder
  | rotated -- by a sum that is turned round
  | folded
  deriving DecidableEq, Inhabited

/-- The line for a file; its name is shown if it was given. -/
def sumLine (k : SumKind) (named : Bool) (file : Raw) (data : Bytes) : Raw :=
  let n := data.length
  let text := match k with
    | .remainder => Raw.ofNat (Digest.crc data).toNat ++ ' ' :: Raw.ofNat n
    | .rotated =>
      ({ flags := ['0'], width := 5 } : Format.Spec).ofInt (Digest.rotatedSum data) ++ ' ' ::
        column 5 ((n + 1023) / 1024)
    | .folded => Raw.ofNat (Digest.foldedSum data) ++ ' ' :: Raw.ofNat ((n + 511) / 512)
  text ++ (if named then ' ' :: file else []) ++ ['\n']

def sumsOf (k : SumKind) (name : Raw) (o : Options) : Run Nat := do
  let (read, status) ← inputs name o.operands
  for (file, data) in read do putText (sumLine k (o.operands ≠ []) file data)
  return status

/-- `sum`: writes sums and sizes in blocks. -/
def sum : Utility := withOptions "rs" "" [("sysv", 's')] fun name o =>
  sumsOf (if o.last? "rs" = some 's' then .folded else .rotated) name o

/-- `cksum`: writes check sums and sizes, or digests. -/
def cksum : Utility := withTable digestOptions fun name o => do
  match (o.value? 'a').map String.ofList with
  | none | some "crc" => sumsOf .remainder name o
  | some "bsd" => sumsOf .rotated name o
  | some "sysv" => sumsOf .folded name o
  | some text =>
    match digests.lookup text with
    | some k => digestsOf k (o.last? "\x03\x08" ≠ some '\x08') name { o with given := o.given.filter (·.1 ≠ '\x03') }
    | none =>
      complainChoice name "algorithm".toList text.toList
        ["bsd", "sysv", "crc", "md5", "sha1", "sha224", "sha256", "sha384", "sha512", "blake2b", "sm3"]

/-! ## Letters -/

def wrapped (width : Nat) : (fuel : Nat) → Raw → Raw
  | 0, _ | _, [] => []
  | fuel + 1, t => t.take width ++ '\n' :: wrapped width fuel (t.drop width)

/-- Writes data as letters, or the data that letters stand for. -/
def lettersOf (a : Digest.Alphabet) : Utility :=
  withOptions "di" "w" [("decode", 'd'), ("ignore-garbage", 'i'), ("wrap", 'w')] fun name o => do
    let width? : Option Nat := match o.value? 'w' with
      | some t => Raw.nat? t
      | none => some 76
    match width?, o.operands with
    | none, _ =>
      complain name ("invalid wrap size: ".toList ++ Quote.shown ((o.value? 'w').getD []))
      return 1
    | some _, _ :: extra :: _ => complainExtra name extra
    | some width, operands =>
      let file := operands.headD ['-']
      match ← inputOf file with
      | .error e =>
        if operands = [] then complain name ("read error: ".toList ++ (refusalText e).toList)
        else match e with
          | .os .isDirectory => complain name ("read error: ".toList ++ (refusalText e).toList)
          | _ => complainFile name file e
        return 1
      | .ok data =>
        if o.has 'd' then
          let letters := (Raw.ofBytes data).filter fun c =>
            if o.has 'i' then (a.value? c).isSome || c = '=' else c ≠ '\n'
          let (read, isWhole) := a.decode (letters.length + 1) letters
          put read
          if isWhole then return 0
          complain name "invalid input".toList
          return 1
        let text := a.encode (data.length + 1) data
        putText (if width = 0 then text else wrapped width (text.length + 1) text)
        return 0

/-- `base64`: writes data with sixty-four letters. -/
def base64 : Utility := lettersOf .base64

/-- `base32`: writes data with thirty-two letters. -/
def base32 : Utility := lettersOf .base32

/-- What writes or checks the digests, by the names it is called by. -/
def digestTable : List (String × Utility) := digests.map fun (name, k) => (name ++ "sum", digestSum k)

end LuaTree.Shell.Utility
