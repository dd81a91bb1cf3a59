import LuaTree.Shell.Calendar
import LuaTree.Shell.Utility.Files

/-!
# Dates in words

A date can be described in many ways: by its numbers, by names of months and days, by how long ago it was.
`Wish` collects what such a description says, piece by piece; `Wish.moment?` finds the moment that is meant,
given the present one.
-/

namespace LuaTree.Shell.Utility

open Run

/-- A piece of a description of a date. -/
inductive DatePiece where
  | number (sign? : Option Char) (digits : Raw) (fraction? : Option Raw)
  | word (t : Raw)
  | mark (c : Char)
  deriving DecidableEq, Inhabited

def datePieces : (fuel : Nat) → Raw → List DatePiece
  | 0, _ => []
  | fuel + 1, t =>
    let numeral (sign? : Option Char) (t : Raw) : List DatePiece :=
      let digits := t.takeWhile Char.isDigit
      let rest := t.drop digits.length
      match rest with
      | c :: d :: more =>
        if (c = '.' ∨ c = ',') ∧ d.isDigit then
          let places := (d :: more).takeWhile Char.isDigit
          .number sign? digits (some places) :: datePieces fuel ((d :: more).drop places.length)
        else .number sign? digits none :: datePieces fuel rest
      | _ => .number sign? digits none :: datePieces fuel rest
    match t with
    | [] => []
    | c :: rest =>
      if c.isWhitespace then datePieces fuel rest
      else if c.isDigit then numeral none t
      else if c.isAlpha then
        let text := t.takeWhile fun c => c.isAlpha || c = '.'
        .word (text.map Char.toLower) :: datePieces fuel (t.drop text.length)
      else if c = '-' ∨ c = '+' then
        let rest := rest.dropWhile Char.isWhitespace
        if rest.head?.any Char.isDigit then numeral (some c) rest else .mark c :: datePieces fuel rest
      else if c = '(' then datePieces fuel ((rest.dropWhile (· ≠ ')')).drop 1)
      else .mark c :: datePieces fuel rest

/-- How much later something is. -/
structure Shift where
  months : Int := 0
  days : Int := 0
  seconds : Int := 0
  deriving Inhabited

/-- What a description of a date says. -/
structure Wish where
  -- the year, the month and the day; the year may be left out
  date? : Option (Option Int × Int × Int) := none
  clock? : Option (Int × Int × Int × Nat) := none -- the time of day, with billionths of a second
  zone? : Option Int := none -- how many seconds the clocks of the zone are ahead
  weekday? : Option (Int × Int) := none -- a day of the week, and which one
  shift? : Option Shift := none
  seconds? : Option (Int × Nat) := none -- seconds since the beginning of 1970, with billionths
  deriving Inhabited

namespace Wish

/-- The number that digits stand for, with a sign. -/
def value (sign? : Option Char) (digits : Raw) : Int :=
  let n : Int := ((Raw.nat? digits).getD 0 : Nat)
  if sign? = some '-' then -n else n

def billionths (places : Raw) : Nat :=
  (Raw.nat? ((places ++ List.replicate 9 '0').take 9)).getD 0

/-- The number of a name that may be cut short to three letters. -/
def named? (names : List String) (t : Raw) : Option Int :=
  let t := if t.getLast? = some '.' then t.dropLast else t
  let found := names.findIdx fun n =>
    let n := n.toList.map Char.toLower
    t = n || t = n.take 3 || (t = "sept".toList && n = "september".toList)
      || (t = "tues".toList && n = "tuesday".toList) || (t = "wednes".toList && n = "wednesday".toList)
      || ((t = "thur".toList || t = "thurs".toList) && n = "thursday".toList)
  if found < names.length then some found else none

def month? (t : Raw) : Option Int := (named? Moment.monthNames t).map (· + 1)

/-- A length of time that a word names. -/
def unit? (t : Raw) : Option Shift :=
  let t := if t.length > 2 ∧ t.getLast? = some 's' then t.dropLast else t
  match String.ofList t with
  | "year" => some { months := 12 }
  | "month" => some { months := 1 }
  | "fortnight" => some { days := 14 }
  | "week" => some { days := 7 }
  | "day" => some { days := 1 }
  | "hour" => some { seconds := 3600 }
  | "minute" | "min" => some { seconds := 60 }
  | "second" | "sec" => some { seconds := 1 }
  | _ => none

/-- The number that a word stands for before a length of time or a day of the week. -/
def ordinal? (t : Raw) : Option Int :=
  let words := ["last", "this", "next", "third", "fourth", "fifth", "sixth", "seventh", "eighth", "ninth",
    "tenth", "eleventh", "twelfth"]
  match String.ofList t with
  | "last" => some (-1)
  | "this" => some 0
  | "next" | "first" => some 1
  | text => (words.findIdx? (· = text)).map fun k => k

def zoneOf? (t : Raw) : Option Int :=
  match String.ofList t with
  | "utc" | "gmt" | "z" | "ut" | "wet" => some 0
  | "cet" | "bst" => some 3600
  | "cest" | "eet" => some 7200
  | "est" => some (-18000)
  | "edt" => some (-14400)
  | "cst" => some (-21600)
  | "cdt" | "mst" => some (-18000 - if t = "mst".toList then 7200 else 0)
  | "mdt" => some (-21600)
  | "pst" => some (-28800)
  | "pdt" => some (-25200)
  | _ => none

/-- Adds a length of time. -/
def later (w : Wish) (n : Int) (u : Shift) : Wish :=
  let s := w.shift?.getD {}
  { w with shift? := some { months := s.months + n * u.months, days := s.days + n * u.days
                            seconds := s.seconds + n * u.seconds } }

/-- Notes a date, if there has been none. -/
def dated (w : Wish) (year? : Option Int) (month day : Int) : Option Wish :=
  if w.date?.isSome then none else some { w with date? := some (year?, month, day) }

/-- Notes a time of day, if there has been none. -/
def timed (w : Wish) (hour minute second : Int) (fraction : Nat := 0) : Option Wish :=
  if w.clock?.isSome ∨ hour < 0 ∨ 23 < hour ∨ 59 < minute ∨ 59 < second then none
  else some { w with clock? := some (hour, minute, second, fraction) }

/-- A year of two digits is one of the seventy before or the thirty after 2000. -/
def yearOf (digits : Raw) : Int :=
  let n := value none digits
  if digits.length = 2 then (if n < 69 then 2000 + n else 1900 + n) else n

def halfDay? (hour : Int) (t : Raw) : Option Int :=
  let late? := match String.ofList t with
    | "am" | "a.m." => some false
    | "pm" | "p.m." => some true
    | _ => none
  late?.bind fun late =>
    if hour < 1 ∨ 12 < hour then none else some (hour % 12 + if late then 12 else 0)

/-- What may follow a time of day: the half of the day and the zone. -/
def afterClock (w : Wish) (hour minute second : Int) (fraction : Nat) (rest : List DatePiece) :
    Option (Wish × List DatePiece) := do
  match rest with
  | .number (some sign) digits none :: rest =>
    let n := value (some sign) digits
    let offset := if digits.length ≤ 2 then n * 3600 else n.tdiv 100 * 3600 + n.tmod 100 * 60
    -- minutes may stand behind a colon
    match rest with
    | .mark ':' :: .number none more none :: rest =>
      let minutes := value (some sign) more
      return ({ ← w.timed hour minute second fraction with zone? := some (n * 3600 + minutes * 60) }, rest)
    | rest => return ({ ← w.timed hour minute second fraction with zone? := some offset }, rest)
  | .word t :: rest =>
    match halfDay? hour t with
    | some hour => return (← w.timed hour minute second fraction, rest)
    | none => return (← w.timed hour minute second fraction, .word t :: rest)
  | rest => return (← w.timed hour minute second fraction, rest)

/-- Reads a length of time behind its number, and whether it goes back. -/
def duration? (w : Wish) (n : Int) : List DatePiece → Option (Wish × List DatePiece)
  | .word t :: .word ['a', 'g', 'o'] :: rest => (unit? t).map fun u => (w.later (-n) u, rest)
  | .word t :: rest => (unit? t).map fun u => (w.later n u, rest)
  | _ => none

/-- Takes digits that stand alone for a date, a year or a time of day, by their number. -/
def alone (w : Wish) (digits : Raw) : Option Wish :=
  let n := value none digits
  match w.date?, w.clock? with
  | some (none, m, d), some _ => some { w with date? := some (some n, m, d) }
  | _, _ =>
    if digits.length > 4 ∧ w.date?.isNone then w.dated (some (n / 10000)) (n / 100 % 100) (n % 100)
    else if digits.length ≤ 2 then w.timed n 0 0
    else if digits.length ≤ 4 then w.timed (n / 100) (n % 100) 0
    else none

def read : (fuel : Nat) → Wish → List DatePiece → Option Wish
  | 0, _, _ => none
  | fuel + 1, w, pieces =>
    match pieces with
    | [] => some w
    | .mark ',' :: rest => read fuel w rest
    | .mark '@' :: .number sign? digits places? :: rest =>
      if rest ≠ [] ∨ w.date?.isSome ∨ w.clock?.isSome then none
      else some { w with seconds? := some (value sign? digits, billionths (places?.getD [])) }
    | .number none h none :: .mark ':' :: .number none m none :: .mark ':' :: .number none s places? :: rest =>
      match afterClock w (value none h) (value none m) (value none s) (billionths (places?.getD [])) rest with
      | some (w, rest) => read fuel w rest
      | none => none
    | .number none h none :: .mark ':' :: .number none m none :: rest =>
      match afterClock w (value none h) (value none m) 0 0 rest with
      | some (w, rest) => read fuel w rest
      | none => none
    | .number none y none :: .number (some '-') m none :: .number (some '-') d none :: rest =>
      match w.dated (some (yearOf y)) (value none m) (value none d), rest with
      | some w, .word ['t'] :: rest => read fuel w rest
      | some w, rest => read fuel w rest
      | none, _ => none
    | .number none m none :: .mark '/' :: .number none d none :: .mark '/' :: .number none y none :: rest =>
      let dated := if 4 ≤ m.length then w.dated (some (value none m)) (value none d) (value none y)
        else w.dated (some (yearOf y)) (value none m) (value none d)
      dated.bind fun w => read fuel w rest
    | .number none m none :: .mark '/' :: .number none d none :: rest =>
      (w.dated none (value none m) (value none d)).bind fun w => read fuel w rest
    | .number sign? n none :: .word t :: rest =>
      match month? t with
      | some m =>
        match rest with
        | .number none _ none :: (.mark ':' :: _) =>
          (w.dated none m (value none n)).bind fun w => read fuel w rest
        | .number none y none :: rest =>
          (w.dated (some (yearOf y)) m (value none n)).bind fun w => read fuel w rest
        | rest => (w.dated none m (value none n)).bind fun w => read fuel w rest
      | none =>
        match w.duration? (value sign? n) (.word t :: rest), halfDay? (value none n) t with
        | some (w, rest), _ => read fuel w rest
        | none, some hour => (w.timed hour 0 0).bind fun w => read fuel w rest
        | none, none => if sign?.isNone then (w.alone n).bind fun w => read fuel w (.word t :: rest) else none
    | .number none n none :: rest => (w.alone n).bind fun w => read fuel w rest
    | .mark '-' :: .number none n none :: rest =>
      match w.duration? (value (some '-') n) rest with
      | some (w, rest) => read fuel w rest
      | none => none
    | .word t :: rest =>
      match String.ofList t, ordinal? t, month? t, named? Moment.dayNames t, unit? t, zoneOf? t with
      | "now", _, _, _, _, _ | "today", _, _, _, _, _ => read fuel (w.later 0 {}) rest
      | "yesterday", _, _, _, _, _ => read fuel (w.later (-1) { days := 1 }) rest
      | "tomorrow", _, _, _, _, _ => read fuel (w.later 1 { days := 1 }) rest
      | _, some n, _, _, _, _ =>
        match rest with
        | .word u :: more =>
          match named? Moment.dayNames u with
          | some d => read fuel { w with weekday? := some (n, d) } more
          | none =>
            match w.duration? n rest with
            | some (w, rest) => read fuel w rest
            | none => none
        | _ => none
      | _, _, some m, _, _, _ =>
        match rest with
        | .number none d none :: .mark ',' :: .number none y none :: rest =>
          (w.dated (some (yearOf y)) m (value none d)).bind fun w => read fuel w rest
        | .number none d none :: rest => (w.dated none m (value none d)).bind fun w => read fuel w rest
        | _ => none
      | _, _, _, some d, _, _ =>
        if w.weekday?.isSome then none else read fuel { w with weekday? := some (0, d) } rest
      | _, _, _, _, some u, _ =>
        match rest with
        | .word ['a', 'g', 'o'] :: rest => read fuel (w.later (-1) u) rest
        | rest => read fuel (w.later 1 u) rest
      | _, _, _, _, _, some z => if w.zone?.isSome then none else read fuel { w with zone? := some z } rest
      | _, _, _, _, _, _ => none
    | _ => none
/-- The moment that is meant, in seconds and billionths. -/
def moment? (w : Wish) (now : Moment) : Option (Int × Nat) := do
  if let some answer := w.seconds? then return answer
  let (year, month, day) := match w.date? with
    | some (year?, month, day) => (year?.getD now.year, month, day)
    | none => (now.year, now.month, now.day)
  let isRelative := w.date?.isNone && w.weekday?.isNone && w.shift?.isSome
  let (hour, minute, second, fraction) := match w.clock? with
    | some clock => clock
    | none => if isRelative then (now.hour, now.minute, now.second, now.fraction) else (0, 0, 0, 0)
  let m : Moment := { year, month, day, hour, minute, second, fraction }
  let there := Moment.ofSeconds m.seconds
  if there.month ≠ month ∨ there.day ≠ day ∨ month < 1 ∨ 12 < month then none
  let days := match w.weekday?, w.date? with
    | some (n, d), none =>
      (d - m.weekday + 7) % 7 + 7 * (n - if 0 < n ∧ m.weekday ≠ d then 1 else 0)
    | _, _ => 0
  let s := w.shift?.getD {}
  let m := { m with month := m.month + s.months, day := m.day + days + s.days }
  return (m.seconds + s.seconds - w.zone?.getD 0, fraction)

end Wish

/-- The moment that a description means, in seconds and billionths. -/
def describedMoment? (now : Moment) (t : Raw) : Option (Int × Nat) :=
  match Wish.read (t.length + 2) {} (datePieces (t.length + 1) t) with
  | some w => w.moment? now
  | none => none

/-- The moment of digits as in `[[CC]YY]MMDDhhmm[.ss]`. -/
def stampedMoment? (now : Moment) (t : Raw) : Option Int := do
  let digits := t.takeWhile Char.isDigit
  let after := t.drop digits.length
  let second ← match after with
    | [] => some 0
    | ['.', a, b] => (Raw.nat? [a, b]).map fun n => (n : Int)
    | _ => none
  let n : Int := ((Raw.nat? digits).getD 0 : Nat)
  let year ← match digits.length with
    | 8 => some now.year
    | 10 => some (if n / 100000000 < 69 then 2000 + n / 100000000 else 1900 + n / 100000000)
    | 12 => some (n / 100000000)
    | _ => none
  let m : Moment :=
    { year, month := n / 1000000 % 100, day := n / 10000 % 100, hour := n / 100 % 100, minute := n % 100, second }
  if Moment.ofSeconds m.seconds = m then return m.seconds else none

end LuaTree.Shell.Utility
