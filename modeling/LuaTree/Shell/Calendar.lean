import LuaTree.Shell.Raw

/-!
# Dates

Seconds since the beginning of 1970 as dates and times of day, and how these are written. Years are those of the
calendar with a leap day in every fourth year, but not in every hundredth unless it is a four-hundredth one.

`Moment.ofSeconds` and `Moment.seconds` count days in eras of four hundred years that begin in March, so that the
leap day is the last day of a year.
-/

namespace LuaTree.Shell

/-- A date and a time of day. -/
structure Moment where
  year : Int
  month : Int -- the month, beginning with one
  day : Int -- the day of the month, beginning with one
  hour : Int := 0
  minute : Int := 0
  second : Int := 0
  fraction : Nat := 0 -- the billionths of a second
  deriving DecidableEq, Inhabited

namespace Moment

def daySeconds : Int := 86400

/-- How many days there are from the beginning of 1970 to a date; months and days may be out of their range. -/
def days (m : Moment) : Int :=
  let months := m.month - 1
  let year := m.year + months / 12
  let month := months % 12 + 1
  let year := if month ≤ 2 then year - 1 else year
  let ofEra := year % 400
  let ofYear := (153 * ((month + 9) % 12) + 2) / 5 + m.day - 1
  year / 400 * 146097 + ofEra * 365 + ofEra / 4 - ofEra / 100 + ofYear - 719468

def seconds (m : Moment) : Int := m.days * daySeconds + m.hour * 3600 + m.minute * 60 + m.second

/-- The moment that comes a number of seconds after the beginning of 1970. -/
def ofSeconds (t : Int) (fraction : Nat := 0) : Moment :=
  let z := t / daySeconds + 719468
  let ofEra := z % 146097
  let year := (ofEra - ofEra / 1460 + ofEra / 36524 - ofEra / 146096) / 365
  let ofYear := ofEra - (365 * year + year / 4 - year / 100)
  let shifted := (5 * ofYear + 2) / 153
  let month := if shifted < 10 then shifted + 3 else shifted - 9
  let year := year + z / 146097 * 400
  let clock := t % daySeconds
  { year := if month ≤ 2 then year + 1 else year
    month, day := ofYear - (153 * shifted + 2) / 5 + 1
    hour := clock / 3600, minute := clock / 60 % 60, second := clock % 60, fraction }

/-- The day of the week, beginning with Sunday as zero. -/
def weekday (m : Moment) : Int := (m.days + 4) % 7

/-- The day of the year, beginning with zero. -/
def yearDay (m : Moment) : Int := m.days - ({ year := m.year, month := 1, day := 1 } : Moment).days

/-- The year to which the week of a day belongs, and the number of the week in it, where weeks begin on Monday
and belong to the year that most of their days belong to. -/
def week (m : Moment) : Int × Int :=
  let thursday := ofSeconds ((m.days + 3 - (m.weekday + 6) % 7) * daySeconds)
  (thursday.year, thursday.yearDay / 7 + 1)

def dayNames : List String :=
  ["Sunday", "Monday", "Tuesday", "Wednesday", "Thursday", "Friday", "Saturday"]

def monthNames : List String :=
  ["January", "February", "March", "April", "May", "June", "July", "August", "September", "October",
   "November", "December"]

def nameAt (names : List String) (n : Int) : Raw := ((names[n.toNat]?).getD "").toList

/-! ## Written moments -/

/-- How a part of a moment is to be written. -/
structure Writing where
  fill? : Option Char := none -- with what it is filled up, if that is not left to the part
  bare : Bool := false -- whether it is not filled up at all
  large : Bool := false
  swapped : Bool := false -- whether letters change between small and large
  width? : Option Nat := none -- how wide it is at least

def Writing.number (w : Writing) (digits : Nat) (usual : Char) (n : Int) : Raw :=
  let t := Raw.ofNat n.natAbs
  let sign : Raw := if n < 0 then ['-'] else []
  let fill := w.fill?.getD usual
  let width := w.width?.getD digits - sign.length
  let before := if w.bare then [] else List.replicate (width - t.length) fill
  if fill = ' ' then before ++ sign ++ t else sign ++ before ++ t

def Writing.text (w : Writing) (t : Raw) : Raw :=
  let t := if w.large then t.map Char.toUpper
    else if w.swapped then t.map Char.toUpper else t
  let before := if w.bare then [] else List.replicate (w.width?.getD 0 - t.length) (w.fill?.getD ' ')
  before ++ t

def clockHour (m : Moment) : Int := if m.hour % 12 = 0 then 12 else m.hour % 12

/-- What a letter stands for in terms of other letters. -/
def composed? : Char → Option String
  | 'c' => some "%a %b %e %H:%M:%S %Y"
  | 'D' | 'x' => some "%m/%d/%y"
  | 'F' => some "%Y-%m-%d"
  | 'r' => some "%I:%M:%S %p"
  | 'R' => some "%H:%M"
  | 'T' | 'X' => some "%H:%M:%S"
  | _ => none

/-- What a letter stands for; all moments are those of the same zone, in which clocks go by universal time. -/
def part? (m : Moment) (w : Writing) (c : Char) : Option Raw :=
  let two := w.number 2 '0'
  match c with
  | 'a' => some (w.text ((nameAt dayNames m.weekday).take 3))
  | 'A' => some (w.text (nameAt dayNames m.weekday))
  | 'b' | 'h' => some (w.text ((nameAt monthNames (m.month - 1)).take 3))
  | 'B' => some (w.text (nameAt monthNames (m.month - 1)))
  | 'C' => some (two (m.year / 100))
  | 'd' => some (two m.day)
  | 'e' => some (w.number 2 ' ' m.day)
  | 'g' => some (two (m.week.1 % 100))
  | 'G' => some (w.number 4 '0' m.week.1)
  | 'H' => some (two m.hour)
  | 'I' => some (two m.clockHour)
  | 'j' => some (w.number 3 '0' (m.yearDay + 1))
  | 'k' => some (w.number 2 ' ' m.hour)
  | 'l' => some (w.number 2 ' ' m.clockHour)
  | 'm' => some (two m.month)
  | 'M' => some (two m.minute)
  | 'n' => some (w.text ['\n'])
  | 'N' =>
    let t := Raw.ofNat m.fraction
    let t := List.replicate (9 - t.length) '0' ++ t
    some (match w.width? with
      | some n => t.take n ++ List.replicate (n - 9) '0'
      | none => t)
  | 'p' =>
    let t := if m.hour < 12 then "AM".toList else "PM".toList
    some (if w.swapped then { w with swapped := false }.text (t.map Char.toLower) else w.text t)
  | 'P' => some (w.text (if m.hour < 12 then "am".toList else "pm".toList))
  | 'q' => some (w.number 1 '0' ((m.month - 1) / 3 + 1))
  | 's' => some (w.number 1 '0' m.seconds)
  | 'S' => some (two m.second)
  | 't' => some (w.text ['\t'])
  | 'u' => some (w.number 1 '0' ((m.weekday + 6) % 7 + 1))
  | 'U' => some (two ((m.yearDay + 7 - m.weekday) / 7))
  | 'V' => some (two m.week.2)
  | 'w' => some (w.number 1 '0' m.weekday)
  | 'W' => some (two ((m.yearDay + 7 - (m.weekday + 6) % 7) / 7))
  | 'y' => some (two (m.year % 100))
  | 'Y' => some (w.number 4 '0' m.year)
  | 'Z' =>
    some (if w.swapped then { w with swapped := false }.text "utc".toList else w.text "UTC".toList)
  | 'z' => some (w.text "+0000".toList)
  | '%' => some (w.text ['%'])
  | _ => none

def writing : (fuel : Nat) → Raw → Writing → Writing × Raw
  | 0, t, w => (w, t)
  | fuel + 1, t, w =>
    match t with
    | '-' :: rest => writing fuel rest { w with bare := true }
    | '_' :: rest => writing fuel rest { w with fill? := some ' ' }
    | '0' :: rest => writing fuel rest { w with fill? := some '0' }
    | '+' :: rest => writing fuel rest { w with fill? := some '0' }
    | '^' :: rest => writing fuel rest { w with large := true }
    | '#' :: rest => writing fuel rest { w with swapped := true }
    | _ =>
      let digits := t.takeWhile Char.isDigit
      ({ w with width? := Raw.nat? digits }, t.drop digits.length)

/-- Writes a moment by a pattern, in which a letter behind a percent sign stands for a part of it. -/
def written (m : Moment) : (fuel : Nat) → Raw → Raw
  | 0, _ => []
  | fuel + 1, t =>
    match t with
    | [] => []
    | '%' :: rest =>
      let (w, letter) := writing (rest.length + 1) rest {}
      -- another way to write digits would stand before the letter
      let letter := match letter with
        | 'E' :: c :: _ | 'O' :: c :: _ => if c.isAlpha then letter.drop 1 else letter
        | _ => letter
      match letter with
      | [] => '%' :: written m fuel rest
      | ':' :: more =>
        let colons := more.takeWhile (· = ':')
        match more.drop colons.length with
        | 'z' :: after =>
          let zone := match colons.length with
            | 0 => some "+00:00"
            | 1 => some "+00:00:00"
            | 2 => some "+00"
            | _ => none
          match zone with
          | some z => w.text z.toList ++ written m fuel after
          | none => '%' :: written m fuel rest
        | _ => '%' :: written m fuel rest
      | c :: after =>
        match composed? c with
        | some pattern => w.text (written m fuel pattern.toList) ++ written m fuel after
        | none =>
          match m.part? w c with
          | some text => text ++ written m fuel after
          | none => '%' :: written m fuel rest
    | c :: rest => c :: written m fuel rest

def format (m : Moment) (pattern : Raw) : Raw := m.written (pattern.length + 20) pattern

/-! ## Moments come back from their seconds -/

end Moment

end LuaTree.Shell
