import LuaTree.Text

/-!
# What a screen shows

Texts can hold commands for a screen: control characters and the sequences that an escape character
begins. `Screen.shown` is what is left of a text when the commands are taken out. Spaces and ends of lines
stay.

A reader of such sequences is always in one of a few `Mode`s, and `Mode.next` says what a byte does in
each. While characters are being shown, the mode that was interrupted by them is kept, so a sequence that a
line end has cut in two goes on behind the text that follows, as soon as something ends that text.
-/

namespace LuaTree.Screen

/-- What a reader is in the middle of. -/
inductive Mode where
  | ground -- nothing: characters are shown
  | character
  | escape -- a sequence that has just begun
  | escapeIntermediate
  | control -- a control sequence that has just begun
  | controlParameters
  | controlIntermediate
  | controlIgnored -- the rest of a control sequence that makes no sense
  | device -- a device string that has just begun
  | deviceParameters
  | deviceIntermediate
  | deviceIgnored -- the rest of a device string that makes no sense
  | deviceData
  | system -- a command to the system around the screen
  | unread -- a string that nobody reads
  deriving DecidableEq, Inhabited

namespace Mode

/-- The mode after a byte, when it changes. -/
def next (m : Mode) (b : UInt8) : Option Mode :=
  let among (lo hi : UInt8) : Bool := lo ≤ b && b ≤ hi
  if b = 0x18 ∨ b = 0x1A then some ground
  else if b = 0x1B then some escape
  else
    match m with
    | ground => if among 0xC2 0xF4 then some character else none
    | escape =>
      if among 0x20 0x2F then some escapeIntermediate
      else if b = 0x50 then some device
      else if b = 0x5B then some control
      else if b = 0x5D then some system
      else if b = 0x58 ∨ b = 0x5E ∨ b = 0x5F then some unread
      else if among 0x30 0x7E then some ground
      else none
    | escapeIntermediate => if among 0x30 0x7E then some ground else none
    | control =>
      if among 0x20 0x2F then some controlIntermediate
      else if among 0x30 0x3F then some controlParameters
      else if among 0x40 0x7E then some ground
      else none
    | controlParameters =>
      if among 0x20 0x2F then some controlIntermediate
      else if among 0x3C 0x3F then some controlIgnored
      else if among 0x40 0x7E then some ground
      else none
    | controlIntermediate =>
      if among 0x30 0x3F then some controlIgnored else if among 0x40 0x7E then some ground else none
    | controlIgnored => if among 0x40 0x7E then some ground else none
    | device =>
      if among 0x20 0x2F then some deviceIntermediate
      else if among 0x30 0x3F then some deviceParameters
      else if among 0x40 0x7E then some deviceData
      else none
    | deviceParameters =>
      if among 0x20 0x2F then some deviceIntermediate
      else if among 0x3C 0x3F then some deviceIgnored
      else if among 0x40 0x7E then some deviceData
      else none
    | deviceIntermediate =>
      if among 0x30 0x3F then some deviceIgnored
      else if among 0x40 0x7E then some deviceData
      else none
    | deviceIgnored | deviceData | unread => if b = 0x9C then some ground else none
    | system => if b = 0x07 then some ground else none
    | character => none

/-- Whether control characters have their effect in a mode; elsewhere they are part of a string. -/
def obeys : Mode → Bool
  | ground | escape | escapeIntermediate | control | controlParameters | controlIntermediate
  | controlIgnored => true
  | _ => false

def shows (m : Mode) (b : UInt8) : Bool :=
  let isBlank := b = 0x20 || b = 0x09 || b = 0x0A || b = 0x0C || b = 0x0D
  (m = ground && ((0x20 ≤ b && b < 0x7F) || (0xC2 ≤ b && b ≤ 0xF4)))
    || (m.obeys && b < 0x20 && isBlank)

end Mode

/-- A reader between two bytes. -/
structure Reader where
  mode : Mode := .ground
  pending : Nat := 0 -- how many bytes of a character are still to come
  showing : Bool := false
  deriving Inhabited

namespace Reader

/-- Reads a byte; tells whether it is shown. -/
def step (r : Reader) (b : UInt8) : Reader × Bool :=
  if 0 < r.pending then
    ({ r with pending := r.pending - 1, mode := if r.pending = 1 then .ground else r.mode }, true)
  else
    -- what is shown goes on whatever the mode was before it began
    let seen := if r.showing then Mode.ground else r.mode
    let showing := seen.shows b
    let mode := (seen.next b).getD r.mode
    let mode := if r.showing && !showing then (mode.next b).getD mode else mode
    let pending := if mode = .character then ((Utf8.announced b).map (·.1)).getD 0 else 0
    ({ mode, pending, showing }, showing)

end Reader

def scan (r : Reader) : Bytes → Bytes
  | [] => []
  | b :: rest =>
    let (r, shown) := r.step b
    if shown then b :: scan r rest else scan r rest

/-- What is left of a text when the commands to a screen are taken out. -/
def shown (t : String) : String :=
  String.ofList (Utf8.decodeLossy (scan {} (Utf8.encode t.toList)))

/-- A text between the commands that set it off. -/
def highlighted (t : List Char) : String := "\x1b[33m" ++ String.ofList t ++ "\x1b[0m"

end LuaTree.Screen
