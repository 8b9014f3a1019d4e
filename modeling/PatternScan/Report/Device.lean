import PatternScan.Text.Utf8

/-!
# Output devices

A device takes pieces of text, whole or not at all. It may have room for a number of bytes only:
the piece that would pass it is refused, and so is every later one. One that takes the part of that
piece that fits has the same whole lines, as only the last piece of a record holds its line feed.
The buffer of a device may be impossible to empty at the end.
-/

namespace PatternScan

/-- How much more text a device takes: any, so many bytes, or none since it refused a piece. -/
inductive Room
  | unlimited
  | bytes (left : Nat)
  | spent
  deriving DecidableEq, Repr

structure Device where
  taken : List (List Char)
  room : Room
  flushFails : Bool

namespace Device

/-- A device that has taken nothing, with a limit in bytes or none. -/
def new (limit? : Option Nat) (flushFails : Bool) : Device :=
  ⟨[], limit?.elim .unlimited .bytes, flushFails⟩

/-- Why a piece is refused. -/
def fullReason : List Char :=
  "device is full".toList

/-- Why the buffer cannot be emptied. -/
def flushReason : List Char :=
  "flush refused".toList

/-- Takes a piece if there is room for it, and else no piece ever after. -/
def write (d : Device) (piece : List Char) : Device × Except (List Char) Unit :=
  match d.room with
  | .unlimited => ({ d with taken := piece :: d.taken }, .ok ())
  | .bytes left =>
    if Utf8.byteLength piece ≤ left then
      ({ d with taken := piece :: d.taken, room := .bytes (left - Utf8.byteLength piece) }, .ok ())
    else ({ d with room := .spent }, .error fullReason)
  | .spent => (d, .error fullReason)

/-- Writes pieces one after the other, up to the first that is refused. -/
def writeAll (d : Device) : List (List Char) → Device × Except (List Char) Unit
  | [] => (d, .ok ())
  | piece :: rest =>
    match d.write piece with
    | (d, .ok ()) => d.writeAll rest
    | (d, .error reason) => (d, .error reason)

/-- Empties the buffer. -/
def flush (d : Device) : Except (List Char) Unit :=
  if d.flushFails then .error flushReason else .ok ()

/-- All the text taken. -/
def text (d : Device) : List Char :=
  d.taken.reverse.flatten

/-- The text taken, without a last line that lacks its end. -/
def wholeLines (d : Device) : List Char :=
  (d.text.reverse.dropWhile (· != '\n')).reverse

end Device

end PatternScan
