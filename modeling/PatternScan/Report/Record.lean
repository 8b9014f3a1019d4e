import Mathlib.Order.Bounds.Basic
import PatternScan.Report.Printer
import PatternScan.Search.Event

/-!
# What is printed of a search

The lines that the events of a search are printed as: those of the matches on the output, and those
of the skipped lines on the diagnostics. A device with a limit takes the first of them, as many as
fit. Where the output is full after some matches, the diagnostics have heard of what came before the
next one.
-/

namespace PatternScan

namespace SearchEvent

/-- What an event adds to the output. -/
def record (style : PrintStyle) : SearchEvent → List Char
  | .matched m => m.record style
  | .skipped _ _ => []

/-- The pieces in which it is written. -/
def pieces (style : PrintStyle) : SearchEvent → List (List Char)
  | .matched m => m.pieces style
  | .skipped _ _ => []

/-- What an event adds to the diagnostics. -/
def warning : SearchEvent → List Char
  | .matched _ => []
  | .skipped line e => skippedWarning line e

def match? : SearchEvent → Option LineMatch
  | .matched m => some m
  | .skipped _ _ => none

end SearchEvent

def matchesOf (events : List SearchEvent) : List LineMatch :=
  events.filterMap SearchEvent.match?

/-- The output of a search with these events. -/
def records (style : PrintStyle) (events : List SearchEvent) : List Char :=
  events.flatMap (·.record style)

/-- The diagnostics of a search with these events. -/
def warnings (events : List SearchEvent) : List Char :=
  events.flatMap (·.warning)

/-- A text that ends in its only line feed. -/
def IsLine (text : List Char) : Prop :=
  ∃ before, text = before ++ ['\n'] ∧ '\n' ∉ before

/-- So many of the first lines fit into the limit, if there is one, and no more. -/
def Fits (limit? : Option Nat) (lines : List (List Char)) (count : Nat) : Prop :=
  IsGreatest {k | k ≤ lines.length ∧
    ∀ limit ∈ limit?, Utf8.byteLength (lines.take k).flatten ≤ limit} count

/-- The events before the match after so many others, all events if there is none. -/
def beforeMatch : Nat → List SearchEvent → List SearchEvent
  | _, [] => []
  | count, .skipped line e :: events => .skipped line e :: beforeMatch count events
  | 0, .matched _ :: _ => []
  | count + 1, .matched m :: events => .matched m :: beforeMatch count events

/-- The lines that matches are printed as. -/
def recordLines (style : PrintStyle) (events : List SearchEvent) : List (List Char) :=
  (matchesOf events).map (·.record style)

/-- The warning for the line, if it is skipped. -/
def SearchEvent.warning? : SearchEvent → Option (List Char)
  | .matched _ => none
  | .skipped line e => some (skippedWarning line e)

def warningLines (events : List SearchEvent) : List (List Char) :=
  events.filterMap SearchEvent.warning?

end PatternScan
