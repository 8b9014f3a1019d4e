import PatternScan.Search.Searcher

/-!
# Search results as events

A sink that keeps what it is told, in order, and can be made to fail at a match of its choice.
-/

namespace PatternScan

/-- What a sink is told. -/
inductive SearchEvent
  | matched (m : LineMatch)
  | skipped (line : Nat) (e : Utf8.DecodeError)
  deriving DecidableEq, Repr

/-- The events so far, latest first, and the number of matches among them. -/
structure EventLog where
  events : List SearchEvent
  matched : Nat

namespace EventLog

def empty : EventLog :=
  ⟨[], 0⟩

/-- Keeps every match, but fails for the given reason on the one with the given number, counted
from one. Skipped lines are kept on demand. -/
def sink (failAt? : Option Nat) (reason : List Char) (keepSkipped : Bool) : Sink EventLog where
  matched log m :=
    if failAt? = some (log.matched + 1) then (log, .error reason)
    else (⟨.matched m :: log.events, log.matched + 1⟩, .ok ())
  skipped log line e :=
    if keepSkipped then { log with events := .skipped line e :: log.events } else log

end EventLog

namespace Searcher

/-- Searches a source and lists the events in order. -/
def searchEvents (s : Searcher) (failAt? : Option Nat) (reason : List Char) (keepSkipped : Bool)
    (source : Source) : List SearchEvent × Searcher × Except SearchError SearchStats :=
  let (log, s, result) := s.search (EventLog.sink failAt? reason keepSkipped) .empty source
  (log.events.reverse, s, result)

end Searcher

end PatternScan
