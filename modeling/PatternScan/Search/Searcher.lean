import PatternScan.Search.Source
import PatternScan.Simulate.Matcher
import PatternScan.Text.Decimal
import PatternScan.Text.Utf8

/-!
# Searching lines

Every line of a source is matched against a table, and the lines that match are handed to a sink in
their order. A line that is not text is skipped. The search ends with the source, at a limit on the
matches, or where the source or the sink fails.
-/

namespace PatternScan

/-- A line that matches: its number, counted from one, the match, and the line without its end. -/
structure LineMatch where
  number : Nat
  found : Match
  line : List Char
  deriving DecidableEq, Repr

/-- What takes the results: it may fail on a match, for a reason, and hears of each skipped line. It
has a state, which is kept also where it fails. -/
structure Sink (σ : Type) where
  matched : σ → LineMatch → σ × Except (List Char) Unit
  skipped : σ → Nat → Utf8.DecodeError → σ

/-- The lines that were read, and how many of them matched or were skipped. -/
structure SearchStats where
  lines : Nat
  matched : Nat
  skipped : Nat
  deriving DecidableEq, Repr

namespace SearchStats

def zero : SearchStats :=
  ⟨0, 0, 0⟩

def anyMatched (stats : SearchStats) : Bool :=
  0 < stats.matched

/-- Whether the limit on the matches is reached. -/
def reached (stats : SearchStats) (limit? : Option Nat) : Bool :=
  limit?.any (· ≤ stats.matched)

end SearchStats

/-- Why a search ended before its time. -/
inductive SearchError
  | read (line : Nat) (reason : List Char)
  | sink (reason : List Char)
  deriving DecidableEq, Repr

def SearchError.message : SearchError → List Char
  | .read line reason =>
    "failed to read line ".toList ++ Decimal.digits line ++ ": ".toList ++ reason
  | .sink reason => "failed to write match: ".toList ++ reason

/-- The wording for a line that is not text. -/
def skippedLineMessage (e : Utf8.DecodeError) : List Char :=
  "line is not valid UTF-8: ".toList ++ e.message

/-- Searches sources, up to a limit on the matches in each. -/
structure Searcher where
  matcher : Matcher
  maxCount? : Option Nat

namespace Searcher

def new (table : Table) (maxCount? : Option Nat) : Searcher :=
  ⟨.new table, maxCount?⟩

variable {σ : Type}

/-- What comes of one line, without its end: the state of the sink, the matcher, the counts, and
the failure of the sink, if it fails. -/
def searchLine (m : Matcher) (sink : Sink σ) (state : σ) (stats : SearchStats)
    (bytes : List UInt8) : σ × Matcher × SearchStats × Except (List Char) Unit :=
  let stats := { stats with lines := stats.lines + 1 }
  match Utf8.decode bytes with
  | .error e =>
    (sink.skipped state stats.lines e, m, { stats with skipped := stats.skipped + 1 }, .ok ())
  | .ok line =>
    match m.find line with
    | (m, none) => (state, m, stats, .ok ())
    | (m, some found) =>
      let (state, result) := sink.matched state ⟨stats.lines, found, line⟩
      (state, m, { stats with matched := stats.matched + 1 }, result)

/-- Searches what is left of a source. -/
def searchFrom (s : Searcher) (sink : Sink σ) (state : σ) (stats : SearchStats) (source : Source) :
    σ × Searcher × Except SearchError SearchStats :=
  if stats.reached s.maxCount? then (state, s, .ok stats)
  else
    match _read : source.readLine with
    | .ended => (state, s, .ok stats)
    | .failed reason => (state, s, .error (.read (stats.lines + 1) reason))
    | .interrupted rest => s.searchFrom sink state stats rest
    | .line bytes rest =>
      match searchLine s.matcher sink state stats (trimLine bytes) with
      | (state, matcher, _, .error reason) => (state, { s with matcher }, .error (.sink reason))
      | (state, matcher, stats, .ok ()) => { s with matcher }.searchFrom sink state stats rest
termination_by source.remaining
decreasing_by
  · exact Source.remaining_lt_of_interrupted _read
  · exact Source.remaining_lt_of_line _read

def search (s : Searcher) (sink : Sink σ) (state : σ) (source : Source) :
    σ × Searcher × Except SearchError SearchStats :=
  s.searchFrom sink state .zero source

end Searcher

end PatternScan
