import PatternScan.Pattern.Error
import PatternScan.Report.Mark

/-!
# Marked parts of a source

A part of a source that a report speaks of is one mark if it is on one line. One that goes over
several lines runs down a lane beside them, from a mark where it begins to a mark where it ends, and
of the lines between only some are shown.
-/

namespace PatternScan

/-- A part of a source, with the lines and the places that it begins and ends at. -/
structure Part where
  span : Span
  firstLine : Nat
  start : Place
  lastLine : Nat
  stop : Place
  label : List Char
  isMain : Bool
  deriving DecidableEq, Repr

namespace Part

/-- The part that a span covers. A long one that takes in something of its last line's end has a
column for it. -/
def ofSpan? (lines : List SourceLine) (span : Span) (label : List Char) (isMain : Bool) :
    Option Part := do
  let first ← SourceLine.at? lines span.start
  let last ← SourceLine.at? lines span.stop
  let start := first.place span.start
  let start :=
    if first.endsBefore span.start then { start with count := start.count + 1 } else start
  let stop := last.place span.stop
  let stop :=
    if first.number ≠ last.number ∧ last.endsBefore span.stop then stop.succ else stop
  return ⟨span, first.number, start, last.number, stop, label, isMain⟩

/-- Whether a part goes over several lines. -/
def isLong (p : Part) : Bool :=
  p.firstLine ≠ p.lastLine

/-- The mark of a part of one line; one without columns is marked by a column. -/
def mark (p : Part) : Mark :=
  let stop :=
    if p.start.column = p.stop.column then { p.stop with column := p.stop.column + 1 } else p.stop
  ⟨.whole, p.start, stop, p.label, p.isMain⟩

/-- The mark at the end of a long part. -/
def endMark (p : Part) (shape : MarkShape) : Mark :=
  ⟨shape, p.stop.pred, p.stop, p.label, p.isMain⟩

/-- Whether a long part does not begin after another, a longer one first. -/
def comesBefore (p q : Part) : Bool :=
  p.firstLine < q.firstLine || (p.firstLine = q.firstLine && q.lastLine ≤ p.lastLine)

/-- Whether two long parts share a line. -/
def sharesLine (p q : Part) : Bool :=
  (p.firstLine ≤ q.firstLine && q.firstLine ≤ p.lastLine) ||
    (q.firstLine ≤ p.firstLine && p.firstLine ≤ q.lastLine)

/-- The lanes of long parts in their order. Two that share a line run side by side, the first one
outside; of two that are the same only the second runs in a lane. -/
def withLanes : List Part → List (Option Nat × Part)
  | [p, q] =>
    if p.span = q.span then [(none, p), (some 1, { q with isMain := p.isMain || q.isMain })]
    else if p.sharesLine q then [(some 1, p), (some 2, q)]
    else [(some 1, p), (some 1, q)]
  | parts => parts.map fun p => (some 1, p)

/-- The number of the last line that the beginning of a long part is shown with: of its first four,
the last one that says something. -/
def shownUpTo (lines : List SourceLine) (p : Part) : Nat :=
  let early := lines.filter fun l =>
    p.firstLine ≤ l.number && l.number < min (p.firstLine + 4) p.lastLine && !l.isSlight
  early.getLast?.elim p.firstLine (·.number)

/-- The numbers of the lines that a long part is shown to run beside, its first and its last line
left out: those that go with its beginning, and the one before its end. -/
def innerLines (lines : List SourceLine) (p : Part) : List Nat :=
  let between := lines.filter fun l => p.firstLine < l.number && l.number < p.lastLine
  let shown := between.filter fun l =>
    l.number ≤ p.shownUpTo lines ||
      (p.firstLine + 4 < l.number && l.number + 1 = p.lastLine && !l.isSlight)
  shown.map (·.number)

/-- The marks of a long part, each with the number of its line. -/
def longMarks (lines : List SourceLine) : Option Nat × Part → List (Nat × Mark)
  | (none, p) => [(p.lastLine, p.endMark .whole)]
  | (some lane, p) =>
    let origin : Place := ⟨0, 0⟩
    (p.firstLine, ⟨.first lane, p.start, p.start.succ, [], p.isMain⟩) ::
      (p.innerLines lines).map (fun n => (n, ⟨.inner lane, origin, origin, [], p.isMain⟩)) ++
      [(p.lastLine, p.endMark (.last lane))]

end Part

end PatternScan
