import PatternScan.Report.Layout

/-!
# Marks below a line

The parts of a line that a report speaks of are underlined on the row below it, each with its label
beside it. A label that would run into another mark hangs below its own instead. A part that goes
over several lines is marked where it begins and where it ends, and each of these marks is joined to
the lane in which the part runs.
-/

namespace PatternScan

/-- What a mark shows of a part: the whole of it, or its first, an inner or its last line when it
runs in a lane. -/
inductive MarkShape
  | whole
  | first (lane : Nat)
  | inner (lane : Nat)
  | last (lane : Nat)
  deriving DecidableEq, Repr

/-- An underlined part of a line, with its label. The main mark is the error's own. -/
structure Mark where
  shape : MarkShape
  start : Place
  stop : Place
  label : List Char
  isMain : Bool
  deriving DecidableEq, Repr

namespace Mark

def hasLabel (m : Mark) : Bool :=
  !m.label.isEmpty

def tint (m : Mark) : Tint :=
  if m.isMain then .error else .note

/-- The character that a mark is drawn with. -/
def line (m : Mark) : Char :=
  if m.isMain then '^' else '-'

def lane? (m : Mark) : Option Lane :=
  match m.shape with
  | .first lane | .last lane => some ⟨lane, m.tint⟩
  | .whole | .inner _ => none

def begun? (m : Mark) : Option Lane :=
  match m.shape with
  | .first lane => some ⟨lane, m.tint⟩
  | _ => none

/-- The columns that a mark points at; an inner one points at none. -/
def columns (m : Mark) : List Nat :=
  match m.shape with
  | .inner _ => []
  | .whole | .first _ | .last _ => [m.start.column, m.stop.column]

/-- Whether a line is drawn from a mark to a lane. -/
def isJoined (m : Mark) : Bool :=
  m.lane?.isSome

/-- Whether two marks share a column, the first one made longer by `room`. -/
def meets (m : Mark) (room : Nat) (other : Mark) : Bool :=
  (other.start.column ≤ m.start.column && m.start.column < other.stop.column) ||
    (m.start.column ≤ other.start.column && other.start.column < m.stop.column + room)

/-- Whether a mark further left takes the place of this one's label beside it. -/
def coversLabelOf (next m : Mark) : Bool :=
  m.hasLabel && next.meets 0 m &&
    !(next.start = m.start && next.stop = m.stop && !next.hasLabel)

/-- The columns that a label and the blanks around it take beside a mark. -/
def labelRoom (m : Mark) : Nat :=
  if m.hasLabel then Utf8.byteLength m.label + 2 else 0

/-- Whether what belongs to a mark further left would run into this mark, which is at the given
depth: its label, or a line to a lane where the other has one or a label. -/
def runsInto (next m : Mark) (depth : Nat) : Bool :=
  (next.hasLabel && next.meets next.labelRoom m &&
      (m.hasLabel || (next.stop.isUpTo m.stop && depth = 0))) ||
    (m.isJoined && (next.hasLabel || next.isJoined)) || (m.hasLabel && next.isJoined)

/-- How deep the labels and the lines to lanes of some marks hang, from the right; at depth zero
they stand beside their marks. -/
def depths (depth : Nat) : List Mark → List (Nat × Mark)
  | [] => []
  | m :: rest =>
    let depth := if depth = 0 ∧ rest.any (·.coversLabelOf m) then 1 else depth
    let after := if rest.any (·.runsInto m depth) then depth + 1 else depth
    (depth, m) :: depths after rest

/-- The columns between the ends of a mark, which may be the wrong way round. -/
def length (m : Mark) : Nat :=
  max m.start.column m.stop.column - min m.start.column m.stop.column

/-- Whether a mark is underlined before another, which may be drawn over it: longer ones come first,
and of equal ones the main mark comes last. -/
def underlinedBefore (m other : Mark) : Bool :=
  other.length < m.length || (m.length = other.length && (!m.isMain || other.isMain))

end Mark

structure MarkedLine where
  source : SourceLine
  marks : List Mark
  deriving DecidableEq, Repr

namespace MarkedLine

/-- Whether no row is needed below the line: nothing is marked on it but the beginnings of long
parts with only blanks before them. -/
def standsAlone (l : MarkedLine) : Bool :=
  l.marks.all fun m =>
    match m.shape with
    | .first _ => l.source.isBlankFor m.start.column
    | .inner _ => true
    | .whole | .last _ => false

/-- The marks from the right, with their depths. Where all of them begin long parts, the rightmost
one hangs deepest, so that the lines to the lanes cross less. -/
def placed (l : MarkedLine) : List (Nat × Mark) :=
  let fromLeft := Mark.depths 0 (l.marks.mergeSort fun m other => other.start.isUpTo m.start)
  if l.marks.all (·.begun?.isSome) then
    let deepest := (fromLeft.map (·.1)).foldl max 0
    fromLeft.map fun (depth, m) => (deepest - depth, m)
  else fromLeft

def rowsBelow (l : MarkedLine) : Nat :=
  if l.standsAlone then 0
  else
    let deepest := (l.placed.map (·.1)).foldl max 0
    if deepest = 0 then 1
    else if l.marks.all (·.begun?.isSome) then deepest + 1 else deepest + 2

/-- The lanes that begin or end on the line. -/
def joinedLanes (l : MarkedLine) : List Lane :=
  l.marks.filterMap (·.lane?)

def begunLanes (l : MarkedLine) : List Lane :=
  l.marks.filterMap (·.begun?)

section Below

variable (y : Layout) (row : Nat) (l : MarkedLine)

/-- The column of a place in the drawing. -/
def columnOf (column : Nat) : Nat :=
  y.sourceColumn + column - y.lostColumns l.source

/-- The level line from a mark to its lane. -/
def levelLine (depth : Nat) (m : Mark) : Canvas :=
  match m.lane? with
  | some lane =>
    let start := y.laneColumn lane.number + 1
    [⟨row + depth + 1, start,
      List.replicate (columnOf y l m.start.column - start) '_', m.tint⟩]
  | none => []

/-- The line from a mark down to what hangs below it. -/
def hanger (depth : Nat) (m : Mark) : Canvas :=
  if depth ≠ 0 ∧ (m.hasLabel ∨ m.isJoined) then
    Layout.upright (columnOf y l m.start.column) m.tint (row + 1) (depth + 1)
  else []

/-- The lane of a mark, from where it begins or down to where it ends. -/
def laneLine (depth : Nat) (m : Mark) : Canvas :=
  match m.shape with
  | .first lane =>
    ⟨row + depth + 1, y.laneColumn lane, [' '], m.tint⟩ ::
      y.laneBars (row + depth + 2) (l.rowsBelow - (depth + 1)) ⟨lane, m.tint⟩
  | .last lane => y.laneBars row (depth + 2) ⟨lane, m.tint⟩
  | .whole | .inner _ => []

def labelText (depth : Nat) (m : Mark) : Stroke :=
  let lost := y.lostColumns l.source
  if depth ≠ 0 then
    ⟨row + depth + 2, y.sourceColumn + (m.start.column - lost), m.label, m.tint⟩
  else
    let gap := if m.stop.column = 0 then 2 else 1
    ⟨row + 1, y.sourceColumn + (m.stop.column + gap - lost), m.label, m.tint⟩

/-- The underlining of a mark. One without columns is still seen where something hangs from it or
leads to a lane. -/
def underline (depth : Nat) (m : Mark) : Canvas :=
  let isSeen := m.isJoined || (depth ≠ 0 && m.hasLabel)
  let count := max (m.stop.column - m.start.column) (if isSeen then 1 else 0)
  (List.range count).map fun i => ⟨row + 1, columnOf y l (m.start.column + i), [m.line], m.tint⟩

/-- The rows below the line. -/
def drawBelow : Canvas :=
  y.bars (row + 1) l.rowsBelow ++
    l.placed.flatMap (fun (depth, m) => levelLine y row l depth m) ++
    l.placed.flatMap (fun (depth, m) => hanger y row l depth m ++ laneLine y row l depth m) ++
    l.placed.map (fun (depth, m) => labelText y row l depth m) ++
    (l.placed.mergeSort fun a b => a.2.underlinedBefore b.2).flatMap
      (fun (depth, m) => underline y row l depth m)

/-- The line and what is below it. -/
def draw : Canvas :=
  y.drawLine row l.source ++
    if l.standsAlone then
      l.begunLanes.map fun lane => ⟨row, y.laneColumn lane.number, ['/'], lane.tint⟩
    else drawBelow y row l

end Below

end MarkedLine

end PatternScan
