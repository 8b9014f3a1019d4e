import PatternScan.Report.Canvas
import PatternScan.Report.SourceLine
import PatternScan.Text.Decimal

/-!
# The columns of a report

From the left: the numbers of the lines, a bar, the lanes in which long parts run down beside the
source, and the source. Where all lines begin with many blanks the source is cut on its left.
-/

namespace PatternScan

/-- The width of the line numbers, how many lanes there are, and how many columns are cut from
every line. -/
structure Layout where
  numberWidth : Nat
  laneCount : Nat
  cutWidth : Nat
  deriving DecidableEq, Repr

/-- A lane, counted from one, and the tint of the part that runs in it. -/
structure Lane where
  number : Nat
  tint : Tint
  deriving DecidableEq, Repr

namespace Layout

def barColumn (y : Layout) : Nat :=
  y.numberWidth + 1

def laneColumn (y : Layout) (lane : Nat) : Nat :=
  y.numberWidth + 2 + lane

def sourceColumn (y : Layout) : Nat :=
  if y.laneCount = 0 then y.numberWidth + 3 else y.numberWidth + 4 + y.laneCount

/-- Upright lines in one column of some rows. -/
def upright (column : Nat) (tint : Tint) (row count : Nat) : Canvas :=
  (List.range count).map fun i => ⟨row + i, column, ['|'], tint⟩

/-- The bar beside some rows. -/
def bars (y : Layout) (row count : Nat) : Canvas :=
  upright y.barColumn .note row count

/-- A lane beside some rows. -/
def laneBars (y : Layout) (row count : Nat) (lane : Lane) : Canvas :=
  upright (y.laneColumn lane.number) lane.tint row count

/-- What of a line is left when it is cut. -/
def uncut (y : Layout) (l : SourceLine) : List Char :=
  Width.dropColumns (min y.cutWidth (Width.ofText l.shown)) l.shown

/-- The columns that a line loses when it is cut: no less than asked for, if it has them, as
characters stay whole. -/
def lostColumns (y : Layout) (l : SourceLine) : Nat :=
  Width.ofText l.shown - Width.ofText (y.uncut l)

/-- The text of a line, with dots in place of its first columns if it is cut. -/
def drawText (y : Layout) (row : Nat) (l : SourceLine) : Canvas :=
  if y.cutWidth = 0 then [⟨row, y.sourceColumn, l.shown, .bare⟩]
  else
    let rest := Width.dropColumns 3 (y.uncut l)
    let taken := Width.ofText (y.uncut l) - Width.ofText rest
    [⟨row, y.sourceColumn, "...".toList, .note⟩, ⟨row, y.sourceColumn + taken, rest, .bare⟩]

/-- A line of the source with its number. -/
def drawLine (y : Layout) (row : Nat) (l : SourceLine) : Canvas :=
  y.drawText row l ++ ⟨row, 0, Decimal.padLeft y.numberWidth l.number, .note⟩ :: y.bars row 1

end Layout

end PatternScan
