/-!
# Drawing with characters

Strokes of text are drawn at rows and columns, later ones over earlier ones, and the rows are then
written from the top. A stroke may have a tint, which only a colored drawing shows.
-/

namespace PatternScan

/-- The tints of a report: of its title, of the error itself and of what accompanies it. -/
inductive Tint
  | bare
  | title
  | error
  | note
  deriving DecidableEq, Repr

namespace Tint

/-- The code that starts a tint. -/
def code : Tint → List Char
  | .bare => []
  | .title => "\x1b[1m".toList
  | .error => "\x1b[1m\x1b[91m".toList
  | .note => "\x1b[1m\x1b[94m".toList

def paint (colored : Bool) (tint : Tint) (text : List Char) : List Char :=
  if colored ∧ tint ≠ .bare then tint.code ++ text ++ "\x1b[0m".toList else text

end Tint

/-- A text drawn from a place to the right. -/
structure Stroke where
  row : Nat
  column : Nat
  text : List Char
  tint : Tint
  deriving DecidableEq, Repr

abbrev Cell := Char × Tint

namespace Cell

/-- A place where nothing is drawn. -/
def blank : Cell :=
  (' ', .bare)

/-- The cells of a row after a text is drawn over the first of them. -/
def draw (tint : Tint) : List Char → List Cell → List Cell
  | [], cells => cells
  | c :: text, [] => (c, tint) :: draw tint text []
  | c :: text, _ :: cells => (c, tint) :: draw tint text cells

/-- The cells of a row after a text is drawn over those from a column on. -/
def drawAt (tint : Tint) (text : List Char) : Nat → List Cell → List Cell
  | 0, cells => draw tint text cells
  | column + 1, [] => blank :: drawAt tint text column []
  | column + 1, cell :: cells => cell :: drawAt tint text column cells

end Cell

namespace Stroke

/-- The cells of the stroke's row after it is drawn; an empty text leaves no trace. -/
def drawOn (cells : List Cell) (s : Stroke) : List Cell :=
  if s.text.isEmpty then cells else Cell.drawAt s.tint s.text s.column cells

end Stroke

/-- A drawing: its strokes in the order in which they are drawn. -/
abbrev Canvas := List Stroke

namespace Canvas

/-- The number of rows. -/
def height (canvas : Canvas) : Nat :=
  canvas.foldl (fun n s => max n (s.row + 1)) 0

/-- The cells of a row, up to the last one that is drawn. -/
def row (canvas : Canvas) (row : Nat) : List Cell :=
  (canvas.filter (·.row = row)).foldl Stroke.drawOn []

/-- Runs of neighbours of the same tint. -/
def runs : List Cell → List (Tint × List Char)
  | [] => []
  | (c, tint) :: rest =>
    match runs rest with
    | (tint', text) :: more =>
      if tint = tint' then (tint, c :: text) :: more else (tint, [c]) :: (tint', text) :: more
    | [] => [(tint, [c])]

def rowText (canvas : Canvas) (colored : Bool) (row : Nat) : List Char :=
  (runs (canvas.row row)).flatMap fun (tint, text) => Tint.paint colored tint text

/-- All rows as lines of text. -/
def text (canvas : Canvas) (colored : Bool) : List Char :=
  (List.range canvas.height).flatMap fun row => canvas.rowText colored row ++ ['\n']

end Canvas

end PatternScan
