import PatternScan.Pattern.Error
import PatternScan.Report.Part

/-!
# Errors in their source

An error is reported with the lines of the source it is in: the offending part is marked with the
message, and a related part with its note. Lines without marks are left out.
-/

namespace PatternScan

namespace Layout

/-- What is shown between two lines: the line between them, or dots for several. -/
def drawGap (y : Layout) (lines : List SourceLine) (row : Nat) (l next : SourceLine) : Canvas :=
  if next.number = l.number + 2 then
    (lines.find? (·.number = l.number + 1)).elim [] (y.drawLine row)
  else if l.number + 2 < next.number then [⟨row, 0, "...".toList, .note⟩]
  else []

/-- Draws marked lines from a row on, with the lanes that run beside them. -/
def drawMarked (y : Layout) (lines : List SourceLine) (row : Nat) (running : List Lane) :
    List MarkedLine → Canvas
  | [] => []
  | l :: rest =>
    let joined := l.joinedLanes
    let beside := running.filter fun lane => !joined.any (·.number = lane.number)
    let begun := joined.filter fun lane => !running.any (·.number = lane.number)
    let height := l.rowsBelow + 1
    let gap := rest.head?.elim [] fun next => y.drawGap lines (row + height) l.source next.source
    let gapHeight := if gap.isEmpty then 0 else 1
    l.draw y row ++ beside.flatMap (y.laneBars row height) ++ gap ++
      (beside ++ l.begunLanes).flatMap (y.laneBars (row + height) gapHeight) ++
      y.drawMarked lines (row + height + gapHeight) (beside ++ begun) rest

/-- The columns that are cut from every line: all but 22 of those before the first column that is
not blank on some marked line or that a mark points at, if there are more than 26 of them. -/
def cutOf (marked : List MarkedLine) : Nat :=
  let columns := marked.flatMap fun l => l.marks.flatMap (·.columns)
  let common := ((marked.filterMap (·.source.indent?)).min?).elim 0 fun n => columns.foldl min n
  if 26 < common then common - 22 else 0

end Layout

namespace PatternError

/-- A span that is not empty: an empty one is widened to the character after it, or at the end of
the source to the one before it. -/
def visibleSpan (source : List Char) (span : Span) : Span :=
  if span.start ≠ span.stop then span
  else
    let before := Utf8.take span.start source
    let offset := Utf8.byteLength before
    match source[before.length]? with
    | some c => ⟨offset, offset + c.utf8Size⟩
    | none =>
      match before.getLast? with
      | some c => ⟨offset - c.utf8Size, offset⟩
      | none => ⟨offset, offset⟩

def visibleSpans (e : PatternError) (source : List Char) : List Span :=
  (e.span :: e.related?.toList.map (·.span)).map (visibleSpan source)

/-- Whether the spans of an error consist of whole characters of a source; it can be reported in no
other. -/
def fits (e : PatternError) (source : List Char) : Bool :=
  (e.span :: e.related?.toList.map (·.span)).all fun span =>
    Utf8.isBoundary source span.start && Utf8.isBoundary source span.stop

def parts (e : PatternError) (source : List Char) : List Part :=
  let lines := SourceLine.cut source
  (Part.ofSpan? lines (visibleSpan source e.span) e.message true).toList ++
    (e.related?.bind fun note =>
      Part.ofSpan? lines (visibleSpan source note.span) note.text false).toList

/-- The width of the number of the line that the last marked byte is in. -/
def numberWidth (e : PatternError) (source : List Char) : Nat :=
  let stop := ((e.visibleSpans source).map (·.stop)).foldl max 0
  (Decimal.digits ((Utf8.take (stop - 1) source).count '\n' + 1)).length

/-- The drawing of an error in its source, from a row on. -/
def drawing (e : PatternError) (source : List Char) (row : Nat) : Canvas :=
  let lines := SourceLine.cut source
  let (long, short) := (e.parts source).partition (·.isLong)
  let placed := Part.withLanes (long.mergeSort Part.comesBefore)
  let marks := short.map (fun p => (p.firstLine, p.mark)) ++
    placed.flatMap (Part.longMarks lines)
  let marked := lines.filterMap fun l =>
    let own := (marks.filter (·.1 = l.number)).map (·.2)
    if own.isEmpty then none else some (⟨l, own⟩ : MarkedLine)
  let laneCount := (placed.map (·.1.getD 1)).foldl max 0
  let layout : Layout := ⟨e.numberWidth source, laneCount, Layout.cutOf marked⟩
  layout.bars row 1 ++ layout.drawMarked lines (row + 1) [] marked

/-- The title of a report, a row for each line of the message. -/
def title (e : PatternError) : Canvas :=
  let opening := "error".toList
  let colon := ": ".toList
  let width := opening.length + colon.length
  ((piecesBetween '\n' e.message).zipIdx.flatMap fun (piece, row) =>
    [⟨row, 0, List.replicate width ' ', .bare⟩,
     ⟨row, width, piece.flatMap Width.shown, .title⟩]) ++
    [⟨0, 0, opening, .error⟩, ⟨0, opening.length, colon, .title⟩]

/-- The report of an error in its source; an empty source has nothing to show. -/
def render (e : PatternError) (source : List Char) (colored : Bool) : List Char :=
  if source.isEmpty then "error: ".toList ++ e.message ++ ['\n']
  else Canvas.text (e.title ++ e.drawing source e.title.height) colored

end PatternError

end PatternScan
