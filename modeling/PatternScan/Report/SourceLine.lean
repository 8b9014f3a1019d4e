import PatternScan.Text.Lines
import PatternScan.Text.Utf8
import PatternScan.Text.Width

/-!
# Lines of a source

A source cut into lines, with the places of its bytes as columns of what is shown.
-/

namespace PatternScan

/-- A line: its number, counted from one, the bytes from `start` up to `next` that make it up, its
end included, and its text without the end. -/
structure SourceLine where
  number : Nat
  start : Nat
  next : Nat
  text : List Char
  deriving DecidableEq, Repr

/-- A place on a line: the columns and the characters before it. -/
structure Place where
  column : Nat
  count : Nat
  deriving DecidableEq, Repr

namespace Place

/-- Whether a place does not come after another; of places in one column, the one that has fewer
characters before it comes first. -/
def isUpTo (p q : Place) : Bool :=
  p.column < q.column || (p.column = q.column && p.count ≤ q.count)

/-- The place after the next column. -/
def succ (p : Place) : Place :=
  ⟨p.column + 1, p.count + 1⟩

/-- The place before the last column. -/
def pred (p : Place) : Place :=
  ⟨p.column - 1, p.count - 1⟩

end Place

namespace SourceLine

/-- The lines of a source from number `number` on, which starts at byte `start`. Of this line the
characters `before`, latest first, come before the rest. -/
def cutFrom (number start : Nat) (before : List Char) : List Char → List SourceLine
  | [] =>
    if before.isEmpty then []
    else [⟨number, start, start + Utf8.byteLength before, before.reverse⟩]
  | c :: rest =>
    if c = '\n' then
      let next := start + Utf8.byteLength before + 1
      let text := if before.head? = some '\r' then before.tail else before
      ⟨number, start, next, text.reverse⟩ :: cutFrom (number + 1) next [] rest
    else cutFrom number start (c :: before) rest

def cut (source : List Char) : List SourceLine :=
  cutFrom 1 0 [] source

/-- Whether a byte belongs to the line. -/
def holds (l : SourceLine) (offset : Nat) : Bool :=
  l.start ≤ offset && offset < l.next

/-- The line of a source that a byte is in, the last one for its end. -/
def at? (lines : List SourceLine) (offset : Nat) : Option SourceLine :=
  match lines.find? (·.holds offset) with
  | some l => some l
  | none => lines.getLast?

/-- Whether a byte comes after the text, in the end of the line. -/
def endsBefore (l : SourceLine) (offset : Nat) : Bool :=
  l.start + Utf8.byteLength l.text < offset

/-- The place of a byte; what lies in the end of the line is just after the text. -/
def place (l : SourceLine) (offset : Nat) : Place :=
  let before := Utf8.take (offset - l.start) l.text
  ⟨Width.ofText before, before.length⟩

def shown (l : SourceLine) : List Char :=
  l.text.flatMap Width.shown

/-- Whether the line is shown with so many blanks, or only with blanks, at its beginning. -/
def isBlankFor (l : SourceLine) (count : Nat) : Bool :=
  (l.shown.take count).all CharSet.blank.has

/-- The columns of blanks that the line begins with, unless it is blank. -/
def indent? (l : SourceLine) : Option Nat :=
  if l.text.all CharSet.blank.has then none
  else
    some <| (l.text.takeWhile CharSet.blank.has).foldl
      (fun n c => n + if c = '\t' then Width.tabWidth else 1) 0

/-- Whether the line says so little that a long part is not shown to begin with it: it is blank, a
lone bracket, or a comment that does not document anything. -/
def isSlight (l : SourceLine) : Bool :=
  match trim CharSet.blank.has l.text with
  | [] => true
  | [c] => ['{', '}', '(', ')', '[', ']'].contains c
  | '/' :: '/' :: rest => rest.head? ≠ some '/' && rest.head? ≠ some '!'
  | _ => false

end SourceLine

end PatternScan
