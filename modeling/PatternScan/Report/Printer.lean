import PatternScan.Report.Device
import PatternScan.Search.Searcher
import PatternScan.Text.Color
import PatternScan.Text.Decimal

/-!
# Printing matches

Each match is a line on the output, plain or as a JSON object, and each skipped line a warning on
the diagnostics. That a warning cannot be written does not matter.

JSON is written in one form: no blanks, and in strings only quotes, backslashes and characters below
the space are escaped.
-/

namespace PatternScan

namespace Json

/-- The four hexadecimal digits of a code below 256. -/
def fourDigits (code : Nat) : List Char :=
  ['0', '0', Nat.digitChar (code / 16), Nat.digitChar (code % 16)]

/-- A character within a string. -/
def escape (c : Char) : List Char :=
  if c = '"' ∨ c = '\\' then ['\\', c]
  else if c = '\x08' then ['\\', 'b']
  else if c = '\x0c' then ['\\', 'f']
  else if c = '\n' then ['\\', 'n']
  else if c = '\r' then ['\\', 'r']
  else if c = '\t' then ['\\', 't']
  else if c.toNat < 0x20 then '\\' :: 'u' :: fourDigits c.toNat
  else [c]

def string (text : List Char) : List Char :=
  '"' :: text.flatMap escape ++ ['"']

def field (key : String) (value : List Char) : List Char :=
  string key.toList ++ ':' :: value

def object (fields : List (List Char)) : List Char :=
  '{' :: List.intercalate [','] fields ++ ['}']

end Json

/-- How matches are printed. JSON has no color and always the line number. -/
structure PrintStyle where
  lineNumber : Bool
  json : Bool
  colored : Bool
  deriving DecidableEq, Repr

namespace LineMatch

def json (m : LineMatch) : List Char :=
  Json.object
    [Json.field "line_number" (Decimal.digits m.number),
     Json.field "start" (Decimal.digits m.found.start),
     Json.field "end" (Decimal.digits m.found.stop),
     Json.field "line" (Json.string m.line)]

/-- The line number before a plain line. -/
def numberPieces (m : LineMatch) (colored : Bool) : List (List Char) :=
  if colored then [Color.blue.code, Decimal.digits m.number, Color.reset, [':']]
  else [Decimal.digits m.number, [':']]

/-- A plain line, the match in color if it has a character. Positions past the end of the line mean
its end. -/
def linePieces (m : LineMatch) (colored : Bool) : List (List Char) :=
  if colored ∧ m.found.start ≠ m.found.stop then
    [m.line.take m.found.start, Color.green.code,
     (m.line.take m.found.stop).drop m.found.start, Color.reset, m.line.drop m.found.stop]
  else [m.line]

/-- Whether a match ends before it starts, so that there is no part of the line to color. -/
def isReversed (m : LineMatch) : Bool :=
  min m.found.stop m.line.length < min m.found.start m.line.length

/-- The pieces in which a match is written. -/
def pieces (m : LineMatch) (style : PrintStyle) : List (List Char) :=
  if style.json then [m.json, ['\n']]
  else
    (if style.lineNumber then m.numberPieces style.colored else []) ++
      m.linePieces style.colored ++ [['\n']]

def record (m : LineMatch) (style : PrintStyle) : List Char :=
  (m.pieces style).flatten

end LineMatch

def skippedWarning (line : Nat) (e : Utf8.DecodeError) : List Char :=
  "warning: line ".toList ++ Decimal.digits line ++ " skipped: ".toList ++
    skippedLineMessage e ++ ['\n']

/-- The devices that results are printed on. -/
structure Printer where
  style : PrintStyle
  out : Device
  diagnostics : Device

namespace Printer

/-- Whether a match can be printed. One that is reversed can not be in color, unless the output
refuses the line number before it. -/
def canPrint (p : Printer) (m : LineMatch) : Bool :=
  let number := if p.style.lineNumber then m.numberPieces p.style.colored else []
  p.style.json || !p.style.colored || !m.isReversed || !(p.out.writeAll number).2.isOk

def printMatch (p : Printer) (m : LineMatch) : Printer × Except (List Char) Unit :=
  let (out, result) := p.out.writeAll (m.pieces p.style)
  ({ p with out }, result)

/-- Prints a warning, if it can. -/
def printSkipped (p : Printer) (line : Nat) (e : Utf8.DecodeError) : Printer :=
  { p with diagnostics := (p.diagnostics.write (skippedWarning line e)).1 }

/-- Makes sure of the output at the end. -/
def finish (p : Printer) : Except (List Char) Unit :=
  p.out.flush

/-- The printer as the sink of a search. -/
def sink : Sink Printer where
  matched := printMatch
  skipped := printSkipped

end Printer

end PatternScan
