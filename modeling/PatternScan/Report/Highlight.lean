import PatternScan.Report.Printer

/-!
# Colors as codes put into a text

A colored record is the plain one with codes at some places, which are told by the characters that
come before them in the plain record.
-/

namespace PatternScan

/-- The text with the codes put in, each after so many characters of the text; the places do not
go back. -/
def insertCodes (codes : List (Nat × List Char)) (text : List Char) : List Char :=
  codes.foldr (fun (place, code) text => text.take place ++ code ++ text.drop place) text

/-- The text from which the codes at these places of the result are taken away. -/
def removeCodes (codes : List (Nat × List Char)) (text : List Char) : List Char :=
  codes.foldl (fun text (place, code) => text.take place ++ text.drop (place + code.length)) text

section Codes

variable (place : Nat) (code : List Char) (codes : List (Nat × List Char)) (text : List Char)

theorem insertCodes_cons : insertCodes ((place, code) :: codes) text =
    (insertCodes codes text).take place ++ code ++ (insertCodes codes text).drop place := rfl

theorem removeCodes_cons : removeCodes ((place, code) :: codes) text =
    removeCodes codes (text.take place ++ text.drop (place + code.length)) := rfl

end Codes

namespace LineMatch

/-- The codes around the characters of the line that matched, if the match has any. Positions past
the end of the line mean its end. -/
def foundCodes (m : LineMatch) : List (Nat × List Char) :=
  if m.found.start = m.found.stop then []
  else
    [(min m.found.start m.line.length, Color.green.code),
     (min m.found.stop m.line.length, Color.reset)]

/-- The codes around the line number. -/
def numberCodes (m : LineMatch) : List (Nat × List Char) :=
  [(0, Color.blue.code), ((Decimal.digits m.number).length, Color.reset)]

/-- What stands before the line in a plain record. -/
def margin (m : LineMatch) (lineNumber : Bool) : List Char :=
  if lineNumber then Decimal.digits m.number ++ [':'] else []

/-- The codes of a whole record: those of the line number, if it is printed, and those of the line
after it. -/
def codes (m : LineMatch) (lineNumber : Bool) : List (Nat × List Char) :=
  (if lineNumber then m.numberCodes else []) ++
    m.foundCodes.map fun (place, code) => ((m.margin lineNumber).length + place, code)

end LineMatch

end PatternScan
