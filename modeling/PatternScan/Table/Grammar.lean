import Mathlib.Data.List.Forall2
import PatternScan.Table.Record

/-!
# The grammar of a written table

What a text says, whatever reads it: its records with the numbers of their lines, the fields of a
record, and the number and the state that the fields stand for. A number may be written in more
than one way, since it may begin with a sign and with zeros. Lines may end in more than one way, too
(`Table.LineEndEdit`).
-/

namespace PatternScan

namespace Decimal

/-- Digits in base ten and the number they stand for. -/
inductive IsDigits : List Char → Nat → Prop
  | digit {d : Nat} (hd : d < 10) : IsDigits [d.digitChar] d
  | snoc {cs : List Char} {n d : Nat} (h : IsDigits cs n) (hd : d < 10) :
      IsDigits (cs ++ [d.digitChar]) (10 * n + d)

inductive IsUnsigned : List Char → Nat → Prop
  | plain {cs : List Char} {n : Nat} (h : IsDigits cs n) : IsUnsigned cs n
  | plus {cs : List Char} {n : Nat} (h : IsDigits cs n) : IsUnsigned ('+' :: cs) n

inductive IsSigned : List Char → Int → Prop
  | unsigned {cs : List Char} {n : Nat} (h : IsUnsigned cs n) : IsSigned cs n
  | minus {cs : List Char} {n : Nat} (h : IsDigits cs n) : IsSigned ('-' :: cs) (-n)

end Decimal

/-- The fields are those of a state and its number. The number is below `Next.idLimit`, and so are
the successors below `limit`, unless they are acceptance. -/
structure RecordFields.Describe (limit : Nat) (fields : RecordFields) (id : Nat) (s : State) :
    Prop where
  number : Decimal.IsUnsigned fields.id id
  number_lt : id < Next.idLimit
  symbol : fields.symbol = s.kind.symbol
  first : Decimal.IsSigned fields.first s.first.encode
  first_within : s.first.Within limit
  second : Decimal.IsSigned fields.second s.second.encode
  second_within : s.second.Within limit

/-- A line without one carriage return at its end. -/
def dropReturn (line : List Char) : List Char :=
  if line.getLast? = some '\r' then line.dropLast else line

/-- The pieces of a text between its line feeds, without the carriage returns just before these.
The last piece stays as it is. -/
def textPieces (text : List Char) : List (List Char) :=
  (piecesBetween '\n' text).dropLast.map dropReturn ++
    [(piecesBetween '\n' text).getLast (piecesBetween_ne_nil text)]

namespace Table

/-- The lines that are not empty, each with its number, where the first line has the given one. -/
def recordsFrom (number : Nat) (lines : List (List Char)) : List (List Char × Nat) :=
  (lines.zipIdx number).filter fun (record, _) => record ≠ []

/-- The records of a text with the numbers of their lines. -/
def numberedRecords (text : List Char) : List (List Char × Nat) :=
  recordsFrom 1 (textPieces text)

/-- The record is one of state number `id`. -/
def IsRecord (limit : Nat) (record : List Char) (id : Nat) (s : State) : Prop :=
  ∃ fields : RecordFields, record = fields.line ∧ fields.Describe limit id s

/-- The records are those of the states one by one, which are numbered from `id` on. -/
def AreRecords (limit id : Nat) (records : List (List Char × Nat)) (states : List State) : Prop :=
  List.Forall₂ (fun (record, _) (s, id) => IsRecord limit record id s) records (states.zipIdx id)

/-- The error is about the first record that is not one of a state, or not of the state whose turn
it is, and tells its line. -/
inductive IsFirstFault (id : Nat) (records : List (List Char × Nat)) : TableError → Prop
  | malformed {before after : List (List Char × Nat)} {record : List Char} {line : Nat}
      {fault : RecordFault} (hrecords : records = before ++ (record, line) :: after)
      (hbefore : ∃ states, AreRecords Next.idLimit id before states)
      (hrecord : ¬ ∃ found s, IsRecord Next.idLimit record found s) :
      IsFirstFault id records (.malformedRecord line fault)
  | outOfOrder {before after : List (List Char × Nat)} {record : List Char} {line found : Nat}
      {s : State} (hrecords : records = before ++ (record, line) :: after)
      (hbefore : ∃ states, AreRecords Next.idLimit id before states)
      (hrecord : IsRecord Next.idLimit record found s) (hfound : found ≠ id + before.length) :
      IsFirstFault id records (.outOfOrder line (id + before.length) found)

/-- One change of the line ends: a carriage return after a record that has none, a blank line before
or after any line, or a line feed more or less at the end of the text. -/
inductive LineEndEdit : List Char → List Char → Prop
  | carriageReturn {before record after : List Char} (hbefore : ∀ c ∈ before.getLast?, c = '\n')
      (hne : record ≠ []) (hfeed : '\n' ∉ record) (hreturn : record.getLast? ≠ some '\r')
      (hafter : ∀ c ∈ after.head?, c = '\n') :
      LineEndEdit (before ++ record ++ after) (before ++ record ++ '\r' :: after)
  | blankLine {before line after : List Char} (hbefore : ∀ c ∈ before.getLast?, c = '\n')
      (hline : line = [] ∨ line = ['\r']) :
      LineEndEdit (before ++ after) (before ++ line ++ '\n' :: after)
  | addFeed {text : List Char} : LineEndEdit text (text ++ ['\n'])
  | removeFeed {text : List Char} : LineEndEdit (text ++ ['\n']) text

end Table

end PatternScan
