import PatternScan.Table.Basic
import PatternScan.Text.Color
import PatternScan.Text.Quoted

/-!
# Tables for people

A table in columns: a line at the head and one a state, with its number, its symbol and where it
leads. A row can be read back, whatever width the columns have.
-/

namespace PatternScan

/-- The symbol of a kind of state where people read it. -/
def StateKind.shown : StateKind → List Char
  | .literal c => Quoted.shown c
  | .wildcard => "ANY".toList
  | .branch => "BR".toList

def StateKind.color : StateKind → Color
  | .literal _ => .green
  | .wildcard => .plain
  | .branch => .dim

/-- A successor where people read it. -/
def Next.shown (colored : Bool) : Next → List Char
  | .final => Color.paint colored .green "accept".toList
  | .state id => Decimal.digits id

namespace Table

def symbolWidth (t : Table) : Nat :=
  t.states.foldl (fun width s => max width s.kind.shown.length) 0

/-- The line of state number `id`. -/
def dumpRow (colored : Bool) (idWidth symbolWidth id : Nat) (s : State) : List Char :=
  Color.paint colored .blue (Decimal.padLeft idWidth id) ++ "  ".toList ++
    Color.paint colored s.kind.color s.kind.shown ++
    List.replicate (symbolWidth - s.kind.shown.length) ' ' ++ "  ".toList ++
    Color.paint colored .dim "→".toList ++ ' ' ::
    List.intercalate " | ".toList (s.successors.map (Next.shown colored)) ++ ['\n']

def dump (t : Table) (colored : Bool) : List Char :=
  Color.paint colored .blue "[states]".toList ++ '\n' ::
    t.states.toList.zipIdx.flatMap fun (s, id) =>
      dumpRow colored (Decimal.indexWidth t.size) t.symbolWidth id s

end Table

/-- The kind whose symbol stands at the beginning of a text, and what comes after it. -/
def StateKind.read? : List Char → Option (StateKind × List Char)
  | '\'' :: text =>
    match Quoted.unescape? text with
    | some (c, '\'' :: rest) => some (.literal c, rest)
    | _ => none
  | 'A' :: 'N' :: 'Y' :: rest => some (.wildcard, rest)
  | 'B' :: 'R' :: rest => some (.branch, rest)
  | _ => none

/-- The successor that a text shows. -/
def Next.ofShown? (text : List Char) : Option Next :=
  if text = "accept".toList then some .final else (Decimal.ofDigits? text).map .state

/-- The two successors that a text shows, once if they are equal. -/
def Next.ofPair? (text : List Char) : Option (Next × Next) :=
  match cutAtFirst? ' ' text with
  | none => (ofShown? text).map fun next => (next, next)
  | some (first, '|' :: ' ' :: second) => do return (← ofShown? first, ← ofShown? second)
  | some _ => none

/-- The number and the state that a row shows. -/
def State.ofRow? (row : List Char) : Option (Nat × State) := do
  let row := row.dropWhile (· = ' ')
  let id ← Decimal.ofDigits? (row.takeWhile Char.isDigit)
  let (kind, row) ← StateKind.read? ((row.dropWhile Char.isDigit).dropWhile (· = ' '))
  match row.dropWhile (· = ' ') with
  | '→' :: ' ' :: row =>
    let (first, second) ← Next.ofPair? row
    return (id, ⟨kind, first, second⟩)
  | _ => none

end PatternScan
