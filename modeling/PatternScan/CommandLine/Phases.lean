import PatternScan.CommandLine.Run
import PatternScan.Report.Record
import PatternScan.Search.Reference

/-!
# What a command depends on

A command has a pattern to compile or a table to load, and may then have a file to search. Here is
which of them it has, where a table comes from, and when reading a file fails before the search is
at its limit.
-/

namespace PatternScan

namespace Surroundings

/-- What a table is loaded from: a file, or without a path the standard input. -/
def tableEntry (s : Surroundings) : Option (List Char) → Except OpenFault Entry
  | none => .ok (.file s.stdin)
  | some path => s.openPath path

/-- What a table is loaded from can be opened, is text, and the text is that of the table. -/
def Holds (s : Surroundings) (path? : Option (List Char)) (t : Table) : Prop :=
  ∃ text, s.tableEntry path? = .ok (.file (Utf8.encode text)) ∧ Table.ofText text = .ok t

end Surroundings

namespace Command

/-- The pattern that a command compiles. -/
def pattern? : Command → Option (List Char)
  | .compile pattern | .grep pattern _ _ | .check pattern _ | .trace pattern _ _ _ => some pattern
  | .dump pattern? _ _ => pattern?
  | .search _ _ _ => none

/-- Where the table comes from that a command loads. -/
def tablePath? : Command → Option (Option (List Char))
  | .search _ table? _ | .dump none table? _ => some table?
  | _ => none

/-- The file that a command searches, and how. -/
def candidate? : Command → Option (List Char × OutputOptions)
  | .search file _ output | .grep _ file output => some (file, output)
  | _ => none

/-- What a command says of a pattern that is refused: a check shows it in its source, and all other
commands say it in one line. -/
def refusal (pattern : List Char) (e : PatternError) (onTerminal : Bool) : Command → List Char
  | .check _ color => e.render pattern (color.isOn onTerminal)
  | _ => "error: ".toList ++ e.message ++ " at offset ".toList ++ Decimal.digits e.span.start ++
      ['\n']

/-- The table that a command works with, compiled or loaded. -/
def HasTable (s : Surroundings) (c : Command) (t : Table) : Prop :=
  (∃ pattern, c.pattern? = some pattern ∧ Table.ofPattern pattern = .ok t) ∨
    ∃ path?, c.tablePath? = some path? ∧ s.Holds path? t

end Command

/-- The source fails, and so many matches as the limit allows are not found before it does. -/
def Source.FailsWithin (source : Source) (limit? : Option Nat) (told : List SearchEvent) : Prop :=
  source.failure? ≠ none ∧ ∀ k ∈ limit?, matchCount told < k

end PatternScan
