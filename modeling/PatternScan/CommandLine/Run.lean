import PatternScan.CommandLine.Command
import PatternScan.CommandLine.FileTree
import PatternScan.Construct.Pattern
import PatternScan.Report.Annotation
import PatternScan.Report.Printer
import PatternScan.Simulate.Trace
import PatternScan.Table.Record

/-!
# Running commands

What a command writes and how it exits, given the files there are and the standard input. A table is
complete before the file to search is opened, and what has been printed stays printed when the
search fails. What is logged for developers, which is nothing unless the environment asks for it, is
left out of what goes to the standard error.
-/

namespace PatternScan

/-- What a command finds around it. -/
structure Surroundings where
  openPath : List Char → Except OpenFault Entry
  stdin : List UInt8
  onTerminal : Bool

/-- What comes of a command. -/
structure Outcome where
  exitCode : Nat
  stdout : List Char
  stderr : List Char
  deriving DecidableEq, Repr

/-- Why a command fails. -/
inductive CommandError
  | pattern (e : PatternError)
  | table (e : TableError)
  | unopened (path : List Char) (fault : OpenFault)
  | search (e : SearchError)
  deriving DecidableEq, Repr

namespace CommandError

def message : CommandError → List Char
  | .pattern e => e.oneLine
  | .table e => "invalid state table: ".toList ++ e.message
  | .unopened path fault =>
    "failed to open '".toList ++ path ++ "': ".toList ++ fault.message
  | .search e => e.message

/-- The exit code of an error; a pattern that is refused counts as one that matches nothing. -/
def exitCode : CommandError → Nat
  | .pattern _ => 1
  | _ => 2

/-- The outcome of a command that has written something when it fails. -/
def outcomeAfter (e : CommandError) (stdout stderr : List Char) : Outcome :=
  ⟨e.exitCode, stdout, stderr ++ "error: ".toList ++ e.message ++ ['\n']⟩

def outcome (e : CommandError) : Outcome :=
  e.outcomeAfter [] []

end CommandError

namespace Entry

/-- Why a directory cannot be read. -/
def directoryReason : List Char :=
  "Is a directory (os error 21)".toList

def source : Entry → Source
  | .file bytes => .ofBytes bytes
  | .failing bytes reason => ⟨0, bytes, some reason⟩
  | .directory => ⟨0, [], some directoryReason⟩

def table : Entry → Except TableError Table
  | .file bytes => Table.ofBytes bytes
  | .failing _ reason => .error (.unreadable reason)
  | .directory => .error (.unreadable directoryReason)

end Entry

def compilePattern (pattern : List Char) : Except CommandError Table :=
  (Table.ofPattern pattern).mapError .pattern

/-- The table written in a file, or without a path on the standard input. -/
def loadTable (s : Surroundings) : Option (List Char) → Except CommandError Table
  | none => (Table.ofBytes s.stdin).mapError .table
  | some path =>
    match s.openPath path with
    | .error fault => .error (.unopened path fault)
    | .ok entry => entry.table.mapError .table

/-- Prints the lines of a file that a table matches, up to a limit. -/
def searchFile (s : Surroundings) (t : Table) (path : List Char) (maxCount? : Option Nat)
    (printer : Printer) : Printer × Except CommandError SearchStats :=
  match s.openPath path with
  | .error fault => (printer, .error (.unopened path fault))
  | .ok entry =>
    match (Searcher.new t maxCount?).search Printer.sink printer entry.source with
    | (printer, _, .error e) => (printer, .error (.search e))
    | (printer, _, .ok stats) =>
      match printer.finish with
      | .error reason => (printer, .error (.search (.sink reason)))
      | .ok () => (printer, .ok stats)

/-- The summary of a valid pattern, or the report of what is wrong with it. -/
def checkPattern (pattern : List Char) (colored : Bool) : Except (List Char) (List Char) :=
  match Table.ofPattern pattern with
  | .ok t => .ok ("ok: pattern is valid (".toList ++ Decimal.digits t.size ++ " states)".toList)
  | .error e => .error (e.render pattern colored)

/-- A printer for the standard streams. -/
def OutputOptions.printer (o : OutputOptions) (onTerminal : Bool) : Printer :=
  ⟨⟨o.lineNumber, o.json, o.isColored onTerminal⟩, .new none false, .new none false⟩

namespace Command

/-- Searches a file by a table that may not have come to be. -/
def runSearch (s : Surroundings) (table : Except CommandError Table) (file : List Char)
    (output : OutputOptions) : Outcome :=
  match table with
  | .error e => e.outcome
  | .ok t =>
    match searchFile s t file output.maxCount? (output.printer s.onTerminal) with
    | (printer, .error e) => e.outcomeAfter printer.out.text printer.diagnostics.text
    | (printer, .ok stats) =>
      ⟨if stats.anyMatched then 0 else 1, printer.out.text, printer.diagnostics.text⟩

def run (s : Surroundings) : Command → Outcome
  | .compile pattern =>
    match compilePattern pattern with
    | .error e => e.outcome
    | .ok t => ⟨0, t.text, []⟩
  | .search file table? output => runSearch s (loadTable s table?) file output
  | .grep pattern file output => runSearch s (compilePattern pattern) file output
  | .check pattern color =>
    match checkPattern pattern (color.isOn s.onTerminal) with
    | .error report => ⟨1, [], report⟩
    | .ok summary => ⟨0, summary ++ ['\n'], []⟩
  | .dump pattern? table? color =>
    match pattern?.elim (loadTable s table?) compilePattern with
    | .error e => e.outcome
    | .ok t => ⟨0, t.dump (color.isOn s.onTerminal), []⟩
  | .trace pattern line verbose color =>
    match compilePattern pattern with
    | .error e => e.outcome
    | .ok t =>
      let (events, _, found?) := (Matcher.new t).findTraced line
      let lines := traceLines verbose (color.isOn s.onTerminal) events
      ⟨if found?.isSome then 0 else 1, lines.flatMap (· ++ ['\n']), []⟩

def paths : Command → List (List Char)
  | .search file table? _ => table?.toList ++ [file]
  | .grep _ file _ => [file]
  | .dump _ table? _ => table?.toList
  | _ => []

/-- Whether a command may read the standard input. -/
def readsStdin : Command → Bool
  | .search _ none _ | .dump none none _ => true
  | _ => false

end Command

end PatternScan
