/-!
# Commands

What a command line asks for, once its arguments are understood.
-/

namespace PatternScan

/-- When output is colored; `auto` leaves it to whether the output goes to a terminal. -/
inductive ColorChoice
  | auto
  | always
  | never
  deriving DecidableEq, Repr, Inhabited

namespace ColorChoice

def name : ColorChoice → List Char
  | .auto => "auto".toList
  | .always => "always".toList
  | .never => "never".toList

def ofName? (name : List Char) : Option ColorChoice :=
  [auto, always, never].find? (·.name = name)

def isOn (onTerminal : Bool) : ColorChoice → Bool
  | .auto => onTerminal
  | .always => true
  | .never => false

end ColorChoice

/-- How matches are to be printed, and how many. -/
structure OutputOptions where
  lineNumber : Bool
  json : Bool
  maxCount? : Option Nat
  color : ColorChoice
  deriving DecidableEq, Repr

/-- Whether matches are colored; JSON never is. -/
def OutputOptions.isColored (o : OutputOptions) (onTerminal : Bool) : Bool :=
  !o.json && o.color.isOn onTerminal

/-- A command with its arguments: to print the table of a pattern, to search a file by a written
table or by a pattern, to check a pattern, to show a table to people, and to trace a match. -/
inductive Command
  | compile (pattern : List Char)
  | search (file : List Char) (table? : Option (List Char)) (output : OutputOptions)
  | grep (pattern file : List Char) (output : OutputOptions)
  | check (pattern : List Char) (color : ColorChoice)
  | dump (pattern? table? : Option (List Char)) (color : ColorChoice)
  | trace (pattern line : List Char) (verbose : Bool) (color : ColorChoice)
  deriving DecidableEq, Repr

end PatternScan
