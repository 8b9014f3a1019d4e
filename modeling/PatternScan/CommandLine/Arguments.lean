import PatternScan.CommandLine.Command
import PatternScan.Text.Decimal
import PatternScan.Text.Lines

/-!
# Arguments

The arguments of a command are read from left to right. An option that takes a value waits for it;
what has been given is settled, and checked, only when something else is given or the arguments
end. A pattern and a line may begin with a hyphen, unless they are an option of the command.
-/

namespace PatternScan

/-- Why arguments are refused, or, for the last three, answered without a command. -/
inductive UsageError
  | missingRequiredArgument
  | unknownArgument
  | invalidValue
  | valueValidation
  | tooManyValues
  | argumentConflict
  | invalidSubcommand
  | displayHelp
  | displayVersion
  | displayHelpOnMissingArgumentOrSubcommand
  deriving DecidableEq, Repr

/-- The exit code of a usage error; to ask for help or for the version is none. -/
def UsageError.exitCode : UsageError → Nat
  | .displayHelp | .displayVersion => 0
  | _ => 2

/-- What an argument is for. -/
inductive Parameter
  | pattern
  | file
  | line
  | table
  | lineNumber
  | json
  | maxCount
  | color
  | verbose
  | help
  | version
  deriving DecidableEq, Repr

namespace Parameter

/-- The name of an option after two hyphens. -/
def long? : Parameter → Option (List Char)
  | .table => some "table".toList
  | .lineNumber => some "line-number".toList
  | .json => some "json".toList
  | .maxCount => some "max-count".toList
  | .color => some "color".toList
  | .help => some "help".toList
  | .version => some "version".toList
  | _ => none

/-- The name of an option after one hyphen. -/
def short? : Parameter → Option Char
  | .lineNumber => some 'n'
  | .maxCount => some 'm'
  | .verbose => some 'v'
  | .help => some 'h'
  | .version => some 'V'
  | _ => none

def takesValue : Parameter → Bool
  | .table | .maxCount | .color => true
  | _ => false

/-- Whether an argument given by its place may begin with a hyphen. -/
def allowsHyphen : Parameter → Bool
  | .pattern | .line => true
  | _ => false

end Parameter

/-- The arguments that have been settled. -/
structure Settled where
  pattern? : Option (List Char)
  file? : Option (List Char)
  line? : Option (List Char)
  table? : Option (List Char)
  lineNumber : Bool
  json : Bool
  maxCount? : Option Nat
  color? : Option ColorChoice
  verbose : Bool
  deriving DecidableEq, Repr

namespace Settled

def none : Settled :=
  ⟨.none, .none, .none, .none, false, false, .none, .none, false⟩

/-- Counts are words of 64 bits. -/
def countLimit : Nat := 0x10000000000000000

def path (value : List Char) : Except UsageError (List Char) :=
  if value.isEmpty then .error .invalidValue else .ok value

def count (value : List Char) : Except UsageError Nat :=
  match Decimal.unsigned? value with
  | some n => if n < countLimit then .ok n else .error .valueValidation
  | .none => .error .valueValidation

def color (value : List Char) : Except UsageError ColorChoice :=
  match ColorChoice.ofName? value with
  | some choice => .ok choice
  | .none => .error .invalidValue

/-- Refuses a second value for an argument that has one. -/
def once {α : Type} (old? : Option α) : Except UsageError Unit :=
  if old?.isSome then .error .argumentConflict else .ok ()

def settleValue (s : Settled) (p : Parameter) (value : List Char) : Except UsageError Settled :=
  match p with
  | .pattern => .ok { s with pattern? := some value }
  | .line => .ok { s with line? := some value }
  | .file => do return { s with file? := some (← path value) }
  | .table => do
    once s.table?
    return { s with table? := some (← path value) }
  | .maxCount => do
    once s.maxCount?
    return { s with maxCount? := some (← count value) }
  | .color => do
    once s.color?
    return { s with color? := some (← color value) }
  | _ => .error .tooManyValues

/-- Settles an option without a value. -/
def settleFlag (s : Settled) (p : Parameter) : Except UsageError Settled :=
  match p with
  | .lineNumber =>
    if s.lineNumber then .error .argumentConflict else .ok { s with lineNumber := true }
  | .json => if s.json then .error .argumentConflict else .ok { s with json := true }
  | .verbose => .ok { s with verbose := true }
  | .help => .error .displayHelp
  | .version => .error .displayVersion
  | _ => .error .invalidValue

end Settled

/-- The arguments of a command while they are read: the settled ones, the one last given with its
value if it has one yet, the places still to fill, and whether only places are to be filled. -/
structure ArgumentReading where
  settled : Settled
  last? : Option (Parameter × Option (List Char))
  places : List Parameter
  placesOnly : Bool
  deriving Repr

namespace ArgumentReading

/-- Settles what was given last; an option that still waits for its value has none. -/
def settle (r : ArgumentReading) : Except UsageError ArgumentReading :=
  match r.last? with
  | none => .ok r
  | some (_, none) => .error .invalidValue
  | some (p, some value) => do
    return { r with settled := ← r.settled.settleValue p value, last? := none }

/-- Whether the next place takes what looks like an option that the command does not know. -/
def placeAllowsHyphen (r : ArgumentReading) : Bool :=
  r.places.head?.any Parameter.allowsHyphen

def fillPlace (r : ArgumentReading) (value : List Char) : Except UsageError ArgumentReading :=
  match r.places with
  | [] => .error .unknownArgument
  | p :: places => do
    return { ← r.settle with last? := some (p, some value), places }

/-- Takes a value for the option that waits for one, or else for the next place. -/
def takeValue (r : ArgumentReading) (value : List Char) : Except UsageError ArgumentReading :=
  match r.last? with
  | some (p, none) => .ok { r with last? := some (p, some value) }
  | _ => r.fillPlace value

/-- Takes an option of the command, with the value attached to it, if any. -/
def takeOption (r : ArgumentReading) (p : Parameter) (attached? : Option (List Char)) :
    Except UsageError ArgumentReading := do
  if p.takesValue then
    let r ← r.settle
    match attached? with
    | some value => return { r with settled := ← r.settled.settleValue p value }
    | none => return { r with last? := some (p, none) }
  else
    match attached? with
    | some _ => .error .tooManyValues
    | none =>
      let r ← r.settle
      return { r with settled := ← r.settled.settleFlag p }

/-- Takes options of one character each, written in a row; one that takes a value takes the rest of
the row, or waits if there is none. -/
def takeRow (options : List Parameter) (r : ArgumentReading) :
    List Char → Except UsageError ArgumentReading
  | [] => .ok r
  | c :: rest =>
    match options.find? (·.short? = some c) with
    | none => .error .unknownArgument
    | some p =>
      if p.takesValue then
        match rest with
        | [] => r.takeOption p none
        | '=' :: value => r.takeOption p (some value)
        | value => r.takeOption p (some value)
      else do takeRow options (← r.takeOption p none) rest

/-- The name of an option and the value attached to it by an equals sign. -/
def splitAttached (text : List Char) : List Char × Option (List Char) :=
  match cutAtFirst? '=' text with
  | some (name, value) => (name, some value)
  | none => (text, none)

def step (options : List Parameter) (r : ArgumentReading) (argument : List Char) :
    Except UsageError ArgumentReading :=
  if r.placesOnly then r.fillPlace argument
  else
    match argument with
    | ['-', '-'] => .ok { r with placesOnly := true }
    | '-' :: '-' :: text =>
      let (name, attached?) := splitAttached text
      match options.find? (·.long? = some name) with
      | some p => r.takeOption p attached?
      | none => if r.placeAllowsHyphen then r.takeValue argument else .error .unknownArgument
    | '-' :: c :: row =>
      if r.placeAllowsHyphen ∧ (c :: row).any fun c => !(options.any (·.short? = some c)) then
        r.takeValue argument
      else r.takeRow options (c :: row)
    | _ => r.takeValue argument

/-- Reads all arguments of a command that has the given places and options. -/
def readAll (places options : List Parameter) (arguments : List (List Char)) :
    Except UsageError Settled := do
  let r ← arguments.foldlM (step options) ⟨.none, none, places, false⟩
  return (← r.settle).settled

end ArgumentReading

namespace Settled

def required {α : Type} : Option α → Except UsageError α
  | some value => .ok value
  | .none => .error .missingRequiredArgument

/-- How matches are to be printed; line numbers are part of JSON and not to be asked for. -/
def output (s : Settled) : Except UsageError OutputOptions :=
  if s.json ∧ s.lineNumber then .error .argumentConflict
  else .ok ⟨s.lineNumber, s.json, s.maxCount?, s.color?.getD .auto⟩

end Settled

namespace Command

inductive Name
  | compile
  | search
  | grep
  | check
  | dump
  | trace
  deriving DecidableEq, Repr

namespace Name

def all : List Name :=
  [.compile, .search, .grep, .check, .dump, .trace]

def text : Name → List Char
  | .compile => "compile".toList
  | .search => "search".toList
  | .grep => "grep".toList
  | .check => "check".toList
  | .dump => "dump".toList
  | .trace => "trace".toList

def ofText? (text : List Char) : Option Name :=
  all.find? (·.text = text)

/-- The arguments that a command takes by their places. -/
def places : Name → List Parameter
  | .compile | .check | .dump => [.pattern]
  | .search => [.file]
  | .grep => [.pattern, .file]
  | .trace => [.pattern, .line]

def options : Name → List Parameter
  | .compile => [.help]
  | .search => [.table, .lineNumber, .json, .maxCount, .color, .help]
  | .grep => [.lineNumber, .json, .maxCount, .color, .help]
  | .check => [.color, .help]
  | .dump => [.table, .color, .help]
  | .trace => [.verbose, .color, .help]

end Name

/-- The command of a name with its arguments, all of which have to go together. -/
def ofSettled (name : Name) (s : Settled) : Except UsageError Command :=
  let color := s.color?.getD .auto
  match name with
  | .compile => return .compile (← Settled.required s.pattern?)
  | .search => do
    let output ← s.output
    return .search (← Settled.required s.file?) s.table? output
  | .grep => do
    let output ← s.output
    return .grep (← Settled.required s.pattern?) (← Settled.required s.file?) output
  | .check => return .check (← Settled.required s.pattern?) color
  | .dump =>
    if s.pattern?.isSome ∧ s.table?.isSome then .error .argumentConflict
    else .ok (.dump s.pattern? s.table? color)
  | .trace =>
    return .trace (← Settled.required s.pattern?) (← Settled.required s.line?) s.verbose color

/-- The name under which help on the commands is given. -/
def helpName : List Char :=
  "help".toList

/-- Asks for help on a command, which has to exist. -/
def helpOn : List (List Char) → UsageError
  | [] => .displayHelp
  | [name] =>
    if name = helpName ∨ (Name.ofText? name).isSome then .displayHelp else .invalidSubcommand
  | _ => .invalidSubcommand

/-- Reads the arguments of the program: the name of a command and what belongs to it. Before the
name only help and the version may be asked for. -/
def ofArguments (arguments : List (List Char)) : Except UsageError Command :=
  match arguments with
  | [] => .error .displayHelpOnMissingArgumentOrSubcommand
  | first :: rest =>
    if first = helpName then .error (helpOn rest)
    else
      match Name.ofText? first with
      | some name => do
        ofSettled name (← ArgumentReading.readAll name.places name.options rest)
      | none =>
        match first, rest with
        | ['-', '-'], [] => .error .displayHelpOnMissingArgumentOrSubcommand
        | ['-', '-'], next :: _ =>
          if next = helpName ∨ (Name.ofText? next).isSome then .error .unknownArgument
          else .error .invalidSubcommand
        | '-' :: _ :: _, _ => do
          let _ ← ArgumentReading.readAll [] [.help, .version] [first]
          .error .unknownArgument
        | _, _ => .error .invalidSubcommand

end Command

end PatternScan
