import PatternScan.CommandLine.Arguments
import PatternScan.CommandLine.Run

/-!
# The program

Reads the arguments and the files that the command may open, runs the command, and writes what it
comes to.
-/

namespace PatternScan

/-- What the program says of a usage error. -/
def UsageError.message : UsageError → String
  | .missingRequiredArgument => "error: a required argument is missing\n"
  | .unknownArgument => "error: an argument was found that is not expected\n"
  | .invalidValue => "error: the value of an argument is missing or not one of those allowed\n"
  | .valueValidation => "error: the value of an argument is not a count\n"
  | .tooManyValues => "error: an option that takes no value was given one\n"
  | .argumentConflict => "error: an argument was given twice or with one that excludes it\n"
  | .invalidSubcommand => "error: there is no such command\n"
  | .displayHelp | .displayHelpOnMissingArgumentOrSubcommand =>
    "commands: compile, search, grep, check, dump, trace, help\n"
  | .displayVersion => "0.1.0\n"

/-- What a path leads to, or why it is not opened. -/
def readEntry (path : List Char) : IO (Except OpenFault Entry) := do
  match ← (IO.FS.readBinFile (String.ofList path)).toBaseIO with
  | .ok bytes => return .ok (.file bytes.toList)
  | .error (.noFileOrDirectory ..) => return .error .notFound
  | .error (.inappropriateType _ 21 _) => return .ok .directory
  | .error (.inappropriateType ..) => return .error .notDirectory
  | .error (.invalidArgument ..) => return .error .nameTooLong
  | .error e => return .error (.refused e.toString.toList)

/-- All that a stream has to give. -/
partial def readAll (stream : IO.FS.Stream) (before : ByteArray) : IO ByteArray := do
  let bytes ← stream.read 65536
  if bytes.isEmpty then return before else readAll stream (before ++ bytes)

/-- Looks around for a command. -/
def surroundings (command : Command) : IO Surroundings := do
  let entries ← command.paths.mapM fun path => return (path, ← readEntry path)
  let stdin ←
    if command.readsStdin then readAll (← IO.getStdin) ByteArray.empty else pure ByteArray.empty
  let onTerminal := (← (← IO.getStdout).isTty) && (← (← IO.getStderr).isTty)
  return ⟨fun path => (entries.lookup path).getD (.error .notFound), stdin.toList, onTerminal⟩

end PatternScan

open PatternScan

/-- Reads the arguments, runs the command and writes its outcome. -/
def main (arguments : List String) : IO UInt32 := do
  match Command.ofArguments (arguments.map String.toList) with
  | .error e =>
    if e.exitCode = 0 then IO.print e.message else IO.eprint e.message
    return UInt32.ofNat e.exitCode
  | .ok command =>
    let outcome := command.run (← surroundings command)
    IO.print (String.ofList outcome.stdout)
    IO.eprint (String.ofList outcome.stderr)
    return UInt32.ofNat outcome.exitCode
