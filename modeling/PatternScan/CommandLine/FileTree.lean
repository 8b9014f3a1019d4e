import PatternScan.Text.Lines
import PatternScan.Text.Utf8

/-!
# Files and paths

A path names the directories on the way to what it leads to, from the root or from the working
directory. A step back leads out of a directory, and only out of a directory.
-/

namespace PatternScan

/-- What a path leads to. A file may fail to be read after some bytes of it, and a directory can be
opened, but not read. -/
inductive Entry
  | file (bytes : List UInt8)
  | failing (bytes : List UInt8) (reason : List Char)
  | directory
  deriving DecidableEq, Repr

/-- Why nothing is opened: there is nothing, or the path goes on after a file, or a name is longer
than names are, or no path at all, or the system says otherwise. -/
inductive OpenFault
  | notFound
  | notDirectory
  | nameTooLong
  | notPath
  | refused (reason : List Char)
  deriving DecidableEq, Repr

def OpenFault.message : OpenFault → List Char
  | .notFound => "No such file or directory (os error 2)".toList
  | .notDirectory => "Not a directory (os error 20)".toList
  | .nameTooLong => "File name too long (os error 36)".toList
  | .notPath => "file name contained an unexpected NUL byte".toList
  | .refused reason => reason

/-- What there is below the root, each entry with the names that lead to it, and the names that lead
to the working directory. Directories with something in them need not be entries. -/
structure FileTree where
  entries : List (List (List Char) × Entry)
  working : List (List Char)

namespace FileTree

/-- The most bytes that a name has. -/
def nameLimit : Nat := 255

/-- The most bytes that a path has. -/
def pathLimit : Nat := 4095

/-- The entry that some names lead to from the root. -/
def entry? (t : FileTree) (names : List (List Char)) : Option Entry :=
  match t.entries.lookup names with
  | some entry => some entry
  | none =>
    if (t.working :: t.entries.map (·.1)).any names.isPrefixOf then some .directory else none

/-- Follows the steps of a path from where some names lead to. -/
def follow (t : FileTree) (here : List (List Char)) : List (List Char) → Except OpenFault Entry
  | [] =>
    match t.entry? here with
    | some entry => .ok entry
    | none => .error .notFound
  | step :: rest =>
    match t.entry? here with
    | none => .error .notFound
    | some (.file _) | some (.failing _ _) => .error .notDirectory
    | some .directory =>
      if step = [] ∨ step = ['.'] then t.follow here rest
      else if step = ['.', '.'] then t.follow here.dropLast rest
      else if nameLimit < Utf8.byteLength step then .error .nameTooLong
      else t.follow (here ++ [step]) rest

def openPath (t : FileTree) (path : List Char) : Except OpenFault Entry :=
  if path.contains '\x00' then .error .notPath
  else if path.isEmpty then .error .notFound
  else if pathLimit < Utf8.byteLength path then .error .nameTooLong
  else t.follow (if path.head? = some '/' then [] else t.working) (piecesBetween '/' path)

end FileTree

end PatternScan
