import PatternScan.Table.State
import PatternScan.Text.Decimal

/-!
# Table errors

Why states or a written table are refused.
-/

namespace PatternScan

/-- What is wrong with the form of a written record. -/
inductive RecordFault
  | fieldCount
  | stateId (field : List Char)
  | symbol (field : List Char)
  | successor (field : List Char)
  deriving DecidableEq, Repr

def RecordFault.message : RecordFault → List Char
  | .fieldCount => "expected 4 comma-separated fields".toList
  | .stateId field => "invalid state id `".toList ++ field ++ "`".toList
  | .symbol field => "invalid symbol `".toList ++ field ++ "`".toList
  | .successor field => "invalid successor `".toList ++ field ++ "`".toList

/-- The causes for which a table is refused. -/
inductive TableError
  | empty
  | malformedRecord (line : Nat) (fault : RecordFault)
  | outOfOrder (line expected found : Nat)
  | danglingSuccessor (state : Nat) (target : Next)
  | unequalSuccessors (state : Nat)
  | unreadable (reason : List Char)
  deriving DecidableEq, Repr

def TableError.message : TableError → List Char
  | .empty => "automaton has no states".toList
  | .malformedRecord line fault =>
    "malformed record on line ".toList ++ Decimal.digits line ++ ": ".toList ++ fault.message
  | .outOfOrder line expected found =>
    "record on line ".toList ++ Decimal.digits line ++ " declares state ".toList ++
      Decimal.digits found ++ ", expected state ".toList ++ Decimal.digits expected
  | .danglingSuccessor state target =>
    "state ".toList ++ Decimal.digits state ++ " points at ".toList ++
      Decimal.signedDigits target.encode ++ ", which does not exist".toList
  | .unequalSuccessors state =>
    "state ".toList ++ Decimal.digits state ++
      " consumes a character but has two different successors".toList
  | .unreadable reason => "io error: ".toList ++ reason

end PatternScan
