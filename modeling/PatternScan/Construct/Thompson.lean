import PatternScan.Construct.Arena
import PatternScan.Pattern.Expr

/-!
# From expressions to tables

Each expression becomes a piece of an automaton with one entry and one hole, made of the pieces of
its parts. State zero leads into the piece of the whole pattern, whose hole leads to the last
state, the only one from which the automaton accepts.
-/

namespace PatternScan

/-- Why an expression has no table. -/
inductive ConstructionError
  | noParts
  | invalidTable (e : TableError)
  deriving DecidableEq, Repr

def ConstructionError.message : ConstructionError → List Char
  | .noParts => "a list of parts is empty".toList
  | .invalidTable e => "Builder: produced an invalid table (".toList ++ e.message ++ [')']

namespace Arena

/-- Adds what a quantifier needs to the piece that it repeats. A repeated piece leads back to a
branch, through which it is left; an optional one is entered through a branch past it. -/
def repeating (a : Arena) (body : Fragment) : Quantifier → Fragment × Arena
  | .zeroOrMore =>
    let (branch, a) := a.branch (.state body.entry) none
    (⟨branch, .second branch⟩, a.patch body.hole (.state branch))
  | .oneOrMore =>
    let (branch, a) := a.branch (.state body.entry) none
    (⟨body.entry, .second branch⟩, a.patch body.hole (.state branch))
  | .optional =>
    let (join, a) := a.join
    let a := a.patch body.hole (.state join)
    let (branch, a) := a.branch (.state body.entry) (some (.state join))
    (⟨branch, .both join⟩, a)

/-- The entry of a cascade of branches into the given pieces, the first one preferred. -/
def cascade (a : Arena) (first : Fragment) : List Fragment → Nat × Arena
  | [] => (first.entry, a)
  | second :: rest =>
    let (entry, a) := a.cascade second rest
    a.branch (.state first.entry) (some (.state entry))

/-- Makes alternatives of some pieces: all are left through one state, which comes first, and
entered through a cascade. -/
def choosing (a : Arena) (first : Fragment) (rest : List Fragment) : Fragment × Arena :=
  let (join, a) := a.join
  let a := (first :: rest).foldl (fun a piece => a.patch piece.hole (.state join)) a
  let (entry, a) := a.cascade first rest
  (⟨entry, .both join⟩, a)

mutual

/-- Makes the piece of an expression. -/
def lower (a : Arena) : Expr → Except ConstructionError (Fragment × Arena)
  | .literal c _ => .ok (a.consuming (.literal c))
  | .wildcard _ => .ok (a.consuming .wildcard)
  | .group inner _ => a.lower inner
  | .concat [] => .error .noParts
  | .concat (e :: rest) => do
    let (first, a) ← a.lower e
    a.lowerAfter first rest
  | .alternation items => do
    let (pieces, a) ← a.lowerEach items
    match pieces with
    | [] => .error .noParts
    | first :: rest => .ok (a.choosing first rest)
  | .repetition q inner _ => do
    let (body, a) ← a.lower inner
    return a.repeating body q

/-- Makes the pieces of some expressions, each entered through the hole of the one before. -/
def lowerAfter (a : Arena) (before : Fragment) :
    List Expr → Except ConstructionError (Fragment × Arena)
  | [] => .ok (before, a)
  | e :: rest => do
    let (piece, a) ← a.lower e
    (a.patch before.hole (.state piece.entry)).lowerAfter ⟨before.entry, piece.hole⟩ rest

/-- Makes the pieces of some expressions side by side. -/
def lowerEach (a : Arena) : List Expr → Except ConstructionError (List Fragment × Arena)
  | [] => .ok ([], a)
  | e :: rest => do
    let (piece, a) ← a.lower e
    let (pieces, a) ← a.lowerEach rest
    return (piece :: pieces, a)

end

/-- The states of an expression's table, and the number of the last one. -/
def ofExpr (e : Expr) : Except ConstructionError (Nat × Arena) := do
  let (start, a) := Arena.empty.join
  let (body, a) ← a.lower e
  let a := a.patch (.both start) (.state body.entry)
  let (terminal, a) := a.branch .final (some .final)
  return (terminal, a.patch body.hole (.state terminal))

end Arena

namespace Table

def ofExpr (e : Expr) : Except ConstructionError Table := do
  let (terminal, a) ← Arena.ofExpr e
  (a.finish terminal).mapError .invalidTable

end Table

end PatternScan
