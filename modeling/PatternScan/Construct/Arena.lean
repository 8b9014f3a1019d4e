import PatternScan.Table.Basic

/-!
# Tables under construction

An arena holds the states made so far, in the order of their numbers; successors may still be open.
A piece of an automaton is known by its entry and by its hole, the successors through which it is
left, which are filled once what follows is known.
-/

namespace PatternScan

/-- A state whose successors may be open. -/
structure Draft where
  kind : StateKind
  first? : Option Next
  second? : Option Next
  deriving DecidableEq, Repr

/-- The open successors of a piece: both of a state, which move together, or only the second. -/
inductive Hole
  | both (id : Nat)
  | second (id : Nat)
  deriving DecidableEq, Repr

namespace Hole

/-- The state whose successors are open. -/
def id : Hole → Nat
  | .both id | .second id => id

def fill (hole : Hole) (target : Next) (d : Draft) : Draft :=
  match hole with
  | .both _ => { d with first? := some target, second? := some target }
  | .second _ => { d with second? := some target }

end Hole

/-- A piece of an automaton: where it is entered and how it is left. -/
structure Fragment where
  entry : Nat
  hole : Hole
  deriving DecidableEq, Repr

/-- The state that a draft becomes: what is still open leads to `terminal`, and a state that reads a
character goes on at its first successor in either case. -/
def Draft.settle (terminal : Nat) (d : Draft) : State :=
  let first := d.first?.getD (.state terminal)
  if d.kind.consumes then ⟨d.kind, first, first⟩
  else ⟨d.kind, first, d.second?.getD (.state terminal)⟩

/-- The states made so far. -/
structure Arena where
  drafts : Array Draft
  deriving DecidableEq, Repr

namespace Arena

/-- An arena without states. -/
def empty : Arena :=
  ⟨#[]⟩

/-- The number of states, which is the number of the next one. -/
def size (a : Arena) : Nat :=
  a.drafts.size

/-- Makes a state. -/
def push (a : Arena) (d : Draft) : Arena :=
  ⟨a.drafts.push d⟩

/-- Makes a state that reads a character, with its successors open. -/
def consuming (a : Arena) (kind : StateKind) : Fragment × Arena :=
  (⟨a.size, .both a.size⟩, a.push ⟨kind, none, none⟩)

/-- Makes a branch with both successors open. -/
def join (a : Arena) : Nat × Arena :=
  (a.size, a.push ⟨.branch, none, none⟩)

/-- Makes a branch whose second successor may be open. -/
def branch (a : Arena) (first : Next) (second? : Option Next) : Nat × Arena :=
  (a.size, a.push ⟨.branch, some first, second?⟩)

/-- Fills a hole, of no effect if the arena lacks its state. -/
def patch (a : Arena) (hole : Hole) (target : Next) : Arena :=
  ⟨a.drafts.modify hole.id (hole.fill target)⟩

/-- Fills a hole of a state that the arena has. -/
def patch? (a : Arena) (hole : Hole) (target : Next) : Option Arena :=
  if hole.id < a.size then some (a.patch hole target) else none

/-- The table of the states made, in which everything still open leads to `terminal`. -/
def finish (a : Arena) (terminal : Nat) : Except TableError Table :=
  Table.ofStates (a.drafts.map (Draft.settle terminal))

end Arena

end PatternScan
