import PatternScan.Simulate.Matcher
import PatternScan.Table.Dump

/-!
# Traces for people

The events of traversals as lines of text: a section a traversal, with a heading and a blank line
between two. Which branches were passed and which states did not read on is detail, shown only on
demand.
-/

namespace PatternScan

/-- A successor in a trace, where states have a color too. -/
def Next.traced (colored : Bool) : Next → List Char
  | .final => Color.paint colored .green "accept".toList
  | .state id => Color.paint colored .blue (Decimal.digits id)

namespace TraversalEvent

def isStart : TraversalEvent → Bool
  | .start _ => true
  | _ => false

/-- Whether an event is shown only on demand. -/
def isDetail : TraversalEvent → Bool
  | .branch .. | .drop .. => true
  | _ => false

/-- The position and the state that an event is about, at the beginning of its line. -/
def statePart (colored : Bool) (pos id : Nat) (s : State) : List Char :=
  "  @".toList ++ Decimal.digits pos ++ ' ' ::
    Color.paint colored .blue ('#' :: Decimal.digits id) ++ ' ' :: s.kind.shown

def line (colored : Bool) : TraversalEvent → List Char
  | .start pos => Color.paint colored .blue ("offset ".toList ++ Decimal.digits pos)
  | .branch pos id s =>
    statePart colored pos id s ++ " → ".toList ++
      List.intercalate " | ".toList (s.successors.map (Next.traced colored))
  | .consume pos id s c =>
    statePart colored pos id s ++ ' ' ::
      Color.paint colored .green ("consume ".toList ++ Quoted.shown c)
  | .drop pos id s c? =>
    statePart colored pos id s ++ ' ' ::
      Color.paint colored .dim ("drop ".toList ++ c?.elim "end of line".toList Quoted.shown)
  | .advance pos carried =>
    ' ' :: ' ' :: Color.paint colored .dim
      ("→ @".toList ++ Decimal.digits pos ++ " (".toList ++ Decimal.digits carried ++
        " deferred)".toList)
  | .accept pos => ' ' :: ' ' ::
    Color.paint colored .green ("accept at ".toList ++ Decimal.digits pos)
  | .reject pos => ' ' :: ' ' ::
    Color.paint colored .dim ("reject at ".toList ++ Decimal.digits pos)

/-- The line of an event that is not the first, with the blank line that comes before a section. -/
def linesAfter (colored : Bool) (e : TraversalEvent) : List (List Char) :=
  if e.isStart then [[], e.line colored] else [e.line colored]

end TraversalEvent

/-- The lines of some events, in the order in which they came. -/
def traceLines (verbose colored : Bool) (events : List TraversalEvent) : List (List Char) :=
  match events.filter (fun e => verbose || !e.isDetail) with
  | [] => []
  | e :: rest => e.line colored :: rest.flatMap (TraversalEvent.linesAfter colored)

namespace Matcher

/-- Notes an event before those that came earlier. -/
def record (seen : List TraversalEvent) (e : TraversalEvent) : List TraversalEvent :=
  e :: seen

/-- Traverses a line from a position, and tells what happens. -/
def traverseTraced (m : Matcher) (line : List Char) (pos : Nat) :
    List TraversalEvent × Matcher × Option Nat :=
  let (seen, m, stop?) := m.traverseWith record [] line pos
  (seen.reverse, m, stop?)

/-- Finds the match of a line that starts first, and tells what happens. -/
def findTraced (m : Matcher) (line : List Char) :
    List TraversalEvent × Matcher × Option Match :=
  let (seen, m, found?) := m.findWith record [] line
  (seen.reverse, m, found?)

end Matcher

end PatternScan
