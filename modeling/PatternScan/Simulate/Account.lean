import PatternScan.Simulate.Steps
import PatternScan.Simulate.Trace
import PatternScan.Table.Path

/-!
# What a traversal is to tell

The events of a traversal are an account of the subset construction: at every position that it
leaves or gives up at, the visits are those of the states that the characters read so far lead to.
A search is an account of one traversal after the other. As lines of text, with the event that each
line is of, an account can be cut down to what is shown without detail.
-/

namespace PatternScan

namespace TraversalEvent

/-- Whether a state reads the character at the position. -/
def isConsumeAt (pos : Nat) : TraversalEvent → Bool
  | .consume p _ _ _ => p = pos
  | _ => false

/-- The position that the traversal moves on to, with the number that it tells. -/
def advance? : TraversalEvent → Option (Nat × Nat)
  | .advance pos carried => some (pos, carried)
  | _ => none

def isEnd : TraversalEvent → Bool
  | .accept _ | .reject _ => true
  | _ => false

/-- The end of a traversal that has come to a position, with or without acceptance. -/
def ending (pos : Nat) : Option Nat → TraversalEvent
  | some _ => .accept pos
  | none => .reject pos

end TraversalEvent

/-- The states visited at a position, in order. -/
def visitsAt (events : List TraversalEvent) (pos : Nat) : List Nat :=
  (visits events).filterMap fun (p, id) => if p = pos then some id else none

/-- How many states read the character at a position. -/
def consumeCount (events : List TraversalEvent) (pos : Nat) : Nat :=
  events.countP (·.isConsumeAt pos)

/-- The moves to later positions with the numbers that they tell, in order. -/
def advances (events : List TraversalEvent) : List (Nat × Nat) :=
  events.filterMap TraversalEvent.advance?

/-- What stands in a line from one position up to another. -/
def between (chars : List Char) (start stop : Nat) : List Char :=
  (chars.drop start).take (stop - start)

/-- The events are those of a traversal of the line from `start` on that comes to positions up to
`last`, and there to its result. -/
structure Table.Recounts (t : Table) (chars : List Char) (start last : Nat) (stop? : Option Nat)
    (events : List TraversalEvent) : Prop where
  framed : ∃ body, events = .start start :: body ++ [.ending last stop?] ∧
    ∀ e ∈ body, e.isStart = false ∧ e.isEnd = false
  stop_eq : ∀ stop ∈ stop?, stop = last
  start_le : start ≤ last
  last_le : last ≤ max start chars.length
  /-- At each position but that of acceptance all states are visited that can be, and no others. -/
  visited : ∀ pos, start ≤ pos → pos ≤ last → stop? ≠ some pos → ∀ id,
    id ∈ visitsAt events pos ↔ Path t (.state 0) (between chars start pos) (.state id)
  once : ∀ pos, (visitsAt events pos).Nodup
  within : ∀ pos id, id ∈ visitsAt events pos → start ≤ pos ∧ pos ≤ last
  branch_iff : ∀ pos id s, .branch pos id s ∈ events ↔
    id ∈ visitsAt events pos ∧ t.get? id = some s ∧ s.kind = .branch
  consume_iff : ∀ pos id s c, .consume pos id s c ∈ events ↔
    id ∈ visitsAt events pos ∧ t.get? id = some s ∧ chars[pos]? = some c ∧ s.kind.accepts c = true
  drop_iff : ∀ pos id s c?, .drop pos id s c? ∈ events ↔
    id ∈ visitsAt events pos ∧ t.get? id = some s ∧ s.kind.consumes = true ∧ chars[pos]? = c? ∧
      ∀ c ∈ c?, s.kind.accepts c = false
  advances_eq : advances events =
    (List.range' start (last - start)).map fun pos => (pos + 1, consumeCount events pos)
  consumes : ∀ pos, start ≤ pos → pos < last → 1 ≤ consumeCount events pos

/-- The events of traversals from so many offsets, one after the other from `first` on, of which
only the last one may find a match. -/
structure Matcher.Tries (m : Matcher) (chars : List Char) (first count : Nat)
    (found? : Option Match) (events : List TraversalEvent) : Prop where
  events_eq : events =
    (List.range' first count).flatMap fun start => (m.traverseTraced chars start).1
  found : ∀ found ∈ found?, found.start + 1 = first + count ∧
    (m.traverse chars found.start).2 = some found.stop
  failed : ∀ start, first ≤ start → start < first + count →
    (∀ found ∈ found?, start ≠ found.start) → (m.traverse chars start).2 = none

/-- The lines of some events, each with the event that it is of. -/
def eventLines (colored : Bool) : List TraversalEvent → List (TraversalEvent × List Char)
  | [] => []
  | e :: rest => (e, e.line colored) :: rest.flatMap fun e => (e.linesAfter colored).map (e, ·)

end PatternScan
