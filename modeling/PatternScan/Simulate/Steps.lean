import PatternScan.Simulate.Matcher

/-!
# The steps of a traversal

A traversal as the sequence of its steps, none of which ends it, with what happens in them. Of the
events some are visits: a state is explored at a position.
-/

namespace PatternScan

/-- The position and the state of a visit. -/
def TraversalEvent.visit? : TraversalEvent → Option (Nat × Nat)
  | .branch pos id _ | .consume pos id _ _ | .drop pos id _ _ => some (pos, id)
  | .start _ | .advance _ _ | .accept _ | .reject _ => none

/-- The visits among events, in order. -/
def visits (events : List TraversalEvent) : List (Nat × Nat) :=
  events.filterMap TraversalEvent.visit?

/-- What a step leaves that ends a traversal: the frontier, and the position of acceptance. -/
def TraversalStep.end? : TraversalStep → Option (Frontier × Option Nat)
  | .more _ => none
  | .accepted frontier pos => some (frontier, some pos)
  | .rejected frontier => some (frontier, none)

/-- How many states of a table read a character. -/
def Table.consumingCount (t : Table) : Nat :=
  t.states.countP (·.kind.consumes)

namespace Traversal

/-- So many steps lead from one traversal to another, and these events happen in them. -/
inductive Steps (table : Table) (t : Traversal) : Nat → List TraversalEvent → Traversal → Prop
  | none : Steps table t 0 [] t
  | more {n : Nat} {events : List TraversalEvent} {now next : Traversal}
      {event? : Option TraversalEvent} : Steps table t n events now →
      now.step table = (event?, .more next) →
      Steps table t (n + 1) (events ++ event?.toList) next

theorem Steps.head {table : Table} {t t' now : Traversal} {event? : Option TraversalEvent} {n : Nat}
    {events : List TraversalEvent} (hstep : t.step table = (event?, .more t'))
    (h : Steps table t' n events now) : Steps table t (n + 1) (event?.toList ++ events) now := by
  induction h with
  | none =>
    rw [List.append_nil]
    exact .more .none hstep
  | more _ hnext ih =>
    rw [← List.append_assoc]
    exact .more ih hnext

end Traversal

end PatternScan
