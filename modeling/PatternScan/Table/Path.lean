import Mathlib.Logic.Equiv.Defs
import PatternScan.Table.Basic

/-!
# Paths through a table

A path leads from one place of a table to another, where acceptance is a place too, and reads a word
on its way: a state that reads a character takes the next one of the word, a branch takes none.
What a table accepts is what the paths from state zero to acceptance read.

Two tables are the same but for the numbers of their states if the states that state zero leads to
in the one belong one to one to those of the other, with equal kinds, and the successors of states
that belong together do too, the first with the first and the second with the second.
-/

namespace PatternScan

namespace Table

/-- A path from one place to another that reads the given word. -/
inductive Path (t : Table) : Next → List Char → Next → Prop
  | here (n : Next) : Path t n [] n
  | pass {id : Nat} {s : State} {n m : Next} {w : List Char} :
      t.get? id = some s → s.kind = .branch → n ∈ s.successors → Path t n w m →
      Path t (.state id) w m
  | read {id : Nat} {s : State} {c : Char} {m : Next} {w : List Char} :
      t.get? id = some s → s.kind.accepts c = true → Path t s.first w m →
      Path t (.state id) (c :: w) m

/-- The table accepts a word. -/
def Accepts (t : Table) (w : List Char) : Prop :=
  Path t (.state 0) w .final

/-- Some path leads from one place to another. -/
def Leads (t : Table) (n m : Next) : Prop :=
  ∃ w, Path t n w m

/-- A place can be reached from state zero. -/
def Reachable (t : Table) (n : Next) : Prop :=
  ∃ w, Path t (.state 0) w n

namespace Path

theorem trans {t : Table} {n m k : Next} {u v : List Char} (h : Path t n u m)
    (h' : Path t m v k) : Path t n (u ++ v) k := by
  induction h with
  | here => exact h'
  | pass hs hb hn _ ih => exact .pass hs hb hn (ih h')
  | read hs hc _ ih => exact .read hs hc (ih h')

end Path

end Table

/-- Both lead to acceptance, or they lead to states that belong together. -/
def Next.Paired (R : Nat → Nat → Prop) : Next → Next → Prop
  | .final, .final => True
  | .state i, .state j => R i j
  | _, _ => False

/-- The states are equal in kind, and their successors belong together. -/
def State.Paired (R : Nat → Nat → Prop) (s s' : State) : Prop :=
  s.kind = s'.kind ∧ s.first.Paired R s'.first ∧ s.second.Paired R s'.second

namespace Table

theorem reachable_zero (t : Table) : t.Reachable (.state 0) :=
  ⟨[], .here _⟩

/-- The numbers of the states that state zero leads to. -/
def Reached (t : Table) : Type :=
  {id : Nat // t.Reachable (.state id)}

/-- State zero leads to itself. -/
def Reached.zero {t : Table} : t.Reached :=
  ⟨0, t.reachable_zero⟩

/-- Each state that is reached gets another number, by which it is the same. -/
structure IsRenumbering {a b : Table} (f : a.Reached ≃ b.Reached) : Prop where
  zero : f .zero = .zero
  paired : ∀ i : a.Reached, ∃ s s', a.get? i.1 = some s ∧ b.get? (f i).1 = some s' ∧
    s.Paired (fun k l => ∃ h : a.Reachable (.state k), (f ⟨k, h⟩).1 = l) s'

end Table

end PatternScan
