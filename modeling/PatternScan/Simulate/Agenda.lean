import Mathlib.Data.Finset.Insert
import PatternScan.Simulate.Frontier

/-!
# What a frontier keeps

The operations of a frontier and their answers, and what they come to, told without marks and
epochs: a stack of the places to explore at the present position, a queue of those to explore at
the next one, and the set of the states visited at the present one.
-/

namespace PatternScan

namespace Frontier

/-- What a frontier can be asked to do. -/
inductive Operation
  | reset (start : Next)
  | push (next : Next)
  | defer (next : Next)
  | pop
  | visit (id : Nat)
  | advance
  | countDeferred
  deriving DecidableEq, Repr

/-- What an operation tells the one who asked for it. -/
inductive Answer
  | nothing
  | next (next? : Option Next)
  | outcome (holds : Bool)
  | count (n : Nat)
  deriving DecidableEq, Repr

/-- The answer to an operation, and the frontier after it. -/
def perform (f : Frontier) : Operation → Answer × Frontier
  | .reset start => (.nothing, f.reset start)
  | .push next => (.nothing, f.pushNow next)
  | .defer next => (.nothing, f.defer next)
  | .pop =>
    match f.pop? with
    | some (next, g) => (.next (some next), g)
    | none => (.next none, f)
  | .visit id => if f.isUnvisited id then (.outcome true, f.visit id) else (.outcome false, f)
  | .advance =>
    match f.advance? with
    | some g => (.outcome true, g)
    | none => (.outcome false, f)
  | .countDeferred => (.count f.deferred.length, f)

/-- The answers to operations in turn, and what there is after them. -/
def performAll {σ : Type} (perform : σ → Operation → Answer × σ) : σ → List Operation →
    List Answer × σ
  | s, [] => ([], s)
  | s, op :: ops =>
    let (answer, next) := perform s op
    let (answers, last) := performAll perform next ops
    (answer :: answers, last)

end Frontier

/-- The stack of the places to explore, its top first, the queue of those put off, its head first,
and the set of the states visited since the last reset or move. -/
structure Agenda where
  stack : List Next
  queue : List Next
  visited : Finset Nat
  deriving DecidableEq

namespace Agenda

def empty : Agenda :=
  ⟨[], [], ∅⟩

open Frontier (Operation Answer)

/-- The answer to an operation, and the agenda after it. -/
def perform (a : Agenda) : Operation → Answer × Agenda
  | .reset start => (.nothing, ⟨[start], [], ∅⟩)
  | .push next => (.nothing, { a with stack := next :: a.stack })
  | .defer next => (.nothing, { a with queue := a.queue ++ [next] })
  | .pop => (.next a.stack.head?, { a with stack := a.stack.tail })
  | .visit id => (.outcome (id ∉ a.visited), { a with visited := insert id a.visited })
  | .advance => if a.queue = [] then (.outcome false, a) else (.outcome true, ⟨a.queue, [], ∅⟩)
  | .countDeferred => (.count a.queue.length, a)

/-- The operation is one to ask for: a visit is to one of so many states, and a move is not made
with places both left to explore and put off. -/
def Allows (a : Agenda) (size : Nat) : Operation → Prop
  | .visit id => id < size
  | .advance => a.stack = [] ∨ a.queue = []
  | _ => True

/-- Each of the operations is one to ask for when its turn comes. -/
def AllowsAll (a : Agenda) (size : Nat) : List Operation → Prop
  | [] => True
  | op :: ops => a.Allows size op ∧ (a.perform op).2.AllowsAll size ops

instance (a : Agenda) (size : Nat) : ∀ op : Operation, Decidable (a.Allows size op)
  | .visit id => inferInstanceAs (Decidable (id < size))
  | .advance => inferInstanceAs (Decidable (a.stack = [] ∨ a.queue = []))
  | .reset _ | .push _ | .defer _ | .pop | .countDeferred => .isTrue trivial

instance decidableAllowsAll (size : Nat) :
    ∀ (a : Agenda) (ops : List Operation), Decidable (a.AllowsAll size ops)
  | _, [] => .isTrue trivial
  | a, op :: ops =>
    have := decidableAllowsAll size (a.perform op).2 ops
    inferInstanceAs (Decidable (a.Allows size op ∧ (a.perform op).2.AllowsAll size ops))

end Agenda

end PatternScan
