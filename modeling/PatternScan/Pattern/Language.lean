import PatternScan.Pattern.Expr

/-!
# What an expression matches

The meaning of an expression, by recursion on the tree and without an automaton: the words it
stands for, and the positions of a line where a match that starts at a given one may stop.
-/

namespace PatternScan

namespace Expr

/-- A word is made up of words that each satisfy `p`, at least `least` of them. -/
def Repeated (least : Nat) (p : List Char → Prop) (w : List Char) : Prop :=
  ∃ parts : List (List Char), least ≤ parts.length ∧ (∀ v ∈ parts, p v) ∧ w = parts.flatten

/-- A word is made up as a quantifier says of words that satisfy `p`. -/
def Quantified (q : Quantifier) (p : List Char → Prop) (w : List Char) : Prop :=
  match q with
  | .zeroOrMore => Repeated 0 p w
  | .oneOrMore => Repeated 1 p w
  | .optional => w = [] ∨ p w

mutual

/-- The expression stands for the word. -/
def Denotes : Expr → List Char → Prop
  | .literal c _, w => w = [c]
  | .wildcard _, w => ∃ c, w = [c]
  | .concat items, w => DenotesInTurn items w
  | .alternation items, w => DenotesSome items w
  | .group inner _, w => Denotes inner w
  | .repetition q inner _, w => Quantified q (Denotes inner) w

/-- The word is made up of a word for each of the expressions, in turn. -/
def DenotesInTurn : List Expr → List Char → Prop
  | [], w => w = []
  | e :: rest, w => ∃ u v, Denotes e u ∧ DenotesInTurn rest v ∧ w = u ++ v

/-- One of the expressions stands for the word. -/
def DenotesSome : List Expr → List Char → Prop
  | [], _ => False
  | e :: rest, w => Denotes e w ∨ DenotesSome rest w

end

/-- From the position `s` a step by `p` after the other leads to `t`. -/
inductive StepsTo (p : Nat → Nat → Prop) : Nat → Nat → Prop
  | refl (s : Nat) : StepsTo p s s
  | step {s t u : Nat} : p s t → StepsTo p t u → StepsTo p s u

mutual

/-- A match of the expression that starts at a position of the line may stop at another. -/
def Ends (chars : List Char) : Expr → Nat → Nat → Prop
  | .literal c _, i, j => chars[i]? = some c ∧ j = i + 1
  | .wildcard _, i, j => i < chars.length ∧ j = i + 1
  | .concat items, i, j => EndsInTurn chars items i j
  | .alternation items, i, j => EndsSome chars items i j
  | .group inner _, i, j => Ends chars inner i j
  | .repetition .zeroOrMore inner _, i, j => StepsTo (Ends chars inner) i j
  | .repetition .oneOrMore inner _, i, j =>
    ∃ k, Ends chars inner i k ∧ StepsTo (Ends chars inner) k j
  | .repetition .optional inner _, i, j => j = i ∨ Ends chars inner i j

/-- Matches of the expressions, each from where the one before stops, may stop at a position. -/
def EndsInTurn (chars : List Char) : List Expr → Nat → Nat → Prop
  | [], i, j => j = i
  | e :: rest, i, j => ∃ k, Ends chars e i k ∧ EndsInTurn chars rest k j

/-- A match of one of the expressions may stop at a position. -/
def EndsSome (chars : List Char) : List Expr → Nat → Nat → Prop
  | [], _, _ => False
  | e :: rest, i, j => Ends chars e i j ∨ EndsSome chars rest i j

end

mutual

/-- The number of states that the piece of an expression has. -/
def stateCount : Expr → Nat
  | .literal _ _ | .wildcard _ => 1
  | .concat items => stateCounts items
  | .alternation items => stateCounts items + items.length
  | .group inner _ => stateCount inner
  | .repetition .optional inner _ => stateCount inner + 2
  | .repetition _ inner _ => stateCount inner + 1

/-- The number of states that the pieces of some expressions have. -/
def stateCounts : List Expr → Nat
  | [] => 0
  | e :: rest => stateCount e + stateCounts rest

end

end Expr

end PatternScan
