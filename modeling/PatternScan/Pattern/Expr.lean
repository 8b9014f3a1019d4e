import PatternScan.Pattern.Token
import PatternScan.Text.Quoted

/-!
# Expressions

The tree of a pattern. Reading a pattern makes a sequence or an alternation only of two parts or
more, and repeats only literals, wildcards and groups; the type allows every shape.
-/

namespace PatternScan

inductive Expr
  | literal (c : Char) (span : Span)
  | wildcard (span : Span)
  | concat (items : List Expr)
  | alternation (items : List Expr)
  | group (inner : Expr) (span : Span)
  | repetition (quantifier : Quantifier) (inner : Expr) (span : Span)

namespace Expr

mutual

/-- Where an expression starts; a list of parts starts with its first. -/
def start : Expr → Nat
  | .literal _ span | .wildcard span | .group _ span | .repetition _ _ span => span.start
  | .concat items | .alternation items => startOfFirst items

/-- Where the first of some parts starts, zero if there is none. -/
def startOfFirst : List Expr → Nat
  | [] => 0
  | e :: _ => e.start

end

mutual

/-- Where an expression stops; a list of parts stops with its last. -/
def stop : Expr → Nat
  | .literal _ span | .wildcard span | .group _ span | .repetition _ _ span => span.stop
  | .concat items | .alternation items => stopOfLast items

/-- Where the last of some parts stops, zero if there is none. -/
def stopOfLast : List Expr → Nat
  | [] => 0
  | [e] => e.stop
  | _ :: e :: rest => stopOfLast (e :: rest)

end

/-- The part of the source that an expression was read from. -/
def span (e : Expr) : Span :=
  ⟨e.start, e.stop⟩

mutual

/-- The expression as a parenthesised list, spans left out. -/
def listing : Expr → List Char
  | .literal c _ => Quoted.literal c
  | .wildcard _ => "any".toList
  | .concat items => "(cat".toList ++ listings items ++ [')']
  | .alternation items => "(alt".toList ++ listings items ++ [')']
  | .group inner _ => "(group ".toList ++ listing inner ++ [')']
  | .repetition q inner _ => '(' :: q.symbol :: ' ' :: listing inner ++ [')']

/-- The parts of a list, each after a space. -/
def listings : List Expr → List Char
  | [] => []
  | e :: rest => ' ' :: listing e ++ listings rest

end

/-- What a node of a tree is, without what is below it. -/
inductive Head
  | literal (c : Char)
  | wildcard
  | concat (count : Nat)
  | alternation (count : Nat)
  | group
  | repetition (quantifier : Quantifier)
  deriving DecidableEq, Repr

mutual

/-- The nodes of a tree from the root down, each before its parts, with their depths and spans. -/
def outline (depth : Nat) : Expr → List (Nat × Head × Span)
  | .literal c span => [(depth, .literal c, span)]
  | .wildcard span => [(depth, .wildcard, span)]
  | .concat items =>
    (depth, .concat items.length, ⟨startOfFirst items, stopOfLast items⟩) ::
      outlines (depth + 1) items
  | .alternation items =>
    (depth, .alternation items.length, ⟨startOfFirst items, stopOfLast items⟩) ::
      outlines (depth + 1) items
  | .group inner span => (depth, .group, span) :: outline (depth + 1) inner
  | .repetition q inner span => (depth, .repetition q, span) :: outline (depth + 1) inner

/-- The nodes of several trees, one tree after the other. -/
def outlines (depth : Nat) : List Expr → List (Nat × Head × Span)
  | [] => []
  | e :: rest => outline depth e ++ outlines depth rest

end

end Expr

end PatternScan
