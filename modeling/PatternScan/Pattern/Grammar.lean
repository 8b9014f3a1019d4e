import PatternScan.Pattern.Expr

/-!
# The grammar of patterns

Which texts are patterns, and of which trees, as a relation that knows nothing of how patterns are
read. The trees of the grammar have empty spans; `Expr.bare` makes those of any tree empty. How the
parts of a sequence are bracketed does not matter to what the sequence is: trees that differ only in
this, in groups and in spans come from each other by steps that may be taken anywhere in a tree.
-/

namespace PatternScan

namespace Expr

mutual

/-- The expression with all spans empty. -/
def bare : Expr → Expr
  | .literal c _ => .literal c ⟨0, 0⟩
  | .wildcard _ => .wildcard ⟨0, 0⟩
  | .concat items => .concat (bares items)
  | .alternation items => .alternation (bares items)
  | .group inner _ => .group (bare inner) ⟨0, 0⟩
  | .repetition q inner _ => .repetition q (bare inner) ⟨0, 0⟩

/-- The expressions with all spans empty. -/
def bares : List Expr → List Expr
  | [] => []
  | e :: rest => bare e :: bares rest

end

end Expr

/-- The characters that do not stand for themselves in a pattern. -/
def IsMeta (c : Char) : Prop :=
  c ∈ ['|', '*', '+', '?', '(', ')', '.', '\\']

/-- The characters that end a line, which no literal is. -/
def IsLineBreak (c : Char) : Prop :=
  c = '\n' ∨ c = '\r'

/-- What a text is derived as: one of the constructs, or the list of factors of a term or of terms
of an expression. -/
inductive Construct
  | expression
  | terms
  | term
  | factors
  | factor
  | atom

/-- The text is a construct, of the given trees, whose groups nest at most `depth` deep. -/
inductive Derives : Nat → Construct → List Char → List Expr → Prop
  | plain {depth : Nat} {c : Char} : ¬ IsMeta c → ¬ IsLineBreak c →
      Derives depth .atom [c] [.literal c ⟨0, 0⟩]
  | escaped {depth : Nat} {c : Char} : ¬ IsLineBreak c →
      Derives depth .atom ['\\', c] [.literal c ⟨0, 0⟩]
  | wildcard {depth : Nat} : Derives depth .atom ['.'] [.wildcard ⟨0, 0⟩]
  | group {depth : Nat} {s : List Char} {e : Expr} : Derives depth .expression s [e] →
      Derives (depth + 1) .atom ('(' :: s ++ [')']) [.group e ⟨0, 0⟩]
  | unquantified {depth : Nat} {s : List Char} {e : Expr} : Derives depth .atom s [e] →
      Derives depth .factor s [e]
  | quantified {depth : Nat} {s : List Char} {e : Expr} (q : Quantifier) :
      Derives depth .atom s [e] →
      Derives depth .factor (s ++ [q.symbol]) [.repetition q e ⟨0, 0⟩]
  | lastFactor {depth : Nat} {s : List Char} {e : Expr} : Derives depth .factor s [e] →
      Derives depth .factors s [e]
  | moreFactors {depth : Nat} {s t : List Char} {e : Expr} {es : List Expr} :
      Derives depth .factor s [e] → Derives depth .factors t es →
      Derives depth .factors (s ++ t) (e :: es)
  | oneFactor {depth : Nat} {s : List Char} {e : Expr} : Derives depth .factors s [e] →
      Derives depth .term s [e]
  | factors {depth : Nat} {s : List Char} {es : List Expr} : Derives depth .factors s es →
      2 ≤ es.length → Derives depth .term s [.concat es]
  | lastTerm {depth : Nat} {s : List Char} {e : Expr} : Derives depth .term s [e] →
      Derives depth .terms s [e]
  | moreTerms {depth : Nat} {s t : List Char} {e : Expr} {es : List Expr} :
      Derives depth .term s [e] → Derives depth .terms t es →
      Derives depth .terms (s ++ '|' :: t) (e :: es)
  | oneTerm {depth : Nat} {s : List Char} {e : Expr} : Derives depth .terms s [e] →
      Derives depth .expression s [e]
  | terms {depth : Nat} {s : List Char} {es : List Expr} : Derives depth .terms s es →
      2 ≤ es.length → Derives depth .expression s [.alternation es]

/-- The pattern spells out the text: all metacharacters of the text and any of its other characters
have a backslash before them. -/
inductive Escapes : List Char → List Char → Prop
  | nil : Escapes [] []
  | plain {c : Char} {pattern text : List Char} : ¬ IsMeta c → Escapes pattern text →
      Escapes (c :: pattern) (c :: text)
  | escaped {c : Char} {pattern text : List Char} : Escapes pattern text →
      Escapes ('\\' :: c :: pattern) (c :: text)

namespace Expr

/-- One tree comes from the other by regrouping: other spans, a group around a tree, a list around a
single part, or a list around consecutive parts of a sequence, each put in or taken away. -/
inductive Regroups : Expr → Expr → Prop
  | respan {e e' : Expr} : e.bare = e'.bare → Regroups e e'
  | symm {e e' : Expr} : Regroups e e' → Regroups e' e
  | trans {e e' e'' : Expr} : Regroups e e' → Regroups e' e'' → Regroups e e''
  | group (inner : Expr) (span : Span) : Regroups (.group inner span) inner
  | single (e : Expr) : Regroups (.concat [e]) e
  | splice (before : List Expr) {items : List Expr} (after : List Expr) : items ≠ [] →
      Regroups (.concat (before ++ .concat items :: after)) (.concat (before ++ items ++ after))
  | concat (before : List Expr) {e e' : Expr} (after : List Expr) : Regroups e e' →
      Regroups (.concat (before ++ e :: after)) (.concat (before ++ e' :: after))
  | alternation (before : List Expr) {e e' : Expr} (after : List Expr) : Regroups e e' →
      Regroups (.alternation (before ++ e :: after)) (.alternation (before ++ e' :: after))
  | repetition (q : Quantifier) {e e' : Expr} (span : Span) : Regroups e e' →
      Regroups (.repetition q e span) (.repetition q e' span)

namespace Regroups

theorem refl (e : Expr) : Regroups e e :=
  .respan rfl

/-- Parentheses around parts of a sequence. -/
theorem parentheses (before : List Expr) {items : List Expr} (after : List Expr) (span : Span)
    (h : items ≠ []) : Regroups (.concat (before ++ .group (.concat items) span :: after))
      (.concat (before ++ items ++ after)) :=
  (concat before after (group _ span)).trans (splice before after h)

end Regroups

end Expr

end PatternScan
