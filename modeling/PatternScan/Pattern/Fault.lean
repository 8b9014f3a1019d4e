import PatternScan.Pattern.Grammar
import PatternScan.Pattern.Parse

/-!
# Where a pattern goes wrong

What an error says of the part of a pattern that it marks, in terms of the pattern's characters
alone: which groups are open there, which text is marked, and what may still come after it.
-/

namespace PatternScan

/-- How many groups are open after a character that is not escaped, if so many are open before it;
a `)` closes one of them. -/
def depthAfter? (depth : Nat) (c : Char) : Option Nat :=
  if c = '(' then some (depth + 1)
  else if c = ')' then if depth = 0 then none else some (depth - 1)
  else some depth

/-- How many groups are open after a text, if so many are open before it. There is no such number
where a `)` closes no group or the last character is left escaping nothing. -/
def groupDepth (depth : Nat) : List Char → Option Nat
  | [] => some depth
  | ['\\'] => none
  | '\\' :: _ :: rest => groupDepth depth rest
  | c :: rest => (depthAfter? depth c).bind fun depth => groupDepth depth rest

/-- After such a text a term begins: at the start, or after a `|` or a `(` that is not escaped. -/
def TermBegins (before : List Char) : Prop :=
  before = [] ∨ ∃ u depth, groupDepth 0 u = some depth ∧ (before = u ++ ['|'] ∨ before = u ++ ['('])

/-- Before such a text a term ends. -/
def TermEnds (after : List Char) : Prop :=
  after = [] ∨ ∃ rest, after = '|' :: rest ∨ after = ')' :: rest

namespace PatternErrorKind

/-- What the kind of an error says of the part of the pattern that is marked, and of what is before
and after it. -/
def Marks (before text after : List Char) : PatternErrorKind → Prop
  | .emptyPattern => before = [] ∧ text = [] ∧ after = []
  | .emptyAlternative => text = ['|'] ∧ (TermBegins before ∨ TermEnds after)
  | .emptyGroup => text = ['(', ')']
  | .unmatchedOpenParen => text = ['('] ∧ groupDepth 0 after = some 0
  | .unmatchedCloseParen => text = [')'] ∧ groupDepth 0 before = some 0
  | .trailingBackslash => text = ['\\'] ∧ after = []
  | .nothingToRepeat => ∃ q : Quantifier, text = [q.symbol]
  | .lineBreak => ∃ c, IsLineBreak c ∧ (text = [c] ∨ text = ['\\', c])
  | .nestingTooDeep => text = ['('] ∧ groupDepth 0 before = some Expr.maxNesting

/-- Whether nothing that comes after the marked part can make a pattern of it. -/
def IsFinal (kind : PatternErrorKind) : Prop :=
  kind ∈ [.emptyGroup, .unmatchedCloseParen, .nothingToRepeat, .lineBreak, .nestingTooDeep]

instance : DecidablePred IsFinal :=
  fun kind => inferInstanceAs (Decidable (kind ∈ _))

end PatternErrorKind

/-- An error marks the text between what is before and after it in a source. What is before it can
still become a pattern, by a literal and the parentheses that are missing then. -/
structure PatternError.Locates (e : PatternError) (source before text after : List Char) :
    Prop where
  source_eq : source = before ++ text ++ after
  span_eq : e.span = ⟨Utf8.byteLength before, Utf8.byteLength (before ++ text)⟩
  related_eq : e.related?.map (·.span) = if e.kind = .unmatchedOpenParen
    then some ⟨Utf8.byteLength source, Utf8.byteLength source⟩ else none
  marks : e.kind.Marks before text after
  completes : e.kind ≠ .trailingBackslash → ∃ depth, groupDepth 0 before = some depth ∧
    ∃ tree, Expr.parse (before ++ 'a' :: List.replicate depth ')') = .ok tree
  no_extension : e.kind.IsFinal → ∀ more tree, Expr.parse (before ++ text ++ more) ≠ .ok tree

end PatternScan
