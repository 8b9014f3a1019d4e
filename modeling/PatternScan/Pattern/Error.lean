/-!
# Pattern errors

Why a pattern is refused, where, and in what words. The place is a span of the pattern's source, in
bytes of its UTF-8 form. Each kind has a wording of its own, which an error may replace by a more
precise one.
-/

namespace PatternScan

/-- The bytes of a source from `start` up to, and without, `stop`. -/
structure Span where
  start : Nat
  stop : Nat
  deriving DecidableEq, Repr, Inhabited

namespace Span

/-- From the start of one span to the end of another. -/
def through (first last : Span) : Span :=
  ⟨first.start, last.stop⟩

end Span

/-- The causes for which a pattern is refused. -/
inductive PatternErrorKind
  | emptyPattern
  | emptyAlternative
  | emptyGroup
  | unmatchedOpenParen
  | unmatchedCloseParen
  | trailingBackslash
  | nothingToRepeat
  | lineBreak
  | nestingTooDeep
  deriving DecidableEq, Repr

def PatternErrorKind.message : PatternErrorKind → List Char
  | .emptyPattern => "pattern is empty".toList
  | .emptyAlternative => "alternation has an empty side".toList
  | .emptyGroup => "group is empty".toList
  | .unmatchedOpenParen => "unmatched '('".toList
  | .unmatchedCloseParen => "unmatched ')'".toList
  | .trailingBackslash => "trailing backslash escapes nothing".toList
  | .nothingToRepeat => "quantifier has nothing to repeat".toList
  | .lineBreak => "line breaks cannot be matched".toList
  | .nestingTooDeep => "groups are nested too deeply".toList

/-- A second place in the source that explains an error. -/
structure RelatedNote where
  span : Span
  text : List Char
  deriving DecidableEq, Repr

/-- A refused pattern: the cause, the offending part of the source, the wording, and what else in
the source has to do with it. -/
structure PatternError where
  kind : PatternErrorKind
  span : Span
  message : List Char
  related? : Option RelatedNote
  deriving DecidableEq, Repr

namespace PatternError

def ofKind (kind : PatternErrorKind) (span : Span) : PatternError :=
  ⟨kind, span, kind.message, none⟩

/-- The error on one line: the wording and the offset. -/
def oneLine (e : PatternError) : List Char :=
  e.message ++ " at offset ".toList ++ e.span.start.repr.toList

/-- A group that is still open when the source ends. -/
def unclosedGroup (opening : Span) (sourceEnd : Nat) : PatternError :=
  { ofKind .unmatchedOpenParen opening with
    related? := some ⟨⟨sourceEnd, sourceEnd⟩, "expected ')' before the end of the pattern".toList⟩ }

/-- A quantifier with no atom before it. -/
def nothingToRepeat (quantifier : Char) (span : Span) : PatternError :=
  { ofKind .nothingToRepeat span with
    message := '\'' :: quantifier :: "' has nothing to repeat (escape it as '\\".toList ++
      [quantifier, '\'', ')'] }

/-- A group inside `limit` others. -/
def nestedPast (limit : Nat) (span : Span) : PatternError :=
  { ofKind .nestingTooDeep span with
    message := "groups are nested more than ".toList ++ limit.repr.toList ++ " deep".toList }

end PatternError

end PatternScan
