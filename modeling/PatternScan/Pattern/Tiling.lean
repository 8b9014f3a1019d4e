import Mathlib.Data.List.Chain
import PatternScan.Pattern.Grammar
import PatternScan.Text.Utf8

/-!
# Tokens and expressions in their source

What the tokens of each kind are written as and stand for, and how they lie next to each other.
Where the parts of an expression lie in the source that it was read from, and the source as it is
put together again from an expression and what its literals and wildcards are written as.
-/

namespace PatternScan

namespace Span

/-- The span is the place of a text in a source, between whole characters. -/
def Holds (span : Span) (source text : List Char) : Prop :=
  ∃ before after, source = before ++ text ++ after ∧ span.start = Utf8.byteLength before ∧
    span.stop = Utf8.byteLength (before ++ text)

/-- The characters of a source that a span takes up. -/
def slice (span : Span) (source : List Char) : List Char :=
  (Utf8.take span.stop source).drop (Utf8.take span.start source).length

variable {span : Span} {a b c : Nat} {source text more : List Char}

theorem holds_whole : Holds ⟨0, Utf8.byteLength source⟩ source source :=
  ⟨[], [], by simp, rfl, rfl⟩

theorem Holds.slice_eq (h : span.Holds source text) : span.slice source = text := by
  obtain ⟨before, after, rfl, hstart, hstop⟩ := h
  have htake : Utf8.take span.start (before ++ text ++ after) = before := by
    rw [hstart, List.append_assoc, Utf8.take_byteLength_append]
  rw [slice, htake, hstop, Utf8.take_byteLength_append, List.drop_left]

theorem Holds.boundaries (h : span.Holds source text) :
    Utf8.isBoundary source span.start = true ∧ Utf8.isBoundary source span.stop = true := by
  obtain ⟨before, after, rfl, hstart, hstop⟩ := h
  rw [hstart, hstop]
  exact ⟨by rw [List.append_assoc, Utf8.isBoundary_append], Utf8.isBoundary_append _ after⟩

theorem Holds.start_lt_stop (h : span.Holds source text) (hne : text ≠ []) :
    span.start < span.stop := by
  obtain ⟨before, after, -, hstart, hstop⟩ := h
  have hpos : Utf8.byteLength text ≠ 0 := fun hzero => hne (Utf8.byteLength_eq_zero hzero)
  rw [hstart, hstop, Utf8.byteLength_append]
  omega

theorem Holds.stop_nil (h : span.Holds source text) : Holds ⟨span.stop, span.stop⟩ source [] := by
  obtain ⟨before, after, hsource, -, hstop⟩ := h
  exact ⟨before ++ text, after, by simpa using hsource, hstop, by simpa using hstop⟩

theorem Holds.append (h : Holds ⟨a, b⟩ source text) (h' : Holds ⟨b, c⟩ source more) :
    Holds ⟨a, c⟩ source (text ++ more) := by
  obtain ⟨before, after, hsource, ha, hb⟩ := h
  obtain ⟨before', after', hsource', hb', hc⟩ := h'
  -- Two prefixes of the source that have the same number of bytes are the same.
  obtain rfl : before ++ text = before' := by
    have hlength : Utf8.byteLength (before ++ text) = Utf8.byteLength before' := hb.symm.trans hb'
    rw [← Utf8.take_byteLength_append (before ++ text) after, ← hsource, hlength, hsource',
      List.append_assoc, Utf8.take_byteLength_append]
  exact ⟨before, after', by simpa using hsource', ha, by simpa using hc⟩

end Span

namespace Expr

/-- The span runs from the start of the first part to the end of the last one. -/
def Encloses (span : Span) (items : List Expr) : Prop :=
  items.head?.map start = some span.start ∧ items.getLast?.map stop = some span.stop

mutual

/-- Every part of the expression lies in the source where its kind says: the parts of a sequence
next to each other, those of an alternation with a `|` between them, and what a group or a
repetition is around with the parentheses or the quantifier beside it. -/
def Tiles (source : List Char) : Expr → Prop
  | .literal c span => span.Holds source [c] ∨ span.Holds source ['\\', c]
  | .wildcard span => span.Holds source ['.']
  | .concat items => AllTile source items ∧ Encloses (Expr.concat items).span items ∧
      items.IsChain fun e next => e.span.stop = next.span.start
  | .alternation items => AllTile source items ∧ Encloses (Expr.alternation items).span items ∧
      items.IsChain fun e next => Span.Holds ⟨e.span.stop, next.span.start⟩ source ['|']
  | .group inner span => Tiles source inner ∧
      Span.Holds ⟨span.start, inner.span.start⟩ source ['('] ∧
      Span.Holds ⟨inner.span.stop, span.stop⟩ source [')']
  | .repetition q inner span => Tiles source inner ∧ span.start = inner.span.start ∧
      Span.Holds ⟨inner.span.stop, span.stop⟩ source [q.symbol]

/-- Every part of the expressions lies in the source where its kind says. -/
def AllTile (source : List Char) : List Expr → Prop
  | [] => True
  | e :: rest => Tiles source e ∧ AllTile source rest

end

mutual

/-- The source of an expression: its literals and wildcards as they are written, and around them the
bars, parentheses and quantifiers of the tree. -/
def rebuild (source : List Char) : Expr → List Char
  | .literal _ span | .wildcard span => span.slice source
  | .concat items => rebuildAll source [] items
  | .alternation items => rebuildAll source ['|'] items
  | .group inner _ => '(' :: rebuild source inner ++ [')']
  | .repetition q inner _ => rebuild source inner ++ [q.symbol]

/-- The sources of the parts of a list, with a text between them. -/
def rebuildAll (source between : List Char) : List Expr → List Char
  | [] => []
  | [e] => rebuild source e
  | e :: next :: rest => rebuild source e ++ between ++ rebuildAll source between (next :: rest)

end

theorem allTile_iff {source : List Char} {items : List Expr} :
    AllTile source items ↔ ∀ e ∈ items, e.Tiles source := by
  induction items with
  | nil => simp only [AllTile, List.not_mem_nil, false_implies, implies_true]
  | cons e rest ih => simp only [AllTile, ih, List.forall_mem_cons]

end Expr

/-- A token of the kind is written as the text, and stands for the character, if for one. -/
inductive TokenKind.IsWritten : TokenKind → List Char → Option Char → Prop
  | pipe : IsWritten .pipe ['|'] none
  | star : IsWritten (.quantifier .zeroOrMore) ['*'] none
  | plus : IsWritten (.quantifier .oneOrMore) ['+'] none
  | question : IsWritten (.quantifier .optional) ['?'] none
  | parenOpen : IsWritten .parenOpen ['('] none
  | parenClose : IsWritten .parenClose [')'] none
  | dot : IsWritten .dot ['.'] none
  | escaped (c : Char) : IsWritten (.escaped c) ['\\', c] (some c)
  | plain {c : Char} : ¬ IsMeta c → IsWritten (.plain c) [c] (some c)

namespace Token

/-- The tokens take up the bytes from `start` to `stop`, each some of them. -/
def Fill : Nat → Nat → List Token → Prop
  | start, stop, [] => start = stop
  | start, stop, token :: rest =>
    token.span.start = start ∧ start < token.span.stop ∧ Fill token.span.stop stop rest

/-- The number of backslashes at the end of a text. -/
def trailingBackslashes (text : List Char) : Nat :=
  (text.reverse.takeWhile (· = '\\')).length

end Token

end PatternScan
