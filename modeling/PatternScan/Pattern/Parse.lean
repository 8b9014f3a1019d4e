import PatternScan.Pattern.Expr
import PatternScan.Text.Utf8

/-!
# Reading a pattern

A pattern is terms between `|`, a term is factors in a row, a factor is an atom with at most one
quantifier, and an atom is a literal, a wildcard or a group around a pattern. Reading goes through
the tokens once, with a level for the pattern and one for each group that is open, and stops at
the first token that no valid pattern can have there.
-/

namespace PatternScan

namespace Expr

/-- How many groups may be open inside each other. -/
def maxNesting : Nat := 256

/-- The only part, or the parts as a list by `wrap`. -/
def ofParts (wrap : List Expr → Expr) : List Expr → Expr
  | [e] => e
  | parts => wrap parts

/-- An expression with a quantifier after it; one that has a quantifier takes no second. -/
def quantify? (q : Quantifier) (stop : Nat) : Expr → Option Expr
  | .repetition _ _ _ => none
  | e => some (.repetition q e ⟨e.start, stop⟩)

end Expr

/-- What has been read of the pattern, or of an open group, on its own level: the terms that are
complete and the factors of the present one, both latest first, and the `|` before it. -/
structure Level where
  terms : List Expr
  pipe? : Option Span
  factors : List Expr

namespace Level

/-- A level of which nothing has been read. -/
def empty : Level :=
  ⟨[], none, []⟩

/-- Another factor of the present term. -/
def push (l : Level) (factor : Expr) : Level :=
  { l with factors := factor :: l.factors }

def term (l : Level) : Expr :=
  .ofParts .concat l.factors.reverse

/-- Completes the present term at a `|`. -/
def startTerm (l : Level) (pipe : Span) : Level :=
  ⟨l.term :: l.terms, some pipe, []⟩

def expression (l : Level) : Expr :=
  .ofParts .alternation (l.term :: l.terms).reverse

end Level

/-- A pattern while it is read: the innermost level and, from the inside out, the `(` of each open
group with the level around it. -/
structure Reading where
  level : Level
  outer : List (Span × Level)

namespace Reading

def start : Reading :=
  ⟨.empty, []⟩

/-- Another factor on the innermost level. -/
def push (r : Reading) (factor : Expr) : Reading :=
  { r with level := r.level.push factor }

/-- Reads a character that stands for itself. No line holds a line break. -/
def literal (r : Reading) (c : Char) (span : Span) : Except PatternError Reading :=
  if c = '\n' ∨ c = '\r' then .error (.ofKind .lineBreak span)
  else .ok (r.push (.literal c span))

/-- Reads a quantifier, which repeats the atom just before it. -/
def quantify (r : Reading) (q : Quantifier) (span : Span) : Except PatternError Reading :=
  match r.level.factors with
  | [] => .error (.nothingToRepeat q.symbol span)
  | factor :: before =>
    match factor.quantify? q span.stop with
    | none => .error (.nothingToRepeat q.symbol span)
    | some repeated => .ok { r with level := { r.level with factors := repeated :: before } }

def openGroup (r : Reading) (span : Span) : Except PatternError Reading :=
  if r.outer.length < Expr.maxNesting then .ok ⟨.empty, (span, r.level) :: r.outer⟩
  else .error (.nestedPast Expr.maxNesting span)

/-- Reads a `|`. Of two in a row the first is the one with an empty side. -/
def alternative (r : Reading) (span : Span) : Except PatternError Reading :=
  if r.level.factors.isEmpty then .error (.ofKind .emptyAlternative (r.level.pipe?.getD span))
  else .ok { r with level := r.level.startTerm span }

def closeGroup (r : Reading) (span : Span) : Except PatternError Reading :=
  match r.outer with
  | [] => .error (.ofKind .unmatchedCloseParen span)
  | (opening, around) :: outer =>
    if r.level.factors.isEmpty then
      match r.level.pipe? with
      | some pipe => .error (.ofKind .emptyAlternative pipe)
      | none => .error (.ofKind .emptyGroup (opening.through span))
    else .ok ⟨around.push (.group r.level.expression (opening.through span)), outer⟩

def step (r : Reading) (token : Token) : Except PatternError Reading :=
  match token.kind with
  | .plain c | .escaped c => r.literal c token.span
  | .dot => .ok (r.push (.wildcard token.span))
  | .quantifier q => r.quantify q token.span
  | .parenOpen => r.openGroup token.span
  | .parenClose => r.closeGroup token.span
  | .pipe => r.alternative token.span

/-- The expression that has been read when the source, of so many bytes, is at its end. -/
def finish (r : Reading) (sourceEnd : Nat) : Except PatternError Expr :=
  match r.level.factors.isEmpty, r.level.pipe?, r.outer with
  | true, some pipe, _ => .error (.ofKind .emptyAlternative pipe)
  | _, _, (opening, _) :: _ => .error (.unclosedGroup opening sourceEnd)
  | true, none, [] => .error (.ofKind .emptyPattern ⟨0, 0⟩)
  | false, _, [] => .ok r.level.expression

section Inversion

variable {r r' : Reading} {span : Span}

theorem literal_eq_ok_iff {c : Char} : r.literal c span = .ok r' ↔
    ¬ (c = '\n' ∨ c = '\r') ∧ r.push (.literal c span) = r' := by
  unfold Reading.literal
  split
  · next h => simp only [reduceCtorEq, h, not_true, false_and]
  · next h => simp only [Except.ok.injEq, h, not_false_eq_true, true_and]

theorem quantify_eq_ok_iff {q : Quantifier} : r.quantify q span = .ok r' ↔
    ∃ factor before repeated, r.level.factors = factor :: before ∧
      factor.quantify? q span.stop = some repeated ∧
      { r with level := { r.level with factors := repeated :: before } } = r' := by
  unfold Reading.quantify
  split
  · next h => simp [h]
  · next factor before h =>
    split
    · next hq => simp [h, hq]
    · next repeated hq =>
      rw [Except.ok.injEq]
      constructor
      · exact fun hr => ⟨factor, before, repeated, h, hq, hr⟩
      · rintro ⟨_, _, _, h', hq', hr⟩
        obtain ⟨rfl, rfl⟩ := List.cons.inj (h.symm.trans h')
        rwa [Option.some.inj (hq.symm.trans hq')]

theorem openGroup_eq_ok_iff : r.openGroup span = .ok r' ↔
    r.outer.length < Expr.maxNesting ∧ ⟨.empty, (span, r.level) :: r.outer⟩ = r' := by
  unfold Reading.openGroup
  split
  · next h => simp only [Except.ok.injEq, h, true_and]
  · next h => simp only [reduceCtorEq, h, false_and]

theorem alternative_eq_ok_iff : r.alternative span = .ok r' ↔
    r.level.factors ≠ [] ∧ { r with level := r.level.startTerm span } = r' := by
  unfold Reading.alternative
  split
  · next h => simp [List.isEmpty_iff.mp h]
  · next h => simp [show r.level.factors ≠ [] by simpa using h]

theorem closeGroup_eq_ok_iff : r.closeGroup span = .ok r' ↔ ∃ opening around outer,
    r.outer = (opening, around) :: outer ∧ r.level.factors ≠ [] ∧
      ⟨around.push (.group r.level.expression (opening.through span)), outer⟩ = r' := by
  unfold Reading.closeGroup
  split
  · next h => simp [h]
  · next opening around outer h =>
    split
    · next hempty => split <;> simp [List.isEmpty_iff.mp hempty]
    · next hempty =>
      rw [Except.ok.injEq]
      constructor
      · exact fun hr => ⟨opening, around, outer, h, by simpa using hempty, hr⟩
      · rintro ⟨_, _, _, h', -, hr⟩
        obtain ⟨heq, rfl⟩ := List.cons.inj (h.symm.trans h')
        obtain ⟨rfl, rfl⟩ := Prod.mk.inj heq
        exact hr

theorem finish_eq_ok_iff {sourceEnd : Nat} {e : Expr} : r.finish sourceEnd = .ok e ↔
    r.outer = [] ∧ r.level.factors ≠ [] ∧ r.level.expression = e := by
  unfold Reading.finish
  split <;> simp_all

end Inversion

/-- What every token keeps holds of all that has been read. -/
theorem foldlM_step_induction {P : List Token → Reading → Prop}
    (hstep : ∀ {before : List Token} {token : Token} {r r' : Reading}, P before r →
      r.step token = .ok r' → P (before ++ [token]) r') :
    ∀ (before : List Token) {tokens : List Token} {r r' : Reading}, P before r →
      tokens.foldlM step r = .ok r' → P (before ++ tokens) r'
  | before, [], r, r', h, hr => by
    obtain rfl := Except.ok.inj hr
    rwa [List.append_nil]
  | before, token :: tokens, r, r', h, hr => by
    rw [List.foldlM_cons] at hr
    rcases htoken : r.step token with err | next
    · rw [htoken] at hr
      cases hr
    · rw [htoken] at hr
      rw [List.append_cons]
      exact foldlM_step_induction hstep (before ++ [token]) (hstep h htoken) hr

end Reading

/-- Reads the tokens of a source of so many bytes. -/
def Expr.ofTokens (tokens : List Token) (sourceEnd : Nat) : Except PatternError Expr := do
  let read ← tokens.foldlM Reading.step .start
  read.finish sourceEnd

def Expr.parse (source : List Char) : Except PatternError Expr := do
  let tokens ← Token.scan source
  Expr.ofTokens tokens (Utf8.byteLength source)

theorem Expr.parse_eq_ok_iff {source : List Char} {e : Expr} : Expr.parse source = .ok e ↔
    ∃ tokens r, Token.scan source = .ok tokens ∧ tokens.foldlM Reading.step .start = .ok r ∧
      r.finish (Utf8.byteLength source) = .ok e := by
  unfold Expr.parse Expr.ofTokens
  rcases Token.scan source with err | tokens
  · simp [bind, Except.bind]
  · rcases hfold : tokens.foldlM Reading.step .start with err | r
    · simp [bind, Except.bind, hfold]
    · simp [bind, Except.bind, hfold]

end PatternScan
