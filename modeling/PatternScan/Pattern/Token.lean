import PatternScan.Pattern.Error

/-!
# Tokens

A pattern is cut into tokens, each one character or a backslash with the character after it. Every
character has a token, so that only a backslash at the very end fails.
-/

namespace PatternScan

/-- The operators that repeat an atom. -/
inductive Quantifier
  | zeroOrMore
  | oneOrMore
  | optional
  deriving DecidableEq, Repr

def Quantifier.symbol : Quantifier → Char
  | .zeroOrMore => '*'
  | .oneOrMore => '+'
  | .optional => '?'

inductive TokenKind
  | pipe
  | quantifier (q : Quantifier)
  | parenOpen
  | parenClose
  | dot
  | escaped (c : Char)
  | plain (c : Char)
  deriving DecidableEq, Repr

namespace TokenKind

/-- The token that a character other than a backslash is. -/
def ofChar (c : Char) : TokenKind :=
  if c = '|' then .pipe
  else if c = '*' then .quantifier .zeroOrMore
  else if c = '+' then .quantifier .oneOrMore
  else if c = '?' then .quantifier .optional
  else if c = '(' then .parenOpen
  else if c = ')' then .parenClose
  else if c = '.' then .dot
  else .plain c

def text : TokenKind → List Char
  | .pipe => ['|']
  | .quantifier q => [q.symbol]
  | .parenOpen => ['(']
  | .parenClose => [')']
  | .dot => ['.']
  | .escaped c => ['\\', c]
  | .plain c => [c]

/-- The character that a plain or escaped token stands for. -/
def char? : TokenKind → Option Char
  | .escaped c | .plain c => some c
  | _ => none

/-- Whether a token repeats the atom before it. -/
def isQuantifier : TokenKind → Bool
  | .quantifier _ => true
  | _ => false

end TokenKind

/-- A token and its place in the source. -/
structure Token where
  kind : TokenKind
  span : Span
  deriving DecidableEq, Repr

namespace Token

/-- The tokens of a source that begins at byte `offset`. -/
def scanFrom : Nat → List Char → Except PatternError (List Token)
  | _, [] => .ok []
  | offset, ['\\'] => .error (.ofKind .trailingBackslash ⟨offset, offset + 1⟩)
  | offset, '\\' :: c :: rest =>
    (scanFrom (offset + 1 + c.utf8Size) rest).map
      (⟨.escaped c, ⟨offset, offset + 1 + c.utf8Size⟩⟩ :: ·)
  | offset, c :: rest =>
    (scanFrom (offset + c.utf8Size) rest).map
      (⟨.ofChar c, ⟨offset, offset + c.utf8Size⟩⟩ :: ·)

def scan (source : List Char) : Except PatternError (List Token) :=
  scanFrom 0 source

end Token

end PatternScan
