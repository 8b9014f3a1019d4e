import Mathlib.Algebra.Group.Nat.Defs
import PatternScan.Search.Searcher
import PatternScan.Text.Decimal
import PatternScan.Text.Lines

/-!
# Reading JSON text

JSON text is the tokens of one value with blanks between them. Every form in which a value can be
written is read: what the escapes of a string and the parts of a number stand for is said here apart
from the one form in which they are written.
-/

namespace PatternScan

namespace Json

/-- A value with no others in it. A number is a mantissa times a power of ten. -/
inductive Scalar
  | null
  | boolean (b : Bool)
  | number (mantissa exponent : Int)
  | string (text : List Char)
  deriving DecidableEq

inductive Value
  | scalar (s : Scalar)
  | array (items : List Value)
  | object (members : List (List Char × Value))

/-- What may have blanks before and after it: scalars, and the marks that hold values together. -/
inductive Token
  | scalar (s : Scalar)
  | mark (c : Char)
  deriving DecidableEq

mutual

def Value.tokens : Value → List Token
  | .scalar s => [.scalar s]
  | .array [] => [.mark '[', .mark ']']
  | .array (v :: rest) => .mark '[' :: v.tokens ++ laterItems rest
  | .object [] => [.mark '{', .mark '}']
  | .object ((key, v) :: rest) =>
    .mark '{' :: .scalar (.string key) :: .mark ':' :: v.tokens ++ laterMembers rest

/-- The tokens after an item of an array. -/
def laterItems : List Value → List Token
  | [] => [.mark ']']
  | v :: rest => .mark ',' :: v.tokens ++ laterItems rest

/-- The tokens after a member of an object. -/
def laterMembers : List (List Char × Value) → List Token
  | [] => [.mark '}']
  | (key, v) :: rest =>
    .mark ',' :: .scalar (.string key) :: .mark ':' :: v.tokens ++ laterMembers rest

end

def isBlank (c : Char) : Bool :=
  c = ' ' || c = '\t' || c = '\n' || c = '\r'

def isMark (c : Char) : Bool :=
  c = '[' || c = ']' || c = '{' || c = '}' || c = ':' || c = ','

/-- Whether a character belongs to the same number or name as one before it. -/
def continues (c : Char) : Bool :=
  !isBlank c && !isMark c && c != '"'

def hexValue? (c : Char) : Option Nat :=
  if '0' ≤ c ∧ c ≤ '9' then some (c.toNat - '0'.toNat)
  else if 'a' ≤ c ∧ c ≤ 'f' then some (c.toNat - 'a'.toNat + 10)
  else if 'A' ≤ c ∧ c ≤ 'F' then some (c.toNat - 'A'.toNat + 10)
  else none

/-- Four hexadecimal digits as a number, and what comes after them. -/
def unit? : List Char → Option (Nat × List Char)
  | a :: b :: c :: d :: rest => do
    let a ← hexValue? a
    let b ← hexValue? b
    let c ← hexValue? c
    let d ← hexValue? d
    some (((a * 16 + b) * 16 + c) * 16 + d, rest)
  | _ => none

/-- The character whose number is written after `\u`, and what comes after it. One past `FFFF` is
written as a pair of surrogates, which are no characters themselves. -/
def numbered? (text : List Char) : Option (Char × List Char) := do
  let (unit, rest) ← unit? text
  if 0xD800 ≤ unit ∧ unit ≤ 0xDBFF then
    match rest with
    | '\\' :: 'u' :: rest =>
      let (low, rest) ← unit? rest
      if 0xDC00 ≤ low ∧ low ≤ 0xDFFF then
        some (Char.ofNat (0x10000 + (unit - 0xD800) * 0x400 + (low - 0xDC00)), rest)
      else none
    | _ => none
  else if 0xDC00 ≤ unit ∧ unit ≤ 0xDFFF then none
  else some (Char.ofNat unit, rest)

/-- The character that one letter after a backslash stands for. -/
def escaped? : Char → Option Char
  | '"' => some '"'
  | '\\' => some '\\'
  | '/' => some '/'
  | 'b' => some '\x08'
  | 'f' => some '\x0c'
  | 'n' => some '\n'
  | 'r' => some '\r'
  | 't' => some '\t'
  | _ => none

/-- The character that an escape stands for, without its backslash, and what comes after it. -/
def escape? : List Char → Option (Char × List Char)
  | 'u' :: rest => numbered? rest
  | c :: rest => (escaped? c).map (·, rest)
  | [] => none

/-- The next character of a string, and what comes after it. -/
def char? : List Char → Option (Char × List Char)
  | [] => none
  | c :: rest =>
    if c = '\\' then escape? rest
    else if c = '"' ∨ c.toNat < 0x20 then none
    else some (c, rest)

theorem unit?_length {text rest : List Char} {n : Nat} (h : unit? text = some (n, rest)) :
    rest.length < text.length := by
  unfold unit? at h
  split at h
  · simp only [Option.bind_eq_bind, Option.bind_eq_some_iff, Option.some.injEq, Prod.mk.injEq] at h
    obtain ⟨_, _, _, _, _, _, _, _, _, rfl⟩ := h
    simp only [List.length_cons]
    omega
  · exact nomatch h

theorem numbered?_length {text rest : List Char} {c : Char} (h : numbered? text = some (c, rest)) :
    rest.length < text.length := by
  unfold numbered? at h
  simp only [Option.bind_eq_bind, Option.bind_eq_some_iff] at h
  obtain ⟨⟨unit, rest'⟩, hunit, h⟩ := h
  have hlt := unit?_length hunit
  dsimp only at h
  split at h
  · split at h
    · simp only [Option.bind_eq_some_iff] at h
      obtain ⟨⟨low, rest''⟩, hlow, h⟩ := h
      have hlt' := unit?_length hlow
      dsimp only at h
      split at h
      · obtain ⟨-, rfl⟩ := Prod.mk.inj (Option.some.inj h)
        simp only [List.length_cons] at hlt
        omega
      · exact nomatch h
    · exact nomatch h
  · split at h
    · exact nomatch h
    · obtain ⟨-, rfl⟩ := Prod.mk.inj (Option.some.inj h)
      exact hlt

theorem escape?_length {text rest : List Char} {c : Char} (h : escape? text = some (c, rest)) :
    rest.length < text.length := by
  unfold escape? at h
  split at h
  · exact Nat.lt_succ_of_lt (numbered?_length h)
  · obtain ⟨_, -, heq⟩ := Option.map_eq_some_iff.mp h
    obtain ⟨-, rfl⟩ := Prod.mk.inj heq
    exact Nat.lt_succ_self _
  · exact nomatch h

theorem char?_length {text rest : List Char} {c : Char} (h : char? text = some (c, rest)) :
    rest.length < text.length := by
  unfold char? at h
  split at h
  · exact nomatch h
  · split at h
    · exact Nat.lt_succ_of_lt (escape?_length h)
    · split at h
      · exact nomatch h
      · obtain ⟨-, rfl⟩ := Prod.mk.inj (Option.some.inj h)
        exact Nat.lt_succ_self _

/-- The characters of a string up to its closing quote, and what comes after that. -/
def stringRest? : List Char → Option (List Char × List Char)
  | '"' :: rest => some ([], rest)
  | text =>
    match _char : char? text with
    | none => none
    | some (c, rest) => (stringRest? rest).map fun (cs, after) => (c :: cs, after)
termination_by text => text.length
decreasing_by exact char?_length _char

theorem stringRest?_length {text : List Char} : ∀ {cs rest : List Char},
    stringRest? text = some (cs, rest) → rest.length < text.length := by
  fun_induction stringRest? text with
  | case1 rest =>
    intro cs after h
    obtain ⟨-, rfl⟩ := Prod.mk.inj (Option.some.inj h)
    exact Nat.lt_succ_self _
  | case2 => exact fun h => nomatch h
  | case3 text _ c rest hchar ih =>
    intro cs after h
    obtain ⟨⟨cs', after'⟩, hrest, heq⟩ := Option.map_eq_some_iff.mp h
    obtain ⟨-, rfl⟩ := Prod.mk.inj heq
    exact Nat.lt_trans (ih hrest) (char?_length hchar)

/-- The number that digits stand for that begin with no needless zero. -/
def whole? (cs : List Char) : Option Nat :=
  if cs.head? = some '0' ∧ cs ≠ ['0'] then none else Decimal.ofDigits? cs

/-- The number that digits with or without a point stand for without the point, and how many of them
come after it. -/
def significand? (cs : List Char) : Option (Nat × Nat) :=
  match cutAtFirst? '.' cs with
  | none => (whole? cs).map (·, 0)
  | some (before, after) => do
    let n ← whole? before
    let part ← Decimal.ofDigits? after
    some (n * 10 ^ after.length + part, after.length)

/-- The mantissa and the exponent of a number without a sign. -/
def magnitude? (cs : List Char) : Option (Nat × Int) :=
  match (cutAtFirst? 'e' cs).or (cutAtFirst? 'E' cs) with
  | none => (significand? cs).map fun (n, places) => (n, -places)
  | some (before, after) => do
    let (n, places) ← significand? before
    let exponent ← Decimal.signed? after
    some (n, exponent - places)

def number? : List Char → Option Scalar
  | '-' :: cs => (magnitude? cs).map fun (n, exponent) => .number (-n) exponent
  | cs => (magnitude? cs).map fun (n, exponent) => .number n exponent

/-- The number or the named value that a word stands for. -/
def word? (cs : List Char) : Option Scalar :=
  match cs with
  | ['n', 'u', 'l', 'l'] => some .null
  | ['t', 'r', 'u', 'e'] => some (.boolean true)
  | ['f', 'a', 'l', 's', 'e'] => some (.boolean false)
  | cs => number? cs

def tokens? (text : List Char) : Option (List Token) :=
  match text with
  | [] => some []
  | c :: rest =>
    if isBlank c then tokens? rest
    else if isMark c then (tokens? rest).map (.mark c :: ·)
    else if c = '"' then
      match _string : stringRest? rest with
      | none => none
      | some (cs, rest) => (tokens? rest).map (.scalar (.string cs) :: ·)
    else
      match word? (c :: rest.takeWhile continues) with
      | none => none
      | some s => (tokens? (rest.dropWhile continues)).map (.scalar s :: ·)
termination_by text.length
decreasing_by
  · exact Nat.lt_succ_self _
  · exact Nat.lt_succ_self _
  · exact Nat.lt_succ_of_lt (stringRest?_length _string)
  · exact Nat.lt_succ_of_le (List.dropWhile_suffix continues).length_le

/-- The text is that of a value. -/
def Reads (text : List Char) (v : Value) : Prop :=
  tokens? text = some v.tokens

end Json

def LineMatch.value (m : LineMatch) : Json.Value :=
  .object
    [("line_number".toList, .scalar (.number m.number 0)),
     ("start".toList, .scalar (.number m.found.start 0)),
     ("end".toList, .scalar (.number m.found.stop 0)),
     ("line".toList, .scalar (.string m.line))]

end PatternScan
