/-!
# Decimal numbers

Whole numbers as decimal digits. Reading takes any number of digits, leading zeros included, and
at most one sign.
-/

namespace PatternScan.Decimal

/-- The digits of a number, without leading zeros. -/
def digits (n : Nat) : List Char :=
  Nat.toDigits 10 n

/-- A number as digits, with a minus sign before them if it is negative. -/
def signedDigits : Int → List Char
  | .ofNat n => digits n
  | .negSucc n => '-' :: digits (n + 1)

/-- The number that one digit or more stand for. -/
def ofDigits? (cs : List Char) : Option Nat :=
  if cs ≠ [] ∧ cs.all Char.isDigit then some (Nat.ofDigitChars 10 cs 0) else none

/-- The number that digits, with or without a plus sign, stand for. -/
def unsigned? : List Char → Option Nat
  | '+' :: cs => ofDigits? cs
  | cs => ofDigits? cs

/-- The number that digits, with or without a sign, stand for. -/
def signed? : List Char → Option Int
  | '-' :: cs => (ofDigits? cs).map fun n => -(n : Int)
  | cs => (unsigned? cs).map Int.ofNat

theorem isDigit_of_mem_digits {n : Nat} {c : Char} (h : c ∈ digits n) : c.isDigit = true :=
  Nat.isDigit_of_mem_toDigits (by decide) (by decide) h

theorem not_mem_digits {c : Char} (h : c.isDigit = false) (n : Nat) : c ∉ digits n := by
  intro hc
  rw [isDigit_of_mem_digits hc] at h
  exact Bool.false_ne_true h.symm

theorem ofDigits?_digits (n : Nat) : ofDigits? (digits n) = some n := by
  have hdigits : digits n ≠ [] ∧ (digits n).all Char.isDigit = true :=
    ⟨Nat.toDigits_ne_nil, List.all_eq_true.mpr fun _ => isDigit_of_mem_digits⟩
  rw [ofDigits?, if_pos hdigits]
  exact congrArg some (Nat.ofDigitChars_toDigits (by decide) (by decide))

/-- The digits of a number begin with no sign. -/
theorem digits_ne_cons {c : Char} (h : c.isDigit = false) (n : Nat) (cs : List Char) :
    digits n ≠ c :: cs := by
  intro heq
  have hc : c.isDigit = true := isDigit_of_mem_digits (heq ▸ List.mem_cons_self)
  rw [h] at hc
  exact absurd hc Bool.false_ne_true

theorem unsigned?_digits (n : Nat) : unsigned? (digits n) = some n := by
  unfold unsigned?
  split
  · next cs h => exact absurd h (digits_ne_cons (by decide) n cs)
  · exact ofDigits?_digits n

theorem signed?_signedDigits : ∀ n : Int, signed? (signedDigits n) = some n
  | .ofNat n => by
    rw [signedDigits]
    unfold signed?
    split
    · next cs h => exact absurd h (digits_ne_cons (by decide) n cs)
    · rw [unsigned?_digits]
      rfl
  | .negSucc n => by
    rw [signedDigits, signed?, ofDigits?_digits]
    rfl

/-- Only digits and the minus sign stand in a number. -/
theorem isDigit_of_mem_signedDigits {c : Char} : ∀ {n : Int}, c ∈ signedDigits n →
    c = '-' ∨ c.isDigit = true
  | .ofNat _, h => .inr (isDigit_of_mem_digits h)
  | .negSucc _, h => (List.mem_cons.mp h).imp_right isDigit_of_mem_digits

/-- The nearest number that a double holds: 53 significant bits, ties to the even neighbour. -/
def nearestDouble (n : Nat) : Nat :=
  let unit := Nat.pow 2 (n.log2 - 52)
  let whole := n / unit
  let rest := 2 * (n % unit)
  if rest < unit ∨ (rest = unit ∧ whole % 2 = 0) then whole * unit else (whole + 1) * unit

/-- Whether the common logarithm of `n`, computed in doubles, comes out as `k` although `n` is less
than `10 ^ k`: it falls short of `k` by half a step between the doubles there, or by so little more
that the computation does not tell. The step is `2 ^ (Nat.log2 (k - 1) - 52)`, and the logarithm
falls short by `(10 ^ k - n) / (10 ^ k * 2.3026)`, where 2.3026 is the natural logarithm of ten. -/
def logRoundsUpTo (k n : Nat) : Bool :=
  let power := Nat.pow 10 k
  n < power && (power - n) * 1000 * Nat.pow 2 (53 - Nat.log2 (k - 1)) ≤ power * 2306

/-- The room for every index below `count`, in digits: one more than the whole part of the common
logarithm of the last index, both as doubles. -/
def indexWidth (count : Nat) : Nat :=
  if count ≤ 1 then 1
  else
    let last := nearestDouble (count - 1)
    let width := (digits last).length
    if logRoundsUpTo width last then width + 1 else width

/-- A number in a column of the given width, at its right end. -/
def padLeft (width n : Nat) : List Char :=
  List.replicate (width - (digits n).length) ' ' ++ digits n

end PatternScan.Decimal
