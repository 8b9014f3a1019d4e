/-!
# States

A state either reads one character of the line or, as a branch, none, and says where to go on: to
another state by its number or to acceptance.
-/

namespace PatternScan

/-- Where a state leads. -/
inductive Next
  | final
  | state (id : Nat)
  deriving DecidableEq, Repr, Inhabited

namespace Next

/-- The states are numbered by words of 32 bits. -/
def idLimit : Nat := 0x100000000

/-- The number that stands for a successor in a written table. -/
def encode : Next → Int
  | .final => -1
  | .state id => id

/-- The successor that a number stands for. -/
def decode? (n : Int) : Option Next :=
  if n = -1 then some .final
  else if 0 ≤ n ∧ n.toNat < idLimit then some (.state n.toNat)
  else none

def isFinal : Next → Bool
  | .final => true
  | .state _ => false

/-- The number of the state, unless the successor is acceptance. -/
def id? : Next → Option Nat
  | .final => none
  | .state id => some id

/-- Whether a table of so many states has the successor. -/
def Within (size : Nat) : Next → Prop
  | .final => True
  | .state id => id < size

instance (size : Nat) : ∀ n : Next, Decidable (n.Within size)
  | .final => .isTrue trivial
  | .state id => inferInstanceAs (Decidable (id < size))

theorem decode?_encode : ∀ {n : Next}, n.Within idLimit → decode? n.encode = some n
  | .final, _ => rfl
  | .state id, h => by
    have hid : 0 ≤ (id : Int) ∧ (id : Int).toNat < idLimit := ⟨Int.natCast_nonneg id, h⟩
    rw [encode, decode?, if_neg (by omega), if_pos hid, Int.toNat_natCast]

end Next

/-- What a state reads. -/
inductive StateKind
  | literal (c : Char)
  | wildcard
  | branch
  deriving DecidableEq, Repr, Inhabited

namespace StateKind

/-- Whether a state of this kind reads a character. -/
def consumes : StateKind → Bool
  | .branch => false
  | _ => true

/-- Whether a state of this kind reads the given character. -/
def accepts : StateKind → Char → Bool
  | .literal expected, c => expected = c
  | .wildcard, _ => true
  | .branch, _ => false

end StateKind

/-- A state and its two successors, the preferred one first. A state that reads a character goes on
at the first; its second is the same. -/
structure State where
  kind : StateKind
  first : Next
  second : Next
  deriving DecidableEq, Repr, Inhabited

namespace State

/-- A state that reads a character. -/
def consuming (kind : StateKind) (next : Next) : State :=
  ⟨kind, next, next⟩

/-- A state that reads nothing. -/
def branch (first second : Next) : State :=
  ⟨.branch, first, second⟩

/-- The successors in the order of preference, equal ones once. -/
def successors (s : State) : List Next :=
  if s.second = s.first then [s.first] else [s.first, s.second]

end State

end PatternScan
