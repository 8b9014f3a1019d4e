import PatternScan.Table.State

/-!
# The frontier

The states to explore at the present position, the ones put off until the next character is read,
and a record of the states visited at the present position. The record holds for each state the
epoch of its last visit, so that a new epoch clears it.
-/

namespace PatternScan

/-- The stack of states to explore, its top first, the states put off, latest first, the epoch of
each state's last visit, and the present epoch. -/
structure Frontier where
  work : List Next
  deferred : List Next
  marks : Array Nat
  epoch : Nat

namespace Frontier

/-- The frontier over so many states with nothing to explore. -/
def ofSize (size : Nat) : Frontier :=
  ⟨[], [], Array.replicate size 0, 1⟩

/-- The last epoch, as marks are of 32 bits. -/
def lastEpoch : Nat := 0xFFFFFFFF

/-- Begins the next epoch; after the last one the marks are cleared for the first to come again. -/
def clearVisited (f : Frontier) : Frontier :=
  if f.epoch = lastEpoch then { f with marks := Array.replicate f.marks.size 0, epoch := 1 }
  else { f with epoch := f.epoch + 1 }

/-- Starts over with one state to explore. -/
def reset (f : Frontier) (start : Next) : Frontier :=
  { f.clearVisited with work := [start], deferred := [] }

/-- The next state to explore, and the frontier without it. -/
def pop? (f : Frontier) : Option (Next × Frontier) :=
  match f.work with
  | [] => none
  | next :: work => some (next, { f with work })

/-- Has a state explored before all others. -/
def pushNow (f : Frontier) (next : Next) : Frontier :=
  { f with work := next :: f.work }

/-- Has a state explored at the next position. -/
def defer (f : Frontier) (next : Next) : Frontier :=
  { f with deferred := next :: f.deferred }

/-- Whether a state is one of those that the frontier is over. -/
def has (f : Frontier) (id : Nat) : Bool :=
  id < f.marks.size

/-- Whether a state is yet to be visited in this epoch. -/
def isUnvisited (f : Frontier) (id : Nat) : Bool :=
  f.marks[id]?.any (· != f.epoch)

def visit (f : Frontier) (id : Nat) : Frontier :=
  { f with marks := f.marks.setIfInBounds id f.epoch }

/-- Moves on to the next position, where the states put off are explored in the order in which they
came; not if there are none. -/
def advance? (f : Frontier) : Option Frontier :=
  match f.deferred with
  | [] => none
  | deferred => some { f.clearVisited with work := deferred.reverse ++ f.work, deferred := [] }

/-- The number of states yet to be visited in this epoch. -/
def unvisited (f : Frontier) : Nat :=
  f.marks.countP (· != f.epoch)

theorem isUnvisited_iff {f : Frontier} {id : Nat} :
    f.isUnvisited id = true ↔ ∃ h : id < f.marks.size, f.marks[id] ≠ f.epoch := by
  by_cases h : id < f.marks.size <;> simp [isUnvisited, h]

theorem unvisited_visit_lt {f : Frontier} {id : Nat} (h : f.isUnvisited id = true) :
    (f.visit id).unvisited < f.unvisited := by
  obtain ⟨hid, hne⟩ := isUnvisited_iff.mp h
  have hpos : 0 < f.marks.countP (· != f.epoch) :=
    Array.countP_pos_iff.mpr ⟨f.marks[id], Array.getElem_mem hid, by simpa using hne⟩
  simp only [unvisited, visit]
  rw [Array.setIfInBounds_def, dif_pos hid, Array.countP_set]
  simp only [bne_iff_ne, ne_eq, hne, not_false_eq_true, ↓reduceIte, bne_self_eq_false,
    Bool.false_eq_true]
  omega

end Frontier

end PatternScan
