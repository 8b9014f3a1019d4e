import PatternScan.Construct.Arena

/-!
# What is written into an arena

What operations on an arena come to, told without an arena: the kinds of the states they make, and
what they write into which successor, where states are known by how many were made before. At the
end a successor is the last value that was written to it.
-/

namespace PatternScan

/-- One of the two successors of a state. -/
inductive Slot
  | first (id : Nat)
  | second (id : Nat)
  deriving DecidableEq, Repr

/-- The state whose successor it is. -/
def Slot.id : Slot → Nat
  | .first id | .second id => id

/-- The successors that are filled together through a hole. -/
def Hole.slots : Hole → List Slot
  | .both id => [.first id, .second id]
  | .second id => [.second id]

theorem Hole.id_eq_of_mem_slots {hole : Hole} {slot : Slot} (h : slot ∈ hole.slots) :
    slot.id = hole.id := by
  cases hole <;> cases slot <;> simp_all [slots, Slot.id, id]

/-- A successor of the state is neither acceptance nor one of so many states. -/
def State.Dangles (size : Nat) (s : State) : Prop :=
  ¬ s.first.Within size ∨ ¬ s.second.Within size

instance (size : Nat) (s : State) : Decidable (s.Dangles size) :=
  inferInstanceAs (Decidable (¬ s.first.Within size ∨ ¬ s.second.Within size))

/-- What a slot of the state has been filled with. -/
def Draft.slot? (d : Draft) : Slot → Option Next
  | .first _ => d.first?
  | .second _ => d.second?

theorem Draft.slot?_open (kind : StateKind) (slot : Slot) :
    (⟨kind, none, none⟩ : Draft).slot? slot = none := by
  cases slot <;> rfl

namespace Hole

/-- The draft with the slots of a hole leading to where a piece is left for, open if to nowhere. -/
def leave (hole : Hole) (exit? : Option Next) (d : Draft) : Draft :=
  match hole with
  | .both _ => { d with first? := exit?, second? := exit? }
  | .second _ => { d with second? := exit? }

theorem fill_eq_leave (target : Next) : ∀ hole : Hole, hole.fill target = hole.leave (some target)
  | .both _ | .second _ => rfl

theorem kind_leave (exit? : Option Next) (d : Draft) :
    ∀ hole : Hole, (hole.leave exit? d).kind = d.kind
  | .both _ | .second _ => rfl

theorem slot?_leave {hole : Hole} {slot : Slot} (h : slot.id = hole.id)
    (exit? : Option Next) (d : Draft) : (hole.leave exit? d).slot? slot =
      if slot ∈ hole.slots then exit? else d.slot? slot := by
  cases hole <;> cases slot <;> simp_all [leave, slots, Draft.slot?, Slot.id, id]

end Hole

namespace Arena

/-- What a slot has been filled with, nothing if the arena lacks its state. -/
def slot? (a : Arena) (slot : Slot) : Option Next :=
  a.drafts[slot.id]?.bind (·.slot? slot)

/-- The kinds of the states made so far. -/
def kinds (a : Arena) : List StateKind :=
  a.drafts.toList.map Draft.kind

/-- What can be done to an arena before it is finished. -/
inductive Operation
  | consuming (kind : StateKind)
  | join
  | branch (first : Next) (second? : Option Next)
  | patch (hole : Hole) (target : Next)
  deriving DecidableEq, Repr

/-- The arena after an operation, which may not fill a hole of a state that the arena lacks. -/
def perform? (a : Arena) : Operation → Option Arena
  | .consuming kind => some (a.consuming kind).2
  | .join => some a.join.2
  | .branch first second? => some (a.branch first second?).2
  | .patch hole target => a.patch? hole target

/-- The arena after some operations in turn. -/
def performAll? (a : Arena) (ops : List Operation) : Option Arena :=
  ops.foldlM perform? a

namespace Operation

/-- The kind of the state that the operation makes, if it makes one. -/
def made? : Operation → Option StateKind
  | .consuming kind => some kind
  | .join | .branch _ _ => some .branch
  | .patch _ _ => none

/-- The number of states after the operation, if there were so many before. -/
def countAfter (count : Nat) (op : Operation) : Nat :=
  count + op.made?.toList.length

/-- What the operation writes if so many states were made before. -/
def writes (count : Nat) : Operation → List (Slot × Next)
  | .consuming _ | .join => []
  | .branch first none => [(.first count, first)]
  | .branch first (some second) => [(.first count, first), (.second count, second)]
  | .patch hole target => hole.slots.map (·, target)

/-- If the operation fills a hole, it is one of so many states. -/
def Fits (count : Nat) : Operation → Prop
  | .patch hole _ => hole.id < count
  | _ => True

instance (count : Nat) : ∀ op : Operation, Decidable (op.Fits count)
  | .patch hole _ => inferInstanceAs (Decidable (hole.id < count))
  | .consuming _ | .join | .branch _ _ => .isTrue trivial

/-- The kinds of the states that operations make. -/
def madeBy (ops : List Operation) : List StateKind :=
  ops.filterMap made?

/-- What operations write in turn if so many states were made before. -/
def writesFrom (count : Nat) : List Operation → List (Slot × Next)
  | [] => []
  | op :: rest => op.writes count ++ writesFrom (op.countAfter count) rest

/-- Each hole is filled after its state was made, if so many were made before. -/
def FitFrom (count : Nat) : List Operation → Prop
  | [] => True
  | op :: rest => op.Fits count ∧ FitFrom (op.countAfter count) rest

instance decidableFitFrom (count : Nat) : ∀ ops : List Operation, Decidable (FitFrom count ops)
  | [] => .isTrue trivial
  | op :: rest =>
    have := decidableFitFrom (op.countAfter count) rest
    inferInstanceAs (Decidable (op.Fits count ∧ FitFrom (op.countAfter count) rest))

/-- The last of the values that were written to a slot. -/
def lastWritten? (writes : List (Slot × Next)) (slot : Slot) : Option Next :=
  (writes.reverse.find? (·.1 = slot)).map Prod.snd

/-- What a slot holds after operations on an empty arena once all that is open leads to `terminal`:
the last value that was written to it, if any was. -/
def resolved (ops : List Operation) (terminal : Nat) (slot : Slot) : Next :=
  (lastWritten? (writesFrom 0 ops) slot).getD (.state terminal)

/-- The states that operations on an empty arena leave, once all that is open leads to `terminal`.
One that reads a character goes on at its first successor, whatever its second slot holds. -/
def states (ops : List Operation) (terminal : Nat) : List State :=
  (madeBy ops).mapIdx fun id kind =>
    ⟨kind, resolved ops terminal (.first id),
      resolved ops terminal (if kind.consumes then .first id else .second id)⟩

end Operation

end Arena

end PatternScan
