import PatternScan.Table.Error

/-!
# Tables

An automaton as the table of its states, numbered from zero; state zero is where it starts. A table
has a state, every successor is in it, and a state that reads a character has one successor.
-/

namespace PatternScan

structure Table where
  states : Array State
  nonempty : states.size ≠ 0
  closed : ∀ s ∈ states, s.first.Within states.size ∧ s.second.Within states.size
  uniform : ∀ s ∈ states, s.kind.consumes = true → s.first = s.second

namespace Table

/-- What keeps a state from being number `id` of a table of so many states. -/
def stateFault? (size id : Nat) (s : State) : Option TableError :=
  if ¬ s.first.Within size then some (.danglingSuccessor id s.first)
  else if ¬ s.second.Within size then some (.danglingSuccessor id s.second)
  else if s.kind.consumes = true ∧ s.first ≠ s.second then some (.unequalSuccessors id)
  else none

theorem stateFault?_eq_none_iff {size id : Nat} {s : State} :
    stateFault? size id s = none ↔
      s.first.Within size ∧ s.second.Within size ∧
        (s.kind.consumes = true → s.first = s.second) := by
  unfold stateFault?
  split
  · simp_all
  · split
    · simp_all
    · split <;> simp_all

/-- What is wrong with the first state that cannot stay as it is. -/
def firstFault? (states : Array State) : Option TableError :=
  states.zipIdx.findSome? fun (s, id) => stateFault? states.size id s

theorem stateFault?_of_firstFault? {states : Array State} (h : firstFault? states = none)
    {s : State} (hs : s ∈ states) : ∃ id, stateFault? states.size id s = none := by
  obtain ⟨id, hid, rfl⟩ := Array.mem_iff_getElem.mp hs
  refine ⟨id, ?_⟩
  simp only [firstFault?, Array.findSome?_eq_none_iff] at h
  exact h (states[id], id) (Array.mem_zipIdx_iff_getElem?.mpr (by simp [hid]))

def ofStates (states : Array State) : Except TableError Table :=
  if hsize : states.size = 0 then .error .empty
  else
    match hfault : firstFault? states with
    | some e => .error e
    | none =>
      have fine := fun {s : State} (hs : s ∈ states) =>
        let ⟨_, h⟩ := stateFault?_of_firstFault? hfault hs
        stateFault?_eq_none_iff.mp h
      .ok ⟨states, hsize, fun _ hs => ⟨(fine hs).1, (fine hs).2.1⟩, fun _ hs => (fine hs).2.2⟩

/-- The states of a table make it again. -/
theorem ofStates_states (t : Table) : ofStates t.states = .ok t := by
  have hfault : firstFault? t.states = none := by
    simp only [firstFault?, Array.findSome?_eq_none_iff]
    intro (s, id) hs
    have hmem := Array.fst_mem_of_mem_zipIdx hs
    exact stateFault?_eq_none_iff.mpr
      ⟨(t.closed s hmem).1, (t.closed s hmem).2, t.uniform s hmem⟩
  unfold ofStates
  rw [dif_neg t.nonempty]
  split
  · next he => rw [hfault] at he; exact nomatch he
  · rfl

/-- States are refused if there are none, or for the first of them that is at fault. -/
theorem fault_of_ofStates {states : Array State} {e : TableError} (h : ofStates states = .error e) :
    states.size = 0 ∧ e = .empty ∨ firstFault? states = some e := by
  unfold ofStates at h
  split at h
  · next hempty => exact .inl ⟨hempty, (Except.error.inj h).symm⟩
  split at h
  · next e' hfault => exact .inr (hfault.trans (congrArg some (Except.error.inj h)))
  · cases h

/-- The number of states. -/
def size (t : Table) : Nat :=
  t.states.size

def get? (t : Table) (id : Nat) : Option State :=
  t.states[id]?

theorem ext_states {a b : Table} (h : a.states = b.states) : a = b := by
  cases a; cases b; cases h; rfl

instance : DecidableEq Table := fun a b =>
  if h : a.states = b.states then .isTrue (ext_states h)
  else .isFalse fun hab => h (hab ▸ rfl)

end Table

end PatternScan
