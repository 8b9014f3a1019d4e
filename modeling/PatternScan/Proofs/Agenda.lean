import PatternScan.Proofs.Visits
import PatternScan.Simulate.Agenda

/-!
# Frontiers keep agendas

A frontier stands for an agenda (`Frontier.Keeps`): its stack is the same, what it has put off is
the queue turned round, and the marks of the present epoch are the set. An operation is answered
alike by both, and leaves the one standing for the other (`Keeps.perform`). Marks of earlier epochs
stay where they are and are never taken for visits, also when the epochs have begun anew, so there
is no limit to the number of operations.
-/

namespace PatternScan

namespace Frontier

/-- The frontier over so many states stands for the agenda. -/
structure Keeps (size : Nat) (f : Frontier) (a : Agenda) : Prop where
  marks : f.Over size
  stack : f.work = a.stack
  queue : f.deferred.reverse = a.queue
  visited : ∀ id, f.Visited id ↔ id ∈ a.visited

variable {f : Frontier} {a : Agenda} {size id : Nat}

theorem keeps_ofSize (size : Nat) : (ofSize size).Keeps size .empty := by
  refine ⟨over_ofSize size, rfl, rfl, fun id => ?_⟩
  refine iff_of_false (fun hv => ?_) (Finset.notMem_empty id)
  -- the first epoch is 1, and all marks are 0
  obtain ⟨_, hmark⟩ := Array.getElem?_eq_some_iff.mp hv
  simp [ofSize] at hmark

/-- The visits do not depend on what is left to explore. -/
theorem Keeps.withPlaces (h : f.Keeps size a) (work deferred : List Next) :
    Keeps size { f with work, deferred } { a with stack := work, queue := deferred.reverse } :=
  ⟨h.marks.of_marks rfl (Nat.le_refl _), rfl, rfl, h.visited⟩

/-- In a new epoch nothing has been visited, whatever marks there are. -/
theorem Over.keeps_clearVisited (h : f.Over size) (work deferred : List Next) :
    Keeps size { f.clearVisited with work, deferred } ⟨work, deferred.reverse, ∅⟩ :=
  ⟨h.clearVisited.of_marks rfl (Nat.le_refl _), rfl, rfl,
    fun id => iff_of_false (h.not_visited_clearVisited id) (Finset.notMem_empty id)⟩

theorem Keeps.isUnvisited_eq (h : f.Keeps size a) (hid : id < size) :
    f.isUnvisited id = decide (id ∉ a.visited) := by
  rw [Bool.eq_iff_iff, isUnvisited_eq_true_iff h.marks, h.visited id, decide_eq_true_iff,
    and_iff_right hid]

theorem Keeps.visit (h : f.Keeps size a) (hid : id < size) :
    (f.visit id).Keeps size { a with visited := insert id a.visited } := by
  refine ⟨h.marks.visit id, h.stack, h.queue, fun i => ?_⟩
  rw [visited_visit_iff h.marks hid, h.visited i, Finset.mem_insert]

/-- A first visit is told from a later one, and is a visit from then on. -/
theorem Keeps.perform_visit (h : f.Keeps size a) (hid : id < size) :
    (f.perform (.visit id)).1 = (a.perform (.visit id)).1 ∧
      (f.perform (.visit id)).2.Keeps size (a.perform (.visit id)).2 := by
  have hun := h.isUnvisited_eq hid
  by_cases hmem : id ∈ a.visited
  · simp only [perform, Agenda.perform, hun, hmem, not_true_eq_false, decide_false,
      Bool.false_eq_true, ↓reduceIte, Finset.insert_eq_of_mem, true_and]
    exact h
  · simp only [perform, Agenda.perform, hun, hmem, not_false_eq_true, decide_true, ↓reduceIte,
      true_and]
    exact h.visit hid

/-- A move puts what was deferred onto the empty stack, the first of it on top. -/
theorem Keeps.perform_advance (h : f.Keeps size a) (hop : a.stack = [] ∨ a.queue = []) :
    (f.perform .advance).1 = (a.perform .advance).1 ∧
      (f.perform .advance).2.Keeps size (a.perform .advance).2 := by
  rcases hdeferred : f.deferred with _ | ⟨last, others⟩
  · have hqueue : a.queue = [] := by rw [← h.queue, hdeferred, List.reverse_nil]
    simp only [perform, advance?, hdeferred, Agenda.perform, hqueue, ↓reduceIte, true_and]
    exact h
  · have hqueue : a.queue ≠ [] := by simp [← h.queue, hdeferred]
    have hwork : f.work = [] := h.stack.trans (hop.resolve_right hqueue)
    simp only [perform, advance?, hdeferred, Agenda.perform, hqueue, ↓reduceIte, true_and]
    rw [hwork, List.append_nil, ← hdeferred, h.queue]
    exact h.marks.keeps_clearVisited a.queue []

/-- An operation is answered as the agenda has it, and the frontier stands for the agenda again. -/
theorem Keeps.perform (h : f.Keeps size a) {op : Operation} (hop : a.Allows size op) :
    (f.perform op).1 = (a.perform op).1 ∧ (f.perform op).2.Keeps size (a.perform op).2 := by
  obtain ⟨stack, queue, visited⟩ := a
  obtain rfl : f.work = stack := h.stack
  obtain rfl : f.deferred.reverse = queue := h.queue
  cases op with
  | reset start => exact ⟨rfl, h.marks.keeps_clearVisited [start] []⟩
  | push next => exact ⟨rfl, h.withPlaces (next :: f.work) f.deferred⟩
  | defer next =>
    have hafter := h.withPlaces f.work (next :: f.deferred)
    rw [List.reverse_cons] at hafter
    exact ⟨rfl, hafter⟩
  | pop =>
    rcases hwork : f.work with _ | ⟨top, below⟩
    · simp only [Frontier.perform, pop?, Agenda.perform, hwork, List.head?_nil, List.tail_nil,
        true_and]
      simpa only [hwork] using h
    · simp only [Frontier.perform, pop?, Agenda.perform, hwork, List.head?_cons, List.tail_cons,
        true_and]
      exact h.withPlaces below f.deferred
  | visit id => exact h.perform_visit hop
  | advance => exact h.perform_advance hop
  | countDeferred => exact ⟨by simp [Frontier.perform, Agenda.perform], h⟩

theorem Keeps.performAll (h : f.Keeps size a) {ops : List Operation}
    (hops : a.AllowsAll size ops) :
    (Frontier.performAll Frontier.perform f ops).1 =
        (Frontier.performAll Agenda.perform a ops).1 ∧
      (Frontier.performAll Frontier.perform f ops).2.Keeps size
        (Frontier.performAll Agenda.perform a ops).2 := by
  induction ops generalizing f a with
  | nil => exact ⟨rfl, h⟩
  | cons op ops ih =>
    obtain ⟨hop, hrest⟩ := hops
    obtain ⟨hanswer, hafter⟩ := h.perform hop
    obtain ⟨hanswers, hlast⟩ := ih hafter hrest
    exact ⟨congrArg₂ List.cons hanswer hanswers, hlast⟩

/-- Whatever operations are asked of a new frontier in turn, with no visit to a state that there is
not and no move while places are both left to explore and put off, it answers as an agenda does
that starts out empty, and stands for that agenda in the end. -/
theorem performAll_as_agenda {size : Nat} {ops : List Operation}
    (h : Agenda.empty.AllowsAll size ops) :
    (performAll perform (ofSize size) ops).1 = (performAll Agenda.perform .empty ops).1 ∧
      (performAll perform (ofSize size) ops).2.Keeps size
        (performAll Agenda.perform .empty ops).2 :=
  (keeps_ofSize size).performAll h

/-- Visits at three positions: the marks of the first two are there at the third. -/
theorem performAll_as_agenda_stale_marks :
    let ops : List Operation := [.reset (.state 0), .visit 0, .visit 0, .visit 1, .pop, .advance,
      .defer (.state 2), .defer .final, .countDeferred, .advance, .visit 0, .push (.state 1), .pop,
      .pop, .pop, .pop, .reset (.state 1), .visit 1, .visit 0, .visit 1, .pop, .pop]
    Agenda.empty.AllowsAll 3 ops ∧ (performAll perform (ofSize 3) ops).1 =
      [.nothing, .outcome true, .outcome false, .outcome true, .next (some (.state 0)),
        .outcome false, .nothing, .nothing, .count 2, .outcome true, .outcome true, .nothing,
        .next (some (.state 1)), .next (some (.state 2)), .next (some .final), .next none, .nothing,
        .outcome true, .outcome true, .outcome false, .next (some (.state 1)), .next none] := by
  intro ops
  have h : Agenda.empty.AllowsAll 3 ops := by decide
  exact ⟨h, (performAll_as_agenda h).1.trans (by decide)⟩

end Frontier

end PatternScan
