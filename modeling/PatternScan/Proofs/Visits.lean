import PatternScan.Simulate.Frontier

/-!
# Visits

A state has been visited if its mark is the present epoch. As long as no mark is later than the
epoch (`Over`, which every operation keeps), a new epoch leaves nothing visited, whatever marks
there are from before, also when the epochs begin anew.
-/

namespace PatternScan

namespace Frontier

/-- The state has been visited in this epoch. -/
def Visited (f : Frontier) (id : Nat) : Prop :=
  f.marks[id]? = some f.epoch

/-- The place is to be explored, or is a state that has been visited. -/
def Noted (f : Frontier) (n : Next) : Prop :=
  n ∈ f.work ∨ ∃ id, n = .state id ∧ f.Visited id

/-- The frontier is over so many states, and none of its marks is of a later epoch. -/
structure Over (f : Frontier) (size : Nat) : Prop where
  size_marks : f.marks.size = size
  le_epoch : ∀ id mark : Nat, f.marks[id]? = some mark → mark ≤ f.epoch

variable {f : Frontier} {size id : Nat}

theorem isUnvisited_eq_true_iff (h : f.Over size) :
    f.isUnvisited id = true ↔ id < size ∧ ¬ f.Visited id := by
  rw [isUnvisited_iff, h.size_marks.symm]
  constructor
  · rintro ⟨hid, hne⟩
    refine ⟨hid, fun hv => hne ?_⟩
    rwa [Visited, Array.getElem?_eq_getElem hid, Option.some.injEq] at hv
  · rintro ⟨hid, hv⟩
    refine ⟨hid, fun heq => hv ?_⟩
    rw [Visited, Array.getElem?_eq_getElem hid, heq]

theorem over_ofSize (size : Nat) : (ofSize size).Over size := by
  refine ⟨Array.size_replicate, fun id mark hmark => ?_⟩
  obtain ⟨_, rfl⟩ := Array.getElem?_eq_some_iff.mp hmark
  simp [ofSize]

theorem Over.of_marks {g : Frontier} (h : f.Over size) (hmarks : g.marks = f.marks)
    (hepoch : f.epoch ≤ g.epoch) : g.Over size :=
  ⟨hmarks ▸ h.size_marks,
    fun id mark hmark => Nat.le_trans (h.le_epoch id mark (hmarks ▸ hmark)) hepoch⟩

/-- No state has been visited in a new epoch. -/
theorem Over.not_visited_clearVisited (h : f.Over size) (id : Nat) :
    ¬ f.clearVisited.Visited id := by
  intro hv
  unfold Visited clearVisited at hv
  split at hv
  · rw [Array.getElem?_replicate] at hv
    split at hv <;> simp at hv
  · exact absurd (h.le_epoch id (f.epoch + 1) hv) (Nat.not_succ_le_self f.epoch)

theorem Over.clearVisited (h : f.Over size) : f.clearVisited.Over size := by
  unfold Frontier.clearVisited
  split
  · refine ⟨Array.size_replicate.trans h.size_marks, fun id mark hmark => ?_⟩
    obtain ⟨_, rfl⟩ := Array.getElem?_eq_some_iff.mp hmark
    simp
  · exact h.of_marks rfl (Nat.le_succ f.epoch)

theorem visited_visit_iff (h : f.Over size) (hid : id < size) {i : Nat} :
    (f.visit id).Visited i ↔ i = id ∨ f.Visited i := by
  have hid' : id < f.marks.size := h.size_marks.symm ▸ hid
  simp only [Visited, visit, Array.getElem?_setIfInBounds]
  by_cases hi : id = i
  · simp only [hi, ↓reduceIte, true_or, iff_true]
    rw [if_pos (hi ▸ hid')]
  · simp only [hi, ↓reduceIte, Ne.symm hi, false_or]

theorem Over.visit (h : f.Over size) (id : Nat) : (f.visit id).Over size := by
  refine ⟨Array.size_setIfInBounds.trans h.size_marks, fun i mark hmark => ?_⟩
  simp only [Frontier.visit, Array.getElem?_setIfInBounds] at hmark ⊢
  split at hmark
  · split at hmark
    · exact Nat.le_of_eq (Option.some.inj hmark).symm
    · cases hmark
  · exact h.le_epoch i mark hmark

theorem Over.reset (h : f.Over size) (start : Next) : (f.reset start).Over size :=
  h.clearVisited.of_marks rfl (Nat.le_refl _)

end Frontier

end PatternScan
