import PatternScan.Table.Basic

/-!
# Equal up to numbering

Two tables are the same automaton if their states pair up, from state zero on, with equal kinds
and paired successors. `Table.isEquivalent` walks both tables in lockstep and keeps the pairing in
both directions; states that are not reached do not matter.
-/

namespace PatternScan

/-- Which states of two tables are paired: for each state of the one, its partner in the other. -/
structure Pairing where
  forward : Array (Option Nat)
  backward : Array (Option Nat)

namespace Pairing

/-- No states are paired. -/
def empty (sizeA sizeB : Nat) : Pairing :=
  ⟨Array.replicate sizeA none, Array.replicate sizeB none⟩

/-- The number of states of the first table that have no partner. -/
def unpaired (p : Pairing) : Nat :=
  p.forward.countP Option.isNone

/-- Makes two states partners. -/
def pair (p : Pairing) (a b : Nat) : Pairing :=
  ⟨p.forward.setIfInBounds a (some b), p.backward.setIfInBounds b (some a)⟩

theorem countP_isNone_setIfInBounds_lt {xs : Array (Option Nat)} {i : Nat} (b : Nat)
    (h : xs[i]? = some none) :
    (xs.setIfInBounds i (some b)).countP Option.isNone < xs.countP Option.isNone := by
  obtain ⟨hi, hx⟩ := Array.getElem?_eq_some_iff.mp h
  have hpos : 0 < xs.countP Option.isNone :=
    Array.countP_pos_iff.mpr ⟨xs[i], Array.getElem_mem hi, by simp [hx]⟩
  rw [Array.setIfInBounds_def, dif_pos hi, Array.countP_set, hx]
  simp only [Option.isNone_none, Option.isNone_some, ↓reduceIte, Bool.false_eq_true]
  omega

theorem unpaired_pair_lt {p : Pairing} {a : Nat} (b : Nat) (h : p.forward[a]? = some none) :
    (p.pair a b).unpaired < p.unpaired :=
  countP_isNone_setIfInBounds_lt b h

end Pairing

namespace Table

/-- The pairs that a pair of successors asks for, unless one leads to acceptance alone. -/
def successorPairs? : Next → Next → Option (List (Nat × Nat))
  | .final, .final => some []
  | .state a, .state b => some [(a, b)]
  | _, _ => none

/-- The pairs that a pair of states asks for, unless the states differ. -/
def statePairs? (s s' : State) : Option (List (Nat × Nat)) :=
  if s.kind = s'.kind then do
    let firsts ← successorPairs? s.first s'.first
    let seconds ← successorPairs? s.second s'.second
    return seconds ++ firsts
  else none

/-- Looks at a pair: what is paired then, and the pairs that this one asks for. Nothing comes of it
if the states differ or one of them has another partner. -/
def pairStep? (a b : Table) (paired : Pairing) (i j : Nat) :
    Option (Pairing × List (Nat × Nat)) :=
  match paired.forward[i]?, paired.backward[j]? with
  | some (some partner), some (some partner') =>
    if partner = j ∧ partner' = i then some (paired, []) else none
  | some none, some none => do
    let more ← statePairs? (← a.get? i) (← b.get? j)
    return (paired.pair i j, more)
  | _, _ => none

/-- A pair that is looked at is either known or new. -/
theorem pairStep?_eq_some_iff {a b : Table} {paired paired' : Pairing} {i j : Nat}
    {more : List (Nat × Nat)} : pairStep? a b paired i j = some (paired', more) ↔
      (paired.forward[i]? = some (some j) ∧ paired.backward[j]? = some (some i) ∧
        paired' = paired ∧ more = []) ∨
      (paired.forward[i]? = some none ∧ paired.backward[j]? = some none ∧
        paired' = paired.pair i j ∧
        ∃ s s', a.get? i = some s ∧ b.get? j = some s' ∧ statePairs? s s' = some more) := by
  unfold pairStep?
  rcases paired.forward[i]? with _ | _ | partner <;>
    rcases paired.backward[j]? with _ | _ | partner' <;>
    simp only [reduceCtorEq, false_and, and_false, or_self, or_false, false_or, true_and,
      Option.some.injEq]
  · simp only [Option.bind_eq_bind, Option.bind_eq_some_iff, pure, Option.some.injEq,
      Prod.mk.injEq]
    constructor
    · rintro ⟨s, hs, s', hs', more, hmore, rfl, rfl⟩
      exact ⟨rfl, s, s', hs, hs', hmore⟩
    · rintro ⟨rfl, s, s', hs, hs', hmore⟩
      exact ⟨s, hs, s', hs', more, hmore, rfl, rfl⟩
  · split
    · next h => simp [h, eq_comm]
    · next h => simp_all

theorem length_statePairs?_le {s s' : State} {more : List (Nat × Nat)}
    (h : statePairs? s s' = some more) : more.length ≤ 2 := by
  have hsuccessor : ∀ {n n' : Next} {pairs : List (Nat × Nat)},
      successorPairs? n n' = some pairs → pairs.length ≤ 1 := by
    intro n n' pairs hpairs
    unfold successorPairs? at hpairs
    split at hpairs <;> cases hpairs <;> simp
  unfold statePairs? at h
  split at h
  · simp only [Option.bind_eq_bind, Option.bind_eq_some_iff, pure, Option.some.injEq] at h
    obtain ⟨firsts, hfirsts, seconds, hseconds, rfl⟩ := h
    have := hsuccessor hfirsts
    have := hsuccessor hseconds
    rw [List.length_append]
    omega
  · simp at h

/-- How many pairs are looked at, at the most: two for each state that has no partner yet, and those
that are pending. -/
def looks (paired : Pairing) (pending : List (Nat × Nat)) : Nat :=
  2 * paired.unpaired + pending.length

theorem looks_lt_of_pairStep? {a b : Table} {paired paired' : Pairing} {i j : Nat}
    {more pending : List (Nat × Nat)} (h : pairStep? a b paired i j = some (paired', more)) :
    looks paired' (more ++ pending) < looks paired ((i, j) :: pending) := by
  simp only [looks, List.length_append, List.length_cons]
  rcases pairStep?_eq_some_iff.mp h with ⟨_, _, rfl, rfl⟩ | ⟨hi, _, rfl, _, _, _, _, hmore⟩
  · simp
  · have := Pairing.unpaired_pair_lt j hi
    have := length_statePairs?_le hmore
    omega

/-- Goes through the pairs still to be looked at. -/
def pairUp (a b : Table) (paired : Pairing) : List (Nat × Nat) → Bool
  | [] => true
  | (i, j) :: pending =>
    match _step : pairStep? a b paired i j with
    | some (paired', more) => pairUp a b paired' (more ++ pending)
    | none => false
termination_by pending => looks paired pending
decreasing_by exact looks_lt_of_pairStep? _step

/-- Whether two tables are the same automaton up to the numbers of their states. -/
def isEquivalent (a b : Table) : Bool :=
  pairUp a b (.empty a.size b.size) [(0, 0)]

end Table

end PatternScan
