import Mathlib.Logic.Equiv.Basic
import Mathlib.Logic.Relator
import Mathlib.Tactic.Choose
import PatternScan.Proofs.Walk
import PatternScan.Table.Equivalence
import PatternScan.Table.Path

/-!
# Equivalent tables

The walk through two tables succeeds just if there is a relation between their states that it cannot
contradict (`Lockstep`): one to one, with state zero belonging to state zero, and kept by the
successors. What the walk has paired at its end is such a relation (`exists_of_pairUp`), and with
one at hand no pair that it asks for is refused (`Respects.pairUp`).

A relation of this kind holds between the states that are reached, and so is a renumbering of them
(`lockstep_iff_renumbering`); it says nothing of other states.
-/

namespace PatternScan

section Paired

variable {R S : Nat → Nat → Prop}

theorem Next.paired_iff_successorPairs? {n n' : Next} : n.Paired R n' ↔
    ∃ more, Table.successorPairs? n n' = some more ∧ ∀ p ∈ more, R p.1 p.2 := by
  cases n <;> cases n' <;> simp [Next.Paired, Table.successorPairs?]

theorem State.paired_iff_statePairs? {s s' : State} : s.Paired R s' ↔
    ∃ more, Table.statePairs? s s' = some more ∧ ∀ p ∈ more, R p.1 p.2 := by
  unfold State.Paired Table.statePairs?
  rw [Next.paired_iff_successorPairs?, Next.paired_iff_successorPairs?]
  split
  · next hkind =>
    simp only [hkind, true_and, Option.bind_eq_bind, Option.bind_eq_some_iff, pure,
      Option.some.injEq]
    constructor
    · rintro ⟨⟨firsts, hfirsts, hR⟩, seconds, hseconds, hR'⟩
      refine ⟨_, ⟨firsts, hfirsts, seconds, hseconds, rfl⟩, fun p hp => ?_⟩
      exact (List.mem_append.mp hp).elim (hR' p) (hR p)
    · rintro ⟨_, ⟨firsts, hfirsts, seconds, hseconds, rfl⟩, hR⟩
      exact ⟨⟨firsts, hfirsts, fun p hp => hR p (List.mem_append_right _ hp)⟩, seconds, hseconds,
        fun p hp => hR p (List.mem_append_left _ hp)⟩
  · next hkind => simp [hkind]

theorem Next.Paired.mono {n n' : Next} (h : ∀ i j, n = .state i → R i j → S i j)
    (hn : n.Paired R n') : n.Paired S n' := by
  rcases n with _ | i <;> rcases n' with _ | j
  · trivial
  · exact hn
  · exact hn
  · exact h i j rfl hn

theorem State.Paired.mono {s s' : State} (h : ∀ i j, .state i ∈ s.successors → R i j → S i j)
    (hs : s.Paired R s') : s.Paired S s' :=
  ⟨hs.1, hs.2.1.mono fun i j hi => h i j (State.mem_successors.mpr (.inl hi.symm)),
    hs.2.2.mono fun i j hi => h i j (State.mem_successors.mpr (.inr hi.symm))⟩

theorem Next.Paired.flip : ∀ {n n' : Next}, n.Paired R n' → n'.Paired (flip R) n
  | .final, .final, _ => trivial
  | .state _, .state _, hn => hn

theorem State.Paired.flip {s s' : State} (h : s.Paired R s') : s'.Paired (flip R) s :=
  ⟨h.1.symm, h.2.1.flip, h.2.2.flip⟩

theorem Next.Paired.comp : ∀ {n n' n'' : Next}, n.Paired R n' → n'.Paired S n'' →
    n.Paired (Relation.Comp R S) n''
  | .final, .final, .final, _, _ => trivial
  | .state _, .state j, .state _, hn, hn' => ⟨j, hn, hn'⟩

theorem State.Paired.comp {s s' s'' : State} (h : s.Paired R s') (h' : s'.Paired S s'') :
    s.Paired (Relation.Comp R S) s'' :=
  ⟨h.1.trans h'.1, h.2.1.comp h'.2.1, h.2.2.comp h'.2.2⟩

theorem Next.paired_refl {n : Next} (h : ∀ i, n = .state i → R i i) : n.Paired R n := by
  rcases n with _ | i
  · trivial
  · exact h i rfl

theorem State.paired_refl {s : State} (h : ∀ i, .state i ∈ s.successors → R i i) :
    s.Paired R s :=
  ⟨rfl, Next.paired_refl fun i hi => h i (State.mem_successors.mpr (.inl hi.symm)),
    Next.paired_refl fun i hi => h i (State.mem_successors.mpr (.inr hi.symm))⟩

theorem State.Paired.exists_successor {s s' : State} (h : s.Paired R s') {n : Next}
    (hn : n ∈ s.successors) : ∃ n' ∈ s'.successors, n.Paired R n' := by
  rcases State.mem_successors.mp hn with rfl | rfl
  · exact ⟨_, State.mem_successors.mpr (.inl rfl), h.2.1⟩
  · exact ⟨_, State.mem_successors.mpr (.inr rfl), h.2.2⟩

end Paired

namespace Pairing

/-- The two states are paired. -/
def Partners (p : Pairing) (i j : Nat) : Prop :=
  p.forward[i]? = some (some j)

/-- The same pairing, seen from the other table. -/
def swap (p : Pairing) : Pairing :=
  ⟨p.backward, p.forward⟩

/-- Partners know of each other. -/
def Mutual (p : Pairing) : Prop :=
  ∀ i j, p.Partners i j ↔ p.swap.Partners j i

theorem partners_pair_iff {p : Pairing} {i : Nat} (h : p.forward[i]? = some none) (j : Nat)
    {k l : Nat} : (p.pair i j).Partners k l ↔ (k = i ∧ l = j) ∨ p.Partners k l := by
  obtain ⟨hi, -⟩ := Array.getElem?_eq_some_iff.mp h
  simp only [Partners, pair, Array.getElem?_setIfInBounds]
  by_cases hk : i = k
  · subst hk
    rw [if_pos rfl, if_pos hi, h]
    simp [eq_comm]
  · simp [hk, Ne.symm hk]

theorem mutual_empty (sizeA sizeB : Nat) : (empty sizeA sizeB).Mutual := by
  intro i j
  simp [Partners, swap, empty, Array.getElem?_replicate]

theorem not_partners_empty (sizeA sizeB i j : Nat) : ¬ (empty sizeA sizeB).Partners i j := by
  simp [Partners, empty, Array.getElem?_replicate]

theorem Mutual.pair {p : Pairing} (h : p.Mutual) {i j : Nat} (hi : p.forward[i]? = some none)
    (hj : p.backward[j]? = some none) : (p.pair i j).Mutual := by
  intro k l
  have hswap : (p.pair i j).swap = p.swap.pair j i := rfl
  have hj' : p.swap.forward[j]? = some none := hj
  rw [hswap, partners_pair_iff hi, partners_pair_iff hj', h k l, and_comm]

theorem Mutual.biUnique {p : Pairing} (h : p.Mutual) : Relator.BiUnique p.Partners := by
  constructor
  · intro i i' j hi hi'
    have hj := (h i j).mp hi
    have hj' := (h i' j).mp hi'
    simpa [Partners] using hj.symm.trans hj'
  · intro i j j' hj hj'
    simpa [Partners] using hj.symm.trans hj'

end Pairing

namespace Table

/-- The states of two tables belong to each other one to one, as far as they do, state zero to state
zero, and the states that belong to each other are the same but for the numbers. -/
structure Lockstep (a b : Table) (R : Nat → Nat → Prop) : Prop where
  zero : R 0 0
  biUnique : Relator.BiUnique R
  paired : ∀ i j, R i j → ∃ s s', a.get? i = some s ∧ b.get? j = some s' ∧ s.Paired R s'

variable {a b c : Table} {R S : Nat → Nat → Prop}

theorem Lockstep.exists_paired (h : Lockstep a b R) {i j : Nat} (hij : R i j) {s : State}
    (hs : a.get? i = some s) : ∃ s', b.get? j = some s' ∧ s.Paired R s' := by
  obtain ⟨t, s', ht, hs', hss⟩ := h.paired i j hij
  obtain rfl := Option.some.inj (hs.symm.trans ht)
  exact ⟨s', hs', hss⟩

section Walk

/-- What is paired when the walk succeeds: all that has been paired before, all that was pending,
and for each new pair what it asks for. -/
theorem exists_of_pairUp {paired : Pairing} {pending : List (Nat × Nat)}
    (h : pairUp a b paired pending = true) (hmutual : paired.Mutual) :
    ∃ final : Pairing, final.Mutual ∧ (∀ i j, paired.Partners i j → final.Partners i j) ∧
      (∀ p ∈ pending, final.Partners p.1 p.2) ∧
      ∀ i j, final.Partners i j → paired.Partners i j ∨
        ∃ s s', a.get? i = some s ∧ b.get? j = some s' ∧ s.Paired final.Partners s' := by
  -- Partners are never parted, so what a pair has asked for is still there at the end.
  fun_induction pairUp a b paired pending with
  | case1 paired => exact ⟨paired, hmutual, fun _ _ hij => hij, by simp, fun _ _ hij => .inl hij⟩
  | case2 paired i j pending paired' more hstep ih =>
    rcases pairStep?_eq_some_iff.mp hstep with ⟨hij, -, rfl, rfl⟩ |
      ⟨hi, hj, rfl, s, s', hs, hs', hmore⟩
    · obtain ⟨final, hfinal, hold, hpending, hnew⟩ := ih h hmutual
      exact ⟨final, hfinal, hold, List.forall_mem_cons.mpr ⟨hold i j hij, hpending⟩, hnew⟩
    · obtain ⟨final, hfinal, hold, hpending, hnew⟩ := ih h (hmutual.pair hi hj)
      simp only [Pairing.partners_pair_iff hi] at hold hnew
      obtain ⟨hmore', hpending⟩ := List.forall_mem_append.mp hpending
      have hij := hold i j (.inl ⟨rfl, rfl⟩)
      refine ⟨final, hfinal, fun k l hkl => hold k l (.inr hkl),
        List.forall_mem_cons.mpr ⟨hij, hpending⟩, fun k l hkl => ?_⟩
      rcases hnew k l hkl with (⟨rfl, rfl⟩ | hkl) | hkl
      · exact .inr ⟨s, s', hs, hs', State.paired_iff_statePairs?.mpr ⟨more, hmore, hmore'⟩⟩
      · exact .inl hkl
      · exact .inr hkl
  | case3 => simp at h

/-- The pairing is between the states of two tables, and only between such as belong to each
other. -/
structure Respects (a b : Table) (R : Nat → Nat → Prop) (paired : Pairing) : Prop where
  both : paired.Mutual
  size_forward : paired.forward.size = a.size
  size_backward : paired.backward.size = b.size
  related : ∀ i j, paired.Partners i j → R i j

theorem respects_empty (a b : Table) (R : Nat → Nat → Prop) :
    Respects a b R (.empty a.size b.size) :=
  ⟨Pairing.mutual_empty _ _, Array.size_replicate, Array.size_replicate,
    fun i j hij => absurd hij (Pairing.not_partners_empty _ _ i j)⟩

theorem Respects.pair {paired : Pairing} (h : Respects a b R paired) {i j : Nat} (hij : R i j)
    (hi : paired.forward[i]? = some none) (hj : paired.backward[j]? = some none) :
    Respects a b R (paired.pair i j) := by
  refine ⟨h.both.pair hi hj, ?_, ?_, fun k l hkl => ?_⟩
  · simpa [Pairing.pair] using h.size_forward
  · simpa [Pairing.pair] using h.size_backward
  · rcases (Pairing.partners_pair_iff hi j).mp hkl with ⟨rfl, rfl⟩ | hkl
    · exact hij
    · exact h.related k l hkl

/-- A partner of either of two states that belong to each other is the other one. -/
theorem Respects.exists_pairStep? {paired : Pairing} (h : Respects a b R paired)
    (hR : Lockstep a b R) {i j : Nat} (hij : R i j) :
    ∃ next, pairStep? a b paired i j = some next := by
  obtain ⟨s, s', hs, hs', hss⟩ := hR.paired i j hij
  obtain ⟨more, hmore, -⟩ := State.paired_iff_statePairs?.mp hss
  have hi : i < paired.forward.size := h.size_forward ▸ (Array.getElem?_eq_some_iff.mp hs).1
  have hj : j < paired.backward.size := h.size_backward ▸ (Array.getElem?_eq_some_iff.mp hs').1
  rcases hforward : paired.forward[i] with _ | l
  · rcases hbackward : paired.backward[j] with _ | k
    · exact ⟨_, pairStep?_eq_some_iff.mpr (.inr ⟨Array.getElem?_eq_some_iff.mpr ⟨hi, hforward⟩,
        Array.getElem?_eq_some_iff.mpr ⟨hj, hbackward⟩, rfl, s, s', hs, hs', hmore⟩)⟩
    · -- The partner of `j` can only be `i`, which has none.
      have hk : paired.Partners k j :=
        (h.both k j).mpr (Array.getElem?_eq_some_iff.mpr ⟨hj, hbackward⟩)
      obtain rfl := hR.biUnique.1 (h.related k j hk) hij
      rw [Pairing.Partners, Array.getElem?_eq_getElem hi, hforward] at hk
      exact nomatch hk
  · have hl : paired.Partners i l := Array.getElem?_eq_some_iff.mpr ⟨hi, hforward⟩
    obtain rfl := hR.biUnique.2 (h.related i l hl) hij
    exact ⟨_, pairStep?_eq_some_iff.mpr (.inl ⟨hl, (h.both i l).mp hl, rfl, rfl⟩)⟩

theorem Respects.pairUp {paired : Pairing} (h : Respects a b R paired) (hR : Lockstep a b R)
    {pending : List (Nat × Nat)} (hpending : ∀ p ∈ pending, R p.1 p.2) :
    pairUp a b paired pending = true := by
  fun_induction Table.pairUp a b paired pending with
  | case1 => rfl
  | case2 paired i j pending paired' more hstep ih =>
    obtain ⟨hij, hpending⟩ := List.forall_mem_cons.mp hpending
    rcases pairStep?_eq_some_iff.mp hstep with ⟨-, -, rfl, rfl⟩ |
      ⟨hi, hj, rfl, s, s', hs, hs', hmore⟩
    · exact ih h hpending
    · obtain ⟨t', ht', hst⟩ := hR.exists_paired hij hs
      obtain rfl := Option.some.inj (hs'.symm.trans ht')
      obtain ⟨more', hmore', hmem⟩ := State.paired_iff_statePairs?.mp hst
      obtain rfl := Option.some.inj (hmore.symm.trans hmore')
      exact ih (h.pair hij hi hj) (List.forall_mem_append.mpr ⟨hmem, hpending⟩)
  | case3 paired i j pending hstep =>
    obtain ⟨next, hnext⟩ := h.exists_pairStep? hR (List.forall_mem_cons.mp hpending).1
    exact nomatch hstep.symm.trans hnext

theorem isEquivalent_iff_lockstep : a.isEquivalent b = true ↔ ∃ R, Lockstep a b R := by
  constructor
  · intro h
    obtain ⟨final, hfinal, -, hpending, hnew⟩ := exists_of_pairUp h (Pairing.mutual_empty _ _)
    refine ⟨final.Partners, hpending (0, 0) (by simp), hfinal.biUnique, fun i j hij => ?_⟩
    exact (hnew i j hij).resolve_left (Pairing.not_partners_empty _ _ i j)
  · rintro ⟨R, hR⟩
    exact (respects_empty a b R).pairUp hR (by simpa using hR.zero)

/-- The walk, given up after so many looks. -/
def pairUpWithin (a b : Table) : Nat → Pairing → List (Nat × Nat) → Option Bool
  | _, _, [] => some true
  | 0, _, _ :: _ => none
  | limit + 1, paired, (i, j) :: pending =>
    match pairStep? a b paired i j with
    | some (paired', more) => pairUpWithin a b limit paired' (more ++ pending)
    | none => some false

theorem pairUpWithin_eq {limit : Nat} {paired : Pairing} {pending : List (Nat × Nat)}
    (h : looks paired pending ≤ limit) :
    pairUpWithin a b limit paired pending = some (pairUp a b paired pending) := by
  fun_induction pairUp a b paired pending generalizing limit with
  | case1 => simp [pairUpWithin]
  | case2 paired i j pending paired' more hstep ih =>
    have hlt : looks paired' (more ++ pending) < looks paired ((i, j) :: pending) :=
      looks_lt_of_pairStep? hstep
    obtain ⟨limit, rfl⟩ : ∃ k, limit = k + 1 := ⟨limit - 1, by omega⟩
    simp only [pairUpWithin, hstep]
    exact ih (by omega)
  | case3 paired i j pending hstep =>
    obtain ⟨limit, rfl⟩ : ∃ k, limit = k + 1 := by
      simp only [looks, List.length_cons] at h
      exact ⟨limit - 1, by omega⟩
    simp only [pairUpWithin, hstep]

theorem pairUpWithin_empty (a b : Table) : pairUpWithin a b (2 * a.size + 1)
    (.empty a.size b.size) [(0, 0)] = some (a.isEquivalent b) := by
  refine pairUpWithin_eq ?_
  simp [looks, Pairing.unpaired, Pairing.empty, Array.countP_replicate]

end Walk

section Renumbering

theorem Lockstep.exists_reached (h : Lockstep a b R) {i : Nat} (hi : a.Reachable (.state i)) :
    ∃ j, b.Reachable (.state j) ∧ R i j := by
  refine Reachable.induction (P := fun i => ∃ j, b.Reachable (.state j) ∧ R i j)
    ⟨0, b.reachable_zero, h.zero⟩ ?_ hi
  rintro i s k ⟨j, hj, hij⟩ hs hk
  obtain ⟨s', hs', hss⟩ := h.exists_paired hij hs
  obtain ⟨n, hn, hpaired⟩ := hss.exists_successor hk
  rcases n with _ | l
  · exact hpaired.elim
  · exact ⟨l, hj.successor hs' hn, hpaired⟩

theorem Lockstep.symm (h : Lockstep a b R) : Lockstep b a (flip R) := by
  refine ⟨h.zero, ⟨fun i i' j hi hi' => h.biUnique.2 hi hi', fun i j j' hj hj' =>
    h.biUnique.1 hj hj'⟩, fun j i hij => ?_⟩
  obtain ⟨s, s', hs, hs', hss⟩ := h.paired i j hij
  exact ⟨s', s, hs', hs, hss.flip⟩

theorem Lockstep.trans (h : Lockstep a b R) (h' : Lockstep b c S) :
    Lockstep a c (Relation.Comp R S) := by
  refine ⟨⟨0, h.zero, h'.zero⟩, ⟨?_, ?_⟩, ?_⟩
  · rintro i i' k ⟨j, hij, hjk⟩ ⟨j', hij', hjk'⟩
    obtain rfl := h'.biUnique.1 hjk hjk'
    exact h.biUnique.1 hij hij'
  · rintro i k k' ⟨j, hij, hjk⟩ ⟨j', hij', hjk'⟩
    obtain rfl := h.biUnique.2 hij hij'
    exact h'.biUnique.2 hjk hjk'
  · rintro i k ⟨j, hij, hjk⟩
    obtain ⟨s, s', hs, hs', hss⟩ := h.paired i j hij
    obtain ⟨s'', hs'', hss'⟩ := h'.exists_paired hjk hs'
    exact ⟨s, s'', hs, hs'', hss.comp hss'⟩

theorem lockstep_of_eq (h : ∀ i, a.Reachable (.state i) → c.get? i = a.get? i) :
    Lockstep a c (fun i j => i = j ∧ a.Reachable (.state i)) := by
  refine ⟨⟨rfl, a.reachable_zero⟩, ⟨fun i i' j hi hi' => hi.1.trans hi'.1.symm,
    fun i j j' hj hj' => hj.1.symm.trans hj'.1⟩, ?_⟩
  rintro i _ ⟨rfl, hi⟩
  obtain ⟨s, hs⟩ : ∃ s, a.get? i = some s := ⟨_, Array.getElem?_eq_getElem hi.lt_size⟩
  exact ⟨s, s, hs, (h i hi).trans hs, State.paired_refl fun k hk => ⟨rfl, hi.successor hs hk⟩⟩

theorem Lockstep.exists_renumbering (h : Lockstep a b R) :
    ∃ f : a.Reached ≃ b.Reached, IsRenumbering f := by
  have hreached : ∀ i : a.Reached, ∃ j : b.Reached, R i.1 j.1 := by
    rintro ⟨i, hi⟩
    obtain ⟨j, hj, hij⟩ := h.exists_reached hi
    exact ⟨⟨j, hj⟩, hij⟩
  choose f hf using hreached
  have hbijective : Function.Bijective f := by
    constructor
    · intro i i' hii
      exact Subtype.ext (h.biUnique.1 (hf i) (hii ▸ hf i'))
    · rintro ⟨j, hj⟩
      obtain ⟨i, hi, hij⟩ := h.symm.exists_reached hj
      exact ⟨⟨i, hi⟩, Subtype.ext (h.biUnique.2 (hf ⟨i, hi⟩) hij)⟩
  refine ⟨Equiv.ofBijective f hbijective, Subtype.ext (h.biUnique.2 (hf .zero) h.zero), ?_⟩
  intro i
  obtain ⟨s, s', hs, hs', hss⟩ := h.paired i.1 (f i).1 (hf i)
  refine ⟨s, s', hs, hs', hss.mono fun k l hk hkl => ?_⟩
  exact ⟨i.2.successor hs hk, h.biUnique.2 (hf ⟨k, _⟩) hkl⟩

theorem IsRenumbering.lockstep {f : a.Reached ≃ b.Reached} (h : IsRenumbering f) :
    Lockstep a b (fun i j => ∃ hi : a.Reachable (.state i), (f ⟨i, hi⟩).1 = j) := by
  refine ⟨⟨a.reachable_zero, congrArg Subtype.val h.zero⟩, ⟨?_, ?_⟩, ?_⟩
  · rintro i i' j ⟨hi, hij⟩ ⟨hi', hij'⟩
    exact congrArg Subtype.val (f.injective (Subtype.ext (hij.trans hij'.symm)))
  · rintro i j j' ⟨hi, rfl⟩ ⟨_, rfl⟩
    rfl
  · rintro i j ⟨hi, rfl⟩
    exact h.paired ⟨i, hi⟩

theorem lockstep_iff_renumbering :
    (∃ R, Lockstep a b R) ↔ ∃ f : a.Reached ≃ b.Reached, IsRenumbering f :=
  ⟨fun ⟨_, h⟩ => h.exists_renumbering, fun ⟨_, h⟩ => ⟨_, h.lockstep⟩⟩

end Renumbering

section Equivalence

theorem isEquivalent_of_eq (h : ∀ i, a.Reachable (.state i) → c.get? i = a.get? i) :
    a.isEquivalent c = true :=
  isEquivalent_iff_lockstep.mpr ⟨_, lockstep_of_eq h⟩

theorem isEquivalent_symm (h : a.isEquivalent b = true) : b.isEquivalent a = true := by
  obtain ⟨R, hR⟩ := isEquivalent_iff_lockstep.mp h
  exact isEquivalent_iff_lockstep.mpr ⟨_, hR.symm⟩

theorem isEquivalent_trans (h : a.isEquivalent b = true) (h' : b.isEquivalent c = true) :
    a.isEquivalent c = true := by
  obtain ⟨R, hR⟩ := isEquivalent_iff_lockstep.mp h
  obtain ⟨S, hS⟩ := isEquivalent_iff_lockstep.mp h'
  exact isEquivalent_iff_lockstep.mpr ⟨_, hR.trans hS⟩

theorem isEquivalent_congr (h : a.isEquivalent c = true) (b : Table) :
    c.isEquivalent b = a.isEquivalent b := by
  rw [Bool.eq_iff_iff]
  exact ⟨isEquivalent_trans h, isEquivalent_trans (isEquivalent_symm h)⟩

theorem isEquivalent_comm (a b : Table) : a.isEquivalent b = b.isEquivalent a := by
  rw [Bool.eq_iff_iff]
  exact ⟨isEquivalent_symm, isEquivalent_symm⟩

/-- The walk ends, after two looks for each state of the one table and one more at the most. It
succeeds just if the states that are reached in the one are those of the other under other numbers;
so this is an equivalence, and states that are not reached do not matter. -/
theorem isEquivalent_iff_renumbering (a b : Table) :
    pairUpWithin a b (2 * a.size + 1) (.empty a.size b.size) [(0, 0)] =
      some (a.isEquivalent b) ∧
    (a.isEquivalent b = true ↔ ∃ f : a.Reached ≃ b.Reached, IsRenumbering f) ∧
    a.isEquivalent a = true ∧ a.isEquivalent b = b.isEquivalent a ∧
    (∀ c, a.isEquivalent b = true → b.isEquivalent c = true → a.isEquivalent c = true) ∧
    ∀ c, (∀ i, a.Reachable (.state i) → c.get? i = a.get? i) →
      c.isEquivalent b = a.isEquivalent b ∧ b.isEquivalent c = b.isEquivalent a := by
  refine ⟨pairUpWithin_empty a b, isEquivalent_iff_lockstep.trans lockstep_iff_renumbering,
    isEquivalent_of_eq fun _ _ => rfl, isEquivalent_comm a b, fun c => isEquivalent_trans,
    fun c hc => ?_⟩
  have hcongr := isEquivalent_congr (isEquivalent_of_eq hc) b
  exact ⟨hcongr, by rw [isEquivalent_comm b, isEquivalent_comm b, hcongr]⟩

/-- A loop, the same loop with its last two states exchanged, and the loop beside a state that is
not reached; a loop that is unrolled is another table. -/
theorem isEquivalent_iff_renumbering_loop :
    let a : Table := ⟨#[.branch (.state 1) (.state 2), .consuming (.literal 'a') (.state 0),
      .branch .final .final], by decide, by decide, by decide⟩
    let b : Table := ⟨#[.branch (.state 2) (.state 1), .branch .final .final,
      .consuming (.literal 'a') (.state 0)], by decide, by decide, by decide⟩
    let c : Table := ⟨#[.branch (.state 1) (.state 2), .consuming (.literal 'a') (.state 0),
      .branch .final .final, .consuming .wildcard (.state 3)], by decide, by decide, by decide⟩
    let d : Table := ⟨#[.branch (.state 1) (.state 2), .consuming (.literal 'a') (.state 3),
      .branch .final .final, .branch (.state 1) (.state 2)], by decide, by decide, by decide⟩
    (∃ f : a.Reached ≃ b.Reached, IsRenumbering f) ∧
      (∀ i, a.Reachable (.state i) → c.get? i = a.get? i) ∧ c.isEquivalent b = true ∧
      a.isEquivalent c = true ∧ ¬ ∃ f : a.Reached ≃ d.Reached, IsRenumbering f := by
  intro a b c d
  obtain ⟨hwalk, hiff, -, -, htrans, hunreached⟩ := isEquivalent_iff_renumbering a b
  have hab : a.isEquivalent b = true := by
    rw [← Option.some.injEq, ← hwalk]
    decide
  have had : a.isEquivalent d = false := by
    rw [← Option.some.injEq, ← (isEquivalent_iff_renumbering a d).1]
    decide
  have hc : ∀ i, a.Reachable (.state i) → c.get? i = a.get? i := by
    intro i hi
    have hlt : i < 3 := hi.lt_size
    rcases i with _ | _ | _ | i
    · rfl
    · rfl
    · rfl
    · omega
  have hcb : c.isEquivalent b = true := ((hunreached c hc).1).trans hab
  refine ⟨hiff.mp hab, hc, hcb, htrans c hab ?_, ?_⟩
  · rw [(hunreached c hc).2, (isEquivalent_iff_renumbering a b).2.2.2.1.symm, hab]
  · rw [← (isEquivalent_iff_renumbering a d).2.1, had]
    exact Bool.false_ne_true

end Equivalence

end Table

end PatternScan
