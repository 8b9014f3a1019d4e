import PatternScan.Proofs.Equivalence
import PatternScan.Proofs.Reuse

/-!
# What equivalent tables match

A path of the one table is followed in the other, from place to place that belongs to it
(`Lockstep.exists_path`), and comes to acceptance where the other does. So equivalent tables accept
the same words, and as what a matcher comes to is settled by the words that its table accepts, they
match alike.
-/

namespace PatternScan

namespace Table

variable {a b : Table} {R : Nat → Nat → Prop}

theorem Lockstep.exists_path (h : Lockstep a b R) {n m : Next} {w : List Char}
    (hpath : Path a n w m) : ∀ {n' : Next}, n.Paired R n' →
      ∃ m', m.Paired R m' ∧ Path b n' w m' := by
  induction hpath with
  | here n => exact fun {n'} hn => ⟨n', hn, .here n'⟩
  | @pass id s n m w hs hb hmem _ ih =>
    rintro (_ | j) hn
    · exact hn.elim
    · obtain ⟨s', hs', hss⟩ := h.exists_paired hn hs
      obtain ⟨k, hk, hnk⟩ := hss.exists_successor hmem
      obtain ⟨m', hm, hpath⟩ := ih hnk
      exact ⟨m', hm, .pass hs' (hss.1.symm.trans hb) hk hpath⟩
  | @read id s c m w hs hc _ ih =>
    rintro (_ | j) hn
    · exact hn.elim
    · obtain ⟨s', hs', hss⟩ := h.exists_paired hn hs
      obtain ⟨m', hm, hpath⟩ := ih hss.2.1
      exact ⟨m', hm, .read hs' (hss.1 ▸ hc) hpath⟩

theorem Lockstep.accepts (h : Lockstep a b R) {w : List Char} (hw : a.Accepts w) :
    b.Accepts w := by
  have hzero : Next.Paired R (.state 0) (.state 0) := h.zero
  obtain ⟨m, hm, hpath⟩ := h.exists_path hw hzero
  rcases m with _ | j
  · exact hpath
  · exact hm.elim

theorem accepts_iff_of_isEquivalent (h : a.isEquivalent b = true) (w : List Char) :
    a.Accepts w ↔ b.Accepts w := by
  obtain ⟨R, hR⟩ := isEquivalent_iff_lockstep.mp h
  exact ⟨hR.accepts, hR.symm.accepts⟩

theorem spans_eq_of_isEquivalent (h : a.isEquivalent b = true) (line : List Char) :
    a.Spans line = b.Spans line := by
  funext start stop
  simp only [Spans, accepts_iff_of_isEquivalent h]

end Table

namespace Matcher

variable {a b : Table}

theorem find_new_eq_of_isEquivalent (h : a.isEquivalent b = true) (line : List Char) :
    ((new a).find line).2 = ((new b).find line).2 := by
  refine Option.ext fun found => ?_
  rw [find_new_eq_some_iff, find_new_eq_some_iff, Table.spans_eq_of_isEquivalent h]

theorem traverse_new_eq_of_isEquivalent (h : a.isEquivalent b = true) (line : List Char)
    (start : Nat) : ((new a).traverse line start).2 = ((new b).traverse line start).2 := by
  refine Option.ext fun stop => ?_
  rw [traverse_new_eq_some_iff, traverse_new_eq_some_iff, Table.spans_eq_of_isEquivalent h]

/-- Matchers of equivalent tables, new ones and used ones, find the same in every line, and come to
the same position from every start. -/
theorem find_traverse_of_isEquivalent (h : a.isEquivalent b = true) {m n : Matcher}
    (hm : m.Built a) (hn : n.Built b) (line : List Char) :
    (m.find line).2 = (n.find line).2 ∧
      ∀ start, (m.traverse line start).2 = (n.traverse line start).2 := by
  obtain ⟨hmready, rfl⟩ := hm.ready
  obtain ⟨hnready, rfl⟩ := hn.ready
  refine ⟨?_, fun start => ?_⟩
  · rw [hmready.find_eq, hnready.find_eq, find_new_eq_of_isEquivalent h]
  · have hmnew := hmready.traverseAt_eq (fun _ _ => ()) (ready_new m.table) rfl () start
      (line.drop start)
    have hnnew := hnready.traverseAt_eq (fun _ _ => ()) (ready_new n.table) rfl () start
      (line.drop start)
    calc (m.traverse line start).2
        = ((new m.table).traverse line start).2 := hmnew.2
      _ = ((new n.table).traverse line start).2 := traverse_new_eq_of_isEquivalent h line start
      _ = (n.traverse line start).2 := hnnew.2.symm

/-- A loop, and the same loop with other numbers and a state more, in a matcher that has been
used. -/
theorem find_traverse_of_isEquivalent_loop :
    let a : Table := ⟨#[.branch (.state 1) (.state 2), .consuming (.literal 'a') (.state 0),
      .branch .final .final], by decide, by decide, by decide⟩
    let b : Table := ⟨#[.branch (.state 3) (.state 1), .branch .final .final,
      .consuming .wildcard .final, .consuming (.literal 'a') (.state 0)],
      by decide, by decide, by decide⟩
    let n := ((new b).traverse ['a'] 0).1
    a.isEquivalent b = true ∧ ((new a).find ['b', 'a']).2 = (n.find ['b', 'a']).2 ∧
      ((new a).traverse ['b', 'a'] 7).2 = (n.traverse ['b', 'a'] 7).2 := by
  intro a b n
  have hab : a.isEquivalent b = true := by
    rw [← Option.some.injEq, ← Table.pairUpWithin_empty a b]
    decide
  obtain ⟨hfind, htraverse⟩ := find_traverse_of_isEquivalent hab .new
    (.traverse .new (fun _ _ => ()) () ['a'] 0) ['b', 'a']
  exact ⟨hab, hfind, htraverse 7⟩

end Matcher

end PatternScan
