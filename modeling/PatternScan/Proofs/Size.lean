import PatternScan.Construct.Pattern
import PatternScan.Proofs.Derivation
import PatternScan.Proofs.Layout

/-!
# The size of a table

The table of an expression has the states of its piece, a start and an end. A pattern has at most
two states for each of its characters and one more (`Table.size_le_of_ofPattern`), so they can be
numbered unless the pattern is longer than any command line.
-/

namespace PatternScan

namespace Expr

mutual

theorem stateCount_bare : ∀ e : Expr, e.bare.stateCount = e.stateCount
  | .literal _ _ | .wildcard _ => by simp only [bare, stateCount]
  | .concat items => by simp only [bare, stateCount, stateCounts_bares items]
  | .alternation items => by
    have hlength : (bares items).length = items.length := by rw [bares_eq_map, List.length_map]
    simp only [bare, stateCount, stateCounts_bares items, hlength]
  | .group inner _ => by simp only [bare, stateCount, stateCount_bare inner]
  | .repetition q inner _ => by
    cases q <;> simp only [bare, stateCount, stateCount_bare inner]

theorem stateCounts_bares : ∀ items : List Expr, stateCounts (bares items) = stateCounts items
  | [] => by simp only [bares]
  | e :: rest => by simp only [bares, stateCounts, stateCount_bare e, stateCounts_bares rest]

end

theorem length_drafts {e : Expr} (h : e.HasParts) : e.drafts.length = e.stateCount + 2 := by
  rw [drafts, List.length_append, List.length_cons, length_layout e h, List.length_singleton]

end Expr

/-- The trees of a construct have at most two states for each of its characters, and one less for
each tree. The bars between terms pay for the states where these part and join. -/
theorem Derives.stateCounts_le {depth : Nat} {k : Construct} {s : List Char} {trees : List Expr}
    (h : Derives depth k s trees) : Expr.stateCounts trees + trees.length ≤ 2 * s.length ∧
      (k = .terms → Expr.stateCounts trees + 3 * trees.length ≤ 2 * s.length + 2) := by
  induction h with
  | plain | escaped | wildcard => simp [Expr.stateCounts, Expr.stateCount]
  | group _ ih =>
    simp only [Expr.stateCounts, Expr.stateCount, List.length_cons, List.length_append] at ih ⊢
    exact ⟨by omega, nofun⟩
  | quantified q _ ih =>
    cases q <;>
      simp only [Expr.stateCounts, Expr.stateCount, List.length_cons, List.length_append,
        List.length_nil] at ih ⊢ <;>
      exact ⟨by omega, nofun⟩
  | unquantified _ ih | oneFactor _ ih | lastFactor _ ih | oneTerm _ ih => exact ⟨ih.1, nofun⟩
  | lastTerm _ ih =>
    simp only [List.length_singleton] at ih ⊢
    exact ⟨ih.1, fun _ => by omega⟩
  | moreFactors _ _ ih ih' =>
    simp only [Expr.stateCounts, List.length_cons, List.length_append, List.length_nil] at ih ih' ⊢
    exact ⟨by omega, nofun⟩
  | moreTerms _ _ ih ih' =>
    have hterms := ih'.2 rfl
    simp only [Expr.stateCounts, List.length_cons, List.length_append, List.length_nil] at ih ih' ⊢
    exact ⟨by omega, fun _ => by omega⟩
  | factors _ htwo ih =>
    simp only [Expr.stateCounts, Expr.stateCount, List.length_singleton]
    exact ⟨by omega, nofun⟩
  | terms _ htwo ih =>
    have hterms := ih.2 rfl
    simp only [Expr.stateCounts, Expr.stateCount, List.length_singleton]
    exact ⟨by omega, nofun⟩

namespace Table

variable {t : Table}

theorem size_of_ofExpr {e : Expr} (h : ofExpr e = .ok t) : t.size = e.stateCount + 2 := by
  obtain ⟨hparts, hstates⟩ := states_of_ofExpr h
  rw [size, hstates, List.size_toArray, List.length_map, Expr.length_drafts hparts]

theorem size_le_of_ofPattern {source : List Char} (h : ofPattern source = .ok t) :
    t.size ≤ 2 * source.length + 1 := by
  obtain ⟨e, he, ht⟩ := ofPattern_eq_ok_iff.mp h
  obtain ⟨hcount, -⟩ := (Expr.derives_of_parse he).stateCounts_le
  simp only [Expr.stateCounts, Expr.stateCount_bare, List.length_singleton] at hcount
  rw [size_of_ofExpr ht]
  omega

end Table

end PatternScan
