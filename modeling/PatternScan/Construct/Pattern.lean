import PatternScan.Construct.Closed

/-!
# From patterns to tables

The lists of an expression that is read from a pattern have parts, so the construction cannot fail
on it: a pattern has a table or an error of its own.
-/

namespace PatternScan

theorem Expr.ofExpr_ne_error {e : Expr} (h : e.HasParts) {err : ConstructionError} :
    Table.ofExpr e ≠ .error err := by
  obtain ⟨t, ht⟩ := Table.exists_ofExpr h
  rw [ht]
  exact nofun

/-- The table of an expression whose lists have parts. -/
def Expr.table (e : Expr) (h : e.HasParts) : Table :=
  match ht : Table.ofExpr e with
  | .ok t => t
  | .error _ => absurd ht (Expr.ofExpr_ne_error h)

theorem Expr.ofExpr_eq_table (e : Expr) (h : e.HasParts) : Table.ofExpr e = .ok (e.table h) := by
  unfold Expr.table
  split
  · assumption
  · next ht => exact absurd ht (Expr.ofExpr_ne_error h)

namespace Table

def ofPattern (source : List Char) : Except PatternError Table :=
  match he : Expr.parse source with
  | .error e => .error e
  | .ok e => .ok (e.table (Expr.hasParts_of_parse he))

theorem ofPattern_eq_error_iff {source : List Char} {e : PatternError} :
    ofPattern source = .error e ↔ Expr.parse source = .error e := by
  unfold ofPattern
  split
  · next he => simp only [he, Except.error.injEq]
  · next he => simp only [he, reduceCtorEq]

theorem ofPattern_eq_ok_iff {source : List Char} {t : Table} :
    ofPattern source = .ok t ↔ ∃ e, Expr.parse source = .ok e ∧ ofExpr e = .ok t := by
  unfold ofPattern
  split
  · next he => simp only [he, reduceCtorEq, false_and, exists_false]
  · next e he =>
    simp only [he, Except.ok.injEq, exists_eq_left',
      Expr.ofExpr_eq_table e (Expr.hasParts_of_parse he)]

end Table

end PatternScan
