import PatternScan.Construct.Pattern
import PatternScan.Pattern.Grammar
import PatternScan.Proofs.Layout
import PatternScan.Proofs.Size

/-!
# Regrouping keeps the table

The layout of a sequence is that of its parts one after the other, each left for the entry of what
comes next, and a list put around some of them changes neither the entry nor the exit. So regrouped
trees are laid out alike from every number on (`Expr.Regroups.laidAlike`), and have one table, with
the same numbers (`Table.ofExpr_of_regroups`).
-/

namespace PatternScan

namespace Expr

section Lists

variable (n : Nat) (exit? : Option Next)

theorem stateCounts_append (items more : List Expr) :
    stateCounts (items ++ more) = stateCounts items + stateCounts more := by
  induction items with
  | nil => simp only [List.nil_append, stateCounts, Nat.zero_add]
  | cons e items ih => simp only [List.cons_append, stateCounts, ih, Nat.add_assoc]

theorem allHaveParts_append (items more : List Expr) :
    AllHaveParts (items ++ more) ↔ AllHaveParts items ∧ AllHaveParts more := by
  simp only [allHaveParts_iff, List.forall_mem_append]

theorem entries_append (items more : List Expr) :
    entries n (items ++ more) = entries n items ++ entries (n + stateCounts items) more := by
  induction items generalizing n with
  | nil => simp only [List.nil_append, entries, stateCounts, Nat.add_zero]
  | cons e items ih => simp only [List.cons_append, entries, stateCounts, ih, Nat.add_assoc]

theorem layoutEach_append (items more : List Expr) : layoutEach n exit? (items ++ more) =
    layoutEach n exit? items ++ layoutEach (n + stateCounts items) exit? more := by
  induction items generalizing n with
  | nil => simp only [List.nil_append, layoutEach, stateCounts, Nat.add_zero]
  | cons e items ih =>
    simp only [List.cons_append, layoutEach, stateCounts, ih, List.append_assoc, Nat.add_assoc]

theorem exitBefore_append (items more : List Expr) : exitBefore n exit? (items ++ more) =
    exitBefore n (exitBefore (n + stateCounts items) exit? more) items := by
  cases items <;>
    simp only [List.nil_append, List.cons_append, exitBefore, stateCounts, Nat.add_zero]

/-- The first of two sequences in a row is left for the second. -/
theorem layoutInTurn_append (items more : List Expr) : layoutInTurn n exit? (items ++ more) =
    layoutInTurn n (exitBefore (n + stateCounts items) exit? more) items ++
      layoutInTurn (n + stateCounts items) exit? more := by
  induction items generalizing n with
  | nil => simp only [List.nil_append, layoutInTurn, stateCounts, Nat.add_zero]
  | cons e items ih =>
    simp only [List.cons_append, layoutInTurn, stateCounts, ih, exitBefore_append,
      List.append_assoc, Nat.add_assoc]

end Lists

mutual

theorem entry_bare : ∀ (n : Nat) (e : Expr), entry n e.bare = entry n e
  | _, .literal _ _ | _, .wildcard _ => by simp only [bare, entry]
  | n, .concat items => by simp only [bare, entry, entryOfFirst_bares n items]
  | n, .alternation items => by
    simp only [bare, entry, entries_bares n items, stateCounts_bares items]
  | n, .group inner _ => by simp only [bare, entry, entry_bare n inner]
  | n, .repetition q inner _ => by
    cases q <;> simp only [bare, entry, entry_bare n inner, stateCount_bare inner]

theorem entryOfFirst_bares : ∀ (n : Nat) (items : List Expr),
    entryOfFirst n (bares items) = entryOfFirst n items
  | _, [] => by simp only [bares]
  | n, e :: _ => by simp only [bares, entryOfFirst, entry_bare n e]

theorem entries_bares : ∀ (n : Nat) (items : List Expr), entries n (bares items) = entries n items
  | _, [] => by simp only [bares]
  | n, e :: rest => by
    simp only [bares, entries, entry_bare n e, stateCount_bare e,
      entries_bares (n + e.stateCount) rest]

end

theorem exitBefore_bares (n : Nat) (exit? : Option Next) (items : List Expr) :
    exitBefore n exit? (bares items) = exitBefore n exit? items := by
  cases items with
  | nil => simp only [bares]
  | cons e _ => simp only [bares, exitBefore, entry_bare n e]

mutual

theorem layout_bare : ∀ (n : Nat) (exit? : Option Next) (e : Expr),
    layout n exit? e.bare = layout n exit? e
  | _, _, .literal _ _ | _, _, .wildcard _ => by simp only [bare, layout]
  | n, exit?, .concat items => by simp only [bare, layout, layoutInTurn_bares n exit? items]
  | n, exit?, .alternation items => by
    simp only [bare, layout, layoutEach_bares n _ items, stateCounts_bares items,
      entries_bares n items]
  | n, exit?, .group inner _ => by simp only [bare, layout, layout_bare n exit? inner]
  | n, exit?, .repetition q inner _ => by
    cases q <;> simp only [bare, layout, layout_bare n _ inner, entry_bare n inner,
      stateCount_bare inner]

theorem layoutInTurn_bares : ∀ (n : Nat) (exit? : Option Next) (items : List Expr),
    layoutInTurn n exit? (bares items) = layoutInTurn n exit? items
  | _, _, [] => by simp only [bares]
  | n, exit?, e :: rest => by
    simp only [bares, layoutInTurn, layout_bare n _ e, stateCount_bare e, exitBefore_bares,
      layoutInTurn_bares (n + e.stateCount) exit? rest]

theorem layoutEach_bares : ∀ (n : Nat) (exit? : Option Next) (items : List Expr),
    layoutEach n exit? (bares items) = layoutEach n exit? items
  | _, _, [] => by simp only [bares]
  | n, exit?, e :: rest => by
    simp only [bares, layoutEach, layout_bare n exit? e, stateCount_bare e,
      layoutEach_bares (n + e.stateCount) exit? rest]

end

mutual

theorem hasParts_bare : ∀ e : Expr, e.bare.HasParts ↔ e.HasParts
  | .literal _ _ | .wildcard _ => by simp only [bare, HasParts]
  | .concat items | .alternation items => by
    have hnil : bares items = [] ↔ items = [] := by rw [bares_eq_map, List.map_eq_nil_iff]
    simp only [bare, HasParts, allHaveParts_bares items, ne_eq, hnil]
  | .group inner _ | .repetition _ inner _ => by simp only [bare, HasParts, hasParts_bare inner]

theorem allHaveParts_bares : ∀ items : List Expr, AllHaveParts (bares items) ↔ AllHaveParts items
  | [] => by simp only [bares]
  | e :: rest => by simp only [bares, AllHaveParts, hasParts_bare e, allHaveParts_bares rest]

end

/-- Two expressions have pieces of the same states, from whatever number on and wherever they are
left for. -/
structure LaidAlike (e e' : Expr) : Prop where
  hasParts_iff : e.HasParts ↔ e'.HasParts
  stateCount_eq : e.stateCount = e'.stateCount
  entry_eq : ∀ n, entry n e = entry n e'
  layout_eq : ∀ n exit?, layout n exit? e = layout n exit? e'

namespace LaidAlike

variable {e e' e'' : Expr}

theorem symm (h : LaidAlike e e') : LaidAlike e' e :=
  ⟨h.hasParts_iff.symm, h.stateCount_eq.symm, fun n => (h.entry_eq n).symm,
    fun n exit? => (h.layout_eq n exit?).symm⟩

theorem trans (h : LaidAlike e e') (h' : LaidAlike e' e'') : LaidAlike e e'' :=
  ⟨h.hasParts_iff.trans h'.hasParts_iff, h.stateCount_eq.trans h'.stateCount_eq,
    fun n => (h.entry_eq n).trans (h'.entry_eq n),
    fun n exit? => (h.layout_eq n exit?).trans (h'.layout_eq n exit?)⟩

theorem bare (e : Expr) : LaidAlike e e.bare :=
  ⟨(hasParts_bare e).symm, (stateCount_bare e).symm, fun n => (entry_bare n e).symm,
    fun n exit? => (layout_bare n exit? e).symm⟩

theorem group (inner : Expr) (span : Span) : LaidAlike (.group inner span) inner :=
  ⟨by simp only [HasParts], by simp only [stateCount], fun n => by simp only [entry],
    fun n exit? => by simp only [layout]⟩

theorem single (e : Expr) : LaidAlike (.concat [e]) e where
  hasParts_iff := by simp [hasParts_concat]
  stateCount_eq := by simp only [stateCount, stateCounts, Nat.add_zero]
  entry_eq n := by simp only [entry, entryOfFirst]
  layout_eq n exit? := by simp only [layout, layoutInTurn, exitBefore, List.append_nil]

theorem repetition (h : LaidAlike e e') (q : Quantifier) (span : Span) :
    LaidAlike (.repetition q e span) (.repetition q e' span) where
  hasParts_iff := by simp only [HasParts, h.hasParts_iff]
  stateCount_eq := by cases q <;> simp only [stateCount, h.stateCount_eq]
  entry_eq n := by cases q <;> simp only [entry, h.entry_eq, h.stateCount_eq]
  layout_eq n exit? := by
    cases q <;> simp only [layout, h.layout_eq, h.entry_eq, h.stateCount_eq]

theorem alternation (h : LaidAlike e e') (before after : List Expr) :
    LaidAlike (.alternation (before ++ e :: after)) (.alternation (before ++ e' :: after)) where
  hasParts_iff := by simp [HasParts, allHaveParts_append, AllHaveParts, h.hasParts_iff]
  stateCount_eq := by
    simp only [stateCount, stateCounts_append, stateCounts, h.stateCount_eq, List.length_append,
      List.length_cons]
  entry_eq n := by
    simp only [entry, stateCounts_append, stateCounts, entries_append, entries, h.entry_eq,
      h.stateCount_eq]
  layout_eq n exit? := by
    simp only [layout, stateCounts_append, stateCounts, entries_append, entries, layoutEach_append,
      layoutEach, h.layout_eq, h.entry_eq, h.stateCount_eq]

theorem concat (h : LaidAlike e e') (before after : List Expr) :
    LaidAlike (.concat (before ++ e :: after)) (.concat (before ++ e' :: after)) where
  hasParts_iff := by simp [HasParts, allHaveParts_append, AllHaveParts, h.hasParts_iff]
  stateCount_eq := by
    simp only [stateCount, stateCounts_append, stateCounts, h.stateCount_eq]
  entry_eq n := by
    cases before <;> simp only [entry, List.nil_append, List.cons_append, entryOfFirst, h.entry_eq]
  layout_eq n exit? := by
    simp only [layout, layoutInTurn_append, layoutInTurn, exitBefore, h.layout_eq, h.entry_eq,
      h.stateCount_eq]

/-- A list around parts of a sequence is entered where the first of them is, and each of them is
left for what it was left for. -/
theorem splice (before : List Expr) {items : List Expr} (after : List Expr) (h : items ≠ []) :
    LaidAlike (.concat (before ++ .concat items :: after))
      (.concat (before ++ items ++ after)) := by
  obtain ⟨first, items, rfl⟩ := List.exists_cons_of_ne_nil h
  refine ⟨?_, ?_, fun n => ?_, fun n exit? => ?_⟩
  · simp [HasParts, allHaveParts_append, AllHaveParts, and_assoc]
  · simp only [stateCount, stateCounts_append, stateCounts, Nat.add_assoc]
  · cases before <;> simp only [entry, List.nil_append, List.cons_append, entryOfFirst]
  · have hparts : layoutInTurn (n + stateCounts before) exit? (.concat (first :: items) :: after) =
        layoutInTurn (n + stateCounts before) exit? (first :: items ++ after) := by
      simp only [layoutInTurn_append _ _ (first :: items), layoutInTurn_cons _ _ (.concat _),
        layout, stateCount]
    rw [layout, layout, List.append_assoc, layoutInTurn_append, layoutInTurn_append, hparts]
    simp only [List.cons_append, exitBefore, entry, entryOfFirst]

end LaidAlike

theorem Regroups.laidAlike {e e' : Expr} (h : Regroups e e') : LaidAlike e e' := by
  induction h with
  | @respan e e' hbare => exact (LaidAlike.bare e).trans (hbare ▸ (LaidAlike.bare e').symm)
  | symm _ ih => exact ih.symm
  | trans _ _ ih ih' => exact ih.trans ih'
  | group inner span => exact .group inner span
  | single e => exact .single e
  | splice before after hne => exact .splice before after hne
  | concat before after _ ih => exact ih.concat before after
  | alternation before after _ ih => exact ih.alternation before after
  | repetition q span _ ih => exact ih.repetition q span

end Expr

namespace Table

variable {e e' : Expr}

theorem ofExpr_eq_of_laidAlike (h : e.LaidAlike e') : ofExpr e = ofExpr e' := by
  by_cases hparts : e.HasParts
  · obtain ⟨t, ht, hstates⟩ := exists_ofExpr_eq_ok hparts
    obtain ⟨t', ht', hstates'⟩ := exists_ofExpr_eq_ok (h.hasParts_iff.mp hparts)
    have hdrafts : e.drafts = e'.drafts := by
      rw [Expr.drafts, Expr.drafts, h.entry_eq, h.stateCount_eq, h.layout_eq]
    have htable : t = t' := ext_states (by rw [hstates, hstates', hdrafts, h.stateCount_eq])
    rw [ht, ht', htable]
  · rw [ofExpr_eq_error hparts, ofExpr_eq_error fun h' => hparts (h.hasParts_iff.mpr h')]

/-- Regrouping an expression, at whatever depth and however often, keeps its table with all the
numbers of the states. So patterns that are read as such expressions have one table, as those have
that differ in parentheses around parts of a sequence (`Expr.Regroups.parentheses`). -/
theorem ofExpr_of_regroups (hparts : e.HasParts) (h : e.Regroups e') :
    (∃ t, ofExpr e = .ok t ∧ ofExpr e' = .ok t) ∧
    ∀ source source', Expr.parse source = .ok e → Expr.parse source' = .ok e' →
      ∃ t, ofPattern source = .ok t ∧ ofPattern source' = .ok t := by
  obtain ⟨t, ht⟩ := exists_ofExpr hparts
  have ht' : ofExpr e' = .ok t := ofExpr_eq_of_laidAlike h.laidAlike ▸ ht
  exact ⟨⟨t, ht, ht'⟩, fun source source' he he' =>
    ⟨t, ofPattern_eq_ok_iff.mpr ⟨e, he, ht⟩, ofPattern_eq_ok_iff.mpr ⟨e', he', ht'⟩⟩⟩

/-- Two pairs of parentheses in a sequence, one inside the other. -/
theorem ofExpr_of_regroups_nested : ∃ e e' t, e.HasParts ∧ e.Regroups e' ∧
    Expr.parse "x((ab)c)".toList = .ok e ∧ Expr.parse "xabc".toList = .ok e' ∧
      ofPattern "x((ab)c)".toList = .ok t ∧ ofPattern "xabc".toList = .ok t := by
  let literal (c : Char) : Expr := .literal c ⟨0, 0⟩
  let inner : Expr := .group (.concat [literal 'a', literal 'b']) ⟨0, 0⟩
  obtain ⟨e, he, hbare⟩ : ∃ e, Expr.parse "x((ab)c)".toList = .ok e ∧
      e.bare = (Expr.concat [literal 'x', .group (.concat [inner, literal 'c']) ⟨0, 0⟩]).bare :=
    ⟨_, rfl, rfl⟩
  obtain ⟨e', he', hbare'⟩ : ∃ e', Expr.parse "xabc".toList = .ok e' ∧
      e'.bare = (Expr.concat [literal 'x', literal 'a', literal 'b', literal 'c']).bare :=
    ⟨_, rfl, rfl⟩
  have houter : Expr.Regroups (.concat [literal 'x', .group (.concat [inner, literal 'c']) ⟨0, 0⟩])
      (.concat [literal 'x', inner, literal 'c']) :=
    .parentheses [literal 'x'] [] ⟨0, 0⟩ (List.cons_ne_nil inner [literal 'c'])
  have hinner : Expr.Regroups (.concat [literal 'x', inner, literal 'c'])
      (.concat [literal 'x', literal 'a', literal 'b', literal 'c']) :=
    .parentheses [literal 'x'] [literal 'c'] ⟨0, 0⟩ (List.cons_ne_nil (literal 'a') [literal 'b'])
  have hparts := Expr.hasParts_of_parse he
  have hregroups : e.Regroups e' :=
    (Expr.Regroups.respan hbare).trans (houter.trans (hinner.trans (.respan hbare'.symm)))
  obtain ⟨t, ht, ht'⟩ := (ofExpr_of_regroups hparts hregroups).2 _ _ he he'
  exact ⟨e, e', t, hparts, hregroups, he, he', ht, ht'⟩

end Table

end PatternScan
