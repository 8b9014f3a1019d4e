import PatternScan.Construct.Pattern
import PatternScan.Proofs.Derivation
import PatternScan.Proofs.Layout

/-!
# The literals of a table

A state of an expression's table reads a literal only if the expression has it. No literal of a
pattern ends a line, so no state of a pattern's table reads a line feed or a carriage return.
-/

namespace PatternScan

namespace Expr

mutual

def literals : Expr → List Char
  | .literal c _ => [c]
  | .wildcard _ => []
  | .concat items | .alternation items => literalsOfAll items
  | .group inner _ | .repetition _ inner _ => literals inner

def literalsOfAll : List Expr → List Char
  | [] => []
  | e :: rest => literals e ++ literalsOfAll rest

end

mutual

theorem literals_bare : ∀ e : Expr, e.bare.literals = e.literals
  | .literal _ _ | .wildcard _ => by simp only [bare, literals]
  | .concat items | .alternation items => by simp only [bare, literals, literalsOfAll_bares items]
  | .group inner _ | .repetition _ inner _ => by simp only [bare, literals, literals_bare inner]

theorem literalsOfAll_bares : ∀ items : List Expr, literalsOfAll (bares items) = literalsOfAll items
  | [] => by simp only [bares]
  | e :: rest => by simp only [bares, literalsOfAll, literals_bare e, literalsOfAll_bares rest]

end

end Expr

theorem Derives.not_isLineBreak {depth : Nat} {k : Construct} {s : List Char} {trees : List Expr}
    (h : Derives depth k s trees) : ∀ c ∈ Expr.literalsOfAll trees, ¬ IsLineBreak c := by
  induction h with
  | plain _ hbreak | escaped hbreak =>
    simpa only [Expr.literalsOfAll, Expr.literals, List.append_nil, List.mem_singleton, forall_eq]
  | wildcard => simp [Expr.literalsOfAll, Expr.literals]
  | group _ ih | quantified _ _ ih => simpa only [Expr.literalsOfAll, Expr.literals] using ih
  | unquantified _ ih | lastFactor _ ih | oneFactor _ ih | lastTerm _ ih | oneTerm _ ih => exact ih
  | moreFactors _ _ ih ih' | moreTerms _ _ ih ih' =>
    intro c hc
    simp only [Expr.literalsOfAll, List.append_nil, List.mem_append] at ih ih' hc
    exact hc.elim (ih c) (ih' c)
  | factors _ _ ih | terms _ _ ih =>
    simpa only [Expr.literalsOfAll, Expr.literals, List.append_nil] using ih

namespace Expr

/-- Only literals from the list are read by the drafts. -/
def ReadOnly (literals : List Char) (drafts : List Draft) : Prop :=
  ∀ d ∈ drafts, ∀ c, d.kind = .literal c → c ∈ literals

variable {chars chars' : List Char} {ds ds' : List Draft}

theorem readOnly_branch (chars : List Char) (first? second? : Option Next) :
    ReadOnly chars [⟨.branch, first?, second?⟩] := by
  simp [ReadOnly]

theorem ReadOnly.append (h : ReadOnly chars ds) (h' : ReadOnly chars ds') :
    ReadOnly chars (ds ++ ds') := by
  intro d hd
  exact (List.mem_append.mp hd).elim (h d) (h' d)

theorem ReadOnly.mono (h : ReadOnly chars ds) (hsub : chars ⊆ chars') : ReadOnly chars' ds :=
  fun d hd c hc => hsub (h d hd c hc)

theorem readOnly_cascadeLayout (chars : List Char) (n : Nat) : ∀ entries : List Nat,
    ReadOnly chars (cascadeLayout n entries)
  | [] | [_] => by simp [cascadeLayout, ReadOnly]
  | first :: second :: rest => by
    rw [cascadeLayout]
    exact (readOnly_cascadeLayout chars n (second :: rest)).append (readOnly_branch _ _ _)

mutual

theorem readOnly_layout : ∀ (e : Expr) (n : Nat) (exit? : Option Next),
    ReadOnly e.literals (e.layout n exit?)
  | .literal _ _, _, _ | .wildcard _, _, _ => by simp [layout, literals, ReadOnly]
  | .concat items, n, exit? => by
    rw [layout, literals]
    exact readOnly_layoutInTurn items n exit?
  | .alternation items, n, exit? => by
    rw [layout, literals]
    exact (readOnly_layoutEach items n _).append
      ((readOnly_branch _ _ _).append (readOnly_cascadeLayout _ _ _))
  | .group inner _, n, exit? => by
    rw [layout, literals]
    exact readOnly_layout inner n exit?
  | .repetition .optional inner _, n, exit? => by
    rw [layout, literals]
    exact (readOnly_layout inner n _).append
      ((readOnly_branch _ _ _).append (readOnly_branch _ _ _))
  | .repetition .zeroOrMore inner _, n, exit? | .repetition .oneOrMore inner _, n, exit? => by
    rw [layout, literals]
    · exact (readOnly_layout inner n _).append (readOnly_branch _ _ _)
    · exact nofun

theorem readOnly_layoutInTurn : ∀ (items : List Expr) (n : Nat) (exit? : Option Next),
    ReadOnly (literalsOfAll items) (layoutInTurn n exit? items)
  | [], _, _ => by simp [layoutInTurn, ReadOnly]
  | e :: rest, n, exit? => by
    rw [layoutInTurn, literalsOfAll]
    exact ((readOnly_layout e n _).mono (List.subset_append_left _ _)).append
      ((readOnly_layoutInTurn rest _ exit?).mono (List.subset_append_right _ _))

theorem readOnly_layoutEach : ∀ (items : List Expr) (n : Nat) (exit? : Option Next),
    ReadOnly (literalsOfAll items) (layoutEach n exit? items)
  | [], _, _ => by simp [layoutEach, ReadOnly]
  | e :: rest, n, exit? => by
    rw [layoutEach, literalsOfAll]
    exact ((readOnly_layout e n exit?).mono (List.subset_append_left _ _)).append
      ((readOnly_layoutEach rest _ exit?).mono (List.subset_append_right _ _))

end

theorem readOnly_drafts (e : Expr) : ReadOnly e.literals e.drafts := by
  rw [drafts]
  exact ((readOnly_branch _ _ _).append (readOnly_layout e _ _)).append (readOnly_branch _ _ _)

end Expr

namespace Table

theorem mem_literals_of_ofExpr {e : Expr} {t : Table} (h : ofExpr e = .ok t) {s : State}
    (hs : s ∈ t.states) {c : Char} (hc : s.kind = .literal c) : c ∈ e.literals := by
  obtain ⟨-, hstates⟩ := states_of_ofExpr h
  rw [hstates, List.mem_toArray, List.mem_map] at hs
  obtain ⟨d, hd, rfl⟩ := hs
  have hkind : (d.settle (e.stateCount + 1)).kind = d.kind := by
    unfold Draft.settle
    split <;> rfl
  exact e.readOnly_drafts d hd c (hkind ▸ hc)

/-- No state of a pattern's table reads a character that ends a line. -/
theorem not_isLineBreak_of_ofPattern {source : List Char} {t : Table}
    (h : ofPattern source = .ok t) {s : State} (hs : s ∈ t.states) {c : Char}
    (hc : s.kind = .literal c) : ¬ IsLineBreak c := by
  obtain ⟨e, he, ht⟩ := ofPattern_eq_ok_iff.mp h
  have hc' := mem_literals_of_ofExpr ht hs hc
  rw [← Expr.literals_bare] at hc'
  refine (Expr.derives_of_parse he).not_isLineBreak c ?_
  simpa only [Expr.literalsOfAll, List.append_nil] using hc'

end Table

end PatternScan
