import PatternScan.Pattern.Parse

/-!
# Expressions whose lists have parts

Only an expression in which no list of parts is empty has a table. Every expression that is read
from a pattern is one (`hasParts_of_parse`): a level that is closed has a factor, and a term that is
completed too.
-/

namespace PatternScan

namespace Expr

mutual

/-- No list of parts in the expression is empty. -/
def HasParts : Expr → Prop
  | .literal _ _ | .wildcard _ => True
  | .concat items | .alternation items => items ≠ [] ∧ AllHaveParts items
  | .group inner _ | .repetition _ inner _ => HasParts inner

/-- No list of parts in the expressions is empty. -/
def AllHaveParts : List Expr → Prop
  | [] => True
  | e :: rest => HasParts e ∧ AllHaveParts rest

end

theorem allHaveParts_iff {items : List Expr} : AllHaveParts items ↔ ∀ e ∈ items, HasParts e := by
  induction items with
  | nil => simp only [AllHaveParts, List.not_mem_nil, false_implies, implies_true]
  | cons e rest ih => simp only [AllHaveParts, ih, List.forall_mem_cons]

theorem hasParts_concat {items : List Expr} :
    HasParts (.concat items) ↔ items ≠ [] ∧ ∀ e ∈ items, HasParts e := by
  simp only [HasParts, allHaveParts_iff]

theorem hasParts_alternation {items : List Expr} :
    HasParts (.alternation items) ↔ items ≠ [] ∧ ∀ e ∈ items, HasParts e := by
  simp only [HasParts, allHaveParts_iff]

theorem hasParts_ofParts {wrap : List Expr → Expr} {parts : List Expr}
    (hwrap : HasParts (wrap parts)) (h : ∀ e ∈ parts, HasParts e) :
    HasParts (ofParts wrap parts) := by
  unfold ofParts
  split
  · exact h _ (by simp)
  · exact hwrap

theorem hasParts_of_quantify? {q : Quantifier} {stop : Nat} {e e' : Expr} (h : HasParts e)
    (he : e.quantify? q stop = some e') : HasParts e' := by
  unfold quantify? at he
  split at he
  · simp at he
  · simp only [Option.some.injEq] at he
    subst he
    simpa only [HasParts] using h

end Expr

namespace Level

/-- All that has been read of a level has parts. -/
def HasParts (l : Level) : Prop :=
  (∀ e ∈ l.terms, e.HasParts) ∧ ∀ e ∈ l.factors, e.HasParts

theorem hasParts_empty : HasParts .empty := by
  simp [HasParts, empty]

theorem HasParts.push {l : Level} (h : l.HasParts) {e : Expr} (he : e.HasParts) :
    (l.push e).HasParts := by
  refine ⟨h.1, fun x hx => ?_⟩
  rcases List.mem_cons.mp hx with rfl | hx
  · exact he
  · exact h.2 x hx

theorem HasParts.term {l : Level} (h : l.HasParts) (hne : l.factors ≠ []) : l.term.HasParts := by
  have hall : ∀ e ∈ l.factors.reverse, e.HasParts := fun e he => h.2 e (List.mem_reverse.mp he)
  exact Expr.hasParts_ofParts (Expr.hasParts_concat.mpr ⟨by simpa using hne, hall⟩) hall

theorem HasParts.startTerm {l : Level} (h : l.HasParts) (hne : l.factors ≠ []) (pipe : Span) :
    (l.startTerm pipe).HasParts := by
  refine ⟨fun e he => ?_, by simp [Level.startTerm]⟩
  rcases List.mem_cons.mp he with rfl | he
  · exact h.term hne
  · exact h.1 e he

theorem HasParts.expression {l : Level} (h : l.HasParts) (hne : l.factors ≠ []) :
    l.expression.HasParts := by
  have hall : ∀ e ∈ (l.term :: l.terms).reverse, e.HasParts := by
    intro e he
    rcases List.mem_cons.mp (List.mem_reverse.mp he) with rfl | he
    · exact h.term hne
    · exact h.1 e he
  exact Expr.hasParts_ofParts (Expr.hasParts_alternation.mpr ⟨by simp, hall⟩) hall

end Level

namespace Reading

/-- All that has been read has parts, on every level. -/
def HasParts (r : Reading) : Prop :=
  r.level.HasParts ∧ ∀ p ∈ r.outer, p.2.HasParts

theorem HasParts.push {r : Reading} (h : r.HasParts) {e : Expr} (he : e.HasParts) :
    (r.push e).HasParts :=
  ⟨h.1.push he, h.2⟩

theorem HasParts.literal {r r' : Reading} {c : Char} {span : Span} (h : r.HasParts)
    (hr : r.literal c span = .ok r') : r'.HasParts := by
  obtain ⟨-, rfl⟩ := literal_eq_ok_iff.mp hr
  exact h.push (by simp only [Expr.HasParts])

theorem HasParts.quantify {r r' : Reading} {q : Quantifier} {span : Span} (h : r.HasParts)
    (hr : r.quantify q span = .ok r') : r'.HasParts := by
  obtain ⟨factor, before, repeated, hfactors, hrepeated, rfl⟩ := quantify_eq_ok_iff.mp hr
  have hread := h.1.2
  rw [hfactors, List.forall_mem_cons] at hread
  refine ⟨⟨h.1.1, fun e he => ?_⟩, h.2⟩
  rcases List.mem_cons.mp he with rfl | he
  · exact Expr.hasParts_of_quantify? hread.1 hrepeated
  · exact hread.2 e he

theorem HasParts.openGroup {r r' : Reading} {span : Span} (h : r.HasParts)
    (hr : r.openGroup span = .ok r') : r'.HasParts := by
  obtain ⟨-, rfl⟩ := openGroup_eq_ok_iff.mp hr
  refine ⟨Level.hasParts_empty, fun p hp => ?_⟩
  rcases List.mem_cons.mp hp with rfl | hp
  · exact h.1
  · exact h.2 p hp

theorem HasParts.alternative {r r' : Reading} {span : Span} (h : r.HasParts)
    (hr : r.alternative span = .ok r') : r'.HasParts := by
  obtain ⟨hne, rfl⟩ := alternative_eq_ok_iff.mp hr
  exact ⟨h.1.startTerm hne span, h.2⟩

theorem HasParts.closeGroup {r r' : Reading} {span : Span} (h : r.HasParts)
    (hr : r.closeGroup span = .ok r') : r'.HasParts := by
  obtain ⟨opening, around, outer, houter, hne, rfl⟩ := closeGroup_eq_ok_iff.mp hr
  have hout := h.2
  rw [houter, List.forall_mem_cons] at hout
  refine ⟨hout.1.push ?_, hout.2⟩
  simpa only [Expr.HasParts] using h.1.expression hne

theorem HasParts.step {r r' : Reading} (h : r.HasParts) :
    ∀ {token : Token}, r.step token = .ok r' → r'.HasParts
  | ⟨.plain _, _⟩, hr | ⟨.escaped _, _⟩, hr => h.literal hr
  | ⟨.dot, _⟩, hr => by
    obtain rfl := Except.ok.inj hr
    exact h.push (by simp only [Expr.HasParts])
  | ⟨.quantifier _, _⟩, hr => h.quantify hr
  | ⟨.parenOpen, _⟩, hr => h.openGroup hr
  | ⟨.parenClose, _⟩, hr => h.closeGroup hr
  | ⟨.pipe, _⟩, hr => h.alternative hr

theorem HasParts.finish {r : Reading} {sourceEnd : Nat} {e : Expr} (h : r.HasParts)
    (hr : r.finish sourceEnd = .ok e) : e.HasParts := by
  obtain ⟨-, hne, rfl⟩ := finish_eq_ok_iff.mp hr
  exact h.1.expression hne

end Reading

/-- No list of parts in an expression read from a pattern is empty. -/
theorem Expr.hasParts_of_parse {source : List Char} {e : Expr} (h : Expr.parse source = .ok e) :
    e.HasParts := by
  obtain ⟨tokens, r, -, hread, hr⟩ := Expr.parse_eq_ok_iff.mp h
  have hstart : Reading.HasParts .start := ⟨Level.hasParts_empty, by simp [Reading.start]⟩
  have hparts : r.HasParts := Reading.foldlM_step_induction (P := fun _ r => r.HasParts)
    (fun h hstep => h.step hstep) [] hstart hread
  exact hparts.finish hr

end PatternScan
