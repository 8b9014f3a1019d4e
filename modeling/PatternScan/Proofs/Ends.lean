import PatternScan.Construct.Pattern
import PatternScan.Proofs.Denotation
import PatternScan.Proofs.Leftmost

/-!
# Where a search for a pattern stops

The positions at which a match of an expression may stop are told by recursion on the expression
without the words in between, and the table of the expression is told by its words. Both come to
words of the line (`Expr.ends_eq`, `Table.spans_iff`), so the search of a pattern's table stops
where the expression that is read from the pattern says.
-/

namespace PatternScan

/-- Between two positions of the line there is a word that satisfies `p`. -/
def Between (chars : List Char) (p : List Char → Prop) (i j : Nat) : Prop :=
  ∃ w, p w ∧ w <+: chars.drop i ∧ j = i + w.length

section Between

variable {chars : List Char} {p q : List Char → Prop} {i j : Nat}

theorem append_prefix_drop_iff {u v : List Char} : u ++ v <+: chars.drop i ↔
    u <+: chars.drop i ∧ v <+: chars.drop (i + u.length) := by
  rw [← List.drop_drop]
  constructor
  · rintro ⟨rest, h⟩
    rw [← h, List.append_assoc, List.drop_left]
    exact ⟨⟨v ++ rest, rfl⟩, ⟨rest, rfl⟩⟩
  · rintro ⟨⟨rest, h⟩, hv⟩
    rw [← h, List.drop_left] at hv
    rw [← h]
    exact (List.prefix_append_right_inj u).mpr hv

theorem between_nil_iff : Between chars (· = []) i j ↔ j = i := by
  constructor
  · rintro ⟨w, rfl, -, hj⟩
    exact hj
  · rintro rfl
    exact ⟨[], rfl, List.nil_prefix, rfl⟩

theorem between_singleton_iff {accepts : Char → Prop} :
    Between chars (fun w => ∃ c, accepts c ∧ w = [c]) i j ↔
      (∃ c, accepts c ∧ chars[i]? = some c) ∧ j = i + 1 := by
  constructor
  · rintro ⟨w, ⟨c, hc, rfl⟩, ⟨rest, hw⟩, hj⟩
    refine ⟨⟨c, hc, ?_⟩, hj⟩
    rw [← List.head?_drop, ← hw]
    rfl
  · rintro ⟨⟨c, hc, hi⟩, hj⟩
    rw [← List.head?_drop, List.head?_eq_some_iff] at hi
    obtain ⟨rest, hi⟩ := hi
    exact ⟨[c], ⟨c, hc, rfl⟩, ⟨rest, hi.symm⟩, hj⟩

theorem between_append_iff :
    Between chars (fun w => ∃ u v, p u ∧ q v ∧ w = u ++ v) i j ↔
      ∃ k, Between chars p i k ∧ Between chars q k j := by
  constructor
  · rintro ⟨w, ⟨u, v, hu, hv, rfl⟩, hw, rfl⟩
    rw [append_prefix_drop_iff] at hw
    exact ⟨i + u.length, ⟨u, hu, hw.1, rfl⟩, v, hv, hw.2,
      by rw [List.length_append, Nat.add_assoc]⟩
  · rintro ⟨k, ⟨u, hu, hui, rfl⟩, v, hv, hvi, rfl⟩
    exact ⟨u ++ v, ⟨u, v, hu, hv, rfl⟩, append_prefix_drop_iff.mpr ⟨hui, hvi⟩,
      by rw [List.length_append, Nat.add_assoc]⟩

theorem between_or_iff : Between chars (fun w => p w ∨ q w) i j ↔
    Between chars p i j ∨ Between chars q i j := by
  constructor
  · rintro ⟨w, hp | hq, hw, hj⟩
    · exact .inl ⟨w, hp, hw, hj⟩
    · exact .inr ⟨w, hq, hw, hj⟩
  · rintro (⟨w, hp, hw, hj⟩ | ⟨w, hq, hw, hj⟩)
    · exact ⟨w, .inl hp, hw, hj⟩
    · exact ⟨w, .inr hq, hw, hj⟩

theorem between_repeated_iff : Between chars (Expr.Repeated 0 p) i j ↔
    Expr.StepsTo (Between chars p) i j := by
  constructor
  · rintro ⟨w, ⟨parts, -, hparts, rfl⟩, hw, rfl⟩
    induction parts generalizing i with
    | nil => exact .refl i
    | cons u parts ih =>
      rw [List.forall_mem_cons] at hparts
      rw [List.flatten_cons, append_prefix_drop_iff] at hw
      rw [List.flatten_cons, List.length_append, ← Nat.add_assoc]
      exact .step ⟨u, hparts.1, hw.1, rfl⟩ (ih hparts.2 hw.2)
  · intro h
    induction h with
    | refl s => exact ⟨[], Expr.repeated_zero_iff.mpr (.inl rfl), List.nil_prefix, rfl⟩
    | @step s t u hstep _ ih =>
      obtain ⟨w, hw, hplace⟩ := between_append_iff.mpr ⟨t, hstep, ih⟩
      exact ⟨w, Expr.repeated_zero_iff.mpr (.inr (Expr.repeated_succ_iff.mpr hw)), hplace⟩

end Between

namespace Expr

variable (chars : List Char)

mutual

/-- A match stops where a word of the expression does. -/
theorem ends_eq : ∀ e : Expr, Ends chars e = Between chars (Denotes e)
  | .literal c _ => by
    funext i j
    have h : Between chars (fun w => ∃ d, d = c ∧ w = [d]) i j ↔ _ := between_singleton_iff
    simp only [exists_eq_left] at h
    simp only [Ends, Denotes, h]
  | .wildcard _ => by
    funext i j
    have h : Between chars (fun w => ∃ d, True ∧ w = [d]) i j ↔ _ := between_singleton_iff
    simp only [true_and, ← Option.isSome_iff_exists, isSome_getElem?] at h
    simp only [Ends, Denotes, h]
  | .group inner _ => by
    funext i j
    simp only [Ends, Denotes, ends_eq inner]
  | .concat items => by
    funext i j
    simp only [Ends, Denotes, endsInTurn_eq items]
  | .alternation items => by
    funext i j
    simp only [Ends, Denotes, endsSome_eq items]
  | .repetition .zeroOrMore inner _ => by
    funext i j
    simp only [Ends, Denotes, Quantified, ends_eq inner, between_repeated_iff]
  | .repetition .oneOrMore inner _ => by
    funext i j
    simp only [Ends, Denotes, Quantified, ends_eq inner, repeated_succ_iff, between_append_iff,
      between_repeated_iff]
  | .repetition .optional inner _ => by
    funext i j
    simp only [Ends, Denotes, Quantified, ends_eq inner, between_or_iff, between_nil_iff]

theorem endsInTurn_eq : ∀ items : List Expr,
    EndsInTurn chars items = Between chars (DenotesInTurn items)
  | [] => by
    funext i j
    simp only [EndsInTurn, DenotesInTurn, between_nil_iff]
  | e :: rest => by
    funext i j
    simp only [EndsInTurn, DenotesInTurn, between_append_iff, ends_eq e, endsInTurn_eq rest]

theorem endsSome_eq : ∀ items : List Expr, EndsSome chars items = Between chars (DenotesSome items)
  | [] => by
    funext i j
    simp only [EndsSome, DenotesSome, Between, false_and, exists_false]
  | e :: rest => by
    funext i j
    simp only [EndsSome, DenotesSome, between_or_iff, ends_eq e, endsSome_eq rest]

end

end Expr

namespace Table

variable {t : Table} {chars : List Char} {i j : Nat}

theorem spans_iff_between : t.Spans chars i j ↔ Between chars t.Accepts i j := by
  constructor
  · intro h
    obtain ⟨k, rfl⟩ := Nat.exists_eq_add_of_le h.1
    obtain ⟨hk, haccepts⟩ := (spans_add_iff chars i).mp h
    exact ⟨_, haccepts, List.take_prefix k _, by rw [List.length_take_of_le hk]⟩
  · rintro ⟨w, hw, hplace, rfl⟩
    rw [spans_add_iff, ← List.prefix_iff_eq_take.mp hplace]
    exact ⟨hplace.length_le, hw⟩

/-- What the table of an expression accepts stands where a match of it may stop. -/
theorem spans_iff_ends {e : Expr} (h : ∀ w, t.Accepts w ↔ e.Denotes w) :
    t.Spans chars i j ↔ e.Ends chars i j := by
  have hp : t.Accepts = e.Denotes := funext fun w => propext (h w)
  rw [spans_iff_between, hp, Expr.ends_eq]

end Table

namespace Matcher

/-- The search for a pattern that can be read finds nothing in a line where the expression has no
match from any start, and otherwise the first start with a match and the first stop from there. -/
theorem find_pattern_first {source : List Char} {e : Expr} (he : Expr.parse source = .ok e) :
    ∃ t, Table.ofPattern source = .ok t ∧ ∀ line,
      (((new t).find line).2 = none ↔ ∀ s ≤ line.length, ∀ j, ¬ e.Ends line s j) ∧
      ∀ found, ((new t).find line).2 = some found ↔ found.IsFirst (e.Ends line) line.length := by
  have hparts := Expr.hasParts_of_parse he
  obtain ⟨t, ht, hstates⟩ := Table.exists_ofExpr_eq_ok hparts
  have hspans : ∀ line, t.Spans line = e.Ends line := by
    intro line
    funext i j
    exact propext (Table.spans_iff_ends fun w => Expr.accepts_iff_denotes hparts hstates)
  refine ⟨t, Table.ofPattern_eq_ok_iff.mpr ⟨e, he, ht⟩, fun line => ⟨?_, fun found => ?_⟩⟩
  · rw [find_new_eq_none_iff, hspans]
  · rw [find_new_eq_some_iff, hspans]

theorem find_pattern_nested : ∃ e t, Expr.parse "(a|b?)*c".toList = .ok e ∧
    Table.ofPattern "(a|b?)*c".toList = .ok t ∧ ∀ line,
      (((new t).find line).2 = none ↔ ∀ s ≤ line.length, ∀ j, ¬ e.Ends line s j) ∧
      ∀ found, ((new t).find line).2 = some found ↔ found.IsFirst (e.Ends line) line.length := by
  obtain ⟨e, he⟩ : ∃ e, Expr.parse "(a|b?)*c".toList = .ok e := ⟨_, rfl⟩
  obtain ⟨t, ht, hfind⟩ := find_pattern_first he
  exact ⟨e, t, he, ht, hfind⟩

end Matcher

end PatternScan
