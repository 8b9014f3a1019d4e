import PatternScan.Proofs.Acceptance
import PatternScan.Proofs.Ends
import PatternScan.Proofs.Regrouping

/-!
# Searching for a text

A pattern that spells out a text is read as the sequence of its characters, whatever is escaped, so
its table accepts this text and nothing else (`Escapes.exists_table`). A search for it finds the
first place of a line where the text stands (`Matcher.find_escaped`).
-/

namespace PatternScan

namespace Expr

/-- The characters of a text as literals. -/
def literalsOf (text : List Char) : List Expr :=
  text.map fun c => .literal c ⟨0, 0⟩

theorem literalsOf_cons (c : Char) (text : List Char) :
    literalsOf (c :: text) = .literal c ⟨0, 0⟩ :: literalsOf text := rfl

theorem bare_literalsOf (text : List Char) :
    (literalsOf text).map bare = literalsOf text := by
  simp [literalsOf, bare]

theorem hasParts_literalsOf {text : List Char} (h : text ≠ []) :
    (Expr.concat (literalsOf text)).HasParts := by
  rw [hasParts_concat]
  refine ⟨by simpa [literalsOf] using h, fun e he => ?_⟩
  obtain ⟨c, -, rfl⟩ := List.mem_map.mp he
  simp only [HasParts]

theorem denotesInTurn_literalsOf :
    ∀ {text w : List Char}, DenotesInTurn (literalsOf text) w ↔ w = text
  | [], w => by rw [literalsOf, List.map_nil, DenotesInTurn]
  | c :: text, w => by
    rw [literalsOf_cons, DenotesInTurn]
    constructor
    · rintro ⟨u, v, hu, hv, rfl⟩
      rw [Denotes] at hu
      rw [hu, denotesInTurn_literalsOf.mp hv, List.singleton_append]
    · rintro rfl
      exact ⟨[c], text, by rw [Denotes], denotesInTurn_literalsOf.mpr rfl, rfl⟩

theorem regroups_ofParts (items : List Expr) :
    Regroups (ofParts .concat items) (.concat items) := by
  unfold ofParts
  split
  · exact (Regroups.single _).symm
  · exact .refl _

end Expr

namespace Escapes

variable {pattern text : List Char}

/-- A character is the last factor, or comes before those of a text that is not empty. -/
theorem derives_cons {depth : Nat} {c : Char} {s : List Char} (h : Escapes pattern text)
    (hatom : Derives depth .atom s [.literal c ⟨0, 0⟩])
    (hrest : text ≠ [] → Derives depth .factors pattern (Expr.literalsOf text)) :
    Derives depth .factors (s ++ pattern) (Expr.literalsOf (c :: text)) := by
  cases h with
  | nil =>
    rw [List.append_nil]
    exact .lastFactor (.unquantified hatom)
  | plain _ _ | escaped _ =>
    exact .moreFactors (.unquantified hatom) (hrest (List.cons_ne_nil _ _))

theorem derives {depth : Nat} (h : Escapes pattern text) (hne : text ≠ [])
    (hbreak : ∀ c ∈ text, ¬ IsLineBreak c) :
    Derives depth .factors pattern (Expr.literalsOf text) := by
  induction h with
  | nil => exact absurd rfl hne
  | plain hmeta h ih =>
    rw [List.forall_mem_cons] at hbreak
    exact h.derives_cons (.plain hmeta hbreak.1) fun hne => ih hne hbreak.2
  | escaped h ih =>
    rw [List.forall_mem_cons] at hbreak
    exact h.derives_cons (.escaped hbreak.1) fun hne => ih hne hbreak.2

/-- The table of the pattern accepts the text alone. -/
theorem exists_table (h : Escapes pattern text) (hne : text ≠ [])
    (hbreak : ∀ c ∈ text, ¬ IsLineBreak c) :
    ∃ t, Table.ofPattern pattern = .ok t ∧ ∀ w, t.Accepts w ↔ w = text := by
  have hderives : Derives Expr.maxNesting .factors pattern (Expr.literalsOf text) :=
    h.derives hne hbreak
  rw [← Expr.bare_literalsOf] at hderives
  obtain ⟨e, he, htree⟩ := Expr.exists_parse_of_derives
    (.oneTerm (.lastTerm (Expr.derives_term_ofParts hderives)))
  have hregroups : e.Regroups (.concat (Expr.literalsOf text)) :=
    (Expr.Regroups.respan htree).trans (Expr.regroups_ofParts _)
  have hparts := Expr.hasParts_literalsOf hne
  obtain ⟨t, ht, hstates⟩ := Table.exists_ofExpr_eq_ok hparts
  refine ⟨t, Table.ofPattern_eq_ok_iff.mpr ⟨e, he, ?_⟩, fun w => ?_⟩
  · rw [Table.ofExpr_eq_of_laidAlike hregroups.laidAlike, ht]
  · rw [Expr.accepts_iff_denotes hparts hstates, Expr.Denotes, Expr.denotesInTurn_literalsOf]

end Escapes

section Place

variable {text chars : List Char}

theorem isInfix_iff_exists_prefix_drop : text <:+: chars ↔ ∃ i, text <+: chars.drop i := by
  constructor
  · rintro ⟨before, after, rfl⟩
    exact ⟨before.length, after, by rw [List.append_assoc, List.drop_left]⟩
  · rintro ⟨i, h⟩
    exact h.isInfix.trans (List.drop_suffix i chars).isInfix

theorem le_length_of_prefix_drop (hne : text ≠ []) {i : Nat} (h : text <+: chars.drop i) :
    i ≤ chars.length := by
  have hlength := h.length_le
  have hpos := List.length_pos_iff.mpr hne
  rw [List.length_drop] at hlength
  omega

end Place

namespace Matcher

/-- A pattern that spells out a text without line breaks has a table, and a search with it finds in
a line the first place where the text stands, and nothing if the text stands nowhere. -/
theorem find_escaped {pattern text : List Char} (h : Escapes pattern text) (hne : text ≠ [])
    (hbreak : ∀ c ∈ text, ¬ IsLineBreak c) :
    ∃ t, Table.ofPattern pattern = .ok t ∧ ∀ chars,
      (((new t).find chars).2 = none ↔ ¬ text <:+: chars) ∧
      ∀ found, ((new t).find chars).2 = some found ↔
        IsLeast {i | text <+: chars.drop i} found.start ∧
          found.stop = found.start + text.length := by
  obtain ⟨t, ht, haccepts⟩ := h.exists_table hne hbreak
  have hspans : ∀ {chars i j}, t.Spans chars i j ↔ text <+: chars.drop i ∧ j = i + text.length := by
    intro chars i j
    simp [Table.spans_iff_between, Between, haccepts]
  refine ⟨t, ht, fun chars => ⟨?_, fun found => ?_⟩⟩
  · rw [find_new_eq_none_iff, isInfix_iff_exists_prefix_drop, not_exists]
    constructor
    · exact fun hnone i hi =>
        hnone i (le_length_of_prefix_drop hne hi) _ (hspans.mpr ⟨hi, rfl⟩)
    · exact fun hnone i _ j hij => hnone i (hspans.mp hij).1
  · have hstarts : {i | i ≤ chars.length ∧ ∃ j, t.Spans chars i j} =
        {i | text <+: chars.drop i} := by
      ext i
      constructor
      · rintro ⟨-, j, hij⟩
        exact (hspans.mp hij).1
      · exact fun hi => ⟨le_length_of_prefix_drop hne hi, _, hspans.mpr ⟨hi, rfl⟩⟩
    rw [find_new_eq_some_iff, Match.IsFirst, hstarts]
    refine and_congr_right fun hstart => ?_
    have hstops : {j | t.Spans chars found.start j} = {found.start + text.length} := by
      ext j
      exact hspans.trans (and_iff_right hstart.1)
    rw [hstops]
    exact ⟨fun hstop => hstop.1, fun hstop => hstop ▸ isLeast_singleton⟩

/-- Escaped or not, `a` stands for itself; the first occurrence begins inside another one that does
not go on. -/
theorem find_escaped_overlapping :
    Escapes ['\\', 'a', 'a', '\\', '|'] ['a', 'a', '|'] ∧
      (∀ c ∈ ['a', 'a', '|'], ¬ IsLineBreak c) ∧
      ∃ t, Table.ofPattern ['\\', 'a', 'a', '\\', '|'] = .ok t ∧
        ((new t).find ['日', 'a', 'a', 'a', '|']).2 = some ⟨2, 5⟩ ∧
        ((new t).find ['a', 'a']).2 = none := by
  have h : Escapes ['\\', 'a', 'a', '\\', '|'] ['a', 'a', '|'] :=
    .escaped (.plain (by simp [IsMeta]) (.escaped .nil))
  have hbreak : ∀ c ∈ ['a', 'a', '|'], ¬ IsLineBreak c := by simp [IsLineBreak]
  obtain ⟨t, ht, hfind⟩ := find_escaped h (by decide) hbreak
  refine ⟨h, hbreak, t, ht, ((hfind _).2 _).mpr ⟨⟨⟨[], rfl⟩, fun i hi => ?_⟩, rfl⟩,
    (hfind _).1.mpr (by decide)⟩
  rcases i with _ | _ | i
  · exact absurd hi (by decide)
  · exact absurd hi (by decide)
  · show 2 ≤ i + 2
    omega

end Matcher

end PatternScan
