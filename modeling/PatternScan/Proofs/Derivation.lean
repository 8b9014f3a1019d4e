import PatternScan.Proofs.Scanning

/-!
# What has been read is derived

While a pattern is read, what has been read of it is the text of the levels: on each, the terms that
are complete, every one with its `|`, and then the factors of the present term, and between a level
and the next the `(` that opens the group (`Reading.Spells`). The deeper a level is, the fewer
groups may still be opened in it. Every token keeps this (`Reading.Spells.step`), and at the end it
is a derivation of the expression (`Level.Spells.expression`).
-/

namespace PatternScan

namespace Expr

theorem bares_eq_map (items : List Expr) : bares items = items.map bare := by
  induction items with
  | nil => rfl
  | cons e rest ih => rw [bares, ih, List.map_cons]

variable {depth : Nat} {s : List Char} {items : List Expr}

theorem bare_ofParts {wrap : List Expr → Expr}
    (hwrap : ∀ items, (wrap items).bare = wrap (bares items)) (h : 2 ≤ items.length) :
    (ofParts wrap items).bare = wrap (items.map bare) := by
  rcases items with _ | ⟨e, _ | ⟨e', rest⟩⟩
  · simp at h
  · simp at h
  · rw [ofParts, hwrap, bares_eq_map]
    simp

theorem derives_term_ofParts (h : Derives depth .factors s (items.map bare)) :
    Derives depth .term s [(ofParts .concat items).bare] := by
  rcases items with _ | ⟨e, _ | ⟨e', rest⟩⟩
  · exact nomatch h
  · exact .oneFactor h
  · rw [bare_ofParts (fun _ => rfl) (by simp)]
    exact .factors h (by simp)

theorem derives_expression_ofParts (h : Derives depth .terms s (items.map bare)) :
    Derives depth .expression s [(ofParts .alternation items).bare] := by
  rcases items with _ | ⟨e, _ | ⟨e', rest⟩⟩
  · exact nomatch h
  · exact .oneTerm h
  · rw [bare_ofParts (fun _ => rfl) (by simp)]
    exact .terms h (by simp)

/-- Only what is derived as an atom takes a quantifier. -/
theorem derives_atom_of_quantify? {e e' : Expr} {q : Quantifier} {stop : Nat}
    (he : e.quantify? q stop = some e') (h : Derives depth .factor s [e.bare]) :
    Derives depth .atom s [e.bare] ∧ e'.bare = .repetition q e.bare ⟨0, 0⟩ := by
  have hshape : ∀ q' inner span, e.bare ≠ .repetition q' inner span := by
    intro q' inner span hbare
    cases e <;> simp [quantify?, bare] at he hbare
  have hbare : e'.bare = .repetition q e.bare ⟨0, 0⟩ := by
    unfold quantify? at he
    split at he
    · simp at he
    · rw [← Option.some.inj he, bare]
  refine ⟨?_, hbare⟩
  generalize e.bare = tree at h hshape
  cases h with
  | unquantified h => exact h
  | quantified q' _ => exact absurd rfl (hshape q' _ _)

end Expr

/-- The texts of the expressions, the latest of which is first in the list, in a row. -/
inductive Strung (text : Expr → List Char → Prop) : List Expr → List Char → Prop
  | nil : Strung text [] []
  | cons {e : Expr} {items : List Expr} {s u : List Char} :
      Strung text items s → text e u → Strung text (e :: items) (s ++ u)

namespace Level

/-- The text of a term with the `|` after it. -/
def ClosedTerm (depth : Nat) (e : Expr) (s : List Char) : Prop :=
  ∃ u, Derives depth .term u [e.bare] ∧ s = u ++ ['|']

/-- What has been read of the level is this text, in which groups nest at most `depth` deep. -/
def Spells (depth : Nat) (l : Level) (s : List Char) : Prop :=
  ∃ u v, Strung (ClosedTerm depth) l.terms u ∧
    Strung (fun e v => Derives depth .factor v [e.bare]) l.factors v ∧ s = u ++ v

variable {depth : Nat} {l : Level} {s u : List Char} {e : Expr} {items : List Expr}

theorem derives_factors_of_strung
    (h : Strung (fun e v => Derives depth .factor v [e.bare]) items s) :
    ∀ {v : List Char} {trees : List Expr}, Derives depth .factors v trees →
      Derives depth .factors (s ++ v) (items.reverse.map Expr.bare ++ trees) := by
  induction h with
  | nil => exact fun hv => hv
  | cons _ he ih =>
    intro v trees hv
    rw [List.append_assoc, List.reverse_cons, List.map_append, List.append_assoc]
    exact ih (.moreFactors he hv)

theorem derives_terms_of_strung (h : Strung (ClosedTerm depth) items s) :
    ∀ {v : List Char} {trees : List Expr}, Derives depth .terms v trees →
      Derives depth .terms (s ++ v) (items.reverse.map Expr.bare ++ trees) := by
  induction h with
  | nil => exact fun hv => hv
  | cons _ he ih =>
    intro v trees hv
    obtain ⟨u, hu, rfl⟩ := he
    rw [List.append_assoc, List.append_assoc, List.reverse_cons, List.map_append,
      List.append_assoc]
    exact ih (.moreTerms hu hv)

theorem spells_empty : Level.empty.Spells depth [] :=
  ⟨[], [], .nil, .nil, rfl⟩

theorem Spells.push (h : l.Spells depth s) (he : Derives depth .factor u [e.bare]) :
    (l.push e).Spells depth (s ++ u) := by
  obtain ⟨v, w, hterms, hfactors, rfl⟩ := h
  exact ⟨v, w ++ u, hterms, .cons hfactors he, List.append_assoc v w u⟩

theorem Spells.quantify (h : l.Spells depth s) {q : Quantifier} {stop : Nat} {before : List Expr}
    {e' : Expr} (hl : l.factors = e :: before) (he : e.quantify? q stop = some e') :
    ({ l with factors := e' :: before } : Level).Spells depth (s ++ [q.symbol]) := by
  obtain ⟨v, w, hterms, hfactors, rfl⟩ := h
  rw [hl] at hfactors
  cases hfactors with
  | @cons _ _ w u hbefore hfactor =>
    obtain ⟨hatom, hbare⟩ := Expr.derives_atom_of_quantify? he hfactor
    refine ⟨v, w ++ (u ++ [q.symbol]), hterms, .cons hbefore ?_, by simp⟩
    rw [hbare]
    exact .quantified q hatom

theorem Spells.term (h : l.Spells depth s) (hne : l.factors ≠ []) :
    ∃ u v, Strung (ClosedTerm depth) l.terms u ∧ Derives depth .term v [l.term.bare] ∧
      s = u ++ v := by
  obtain ⟨u, v, hterms, hfactors, rfl⟩ := h
  refine ⟨u, v, hterms, Expr.derives_term_ofParts ?_, rfl⟩
  rcases hl : l.factors with _ | ⟨e, before⟩
  · exact absurd hl hne
  · rw [hl] at hfactors
    cases hfactors with
    | cons hbefore hfactor =>
      rw [List.reverse_cons, List.map_append]
      exact derives_factors_of_strung hbefore (.lastFactor hfactor)

theorem Spells.startTerm (h : l.Spells depth s) (hne : l.factors ≠ []) (pipe : Span) :
    (l.startTerm pipe).Spells depth (s ++ ['|']) := by
  obtain ⟨u, v, hterms, hterm, rfl⟩ := h.term hne
  exact ⟨u ++ (v ++ ['|']), [], .cons hterms ⟨v, hterm, rfl⟩, .nil, by simp⟩

theorem Spells.expression (h : l.Spells depth s) (hne : l.factors ≠ []) :
    Derives depth .expression s [l.expression.bare] := by
  obtain ⟨u, v, hterms, hterm, rfl⟩ := h.term hne
  refine Expr.derives_expression_ofParts ?_
  rw [List.reverse_cons, List.map_append]
  exact derives_terms_of_strung hterms (.lastTerm hterm)

end Level

namespace Reading

/-- What has been read around the innermost level, up to the `(` that opens it. -/
def SpellsAround : List (Span × Level) → List Char → Prop
  | [], s => s = []
  | (_, l) :: outer, s => ∃ u v, SpellsAround outer u ∧
      l.Spells (Expr.maxNesting - outer.length) v ∧ s = u ++ v ++ ['(']

/-- What has been read is this text. -/
def Spells (r : Reading) (s : List Char) : Prop :=
  r.outer.length ≤ Expr.maxNesting ∧ ∃ u v, SpellsAround r.outer u ∧
    r.level.Spells (Expr.maxNesting - r.outer.length) v ∧ s = u ++ v

variable {r r' : Reading} {s u : List Char} {span : Span}

theorem spells_start : Reading.start.Spells [] :=
  ⟨Nat.zero_le _, [], [], rfl, Level.spells_empty, rfl⟩

theorem Spells.push (h : r.Spells s) {e : Expr}
    (he : Derives (Expr.maxNesting - r.outer.length) .atom u [e.bare]) :
    (r.push e).Spells (s ++ u) := by
  obtain ⟨hdepth, v, w, haround, hlevel, rfl⟩ := h
  exact ⟨hdepth, v, w ++ u, haround, hlevel.push (.unquantified he), List.append_assoc v w u⟩

theorem Spells.literal (h : r.Spells s) {c : Char} (hr : r.literal c span = .ok r')
    (hu : ∀ {depth}, ¬ IsLineBreak c → Derives depth .atom u [.literal c ⟨0, 0⟩]) :
    r'.Spells (s ++ u) := by
  obtain ⟨hbreak, rfl⟩ := literal_eq_ok_iff.mp hr
  refine h.push ?_
  rw [Expr.bare]
  exact hu hbreak

theorem Spells.quantify (h : r.Spells s) {q : Quantifier} (hr : r.quantify q span = .ok r') :
    r'.Spells (s ++ [q.symbol]) := by
  obtain ⟨factor, before, repeated, hfactors, hrepeated, rfl⟩ := quantify_eq_ok_iff.mp hr
  obtain ⟨hdepth, v, w, haround, hlevel, rfl⟩ := h
  exact ⟨hdepth, v, w ++ [q.symbol], haround, hlevel.quantify hfactors hrepeated,
    List.append_assoc v w _⟩

theorem Spells.openGroup (h : r.Spells s) (hr : r.openGroup span = .ok r') :
    r'.Spells (s ++ ['(']) := by
  obtain ⟨hdepth, rfl⟩ := openGroup_eq_ok_iff.mp hr
  obtain ⟨-, v, w, haround, hlevel, rfl⟩ := h
  exact ⟨hdepth, _, [], ⟨v, w, haround, hlevel, rfl⟩, Level.spells_empty,
    (List.append_nil _).symm⟩

theorem Spells.alternative (h : r.Spells s) (hr : r.alternative span = .ok r') :
    r'.Spells (s ++ ['|']) := by
  obtain ⟨hne, rfl⟩ := alternative_eq_ok_iff.mp hr
  obtain ⟨hdepth, v, w, haround, hlevel, rfl⟩ := h
  exact ⟨hdepth, v, w ++ ['|'], haround, hlevel.startTerm hne span, List.append_assoc v w _⟩

theorem Spells.closeGroup (h : r.Spells s) (hr : r.closeGroup span = .ok r') :
    r'.Spells (s ++ [')']) := by
  obtain ⟨opening, around, outer, houter, hne, rfl⟩ := closeGroup_eq_ok_iff.mp hr
  obtain ⟨hdepth, v, w, haround, hlevel, rfl⟩ := h
  rw [houter, List.length_cons] at hdepth hlevel
  rw [houter] at haround
  obtain ⟨v, v', haround, hlevel', rfl⟩ := haround
  have hgroup := Derives.group (hlevel.expression hne)
  -- Where a group is closed, one more may be opened than inside it.
  rw [show Expr.maxNesting - (outer.length + 1) + 1 = Expr.maxNesting - outer.length by omega]
    at hgroup
  refine ⟨Nat.le_of_succ_le hdepth, v, v' ++ ('(' :: w ++ [')']), haround,
    hlevel'.push (.unquantified ?_), by simp⟩
  rw [Expr.bare]
  exact hgroup

theorem Spells.step (h : r.Spells s) : ∀ {token : Token}, token.kind.PlainOnly →
    r.step token = .ok r' → r'.Spells (s ++ token.kind.text)
  | ⟨.plain c, _⟩, hplain, hr => h.literal hr (.plain (hplain c rfl))
  | ⟨.escaped _, _⟩, _, hr => h.literal hr .escaped
  | ⟨.dot, _⟩, _, hr => by
    obtain rfl := Except.ok.inj hr
    refine h.push ?_
    rw [Expr.bare]
    exact .wildcard
  | ⟨.quantifier _, _⟩, _, hr => h.quantify hr
  | ⟨.parenOpen, _⟩, _, hr => h.openGroup hr
  | ⟨.parenClose, _⟩, _, hr => h.closeGroup hr
  | ⟨.pipe, _⟩, _, hr => h.alternative hr

theorem Spells.finish (h : r.Spells s) {sourceEnd : Nat} {e : Expr}
    (hr : r.finish sourceEnd = .ok e) : Derives Expr.maxNesting .expression s [e.bare] := by
  obtain ⟨houter, hne, rfl⟩ := finish_eq_ok_iff.mp hr
  obtain ⟨-, u, v, haround, hlevel, rfl⟩ := h
  rw [houter] at haround hlevel
  rw [show u = [] from haround, List.nil_append]
  exact hlevel.expression hne

theorem spells_of_foldlM_step {tokens : List Token}
    (hplain : ∀ token ∈ tokens, token.kind.PlainOnly)
    (hr : tokens.foldlM Reading.step .start = .ok r) :
    r.Spells (tokens.flatMap fun token => token.kind.text) := by
  refine foldlM_step_induction (P := fun tokens r => (∀ token ∈ tokens, token.kind.PlainOnly) →
    r.Spells (tokens.flatMap fun token => token.kind.text)) ?_ [] (fun _ => spells_start) hr hplain
  intro before token r r' h hstep hplain
  rw [List.flatMap_append, List.flatMap_cons, List.flatMap_nil, List.append_nil]
  exact (h fun t ht => hplain t (List.mem_append_left _ ht)).step (hplain token (by simp)) hstep

end Reading

/-- An expression that is read from a pattern is derived from it. -/
theorem Expr.derives_of_parse {source : List Char} {e : Expr} (h : Expr.parse source = .ok e) :
    Derives Expr.maxNesting .expression source [e.bare] := by
  obtain ⟨tokens, r, hscan, hread, hr⟩ := Expr.parse_eq_ok_iff.mp h
  obtain ⟨htext, hplain⟩ := Token.scanFrom_spec 0 source hscan
  have hspells := Reading.spells_of_foldlM_step hplain hread
  rw [htext] at hspells
  exact hspells.finish hr

end PatternScan
