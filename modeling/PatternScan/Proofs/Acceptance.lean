import PatternScan.Proofs.Derivation

/-!
# What is derived is read

Reading a text that is derived as one of the constructs goes through, wherever the text begins, if
the groups that are open around it leave room for its own, and it changes what has been read by the
trees of the derivation (`Readable`). There is a lemma for each production of the grammar; together
with the derivation of what has been read they say which patterns are read, and as which trees.
-/

namespace PatternScan

/-- Reading the text, which begins at byte `offset`, leads from one reading to another. -/
def Reading.Yields (r : Reading) (offset : Nat) (s : List Char) (r' : Reading) : Prop :=
  ∃ tokens, Token.scanFrom offset s = .ok tokens ∧ tokens.foldlM Reading.step r = .ok r'

namespace Reading

variable {r r' : Reading} {offset : Nat} {s : List Char}

theorem Yields.trans (h : r.Yields offset s r') {u : List Char} {r'' : Reading}
    (h' : r'.Yields (offset + Utf8.byteLength s) u r'') : r.Yields offset (s ++ u) r'' := by
  obtain ⟨tokens, hscan, hread⟩ := h
  obtain ⟨tokens', hscan', hread'⟩ := h'
  refine ⟨tokens ++ tokens', ?_, ?_⟩
  · rw [Token.scanFrom_append offset s hscan, hscan']
    rfl
  · rw [List.foldlM_append, hread]
    exact hread'

theorem yields_char {c : Char} (hc : c ≠ '\\')
    (h : r.step ⟨.ofChar c, ⟨offset, offset + c.utf8Size⟩⟩ = .ok r') : r.Yields offset [c] r' := by
  refine ⟨_, Token.scanFrom_cons hc [], ?_⟩
  rw [List.foldlM_cons, h]
  rfl

theorem yields_escaped {c : Char}
    (h : r.step ⟨.escaped c, ⟨offset, offset + 1 + c.utf8Size⟩⟩ = .ok r') :
    r.Yields offset ['\\', c] r' := by
  refine ⟨[⟨.escaped c, ⟨offset, offset + 1 + c.utf8Size⟩⟩], ?_, ?_⟩
  · rw [Token.scanFrom, Token.scanFrom]
    rfl
  · rw [List.foldlM_cons, h]
    rfl

end Reading

/-- A term, and what is made up of terms, begins where no factor of its own has been read. -/
def Begins : Construct → Reading → Prop
  | .atom, _ | .factor, _ | .factors, _ => True
  | .term, r | .terms, r => r.level.factors = []
  | .expression, r => r.level.factors = [] ∧ r.level.terms = []

/-- What the text of a construct of the given trees adds to what has been read. -/
def Gains : Construct → List Expr → Reading → Reading → Prop
  | .atom, trees, r, r' => ∃ e, r' = r.push e ∧ trees = [e.bare] ∧
      ∀ q stop, ∃ e', e.quantify? q stop = some e' ∧ e'.bare = .repetition q e.bare ⟨0, 0⟩
  | .factor, trees, r, r' => ∃ e, r' = r.push e ∧ trees = [e.bare]
  | .factors, trees, r, r' => ∃ items, items ≠ [] ∧ trees = items.map Expr.bare ∧
      r' = { r with level := { r.level with factors := items.reverse ++ r.level.factors } }
  | .term, trees, r, r' => r'.level.factors ≠ [] ∧ r'.outer = r.outer ∧
      r'.level.terms = r.level.terms ∧ trees = [r'.level.term.bare]
  | .terms, trees, r, r' => r'.level.factors ≠ [] ∧ r'.outer = r.outer ∧
      (r'.level.term :: r'.level.terms).reverse.map Expr.bare =
        r.level.terms.reverse.map Expr.bare ++ trees
  | .expression, trees, r, r' => r'.level.factors ≠ [] ∧ r'.outer = r.outer ∧
      trees = [r'.level.expression.bare]

/-- The text can be read as a construct of the given trees, wherever it begins, where `depth` more
groups may be opened. -/
def Readable (depth : Nat) (k : Construct) (s : List Char) (trees : List Expr) : Prop :=
  ∀ (offset : Nat) (r : Reading), r.outer.length + depth ≤ Expr.maxNesting → Begins k r →
    ∃ r', r.Yields offset s r' ∧ Gains k trees r r'

namespace Readable

variable {depth : Nat} {s u : List Char} {e : Expr} {trees : List Expr}

theorem plain {c : Char} (hmeta : ¬ IsMeta c) (hbreak : ¬ IsLineBreak c) :
    Readable depth .atom [c] [.literal c ⟨0, 0⟩] := by
  intro offset r _ _
  have hc : c ≠ '\\' := by
    rintro rfl
    exact hmeta (by simp [IsMeta])
  refine ⟨_, Reading.yields_char hc ?_, .literal c ⟨offset, offset + c.utf8Size⟩, rfl, rfl,
    fun q stop => ⟨_, rfl, rfl⟩⟩
  rw [TokenKind.ofChar_eq_plain hmeta]
  exact Reading.literal_eq_ok_iff.mpr ⟨hbreak, rfl⟩

theorem escaped {c : Char} (hbreak : ¬ IsLineBreak c) :
    Readable depth .atom ['\\', c] [.literal c ⟨0, 0⟩] := by
  intro offset r _ _
  exact ⟨_, Reading.yields_escaped (Reading.literal_eq_ok_iff.mpr ⟨hbreak, rfl⟩), _, rfl, rfl,
    fun q stop => ⟨_, rfl, rfl⟩⟩

theorem wildcard : Readable depth .atom ['.'] [.wildcard ⟨0, 0⟩] := by
  intro offset r _ _
  exact ⟨_, Reading.yields_char (by decide) rfl, _, rfl, rfl, fun q stop => ⟨_, rfl, rfl⟩⟩

theorem group (h : Readable depth .expression s [e]) :
    Readable (depth + 1) .atom ('(' :: s ++ [')']) [.group e ⟨0, 0⟩] := by
  intro offset r hdepth _
  obtain ⟨opening, hopen⟩ : ∃ opening,
      r.Yields offset ['('] ⟨.empty, (opening, r.level) :: r.outer⟩ :=
    ⟨_, Reading.yields_char (by decide) (Reading.openGroup_eq_ok_iff.mpr ⟨by omega, rfl⟩)⟩
  obtain ⟨r', hinner, hne, houter, htree⟩ := h (offset + Utf8.byteLength ['('])
    ⟨.empty, (opening, r.level) :: r.outer⟩ (by rw [List.length_cons]; omega) ⟨rfl, rfl⟩
  obtain ⟨span, hclose⟩ : ∃ span, r'.Yields (offset + Utf8.byteLength ('(' :: s)) [')']
      (r.push (.group r'.level.expression span)) :=
    ⟨_, Reading.yields_char (by decide)
      (Reading.closeGroup_eq_ok_iff.mpr ⟨_, _, _, houter, hne, rfl⟩)⟩
  refine ⟨_, (hopen.trans hinner).trans hclose, _, rfl, ?_, fun q stop => ⟨_, rfl, rfl⟩⟩
  rw [Expr.bare, ← List.singleton_inj.mp htree]

theorem unquantified (h : Readable depth .atom s [e]) : Readable depth .factor s [e] := by
  intro offset r hdepth _
  obtain ⟨r', hyields, e', hr', htree, -⟩ := h offset r hdepth trivial
  exact ⟨r', hyields, e', hr', htree⟩

theorem quantified (q : Quantifier) (h : Readable depth .atom s [e]) :
    Readable depth .factor (s ++ [q.symbol]) [.repetition q e ⟨0, 0⟩] := by
  intro offset r hdepth _
  obtain ⟨_, hyields, e', rfl, htree, hquantify⟩ := h offset r hdepth trivial
  obtain ⟨repeated, hrepeated, hbare⟩ :=
    hquantify q (offset + Utf8.byteLength s + q.symbol.utf8Size)
  have hsymbol : q.symbol ≠ '\\' := by cases q <;> decide
  refine ⟨r.push repeated, hyields.trans (Reading.yields_char hsymbol ?_), repeated, rfl, ?_⟩
  · rw [TokenKind.ofChar_symbol]
    show (r.push e').quantify q _ = _
    simp only [Reading.quantify, Reading.push, Level.push, hrepeated]
  · rw [hbare, List.singleton_inj.mp htree]

theorem lastFactor (h : Readable depth .factor s [e]) : Readable depth .factors s [e] := by
  intro offset r hdepth _
  obtain ⟨r', hyields, e', hr', htree⟩ := h offset r hdepth trivial
  exact ⟨r', hyields, [e'], List.cons_ne_nil e' [], htree, hr'⟩

theorem moreFactors (h : Readable depth .factor s [e]) (h' : Readable depth .factors u trees) :
    Readable depth .factors (s ++ u) (e :: trees) := by
  intro offset r hdepth _
  obtain ⟨_, hyields, e', rfl, htree⟩ := h offset r hdepth trivial
  obtain ⟨r', hyields', items, _, rfl, hr'⟩ := h' (offset + Utf8.byteLength s) (r.push e') hdepth
    trivial
  refine ⟨r', hyields.trans hyields', e' :: items, List.cons_ne_nil e' items, ?_, ?_⟩
  · rw [List.map_cons, List.singleton_inj.mp htree]
  · rw [hr', List.reverse_cons, List.append_assoc]
    rfl

theorem term (h : Readable depth .factors s trees)
    (htree : ∀ items : List Expr, trees = items.map Expr.bare →
      e = (Expr.ofParts .concat items).bare) : Readable depth .term s [e] := by
  intro offset r hdepth hr
  obtain ⟨_, hyields, items, hne, htrees, rfl⟩ := h offset r hdepth trivial
  rw [show r.level.factors = [] from hr, List.append_nil] at hyields
  refine ⟨_, hyields, by simpa using hne, rfl, rfl, ?_⟩
  rw [htree items htrees, Level.term, List.reverse_reverse]

theorem lastTerm (h : Readable depth .term s [e]) : Readable depth .terms s [e] := by
  intro offset r hdepth hr
  obtain ⟨r', hyields, hne, houter, hterms, htree⟩ := h offset r hdepth hr
  refine ⟨r', hyields, hne, houter, ?_⟩
  rw [htree, List.reverse_cons, List.map_append, hterms]
  rfl

theorem moreTerms (h : Readable depth .term s [e]) (h' : Readable depth .terms u trees) :
    Readable depth .terms (s ++ '|' :: u) (e :: trees) := by
  intro offset r hdepth hr
  obtain ⟨r₁, hyields, hne, houter, hterms, htree⟩ := h offset r hdepth hr
  obtain ⟨pipe, hpipe⟩ : ∃ pipe, r₁.Yields (offset + Utf8.byteLength s) ['|']
      { r₁ with level := r₁.level.startTerm pipe } :=
    ⟨_, Reading.yields_char (by decide) (Reading.alternative_eq_ok_iff.mpr ⟨hne, rfl⟩)⟩
  obtain ⟨r', hyields', hne', houter', hterms'⟩ := h'
    (offset + Utf8.byteLength s + Utf8.byteLength ['|'])
    { r₁ with level := r₁.level.startTerm pipe } (by rw [houter]; exact hdepth) rfl
  refine ⟨r', hyields.trans (hpipe.trans hyields'), hne', houter'.trans houter, ?_⟩
  rw [hterms', List.singleton_inj.mp htree, Level.startTerm, hterms, List.reverse_cons,
    List.map_append, List.append_assoc]
  rfl

theorem expression (h : Readable depth .terms s trees)
    (htree : ∀ items : List Expr, trees = items.map Expr.bare →
      e = (Expr.ofParts .alternation items).bare) : Readable depth .expression s [e] := by
  intro offset r hdepth hr
  obtain ⟨r', hyields, hne, houter, htrees⟩ := h offset r hdepth hr.1
  rw [hr.2] at htrees
  exact ⟨r', hyields, hne, houter, congrArg (fun e => [e]) (htree _ htrees.symm)⟩

end Readable

namespace Expr

variable {items : List Expr}

theorem eq_bare_ofParts {wrap : List Expr → Expr} {e : Expr} (h : [e] = items.map bare) :
    e = (ofParts wrap items).bare := by
  rcases items with _ | ⟨e', _ | ⟨_, _⟩⟩
  · exact nomatch h
  · exact List.singleton_inj.mp h
  · simp at h

end Expr

theorem Derives.readable {depth : Nat} {k : Construct} {s : List Char} {trees : List Expr}
    (h : Derives depth k s trees) : Readable depth k s trees := by
  induction h with
  | plain hmeta hbreak => exact .plain hmeta hbreak
  | escaped hbreak => exact .escaped hbreak
  | wildcard => exact .wildcard
  | group _ ih => exact .group ih
  | unquantified _ ih => exact .unquantified ih
  | quantified q _ ih => exact .quantified q ih
  | lastFactor _ ih => exact .lastFactor ih
  | moreFactors _ _ ih ih' => exact .moreFactors ih ih'
  | oneFactor _ ih => exact .term ih fun _ => Expr.eq_bare_ofParts
  | factors _ hlength ih =>
    refine .term ih fun items hitems => ?_
    rw [hitems, List.length_map] at hlength
    rw [Expr.bare_ofParts (fun _ => rfl) hlength, hitems]
  | lastTerm _ ih => exact .lastTerm ih
  | moreTerms _ _ ih ih' => exact .moreTerms ih ih'
  | oneTerm _ ih => exact .expression ih fun _ => Expr.eq_bare_ofParts
  | terms _ hlength ih =>
    refine .expression ih fun items hitems => ?_
    rw [hitems, List.length_map] at hlength
    rw [Expr.bare_ofParts (fun _ => rfl) hlength, hitems]

namespace Expr

theorem exists_parse_of_derives {source : List Char} {tree : Expr}
    (h : Derives maxNesting .expression source [tree]) :
    ∃ e, parse source = .ok e ∧ e.bare = tree := by
  obtain ⟨r, ⟨tokens, hscan, hread⟩, hne, houter, htree⟩ :=
    h.readable 0 .start (by simp [Reading.start]) ⟨rfl, rfl⟩
  refine ⟨r.level.expression, ?_, (List.singleton_inj.mp htree).symm⟩
  exact parse_eq_ok_iff.mpr
    ⟨tokens, r, hscan, hread, Reading.finish_eq_ok_iff.mpr ⟨houter, hne, rfl⟩⟩

/-- Exactly the patterns that the grammar derives are read, and what is read is, without its spans,
the one tree of which the pattern is derived. -/
theorem parse_derives (source : List Char) :
    ((∃ e, parse source = .ok e) ↔ ∃ tree, Derives maxNesting .expression source [tree]) ∧
      ∀ e, parse source = .ok e → ∀ tree,
        Derives maxNesting .expression source [tree] ↔ tree = e.bare := by
  refine ⟨⟨?_, ?_⟩, fun e he tree => ⟨fun h => ?_, ?_⟩⟩
  · rintro ⟨e, he⟩
    exact ⟨e.bare, derives_of_parse he⟩
  · rintro ⟨tree, h⟩
    obtain ⟨e, he, -⟩ := exists_parse_of_derives h
    exact ⟨e, he⟩
  · obtain ⟨e', he', rfl⟩ := exists_parse_of_derives h
    rw [Except.ok.inj (he'.symm.trans he)]
  · rintro rfl
    exact derives_of_parse he

theorem parse_derives_nested : ∃ e, parse "a(\\||.)*".toList = .ok e ∧
    ∀ tree, Derives maxNesting .expression "a(\\||.)*".toList [tree] ↔ tree = e.bare := by
  obtain ⟨e, he⟩ : ∃ e, parse "a(\\||.)*".toList = .ok e := ⟨_, rfl⟩
  exact ⟨e, he, (parse_derives _).2 e he⟩

end Expr

end PatternScan
