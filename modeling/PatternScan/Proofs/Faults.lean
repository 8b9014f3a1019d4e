import PatternScan.Pattern.Tiling
import PatternScan.Proofs.Prefixes
import PatternScan.Report.Annotation

/-!
# What an error marks

There are few reasons to refuse a token (`Reading.Refused`) or the end of a pattern, and each error
marks the text that its kind speaks of (`Expr.parse_error_locates`). What is before that text can
still become a pattern, and most kinds say that with the text nothing can.
-/

namespace PatternScan

namespace Reading

/-- Why a token of a kind is refused at a span. -/
inductive Refused (r : Reading) (span : Span) : TokenKind → PatternError → Prop
  | plainBreak {c : Char} : IsLineBreak c → Refused r span (.plain c) (.ofKind .lineBreak span)
  | escapedBreak {c : Char} : IsLineBreak c →
      Refused r span (.escaped c) (.ofKind .lineBreak span)
  | noAtom (q : Quantifier) : Refused r span (.quantifier q) (.nothingToRepeat q.symbol span)
  | tooDeep : Expr.maxNesting ≤ r.outer.length →
      Refused r span .parenOpen (.nestedPast Expr.maxNesting span)
  | unopened : r.outer = [] → Refused r span .parenClose (.ofKind .unmatchedCloseParen span)
  | emptyGroup {opening : Span} {l : Level} {outer : List (Span × Level)} :
      r.outer = (opening, l) :: outer → r.level.factors = [] → r.level.pipe? = none →
      Refused r span .parenClose (.ofKind .emptyGroup (opening.through span))
  | emptyFirst : r.level.factors = [] → r.level.pipe? = none →
      Refused r span .pipe (.ofKind .emptyAlternative span)
  | emptyLater {kind : TokenKind} {pipe : Span} : kind = .pipe ∨ kind = .parenClose →
      r.level.factors = [] → r.level.pipe? = some pipe →
      Refused r span kind (.ofKind .emptyAlternative pipe)

variable {r : Reading} {s : List Char} {span : Span} {kind : TokenKind} {e : PatternError}

theorem isLineBreak_of_literal {c : Char} (h : r.literal c span = .error e) :
    IsLineBreak c ∧ .ofKind .lineBreak span = e := by
  unfold Reading.literal at h
  split at h
  · next hbreak => exact ⟨hbreak, Except.error.inj h⟩
  · exact nomatch h

theorem eq_of_quantify {q : Quantifier} (h : r.quantify q span = .error e) :
    .nothingToRepeat q.symbol span = e := by
  unfold Reading.quantify at h
  split at h
  · exact Except.error.inj h
  · split at h
    · exact Except.error.inj h
    · cases h

theorem refused_of_alternative (h : r.alternative span = .error e) : r.Refused span .pipe e := by
  unfold Reading.alternative at h
  split at h
  · next hempty =>
    obtain rfl := Except.error.inj h
    have hfactors := List.isEmpty_iff.mp hempty
    rcases hpipe : r.level.pipe? with _ | pipe
    · exact .emptyFirst hfactors hpipe
    · exact .emptyLater (.inl rfl) hfactors hpipe
  · exact nomatch h

theorem refused_of_closeGroup (h : r.closeGroup span = .error e) :
    r.Refused span .parenClose e := by
  unfold Reading.closeGroup at h
  split at h
  · next houter =>
    obtain rfl := Except.error.inj h
    exact .unopened houter
  · next opening around outer houter =>
    split at h
    · next hempty =>
      have hfactors := List.isEmpty_iff.mp hempty
      split at h
      · next pipe hpipe =>
        obtain rfl := Except.error.inj h
        exact .emptyLater (.inr rfl) hfactors hpipe
      · next hpipe =>
        obtain rfl := Except.error.inj h
        exact .emptyGroup houter hfactors hpipe
    · exact nomatch h

theorem refused_of_step (h : r.step ⟨kind, span⟩ = .error e) : r.Refused span kind e := by
  cases kind with
  | plain c =>
    obtain ⟨hbreak, rfl⟩ := isLineBreak_of_literal h
    exact .plainBreak hbreak
  | escaped c =>
    obtain ⟨hbreak, rfl⟩ := isLineBreak_of_literal h
    exact .escapedBreak hbreak
  | dot => exact nomatch h
  | quantifier q =>
    obtain rfl := eq_of_quantify h
    exact .noAtom q
  | parenOpen =>
    change r.openGroup span = .error e at h
    unfold Reading.openGroup at h
    split at h
    · exact nomatch h
    · next hdepth =>
      obtain rfl := Except.error.inj h
      exact .tooDeep (Nat.le_of_not_lt hdepth)
  | parenClose => exact refused_of_closeGroup h
  | pipe => exact refused_of_alternative h

theorem finish_eq_error {sourceEnd : Nat} (h : r.finish sourceEnd = .error e) :
    (∃ pipe, r.level.factors = [] ∧ r.level.pipe? = some pipe ∧
      e = .ofKind .emptyAlternative pipe) ∨
    (∃ opening l outer, r.outer = (opening, l) :: outer ∧ e = .unclosedGroup opening sourceEnd) ∨
    (r.level.factors = [] ∧ r.level.pipe? = none ∧ r.outer = [] ∧
      e = .ofKind .emptyPattern ⟨0, 0⟩) := by
  unfold Reading.finish at h
  split at h
  · next pipe hempty hpipe =>
    exact .inl ⟨pipe, List.isEmpty_iff.mp hempty, hpipe, (Except.error.inj h).symm⟩
  · next opening l outer houter _ =>
    exact .inr (.inl ⟨opening, l, outer, houter, (Except.error.inj h).symm⟩)
  · next hempty hpipe houter =>
    exact .inr (.inr ⟨List.isEmpty_iff.mp hempty, hpipe, houter, (Except.error.inj h).symm⟩)
  · exact nomatch h

/-- The last `|`, if there is nothing after it on its level. -/
theorem After.of_pipe (h : r.After s) (hempty : r.level.factors = []) {pipe : Span}
    (hpipe : r.level.pipe? = some pipe) : ∃ u r', After r' u ∧ s = u ++ ['|'] ∧
      pipe = ⟨Utf8.byteLength u, Utf8.byteLength s⟩ := by
  rcases h.term_begins hempty with ⟨-, rfl⟩ | ⟨u, r', hu, hs, hlast⟩ | ⟨_, _, _, -, -, rfl⟩
  · exact nomatch hpipe
  · exact ⟨u, r', hu, hs, Option.some.inj (hpipe.symm.trans hlast)⟩
  · exact nomatch hpipe

/-- A level of which nothing has been read is that of the pattern or of a group. -/
theorem After.of_level_begins (h : r.After s) (hempty : r.level.factors = [])
    (hpipe : r.level.pipe? = none) : (s = [] ∧ r.outer = []) ∨
      ∃ u l outer, After ⟨l, outer⟩ u ∧ s = u ++ ['('] ∧
        r.outer = (⟨Utf8.byteLength u, Utf8.byteLength s⟩, l) :: outer := by
  rcases h.term_begins hempty with ⟨rfl, rfl⟩ | ⟨_, _, -, -, hlast⟩ | ⟨u, l, outer, hu, hs, rfl⟩
  · exact .inl ⟨rfl, rfl⟩
  · exact nomatch hpipe.symm.trans hlast
  · exact .inr ⟨u, l, outer, hu, hs, rfl⟩

theorem After.length_outer_le (h : r.After s) : r.outer.length ≤ Expr.maxNesting := by
  obtain ⟨tokens, hscan, hread⟩ := h.yields
  exact (spells_of_foldlM_step (Token.scanFrom_spec 0 s hscan).2 hread).1

/-- An alternation that lacks its last term is marked at its last `|`. -/
theorem After.locates_pipe (h : r.After s) (hempty : r.level.factors = []) {pipe : Span}
    (hpipe : r.level.pipe? = some pipe) (rest : List Char) (hrest : TermEnds rest) :
    ∃ before text after,
      (PatternError.ofKind .emptyAlternative pipe).Locates (s ++ rest) before text after := by
  obtain ⟨u, r', hu, rfl, rfl⟩ := h.of_pipe hempty hpipe
  exact ⟨u, ['|'], rest, rfl, rfl, rfl, ⟨rfl, .inr hrest⟩, fun _ => hu.completes,
    fun hfinal => absurd hfinal (show ¬ PatternErrorKind.emptyAlternative.IsFinal by decide)⟩

/-- A token that is refused may be what the error marks. -/
theorem After.locates_token (h : r.After s) (rest : List Char)
    (hno : ∀ more tree, Expr.parse (s ++ kind.text ++ more) ≠ .ok tree)
    (hspan : e.span = ⟨Utf8.byteLength s, Utf8.byteLength (s ++ kind.text)⟩)
    (hrelated : e.related? = none) (hkind : e.kind ≠ .unmatchedOpenParen)
    (hmarks : e.kind.Marks s kind.text rest) :
    ∃ before text after, e.Locates (s ++ kind.text ++ rest) before text after :=
  ⟨s, kind.text, rest, {
    source_eq := rfl
    span_eq := hspan
    related_eq := by rw [hrelated, if_neg hkind, Option.map_none]
    marks := hmarks
    completes := fun _ => h.completes
    no_extension := fun _ => hno }⟩

theorem Refused.locates (h : r.Refused ⟨Utf8.byteLength s, Utf8.byteLength (s ++ kind.text)⟩ kind e)
    (hafter : r.After s) (hno : ∀ more tree, Expr.parse (s ++ kind.text ++ more) ≠ .ok tree)
    (rest : List Char) :
    ∃ before text after, e.Locates (s ++ kind.text ++ rest) before text after := by
  have htoken := hafter.locates_token (e := e) rest hno
  cases h with
  | plainBreak hbreak => exact htoken rfl rfl nofun ⟨_, hbreak, .inl rfl⟩
  | escapedBreak hbreak => exact htoken rfl rfl nofun ⟨_, hbreak, .inr rfl⟩
  | noAtom q => exact htoken rfl rfl nofun ⟨q, rfl⟩
  | tooDeep hdepth =>
    have houter : r.outer.length = Expr.maxNesting := le_antisymm hafter.length_outer_le hdepth
    exact htoken rfl rfl nofun ⟨rfl, houter ▸ hafter.depth⟩
  | unopened houter =>
    have hdepth := hafter.depth
    rw [houter] at hdepth
    exact htoken rfl rfl nofun ⟨rfl, hdepth⟩
  | emptyFirst hempty hpipe =>
    refine htoken rfl rfl nofun ⟨rfl, .inl ?_⟩
    rcases hafter.of_level_begins hempty hpipe with ⟨rfl, -⟩ | ⟨u, l, outer, hu, rfl, -⟩
    · exact .inl rfl
    · exact .inr ⟨u, _, hu.depth, .inr rfl⟩
  -- The other two mark text that is before the token.
  | emptyGroup houter hempty hpipe =>
    rcases hafter.of_level_begins hempty hpipe with ⟨-, hnone⟩ | ⟨u, l, outer, hu, rfl, houter'⟩
    · exact nomatch houter.symm.trans hnone
    · obtain ⟨rfl, -⟩ := Prod.mk.inj (List.cons.inj (houter.symm.trans houter')).1
      refine ⟨u, ['(', ')'], rest, ?_, ?_, rfl, rfl, fun _ => hu.completes, fun _ => ?_⟩
      · simp [TokenKind.text]
      · simp [PatternError.ofKind, Span.through, TokenKind.text]
      · simpa [TokenKind.text] using hno
  | emptyLater hkind hempty hpipe =>
    have hrest : TermEnds (kind.text ++ rest) := by
      rcases hkind with rfl | rfl
      · exact .inr ⟨rest, .inl rfl⟩
      · exact .inr ⟨rest, .inr rfl⟩
    rw [List.append_assoc]
    exact hafter.locates_pipe hempty hpipe _ hrest

theorem After.locates_end (h : r.After s) (hr : r.finish (Utf8.byteLength s) = .error e) :
    ∃ before text after, e.Locates s before text after := by
  rcases finish_eq_error hr with ⟨pipe, hempty, hpipe, rfl⟩ | ⟨opening, l, outer, houter, rfl⟩ |
    ⟨hempty, hpipe, houter, rfl⟩
  · have hlocates := h.locates_pipe hempty hpipe [] (.inl rfl)
    rwa [List.append_nil] at hlocates
  · have hopened := h.openedBy
    rw [houter] at hopened
    obtain ⟨u, v, rfl, rfl, hv, hu, -⟩ := hopened
    exact ⟨u, ['('], v, by simp, rfl, rfl, ⟨rfl, hv⟩, fun _ => hu.completes,
      fun hfinal => absurd hfinal (show ¬ PatternErrorKind.unmatchedOpenParen.IsFinal by decide)⟩
  · rcases h.of_level_begins hempty hpipe with ⟨rfl, -⟩ | ⟨_, _, _, -, -, houter'⟩
    · exact ⟨[], [], [], rfl, rfl, rfl, ⟨rfl, rfl, rfl⟩, fun _ => After.start.completes,
        fun hfinal => absurd hfinal (by decide)⟩
    · exact nomatch houter.symm.trans houter'

end Reading

namespace PatternError

variable {e : PatternError} {source before text after : List Char}

theorem Locates.holds (h : e.Locates source before text after) : e.span.Holds source text := by
  rw [h.span_eq]
  exact ⟨before, after, h.source_eq, rfl, rfl⟩

theorem Locates.text_ne_nil (h : e.Locates source before text after) (hne : source ≠ []) :
    text ≠ [] := by
  rintro rfl
  have hmarks := h.marks
  rcases hkind : e.kind <;> rw [hkind] at hmarks <;>
    simp only [PatternErrorKind.Marks, reduceCtorEq, false_and, exists_false] at hmarks
  · exact hne (by simp [h.source_eq, hmarks])
  · simp at hmarks

theorem feed_not_mem_ofKind (kind : PatternErrorKind) (span : Span) :
    '\n' ∉ (ofKind kind span).message := by
  show '\n' ∉ kind.message
  cases kind <;> decide

theorem feed_not_mem_nothingToRepeat (q : Quantifier) (span : Span) :
    '\n' ∉ (nothingToRepeat q.symbol span).message := by
  show '\n' ∉ '\'' :: q.symbol :: "' has nothing to repeat (escape it as '\\".toList ++
    [q.symbol, '\'', ')']
  cases q <;> decide

theorem feed_not_mem_nestedPast (span : Span) :
    '\n' ∉ (nestedPast Expr.maxNesting span).message := by
  show '\n' ∉ "groups are nested more than ".toList ++ Expr.maxNesting.repr.toList ++
    " deep".toList
  decide

theorem Locates.related_span (h : e.Locates source before text after) {note : RelatedNote}
    (hnote : e.related? = some note) :
    note.span = ⟨Utf8.byteLength source, Utf8.byteLength source⟩ := by
  have hspan := h.related_eq
  rw [hnote, Option.map_some] at hspan
  split at hspan
  · exact Option.some.inj hspan
  · exact nomatch hspan

theorem Locates.fits (h : e.Locates source before text after) : e.fits source = true := by
  have hfits : ∀ span ∈ e.span :: e.related?.toList.map (·.span),
      Utf8.isBoundary source span.start = true ∧ Utf8.isBoundary source span.stop = true := by
    rw [List.forall_mem_cons]
    refine ⟨h.holds.boundaries, fun span hspan => ?_⟩
    obtain ⟨note, hnote, rfl⟩ := List.mem_map.mp hspan
    rw [h.related_span (Option.mem_toList.mp hnote)]
    exact Span.holds_whole.stop_nil.boundaries
  simpa [PatternError.fits] using hfits

/-- The end of a source is shown as its last character. -/
theorem visibleSpan_end (hne : source ≠ []) : ∃ c, Span.Holds
    (visibleSpan source ⟨Utf8.byteLength source, Utf8.byteLength source⟩) source [c] := by
  obtain ⟨init, c, rfl⟩ := source.eq_nil_or_concat.resolve_left hne
  have htake : Utf8.take (Utf8.byteLength (init ++ [c])) (init ++ [c]) = init ++ [c] := by
    have happend := Utf8.take_byteLength_append (init ++ [c]) []
    rwa [List.append_nil] at happend
  have hspan : visibleSpan (init ++ [c])
      ⟨Utf8.byteLength (init ++ [c]), Utf8.byteLength (init ++ [c])⟩ =
        ⟨Utf8.byteLength init, Utf8.byteLength (init ++ [c])⟩ := by
    simp only [visibleSpan, ne_eq, not_true, if_false, htake]
    simp [Utf8.byteLength]
  rw [List.concat_eq_append, hspan]
  exact ⟨c, init, [], by simp, rfl, rfl⟩

theorem Locates.visible (h : e.Locates source before text after) (hne : source ≠ []) :
    ∀ span ∈ e.visibleSpans source, span.start < span.stop ∧
      Utf8.isBoundary source span.start = true ∧ Utf8.isBoundary source span.stop = true := by
  have hholds : ∀ span ∈ e.visibleSpans source, ∃ shown, shown ≠ [] ∧ span.Holds source shown := by
    rw [visibleSpans, List.map_cons, List.forall_mem_cons]
    refine ⟨⟨text, h.text_ne_nil hne, ?_⟩, fun span hspan => ?_⟩
    · rw [visibleSpan, if_pos (h.holds.start_lt_stop (h.text_ne_nil hne)).ne]
      exact h.holds
    · obtain ⟨_, hrelated, rfl⟩ := List.mem_map.mp hspan
      obtain ⟨note, hnote, rfl⟩ := List.mem_map.mp hrelated
      obtain ⟨c, hc⟩ := visibleSpan_end hne
      rw [h.related_span (Option.mem_toList.mp hnote)]
      exact ⟨[c], List.cons_ne_nil c [], hc⟩
  intro span hspan
  obtain ⟨shown, hshown, hspan⟩ := hholds span hspan
  exact ⟨hspan.start_lt_stop hshown, hspan.boundaries⟩

end PatternError

namespace Expr

variable {source : List Char} {e : PatternError}

theorem exists_locates_of_parse (h : Expr.parse source = .error e) :
    ∃ before text after, e.Locates source before text after := by
  rcases Expr.parse_eq_error h with hscan |
    ⟨-, ⟨s, kind, rest, r, rfl, hplain, hafter, hr⟩ | ⟨r, hafter, hr⟩⟩
  · obtain ⟨s, rfl, rfl⟩ := Token.scanFrom_eq_error 0 source hscan
    refine ⟨s, ['\\'], [], by simp, by simp [PatternError.ofKind], rfl, ⟨rfl, rfl⟩,
      fun hkind => absurd rfl hkind, fun hfinal => ?_⟩
    exact absurd hfinal (show ¬ PatternErrorKind.trailingBackslash.IsFinal by decide)
  · exact (Reading.refused_of_step hr).locates hafter (hafter.no_extension hplain hr) rest
  · exact hafter.locates_end hr

theorem kind_eq_trailingBackslash_iff (h : Expr.parse source = .error e) :
    e.kind = .trailingBackslash ↔ ∃ err, Token.scan source = .error err := by
  rcases Expr.parse_eq_error h with hscan | ⟨⟨tokens, hscan⟩, hread⟩
  · obtain ⟨s, -, he⟩ := Token.scanFrom_eq_error 0 source hscan
    exact iff_of_true (congrArg PatternError.kind he) ⟨e, hscan⟩
  · refine iff_of_false ?_ ?_
    · rcases hread with ⟨_, _, _, r, -, -, -, hr⟩ | ⟨r, -, hr⟩
      · cases Reading.refused_of_step hr <;> exact nofun
      · rcases Reading.finish_eq_error hr with ⟨_, -, -, rfl⟩ | ⟨_, _, _, -, rfl⟩ | ⟨-, -, -, rfl⟩
        all_goals exact nofun
    · rintro ⟨err, herr⟩
      exact nomatch hscan.symm.trans herr

/-- An error is reported on one line. -/
theorem feed_not_mem_message (h : Expr.parse source = .error e) : '\n' ∉ e.message := by
  rcases Expr.parse_eq_error h with hscan | ⟨-, ⟨_, _, _, r, -, -, -, hr⟩ | ⟨r, -, hr⟩⟩
  · obtain ⟨_, -, rfl⟩ := Token.scanFrom_eq_error 0 source hscan
    exact PatternError.feed_not_mem_ofKind _ _
  · cases Reading.refused_of_step hr with
    | noAtom q => exact PatternError.feed_not_mem_nothingToRepeat q _
    | tooDeep _ => exact PatternError.feed_not_mem_nestedPast _
    | _ => exact PatternError.feed_not_mem_ofKind _ _
  · rcases Reading.finish_eq_error hr with ⟨_, -, -, rfl⟩ | ⟨opening, _, _, -, rfl⟩ | ⟨-, -, -, rfl⟩
    · exact PatternError.feed_not_mem_ofKind _ _
    · exact PatternError.feed_not_mem_ofKind .unmatchedOpenParen opening
    · exact PatternError.feed_not_mem_ofKind _ _

/-- Every error of a pattern marks the text that is at fault, in a place of whole characters, and
a backslash at the end of the pattern is reported before all others. -/
theorem parse_error_locates (h : Expr.parse source = .error e) :
    (e.kind = .trailingBackslash ↔ ∃ err, Token.scan source = .error err) ∧
    (∃ before text after, e.Locates source before text after) ∧ e.fits source = true ∧
    (source ≠ [] → ∀ span ∈ e.visibleSpans source, span.start < span.stop ∧
      Utf8.isBoundary source span.start = true ∧ Utf8.isBoundary source span.stop = true) := by
  obtain ⟨before, text, after, hlocates⟩ := exists_locates_of_parse h
  exact ⟨kind_eq_trailingBackslash_iff h, ⟨before, text, after, hlocates⟩, hlocates.fits,
    hlocates.visible⟩

/-- Of two groups that are open at the end the inner one is marked, and the end with it. -/
theorem parse_error_locates_open : ∃ e, Expr.parse "(é|(b(c)".toList = .error e ∧
    e.kind = .unmatchedOpenParen ∧ e.visibleSpans "(é|(b(c)".toList = [⟨4, 5⟩, ⟨8, 9⟩] ∧
    (∃ before text after, e.Locates "(é|(b(c)".toList before text after) ∧
    e.fits "(é|(b(c)".toList = true := by
  have hparse : Expr.parse "(é|(b(c)".toList = .error (.unclosedGroup ⟨4, 5⟩ 9) := rfl
  obtain ⟨-, hlocates, hfits, -⟩ := parse_error_locates hparse
  exact ⟨_, hparse, rfl, by decide, hlocates, hfits⟩

end Expr

end PatternScan
