import PatternScan.Pattern.Fault
import PatternScan.Proofs.Acceptance

/-!
# What can still become a pattern

A text that has been read without an error can be completed: a literal and the parentheses that are
missing then make a pattern of it (`Reading.After.completes`). A text that ends in a token that is
refused cannot, whatever comes after it (`Reading.After.no_extension`).
-/

namespace PatternScan

section Depth

theorem groupDepth_cons {c : Char} (hc : c ≠ '\\') (depth : Nat) (s : List Char) :
    groupDepth depth (c :: s) = (depthAfter? depth c).bind fun depth => groupDepth depth s := by
  rw [groupDepth]
  · rintro rfl
    exact absurd rfl hc
  · rintro _ _ rfl
    exact absurd rfl hc

theorem groupDepth_append (depth : Nat) (s : List Char) {depth' : Nat}
    (h : groupDepth depth s = some depth') (u : List Char) :
    groupDepth depth (s ++ u) = groupDepth depth' u := by
  fun_induction groupDepth depth s
  case case1 =>
    rw [Option.some.inj h]
    rfl
  case case2 => exact nomatch h
  case case3 depth c rest ih => exact ih h
  case case4 depth c rest hlast hmore ih =>
    obtain ⟨next, hnext, hrest⟩ := Option.bind_eq_some_iff.mp h
    rw [List.cons_append, groupDepth_cons (Token.ne_backslash hlast hmore), hnext]
    exact ih next hrest

theorem depthAfter?_add {depth depth' : Nat} {c : Char} (h : depthAfter? depth c = some depth')
    (more : Nat) : depthAfter? (depth + more) c = some (depth' + more) := by
  unfold depthAfter? at h ⊢
  split_ifs at h ⊢ <;> simp only [Option.some.injEq] at h ⊢ <;> omega

/-- Groups that are open around a text stay open. -/
theorem groupDepth_add (depth : Nat) (s : List Char) {depth' : Nat}
    (h : groupDepth depth s = some depth') (more : Nat) :
    groupDepth (depth + more) s = some (depth' + more) := by
  fun_induction groupDepth depth s
  case case1 =>
    rw [Option.some.inj h]
    rfl
  case case2 => exact nomatch h
  case case3 depth c rest ih => exact ih h
  case case4 depth c rest hlast hmore ih =>
    obtain ⟨next, hnext, hrest⟩ := Option.bind_eq_some_iff.mp h
    rw [groupDepth_cons (Token.ne_backslash hlast hmore), depthAfter?_add hnext more]
    exact ih next hrest

theorem groupDepth_text {kind : TokenKind} (hplain : kind.PlainOnly) (hopen : kind ≠ .parenOpen)
    (hclose : kind ≠ .parenClose) : groupDepth 0 kind.text = some 0 := by
  cases kind with
  | parenOpen => exact absurd rfl hopen
  | parenClose => exact absurd rfl hclose
  | plain c =>
    have hmeta := hplain c rfl
    simp only [IsMeta, List.mem_cons, List.not_mem_nil, or_false, not_or] at hmeta
    obtain ⟨-, -, -, -, hc, hc', -, hslash⟩ := hmeta
    rw [TokenKind.text, groupDepth_cons hslash]
    simp [depthAfter?, hc, hc', groupDepth]
  | quantifier q => cases q <;> rfl
  | _ => rfl

end Depth

namespace Reading

variable {r r' : Reading} {s : List Char} {kind : TokenKind} {e : PatternError}

theorem outer_of_step {span : Span} (hopen : kind ≠ .parenOpen) (hclose : kind ≠ .parenClose)
    (hr : r.step ⟨kind, span⟩ = .ok r') : r'.outer = r.outer := by
  cases kind with
  | parenOpen => exact absurd rfl hopen
  | parenClose => exact absurd rfl hclose
  | plain c | escaped c =>
    obtain ⟨-, rfl⟩ := literal_eq_ok_iff.mp hr
    rfl
  | dot =>
    obtain rfl := Except.ok.inj hr
    rfl
  | quantifier q =>
    obtain ⟨_, _, _, -, -, rfl⟩ := quantify_eq_ok_iff.mp hr
    rfl
  | pipe =>
    obtain ⟨-, rfl⟩ := alternative_eq_ok_iff.mp hr
    rfl

theorem After.yields (h : r.After s) : Reading.start.Yields 0 s r := by
  induction h with
  | start => exact ⟨[], rfl, rfl⟩
  | @token r r' s kind _ hplain hr ih =>
    obtain ⟨before, hscan, hread⟩ := ih
    refine ⟨before ++ [⟨kind, ⟨Utf8.byteLength s, Utf8.byteLength (s ++ kind.text)⟩⟩], ?_,
      foldlM_step_concat.mpr ⟨r, hread, hr⟩⟩
    have htext := Token.scanFrom_text hplain (Utf8.byteLength s) []
    rw [List.append_nil] at htext
    rw [Token.scanFrom_append 0 s hscan, Nat.zero_add, htext, ← Utf8.byteLength_append]
    rfl

/-- A term of which nothing has been read begins the pattern, or just after a `|` or a `(`. -/
theorem After.term_begins (h : r.After s) (hempty : r.level.factors = []) :
    (s = [] ∧ r = .start) ∨
    (∃ u r', After r' u ∧ s = u ++ ['|'] ∧
      r.level.pipe? = some ⟨Utf8.byteLength u, Utf8.byteLength s⟩) ∨
    ∃ u l outer, After ⟨l, outer⟩ u ∧ s = u ++ ['('] ∧
      r = ⟨.empty, (⟨Utf8.byteLength u, Utf8.byteLength s⟩, l) :: outer⟩ := by
  cases h with
  | start => exact .inl ⟨rfl, rfl⟩
  | @token r r' s kind hbefore _ hr =>
    cases kind with
    | parenOpen =>
      obtain ⟨-, rfl⟩ := openGroup_eq_ok_iff.mp hr
      exact .inr (.inr ⟨s, r.level, r.outer, hbefore, rfl, rfl⟩)
    | pipe =>
      obtain ⟨-, rfl⟩ := alternative_eq_ok_iff.mp hr
      exact .inr (.inl ⟨s, r, hbefore, rfl, rfl⟩)
    -- Every other token leaves a factor.
    | parenClose =>
      obtain ⟨_, _, _, -, -, rfl⟩ := closeGroup_eq_ok_iff.mp hr
      exact nomatch hempty
    | plain c | escaped c =>
      obtain ⟨-, rfl⟩ := literal_eq_ok_iff.mp hr
      exact nomatch hempty
    | dot =>
      obtain rfl := Except.ok.inj hr
      exact nomatch hempty
    | quantifier q =>
      obtain ⟨_, _, _, -, -, rfl⟩ := quantify_eq_ok_iff.mp hr
      exact nomatch hempty

/-- Each group that is open has a `(`, before which its surroundings have been read, and after which
no other group is open up to the `(` of the next one. -/
def OpenedBy : List (Span × Level) → List Char → Prop
  | [], s => groupDepth 0 s = some 0
  | (opening, l) :: outer, s => ∃ u v, s = u ++ '(' :: v ∧
      opening = ⟨Utf8.byteLength u, Utf8.byteLength (u ++ ['('])⟩ ∧ groupDepth 0 v = some 0 ∧
      After ⟨l, outer⟩ u ∧ OpenedBy outer u

theorem OpenedBy.append : ∀ {outer : List (Span × Level)} {s v : List Char}, OpenedBy outer s →
    groupDepth 0 v = some 0 → OpenedBy outer (s ++ v)
  | [], _, _, h, hv => (groupDepth_append 0 _ h _).trans hv
  | _ :: _, _, v, ⟨u, w, hs, hopening, hw, hafter, houter⟩, hv =>
    ⟨u, w ++ v, by simp [hs], hopening, (groupDepth_append 0 w hw v).trans hv, hafter, houter⟩

theorem OpenedBy.depth : ∀ {outer : List (Span × Level)} {s : List Char}, OpenedBy outer s →
    groupDepth 0 s = some outer.length
  | [], _, h => h
  | _ :: outer, _, ⟨u, v, hs, _, hv, _, houter⟩ => by
    have hu := houter.depth
    rw [hs, groupDepth_append 0 u hu, groupDepth_cons (by decide)]
    have hdepth := groupDepth_add 0 v hv (outer.length + 1)
    rw [Nat.zero_add] at hdepth
    exact hdepth

theorem After.openedBy (h : r.After s) : OpenedBy r.outer s := by
  induction h with
  | start => rfl
  | @token r r' s kind hbefore hplain hr ih =>
    by_cases hopen : kind = .parenOpen
    · subst hopen
      obtain ⟨-, rfl⟩ := openGroup_eq_ok_iff.mp hr
      exact ⟨s, [], rfl, rfl, rfl, hbefore, ih⟩
    by_cases hclose : kind = .parenClose
    · subst hclose
      obtain ⟨opening, around, outer, houter, -, rfl⟩ := closeGroup_eq_ok_iff.mp hr
      rw [houter] at ih
      obtain ⟨u, v, rfl, -, hv, -, hu⟩ := ih
      have hgroup : groupDepth 0 ('(' :: v ++ [')']) = some 0 := by
        rw [List.cons_append, groupDepth_cons (by decide)]
        exact groupDepth_append 1 v (groupDepth_add 0 v hv 1) [')']
      rw [List.append_assoc]
      exact hu.append hgroup
    · rw [outer_of_step hopen hclose hr]
      exact ih.append (groupDepth_text hplain hopen hclose)

theorem After.depth (h : r.After s) : groupDepth 0 s = some r.outer.length :=
  h.openedBy.depth

theorem yields_closers : ∀ (outer : List (Span × Level)) {r : Reading} (offset : Nat),
    r.outer = outer → r.level.factors ≠ [] →
      ∃ r', r.Yields offset (List.replicate outer.length ')') r' ∧ r'.outer = [] ∧
        r'.level.factors ≠ []
  | [], r, _, houter, hne => ⟨r, ⟨[], rfl, rfl⟩, houter, hne⟩
  | (opening, around) :: outer, r, offset, houter, hne => by
    obtain ⟨r', hclose, houter', hne'⟩ : ∃ r', r.Yields offset [')'] r' ∧ r'.outer = outer ∧
        r'.level.factors ≠ [] :=
      ⟨_, yields_char (by decide) (closeGroup_eq_ok_iff.mpr ⟨_, _, _, houter, hne, rfl⟩), rfl,
        List.cons_ne_nil _ around.factors⟩
    obtain ⟨r'', hrest, hr''⟩ := yields_closers outer (offset + Utf8.byteLength [')']) houter' hne'
    exact ⟨r'', hclose.trans hrest, hr''⟩

/-- A literal and the parentheses that are missing then complete what has been read. -/
theorem After.completes (h : r.After s) : ∃ depth, groupDepth 0 s = some depth ∧
    ∃ tree, Expr.parse (s ++ 'a' :: List.replicate depth ')') = .ok tree := by
  refine ⟨r.outer.length, h.depth, ?_⟩
  obtain ⟨span, hliteral⟩ : ∃ span,
      r.Yields (0 + Utf8.byteLength s) ['a'] (r.push (.literal 'a' span)) :=
    ⟨_, yields_char (by decide) (literal_eq_ok_iff.mpr ⟨by decide, rfl⟩)⟩
  obtain ⟨r', hclosers, houter, hne⟩ := yields_closers r.outer (r := r.push (.literal 'a' span))
    (0 + Utf8.byteLength s + Utf8.byteLength ['a']) rfl (List.cons_ne_nil _ r.level.factors)
  obtain ⟨tokens, hscan, hread⟩ := h.yields.trans (hliteral.trans hclosers)
  exact ⟨_, Expr.parse_eq_ok_iff.mpr
    ⟨tokens, r', hscan, hread, finish_eq_ok_iff.mpr ⟨houter, hne, rfl⟩⟩⟩

/-- No text that begins with a token that is refused is a pattern. -/
theorem After.no_extension (h : r.After s) (hplain : kind.PlainOnly)
    (hr : r.step ⟨kind, ⟨Utf8.byteLength s, Utf8.byteLength (s ++ kind.text)⟩⟩ = .error e)
    (more : List Char) (tree : Expr) : Expr.parse (s ++ kind.text ++ more) ≠ .ok tree := by
  intro hparse
  obtain ⟨before, hs, hread⟩ := h.yields
  obtain ⟨tokens, r', hscan, hread', -⟩ := Expr.parse_eq_ok_iff.mp hparse
  rw [List.append_assoc, Token.scan, Token.scanFrom_append 0 s hs, Nat.zero_add,
    Token.scanFrom_text hplain, ← Utf8.byteLength_append] at hscan
  rcases hmore : Token.scanFrom (Utf8.byteLength (s ++ kind.text)) more with _ | after
  · rw [hmore] at hscan
    exact nomatch hscan
  · rw [hmore] at hscan
    obtain rfl := Except.ok.inj hscan
    rw [List.foldlM_append, hread] at hread'
    change List.foldlM step r (_ :: after) = _ at hread'
    rw [List.foldlM_cons, hr] at hread'
    exact nomatch hread'

theorem exists_of_foldlM_step_error : ∀ {tokens : List Token} {r : Reading},
    tokens.foldlM step r = .error e → ∃ before token after r', tokens = before ++ token :: after ∧
      before.foldlM step r = .ok r' ∧ r'.step token = .error e
  | [], _, h => nomatch h
  | token :: tokens, r, h => by
    rw [List.foldlM_cons] at h
    rcases hr : r.step token with err | next
    · rw [hr] at h
      obtain rfl := Except.error.inj h
      exact ⟨[], token, tokens, r, rfl, rfl, hr⟩
    · rw [hr] at h
      obtain ⟨before, token', after, r', rfl, hbefore, hr'⟩ := exists_of_foldlM_step_error h
      refine ⟨token :: before, token', after, r', rfl, ?_, hr'⟩
      rw [List.foldlM_cons, hr]
      exact hbefore

end Reading

/-- A pattern is refused if it has no tokens, at the first token that is refused, or at its end for
what is missing there. -/
theorem Expr.parse_eq_error {source : List Char} {e : PatternError}
    (h : Expr.parse source = .error e) :
    Token.scan source = .error e ∨
    (∃ tokens, Token.scan source = .ok tokens) ∧
      ((∃ s kind rest r, source = s ++ kind.text ++ rest ∧ kind.PlainOnly ∧ Reading.After r s ∧
        r.step ⟨kind, ⟨Utf8.byteLength s, Utf8.byteLength (s ++ kind.text)⟩⟩ = .error e) ∨
      ∃ r, Reading.After r source ∧ r.finish (Utf8.byteLength source) = .error e) := by
  unfold Expr.parse at h
  rcases hscan : Token.scan source with err | tokens
  · rw [hscan] at h
    exact .inl (congrArg _ (Except.error.inj h))
  rw [hscan] at h
  change Expr.ofTokens tokens (Utf8.byteLength source) = _ at h
  unfold Expr.ofTokens at h
  refine .inr ⟨⟨tokens, rfl⟩, ?_⟩
  rcases hread : tokens.foldlM Reading.step .start with err | r
  · rw [hread] at h
    obtain rfl := Except.error.inj h
    obtain ⟨before, ⟨kind, span⟩, after, r, rfl, hbefore, hr⟩ :=
      Reading.exists_of_foldlM_step_error hread
    have hplain := (Token.scanFrom_spec 0 source hscan).2 ⟨kind, span⟩ (by simp)
    obtain ⟨s, rest, rfl, hs, hspan, -⟩ := Token.scanFrom_eq_append_cons before hscan
    simp only [Nat.zero_add] at hspan
    subst hspan
    exact .inl ⟨s, kind, rest, r, rfl, hplain, Reading.after_of_foldlM_step hs hbefore, hr⟩
  · rw [hread] at h
    exact .inr ⟨r, Reading.after_of_foldlM_step hscan hread, h⟩

end PatternScan
