import PatternScan.Pattern.Tiling
import PatternScan.Proofs.Scanning

/-!
# Expressions lie where they were read

While a pattern is read, the factors of a term lie next to each other, the terms of a level have a
`|` between them, and a level begins where the `(` of its group ends. Every token keeps this
(`Reading.Lies.step`), so that the parts of an expression that is read tile the pattern, and the
pattern can be put together again from the tree (`Expr.parse_tiles`).
-/

namespace PatternScan

namespace Expr

section Parts

variable {source : List Char} {link : Nat → Nat → Prop} {a : Nat} {e : Expr} {items : List Expr}

theorem stopOfLast_append : ∀ (items : List Expr) (e : Expr), stopOfLast (items ++ [e]) = e.stop
  | [], _ => rfl
  | [_], _ => rfl
  | _ :: next :: rest, e => stopOfLast_append (next :: rest) e

/-- Parts begin with the first and end with the last, however their span is computed. -/
theorem encloses_iff {span : Span} : Encloses span items ↔
    items ≠ [] ∧ (⟨startOfFirst items, stopOfLast items⟩ : Span) = span := by
  obtain ⟨first, last⟩ := span
  rcases items.eq_nil_or_concat with rfl | ⟨rest, e, rfl⟩
  · simp [Encloses]
  · have hstart : startOfFirst (rest ++ [e]) = (rest.head?.getD e).start := by
      rcases rest with _ | ⟨e', rest⟩ <;> rfl
    simp [Encloses, hstart, stopOfLast_append]

/-- The expressions, the latest of which is first, lie one after the other from `a` on, and each
stop is linked to the next start, the latest one to `b`. -/
def LieBack (source : List Char) (link : Nat → Nat → Prop) (a : Nat) : List Expr → Nat → Prop
  | [], b => b = a
  | e :: before, b => e.Tiles source ∧ link e.stop b ∧ LieBack source link a before e.start

theorem LieBack.tiles : ∀ {items : List Expr} {b : Nat}, LieBack source link a items b →
    ∀ e ∈ items, e.Tiles source
  | [], _, _ => by simp
  | _ :: _, _, ⟨he, _, hbefore⟩ => List.forall_mem_cons.mpr ⟨he, hbefore.tiles⟩

theorem LieBack.start_getLast? : ∀ {items : List Expr} {e : Expr},
    LieBack source link a items e.start → (e :: items).getLast?.map start = some a
  | [], _, hstart => congrArg some hstart
  | _ :: _, _, ⟨_, _, hbefore⟩ => by
    rw [List.getLast?_cons_cons]
    exact hbefore.start_getLast?

theorem LieBack.isChain : ∀ {items : List Expr} {e : Expr},
    LieBack source link a items e.start → (e :: items).IsChain fun next e => link e.stop next.start
  | [], _, _ => .singleton _
  | _ :: _, _, ⟨_, hlink, hbefore⟩ => .cons_cons hlink hbefore.isChain

/-- What is made of parts in a row lies from where the first begins to where the latest stops. -/
theorem tiles_ofParts {wrap : List Expr → Expr}
    (hspan : ∀ items, (wrap items).span = ⟨startOfFirst items, stopOfLast items⟩)
    (hwrap : ∀ items, AllTile source items → Encloses (wrap items).span items →
      (items.IsChain fun e next => link e.stop next.start) → (wrap items).Tiles source)
    (he : e.Tiles source) (hbefore : LieBack source link a items e.start) :
    (ofParts wrap (e :: items).reverse).Tiles source ∧
      (ofParts wrap (e :: items).reverse).span = ⟨a, e.stop⟩ := by
  -- The latest part is first while they are read, and last in the expression.
  have hencloses : Encloses ⟨a, e.stop⟩ (e :: items).reverse := by
    refine ⟨?_, ?_⟩
    · rw [List.head?_reverse, hbefore.start_getLast?]
    · rw [List.getLast?_reverse]
      rfl
  have hchain : (e :: items).reverse.IsChain fun e next => link e.stop next.start :=
    List.isChain_reverse.mpr hbefore.isChain
  have hall : AllTile source (e :: items).reverse := allTile_iff.mpr fun x hx =>
    List.forall_mem_cons.mpr ⟨he, hbefore.tiles⟩ x (List.mem_reverse.mp hx)
  have hparts := (encloses_iff.mp hencloses).2
  generalize (e :: items).reverse = parts at hencloses hchain hall hparts
  unfold ofParts
  split
  · next x => exact ⟨allTile_iff.mp hall x (by simp), hparts⟩
  · rw [hspan, hparts]
    exact ⟨hwrap parts hall (by rwa [hspan, hparts]) hchain, rfl⟩

end Parts

end Expr

/-- A `|` is between two places of the source. -/
def PipeBetween (source : List Char) (first last : Nat) : Prop :=
  Span.Holds ⟨first, last⟩ source ['|']

namespace Level

/-- What has been read of the level lies in the source from `a` to `b`. -/
def Lies (source : List Char) (a b : Nat) (l : Level) : Prop :=
  ∃ m, Expr.LieBack source (PipeBetween source) a l.terms m ∧
    Expr.LieBack source (· = ·) m l.factors b

variable {source : List Char} {a b : Nat} {l : Level}

theorem lies_empty : Level.empty.Lies source a a :=
  ⟨a, rfl, rfl⟩

theorem Lies.push {e : Expr} (h : l.Lies source a e.start) (he : e.Tiles source) :
    (l.push e).Lies source a e.stop := by
  obtain ⟨m, hterms, hfactors⟩ := h
  exact ⟨m, hterms, he, rfl, hfactors⟩

theorem Lies.quantify {q : Quantifier} {e e' : Expr} {before : List Expr} {span : Span}
    (h : l.Lies source a span.start) (hspan : span.Holds source [q.symbol])
    (hl : l.factors = e :: before) (he : e.quantify? q span.stop = some e') :
    ({ l with factors := e' :: before } : Level).Lies source a span.stop := by
  obtain ⟨m, hterms, hfactors⟩ := h
  rw [hl] at hfactors
  obtain ⟨htiles, hstop, hbefore⟩ := hfactors
  have he' : e' = .repetition q e ⟨e.start, span.stop⟩ := by
    unfold Expr.quantify? at he
    split at he
    · exact nomatch he
    · exact (Option.some.inj he).symm
  subst he'
  have hsymbol : Span.Holds ⟨e.stop, span.stop⟩ source [q.symbol] := by
    rw [hstop]
    exact hspan
  exact ⟨m, hterms, by rw [Expr.Tiles]; exact ⟨htiles, rfl, hsymbol⟩, rfl, hbefore⟩

theorem Lies.term (h : l.Lies source a b) (hne : l.factors ≠ []) :
    ∃ m, Expr.LieBack source (PipeBetween source) a l.terms m ∧ l.term.Tiles source ∧
      l.term.span = ⟨m, b⟩ := by
  obtain ⟨m, hterms, hfactors⟩ := h
  obtain ⟨e, before, hl⟩ := List.exists_cons_of_ne_nil hne
  rw [hl] at hfactors
  obtain ⟨he, rfl, hbefore⟩ := hfactors
  refine ⟨m, hterms, ?_⟩
  rw [Level.term, hl]
  refine Expr.tiles_ofParts (fun _ => rfl) (fun items hall hencloses hchain => ?_) he hbefore
  rw [Expr.Tiles]
  exact ⟨hall, hencloses, hchain⟩

theorem Lies.startTerm {pipe : Span} (h : l.Lies source a pipe.start) (hne : l.factors ≠ [])
    (hpipe : pipe.Holds source ['|']) : (l.startTerm pipe).Lies source a pipe.stop := by
  obtain ⟨m, hterms, hterm, hspan⟩ := h.term hne
  obtain ⟨hstart, hstop⟩ := Span.mk.inj hspan
  refine ⟨pipe.stop, ⟨hterm, ?_, hstart ▸ hterms⟩, rfl⟩
  rw [PipeBetween, hstop]
  exact hpipe

theorem Lies.expression (h : l.Lies source a b) (hne : l.factors ≠ []) :
    l.expression.Tiles source ∧ l.expression.span = ⟨a, b⟩ := by
  obtain ⟨m, hterms, hterm, hspan⟩ := h.term hne
  obtain ⟨rfl, rfl⟩ := Span.mk.inj hspan
  refine Expr.tiles_ofParts (fun _ => rfl) (fun items hall hencloses hchain => ?_) hterm hterms
  rw [Expr.Tiles]
  exact ⟨hall, hencloses, hchain⟩

end Level

namespace Reading

/-- What has been read around the innermost level lies in the source before `b`, up to and with the
`(` that opens it. -/
def LiesAround (source : List Char) : List (Span × Level) → Nat → Prop
  | [], b => b = 0
  | (opening, l) :: outer, b => opening.Holds source ['('] ∧ opening.stop = b ∧
      ∃ a, LiesAround source outer a ∧ l.Lies source a opening.start

/-- What has been read lies in the source before `b`. -/
def Lies (source : List Char) (b : Nat) (r : Reading) : Prop :=
  ∃ a, LiesAround source r.outer a ∧ r.level.Lies source a b

variable {source : List Char} {r r' : Reading} {span : Span}

theorem lies_start : Reading.start.Lies source 0 :=
  ⟨0, rfl, Level.lies_empty⟩

theorem Lies.push {e : Expr} (h : r.Lies source e.start) (he : e.Tiles source) :
    (r.push e).Lies source e.stop := by
  obtain ⟨a, haround, hlevel⟩ := h
  exact ⟨a, haround, hlevel.push he⟩

theorem Lies.literal (h : r.Lies source span.start) {c : Char} (hr : r.literal c span = .ok r')
    (hspan : span.Holds source [c] ∨ span.Holds source ['\\', c]) : r'.Lies source span.stop := by
  obtain ⟨-, rfl⟩ := literal_eq_ok_iff.mp hr
  refine Lies.push (e := .literal c span) h ?_
  rwa [Expr.Tiles]

theorem Lies.quantify (h : r.Lies source span.start) {q : Quantifier}
    (hr : r.quantify q span = .ok r') (hspan : span.Holds source [q.symbol]) :
    r'.Lies source span.stop := by
  obtain ⟨factor, before, repeated, hfactors, hrepeated, rfl⟩ := quantify_eq_ok_iff.mp hr
  obtain ⟨a, haround, hlevel⟩ := h
  exact ⟨a, haround, hlevel.quantify hspan hfactors hrepeated⟩

theorem Lies.openGroup (h : r.Lies source span.start) (hr : r.openGroup span = .ok r')
    (hspan : span.Holds source ['(']) : r'.Lies source span.stop := by
  obtain ⟨-, rfl⟩ := openGroup_eq_ok_iff.mp hr
  exact ⟨span.stop, ⟨hspan, rfl, h⟩, Level.lies_empty⟩

theorem Lies.alternative (h : r.Lies source span.start) (hr : r.alternative span = .ok r')
    (hspan : span.Holds source ['|']) : r'.Lies source span.stop := by
  obtain ⟨hne, rfl⟩ := alternative_eq_ok_iff.mp hr
  obtain ⟨a, haround, hlevel⟩ := h
  exact ⟨a, haround, hlevel.startTerm hne hspan⟩

theorem Lies.closeGroup (h : r.Lies source span.start) (hr : r.closeGroup span = .ok r')
    (hspan : span.Holds source [')']) : r'.Lies source span.stop := by
  obtain ⟨opening, around, outer, houter, hne, rfl⟩ := closeGroup_eq_ok_iff.mp hr
  obtain ⟨m, haround, hlevel⟩ := h
  rw [houter] at haround
  obtain ⟨hopening, rfl, a, haround, hlevel'⟩ := haround
  obtain ⟨htiles, hinner⟩ := hlevel.expression hne
  obtain ⟨hstart, hstop⟩ := Span.mk.inj hinner
  refine ⟨a, haround, Level.Lies.push (e := .group _ (opening.through span)) hlevel' ?_⟩
  rw [Expr.Tiles, hinner]
  exact ⟨htiles, hopening, hspan⟩

theorem Lies.step (span : Span) (h : r.Lies source span.start) : ∀ {kind : TokenKind},
    span.Holds source kind.text → r.step ⟨kind, span⟩ = .ok r' → r'.Lies source span.stop
  | .plain _, hspan, hr => h.literal hr (.inl hspan)
  | .escaped _, hspan, hr => h.literal hr (.inr hspan)
  | .dot, hspan, hr => by
    obtain rfl := Except.ok.inj hr
    refine Lies.push (e := .wildcard span) h ?_
    rwa [Expr.Tiles]
  | .quantifier _, hspan, hr => h.quantify hr hspan
  | .parenOpen, hspan, hr => h.openGroup hr hspan
  | .parenClose, hspan, hr => h.closeGroup hr hspan
  | .pipe, hspan, hr => h.alternative hr hspan

theorem Lies.finish {b sourceEnd : Nat} {e : Expr} (h : r.Lies source b)
    (hr : r.finish sourceEnd = .ok e) : e.span = ⟨0, b⟩ ∧ e.Tiles source := by
  obtain ⟨houter, hne, rfl⟩ := finish_eq_ok_iff.mp hr
  obtain ⟨a, haround, hlevel⟩ := h
  rw [houter] at haround
  obtain rfl : a = 0 := haround
  exact (hlevel.expression hne).symm

/-- What has been read of a prefix of the source lies in it. -/
theorem After.lies {s : List Char} (h : r.After s) :
    ∀ rest, r.Lies (s ++ rest) (Utf8.byteLength s) := by
  induction h with
  | start => exact fun _ => lies_start
  | @token r r' s kind _ _ hr ih =>
    intro rest
    have hspan : Span.Holds ⟨Utf8.byteLength s, Utf8.byteLength (s ++ kind.text)⟩
        (s ++ kind.text ++ rest) kind.text := ⟨s, rest, rfl, rfl, rfl⟩
    refine Lies.step ⟨_, _⟩ ?_ hspan hr
    rw [List.append_assoc]
    exact ih (kind.text ++ rest)

end Reading

namespace Expr

variable {source : List Char}

/-- Parts that have their places make up the place of the list, with what is between them. -/
theorem holds_rebuildAll {between : List Char} : ∀ {items : List Expr} {span : Span},
    (∀ e ∈ items, e.span.Holds source (e.rebuild source)) → Encloses span items →
      (items.IsChain fun e next => Span.Holds ⟨e.stop, next.start⟩ source between) →
        span.Holds source (rebuildAll source between items)
  | [], _, _, hencloses, _ => nomatch hencloses.1
  | [e], span, hall, hencloses, _ => by
    obtain rfl := (encloses_iff.mp hencloses).2
    rw [rebuildAll]
    exact hall e (by simp)
  | e :: next :: rest, span, hall, hencloses, hchain => by
    obtain rfl := (encloses_iff.mp hencloses).2
    obtain ⟨hlink, hchain⟩ := List.isChain_cons_cons.mp hchain
    obtain ⟨he, hall⟩ := List.forall_mem_cons.mp hall
    have hrest := holds_rebuildAll hall (encloses_iff.mpr ⟨by simp, rfl⟩) hchain
    rw [rebuildAll]
    exact (Span.Holds.append he hlink).append hrest

mutual

/-- The place of an expression holds what the expression is written as. -/
theorem Tiles.holds : ∀ {e : Expr}, e.Tiles source → e.span.Holds source (e.rebuild source)
  | .literal c span, h => by
    rw [Tiles] at h
    rw [rebuild]
    rcases h with h | h <;> exact h.slice_eq.symm ▸ h
  | .wildcard span, h => by
    rw [Tiles] at h
    rw [rebuild]
    exact h.slice_eq.symm ▸ h
  | .concat items, h => by
    rw [Tiles] at h
    rw [rebuild]
    obtain ⟨hall, hencloses, hchain⟩ := h
    have hheld := hall.holds
    refine holds_rebuildAll hheld hencloses (hchain.imp_of_mem_imp fun e next he _ hlink => ?_)
    -- Between two factors there is nothing, at a place where the first one stops.
    have hnil : Span.Holds ⟨e.stop, e.stop⟩ source [] := (hheld e he).stop_nil
    rwa [show e.stop = next.start from hlink] at hnil ⊢
  | .alternation items, h => by
    rw [Tiles] at h
    rw [rebuild]
    exact holds_rebuildAll h.1.holds h.2.1 h.2.2
  | .group inner span, h => by
    rw [Tiles] at h
    rw [rebuild]
    exact (h.2.1.append h.1.holds).append h.2.2
  | .repetition q inner span, h => by
    rw [Tiles] at h
    rw [rebuild]
    obtain ⟨hinner, hstart, hsymbol⟩ := h
    have hheld : Span.Holds ⟨span.start, inner.stop⟩ source (inner.rebuild source) := by
      rw [hstart]
      exact hinner.holds
    exact hheld.append hsymbol

theorem AllTile.holds : ∀ {items : List Expr}, AllTile source items →
    ∀ e ∈ items, e.span.Holds source (e.rebuild source)
  | [], _ => by simp
  | e :: rest, h => by
    rw [AllTile] at h
    exact List.forall_mem_cons.mpr ⟨h.1.holds, h.2.holds⟩

end

mutual

theorem Tiles.outline_holds : ∀ {e : Expr} {depth : Nat}, e.Tiles source →
    ∀ node ∈ e.outline depth, ∃ text, node.2.2.Holds source text
  | .literal _ _, _, h | .wildcard _, _, h => by
    rw [outline, List.forall_mem_singleton]
    exact ⟨_, h.holds⟩
  | .concat items, _, h | .alternation items, _, h => by
    have hroot := h.holds
    rw [Tiles] at h
    rw [outline, List.forall_mem_cons]
    exact ⟨⟨_, hroot⟩, h.1.outlines_hold⟩
  | .group inner span, _, h => by
    have hroot := h.holds
    rw [Tiles] at h
    rw [outline, List.forall_mem_cons]
    exact ⟨⟨_, hroot⟩, h.1.outline_holds⟩
  | .repetition q inner span, _, h => by
    have hroot := h.holds
    rw [Tiles] at h
    rw [outline, List.forall_mem_cons]
    exact ⟨⟨_, hroot⟩, h.1.outline_holds⟩

theorem AllTile.outlines_hold : ∀ {items : List Expr} {depth : Nat}, AllTile source items →
    ∀ node ∈ outlines depth items, ∃ text, node.2.2.Holds source text
  | [], _, _ => by simp [outlines]
  | e :: rest, _, h => by
    rw [AllTile] at h
    rw [outlines, List.forall_mem_append]
    exact ⟨h.1.outline_holds, h.2.outlines_hold⟩

end

/-- The parts of an expression that is read tile the pattern from its first byte to its last, all
between whole characters, and the pattern is put together again from the tree. -/
theorem parse_tiles {e : Expr} (h : Expr.parse source = .ok e) :
    e.span = ⟨0, Utf8.byteLength source⟩ ∧ e.Tiles source ∧
    (∀ node ∈ e.outline 0, Utf8.isBoundary source node.2.2.start = true ∧
      Utf8.isBoundary source node.2.2.stop = true) ∧
    e.rebuild source = source := by
  obtain ⟨tokens, r, hscan, hread, hr⟩ := Expr.parse_eq_ok_iff.mp h
  have hlies := (Reading.after_of_foldlM_step hscan hread).lies []
  rw [List.append_nil] at hlies
  obtain ⟨hspan, htiles⟩ := hlies.finish hr
  refine ⟨hspan, htiles, fun node hnode => ?_, ?_⟩
  · obtain ⟨text, hnode⟩ := htiles.outline_holds node hnode
    exact hnode.boundaries
  · have hholds := htiles.holds
    rw [hspan] at hholds
    exact hholds.slice_eq.symm.trans Span.holds_whole.slice_eq

/-- Characters of several bytes, an escaped bar, terms of one factor and of two, and a quantifier
after a group. -/
theorem parse_tiles_group : ∃ e, Expr.parse "é\\|(b*|.ß)+".toList = .ok e ∧
    e.span = ⟨0, 13⟩ ∧ e.Tiles "é\\|(b*|.ß)+".toList ∧
    (e.outline 0)[5]? = some (3, .alternation 2, ⟨5, 11⟩) ∧
    e.rebuild "é\\|(b*|.ß)+".toList = "é\\|(b*|.ß)+".toList := by
  obtain ⟨e, hparse, hnode⟩ : ∃ e, Expr.parse "é\\|(b*|.ß)+".toList = .ok e ∧
      (e.outline 0)[5]? = some (3, .alternation 2, ⟨5, 11⟩) := ⟨_, rfl, by decide +kernel⟩
  obtain ⟨hspan, htiles, -, hrebuild⟩ := parse_tiles hparse
  exact ⟨e, hparse, hspan, htiles, hnode, hrebuild⟩

end Expr

end PatternScan
