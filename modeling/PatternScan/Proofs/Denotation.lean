import PatternScan.Proofs.Layout
import PatternScan.Proofs.Walk

/-!
# What the table of an expression accepts

The states of a piece lie in the table where the layout puts them, and other states lead only to the
entry of the piece. So what is read between the entry and the exit can be told from the piece alone
(`Table.Reads`): every word of the expression is, and a walk from the entry to acceptance reads such
a word and then goes on from the exit. The second half counts steps, since a piece that stands for
the empty word may be entered again and again at the same position.
-/

namespace PatternScan

namespace Expr

variable {p : List Char → Prop} {w : List Char}

theorem repeated_succ_iff {least : Nat} : Repeated (least + 1) p w ↔
    ∃ u v, p u ∧ Repeated least p v ∧ w = u ++ v := by
  constructor
  · rintro ⟨_ | ⟨u, parts⟩, hlength, hparts, rfl⟩
    · simp at hlength
    · rw [List.forall_mem_cons] at hparts
      exact ⟨u, parts.flatten, hparts.1, ⟨parts, Nat.le_of_succ_le_succ hlength, hparts.2, rfl⟩,
        List.flatten_cons⟩
  · rintro ⟨u, _, hu, ⟨parts, hlength, hparts, rfl⟩, rfl⟩
    refine ⟨u :: parts, Nat.succ_le_succ hlength, ?_, List.flatten_cons.symm⟩
    rw [List.forall_mem_cons]
    exact ⟨hu, hparts⟩

theorem repeated_zero_iff : Repeated 0 p w ↔ w = [] ∨ Repeated 1 p w := by
  constructor
  · rintro ⟨_ | ⟨u, parts⟩, -, hparts, rfl⟩
    · exact .inl rfl
    · exact .inr ⟨u :: parts, Nat.succ_le_succ (Nat.zero_le _), hparts, rfl⟩
  · rintro (rfl | ⟨parts, -, hparts, rfl⟩)
    · exact ⟨[], Nat.le_refl 0, by simp, rfl⟩
    · exact ⟨parts, Nat.zero_le _, hparts, rfl⟩

theorem denotesSome_cons {e : Expr} {rest : List Expr} :
    DenotesSome (e :: rest) w ↔ Denotes e w ∨ DenotesSome rest w := by
  rw [DenotesSome]

end Expr

namespace Table

variable {t : Table}

/-- From number `n` on the table has the states that the drafts become. -/
def Holds (t : Table) (terminal n : Nat) (drafts : List Draft) : Prop :=
  ∀ i d, drafts[i]? = some d → t.get? (n + i) = some (d.settle terminal)

section Holds

variable {terminal n : Nat}

theorem holds_nil : t.Holds terminal n [] := by
  intro i d hd
  exact nomatch hd

theorem holds_cons_iff {d : Draft} {drafts : List Draft} : t.Holds terminal n (d :: drafts) ↔
    t.get? n = some (d.settle terminal) ∧ t.Holds terminal (n + 1) drafts := by
  constructor
  · intro h
    refine ⟨h 0 d rfl, fun i d' hd' => ?_⟩
    have := h (i + 1) d' hd'
    rwa [Nat.add_comm i, ← Nat.add_assoc] at this
  · rintro ⟨hd, h⟩ i d' hd'
    rcases i with _ | i
    · rw [List.getElem?_cons_zero, Option.some.injEq] at hd'
      exact hd' ▸ hd
    · rw [Nat.add_comm i, ← Nat.add_assoc]
      exact h i d' hd'

theorem holds_append_iff {drafts drafts' : List Draft} :
    t.Holds terminal n (drafts ++ drafts') ↔
      t.Holds terminal n drafts ∧ t.Holds terminal (n + drafts.length) drafts' := by
  induction drafts generalizing n with
  | nil => simp only [List.nil_append, holds_nil, true_and, List.length_nil, Nat.add_zero]
  | cons d drafts ih =>
    rw [List.cons_append, holds_cons_iff, holds_cons_iff, ih, and_assoc, List.length_cons,
      Nat.add_assoc, Nat.add_comm 1]

theorem holds_of_states {drafts : List Draft}
    (h : t.states = (drafts.map (Draft.settle terminal)).toArray) : t.Holds terminal 0 drafts := by
  intro i d hd
  rw [get?, h, Nat.zero_add, List.getElem?_toArray, List.getElem?_map, hd, Option.map_some]

end Holds

/-- What is read from the place `n` until the place `m`: the words that satisfy `p` can be, and
every walk from `n` to acceptance reads one of them and then goes on from `m`. -/
structure Reads (t : Table) (n : Next) (p : List Char → Prop) (m : Next) : Prop where
  path : ∀ w, p w → Path t n w m
  walk : ∀ k w, Walk t k n w .final →
    ∃ u v j, j ≤ k ∧ p u ∧ w = u ++ v ∧ Walk t j m v .final

namespace Reads

variable {n m : Next} {p q : List Char → Prop}

theorem congr (h : Reads t n p m) (hpq : ∀ w, p w ↔ q w) : Reads t n q m := by
  rwa [show p = q from funext fun w => propext (hpq w)] at h

theorem refl (n : Next) : Reads t n (· = []) n where
  path := by
    rintro w rfl
    exact .here n
  walk k w hw := ⟨[], w, k, Nat.le_refl k, rfl, rfl, hw⟩

theorem trans {l : Next} (h : Reads t n p m) (h' : Reads t m q l) :
    Reads t n (fun w => ∃ u v, p u ∧ q v ∧ w = u ++ v) l where
  path := by
    rintro w ⟨u, v, hu, hv, rfl⟩
    exact (h.path u hu).trans (h'.path v hv)
  walk k w hw := by
    obtain ⟨u, v, j, hj, hu, rfl, hv⟩ := h.walk k w hw
    obtain ⟨u', v', j', hj', hu', rfl, hv'⟩ := h'.walk j v hv
    exact ⟨u ++ u', v', j', Nat.le_trans hj' hj, ⟨u, u', hu, hu', rfl⟩,
      (List.append_assoc u u' v').symm, hv'⟩

section State

variable {id : Nat} {s : State}

theorem consuming (hs : t.get? id = some s) (hk : s.kind.consumes = true) :
    Reads t (.state id) (fun w => ∃ c, s.kind.accepts c = true ∧ w = [c]) s.first where
  path := by
    rintro w ⟨c, hc, rfl⟩
    exact .read hs hc (.here _)
  walk k w hw := by
    obtain ⟨j, c, v, rfl, rfl, hc, hv⟩ := hw.of_consuming hs hk
    exact ⟨[c], v, j, Nat.le_succ j, ⟨c, hc, rfl⟩, rfl, hv⟩

theorem branch (hs : t.get? id = some s) (hb : s.kind = .branch) (hfirst : Reads t s.first p m)
    (hsecond : Reads t s.second q m) : Reads t (.state id) (fun w => p w ∨ q w) m where
  path := by
    rintro w (hw | hw)
    · exact .pass hs hb (State.mem_successors.mpr (.inl rfl)) (hfirst.path w hw)
    · exact .pass hs hb (State.mem_successors.mpr (.inr rfl)) (hsecond.path w hw)
  walk k w hw := by
    obtain ⟨j, l, rfl, hl, hw⟩ := hw.of_branch hs hb
    rcases State.mem_successors.mp hl with rfl | rfl
    · obtain ⟨u, v, i, hi, hu, rfl, hv⟩ := hfirst.walk j w hw
      exact ⟨u, v, i, Nat.le_succ_of_le hi, .inl hu, rfl, hv⟩
    · obtain ⟨u, v, i, hi, hu, rfl, hv⟩ := hsecond.walk j w hw
      exact ⟨u, v, i, Nat.le_succ_of_le hi, .inr hu, rfl, hv⟩

/-- Through a branch whose successors are the same. -/
theorem branch_same (hs : t.get? id = some ⟨.branch, n, n⟩) (h : Reads t n p m) :
    Reads t (.state id) p m :=
  (branch hs rfl h h).congr fun _ => or_self_iff

theorem trans_branch_same (h : Reads t n p (.state id)) (hs : t.get? id = some ⟨.branch, m, m⟩) :
    Reads t n p m := by
  refine (h.trans (branch_same hs (refl m))).congr fun w => ?_
  constructor
  · rintro ⟨u, _, hu, rfl, rfl⟩
    rwa [List.append_nil]
  · exact fun hw => ⟨w, [], hw, rfl, (List.append_nil w).symm⟩

/-- A branch of which one successor leads back to it is passed as often as there are parts. -/
theorem loop (hs : t.get? id = some ⟨.branch, n, m⟩) (h : Reads t n p (.state id)) :
    Reads t (.state id) (Expr.Repeated 0 p) m where
  path := by
    rintro w ⟨parts, -, hparts, rfl⟩
    induction parts with
    | nil => exact .pass hs rfl (State.mem_successors.mpr (.inr rfl)) (.here m)
    | cons u parts ih =>
      rw [List.forall_mem_cons] at hparts
      rw [List.flatten_cons]
      exact .pass hs rfl (State.mem_successors.mpr (.inl rfl))
        ((h.path u hparts.1).trans (ih hparts.2))
  -- The word need not get shorter from one round to the next, the walk does.
  walk k := by
    induction k using Nat.strongRecOn with
    | ind k ih =>
      intro w hw
      obtain ⟨j, l, rfl, hl, hw⟩ := hw.of_branch hs rfl
      rcases State.mem_successors.mp hl with rfl | rfl
      · obtain ⟨u, v, i, hi, hu, rfl, hv⟩ := h.walk j w hw
        obtain ⟨u', v', i', hi', hu', rfl, hv'⟩ := ih i (Nat.lt_succ_of_le hi) v hv
        refine ⟨u ++ u', v', i', by omega, ?_, (List.append_assoc u u' v').symm, hv'⟩
        rw [Expr.repeated_zero_iff]
        exact .inr (Expr.repeated_succ_iff.mpr ⟨u, u', hu, hu', rfl⟩)
      · exact ⟨[], w, j, Nat.le_succ j, Expr.repeated_zero_iff.mpr (.inl rfl), rfl, hw⟩

end State

/-- Up to acceptance, what is read is what can be. -/
theorem path_iff (h : Reads t n p .final) {w : List Char} : Path t n w .final ↔ p w := by
  constructor
  · intro hw
    obtain ⟨k, hw⟩ := path_iff_exists_walk.mp hw
    obtain ⟨u, v, j, -, hu, rfl, hv⟩ := h.walk k w hw
    cases hv
    rwa [List.append_nil]
  · exact h.path w

end Reads

end Table

namespace Expr

open Table

variable {t : Table} {terminal : Nat}

mutual

/-- Where a table holds the states of a piece, the words of the expression are read between its
entry and its exit. -/
theorem reads_layout : ∀ {e : Expr}, e.HasParts → ∀ {n : Nat} {m : Next},
    t.Holds terminal n (e.layout n (some m)) → Reads t (.state (e.entry n)) e.Denotes m
  | .literal c _, _, n, m, hold => by
    simp only [layout, holds_cons_iff] at hold
    refine (Reads.consuming hold.1 rfl).congr fun w => ?_
    simp only [Draft.settle, StateKind.consumes, StateKind.accepts, Denotes,
      decide_eq_true_eq, if_true, exists_eq_left']
  | .wildcard _, _, n, m, hold => by
    simp only [layout, holds_cons_iff] at hold
    refine (Reads.consuming hold.1 rfl).congr fun w => ?_
    simp only [Draft.settle, StateKind.consumes, StateKind.accepts, Denotes, if_true, true_and]
  | .group inner _, h, n, m, hold => by
    simp only [HasParts] at h
    simp only [layout] at hold
    simp only [entry, Denotes]
    exact reads_layout h hold
  | .concat [], h, _, _, _ => by
    simp only [HasParts, ne_eq, not_true, false_and] at h
  | .concat (e :: rest), h, n, m, hold => by
    simp only [HasParts] at h
    simp only [layout] at hold
    obtain ⟨start, hstart, hreads⟩ := reads_layoutInTurn h.2 hold
    rw [exitBefore, Option.some.injEq] at hstart
    simp only [entry, entryOfFirst, hstart, Denotes]
    exact hreads
  | .alternation items, h, n, m, hold => by
    simp only [HasParts] at h
    simp only [layout, holds_append_iff, holds_cons_iff, length_layoutEach items h.2] at hold
    obtain ⟨heach, hjoin, hcascade⟩ := hold
    simp only [entry, Denotes]
    exact (reads_choice h.1 h.2 heach hcascade).trans_branch_same hjoin
  | .repetition .zeroOrMore inner _, h, n, m, hold => by
    simp only [HasParts] at h
    simp only [layout, holds_append_iff, holds_cons_iff, length_layout inner h] at hold
    simp only [entry, Denotes, Quantified]
    exact Reads.loop hold.2.1 (reads_layout h hold.1)
  | .repetition .oneOrMore inner _, h, n, m, hold => by
    simp only [HasParts] at h
    simp only [layout, holds_append_iff, holds_cons_iff, length_layout inner h] at hold
    have hinner := reads_layout h hold.1
    simp only [entry, Denotes, Quantified]
    exact (hinner.trans (Reads.loop hold.2.1 hinner)).congr fun _ => repeated_succ_iff.symm
  | .repetition .optional inner _, h, n, m, hold => by
    simp only [HasParts] at h
    simp only [layout, holds_append_iff, holds_cons_iff, length_layout inner h] at hold
    obtain ⟨hinner, hjoin, hbranch, -⟩ := hold
    have hskip := Reads.branch_same hjoin (Reads.refl m)
    simp only [entry, Denotes, Quantified]
    exact (Reads.branch hbranch rfl ((reads_layout h hinner).trans_branch_same hjoin) hskip).congr
      fun _ => or_comm

/-- Each piece leads to the next. -/
theorem reads_layoutInTurn : ∀ {items : List Expr}, AllHaveParts items → ∀ {n : Nat} {m : Next},
    t.Holds terminal n (layoutInTurn n (some m) items) →
      ∃ start, exitBefore n (some m) items = some start ∧ Reads t start (DenotesInTurn items) m
  | [], _, n, m, _ => by
    refine ⟨m, rfl, (Reads.refl m).congr fun w => ?_⟩
    rw [DenotesInTurn]
  | e :: rest, h, n, m, hold => by
    simp only [AllHaveParts] at h
    simp only [layoutInTurn, holds_append_iff, length_layout e h.1] at hold
    obtain ⟨next, hnext, hrest⟩ := reads_layoutInTurn h.2 hold.2
    rw [hnext] at hold
    refine ⟨_, rfl, ((reads_layout h.1 hold.1).trans hrest).congr fun w => ?_⟩
    rw [DenotesInTurn]

/-- A cascade leads into each of the pieces. -/
theorem reads_choice : ∀ {items : List Expr}, items ≠ [] → AllHaveParts items →
    ∀ {n l : Nat} {m : Next}, t.Holds terminal n (layoutEach n (some m) items) →
      t.Holds terminal l (cascadeLayout l (entries n items)) →
        Reads t (.state (cascadeEntry l (entries n items))) (DenotesSome items) m
  | [], h, _, _, _, _, _, _ => absurd rfl h
  | [e], _, h, n, l, m, heach, _ => by
    simp only [AllHaveParts] at h
    simp only [layoutEach, List.append_nil] at heach
    simp only [entries, cascadeEntry]
    refine (reads_layout h.1 heach).congr fun w => ?_
    rw [denotesSome_cons, DenotesSome, or_false]
  | e :: e' :: rest, _, h, n, l, m, heach, hcascade => by
    simp only [AllHaveParts] at h
    rw [layoutEach, holds_append_iff, length_layout e h.1] at heach
    simp only [entries, cascadeLayout, holds_append_iff, holds_cons_iff] at hcascade
    obtain ⟨hothers, hbranch, -⟩ := hcascade
    rw [length_cascadeLayout, List.length_cons, Nat.add_sub_cancel] at hbranch
    have hne : e' :: rest ≠ [] := List.cons_ne_nil e' rest
    have hrest := reads_choice hne (by simp only [AllHaveParts]; exact h.2) heach.2
      (by simp only [entries]; exact hothers)
    simp only [entries] at hrest
    simp only [entries, cascadeEntry]
    exact (Reads.branch hbranch rfl (reads_layout h.1 heach.1) hrest).congr fun _ =>
      denotesSome_cons.symm

end

theorem accepts_iff_denotes {e : Expr} (h : e.HasParts)
    (ht : t.states = (e.drafts.map (Draft.settle (e.stateCount + 1))).toArray) {w : List Char} :
    t.Accepts w ↔ e.Denotes w := by
  have hold := holds_of_states ht
  simp only [drafts, List.cons_append, holds_cons_iff, holds_append_iff, length_layout e h] at hold
  obtain ⟨hstart, hpiece, hexit, -⟩ := hold
  rw [Nat.zero_add] at hpiece hexit
  rw [Nat.add_comm 1] at hexit
  exact (Reads.branch_same hstart ((reads_layout h hpiece).trans_branch_same hexit)).path_iff

end Expr

namespace Table

/-- The construction makes a table exactly of the expressions whose lists have parts, and the table
of an expression accepts the words that the expression stands for. -/
theorem ofExpr_accepts_denotes (e : Expr) :
    (e.HasParts → ∃ t, ofExpr e = .ok t ∧ ∀ w, t.Accepts w ↔ e.Denotes w) ∧
      (¬ e.HasParts → ofExpr e = .error .noParts) := by
  refine ⟨fun h => ?_, ofExpr_eq_error⟩
  obtain ⟨t, ht, hstates⟩ := exists_ofExpr_eq_ok h
  exact ⟨t, ht, fun w => Expr.accepts_iff_denotes h hstates⟩

theorem ofExpr_hand_built :
    (∃ t, ofExpr (.concat [.alternation [.repetition .oneOrMore
        (.repetition .zeroOrMore (.wildcard ⟨0, 1⟩) ⟨0, 2⟩) ⟨0, 3⟩]]) = .ok t ∧
      ∀ w, t.Accepts w ↔ Expr.Denotes (.concat [.alternation [.repetition .oneOrMore
        (.repetition .zeroOrMore (.wildcard ⟨0, 1⟩) ⟨0, 2⟩) ⟨0, 3⟩]]) w) ∧
      ofExpr (.concat [.alternation [], .wildcard ⟨0, 1⟩]) = .error .noParts :=
  ⟨(ofExpr_accepts_denotes _).1 (by simp [Expr.HasParts, Expr.AllHaveParts]),
    (ofExpr_accepts_denotes _).2 (by simp [Expr.HasParts, Expr.AllHaveParts])⟩

end Table

end PatternScan
