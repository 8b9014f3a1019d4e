import PatternScan.Proofs.Denotation
import PatternScan.Proofs.Size

/-!
# How the states of an expression's table hang together

Every state of a piece lies on a way from where the piece is entered to where it is left for
(`Expr.joins_layout`), and every successor within it is another of its states or that exit
(`Expr.among_layout`). So the table of an expression has no state that cannot be reached and none
that cannot accept, its last state alone leads to acceptance, and nothing is left open when the
construction ends (`Table.trim_of_ofExpr`).
-/

namespace PatternScan

section Successors

/-- A successor that is `exit?`, or one of so many states from number `n` on. -/
def Among (n count : Nat) (exit? next? : Option Next) : Prop :=
  next? = exit? ∨ ∃ id, n ≤ id ∧ id < n + count ∧ next? = some (.state id)

def AllAmong (n count : Nat) (exit? : Option Next) (drafts : List Draft) : Prop :=
  ∀ d ∈ drafts, Among n count exit? d.first? ∧ Among n count exit? d.second?

variable {n count n' count' : Nat} {exit? exit?' next? : Option Next} {ds ds' : List Draft}

theorem among_state {id : Nat} (h : n ≤ id) (h' : id < n + count) :
    Among n count exit? (some (.state id)) :=
  .inr ⟨id, h, h', rfl⟩

theorem Among.mono (h : Among n count exit? next?) (hexit : Among n' count' exit?' exit?)
    (hn : n' ≤ n) (hcount : n + count ≤ n' + count') : Among n' count' exit?' next? := by
  rcases h with rfl | ⟨id, hle, hlt, rfl⟩
  · exact hexit
  · exact among_state (by omega) (by omega)

theorem AllAmong.mono (h : AllAmong n count exit? ds) (hexit : Among n' count' exit?' exit?)
    (hn : n' ≤ n) (hcount : n + count ≤ n' + count') : AllAmong n' count' exit?' ds :=
  fun d hd => ⟨(h d hd).1.mono hexit hn hcount, (h d hd).2.mono hexit hn hcount⟩

theorem allAmong_nil : AllAmong n count exit? [] := by
  simp [AllAmong]

theorem allAmong_cons_iff {d : Draft} : AllAmong n count exit? (d :: ds) ↔
    (Among n count exit? d.first? ∧ Among n count exit? d.second?) ∧
      AllAmong n count exit? ds := by
  simp [AllAmong]

theorem AllAmong.append (h : AllAmong n count exit? ds) (h' : AllAmong n count exit? ds') :
    AllAmong n count exit? (ds ++ ds') := by
  intro d hd
  exact (List.mem_append.mp hd).elim (h d) (h' d)

theorem AllAmong.exists_states {exit : Nat} (h : AllAmong n count (some (.state exit)) ds)
    {d : Draft} (hd : d ∈ ds) :
    ∃ i j, d.first? = some (.state i) ∧ d.second? = some (.state j) := by
  obtain ⟨hfirst, hsecond⟩ := h d hd
  have hstate : ∀ {next? : Option Next}, Among n count (some (.state exit)) next? →
      ∃ id, next? = some (.state id) := by
    rintro next? (hnext | ⟨id, -, -, hnext⟩)
    · exact ⟨exit, hnext⟩
    · exact ⟨id, hnext⟩
  obtain ⟨i, hi⟩ := hstate hfirst
  obtain ⟨j, hj⟩ := hstate hsecond
  exact ⟨i, j, hi, hj⟩

end Successors

theorem cascadeEntry_mem {n l count : Nat} : ∀ {entries : List Nat}, entries ≠ [] →
    (∀ id ∈ entries, n ≤ id ∧ id < n + count) → n ≤ l →
    l + (entries.length - 1) ≤ n + count →
    n ≤ cascadeEntry l entries ∧ cascadeEntry l entries < n + count
  | [], h, _, _, _ => absurd rfl h
  | [id], _, h, _, _ => h id List.mem_cons_self
  | _ :: _ :: rest, _, _, hl, hcount => by
    simp only [List.length_cons] at hcount
    simp only [cascadeEntry]
    omega

theorem allAmong_cascadeLayout {n l count : Nat} {exit? : Option Next} : ∀ {entries : List Nat},
    (∀ id ∈ entries, n ≤ id ∧ id < n + count) → n ≤ l →
    l + (entries.length - 1) ≤ n + count → AllAmong n count exit? (cascadeLayout l entries)
  | [], _, _, _ | [_], _, _, _ => allAmong_nil
  | first :: second :: rest, h, hl, hcount => by
    rw [List.forall_mem_cons] at h
    simp only [List.length_cons, Nat.add_sub_cancel] at hcount
    have hrest : l + ((second :: rest).length - 1) ≤ n + count := by
      simp only [List.length_cons]
      omega
    obtain ⟨hle, hlt⟩ := cascadeEntry_mem (List.cons_ne_nil _ _) h.2 hl hrest
    rw [cascadeLayout]
    refine (allAmong_cascadeLayout h.2 hl hrest).append (allAmong_cons_iff.mpr ⟨⟨?_, ?_⟩, ?_⟩)
    · exact among_state h.1.1 h.1.2
    · exact among_state hle hlt
    · exact allAmong_nil

theorem Draft.settle_eq_of_filled {d : Draft} (h : d.first? ≠ none ∧ d.second? ≠ none)
    (id id' : Nat) : d.settle id = d.settle id' := by
  obtain ⟨first, hfirst⟩ := Option.ne_none_iff_exists'.mp h.1
  obtain ⟨second, hsecond⟩ := Option.ne_none_iff_exists'.mp h.2
  simp only [settle, hfirst, hsecond, Option.getD_some]

/-- Where nothing is open, it does not matter where open successors would lead. -/
theorem Arena.finish_eq_of_filled {a : Arena}
    (h : ∀ d ∈ a.drafts, d.first? ≠ none ∧ d.second? ≠ none) (id id' : Nat) :
    a.finish id = a.finish id' :=
  congrArg Table.ofStates (Array.map_congr_left fun d hd => d.settle_eq_of_filled (h d hd) id id')

namespace Expr

mutual

theorem entry_mem : ∀ {e : Expr}, e.HasParts → ∀ n : Nat,
    n ≤ e.entry n ∧ e.entry n < n + e.stateCount
  | .literal _ _, _, _ | .wildcard _, _, _ => by simp [entry, stateCount]
  | .concat [], h, _ => by simp [HasParts] at h
  | .concat (e :: rest), h, n => by
    simp only [HasParts, AllHaveParts] at h
    have := entry_mem h.2.1 n
    simp only [entry, entryOfFirst, stateCount, stateCounts]
    omega
  | .alternation items, h, n => by
    simp only [HasParts] at h
    have hpos := List.length_pos_iff.mpr h.1
    simp only [entry, stateCount]
    refine cascadeEntry_mem (List.ne_nil_of_length_pos ?_) (fun id hid => ?_) (by omega) ?_
    · rwa [length_entries]
    · have := entries_mem h.2 n id hid
      omega
    · rw [length_entries]
      omega
  | .group inner _, h, n => by
    simp only [HasParts] at h
    simpa only [entry, stateCount] using entry_mem h n
  | .repetition .zeroOrMore _ _, _, _ | .repetition .optional _ _, _, _ => by
    simp only [entry, stateCount]
    omega
  | .repetition .oneOrMore inner _, h, n => by
    simp only [HasParts] at h
    have := entry_mem h n
    simp only [entry, stateCount]
    omega

theorem entries_mem : ∀ {items : List Expr}, AllHaveParts items → ∀ n : Nat,
    ∀ id ∈ entries n items, n ≤ id ∧ id < n + stateCounts items
  | [], _, _, id, hid => absurd hid (by simp [entries])
  | e :: rest, h, n, id, hid => by
    simp only [AllHaveParts] at h
    simp only [entries, List.mem_cons] at hid
    simp only [stateCounts]
    rcases hid with rfl | hid
    · have := entry_mem h.1 n
      omega
    · have := entries_mem h.2 (n + e.stateCount) id hid
      omega

end

mutual

/-- The states of a piece lead to each other, and otherwise only to where the piece is left for. -/
theorem among_layout : ∀ {e : Expr}, e.HasParts → ∀ (n : Nat) (exit? : Option Next),
    AllAmong n e.stateCount exit? (e.layout n exit?)
  | .literal _ _, _, _, _ | .wildcard _, _, _, _ => by
    simp [layout, AllAmong, Among]
  | .concat items, h, n, exit? => by
    simp only [HasParts] at h
    simp only [layout, stateCount]
    exact among_layoutInTurn h.2 n exit?
  | .alternation items, h, n, exit? => by
    simp only [HasParts] at h
    have hpos := List.length_pos_iff.mpr h.1
    simp only [layout, stateCount]
    refine ((among_layoutEach h.2 n _).mono (among_state ?_ ?_) (Nat.le_refl n) ?_).append
      (allAmong_cons_iff.mpr
        ⟨⟨.inl rfl, .inl rfl⟩, allAmong_cascadeLayout (fun id hid => ?_) ?_ ?_⟩)
    · omega
    · omega
    · omega
    · have := entries_mem h.2 n id hid
      omega
    · omega
    · rw [length_entries]
      omega
  | .group inner _, h, n, exit? => by
    simp only [HasParts] at h
    simp only [layout, stateCount]
    exact among_layout h n exit?
  | .repetition .optional inner _, h, n, exit? => by
    simp only [HasParts] at h
    obtain ⟨hle, hlt⟩ := entry_mem h n
    simp only [layout, stateCount]
    refine ((among_layout h n _).mono (among_state ?_ ?_) (Nat.le_refl n) ?_).append
      (allAmong_cons_iff.mpr ⟨⟨.inl rfl, .inl rfl⟩, allAmong_cons_iff.mpr
        ⟨⟨among_state hle ?_, among_state ?_ ?_⟩, allAmong_nil⟩⟩)
    all_goals omega
  | .repetition .zeroOrMore inner _, h, n, exit?
  | .repetition .oneOrMore inner _, h, n, exit? => by
    simp only [HasParts] at h
    obtain ⟨hle, hlt⟩ := entry_mem h n
    simp only [layout, stateCount]
    refine ((among_layout h n _).mono (among_state ?_ ?_) (Nat.le_refl n) ?_).append
      (allAmong_cons_iff.mpr ⟨⟨among_state hle ?_, .inl rfl⟩, allAmong_nil⟩)
    all_goals omega

theorem among_layoutInTurn : ∀ {items : List Expr}, AllHaveParts items →
    ∀ (n : Nat) (exit? : Option Next),
      AllAmong n (stateCounts items) exit? (layoutInTurn n exit? items)
  | [], _, _, _ => by simp [layoutInTurn, AllAmong]
  | [e], h, n, exit? => by
    simp only [AllHaveParts, and_true] at h
    simp only [layoutInTurn, exitBefore, stateCounts, List.append_nil, Nat.add_zero]
    exact among_layout h n exit?
  | e :: e' :: rest, h, n, exit? => by
    have hrest : AllHaveParts (e' :: rest) := by
      simp only [AllHaveParts] at h ⊢
      exact h.2
    simp only [AllHaveParts] at h
    obtain ⟨hle, hlt⟩ := entry_mem h.2.1 (n + e.stateCount)
    have hrest := among_layoutInTurn hrest (n + e.stateCount) exit?
    simp only [stateCounts] at hrest ⊢
    rw [layoutInTurn_cons, exitBefore]
    refine ((among_layout h.1 n _).mono (among_state ?_ ?_) (Nat.le_refl n) ?_).append
      (hrest.mono (.inl rfl) ?_ ?_)
    all_goals omega

theorem among_layoutEach : ∀ {items : List Expr}, AllHaveParts items →
    ∀ (n : Nat) (exit? : Option Next),
      AllAmong n (stateCounts items) exit? (layoutEach n exit? items)
  | [], _, _, _ => by simp [layoutEach, AllAmong]
  | e :: rest, h, n, exit? => by
    simp only [AllHaveParts] at h
    simp only [layoutEach, stateCounts]
    refine ((among_layout h.1 n exit?).mono (.inl rfl) (Nat.le_refl n) ?_).append
      ((among_layoutEach h.2 _ exit?).mono (.inl rfl) ?_ ?_)
    all_goals omega

end

end Expr

namespace Table

variable {t : Table}

/-- One way leads from `n` to `m`, and so many states from number `first` on each lie on one. -/
structure Joins (t : Table) (n : Next) (first count : Nat) (m : Next) : Prop where
  through : t.Leads n m
  enter : ∀ id, first ≤ id → id < first + count → t.Leads n (.state id)
  leave : ∀ id, first ≤ id → id < first + count → t.Leads (.state id) m

namespace Joins

variable {n m l k : Next} {first count count' : Nat}

theorem single {id : Nat} (h : t.Leads n (.state id)) (h' : t.Leads (.state id) m) :
    t.Joins n id 1 m where
  through := h.trans h'
  enter i hi hi' := by
    obtain rfl : i = id := by omega
    exact h
  leave i hi hi' := by
    obtain rfl : i = id := by omega
    exact h'

theorem around (h : t.Leads k n) (hjoins : t.Joins n first count m) (h' : t.Leads m l) :
    t.Joins k first count l where
  through := (h.trans hjoins.through).trans h'
  enter id hle hlt := h.trans (hjoins.enter id hle hlt)
  leave id hle hlt := (hjoins.leave id hle hlt).trans h'

theorem beside (h : t.Joins n first count m) (h' : t.Joins n (first + count) count' m) :
    t.Joins n first (count + count') m where
  through := h.through
  enter id hle hlt := by
    by_cases hid : id < first + count
    · exact h.enter id hle hid
    · exact h'.enter id (by omega) (by omega)
  leave id hle hlt := by
    by_cases hid : id < first + count
    · exact h.leave id hle hid
    · exact h'.leave id (by omega) (by omega)

theorem trans (h : t.Joins n first count m) (h' : t.Joins m (first + count) count' l) :
    t.Joins n first (count + count') l :=
  (around (.refl n) h h'.through).beside (around h.through h' (.refl l))

end Joins

end Table

namespace Expr

open Table

variable {t : Table} {terminal : Nat}

mutual

/-- Where a table holds the states of a piece, they lie on ways from its entry to its exit. -/
theorem joins_layout : ∀ {e : Expr}, e.HasParts → ∀ {n : Nat} {m : Next},
    t.Holds terminal n (e.layout n (some m)) → t.Joins (.state (e.entry n)) n e.stateCount m
  | .literal _ _, _, n, m, hold | .wildcard _, _, n, m, hold => by
    simp only [layout, holds_cons_iff] at hold
    simp only [entry, stateCount]
    exact .single (.refl _) (leads_first hold.1)
  | .group inner _, h, n, m, hold => by
    simp only [HasParts] at h
    simp only [layout] at hold
    simp only [entry, stateCount]
    exact joins_layout h hold
  | .concat [], h, _, _, _ => by
    simp only [HasParts, ne_eq, not_true, false_and] at h
  | .concat (e :: rest), h, n, m, hold => by
    simp only [HasParts] at h
    simp only [layout] at hold
    simp only [entry, entryOfFirst, stateCount]
    exact joins_layoutInTurn h.2 hold rfl
  | .alternation items, h, n, m, hold => by
    simp only [HasParts] at h
    have hpos := List.length_pos_iff.mpr h.1
    simp only [layout, holds_append_iff, holds_cons_iff, length_layoutEach items h.2] at hold
    obtain ⟨heach, hjoin, hcascade⟩ := hold
    obtain ⟨hpieces, hbranches⟩ := joins_choice h.1 h.2 heach hcascade
    have hexit := leads_first hjoin
    -- In order: the pieces, the state where they meet, and the branches that choose.
    have hall := ((hpieces.around (.refl _) hexit).beside (.single hpieces.through hexit)).beside
      (hbranches.around (.refl _) hexit)
    simp only [entry, stateCount]
    rwa [show stateCounts items + 1 + (items.length - 1) = stateCounts items + items.length by
      omega] at hall
  | .repetition .zeroOrMore inner _, h, n, m, hold => by
    simp only [HasParts] at h
    simp only [layout, holds_append_iff, holds_cons_iff, length_layout inner h] at hold
    have hexit := leads_second hold.2.1
    simp only [entry, stateCount]
    exact ((joins_layout h hold.1).around (leads_first hold.2.1) hexit).beside
      (.single (.refl _) hexit)
  | .repetition .oneOrMore inner _, h, n, m, hold => by
    simp only [HasParts] at h
    simp only [layout, holds_append_iff, holds_cons_iff, length_layout inner h] at hold
    simp only [entry, stateCount]
    exact (joins_layout h hold.1).trans (.single (.refl _) (leads_second hold.2.1))
  | .repetition .optional inner _, h, n, m, hold => by
    simp only [HasParts] at h
    simp only [layout, holds_append_iff, holds_cons_iff, length_layout inner h] at hold
    obtain ⟨hinner, hjoin, hbranch, -⟩ := hold
    have hskip := leads_second hbranch
    have hexit := leads_first hjoin
    simp only [entry, stateCount]
    exact (((joins_layout h hinner).around (leads_first hbranch) hexit).beside
      (.single hskip hexit)).beside (.single (.refl _) (hskip.trans hexit))

theorem joins_layoutInTurn : ∀ {items : List Expr}, AllHaveParts items →
    ∀ {n : Nat} {m start : Next}, t.Holds terminal n (layoutInTurn n (some m) items) →
      exitBefore n (some m) items = some start → t.Joins start n (stateCounts items) m
  | [], _, n, m, start, _, hstart => by
    obtain rfl := Option.some.inj hstart
    simp only [stateCounts]
    exact ⟨.refl m, fun id _ _ => by omega, fun id _ _ => by omega⟩
  | e :: rest, h, n, m, start, hold, hstart => by
    simp only [AllHaveParts] at h
    simp only [layoutInTurn, holds_append_iff, length_layout e h.1] at hold
    obtain rfl := Option.some.inj hstart
    obtain ⟨next, hnext⟩ : ∃ next, exitBefore (n + e.stateCount) (some m) rest = some next := by
      cases rest <;> exact ⟨_, rfl⟩
    rw [hnext] at hold
    simp only [stateCounts]
    exact (joins_layout h.1 hold.1).trans (joins_layoutInTurn h.2 hold.2 hnext)

/-- A cascade leads through its branches into each of the pieces. -/
theorem joins_choice : ∀ {items : List Expr}, items ≠ [] → AllHaveParts items →
    ∀ {n l : Nat} {m : Next}, t.Holds terminal n (layoutEach n (some m) items) →
      t.Holds terminal l (cascadeLayout l (entries n items)) →
        t.Joins (.state (cascadeEntry l (entries n items))) n (stateCounts items) m ∧
          t.Joins (.state (cascadeEntry l (entries n items))) l (items.length - 1) m
  | [], h, _, _, _, _, _, _ => absurd rfl h
  | [e], _, h, n, l, m, heach, _ => by
    simp only [AllHaveParts] at h
    simp only [layoutEach, List.append_nil] at heach
    have hjoins := joins_layout h.1 heach
    simp only [entries, cascadeEntry, stateCounts, List.length_singleton]
    exact ⟨hjoins, hjoins.through, fun id _ _ => by omega, fun id _ _ => by omega⟩
  | e :: e' :: rest, _, h, n, l, m, heach, hcascade => by
    simp only [AllHaveParts] at h
    rw [layoutEach, holds_append_iff, length_layout e h.1] at heach
    simp only [entries, cascadeLayout, holds_append_iff, holds_cons_iff] at hcascade
    obtain ⟨hothers, hbranch, -⟩ := hcascade
    rw [length_cascadeLayout, List.length_cons, Nat.add_sub_cancel, length_entries] at hbranch
    obtain ⟨hpieces, hbranches⟩ := joins_choice (List.cons_ne_nil e' rest)
      (by simp only [AllHaveParts]; exact h.2) heach.2 (by simp only [entries]; exact hothers)
    have hothers := leads_second hbranch
    have hall := (hbranches.around hothers (.refl m)).beside
      (.single (.refl _) (hothers.trans hpieces.through))
    simp only [entries, stateCounts, cascadeEntry, length_entries] at hpieces hall ⊢
    exact ⟨((joins_layout h.1 heach.1).around (leads_first hbranch) (.refl m)).beside
      (hpieces.around hothers (.refl m)), hall⟩

end

/-- All drafts of a whole expression but the last one lead to states. -/
theorem drafts_cases {e : Expr} (h : e.HasParts) {id : Nat} {d : Draft}
    (hd : e.drafts[id]? = some d) :
    (∃ i j, d.first? = some (.state i) ∧ d.second? = some (.state j)) ∨
      id = e.stateCount + 1 ∧ d = ⟨.branch, some .final, some .final⟩ := by
  have hlength := length_layout e h 1 (some (.state (e.stateCount + 1)))
  rw [drafts, List.getElem?_append, List.length_cons, hlength] at hd
  split at hd
  · rcases List.mem_cons.mp (List.mem_of_getElem? hd) with rfl | hd
    · exact .inl ⟨_, _, rfl, rfl⟩
    · exact .inl ((among_layout h 1 _).exists_states hd)
  · obtain ⟨hid, rfl⟩ := List.getElem?_eq_some_iff.mp hd
    rw [List.length_singleton] at hid
    refine .inr ⟨by omega, List.getElem_singleton _⟩

/-- The start, the piece and the end of a whole expression lie on ways to acceptance. -/
theorem joins_drafts {e : Expr} (h : e.HasParts) (hold : t.Holds terminal 0 e.drafts) :
    t.Joins (.state 0) 0 (e.stateCount + 2) .final := by
  simp only [drafts, List.cons_append, holds_cons_iff, holds_append_iff, length_layout e h] at hold
  obtain ⟨hstart, hpiece, hend, -⟩ := hold
  rw [Nat.zero_add] at hpiece hend
  rw [Nat.add_comm 1] at hend
  have hjoins := joins_layout h hpiece
  have hentry := leads_first hstart
  have haccept := leads_first hend
  have hfirst : t.Joins (.state 0) 0 1 .final :=
    .single (.refl _) ((hentry.trans hjoins.through).trans haccept)
  have hlast : t.Joins (.state 0) (0 + (1 + e.stateCount)) 1 .final := by
    rw [Nat.zero_add, Nat.add_comm 1]
    exact .single (hentry.trans hjoins.through) haccept
  have hall := (hfirst.beside (hjoins.around hentry haccept)).beside hlast
  rwa [show 1 + e.stateCount + 1 = e.stateCount + 2 by omega] at hall

end Expr

namespace Table

/-- A table that begins with a branch without a choice and ends with the only state that leads to
acceptance, where each state is reached and leads to acceptance. -/
structure Trim (t : Table) : Prop where
  start : ∃ n, t.get? 0 = some ⟨.branch, n, n⟩
  last : t.get? (t.size - 1) = some ⟨.branch, .final, .final⟩
  eq_last : ∀ id s, t.get? id = some s → s.first = .final ∨ s.second = .final → id = t.size - 1
  reached : ∀ id, id < t.size → t.Reachable (.state id)
  accepting : ∀ id, id < t.size → t.Leads (.state id) .final

theorem trim_of_ofExpr {e : Expr} (h : ofExpr e = .ok t) : t.Trim := by
  obtain ⟨hparts, hstates⟩ := states_of_ofExpr h
  have hsize : t.size - 1 = e.stateCount + 1 := by rw [size_of_ofExpr h]; rfl
  have hold := holds_of_states hstates
  have hjoins := e.joins_drafts hparts hold
  rw [← size_of_ofExpr h] at hjoins
  have hends := hold
  rw [Expr.drafts, List.cons_append, holds_cons_iff, holds_append_iff, holds_cons_iff,
    Expr.length_layout e hparts, Nat.add_right_comm] at hends
  refine ⟨⟨_, hends.1⟩, ?_, fun id s hs hfinal => ?_,
    fun id hid => hjoins.enter id (Nat.zero_le id) (by rwa [Nat.zero_add]),
    fun id hid => hjoins.leave id (Nat.zero_le id) (by rwa [Nat.zero_add])⟩
  · rw [hsize, ← Nat.zero_add (e.stateCount + 1)]
    exact hends.2.2.1
  · rw [get?, hstates, List.getElem?_toArray, List.getElem?_map, Option.map_eq_some_iff] at hs
    obtain ⟨d, hd, rfl⟩ := hs
    rcases e.drafts_cases hparts hd with ⟨i, j, hi, hj⟩ | ⟨hid, -⟩
    · unfold Draft.settle at hfinal
      split at hfinal <;> simp [hi, hj] at hfinal
    · rw [hsize, hid]

theorem finish_of_ofExpr {e : Expr} (h : e.HasParts) (ht : ofExpr e = .ok t) :
    (Arena.ofList e.drafts).finish (e.stateCount + 1) = .ok t := by
  rw [ofExpr, Arena.ofExpr_eq h] at ht
  rcases hfinish : (Arena.ofList e.drafts).finish (e.stateCount + 1) with err | t'
  · simp [bind, Except.bind, hfinish, Except.mapError] at ht
  · simpa [bind, Except.bind, hfinish, Except.mapError] using ht

/-- The construction of an expression whose lists have parts leaves no successor open, so that it
does not matter where open ones would lead, and comes to a trim table of as many states as its
constructs take. That of a pattern has at most two states for each character and one more. -/
theorem ofExpr_trim {e : Expr} (h : e.HasParts) :
    (∃ terminal a t, Arena.ofExpr e = .ok (terminal, a) ∧
      (∀ d ∈ a.drafts, d.first? ≠ none ∧ d.second? ≠ none) ∧
      (∀ id, a.finish id = .ok t) ∧ ofExpr e = .ok t ∧
      t.Trim ∧ terminal = t.size - 1 ∧ t.size = 2 + e.stateCount) ∧
    ∀ source, Expr.parse source = .ok e →
      ∃ t, ofPattern source = .ok t ∧ ofExpr e = .ok t ∧ t.size ≤ 2 * source.length + 1 := by
  obtain ⟨t, ht, -⟩ := exists_ofExpr_eq_ok h
  have hsize := size_of_ofExpr ht
  have hfilled : ∀ d ∈ (Arena.ofList e.drafts).drafts, d.first? ≠ none ∧ d.second? ≠ none := by
    intro d hd
    obtain ⟨id, hid⟩ := List.mem_iff_getElem?.mp (List.mem_toArray.mp hd)
    rcases e.drafts_cases h hid with ⟨i, j, hi, hj⟩ | ⟨-, rfl⟩
    · simp [hi, hj]
    · exact ⟨nofun, nofun⟩
  refine ⟨⟨_, _, t, Arena.ofExpr_eq h, hfilled, fun id => ?_, ht, trim_of_ofExpr ht, ?_, ?_⟩,
    fun source hsource => ?_⟩
  · rw [Arena.finish_eq_of_filled hfilled id (e.stateCount + 1)]
    exact finish_of_ofExpr h ht
  · omega
  · omega
  · have hpattern := ofPattern_eq_ok_iff.mpr ⟨e, hsource, ht⟩
    exact ⟨t, hpattern, ht, size_le_of_ofPattern hpattern⟩

/-- A loop in a loop beside an optional part, and the pattern that it is read from. -/
theorem ofExpr_trim_loops :
    let e : Expr := .alternation [.repetition .zeroOrMore
        (.group (.repetition .oneOrMore (.literal 'a' ⟨1, 2⟩) ⟨1, 3⟩) ⟨0, 4⟩) ⟨0, 5⟩,
      .repetition .optional (.wildcard ⟨6, 7⟩) ⟨6, 8⟩]
    e.HasParts ∧ Expr.parse ['(', 'a', '+', ')', '*', '|', '.', '?'] = .ok e ∧
      ∃ t, ofExpr e = .ok t ∧ t.Trim ∧ t.size = 10 ∧ t.size ≤ 2 * 8 + 1 := by
  intro e
  have hparts : e.HasParts := by simp [e, Expr.HasParts, Expr.AllHaveParts]
  have hparse : Expr.parse ['(', 'a', '+', ')', '*', '|', '.', '?'] = .ok e := rfl
  obtain ⟨⟨_, _, t, -, -, -, ht, htrim, -, hsize⟩, hpattern⟩ := ofExpr_trim hparts
  obtain ⟨t', -, ht', hle⟩ := hpattern _ hparse
  obtain rfl := Except.ok.inj (ht.symm.trans ht')
  exact ⟨hparts, hparse, t, ht, htrim, hsize, hle⟩

end Table

end PatternScan
