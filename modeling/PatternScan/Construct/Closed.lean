import PatternScan.Construct.Thompson
import PatternScan.Pattern.Parts

/-!
# The construction succeeds

No step of the construction leads to a state that the arena lacks, so the states of an expression
whose lists have parts are a table (`exists_ofExpr`). In particular every pattern that can be read
has a table.
-/

namespace PatternScan

/-- The successors that have been filled are in a table of so many states. -/
def Draft.Within (size : Nat) (d : Draft) : Prop :=
  (∀ n, d.first? = some n → n.Within size) ∧ ∀ n, d.second? = some n → n.Within size

theorem Next.Within.mono {m n : Nat} (h : m ≤ n) : ∀ {next : Next}, next.Within m → next.Within n
  | .final, _ => trivial
  | .state _, hid => Nat.lt_of_lt_of_le hid h

namespace Draft

theorem Within.mono {m n : Nat} (h : m ≤ n) {d : Draft} (hd : d.Within m) : d.Within n :=
  ⟨fun next hn => (hd.1 next hn).mono h, fun next hn => (hd.2 next hn).mono h⟩

theorem Within.fill {size : Nat} {d : Draft} {target : Next} (hd : d.Within size)
    (ht : target.Within size) : ∀ hole : Hole, (hole.fill target d).Within size
  | .both _ =>
    ⟨fun _ hn => Option.some.inj hn ▸ ht, fun _ hn => Option.some.inj hn ▸ ht⟩
  | .second _ => ⟨hd.1, fun _ hn => Option.some.inj hn ▸ ht⟩

theorem within_getD {size terminal : Nat} (ht : terminal < size) :
    ∀ {next? : Option Next}, (∀ n, next? = some n → n.Within size) →
      (next?.getD (.state terminal)).Within size
  | none, _ => ht
  | some n, h => h n rfl

theorem Within.settle {size terminal : Nat} {d : Draft} (hd : d.Within size)
    (ht : terminal < size) :
    (d.settle terminal).first.Within size ∧ (d.settle terminal).second.Within size := by
  unfold Draft.settle
  split
  · exact ⟨within_getD ht hd.1, within_getD ht hd.1⟩
  · exact ⟨within_getD ht hd.1, within_getD ht hd.2⟩

theorem settle_uniform {terminal : Nat} {d : Draft}
    (h : (d.settle terminal).kind.consumes = true) :
    (d.settle terminal).first = (d.settle terminal).second := by
  unfold Draft.settle at h ⊢
  split
  · rfl
  · next hk =>
    rw [if_neg hk] at h
    exact absurd h hk

end Draft

namespace Arena

/-- Every successor that has been filled is in the arena. -/
def Closed (a : Arena) : Prop :=
  ∀ d ∈ a.drafts, d.Within a.size

/-- The arena has the states through which the piece is entered and left. -/
def Has (a : Arena) (piece : Fragment) : Prop :=
  piece.entry < a.size ∧ piece.hole.id < a.size

/-- The arena `b` is closed and has all states that `a` has. -/
structure Grown (a b : Arena) : Prop where
  closed : b.Closed
  size_le : a.size ≤ b.size

theorem size_push (a : Arena) (d : Draft) : (a.push d).size = a.size + 1 :=
  Array.size_push d

theorem size_patch (a : Arena) (hole : Hole) (target : Next) :
    (a.patch hole target).size = a.size :=
  Array.size_modify

theorem closed_empty : Closed .empty := by
  intro d hd
  exact absurd hd (Array.not_mem_empty d)

theorem Closed.push {a : Arena} (h : a.Closed) {d : Draft} (hd : d.Within (a.size + 1)) :
    Grown a (a.push d) := by
  refine ⟨fun x hx => ?_, by rw [size_push]; omega⟩
  rw [size_push]
  rcases Array.mem_push.mp hx with hx | rfl
  · exact (h x hx).mono (by omega)
  · exact hd

theorem Closed.patch {a : Arena} (h : a.Closed) (hole : Hole) (target : Next)
    (ht : target.Within a.size) : (a.patch hole target).Closed := by
  intro x hx
  rw [size_patch]
  obtain ⟨id, hid, rfl⟩ := Array.mem_iff_getElem.mp hx
  have hid' : id < a.drafts.size := by
    have := hid
    simp only [Arena.patch, Array.size_modify] at this
    exact this
  simp only [Arena.patch, Array.getElem_modify]
  have hd := h a.drafts[id] (Array.getElem_mem hid')
  split
  · exact hd.fill ht hole
  · exact hd

theorem Has.mono {a b : Arena} (h : a.size ≤ b.size) {piece : Fragment} (hp : a.Has piece) :
    b.Has piece :=
  ⟨Nat.lt_of_lt_of_le hp.1 h, Nat.lt_of_lt_of_le hp.2 h⟩

theorem Grown.trans {a b c : Arena} (hab : Grown a b) (hbc : Grown b c) : Grown a c :=
  ⟨hbc.closed, Nat.le_trans hab.size_le hbc.size_le⟩

theorem Grown.patch {a b : Arena} (h : Grown a b) (hole : Hole) (target : Next)
    (ht : target.Within b.size) : Grown a (b.patch hole target) :=
  ⟨h.closed.patch hole target ht, by rw [size_patch]; exact h.size_le⟩

theorem Closed.join {a : Arena} (h : a.Closed) : Grown a a.join.2 :=
  h.push ⟨fun _ hn => (nomatch hn), fun _ hn => (nomatch hn)⟩

theorem Closed.branch {a : Arena} (h : a.Closed) (first : Next) (second? : Option Next)
    (hfirst : first.Within (a.size + 1))
    (hsecond : ∀ n, second? = some n → n.Within (a.size + 1)) :
    Grown a (a.branch first second?).2 :=
  h.push ⟨fun _ hn => Option.some.inj hn ▸ hfirst, hsecond⟩

theorem size_join (a : Arena) : a.join.2.size = a.size + 1 :=
  size_push ..

theorem size_branch (a : Arena) (first : Next) (second? : Option Next) :
    (a.branch first second?).2.size = a.size + 1 :=
  size_push ..

theorem Closed.consuming {a : Arena} (h : a.Closed) (kind : StateKind) :
    Grown a (a.consuming kind).2 ∧ (a.consuming kind).2.Has (a.consuming kind).1 := by
  refine ⟨h.push ⟨fun _ hn => (nomatch hn), fun _ hn => (nomatch hn)⟩, ?_⟩
  simp only [Arena.consuming, Has, size_push, Hole.id]
  exact ⟨Nat.lt_succ_self _, Nat.lt_succ_self _⟩

theorem Closed.repeating {a : Arena} (h : a.Closed) {body : Fragment} (hb : a.Has body) :
    ∀ q : Quantifier, Grown a (a.repeating body q).2 ∧
      (a.repeating body q).2.Has (a.repeating body q).1
  | .zeroOrMore => by
    have hbranch := h.branch (.state body.entry) none (Nat.lt_succ_of_lt hb.1)
      (fun _ hn => nomatch hn)
    refine ⟨hbranch.patch _ _ ?_, ?_⟩
    · rw [size_branch]
      exact Nat.lt_succ_self _
    · simp only [Arena.repeating, Has, size_patch, Hole.id, Arena.branch, size_push]
      omega
  | .oneOrMore => by
    have hbranch := h.branch (.state body.entry) none (Nat.lt_succ_of_lt hb.1)
      (fun _ hn => nomatch hn)
    refine ⟨hbranch.patch _ _ ?_, ?_⟩
    · rw [size_branch]
      exact Nat.lt_succ_self _
    · have := hb.1
      simp only [Arena.repeating, Has, size_patch, Hole.id, Arena.branch, size_push]
      omega
  | .optional => by
    have hjoin := h.join.patch body.hole (.state a.size)
      (by rw [size_join]; exact Nat.lt_succ_self _)
    have hsize : (a.join.2.patch body.hole (.state a.size)).size = a.size + 1 := by
      rw [size_patch, size_join]
    have hentry : body.entry < a.size + 1 + 1 := Nat.lt_succ_of_lt (Nat.lt_succ_of_lt hb.1)
    have hlast : a.size < a.size + 1 + 1 := Nat.lt_succ_of_lt (Nat.lt_succ_self _)
    have hbranch := hjoin.closed.branch (.state body.entry) (some (.state a.size))
      (by rw [hsize]; exact hentry)
      (fun _ hn => Option.some.inj hn ▸ by rw [hsize]; exact hlast)
    refine ⟨hjoin.trans hbranch, ?_⟩
    simp only [Arena.repeating, Has, Arena.join, Arena.branch, size_push, size_patch, Hole.id]
    omega

theorem Closed.cascade : ∀ {a : Arena}, a.Closed → ∀ {first : Fragment} {rest : List Fragment},
    a.Has first → (∀ p ∈ rest, a.Has p) →
      Grown a (a.cascade first rest).2 ∧ (a.cascade first rest).1 < (a.cascade first rest).2.size
  | a, h, first, [], hf, _ => ⟨⟨h, Nat.le_refl _⟩, hf.1⟩
  | a, h, first, second :: rest, hf, hrest => by
    obtain ⟨hgrown, hentry⟩ := h.cascade (hrest second List.mem_cons_self)
      (fun p hp => hrest p (List.mem_cons_of_mem _ hp))
    have hfirst := Nat.lt_of_lt_of_le hf.1 hgrown.size_le
    have hbranch := hgrown.closed.branch (.state first.entry)
      (some (.state (a.cascade second rest).1)) (Nat.lt_succ_of_lt hfirst)
      (fun _ hn => Option.some.inj hn ▸ Nat.lt_succ_of_lt hentry)
    refine ⟨hgrown.trans hbranch, ?_⟩
    simp only [Arena.cascade, Arena.branch, size_push]
    omega

theorem Grown.foldl_patch {a b : Arena} (h : Grown a b) (target : Next)
    (ht : target.Within b.size) (pieces : List Fragment) :
    Grown a (pieces.foldl (fun a piece => a.patch piece.hole target) b) ∧
      (pieces.foldl (fun a piece => a.patch piece.hole target) b).size = b.size := by
  induction pieces generalizing b with
  | nil => exact ⟨h, rfl⟩
  | cons piece pieces ih =>
    have hb := ih (h.patch piece.hole target ht) (by rw [size_patch]; exact ht)
    rwa [size_patch] at hb

theorem Closed.choosing {a : Arena} (h : a.Closed) {first : Fragment} {rest : List Fragment}
    (hpieces : ∀ p ∈ first :: rest, a.Has p) :
    Grown a (a.choosing first rest).2 ∧
      (a.choosing first rest).2.Has (a.choosing first rest).1 := by
  obtain ⟨hgrown, hsize⟩ := h.join.foldl_patch (.state a.size)
    (by rw [size_join]; exact Nat.lt_succ_self _) (first :: rest)
  have hhas : ∀ p ∈ first :: rest, Has _ p := fun p hp => (hpieces p hp).mono hgrown.size_le
  obtain ⟨hcascade, hentry⟩ := hgrown.closed.cascade (hhas first List.mem_cons_self)
    (fun p hp => hhas p (List.mem_cons_of_mem _ hp))
  refine ⟨hgrown.trans hcascade, hentry, Nat.lt_of_lt_of_le ?_ hcascade.size_le⟩
  rw [hsize, size_join]
  exact Nat.lt_succ_self _

mutual

theorem Closed.lower {a : Arena} (h : a.Closed) : ∀ {e : Expr}, e.HasParts →
    ∃ piece b, a.lower e = .ok (piece, b) ∧ Grown a b ∧ b.Has piece
  | .literal c _, _ => ⟨_, _, by rw [Arena.lower], h.consuming _⟩
  | .wildcard _, _ => ⟨_, _, by rw [Arena.lower], h.consuming _⟩
  | .group inner _, he => by
    simp only [Expr.HasParts] at he
    obtain ⟨piece, b, hb, hgrown⟩ := h.lower he
    exact ⟨piece, b, by simp only [Arena.lower, hb], hgrown⟩
  | .concat [], he => by
    simp only [Expr.HasParts, ne_eq, not_true, false_and] at he
  | .concat (e :: rest), he => by
    simp only [Expr.HasParts, Expr.AllHaveParts] at he
    obtain ⟨piece, b, hb, hgrown, hpiece⟩ := h.lower he.2.1
    obtain ⟨whole, c, hc, hwhole⟩ := hgrown.closed.lowerAfter hpiece he.2.2
    exact ⟨whole, c, by simp only [Arena.lower, hb, hc, bind, Except.bind],
      hgrown.trans hwhole.1, hwhole.2⟩
  | .alternation items, he => by
    simp only [Expr.HasParts] at he
    obtain ⟨pieces, b, hb, hgrown, hlength, hpieces⟩ := h.lowerEach he.2
    match pieces, hlength, hpieces with
    | [], hlength, _ => exact absurd (List.length_eq_zero_iff.mp hlength) he.1
    | first :: rest, _, hpieces =>
      obtain ⟨hchoosing, hwhole⟩ := hgrown.closed.choosing hpieces
      exact ⟨_, _, by simp only [Arena.lower, hb, bind, Except.bind],
        hgrown.trans hchoosing, hwhole⟩
  | .repetition q inner _, he => by
    simp only [Expr.HasParts] at he
    obtain ⟨body, b, hb, hgrown, hbody⟩ := h.lower he
    obtain ⟨hrepeating, hwhole⟩ := hgrown.closed.repeating hbody q
    exact ⟨_, _, by simp only [Arena.lower, hb, bind, Except.bind, pure, Except.pure],
      hgrown.trans hrepeating, hwhole⟩

theorem Closed.lowerAfter {a : Arena} (h : a.Closed) {before : Fragment} (hbefore : a.Has before) :
    ∀ {items : List Expr}, Expr.AllHaveParts items →
      ∃ piece b, a.lowerAfter before items = .ok (piece, b) ∧ Grown a b ∧ b.Has piece
  | [], _ => ⟨before, a, by simp only [Arena.lowerAfter], ⟨h, Nat.le_refl _⟩, hbefore⟩
  | e :: rest, he => by
    simp only [Expr.AllHaveParts] at he
    obtain ⟨piece, b, hb, hgrown, hpiece⟩ := h.lower he.1
    have hpatch := hgrown.patch before.hole (.state piece.entry) hpiece.1
    have hsize := size_patch b before.hole (.state piece.entry)
    have hboth : (b.patch before.hole (.state piece.entry)).Has ⟨before.entry, piece.hole⟩ := by
      unfold Has
      rw [hsize]
      exact ⟨Nat.lt_of_lt_of_le hbefore.1 hgrown.size_le, hpiece.2⟩
    obtain ⟨whole, c, hc, hwhole⟩ := hpatch.closed.lowerAfter hboth he.2
    exact ⟨whole, c, by simp only [Arena.lowerAfter, hb, hc, bind, Except.bind],
      hpatch.trans hwhole.1, hwhole.2⟩

theorem Closed.lowerEach {a : Arena} (h : a.Closed) : ∀ {items : List Expr},
    Expr.AllHaveParts items → ∃ pieces b, a.lowerEach items = .ok (pieces, b) ∧ Grown a b ∧
      items.length = pieces.length ∧ ∀ p ∈ pieces, b.Has p
  | [], _ =>
    ⟨[], a, by simp only [Arena.lowerEach], ⟨h, Nat.le_refl _⟩, rfl, fun _ hp => nomatch hp⟩
  | e :: rest, he => by
    simp only [Expr.AllHaveParts] at he
    obtain ⟨piece, b, hb, hgrown, hpiece⟩ := h.lower he.1
    obtain ⟨pieces, c, hc, hrest, hlength, hpieces⟩ := hgrown.closed.lowerEach he.2
    refine ⟨piece :: pieces, c,
      by simp only [Arena.lowerEach, hb, hc, bind, Except.bind, pure, Except.pure],
      hgrown.trans hrest, congrArg (· + 1) hlength, fun p hp => ?_⟩
    rcases List.mem_cons.mp hp with rfl | hp
    · exact hpiece.mono hrest.size_le
    · exact hpieces p hp

end

theorem exists_ofExpr {e : Expr} (h : e.HasParts) :
    ∃ terminal a, Arena.ofExpr e = .ok (terminal, a) ∧ a.Closed ∧ terminal < a.size := by
  obtain ⟨body, b, hb, hgrown, hbody⟩ := closed_empty.join.closed.lower h
  have hstart := hgrown.patch (.both Arena.empty.join.1) (.state body.entry) hbody.1
  have hbranch := hstart.closed.branch .final (some .final) trivial
    (fun _ hn => Option.some.inj hn ▸ trivial)
  have hterminal := size_branch (b.patch (.both Arena.empty.join.1) (.state body.entry)) .final
    (some .final)
  have hlast := hbranch.patch body.hole
    (.state (b.patch (.both Arena.empty.join.1) (.state body.entry)).size)
    (by rw [hterminal]; exact Nat.lt_succ_self _)
  refine ⟨_, _, by simp only [Arena.ofExpr, hb, bind, Except.bind, pure, Except.pure]; rfl,
    hlast.closed, ?_⟩
  rw [size_patch, hterminal]
  exact Nat.lt_succ_self _

theorem Closed.exists_finish {a : Arena} (h : a.Closed) {terminal : Nat} (ht : terminal < a.size) :
    ∃ t, a.finish terminal = .ok t := by
  have hsettled : ∀ s ∈ a.drafts.map (Draft.settle terminal), ∃ d ∈ a.drafts,
      d.settle terminal = s := fun s hs => Array.mem_map.mp hs
  have hnonempty : (a.drafts.map (Draft.settle terminal)).size ≠ 0 := by
    rw [Array.size_map]
    exact Nat.ne_of_gt (Nat.zero_lt_of_lt ht)
  have hclosed : ∀ s ∈ a.drafts.map (Draft.settle terminal),
      s.first.Within (a.drafts.map (Draft.settle terminal)).size ∧
        s.second.Within (a.drafts.map (Draft.settle terminal)).size := by
    intro s hs
    obtain ⟨d, hd, rfl⟩ := hsettled s hs
    rw [Array.size_map]
    exact (h d hd).settle ht
  have huniform : ∀ s ∈ a.drafts.map (Draft.settle terminal),
      s.kind.consumes = true → s.first = s.second := by
    intro s hs
    obtain ⟨d, _, rfl⟩ := hsettled s hs
    exact Draft.settle_uniform
  exact ⟨_, Table.ofStates_states ⟨_, hnonempty, hclosed, huniform⟩⟩

end Arena

namespace Table

/-- Every expression whose lists have parts has a table. -/
theorem exists_ofExpr {e : Expr} (h : e.HasParts) : ∃ t, ofExpr e = .ok t := by
  obtain ⟨terminal, a, ha, hclosed, hterminal⟩ := Arena.exists_ofExpr h
  obtain ⟨t, ht⟩ := hclosed.exists_finish hterminal
  have hmap : ofExpr e = (a.finish terminal).mapError .invalidTable := by
    rw [ofExpr, ha]
    rfl
  exact ⟨t, by rw [hmap, ht]; rfl⟩

end Table

end PatternScan
