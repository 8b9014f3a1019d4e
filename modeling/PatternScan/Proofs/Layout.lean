import PatternScan.Construct.Closed
import PatternScan.Pattern.Language

/-!
# Where the construction puts the states

The piece of an expression can be written down without an arena: from the number of its first state
on, it is a list of drafts that depends only on the expression and on where it is left for
(`Expr.layout`), and it has a known entry and a known hole. Making the piece appends this list with
the hole still open (`Arena.lower_eq`), and filling the hole later, with whatever states before and
after, gives the list in which it leads somewhere (`Arena.patch_layout`).
-/

namespace PatternScan

/-- The number of the first of a cascade's branches, which is the last one made; a cascade into a
single piece has none. -/
def cascadeEntry (n : Nat) : List Nat → Nat
  | [] => n
  | [entry] => entry
  | _ :: _ :: rest => n + rest.length

/-- The branches of a cascade into pieces with the given entries, from number `n` on. -/
def cascadeLayout (n : Nat) : List Nat → List Draft
  | [] | [_] => []
  | first :: second :: rest => cascadeLayout n (second :: rest) ++
    [⟨.branch, some (.state first), some (.state (cascadeEntry n (second :: rest)))⟩]

theorem length_cascadeLayout (n : Nat) : ∀ entries : List Nat,
    (cascadeLayout n entries).length = entries.length - 1
  | [] | [_] => rfl
  | first :: second :: rest => by
    rw [cascadeLayout, List.length_append, length_cascadeLayout n (second :: rest)]
    rfl

namespace Expr

mutual

/-- Where the piece is entered if its first state is number `n`. -/
def entry (n : Nat) : Expr → Nat
  | .literal _ _ | .wildcard _ => n
  | .concat items => entryOfFirst n items
  | .alternation items => cascadeEntry (n + stateCounts items + 1) (entries n items)
  | .group inner _ => entry n inner
  | .repetition .zeroOrMore inner _ => n + stateCount inner
  | .repetition .oneOrMore inner _ => entry n inner
  | .repetition .optional inner _ => n + stateCount inner + 1

/-- Where pieces of which each leads to the next are entered. -/
def entryOfFirst (n : Nat) : List Expr → Nat
  | [] => n
  | e :: _ => entry n e

/-- Where pieces that lie side by side are entered. -/
def entries (n : Nat) : List Expr → List Nat
  | [] => []
  | e :: rest => entry n e :: entries (n + stateCount e) rest

end

mutual

/-- The open successors of the piece. -/
def hole (n : Nat) : Expr → Hole
  | .literal _ _ | .wildcard _ => .both n
  | .concat items => holeOfLast n items
  | .alternation items => .both (n + stateCounts items)
  | .group inner _ => hole n inner
  | .repetition .optional inner _ => .both (n + stateCount inner)
  | .repetition _ inner _ => .second (n + stateCount inner)

/-- The open successors of pieces of which each leads to the next. -/
def holeOfLast (n : Nat) : List Expr → Hole
  | [] => .both n
  | [e] => hole n e
  | e :: e' :: rest => holeOfLast (n + stateCount e) (e' :: rest)

end

/-- Where a piece is left for if `rest` comes after it, from number `n` on. -/
def exitBefore (n : Nat) (exit? : Option Next) : List Expr → Option Next
  | [] => exit?
  | e :: _ => some (.state (entry n e))

mutual

/-- The drafts of the piece, which is left for `exit?` and is open if there is none. -/
def layout (n : Nat) (exit? : Option Next) : Expr → List Draft
  | .literal c _ => [⟨.literal c, exit?, exit?⟩]
  | .wildcard _ => [⟨.wildcard, exit?, exit?⟩]
  | .concat items => layoutInTurn n exit? items
  | .alternation items =>
    layoutEach n (some (.state (n + stateCounts items))) items ++
      ⟨.branch, exit?, exit?⟩ :: cascadeLayout (n + stateCounts items + 1) (entries n items)
  | .group inner _ => layout n exit? inner
  | .repetition .optional inner _ =>
    layout n (some (.state (n + stateCount inner))) inner ++
      [⟨.branch, exit?, exit?⟩,
        ⟨.branch, some (.state (entry n inner)), some (.state (n + stateCount inner))⟩]
  | .repetition _ inner _ =>
    layout n (some (.state (n + stateCount inner))) inner ++
      [⟨.branch, some (.state (entry n inner)), exit?⟩]

/-- The drafts of pieces of which each is left for the next. -/
def layoutInTurn (n : Nat) (exit? : Option Next) : List Expr → List Draft
  | [] => []
  | e :: rest => layout n (exitBefore (n + stateCount e) exit? rest) e ++
      layoutInTurn (n + stateCount e) exit? rest

/-- The drafts of pieces that lie side by side. -/
def layoutEach (n : Nat) (exit? : Option Next) : List Expr → List Draft
  | [] => []
  | e :: rest => layout n exit? e ++ layoutEach (n + stateCount e) exit? rest

end

/-- The drafts of a whole expression: a start that leads into its piece, and at the end a state that
accepts, for which the piece is left. -/
def drafts (e : Expr) : List Draft :=
  ⟨.branch, some (.state (entry 1 e)), some (.state (entry 1 e))⟩ ::
    layout 1 (some (.state (stateCount e + 1))) e ++ [⟨.branch, some .final, some .final⟩]

theorem layoutInTurn_cons (n : Nat) (exit? : Option Next) (e : Expr) (rest : List Expr) :
    layoutInTurn n exit? (e :: rest) = layout n (exitBefore (n + stateCount e) exit? rest) e ++
      layoutInTurn (n + stateCount e) exit? rest := by
  rw [layoutInTurn]

theorem length_entries : ∀ (n : Nat) (items : List Expr),
    (entries n items).length = items.length
  | _, [] => rfl
  | n, e :: rest => by
    rw [entries, List.length_cons, length_entries (n + stateCount e) rest, List.length_cons]

mutual

theorem length_layout : ∀ (e : Expr), e.HasParts → ∀ (n : Nat) (exit? : Option Next),
    (layout n exit? e).length = stateCount e
  | .literal _ _, _, _, _ | .wildcard _, _, _, _ => by simp only [layout, stateCount,
      List.length_singleton]
  | .concat items, h, n, exit? => by
    simp only [HasParts] at h
    simp only [layout, stateCount, length_layoutInTurn items h.2]
  | .alternation items, h, n, exit? => by
    simp only [HasParts] at h
    have hpos := List.length_pos_iff.mpr h.1
    simp only [layout, stateCount, List.length_append, List.length_cons, length_cascadeLayout,
      length_entries, length_layoutEach items h.2]
    omega
  | .group inner _, h, n, exit? => by
    simp only [HasParts] at h
    simp only [layout, stateCount, length_layout inner h]
  | .repetition q inner _, h, n, exit? => by
    simp only [HasParts] at h
    cases q <;> simp only [layout, stateCount, List.length_append, List.length_cons,
      List.length_nil, length_layout inner h]

theorem length_layoutInTurn : ∀ (items : List Expr), AllHaveParts items →
    ∀ (n : Nat) (exit? : Option Next), (layoutInTurn n exit? items).length = stateCounts items
  | [], _, _, _ => by simp only [layoutInTurn, stateCounts, List.length_nil]
  | e :: rest, h, n, exit? => by
    simp only [AllHaveParts] at h
    simp only [layoutInTurn, stateCounts, List.length_append, length_layout e h.1,
      length_layoutInTurn rest h.2]

theorem length_layoutEach : ∀ (items : List Expr), AllHaveParts items →
    ∀ (n : Nat) (exit? : Option Next), (layoutEach n exit? items).length = stateCounts items
  | [], _, _, _ => by simp only [layoutEach, stateCounts, List.length_nil]
  | e :: rest, h, n, exit? => by
    simp only [AllHaveParts] at h
    simp only [layoutEach, stateCounts, List.length_append, length_layout e h.1,
      length_layoutEach rest h.2]

end

/-- The pieces that lie side by side. -/
def fragments (n : Nat) : List Expr → List Fragment
  | [] => []
  | e :: rest => ⟨entry n e, hole n e⟩ :: fragments (n + stateCount e) rest

theorem map_entry_fragments : ∀ (n : Nat) (items : List Expr),
    (fragments n items).map Fragment.entry = entries n items
  | _, [] => rfl
  | n, e :: rest => by
    rw [fragments, List.map_cons, map_entry_fragments (n + stateCount e) rest, entries]

end Expr

namespace Arena

def ofList (drafts : List Draft) : Arena :=
  ⟨drafts.toArray⟩

theorem size_ofList (drafts : List Draft) : (ofList drafts).size = drafts.length := rfl

theorem push_ofList (drafts : List Draft) (d : Draft) :
    (ofList drafts).push d = ofList (drafts ++ [d]) := by
  simp only [ofList, push, List.push_toArray]

theorem patch_ofList (drafts : List Draft) (hole : Hole) (target : Next) :
    (ofList drafts).patch hole target =
      ofList (drafts.modify hole.id (hole.fill target)) := by
  simp only [ofList, patch, List.modify_toArray]

theorem patch_ofList_append {before after : List Draft} {d : Draft} {hole : Hole}
    (hid : hole.id = before.length) (target : Next) :
    (ofList (before ++ d :: after)).patch hole target =
      ofList (before ++ hole.fill target d :: after) := by
  rw [patch_ofList, hid]
  exact congrArg ofList (List.modifyTailIdx_add _ 0 before (d :: after))

/-- The hole of a piece that ends with the states made after its parts is the first of them. -/
theorem patch_ofList_parts {before parts rest after : List Draft} {d : Draft} {hole : Hole}
    (hid : hole.id = before.length + parts.length) (target : Next) :
    (ofList (before ++ (parts ++ d :: rest) ++ after)).patch hole target =
      ofList (before ++ (parts ++ hole.fill target d :: rest) ++ after) := by
  have h : (ofList ((before ++ parts) ++ d :: (rest ++ after))).patch hole target = _ :=
    patch_ofList_append (by rw [hid, List.length_append]) target
  simpa only [List.append_assoc, List.cons_append] using h

mutual

/-- Filling the hole of a piece changes nothing else, whatever lies before and after. -/
theorem patch_layout : ∀ {e : Expr}, e.HasParts → ∀ (before after : List Draft) (target : Next),
    (ofList (before ++ e.layout before.length none ++ after)).patch (e.hole before.length) target =
      ofList (before ++ e.layout before.length (some target) ++ after)
  | .literal _ _, _, before, after, target | .wildcard _, _, before, after, target => by
    simp only [Expr.layout, Expr.hole, List.append_assoc, List.singleton_append]
    exact patch_ofList_append rfl target
  | .group inner _, h, before, after, target => by
    simp only [Expr.HasParts] at h
    simp only [Expr.layout, Expr.hole]
    exact patch_layout h before after target
  | .concat items, h, before, after, target => by
    simp only [Expr.HasParts] at h
    simp only [Expr.layout, Expr.hole]
    exact patch_layoutInTurn h.1 h.2 before after target
  | .alternation items, h, before, after, target => by
    simp only [Expr.HasParts] at h
    simp only [Expr.layout, Expr.hole]
    exact patch_ofList_parts (by rw [Expr.length_layoutEach items h.2, Hole.id]) target
  | .repetition .optional inner _, h, before, after, target
  | .repetition .zeroOrMore inner _, h, before, after, target
  | .repetition .oneOrMore inner _, h, before, after, target => by
    simp only [Expr.HasParts] at h
    simp only [Expr.layout, Expr.hole]
    exact patch_ofList_parts (by rw [Expr.length_layout inner h, Hole.id]) target

theorem patch_layoutInTurn : ∀ {items : List Expr}, items ≠ [] → Expr.AllHaveParts items →
    ∀ (before after : List Draft) (target : Next),
      (ofList (before ++ Expr.layoutInTurn before.length none items ++ after)).patch
          (Expr.holeOfLast before.length items) target =
        ofList (before ++ Expr.layoutInTurn before.length (some target) items ++ after)
  | [], h, _, _, _, _ => absurd rfl h
  | [e], _, h, before, after, target => by
    simp only [Expr.AllHaveParts] at h
    simp only [Expr.layoutInTurn, Expr.exitBefore, Expr.holeOfLast, List.append_nil]
    exact patch_layout h.1 before after target
  | e :: e' :: rest, _, h, before, after, target => by
    simp only [Expr.AllHaveParts] at h
    have hne : e' :: rest ≠ [] := List.cons_ne_nil e' rest
    have hrest := patch_layoutInTurn hne (by simp only [Expr.AllHaveParts]; exact h.2)
      (before ++ e.layout before.length
        (some (.state (Expr.entry (before.length + e.stateCount) e')))) after target
    rw [List.length_append, Expr.length_layout e h.1] at hrest
    rw [Expr.layoutInTurn_cons before.length none, Expr.layoutInTurn_cons before.length (some _),
      Expr.holeOfLast, ← List.append_assoc, ← List.append_assoc]
    exact hrest

end

theorem foldl_patch_layoutEach (target : Next) : ∀ {items : List Expr}, Expr.AllHaveParts items →
    ∀ (before after : List Draft),
      (Expr.fragments before.length items).foldl (fun a piece => a.patch piece.hole target)
          (ofList (before ++ Expr.layoutEach before.length none items ++ after)) =
        ofList (before ++ Expr.layoutEach before.length (some target) items ++ after)
  | [], _, before, after => by
    simp only [Expr.fragments, Expr.layoutEach, List.foldl_nil]
  | e :: rest, h, before, after => by
    simp only [Expr.AllHaveParts] at h
    have hrest := foldl_patch_layoutEach target h.2
      (before ++ e.layout before.length (some target)) after
    rw [List.length_append, Expr.length_layout e h.1] at hrest
    simp only [Expr.fragments, Expr.layoutEach, List.foldl_cons]
    rw [← List.append_assoc, List.append_assoc, patch_layout h.1, ← List.append_assoc, hrest,
      List.append_assoc before]

theorem branch_ofList (drafts : List Draft) (first : Next) (second? : Option Next) :
    (ofList drafts).branch first second? =
      (drafts.length, ofList (drafts ++ [⟨.branch, some first, second?⟩])) := by
  rw [branch, push_ofList, size_ofList]

theorem join_ofList (drafts : List Draft) :
    (ofList drafts).join = (drafts.length, ofList (drafts ++ [⟨.branch, none, none⟩])) := by
  rw [join, push_ofList, size_ofList]

theorem cascade_eq (drafts : List Draft) : ∀ (first : Fragment) (rest : List Fragment),
    (ofList drafts).cascade first rest =
      (cascadeEntry drafts.length ((first :: rest).map Fragment.entry),
        ofList (drafts ++ cascadeLayout drafts.length ((first :: rest).map Fragment.entry)))
  | first, [] => by
    simp only [cascade, cascadeEntry, cascadeLayout, List.map_cons, List.map_nil, List.append_nil]
  | first, second :: rest => by
    have hlength := length_cascadeLayout drafts.length ((second :: rest).map Fragment.entry)
    rw [List.length_map, List.length_cons, Nat.add_sub_cancel] at hlength
    rw [cascade, cascade_eq drafts second rest]
    simp only [branch_ofList, List.length_append, hlength, List.append_assoc]
    simp only [List.map_cons, cascadeLayout, cascadeEntry, List.length_map]

theorem repeating_eq {inner : Expr} (h : inner.HasParts) (drafts : List Draft) (q : Quantifier)
    (span : Span) :
    (ofList (drafts ++ inner.layout drafts.length none)).repeating
        ⟨inner.entry drafts.length, inner.hole drafts.length⟩ q =
      (⟨Expr.entry drafts.length (.repetition q inner span),
          Expr.hole drafts.length (.repetition q inner span)⟩,
        ofList (drafts ++ Expr.layout drafts.length none (.repetition q inner span))) := by
  have hlength := fun exit? => Expr.length_layout inner h drafts.length exit?
  have hpatch := patch_layout h drafts
  cases q with
  | zeroOrMore | oneOrMore =>
    simp only [repeating, branch_ofList, hpatch, List.length_append, hlength, Expr.entry,
      Expr.hole, Expr.layout]
    rw [List.append_assoc]
  | optional =>
    simp only [repeating, join_ofList, hpatch, branch_ofList, List.length_append, hlength,
      List.length_singleton, Expr.entry, Expr.hole, Expr.layout]
    rw [List.append_assoc, List.append_assoc, List.singleton_append]

mutual

/-- Making a piece appends its drafts, with the hole open. -/
theorem lower_eq : ∀ {e : Expr}, e.HasParts → ∀ drafts : List Draft,
    (ofList drafts).lower e = .ok (⟨e.entry drafts.length, e.hole drafts.length⟩,
      ofList (drafts ++ e.layout drafts.length none))
  | .literal _ _, _, drafts | .wildcard _, _, drafts => by
    rw [lower, consuming, push_ofList, size_ofList, Expr.entry, Expr.hole, Expr.layout]
  | .group inner _, h, drafts => by
    simp only [Expr.HasParts] at h
    rw [lower, lower_eq h, Expr.entry, Expr.hole, Expr.layout]
  | .concat [], h, _ => by
    simp only [Expr.HasParts, ne_eq, not_true, false_and] at h
  | .concat (e :: rest), h, drafts => by
    simp only [Expr.HasParts, Expr.AllHaveParts] at h
    rw [lower, lower_eq h.2.1, Expr.entry, Expr.hole, Expr.layout, Expr.entryOfFirst]
    exact lowerAfter_eq h.2.1 h.2.2 drafts _
  | .alternation items, h, drafts => by
    simp only [Expr.HasParts] at h
    have hlength := Expr.length_layoutEach items h.2 drafts.length
    have heach := foldl_patch_layoutEach (.state (drafts.length + Expr.stateCounts items)) h.2
      drafts [⟨.branch, none, none⟩]
    rcases items with _ | ⟨e, rest⟩
    · exact absurd rfl h.1
    · rw [Expr.fragments] at heach
      rw [lower, lowerEach_eq h.2, Expr.fragments]
      simp only [bind, Except.bind, choosing, join_ofList, List.length_append, hlength, heach,
        cascade_eq, List.length_singleton]
      rw [← Expr.fragments, Expr.map_entry_fragments, Expr.entry, Expr.hole, Expr.layout]
      simp only [List.append_assoc, List.singleton_append, Nat.add_assoc]
  | .repetition q inner span, h, drafts => by
    simp only [Expr.HasParts] at h
    simp only [lower, lower_eq h, bind, Except.bind, pure, Except.pure,
      repeating_eq h drafts q span]

/-- The pieces after the first are appended, and each is entered through the hole of the one
before. -/
theorem lowerAfter_eq : ∀ {e : Expr} {rest : List Expr}, e.HasParts → Expr.AllHaveParts rest →
    ∀ (drafts : List Draft) (entry : Nat),
      (ofList (drafts ++ e.layout drafts.length none)).lowerAfter
          ⟨entry, e.hole drafts.length⟩ rest =
        .ok (⟨entry, Expr.holeOfLast drafts.length (e :: rest)⟩,
          ofList (drafts ++ Expr.layoutInTurn drafts.length none (e :: rest)))
  | e, [], _, _, drafts, entry => by
    simp only [lowerAfter, Expr.holeOfLast, Expr.layoutInTurn, Expr.exitBefore, List.append_nil]
  | e, e' :: rest, he, h, drafts, entry => by
    simp only [Expr.AllHaveParts] at h
    have hlength := fun exit? => Expr.length_layout e he drafts.length exit?
    have hpatch := patch_layout he drafts
    have hrest := lowerAfter_eq h.1 h.2 (drafts ++ e.layout drafts.length
      (some (.state (e'.entry (drafts.length + e.stateCount))))) entry
    rw [List.length_append, hlength] at hrest
    simp only [lowerAfter, lower_eq h.1, bind, Except.bind, List.length_append, hlength, hpatch,
      hrest, Expr.holeOfLast]
    rw [Expr.layoutInTurn_cons drafts.length, Expr.exitBefore, List.append_assoc]

theorem lowerEach_eq : ∀ {items : List Expr}, Expr.AllHaveParts items → ∀ drafts : List Draft,
    (ofList drafts).lowerEach items = .ok (Expr.fragments drafts.length items,
      ofList (drafts ++ Expr.layoutEach drafts.length none items))
  | [], _, drafts => by
    simp only [lowerEach, Expr.fragments, Expr.layoutEach, List.append_nil]
  | e :: rest, h, drafts => by
    simp only [Expr.AllHaveParts] at h
    simp only [lowerEach, lower_eq h.1, lowerEach_eq h.2, bind, Except.bind, pure, Except.pure,
      List.length_append, Expr.length_layout e h.1, Expr.fragments, Expr.layoutEach,
      List.append_assoc]

end

theorem exists_lower_eq_ok {e : Expr} (h : e.HasParts) (a : Arena) :
    ∃ piece b, a.lower e = .ok (piece, b) :=
  ⟨_, _, lower_eq h a.drafts.toList⟩

mutual

theorem lower_eq_error : ∀ {e : Expr}, ¬ e.HasParts → ∀ a : Arena, a.lower e = .error .noParts
  | .literal _ _, h, _ | .wildcard _, h, _ => absurd (by simp only [Expr.HasParts]) h
  | .group inner _, h, a => by
    simp only [Expr.HasParts] at h
    rw [lower, lower_eq_error h]
  | .concat [], _, a => by rw [lower]
  | .concat (e :: rest), h, a => by
    rw [lower]
    by_cases he : e.HasParts
    · have hrest : ¬ Expr.AllHaveParts rest := fun hrest =>
        h (by simp only [Expr.HasParts, Expr.AllHaveParts]; exact ⟨by simp, he, hrest⟩)
      obtain ⟨piece, b, hb⟩ := exists_lower_eq_ok he a
      rw [hb]
      exact lowerAfter_eq_error hrest b piece
    · rw [lower_eq_error he]
      rfl
  | .alternation items, h, a => by
    rw [lower]
    by_cases hall : Expr.AllHaveParts items
    · rcases items with _ | ⟨e, rest⟩
      · rw [lowerEach]
        rfl
      · exact absurd (by simp only [Expr.HasParts]; exact ⟨by simp, hall⟩) h
    · rw [lowerEach_eq_error hall]
      rfl
  | .repetition q inner _, h, a => by
    simp only [Expr.HasParts] at h
    rw [lower, lower_eq_error h]
    rfl

theorem lowerAfter_eq_error : ∀ {items : List Expr}, ¬ Expr.AllHaveParts items →
    ∀ (a : Arena) (before : Fragment), a.lowerAfter before items = .error .noParts
  | [], h, _, _ => absurd (by simp only [Expr.AllHaveParts]) h
  | e :: rest, h, a, before => by
    rw [lowerAfter]
    by_cases he : e.HasParts
    · have hrest : ¬ Expr.AllHaveParts rest := fun hrest =>
        h (by simp only [Expr.AllHaveParts]; exact ⟨he, hrest⟩)
      obtain ⟨piece, b, hb⟩ := exists_lower_eq_ok he a
      rw [hb]
      exact lowerAfter_eq_error hrest _ _
    · rw [lower_eq_error he]
      rfl

theorem lowerEach_eq_error : ∀ {items : List Expr}, ¬ Expr.AllHaveParts items →
    ∀ a : Arena, a.lowerEach items = .error .noParts
  | [], h, _ => absurd (by simp only [Expr.AllHaveParts]) h
  | e :: rest, h, a => by
    rw [lowerEach]
    by_cases he : e.HasParts
    · have hrest : ¬ Expr.AllHaveParts rest := fun hrest =>
        h (by simp only [Expr.AllHaveParts]; exact ⟨he, hrest⟩)
      obtain ⟨piece, b, hb⟩ := exists_lower_eq_ok he a
      rw [hb]
      simp only [bind, Except.bind, lowerEach_eq_error hrest b]
    · rw [lower_eq_error he]
      rfl

end

theorem ofExpr_eq {e : Expr} (h : e.HasParts) :
    Arena.ofExpr e = .ok (e.stateCount + 1, ofList e.drafts) := by
  have hlower := lower_eq h [⟨.branch, none, none⟩]
  have hstart : (ofList (⟨.branch, none, none⟩ :: e.layout 1 none)).patch (.both 0)
      (.state (e.entry 1)) = ofList (⟨.branch, some (.state (e.entry 1)),
        some (.state (e.entry 1))⟩ :: e.layout 1 none) := rfl
  have hexit := patch_layout h [⟨.branch, some (.state (e.entry 1)), some (.state (e.entry 1))⟩]
    [⟨.branch, some .final, some .final⟩]
  have hjoin : Arena.empty.join = (0, ofList [⟨.branch, none, none⟩]) := rfl
  simp only [List.length_singleton, List.singleton_append] at hlower hexit
  simp only [Arena.ofExpr, hjoin, hlower, bind, Except.bind, pure, Except.pure, hstart,
    branch_ofList, hexit, List.length_cons, Expr.length_layout e h, Expr.drafts]

end Arena

namespace Table

theorem states_of_ofStates {states : Array State} {t : Table} (h : ofStates states = .ok t) :
    t.states = states := by
  unfold ofStates at h
  split at h
  · cases h
  split at h
  · cases h
  · exact congrArg Table.states (Except.ok.inj h).symm

theorem exists_ofExpr_eq_ok {e : Expr} (h : e.HasParts) : ∃ t, ofExpr e = .ok t ∧
    t.states = (e.drafts.map (Draft.settle (e.stateCount + 1))).toArray := by
  obtain ⟨t, ht⟩ := exists_ofExpr h
  refine ⟨t, ht, ?_⟩
  have hmap : ofExpr e =
      ((Arena.ofList e.drafts).finish (e.stateCount + 1)).mapError .invalidTable := by
    rw [ofExpr, Arena.ofExpr_eq h]
    rfl
  rcases hfinish : (Arena.ofList e.drafts).finish (e.stateCount + 1) with err | t'
  · rw [hmap, hfinish] at ht
    cases ht
  · rw [hmap, hfinish] at ht
    obtain rfl := Except.ok.inj ht
    rw [states_of_ofStates hfinish, Arena.ofList, List.map_toArray]

theorem ofExpr_eq_error {e : Expr} (h : ¬ e.HasParts) : ofExpr e = .error .noParts := by
  rw [ofExpr, Arena.ofExpr]
  simp only [Arena.lower_eq_error h, bind, Except.bind]

theorem states_of_ofExpr {e : Expr} {t : Table} (h : ofExpr e = .ok t) : e.HasParts ∧
    t.states = (e.drafts.map (Draft.settle (e.stateCount + 1))).toArray := by
  have hparts : e.HasParts := Classical.byContradiction fun hparts =>
    nomatch h.symm.trans (ofExpr_eq_error hparts)
  obtain ⟨t', ht', hstates⟩ := exists_ofExpr_eq_ok hparts
  obtain rfl := Except.ok.inj (h.symm.trans ht')
  exact ⟨hparts, hstates⟩

end Table

end PatternScan
