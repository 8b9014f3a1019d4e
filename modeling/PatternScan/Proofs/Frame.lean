import PatternScan.Construct.History
import PatternScan.Proofs.Connection

/-!
# What making a piece changes

The drafts of a piece depend on where it is left for only in its hole (`Expr.exists_layout_eq`).
Every other slot leads to a state of the piece, wherever the piece is left for, and so also while
the hole is open. Making a piece thus adds its states to those of an arena, and only its hole is
open among them (`Arena.lower_appends`).
-/

namespace PatternScan

namespace Expr

mutual

/-- A piece depends on where it is left for only in its hole. -/
theorem exists_layout_eq : ∀ {e : Expr}, e.HasParts → ∀ n : Nat, ∃ before d after,
    (e.hole n).id = n + before.length ∧
      ∀ exit?, e.layout n exit? = before ++ (e.hole n).leave exit? d :: after
  | .literal c _, _, n => ⟨[], ⟨.literal c, none, none⟩, [], rfl, fun _ => rfl⟩
  | .wildcard _, _, n => ⟨[], ⟨.wildcard, none, none⟩, [], rfl, fun _ => rfl⟩
  | .concat items, h, n => by
    simp only [HasParts] at h
    simp only [layout, hole]
    exact exists_layoutInTurn_eq h.1 h.2 n
  | .alternation items, h, n => by
    simp only [HasParts] at h
    simp only [layout, hole]
    exact ⟨layoutEach n _ items, ⟨.branch, none, none⟩, _, by rw [length_layoutEach items h.2]; rfl,
      fun _ => rfl⟩
  | .group inner _, h, n => by
    simp only [HasParts] at h
    simp only [layout, hole]
    exact exists_layout_eq h n
  | .repetition .optional inner _, h, n => by
    simp only [HasParts] at h
    simp only [layout, hole]
    exact ⟨layout n _ inner, ⟨.branch, none, none⟩, _, by rw [length_layout inner h]; rfl,
      fun _ => rfl⟩
  | .repetition .zeroOrMore inner _, h, n | .repetition .oneOrMore inner _, h, n => by
    simp only [HasParts] at h
    simp only [layout, hole]
    exact ⟨layout n _ inner, ⟨.branch, some (.state (entry n inner)), none⟩, [],
      by rw [length_layout inner h]; rfl, fun _ => rfl⟩

theorem exists_layoutInTurn_eq : ∀ {items : List Expr}, items ≠ [] → AllHaveParts items →
    ∀ n : Nat, ∃ before d after, (holeOfLast n items).id = n + before.length ∧
      ∀ exit?, layoutInTurn n exit? items = before ++ (holeOfLast n items).leave exit? d :: after
  | [], h, _, _ => absurd rfl h
  | [e], _, h, n => by
    simp only [AllHaveParts] at h
    simp only [layoutInTurn, exitBefore, holeOfLast, List.append_nil]
    exact exists_layout_eq h.1 n
  | e :: e' :: rest, _, h, n => by
    simp only [AllHaveParts] at h
    obtain ⟨before, d, after, hid, hlayout⟩ := exists_layoutInTurn_eq (List.cons_ne_nil e' rest)
      (by simp only [AllHaveParts]; exact h.2) (n + e.stateCount)
    refine ⟨e.layout n (some (.state (entry (n + e.stateCount) e'))) ++ before, d, after, ?_,
      fun exit? => ?_⟩
    · rw [holeOfLast, hid, List.length_append, length_layout e h.1, Nat.add_assoc]
    · rw [layoutInTurn_cons, hlayout, exitBefore, holeOfLast, List.append_assoc]

end

end Expr

namespace Arena

variable {e : Expr}

/-- A slot of a piece is in the hole, or holds what does not depend on where the piece is left
for. -/
theorem exists_slot?_layout (h : e.HasParts) (drafts : List Draft) (slot : Slot) :
    ∃ value?, ∀ exit?, (ofList (drafts ++ e.layout drafts.length exit?)).slot? slot =
      if slot ∈ (e.hole drafts.length).slots then exit? else value? := by
  obtain ⟨before, d, after, hid, hlayout⟩ := Expr.exists_layout_eq h drafts.length
  simp only [hlayout, slot?, ofList, List.getElem?_toArray, ← List.append_assoc]
  rw [← List.length_append] at hid
  by_cases hslot : slot.id = (e.hole drafts.length).id
  · refine ⟨d.slot? slot, fun exit? => ?_⟩
    rw [hslot, hid, List.getElem?_append_right (Nat.le_refl _), Nat.sub_self,
      List.getElem?_cons_zero]
    exact Hole.slot?_leave hslot exit? d
  · refine ⟨(drafts ++ before ++ d :: after)[slot.id]?.bind (·.slot? slot), fun exit? => ?_⟩
    rw [if_neg fun hmem => hslot (Hole.id_eq_of_mem_slots hmem)]
    rw [hid] at hslot
    rcases Nat.lt_or_gt_of_ne hslot with hlt | hgt
    · rw [List.getElem?_append_left hlt, List.getElem?_append_left hlt]
    · obtain ⟨k, hk⟩ := Nat.exists_eq_add_of_lt hgt
      have hle := Nat.le_of_lt hgt
      rw [List.getElem?_append_right hle, List.getElem?_append_right hle,
        show slot.id - (drafts ++ before).length = k + 1 by omega, List.getElem?_cons_succ,
        List.getElem?_cons_succ]

theorem among_slot?_layout (h : e.HasParts) (drafts : List Draft) (exit? : Option Next)
    {slot : Slot} (hle : drafts.length ≤ slot.id)
    (hlt : slot.id < drafts.length + e.stateCount) :
    Among drafts.length e.stateCount exit?
      ((ofList (drafts ++ e.layout drafts.length exit?)).slot? slot) := by
  have hlength := Expr.length_layout e h drafts.length exit?
  have hat : slot.id - drafts.length < (e.layout drafts.length exit?).length := by omega
  obtain ⟨hfirst, hsecond⟩ := Expr.among_layout h drafts.length exit? _ (List.getElem_mem hat)
  rw [slot?, ofList, List.getElem?_toArray, List.getElem?_append_right hle,
    List.getElem?_eq_getElem hat, Option.bind_some]
  cases slot with
  | first => exact hfirst
  | second => exact hsecond

/-- The slots of the hole of a piece are open, and every other one leads to a state of the piece. -/
theorem slot?_layout (h : e.HasParts) (drafts : List Draft) {slot : Slot}
    (hle : drafts.length ≤ slot.id) (hlt : slot.id < drafts.length + e.stateCount) :
    (slot ∈ (e.hole drafts.length).slots →
      (ofList (drafts ++ e.layout drafts.length none)).slot? slot = none) ∧
    (slot ∉ (e.hole drafts.length).slots →
      ∃ id, drafts.length ≤ id ∧ id < drafts.length + e.stateCount ∧
        (ofList (drafts ++ e.layout drafts.length none)).slot? slot = some (.state id)) := by
  obtain ⟨value?, hvalue⟩ := exists_slot?_layout h drafts slot
  refine ⟨fun hmem => by rw [hvalue, if_pos hmem], fun hmem => ?_⟩
  -- The value is the same when the piece is left for a state of its own, and nothing is open.
  have hamong := among_slot?_layout h drafts (some (.state drafts.length)) hle hlt
  rw [hvalue, if_neg hmem] at hamong ⊢
  rcases hamong with hexit | ⟨id, hid, hid', hstate⟩
  · exact ⟨drafts.length, Nat.le_refl _, by omega, hexit⟩
  · exact ⟨id, hid, hid', hstate⟩

theorem hole_mem (h : e.HasParts) (n : Nat) :
    n ≤ (e.hole n).id ∧ (e.hole n).id < n + e.stateCount := by
  obtain ⟨before, d, after, hid, hlayout⟩ := Expr.exists_layout_eq h n
  have hlength := Expr.length_layout e h n none
  rw [hlayout, List.length_append, List.length_cons] at hlength
  omega

/-- Making a piece leaves the states of the arena as they are and adds those of the piece, by which
it is entered and left. Of their slots those of its hole are open, and all others lead to states of
the piece. -/
theorem lower_appends (h : e.HasParts) (a : Arena) :
    ∃ piece b, a.lower e = .ok (piece, b) ∧ b.size = a.size + e.stateCount ∧
      (∀ id < a.size, b.drafts[id]? = a.drafts[id]?) ∧
      (a.size ≤ piece.entry ∧ piece.entry < b.size) ∧
      (a.size ≤ piece.hole.id ∧ piece.hole.id < b.size) ∧
      ∀ slot : Slot, a.size ≤ slot.id → slot.id < b.size →
        (b.slot? slot = none ↔ slot ∈ piece.hole.slots) ∧
        ∀ next, b.slot? slot = some next →
          ∃ id, next = .state id ∧ a.size ≤ id ∧ id < b.size := by
  obtain ⟨⟨drafts⟩⟩ := a
  have hsize : (ofList (drafts ++ e.layout drafts.length none)).size =
      drafts.length + e.stateCount := by
    rw [size_ofList, List.length_append, Expr.length_layout e h]
  refine ⟨_, _, lower_eq h drafts, hsize, fun id hid => ?_, ?_, ?_, fun slot hle hlt => ?_⟩
  · rw [ofList, List.getElem?_toArray, List.getElem?_toArray]
    exact List.getElem?_append_left hid
  · exact hsize ▸ Expr.entry_mem h drafts.length
  · exact hsize ▸ hole_mem h drafts.length
  · rw [hsize] at hlt ⊢
    obtain ⟨hopen, hfilled⟩ := slot?_layout h drafts hle hlt
    by_cases hmem : slot ∈ (e.hole drafts.length).slots
    · rw [hopen hmem]
      exact ⟨iff_of_true rfl hmem, fun _ hnext => absurd hnext.symm (Option.some_ne_none _)⟩
    · obtain ⟨id, hid, hid', hstate⟩ := hfilled hmem
      rw [hstate]
      refine ⟨iff_of_false (Option.some_ne_none _) hmem, fun next hnext => ?_⟩
      exact ⟨id, (Option.some.inj hnext).symm, hid, hid'⟩

/-- A loop beside a wildcard, made in an arena with an open slot and one for a missing state. -/
theorem lower_appends_loop :
    let e : Expr := .alternation
      [.repetition .zeroOrMore (.literal 'a' ⟨0, 1⟩) ⟨0, 2⟩, .wildcard ⟨3, 4⟩]
    let a : Arena := ⟨#[⟨.branch, none, some (.state 9)⟩]⟩
    e.HasParts ∧ ∃ b, a.lower e = .ok (⟨5, .both 4⟩, b) ∧ b.size = 6 ∧
      b.drafts[0]? = some ⟨.branch, none, some (.state 9)⟩ ∧
      ∀ slot : Slot, 1 ≤ slot.id → slot.id < 6 →
        (b.slot? slot = none ↔ slot ∈ [Slot.first 4, Slot.second 4]) := by
  intro e a
  have hparts : e.HasParts := by simp [e, Expr.HasParts, Expr.AllHaveParts]
  obtain ⟨piece, b, hlower, hsize, hkept, -, -, hslots⟩ := lower_appends hparts a
  obtain rfl : piece = ⟨5, .both 4⟩ :=
    (congrArg Prod.fst (Except.ok.inj (hlower.symm.trans (lower_eq hparts _)))).trans rfl
  replace hsize : b.size = 6 := hsize
  refine ⟨hparts, b, hlower, hsize, hkept 0 (by decide), fun slot hle hlt => ?_⟩
  exact (hslots slot hle (hsize ▸ hlt)).1

end Arena

end PatternScan
