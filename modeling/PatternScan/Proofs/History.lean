import Mathlib.Order.Bounds.Basic
import PatternScan.Construct.History
import PatternScan.Construct.Thompson
import PatternScan.Proofs.Recognition

/-!
# What an arena holds at the end

One operation changes a slot just if it writes into it (`Arena.slot?_of_perform?`), so after any
number of them each slot holds the last value that was written to it
(`Arena.exists_performAll?`). The states that come of this are those of the table, unless there
are none or one of them leads to a state that is missing (`Arena.finish_last_written`).
-/

namespace PatternScan

open Arena.Operation

namespace Arena

section Slots

variable (a : Arena)

theorem slot?_of_size_le {slot : Slot} (h : a.size ≤ slot.id) : a.slot? slot = none := by
  rw [slot?, Array.getElem?_eq_none h, Option.bind_none]

theorem slot?_push (d : Draft) (slot : Slot) : (a.push d).slot? slot =
    (if slot.id = a.size then d.slot? slot else none).or (a.slot? slot) := by
  split
  · next hid =>
    rw [a.slot?_of_size_le hid.ge, Option.or_none, slot?, push, hid, size, Array.getElem?_push_size,
      Option.bind_some]
  · next hid =>
    rw [size] at hid
    rw [slot?, push, Array.getElem?_push, if_neg hid, Option.none_or, slot?]

/-- Filling a hole sets its slots and no others. -/
theorem slot?_patch {hole : Hole} (h : hole.id < a.size) (target : Next) (slot : Slot) :
    (a.patch hole target).slot? slot =
      (if slot ∈ hole.slots then some target else none).or (a.slot? slot) := by
  simp only [slot?, patch, Array.getElem?_modify]
  by_cases hid : slot.id = hole.id
  · rw [if_pos hid.symm, hid, Array.getElem?_eq_getElem h, Option.map_some, Option.bind_some,
      Hole.fill_eq_leave, Hole.slot?_leave hid]
    split <;> rfl
  · rw [if_neg (Ne.symm hid), if_neg fun hmem => hid (Hole.id_eq_of_mem_slots hmem),
      Option.none_or]

end Slots

section Operations

variable {a b : Arena}

theorem lastWritten?_append (writes more : List (Slot × Next)) (slot : Slot) :
    lastWritten? (writes ++ more) slot =
      (lastWritten? more slot).or (lastWritten? writes slot) := by
  rw [lastWritten?, List.reverse_append, List.find?_append, Option.map_or]
  rfl

theorem lastWritten?_branch (count : Nat) (first : Next) (second? : Option Next) (slot : Slot) :
    lastWritten? ((Operation.branch first second?).writes count) slot =
      if slot.id = count then (⟨.branch, some first, second?⟩ : Draft).slot? slot else none := by
  by_cases hid : slot.id = count <;> cases slot <;> cases second? <;>
    simp_all [writes, lastWritten?, Draft.slot?, Slot.id, eq_comm]

theorem lastWritten?_patch (count : Nat) (hole : Hole) (target : Next) (slot : Slot) :
    lastWritten? ((Operation.patch hole target).writes count) slot =
      if slot ∈ hole.slots then some target else none := by
  by_cases hid : slot.id = hole.id <;> cases hole <;> cases slot <;>
    simp_all [writes, lastWritten?, Hole.slots, Slot.id, Hole.id, eq_comm]

theorem exists_perform? {op : Operation} (h : op.Fits a.size) : ∃ b, a.perform? op = some b := by
  cases op with
  | patch hole target => exact ⟨_, if_pos h⟩
  | _ => exact ⟨_, rfl⟩

/-- An operation changes the slots that it writes into and no others. -/
theorem slot?_of_perform? {op : Operation} (h : a.perform? op = some b) (slot : Slot) :
    b.slot? slot = (lastWritten? (op.writes a.size) slot).or (a.slot? slot) := by
  cases op with
  | consuming | join =>
    obtain rfl := Option.some.inj h
    refine (a.slot?_push _ slot).trans ?_
    rw [Draft.slot?_open, ite_self]
    rfl
  | branch first second? =>
    obtain rfl := Option.some.inj h
    rw [lastWritten?_branch]
    exact a.slot?_push _ slot
  | patch hole target =>
    obtain ⟨hid, rfl⟩ := Option.ite_some_none_eq_some.mp h
    rw [lastWritten?_patch]
    exact a.slot?_patch hid target slot

theorem kinds_push (a : Arena) (d : Draft) : (a.push d).kinds = a.kinds ++ [d.kind] := by
  simp [kinds, push]

theorem kinds_patch (a : Arena) (hole : Hole) (target : Next) :
    (a.patch hole target).kinds = a.kinds := by
  refine List.ext_getElem? fun id => ?_
  simp only [kinds, patch, List.getElem?_map, Array.getElem?_toList, Array.getElem?_modify]
  split
  · rw [Option.map_map]
    rw [hole.fill_eq_leave]
    exact congrArg (Option.map · _) (funext fun d => hole.kind_leave _ d)
  · rfl

theorem kinds_of_perform? {op : Operation} (h : a.perform? op = some b) :
    b.kinds = a.kinds ++ op.made?.toList := by
  cases op with
  | patch hole target =>
    obtain ⟨-, rfl⟩ := Option.ite_some_none_eq_some.mp h
    rw [kinds_patch, made?, Option.toList_none, List.append_nil]
  | consuming | join | branch =>
    obtain rfl := Option.some.inj h
    exact a.kinds_push _

theorem length_kinds (a : Arena) : a.kinds.length = a.size := by
  rw [kinds, List.length_map, Array.length_toList, size]

theorem size_of_perform? {op : Operation} (h : a.perform? op = some b) :
    b.size = op.countAfter a.size := by
  rw [← length_kinds, kinds_of_perform? h, List.length_append, length_kinds, countAfter]

/-- Operations succeed if they fit, make their states after those there are, and leave in each slot
the last value that one of them wrote to it. -/
theorem exists_performAll? : ∀ {ops : List Operation} {a : Arena}, FitFrom a.size ops →
    ∃ b, a.performAll? ops = some b ∧ b.kinds = a.kinds ++ madeBy ops ∧
      ∀ slot, b.slot? slot = (lastWritten? (writesFrom a.size ops) slot).or (a.slot? slot)
  | [], a, _ => ⟨a, rfl, by simp [madeBy], fun slot => by simp [writesFrom, lastWritten?]⟩
  | op :: rest, a, h => by
    obtain ⟨b, hb⟩ := exists_perform? h.1
    have hrest := h.2
    rw [← size_of_perform? hb] at hrest
    obtain ⟨c, hc, hkinds, hslots⟩ := exists_performAll? hrest
    refine ⟨c, ?_, ?_, fun slot => ?_⟩
    · rw [performAll?, List.foldlM_cons, hb]
      exact hc
    · rw [hkinds, kinds_of_perform? hb, List.append_assoc]
      simp only [madeBy, List.filterMap_cons]
      cases op.made? <;> rfl
    · rw [hslots, slot?_of_perform? hb, writesFrom, lastWritten?_append, Option.or_assoc,
        size_of_perform? hb]

end Operations

/-- The states that an arena settles to, from what its slots hold. -/
theorem toList_map_settle (a : Arena) (terminal : Nat) :
    (a.drafts.map (Draft.settle terminal)).toList = a.kinds.mapIdx fun id kind =>
      ⟨kind, (a.slot? (.first id)).getD (.state terminal),
        (a.slot? (if kind.consumes then .first id else .second id)).getD (.state terminal)⟩ := by
  refine List.ext_getElem? fun id => ?_
  rw [Array.getElem?_toList, Array.getElem?_map, List.getElem?_mapIdx, kinds, List.getElem?_map,
    Array.getElem?_toList]
  rcases hd : a.drafts[id]? with _ | d
  · rfl
  · simp only [Option.map_some, slot?, Slot.id, hd, Draft.settle]
    split <;> simp_all [Draft.slot?]

end Arena

namespace Table

/-- The fault of some states is that of the first state that has one. -/
theorem firstFault?_eq_some {states : Array State} {e : TableError}
    (h : firstFault? states = some e) : ∃ id s, states[id]? = some s ∧
      stateFault? states.size id s = some e ∧
        ∀ j < id, ∀ s', states[j]? = some s' → stateFault? states.size j s' = none := by
  obtain ⟨before, ⟨s, id⟩, after, hsplit, hs, hbefore⟩ := Array.findSome?_eq_some_iff.mp h
  have hplaces : ∀ j, states.zipIdx[j]? = states[j]?.map (·, j) := fun j => by
    rw [Array.getElem?_zipIdx, Nat.zero_add]
  have hat := hplaces before.size
  rw [hsplit, Array.getElem?_append_left (by simp), Array.getElem?_push_size, eq_comm,
    Option.map_eq_some_iff] at hat
  obtain ⟨s', hs', hpair⟩ := hat
  obtain ⟨rfl, rfl⟩ := Prod.mk.inj hpair
  refine ⟨before.size, s', hs', hs, fun j hj s hjs => hbefore (s, j) ?_⟩
  have hearlier := hplaces j
  rw [hsplit, hjs, Array.getElem?_append_left (by simp; omega), Array.getElem?_push_lt hj]
    at hearlier
  have hget : before[j] = (s, j) := Option.some.inj hearlier
  exact hget ▸ Array.getElem_mem hj

/-- What keeps a state from being one of a table if it has one successor wherever it needs to. -/
theorem stateFault?_of_uniform (size id : Nat) {s : State}
    (h : s.kind.consumes = true → s.first = s.second) :
    (stateFault? size id s = none ∧ ¬ s.Dangles size) ∨ s.Dangles size ∧
      ∃ target, (target = s.first ∨ target = s.second) ∧ ¬ target.Within size ∧
        stateFault? size id s = some (.danglingSuccessor id target) := by
  by_cases hfirst : s.first.Within size
  · by_cases hsecond : s.second.Within size
    · refine .inl ⟨stateFault?_eq_none_iff.mpr ⟨hfirst, hsecond, h⟩, ?_⟩
      simp [State.Dangles, hfirst, hsecond]
    · exact .inr ⟨.inr hsecond, s.second, .inr rfl, hsecond, by simp [stateFault?, hfirst, hsecond]⟩
  · exact .inr ⟨.inl hfirst, s.first, .inl rfl, hfirst, by simp [stateFault?, hfirst]⟩

section Uniform

variable {states : Array State}
  (h : ∀ s ∈ states, s.kind.consumes = true → s.first = s.second)

include h

/-- States of which those that read a character have one successor are refused if there are none,
or else for the first that dangles. -/
theorem ofStates_eq_error_of_uniform {e : TableError} (he : ofStates states = .error e) :
    states.size = 0 ∧ e = .empty ∨
      ∃ id s target, IsLeast {i | ∃ s, states[i]? = some s ∧ s.Dangles states.size} id ∧
        states[id]? = some s ∧ (target = s.first ∨ target = s.second) ∧
          ¬ target.Within states.size ∧ e = .danglingSuccessor id target := by
  rcases fault_of_ofStates he with hempty | hfault
  · exact .inl hempty
  obtain ⟨id, s, hs, hsfault, hbefore⟩ := firstFault?_eq_some hfault
  obtain ⟨hnone, -⟩ | ⟨hdangles, target, htarget, hwithin, hsome⟩ :=
    stateFault?_of_uniform states.size id (h s (Array.mem_of_getElem? hs))
  · cases hnone.symm.trans hsfault
  · refine .inr ⟨id, s, target, ⟨⟨s, hs, hdangles⟩, ?_⟩, hs, htarget, hwithin,
      Option.some.inj (hsfault.symm.trans hsome)⟩
    rintro j ⟨s', hs', hdangles'⟩
    refine Nat.le_of_not_lt fun hj => ?_
    obtain ⟨-, hfine⟩ | ⟨-, target', -, -, hsome'⟩ :=
      stateFault?_of_uniform states.size j (h s' (Array.mem_of_getElem? hs'))
    · exact hfine hdangles'
    · cases (hbefore j hj s' hs').symm.trans hsome'

theorem exists_ofStates_eq_error_iff :
    (∃ e, ofStates states = .error e) ↔
      states.size = 0 ∨ ∃ s ∈ states, s.Dangles states.size := by
  constructor
  · rintro ⟨e, he⟩
    obtain ⟨hempty, -⟩ | ⟨id, s, target, ⟨⟨s', hs', hdangles⟩, -⟩, -⟩ :=
      ofStates_eq_error_of_uniform h he
    · exact .inl hempty
    · exact .inr ⟨s', Array.mem_of_getElem? hs', hdangles⟩
  · intro hfault
    rcases ht : ofStates states with e | t
    · exact ⟨e, rfl⟩
    · obtain rfl := states_of_ofStates ht
      rcases hfault with hempty | ⟨s, hs, hdangles⟩
      · exact absurd hempty t.nonempty
      · obtain ⟨hfirst, hsecond⟩ := t.closed s hs
        exact absurd hdangles (by simp [State.Dangles, hfirst, hsecond])

end Uniform

end Table

theorem ConstructionError.message_danglingSuccessor (id : Nat) (target : Next) :
    message (.invalidTable (.danglingSuccessor id target)) =
      "Builder: produced an invalid table (state ".toList ++ Decimal.digits id ++
        " points at ".toList ++ Decimal.signedDigits target.encode ++
          ", which does not exist)".toList := by
  have hmessage : message (.invalidTable (.danglingSuccessor id target)) =
      "Builder: produced an invalid table (".toList ++ ("state ".toList ++ Decimal.digits id ++
        " points at ".toList ++ Decimal.signedDigits target.encode ++
          ", which does not exist".toList) ++ [')'] := rfl
  have hbegin : "Builder: produced an invalid table (state ".toList =
      "Builder: produced an invalid table (".toList ++ "state ".toList := rfl
  have hend : ", which does not exist)".toList = ", which does not exist".toList ++ [')'] := rfl
  rw [hmessage, hbegin, hend]
  simp only [List.append_assoc]

namespace Arena

/-- After operations that fill holes only of states made before, the table holds in each slot the
last value that was written to it, or leads to `terminal`, and a state that reads a character goes
on at its first slot. There is no table just if there are no states or one so made dangles, which
the message tells of the first such state. -/
theorem finish_last_written {ops : List Operation} (h : FitFrom 0 ops) (terminal : Nat) :
    ∃ a, empty.performAll? ops = some a ∧ a.size = (madeBy ops).length ∧
      (∀ t, a.finish terminal = .ok t → t.states.toList = states ops terminal) ∧
      ((∃ e, a.finish terminal = .error e) ↔
        a.size = 0 ∨ ∃ s ∈ states ops terminal, s.Dangles a.size) ∧
      ∀ e, a.finish terminal = .error e → a.size = 0 ∧ e = .empty ∨
        ∃ id s target,
          IsLeast {i | ∃ s, (states ops terminal)[i]? = some s ∧ s.Dangles a.size} id ∧
          (states ops terminal)[id]? = some s ∧ (target = s.first ∨ target = s.second) ∧
          ¬ target.Within a.size ∧ e = .danglingSuccessor id target ∧
          (ConstructionError.invalidTable e).message =
            "Builder: produced an invalid table (state ".toList ++ Decimal.digits id ++
              " points at ".toList ++ Decimal.signedDigits target.encode ++
                ", which does not exist)".toList := by
  obtain ⟨a, ha, hkinds, hslots⟩ := exists_performAll? (a := empty) h
  have hsettled : (a.drafts.map (Draft.settle terminal)).toList = states ops terminal := by
    have hempty : ∀ slot, empty.slot? slot = none := fun slot =>
      empty.slot?_of_size_le (Nat.zero_le _)
    simp only [toList_map_settle, hkinds, hslots, hempty, Option.or_none]
    rfl
  have hsize : (a.drafts.map (Draft.settle terminal)).size = a.size := Array.size_map ..
  have huniform : ∀ s ∈ a.drafts.map (Draft.settle terminal),
      s.kind.consumes = true → s.first = s.second := by
    intro s hs
    obtain ⟨d, -, rfl⟩ := Array.mem_map.mp hs
    exact Draft.settle_uniform
  have hrefused := Table.exists_ofStates_eq_error_iff huniform
  have herror := fun e => Table.ofStates_eq_error_of_uniform (e := e) huniform
  simp only [hsize, ← Array.mem_toList_iff, ← Array.getElem?_toList, hsettled] at hrefused herror
  refine ⟨a, ha, ?_, fun t ht => ?_, hrefused, fun e he => ?_⟩
  · rw [← length_kinds, hkinds]
    rfl
  · rw [Table.states_of_ofStates ht, hsettled]
  · obtain hempty | ⟨id, s, target, hleast, hs, htarget, hwithin, rfl⟩ := herror e he
    · exact .inl hempty
    · refine .inr ⟨id, s, target, hleast, hs, htarget, hwithin, rfl, ?_⟩
      exact ConstructionError.message_danglingSuccessor id target

/-- A literal of which only the second slot is filled, with a state that is missing, and a branch
that is filled twice. -/
theorem finish_last_written_half_filled :
    let ops : List Operation := [.consuming (.literal 'q'), .join, .patch (.second 0) (.state 9),
      .patch (.both 1) (.state 5), .patch (.second 1) .final, .branch (.state 0) none,
      .patch (.both 1) (.state 2)]
    FitFrom 0 ops ∧ ∃ a, empty.performAll? ops = some a ∧
      (∃ t, a.finish 1 = .ok t ∧ t.states.toList = [⟨.literal 'q', .state 1, .state 1⟩,
        ⟨.branch, .state 2, .state 2⟩, ⟨.branch, .state 0, .state 1⟩]) ∧
      a.finish 3 = .error (.danglingSuccessor 0 (.state 3)) := by
  intro ops
  have h : FitFrom 0 ops := by decide
  obtain ⟨a, ha, hsize, htable, hrefused, -⟩ := finish_last_written h 1
  obtain ⟨a', ha', -, -, hrefused', herror⟩ := finish_last_written h 3
  obtain rfl := Option.some.inj (ha.symm.trans ha')
  replace hsize : a.size = 3 := hsize
  rw [hsize] at hrefused hrefused' herror
  refine ⟨h, a, ha, ?_, ?_⟩
  · rcases ht : a.finish 1 with e | t
    · exact absurd (hrefused.mp ⟨e, ht⟩) (by decide)
    · exact ⟨t, rfl, htable t ht⟩
  · obtain ⟨e, he⟩ := hrefused'.mpr (by decide)
    obtain ⟨hempty, -⟩ | ⟨id, s, target, ⟨-, hleast⟩, hs, htarget, -, rfl, -⟩ := herror e he
    · cases hempty
    · obtain rfl : id = 0 := Nat.le_zero.mp (hleast ⟨_, rfl, by decide⟩)
      obtain rfl := Option.some.inj hs
      obtain rfl : target = .state 3 := htarget.elim id id
      exact he

end Arena

end PatternScan
