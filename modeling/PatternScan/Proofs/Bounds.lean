import Mathlib.Data.List.Nodup
import Mathlib.Data.List.Perm.Subperm
import Mathlib.Order.MinMax
import PatternScan.Proofs.Reuse
import PatternScan.Simulate.Steps

/-!
# The bounds of a traversal

All along a traversal the places to explore are in the table, no state is visited twice at a
position, and there are no more places put off than states that read a character (`Bounded`, which
every step keeps). A visit costs one place to explore and one state to visit and brings at most two
places, so that a position takes at most three steps for each state and one to move on: the
traversal ends after a number of steps that is known in advance (`Traversal.cost`).
-/

namespace PatternScan

namespace Table

variable {t : Table}

theorem consumingCount_eq (t : Table) : t.consumingCount =
    ((List.range t.size).filter fun id => (t.get? id).any (·.kind.consumes)).length := by
  have hstates : (List.range t.size).map t.get? = t.states.toList.map some := by
    refine List.ext_getElem (by simp [size]) fun i hi hi' => ?_
    simp only [size, List.length_map, List.length_range] at hi
    simp [get?, hi]
  rw [← List.countP_eq_length_filter, consumingCount, ← Array.countP_toList]
  calc t.states.toList.countP (·.kind.consumes)
      = (t.states.toList.map some).countP (Option.any (·.kind.consumes)) := by
        rw [List.countP_map]
        rfl
    _ = (List.range t.size).countP fun id => (t.get? id).any (·.kind.consumes) := by
        rw [← hstates, List.countP_map]
        rfl

theorem length_le_consumingCount {ids : List Nat} (hnodup : ids.Nodup)
    (h : ∀ id ∈ ids, ∃ s, t.get? id = some s ∧ s.kind.consumes = true) :
    ids.length ≤ t.consumingCount := by
  rw [consumingCount_eq]
  refine (hnodup.subperm fun id hid => ?_).length_le
  obtain ⟨s, hs, hconsumes⟩ := h id hid
  have hlt : id < t.size := (Array.getElem?_eq_some_iff.mp hs).1
  simp [hs, hconsumes, hlt]

theorem consumingCount_le (t : Table) : t.consumingCount ≤ t.size :=
  Array.countP_le_size

end Table

theorem Frontier.Over.unvisited_le {f : Frontier} {size : Nat} (h : f.Over size) :
    f.unvisited ≤ size :=
  h.size_marks ▸ Array.countP_le_size

namespace Traversal

/-- What holds of a traversal of a line from a start all along, after the events so far. -/
structure Bounded (table : Table) (line : List Char) (start : Nat) (events : List TraversalEvent)
    (t : Traversal) : Prop where
  bounded : t.frontier.Over table.size
  within : ∀ n ∈ t.frontier.work ++ t.frontier.deferred, n.Within table.size
  rest_eq : t.rest = line.drop t.pos
  pos_le : t.pos ≤ max start line.length
  nodup : (visits events).Nodup
  visited : ∀ v ∈ visits events, v.1 < t.pos ∨ v.1 = t.pos ∧ t.frontier.Visited v.2
  put_off : ∃ ids : List Nat, ids.Nodup ∧ ids.length = t.frontier.deferred.length ∧
    ∀ id ∈ ids, t.frontier.Visited id ∧ ∃ s, table.get? id = some s ∧ s.kind.consumes = true
  ended : t.rest = [] → t.frontier.deferred = []

variable {table : Table} {line : List Char} {start : Nat} {events : List TraversalEvent}
  {t t' : Traversal}

theorem bounded_start {f : Frontier} (h : f.Over table.size) (line : List Char) (start : Nat) :
    Bounded table line start [] (.start f start (line.drop start)) := by
  refine ⟨h.reset _, ?_, rfl, le_max_left _ _, List.nodup_nil, by simp [visits],
    ⟨[], List.nodup_nil, rfl, by simp⟩, fun _ => rfl⟩
  have hzero : 0 < table.size := Nat.pos_of_ne_zero table.nonempty
  simpa [Traversal.start, Frontier.reset, Next.Within] using hzero

theorem Bounded.deferred_le (h : Bounded table line start events t) :
    t.frontier.deferred.length ≤ table.consumingCount := by
  obtain ⟨ids, hnodup, hlength, hids⟩ := h.put_off
  exact hlength ▸ Table.length_le_consumingCount hnodup fun id hid => (hids id hid).2

/-- A visit of a state that has not been visited at this position. -/
theorem Bounded.visit (h : Bounded table line start events t) {id : Nat} {s : State}
    {event : TraversalEvent} (fresh : List Next) {work deferred : List Next}
    (hwork : t.frontier.work = .state id :: work) (hs : table.get? id = some s)
    (hfirst : t.frontier.isUnvisited id = true) (hevent : event.visit? = some (t.pos, id))
    (hfresh : ∀ n ∈ fresh, n.Within table.size)
    (hdeferred : deferred = t.frontier.deferred ∨ s.kind.consumes = true ∧ t.rest ≠ [] ∧
      deferred = s.first :: t.frontier.deferred) :
    Bounded table line start (events ++ [event]) { t with frontier :=
      { t.frontier.visit id with work := fresh ++ work, deferred } } := by
  obtain ⟨hid, hnot⟩ := (Frontier.isUnvisited_eq_true_iff h.bounded).mp hfirst
  have hvisited : ∀ i, Frontier.Visited
      { t.frontier.visit id with work := fresh ++ work, deferred } i ↔
        i = id ∨ t.frontier.Visited i := fun i => Frontier.visited_visit_iff h.bounded hid
  have hvisits : visits (events ++ [event]) = visits events ++ [(t.pos, id)] := by
    simp [visits, hevent]
  have hwithin := h.within
  rw [hwork] at hwithin
  refine { h with
    bounded := (h.bounded.visit id).of_marks rfl le_rfl
    within := fun n hn => ?_
    nodup := ?_
    visited := fun v hv => ?_
    put_off := ?_
    ended := fun hrest => ?_ }
  · rcases List.mem_append.mp hn with hn | hn
    · rcases List.mem_append.mp hn with hn | hn
      · exact hfresh n hn
      · exact hwithin n (by simp [hn])
    · rcases hdeferred with rfl | ⟨-, -, rfl⟩
      · exact hwithin n (by simp [show n ∈ t.frontier.deferred from hn])
      · rcases List.mem_cons.mp hn with rfl | hn
        · exact (table.closed s (Array.mem_of_getElem? hs)).1
        · exact hwithin n (by simp [hn])
  · rw [hvisits, List.nodup_append]
    refine ⟨h.nodup, List.nodup_singleton _, fun v hv w hw hvw => ?_⟩
    obtain rfl := List.mem_singleton.mp hw
    subst hvw
    rcases h.visited _ hv with hlt | ⟨-, hv⟩
    · exact absurd hlt (Nat.lt_irrefl _)
    · exact hnot hv
  · rw [hvisits] at hv
    rcases List.mem_append.mp hv with hv | hv
    · exact (h.visited v hv).imp_right fun hv => ⟨hv.1, (hvisited _).mpr (.inr hv.2)⟩
    · obtain rfl := List.mem_singleton.mp hv
      exact .inr ⟨rfl, (hvisited id).mpr (.inl rfl)⟩
  -- What is put off is the successor of a state visited here, each of another state.
  · obtain ⟨ids, hnodup, hlength, hids⟩ := h.put_off
    have hids' : ∀ i ∈ ids, Frontier.Visited
        { t.frontier.visit id with work := fresh ++ work, deferred } i ∧
          ∃ s, table.get? i = some s ∧ s.kind.consumes = true :=
      fun i hi => ⟨(hvisited i).mpr (.inr (hids i hi).1), (hids i hi).2⟩
    rcases hdeferred with rfl | ⟨hconsumes, -, rfl⟩
    · exact ⟨ids, hnodup, hlength, hids'⟩
    · refine ⟨id :: ids, List.nodup_cons.mpr ⟨fun hmem => hnot (hids id hmem).1, hnodup⟩,
        congrArg (· + 1) hlength, List.forall_mem_cons.mpr ⟨?_, hids'⟩⟩
      exact ⟨(hvisited id).mpr (.inl rfl), s, hs, hconsumes⟩
  · rcases hdeferred with rfl | ⟨-, hne, -⟩
    · exact h.ended hrest
    · exact absurd hrest hne

/-- A step to the next position, at which nothing has been visited. -/
theorem Bounded.advance (h : Bounded table line start events t) {c : Char} {rest : List Char}
    (hwork : t.frontier.work = []) (hrest : t.rest = c :: rest) (carried : Nat) :
    Bounded table line start (events ++ [.advance (t.pos + 1) carried])
      ⟨{ t.frontier.clearVisited with work := t.frontier.deferred.reverse, deferred := [] },
        t.pos + 1, rest⟩ := by
  have hdrop := h.rest_eq
  rw [hrest] at hdrop
  have hlength : t.pos < line.length := by
    by_contra hge
    rw [List.drop_eq_nil_of_le (Nat.le_of_not_lt hge)] at hdrop
    exact nomatch hdrop
  have hvisits : visits (events ++ [.advance (t.pos + 1) carried]) = visits events := by
    simp [visits, TraversalEvent.visit?]
  have hwithin := h.within
  rw [hwork, List.nil_append] at hwithin
  refine {
    bounded := h.bounded.clearVisited.of_marks rfl le_rfl
    within := fun n hn => hwithin n (by simpa using hn)
    rest_eq := ?_
    pos_le := le_max_of_le_right hlength
    nodup := hvisits ▸ h.nodup
    visited := fun v hv => .inl ?_
    put_off := ⟨[], List.nodup_nil, rfl, by simp⟩
    ended := fun _ => rfl }
  · rw [← List.drop_drop, ← hdrop]
    rfl
  · rcases h.visited v (hvisits ▸ hv) with hlt | ⟨heq, -⟩
    · exact Nat.lt_succ_of_lt hlt
    · exact heq ▸ Nat.lt_succ_self _

theorem Bounded.step (h : Bounded table line start events t) {event? : Option TraversalEvent}
    (hstep : Stepped table t event? (.more t')) :
    Bounded table line start (events ++ event?.toList) t' := by
  cases hstep with
  | @skip id work hwork _ =>
    rw [Option.toList_none, List.append_nil]
    have hwithin := h.within
    rw [hwork] at hwithin
    exact { h with
      bounded := h.bounded.of_marks rfl le_rfl
      within := fun n hn => hwithin n (List.mem_cons_of_mem _ hn) }
  | @branch id s work hwork hs hfirst _ =>
    refine h.visit _ hwork hs hfirst rfl (fun n hn => ?_) (.inl rfl)
    have hclosed := table.closed s (Array.mem_of_getElem? hs)
    rcases State.mem_successors.mp hn with rfl | rfl
    · exact hclosed.1
    · exact hclosed.2
  | @consume id s c work hwork hs hfirst hhead haccepts =>
    refine h.visit [] hwork hs hfirst rfl (by simp) (.inr ⟨?_, ?_, rfl⟩)
    · rcases hk : s.kind with _ | _ | _ <;> simp_all [StateKind.accepts, StateKind.consumes]
    · rintro hrest
      simp [hrest] at hhead
  | @drop id s work hwork hs hfirst _ _ =>
    exact h.visit [] hwork hs hfirst rfl (by simp) (.inl rfl)
  | advance hwork hrest _ => exact h.advance hwork hrest _

/-- Nothing is left to explore where a step moves on or gives up. -/
theorem work_eq_nil_of_step {pos carried : Nat}
    (h : (t.step table).1 = some (.advance pos carried) ∨ (t.step table).1 = some (.reject pos)) :
    t.frontier.work = [] := by
  obtain ⟨next, hstep⟩ : ∃ next, Stepped table t (t.step table).1 next :=
    ⟨_, stepped_step table t⟩
  rcases h with h | h
  · rw [h] at hstep
    cases hstep with
    | advance hwork _ _ => exact hwork
  · rw [h] at hstep
    cases hstep with
    | reject hwork _ => exact hwork

/-- More steps than this do not come: three for each state at each position, and one to move on. -/
def cost (table : Table) (t : Traversal) : Nat :=
  t.rest.length * (3 * table.size + 1) + 2 * t.frontier.unvisited + t.frontier.work.length

theorem cost_lt_of_frontier {f : Frontier} (h : 2 * f.unvisited + f.work.length <
    2 * t.frontier.unvisited + t.frontier.work.length) :
    cost table { t with frontier := f } < t.cost table := by
  show t.rest.length * (3 * table.size + 1) + 2 * f.unvisited + f.work.length < _
  rw [cost]
  omega

/-- A visit brings no more than two places to explore, and there is one state less to visit. -/
theorem cost_visit_lt {id : Nat} {work : List Next} (fresh deferred : List Next)
    (hwork : t.frontier.work = .state id :: work) (hfirst : t.frontier.isUnvisited id = true)
    (hfresh : fresh.length ≤ 2) :
    cost table { t with frontier :=
      { t.frontier.visit id with work := fresh ++ work, deferred } } < t.cost table := by
  have hlt : (t.frontier.visit id).unvisited < t.frontier.unvisited :=
    Frontier.unvisited_visit_lt hfirst
  refine cost_lt_of_frontier ?_
  show 2 * (t.frontier.visit id).unvisited + (fresh ++ work).length < _
  rw [hwork, List.length_append, List.length_cons]
  omega

theorem Bounded.cost_lt (h : Bounded table line start events t) {event? : Option TraversalEvent}
    (hstep : Stepped table t event? (.more t')) : t'.cost table < t.cost table := by
  cases hstep with
  | @skip id work hwork _ =>
    refine cost_lt_of_frontier ?_
    show 2 * t.frontier.unvisited + work.length < _
    rw [hwork, List.length_cons]
    omega
  | @branch id s work hwork _ hfirst _ =>
    refine cost_visit_lt _ _ hwork hfirst ?_
    unfold State.successors
    split <;> simp
  | consume hwork _ hfirst _ _ => exact cost_visit_lt [] _ hwork hfirst (by simp)
  | drop hwork _ hfirst _ _ => exact cost_visit_lt [] _ hwork hfirst (by simp)
  | @advance c rest hwork hrest _ =>
    -- What was put off comes back and no state is marked, so both are at most the table's size.
    have hdeferred := h.deferred_le.trans table.consumingCount_le
    have hmarks : t.frontier.clearVisited.unvisited ≤ table.size :=
      h.bounded.clearVisited.unvisited_le
    show rest.length * (3 * table.size + 1) + 2 * t.frontier.clearVisited.unvisited +
      t.frontier.deferred.reverse.length < _
    rw [cost, hrest, hwork, List.length_cons, List.length_reverse,
      Nat.add_one_mul rest.length]
    omega

theorem Bounded.steps (h : Bounded table line start [] t) {n : Nat}
    (hsteps : t.Steps table n events t') :
    Bounded table line start events t' ∧ n + t'.cost table ≤ t.cost table := by
  induction hsteps with
  | none => exact ⟨h, by rw [Nat.zero_add]⟩
  | @more n events now event? next _ hnext ih =>
    have hstep := stepped_step table now
    rw [hnext] at hstep
    have hlt := ih.1.cost_lt hstep
    exact ⟨ih.1.step hstep, by omega⟩

theorem cost_start_le {f : Frontier} (h : f.Over table.size) (pos : Nat) (rest : List Char) :
    (Traversal.start f pos rest).cost table ≤
      rest.length * (3 * table.size + 1) + 2 * table.size + 1 := by
  have hunvisited : (f.reset (.state 0)).unvisited ≤ table.size := (h.reset _).unvisited_le
  show rest.length * (3 * table.size + 1) + 2 * (f.reset (.state 0)).unvisited + 1 ≤ _
  omega

section Run

variable {n : Nat} {σ : Type} (observe : σ → TraversalEvent → σ) (seen : σ)

theorem Steps.run_eq (h : t.Steps table n events t') :
    t.run table observe seen = t'.run table observe (events.foldl observe seen) := by
  induction h with
  | none => rfl
  | @more _ _ _ _ event? _ hnext ih =>
    rw [ih, run_of_more observe _ hnext, List.foldl_append]
    rcases event? with _ | event <;> rfl

theorem run_of_end {frontier : Frontier} {stop? : Option Nat}
    (h : (t.step table).2.end? = some (frontier, stop?)) :
    t.run table observe seen =
      ((t.step table).1.toList.foldl observe seen, frontier, stop?) := by
  rcases hstep : t.step table with ⟨event?, next | ⟨f, pos⟩ | f⟩
  · simp [hstep, TraversalStep.end?] at h
  · rw [run_of_accepted observe seen hstep]
    simp only [hstep, TraversalStep.end?, Option.some.injEq, Prod.mk.injEq] at h
    obtain ⟨rfl, rfl⟩ := h
    rcases event? with _ | event <;> rfl
  · rw [run_of_rejected observe seen hstep]
    simp only [hstep, TraversalStep.end?, Option.some.injEq, Prod.mk.injEq] at h
    obtain ⟨rfl, rfl⟩ := h
    rcases event? with _ | event <;> rfl

theorem exists_steps_end (table : Table) (t : Traversal) : ∃ n events last frontier stop?,
    t.Steps table n events last ∧ (last.step table).2.end? = some (frontier, stop?) := by
  fun_induction Traversal.run table (fun _ _ => ()) () t
  case case1 t t' hmore ih =>
    obtain ⟨n, events, last, frontier, stop?, hsteps, hend⟩ := ih
    exact ⟨_, _, last, frontier, stop?, hsteps.head (Prod.ext rfl hmore), hend⟩
  case case2 t _ f pos haccepted => exact ⟨0, [], t, f, some pos, .none, haccepted ▸ rfl⟩
  case case3 t _ f hrejected => exact ⟨0, [], t, f, none, .none, hrejected ▸ rfl⟩

end Run

end Traversal

namespace Matcher

/-- Every traversal ends, and until it does it explores only states of the table, each at most once
at a position, moves on only when nothing is left to explore, puts off no more places than there are
states that read a character, and does not leave the line. -/
theorem traverse_within_bounds {t : Table} {m : Matcher} (h : m.Built t) (line : List Char)
    (start : Nat) :
    let first := Traversal.start m.frontier start (line.drop start)
    (∃ n events last frontier stop?, first.Steps t n events last ∧
      (last.step t).2.end? = some (frontier, stop?) ∧
      ∀ {σ : Type} (observe : σ → TraversalEvent → σ) (seen : σ),
        m.traverseWith observe seen line start =
          ((.start start :: events ++ (last.step t).1.toList).foldl observe seen,
            { m with frontier }, stop?)) ∧
    ∀ n events now, first.Steps t n events now →
      n ≤ (line.length - start) * (3 * t.size + 1) + 2 * t.size + 1 ∧
      (∀ id, .state id ∈ now.frontier.work ++ now.frontier.deferred →
        (∃ s, t.get? id = some s) ∧ id < now.frontier.marks.size) ∧
      (visits events).Nodup ∧
      (∀ pos carried, (now.step t).1 = some (.advance pos carried) ∨
        (now.step t).1 = some (.reject pos) → now.frontier.work = []) ∧
      now.frontier.deferred.length ≤ t.consumingCount ∧
      now.pos ≤ max start line.length ∧
      (line.length ≤ now.pos → now.frontier.deferred = []) := by
  intro first
  obtain ⟨hready, rfl⟩ := h.ready
  have hfirst := Traversal.bounded_start hready line start
  refine ⟨?_, fun n events now hsteps => ?_⟩
  · obtain ⟨n, events, last, frontier, stop?, hsteps, hend⟩ :=
      Traversal.exists_steps_end m.table first
    refine ⟨n, events, last, frontier, stop?, hsteps, hend, fun observe seen => ?_⟩
    have hrun := (hsteps.run_eq observe (observe seen (.start start))).trans
      (Traversal.run_of_end observe _ hend)
    rw [traverseWith, traverseAt, hrun, ← List.foldl_append]
    rfl
  · obtain ⟨hbounded, hcost⟩ := hfirst.steps hsteps
    have hlimit := Traversal.cost_start_le hready start (line.drop start)
    rw [List.length_drop] at hlimit
    refine ⟨by omega, fun id hid => ?_, hbounded.nodup,
      fun _ _ => Traversal.work_eq_nil_of_step, hbounded.deferred_le, hbounded.pos_le,
      fun hpos => ?_⟩
    · have hlt : id < m.table.size := hbounded.within _ hid
      exact ⟨⟨_, Array.getElem?_eq_getElem hlt⟩, hbounded.bounded.size_marks.symm ▸ hlt⟩
    · exact hbounded.ended (hbounded.rest_eq ▸ List.drop_eq_nil_of_le hpos)

/-- Branches that lead back to themselves and to each other, in a matcher that has been used. -/
theorem traverse_within_bounds_loop :
    let t : Table := ⟨#[.branch (.state 1) (.state 2), .branch (.state 0) (.state 1),
      .consuming .wildcard (.state 0)], by decide, by decide, by decide⟩
    let m := ((new t).find ['a']).1
    m.Built t ∧ ∃ n events last frontier stop?,
      (Traversal.start m.frontier 1 ['b', 'c']).Steps t n events last ∧
        (last.step t).2.end? = some (frontier, stop?) ∧ n ≤ 27 ∧ (visits events).Nodup ∧
          last.frontier.deferred.length ≤ 1 ∧ last.pos ≤ 3 := by
  intro t m
  have hbuilt : m.Built t := .find .new _ () ['a']
  obtain ⟨⟨n, events, last, frontier, stop?, hsteps, hend, -⟩, hbounds⟩ :=
    traverse_within_bounds hbuilt ['a', 'b', 'c'] 1
  obtain ⟨hn, -, hnodup, -, hdeferred, hpos, -⟩ := hbounds n events last hsteps
  exact ⟨hbuilt, n, events, last, frontier, stop?, hsteps, hend, hn, hnodup, hdeferred, hpos⟩

end Matcher

end PatternScan
