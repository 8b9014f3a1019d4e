import PatternScan.Proofs.Bounds
import PatternScan.Simulate.Account

/-!
# A traversal tells what it explores

Step by step the events of a traversal say which states have been visited at which position, which
of them have read the character there, and how many were put off (`Traversal.Recounted`, which every
step keeps). With what is known of an exploration it follows that they are an account of the subset
construction (`Traversal.Recounted.recounts`). A search tells one traversal after the other, from
the first offset to the one where it finds a match.
-/

namespace PatternScan

section Counts

variable (events : List TraversalEvent) (event : TraversalEvent) {pos id : Nat}

theorem visits_concat : visits (events ++ [event]) = visits events ++ event.visit?.toList := by
  rcases h : event.visit? with _ | v <;> simp [visits, h]

theorem consumeCount_concat (pos : Nat) : consumeCount (events ++ [event]) pos =
    consumeCount events pos + if event.isConsumeAt pos then 1 else 0 := by
  simp [consumeCount, List.countP_append, List.countP_singleton]

theorem advances_concat :
    advances (events ++ [event]) = advances events ++ event.advance?.toList := by
  rcases h : event.advance? with _ | v <;> simp [advances, h]

variable {events event}

theorem mem_visitsAt_iff : id ∈ visitsAt events pos ↔ (pos, id) ∈ visits events := by
  simp only [visitsAt, List.mem_filterMap, Option.ite_none_right_eq_some, Option.some.injEq,
    Prod.exists]
  constructor
  · rintro ⟨p, i, hmem, rfl, rfl⟩
    exact hmem
  · exact fun hmem => ⟨pos, id, hmem, rfl, rfl⟩

theorem mem_visits_iff : (pos, id) ∈ visits events ↔
    ∃ e ∈ events, e.visit? = some (pos, id) :=
  List.mem_filterMap

theorem nodup_visitsAt (h : (visits events).Nodup) (pos : Nat) : (visitsAt events pos).Nodup := by
  refine h.filterMap ?_
  rintro ⟨p, i⟩ ⟨p', i'⟩ id hid hid'
  simp only [Option.mem_def, Option.ite_none_right_eq_some, Option.some.injEq] at hid hid'
  obtain ⟨rfl, rfl⟩ := hid
  obtain ⟨rfl, rfl⟩ := hid'
  rfl

theorem TraversalEvent.isConsumeAt_of_visit? {p : Nat} (h : event.visit? = some (p, id))
    (hne : pos ≠ p) : event.isConsumeAt pos = false := by
  cases event <;> simp_all [TraversalEvent.visit?, TraversalEvent.isConsumeAt, eq_comm]

theorem consumeCount_eq_zero (h : ∀ v ∈ visits events, v.1 < pos) :
    consumeCount events pos = 0 := by
  refine List.countP_eq_zero.mpr fun e he hconsume => ?_
  rcases e with _ | _ | ⟨p, id, s, c⟩ | _ | _ | _ | _
  all_goals
    simp only [TraversalEvent.isConsumeAt, decide_eq_true_eq, Bool.false_eq_true] at hconsume
  have hlt := h (p, id) (mem_visits_iff.mpr ⟨_, he, rfl⟩)
  simp only at hlt
  omega

end Counts

theorem between_succ {chars : List Char} {start pos : Nat} {c : Char} (h : start ≤ pos)
    (hc : chars[pos]? = some c) :
    between chars start (pos + 1) = between chars start pos ++ [c] := by
  have hdrop : (chars.drop start)[pos - start]? = some c := by
    rw [List.getElem?_drop, Nat.add_sub_cancel' h, hc]
  rw [between, between, Nat.succ_sub h, List.take_add_one, hdrop, Option.toList_some]

/-- An event between the start and the end of a traversal, with a state as the table has it and a
character as the line has it. -/
def TraversalEvent.Apt (t : Table) (chars : List Char) : TraversalEvent → Prop
  | .branch _ id s => t.get? id = some s ∧ s.kind = .branch
  | .consume pos id s c => t.get? id = some s ∧ chars[pos]? = some c ∧ s.kind.accepts c = true
  | .drop pos id s c? => t.get? id = some s ∧ s.kind.consumes = true ∧ chars[pos]? = c? ∧
      ∀ c ∈ c?, s.kind.accepts c = false
  | .advance _ _ => True
  | .start _ | .accept _ | .reject _ => False

namespace Traversal

variable {table : Table} {chars : List Char} {start : Nat} {events : List TraversalEvent}
  {t t' : Traversal}

/-- The events so far of a traversal of a line from a start say what it has explored. -/
structure Recounted (table : Table) (chars : List Char) (start : Nat)
    (events : List TraversalEvent) (t : Traversal) : Prop where
  explores : Explores table (between chars start t.pos) t
  bounded : Bounded table chars start events t
  start_le : start ≤ t.pos
  start_le_visits : ∀ v ∈ visits events, start ≤ v.1
  noted : ∀ id, t.frontier.Visited id → (t.pos, id) ∈ visits events
  deferred : t.frontier.deferred.length = consumeCount events t.pos
  apt : ∀ e ∈ events, e.Apt table chars
  consumes : ∀ pos, start ≤ pos → pos < t.pos → 1 ≤ consumeCount events pos
  past : ∀ pos, start ≤ pos → pos < t.pos → ∀ id,
    (pos, id) ∈ visits events ↔ table.Path (.state 0) (between chars start pos) (.state id)
  advances_eq : advances events =
    (List.range' start (t.pos - start)).map fun pos => (pos + 1, consumeCount events pos)

theorem recounted_start {f : Frontier} (h : f.Over table.size) (chars : List Char) (start : Nat) :
    Recounted table chars start [] (.start f start (chars.drop start)) := by
  have hread : between chars start start = [] := by simp [between]
  exact {
    explores := by
      rw [show (Traversal.start f start (chars.drop start)).pos = start from rfl, hread]
      exact explores_start h start (chars.drop start)
    bounded := bounded_start h chars start
    start_le := Nat.le_refl start
    start_le_visits := by simp [visits]
    noted := fun id hid => absurd hid (h.not_visited_clearVisited id)
    deferred := rfl
    apt := by simp
    consumes := fun pos hle hlt => absurd hlt (Nat.not_lt.mpr hle)
    past := fun pos hle hlt => absurd hlt (Nat.not_lt.mpr hle)
    advances_eq := by simp [Traversal.start, advances] }

theorem Recounted.head?_rest (h : Recounted table chars start events t) :
    t.rest.head? = chars[t.pos]? := by
  rw [h.bounded.rest_eq, List.head?_drop]

/-- With nothing left to explore, the states visited at the present position are those that the
characters read so far lead to. -/
theorem Recounted.present (h : Recounted table chars start events t)
    (hwork : t.frontier.work = []) (id : Nat) : (t.pos, id) ∈ visits events ↔
      table.Path (.state 0) (between chars start t.pos) (.state id) := by
  rw [← h.explores.visited_iff hwork]
  refine ⟨fun hmem => ?_, h.noted id⟩
  rcases h.bounded.visited _ hmem with hlt | ⟨-, hvisited⟩
  · exact absurd hlt (Nat.lt_irrefl _)
  · exact hvisited

/-- A step that visits a state at the present position and tells so. -/
theorem Recounted.visit (h : Recounted table chars start events t) {id : Nat} {f : Frontier}
    {event : TraversalEvent} (hvisit : event.visit? = some (t.pos, id))
    (hstep : Stepped table t (some event) (.more { t with frontier := f }))
    (hvisited : ∀ i, f.Visited i ↔ i = id ∨ t.frontier.Visited i)
    (hdeferred : f.deferred.length =
      t.frontier.deferred.length + if event.isConsumeAt t.pos then 1 else 0)
    (hapt : event.Apt table chars) :
    Recounted table chars start (events ++ [event]) { t with frontier := f } := by
  have hexplores : Explores table (between chars start t.pos) { t with frontier := f } := by
    rcases h.explores.step hstep with ⟨hexplores, -, -⟩ | ⟨_, -, hpos, -⟩
    · exact hexplores
    · exact absurd hpos (Nat.ne_of_lt (Nat.lt_succ_self _))
  have hadvance : event.advance? = none := by
    cases event <;> first | rfl | cases hvisit
  -- What was told of earlier positions is told still.
  have hcount : ∀ pos, pos < t.pos →
      consumeCount (events ++ [event]) pos = consumeCount events pos := by
    intro pos hlt
    rw [consumeCount_concat, TraversalEvent.isConsumeAt_of_visit? hvisit (Nat.ne_of_lt hlt)]
    rfl
  have hvisits : visits (events ++ [event]) = visits events ++ [(t.pos, id)] := by
    rw [visits_concat, hvisit, Option.toList_some]
  refine {
    explores := hexplores
    bounded := h.bounded.step hstep
    start_le := h.start_le
    start_le_visits := ?_
    noted := fun i hi => ?_
    deferred := ?_
    apt := ?_
    consumes := fun pos hle hlt => (hcount pos hlt).symm ▸ h.consumes pos hle hlt
    past := fun pos hle hlt i => ?_
    advances_eq := ?_ }
  · intro v hv
    rw [hvisits, List.mem_append, List.mem_singleton] at hv
    rcases hv with hv | rfl
    · exact h.start_le_visits v hv
    · exact h.start_le
  · rw [hvisits, List.mem_append, List.mem_singleton]
    rcases (hvisited i).mp hi with rfl | hi
    · exact .inr rfl
    · exact .inl (h.noted i hi)
  · rw [consumeCount_concat, ← h.deferred]
    exact hdeferred
  · intro e he
    rcases List.mem_append.mp he with he | he
    · exact h.apt e he
    · exact List.mem_singleton.mp he ▸ hapt
  · rw [← h.past pos hle hlt i, hvisits, List.mem_append, List.mem_singleton]
    refine or_iff_left fun heq => ?_
    rw [(Prod.mk.inj heq).1] at hlt
    exact Nat.lt_irrefl _ hlt
  · rw [advances_concat, hadvance, Option.toList_none, List.append_nil, h.advances_eq]
    refine List.map_congr_left fun pos hpos => ?_
    have := List.mem_range'_1.mp hpos
    have hle := h.start_le
    rw [hcount pos (by omega)]

theorem Recounted.advance (h : Recounted table chars start events t) {c : Char} {rest : List Char}
    (hwork : t.frontier.work = []) (hrest : t.rest = c :: rest)
    (hdeferred : t.frontier.deferred ≠ []) :
    Recounted table chars start
      (events ++ [.advance (t.pos + 1) t.frontier.deferred.length])
      ⟨{ t.frontier.clearVisited with work := t.frontier.deferred.reverse, deferred := [] },
        t.pos + 1, rest⟩ := by
  have hc : chars[t.pos]? = some c := by rw [← h.head?_rest, hrest, List.head?_cons]
  have hcount : ∀ pos, consumeCount
      (events ++ [.advance (t.pos + 1) t.frontier.deferred.length]) pos =
        consumeCount events pos := fun pos => consumeCount_concat events _ pos
  have hvisits : visits (events ++ [.advance (t.pos + 1) t.frontier.deferred.length]) =
      visits events := by
    rw [visits_concat]
    exact List.append_nil _
  refine {
    explores := ?_
    bounded := h.bounded.advance hwork hrest _
    start_le := Nat.le_succ_of_le h.start_le
    start_le_visits := hvisits.symm ▸ h.start_le_visits
    noted := fun id hid => absurd hid (h.bounded.bounded.not_visited_clearVisited id)
    deferred := ?_
    apt := ?_
    consumes := fun pos hle hlt => ?_
    past := fun pos hle hlt id => ?_
    advances_eq := ?_ }
  · rw [between_succ h.start_le hc]
    exact h.explores.advance hwork hrest
  · refine ((hcount _).trans (consumeCount_eq_zero fun v hv => ?_)).symm
    rcases h.bounded.visited v hv with hlt | ⟨heq, -⟩
    · exact Nat.lt_succ_of_lt hlt
    · exact Nat.lt_succ_of_le (Nat.le_of_eq heq)
  · intro e he
    rcases List.mem_append.mp he with he | he
    · exact h.apt e he
    · rw [List.mem_singleton.mp he]
      trivial
  · rw [hcount]
    rcases Nat.lt_succ_iff_lt_or_eq.mp hlt with hlt | rfl
    · exact h.consumes pos hle hlt
    · rw [← h.deferred]
      exact List.length_pos_iff.mpr hdeferred
  · rw [hvisits]
    rcases Nat.lt_succ_iff_lt_or_eq.mp hlt with hlt | rfl
    · exact h.past pos hle hlt id
    · -- The position that is left has nothing more to explore.
      exact h.present hwork id
  · rw [advances_concat, h.advances_eq, Nat.succ_sub h.start_le, List.range'_1_concat,
      List.map_append, List.map_singleton, Nat.add_sub_cancel' h.start_le, hcount, ← h.deferred]
    simp only [hcount]
    rfl

theorem Recounted.step (h : Recounted table chars start events t)
    {event? : Option TraversalEvent} (hstep : Stepped table t event? (.more t')) :
    Recounted table chars start (events ++ event?.toList) t' := by
  have hhead := h.head?_rest
  have hover := h.bounded.bounded
  cases hstep with
  | @skip id work hwork hskip =>
    rw [Option.toList_none, List.append_nil]
    have hbounded := h.bounded.step (.skip hwork hskip)
    rw [Option.toList_none, List.append_nil] at hbounded
    exact { h with
      explores := h.explores.skip hwork hskip
      bounded := hbounded }
  | @branch id s work hwork hs hfirst hb =>
    have hid := ((Frontier.isUnvisited_eq_true_iff hover).mp hfirst).1
    exact h.visit rfl (.branch hwork hs hfirst hb)
      (fun i => Frontier.visited_visit_iff hover hid) rfl ⟨hs, hb⟩
  | @consume id s c work hwork hs hfirst hread haccepts =>
    have hid := ((Frontier.isUnvisited_eq_true_iff hover).mp hfirst).1
    refine h.visit rfl (.consume hwork hs hfirst hread haccepts)
      (fun i => Frontier.visited_visit_iff hover hid) ?_ ⟨hs, hhead ▸ hread, haccepts⟩
    simp [TraversalEvent.isConsumeAt]
  | @drop id s work hwork hs hfirst hconsumes hdrop =>
    have hid := ((Frontier.isUnvisited_eq_true_iff hover).mp hfirst).1
    exact h.visit rfl (.drop hwork hs hfirst hconsumes hdrop)
      (fun i => Frontier.visited_visit_iff hover hid) rfl ⟨hs, hconsumes, hhead.symm, hdrop⟩
  | advance hwork hrest hdeferred => exact h.advance hwork hrest hdeferred

theorem Recounted.steps (h : Recounted table chars start [] t) {n : Nat}
    (hsteps : t.Steps table n events t') : Recounted table chars start events t' := by
  induction hsteps with
  | none => exact h
  | @more _ _ now _ _ _ hnext ih =>
    have hstep := stepped_step table now
    rw [hnext] at hstep
    exact ih.step hstep

end Traversal

section Framed

variable {events : List TraversalEvent} {last : TraversalEvent} (start : Nat)

theorem mem_framed_iff {e : TraversalEvent} (h : e.visit? ≠ none) (hlast : last.isEnd = true) :
    e ∈ .start start :: events ++ [last] ↔ e ∈ events := by
  have hstart : e ≠ .start start := by
    rintro rfl
    exact h rfl
  have hend : e ≠ last := by
    rintro rfl
    cases e <;> first | exact h rfl | exact nomatch hlast
  simp [hstart, hend]

theorem visits_framed (hlast : last.isEnd = true) :
    visits (.start start :: events ++ [last]) = visits events := by
  have hnone : last.visit? = none := by
    cases last <;> first | rfl | cases hlast
  rw [visits_concat, hnone]
  exact List.append_nil _

theorem advances_framed (hlast : last.isEnd = true) :
    advances (.start start :: events ++ [last]) = advances events := by
  have hnone : last.advance? = none := by
    cases last <;> first | rfl | cases hlast
  rw [advances_concat, hnone]
  exact List.append_nil _

theorem consumeCount_framed (hlast : last.isEnd = true) (pos : Nat) :
    consumeCount (.start start :: events ++ [last]) pos = consumeCount events pos := by
  have hnone : last.isConsumeAt pos = false := by
    cases last <;> first | rfl | cases hlast
  rw [consumeCount_concat, hnone, consumeCount, List.countP_cons]
  rfl

end Framed

/-- The table and the line determine what is told of a visit. -/
theorem TraversalEvent.Apt.eq {t : Table} {chars : List Char} {e e' : TraversalEvent}
    {pos id : Nat} (h : e.Apt t chars) (h' : e'.Apt t chars) (hvisit : e.visit? = some (pos, id))
    (hvisit' : e'.visit? = some (pos, id)) : e = e' := by
  cases e <;> cases hvisit <;> cases e' <;> cases hvisit' <;>
    simp_all [TraversalEvent.Apt, StateKind.accepts, StateKind.consumes]

namespace Traversal

variable {table : Table} {chars : List Char} {start : Nat} {events : List TraversalEvent}
  {t : Traversal}

theorem Recounted.mem_iff (h : Recounted table chars start events t) {e : TraversalEvent}
    {pos id : Nat} (hvisit : e.visit? = some (pos, id)) :
    e ∈ events ↔ (pos, id) ∈ visits events ∧ e.Apt table chars := by
  constructor
  · exact fun he => ⟨mem_visits_iff.mpr ⟨e, he, hvisit⟩, h.apt e he⟩
  · rintro ⟨hmem, hapt⟩
    obtain ⟨e', he', hvisit'⟩ := mem_visits_iff.mp hmem
    exact hapt.eq (h.apt e' he') hvisit hvisit' ▸ he'

/-- What has been told when a traversal ends, by acceptance or with nothing left to explore. -/
theorem Recounted.recounts (h : Recounted table chars start events t) {stop? : Option Nat}
    (hend : stop? = some t.pos ∨ stop? = none ∧ t.frontier.work = []) :
    table.Recounts chars start t.pos stop? (.start start :: events ++ [.ending t.pos stop?]) := by
  have hlast : (TraversalEvent.ending t.pos stop?).isEnd = true := by cases stop? <;> rfl
  have hvisitsAt : ∀ {pos id}, id ∈ visitsAt (.start start :: events ++ [.ending t.pos stop?]) pos ↔
      (pos, id) ∈ visits events := by
    intro pos id
    rw [mem_visitsAt_iff, visits_framed start hlast]
  have hmem : ∀ {e : TraversalEvent} {pos id : Nat}, e.visit? = some (pos, id) →
      (e ∈ .start start :: events ++ [.ending t.pos stop?] ↔
        id ∈ visitsAt (.start start :: events ++ [.ending t.pos stop?]) pos ∧
          e.Apt table chars) := by
    intro e pos id hvisit
    rw [mem_framed_iff start (by simp [hvisit]) hlast, hvisitsAt, h.mem_iff hvisit]
  refine {
    framed := ⟨events, rfl, fun e he => ?_⟩
    stop_eq := ?_
    start_le := h.start_le
    last_le := h.bounded.pos_le
    visited := fun pos hle hlt hstop id => ?_
    once := fun pos => nodup_visitsAt ?_ pos
    within := fun pos id hid => ?_
    branch_iff := fun pos id s => hmem rfl
    consume_iff := fun pos id s c => hmem rfl
    drop_iff := fun pos id s c? => hmem rfl
    advances_eq := ?_
    consumes := fun pos hle hlt => ?_ }
  · have := h.apt e he
    cases e <;> first | exact ⟨rfl, rfl⟩ | exact this.elim
  · rintro stop hstop
    rcases hend with rfl | ⟨rfl, -⟩
    · exact (Option.some.inj hstop).symm
    · exact nomatch hstop
  · rw [hvisitsAt]
    rcases Nat.lt_or_eq_of_le hlt with hlt | rfl
    · exact h.past pos hle hlt id
    · exact h.present (hend.resolve_left hstop).2 id
  · rw [visits_framed start hlast]
    exact h.bounded.nodup
  · have hid := hvisitsAt.mp hid
    refine ⟨h.start_le_visits _ hid, ?_⟩
    rcases h.bounded.visited _ hid with hlt | ⟨heq, -⟩
    · exact Nat.le_of_lt hlt
    · exact Nat.le_of_eq heq
  · rw [advances_framed start hlast, h.advances_eq]
    simp only [consumeCount_framed start hlast]
  · rw [consumeCount_framed start hlast]
    exact h.consumes pos hle hlt

end Traversal

namespace Matcher

variable {m n : Matcher}

theorem foldl_record (events seen : List TraversalEvent) :
    events.foldl record seen = events.reverse ++ seen := by
  induction events generalizing seen with
  | nil => rfl
  | cons e events ih => rw [List.foldl_cons, ih, List.reverse_cons, List.append_assoc]; rfl

/-- A traversal tells every observer the same, and that is an account of what it explores. -/
theorem Ready.exists_recounts (h : m.Ready) (chars : List Char) (start : Nat) :
    ∃ events last frontier stop?, m.table.Recounts chars start last stop? events ∧
      ∀ {σ : Type} (observe : σ → TraversalEvent → σ) (seen : σ),
        m.traverseWith observe seen chars start =
          (events.foldl observe seen, { m with frontier }, stop?) := by
  obtain ⟨_, events, last, frontier, stop?, hsteps, hend⟩ :=
    Traversal.exists_steps_end m.table (.start m.frontier start (chars.drop start))
  have hrec := (Traversal.recounted_start h chars start).steps hsteps
  have hrun : ∀ {σ : Type} (observe : σ → TraversalEvent → σ) (seen : σ),
      m.traverseWith observe seen chars start =
        ((.start start :: events ++ (last.step m.table).1.toList).foldl observe seen,
          { m with frontier }, stop?) := by
    intro σ observe seen
    rw [traverseWith, Matcher.traverseAt, hsteps.run_eq, Traversal.run_of_end observe _ hend,
      ← List.foldl_append]
    rfl
  have hstep := Traversal.stepped_step m.table last
  rcases hlast : last.step m.table with ⟨event?, next⟩
  rw [hlast] at hstep hend hrun
  -- Only acceptance and rejection end a traversal.
  cases hstep with
  | accept =>
    obtain ⟨-, rfl⟩ := Prod.mk.inj (Option.some.inj hend)
    exact ⟨_, last.pos, frontier, _, hrec.recounts (.inl rfl), hrun⟩
  | reject hwork =>
    obtain ⟨-, rfl⟩ := Prod.mk.inj (Option.some.inj hend)
    exact ⟨_, last.pos, frontier, _, hrec.recounts (.inr ⟨rfl, hwork⟩), hrun⟩
  | _ => cases hend

theorem Ready.traverse_recounts (h : m.Ready) (chars : List Char) (start : Nat) :
    (m.traverseTraced chars start).2.2 = (m.traverse chars start).2 ∧
      ∃ last, m.table.Recounts chars start last (m.traverse chars start).2
        (m.traverseTraced chars start).1 := by
  obtain ⟨events, last, frontier, stop?, hrecounts, hrun⟩ := h.exists_recounts chars start
  have htraced : m.traverseTraced chars start = (events, { m with frontier }, stop?) := by
    simp [traverseTraced, hrun, foldl_record]
  have hstop : (m.traverse chars start).2 = stop? := by rw [traverse, hrun]
  rw [htraced, hstop]
  exact ⟨rfl, last, hrecounts⟩

/-- What a matcher tells every observer of a traversal is what any other one notes. -/
theorem Ready.exists_traverseAt_eq (hm : m.Ready) (hn : n.Ready) (htable : n.table = m.table)
    (chars : List Char) (start : Nat) : ∃ frontier,
      ∀ {σ : Type} (observe : σ → TraversalEvent → σ) (seen : σ),
        n.traverseAt observe seen start (chars.drop start) =
          ((m.traverseTraced chars start).1.foldl observe seen, { n with frontier },
            (m.traverse chars start).2) := by
  obtain ⟨events, _, frontier, stop?, -, hrun⟩ := hn.exists_recounts chars start
  obtain ⟨hseen, hstop⟩ := hm.traverseAt_eq record hn htable.symm [] start (chars.drop start)
  rw [show n.traverseAt record [] start (chars.drop start) = _ from hrun record []] at hseen hstop
  have hevents : (m.traverseTraced chars start).1 = events := by
    rw [show (m.traverseTraced chars start).1 = _ from congrArg List.reverse hseen, foldl_record]
    simp
  have hresult : (m.traverse chars start).2 = stop? :=
    (hm.traverse_recounts chars start).1.symm.trans hstop
  rw [hevents, hresult]
  exact ⟨frontier, hrun⟩

theorem Tries.cons {chars : List Char} {first count : Nat} {found? : Option Match}
    {events : List TraversalEvent} (h : m.Tries chars (first + 1) count found? events)
    (hnone : (m.traverse chars first).2 = none) :
    m.Tries chars first (count + 1) found? ((m.traverseTraced chars first).1 ++ events) where
  events_eq := by rw [h.events_eq, List.range'_succ, List.flatMap_cons]
  found found hfound := by
    obtain ⟨hstart, hstop⟩ := h.found found hfound
    exact ⟨by omega, hstop⟩
  failed start hle hlt hne := by
    rcases Nat.eq_or_lt_of_le hle with rfl | hlt'
    · exact hnone
    · exact h.failed start hlt' (by omega) hne

theorem tries_one {chars : List Char} {first : Nat} {stop? : Option Nat}
    (hstop : (m.traverse chars first).2 = stop?) :
    m.Tries chars first 1 (stop?.map (⟨first, ·⟩)) (m.traverseTraced chars first).1 where
  events_eq := by simp
  found found hfound := by
    obtain ⟨stop, rfl, rfl⟩ := Option.map_eq_some_iff.mp hfound
    exact ⟨rfl, hstop⟩
  failed start hle hlt hne := by
    obtain rfl : start = first := by omega
    rcases stop? with _ | stop
    · exact hstop
    · exact absurd rfl (hne _ rfl)

theorem Ready.exists_tries_findAt (hm : m.Ready) (chars : List Char) :
    ∀ (rest : List Char) {n : Matcher} (pos : Nat), n.Ready → n.table = m.table →
      chars.drop pos = rest → ∃ count found? events, m.Tries chars pos count found? events ∧
        (found? = none → count = rest.length) ∧
        ∀ {σ : Type} (observe : σ → TraversalEvent → σ) (seen : σ),
          (n.findAt observe seen pos rest).1 = events.foldl observe seen ∧
            (n.findAt observe seen pos rest).2.2 = found?
  | [], n, pos, _, _, _ => by
    refine ⟨0, none, [], ⟨rfl, by simp, fun _ _ _ _ => by omega⟩, fun _ => rfl, ?_⟩
    exact fun observe seen => ⟨rfl, rfl⟩
  | c :: rest, n, pos, hn, htable, hrest => by
    obtain ⟨frontier, hrun⟩ := hm.exists_traverseAt_eq hn htable chars pos
    rw [hrest] at hrun
    rcases hstop : (m.traverse chars pos).2 with _ | stop
    · rw [hstop] at hrun
      have hready : Ready { n with frontier } := by
        have := (hn.traverseAt (fun _ _ => ()) () pos (c :: rest)).1
        rwa [hrun] at this
      obtain ⟨count, found?, events, htries, hcount, hfind⟩ :=
        Ready.exists_tries_findAt hm chars rest (pos + 1) hready htable
          (by rw [← List.drop_drop, hrest, List.drop_one, List.tail_cons])
      refine ⟨count + 1, found?, _, htries.cons hstop, fun h => congrArg (· + 1) (hcount h),
        fun observe seen => ?_⟩
      rw [Matcher.findAt, hrun, List.foldl_append]
      exact hfind observe _
    · rw [hstop] at hrun
      refine ⟨1, some ⟨pos, stop⟩, _, tries_one hstop, by simp, fun observe seen => ?_⟩
      rw [Matcher.findAt, hrun]
      exact ⟨rfl, rfl⟩

theorem Ready.exists_tries_findWith (h : m.Ready) (chars : List Char) :
    ∃ count found? events, m.Tries chars 0 count found? events ∧
      (found? = none → count = max 1 chars.length) ∧
      ∀ {σ : Type} (observe : σ → TraversalEvent → σ) (seen : σ),
        (m.findWith observe seen chars).1 = events.foldl observe seen ∧
          (m.findWith observe seen chars).2.2 = found? := by
  rcases chars with _ | ⟨c, rest⟩
  · obtain ⟨frontier, hrun⟩ := h.exists_traverseAt_eq h rfl [] 0
    refine ⟨1, _, _, tries_one rfl, fun _ => rfl, fun observe seen => ?_⟩
    have hrun : m.traverseAt observe seen 0 [] = _ := hrun observe seen
    rw [Matcher.findWith, hrun]
    exact ⟨rfl, rfl⟩
  · obtain ⟨count, found?, events, htries, hcount, hfind⟩ :=
      h.exists_tries_findAt (c :: rest) (c :: rest) 0 h rfl rfl
    refine ⟨count, found?, events, htries, fun hnone => ?_, hfind⟩
    rw [hcount hnone, List.length_cons]
    omega

theorem Ready.tries_findTraced (h : m.Ready) (chars : List Char) :
    (m.findTraced chars).2.2 = (m.find chars).2 ∧
      m.Tries chars 0 ((m.find chars).2.elim (max 1 chars.length) (·.start + 1))
        (m.find chars).2 (m.findTraced chars).1 := by
  obtain ⟨count, found?, events, htries, hcount, hfind⟩ := h.exists_tries_findWith chars
  have htold : (m.findTraced chars).1 = events := by
    rw [show (m.findTraced chars).1 = _ from congrArg List.reverse (hfind record []).1,
      foldl_record]
    simp
  have hfound : (m.find chars).2 = found? := (hfind (fun _ _ => ()) ()).2
  rw [htold, hfound]
  refine ⟨(hfind record []).2, ?_⟩
  rcases found? with _ | found
  · exact hcount rfl ▸ htries
  · rw [Option.elim_some, (htries.found found rfl).1, Nat.zero_add]
    exact htries

end Matcher

section Lines

variable (verbose colored : Bool) {events : List TraversalEvent}

theorem flatMap_linesAfter_filter (events : List TraversalEvent) :
    (events.filter fun e => verbose || !e.isDetail).flatMap (TraversalEvent.linesAfter colored) =
      ((events.flatMap fun e => (e.linesAfter colored).map (e, ·)).filter
        fun l => verbose || !l.1.isDetail).map (·.2) := by
  induction events with
  | nil => rfl
  | cons e events ih =>
    have hlines : (((e.linesAfter colored).map (e, ·)).filter
        fun l => verbose || !l.1.isDetail).map (·.2) =
          if (verbose || !e.isDetail) = true then e.linesAfter colored else [] := by
      split <;> simp_all [List.filter_map, Function.comp_def]
    rw [List.flatMap_cons, List.filter_append, List.map_append, hlines, ← ih, List.filter_cons]
    split <;> simp

/-- What is shown without detail is what is shown with it, but for the lines of the detail. -/
theorem traceLines_eq (h : ∀ e ∈ events.head?, e.isDetail = false) :
    traceLines verbose colored events =
      ((eventLines colored events).filter fun l => verbose || !l.1.isDetail).map (·.2) := by
  rcases events with _ | ⟨e, events⟩
  · rfl
  · have he : (verbose || !e.isDetail) = true := by simp [h e rfl]
    simp only [traceLines, eventLines, List.filter_cons, he, if_true, List.map_cons,
      flatMap_linesAfter_filter]

end Lines

namespace Matcher

theorem Tries.head? {m : Matcher} {chars : List Char} {first count : Nat}
    {found? : Option Match} {events : List TraversalEvent}
    (h : m.Tries chars first count found? events)
    (hsection : ∀ start, (m.traverseTraced chars start).1.head? = some (.start start)) :
    ∀ e ∈ events.head?, e.isDetail = false := by
  rcases count with _ | count
  · obtain rfl : events = [] := h.events_eq
    exact fun e he => nomatch he
  · intro e he
    rw [h.events_eq, List.range'_succ, List.flatMap_cons, List.head?_append,
      hsection first] at he
    obtain rfl := Option.some.inj he
    rfl

/-- What a matcher tells, whatever it has matched before: of a traversal, the states that the
characters read so far lead to, position after position; of a search, one such section for each
offset up to that of the match or the last; and as lines without detail, the lines with it but those
of branches and of states that do not read the character. -/
theorem trace_recounts {t : Table} {m : Matcher} (h : m.Built t) (chars : List Char) :
    let found? := (m.find chars).2
    (∀ start, (m.traverseTraced chars start).2.2 = (m.traverse chars start).2 ∧
      ∃ last, t.Recounts chars start last (m.traverse chars start).2
        (m.traverseTraced chars start).1) ∧
    (m.findTraced chars).2.2 = found? ∧
    m.Tries chars 0 (found?.elim (max 1 chars.length) (·.start + 1)) found?
      (m.findTraced chars).1 ∧
    ∀ colored events, events = (m.findTraced chars).1 ∨
        (∃ start, events = (m.traverseTraced chars start).1) →
      traceLines true colored events = (eventLines colored events).map (·.2) ∧
        traceLines false colored events = ((eventLines colored events).filter fun
          | (.branch .., _) | (.drop .., _) => false
          | _ => true).map (·.2) := by
  obtain ⟨hready, rfl⟩ := h.ready
  obtain ⟨hfind, htries⟩ := hready.tries_findTraced chars
  have hsection : ∀ start, (m.traverseTraced chars start).1.head? = some (.start start) := by
    intro start
    obtain ⟨-, last, hrecounts⟩ := hready.traverse_recounts chars start
    obtain ⟨body, heq, -⟩ := hrecounts.framed
    rw [heq]
    rfl
  refine ⟨hready.traverse_recounts chars, hfind, htries, fun colored events hevents => ?_⟩
  have hhead : ∀ e ∈ events.head?, e.isDetail = false := by
    rcases hevents with rfl | ⟨start, rfl⟩
    · exact htries.head? hsection
    · intro e he
      rw [hsection] at he
      obtain rfl := Option.some.inj he
      rfl
  constructor
  · rw [traceLines_eq true colored hhead]
    simp
  · rw [traceLines_eq false colored hhead]
    refine congrArg (List.map _) (List.filter_congr fun (e, line) _ => ?_)
    cases e <;> rfl

/-- The match starts at the second offset; from the first one the loop that reads anything goes on
to the end of the line. -/
theorem trace_recounts_loop :
    let t : Table := ⟨#[.branch (.state 1) (.state 2), .consuming (.literal 'a') (.state 3),
      .consuming .wildcard (.state 2), .branch .final (.state 0)], by decide, by decide, by decide⟩
    let m := ((new t).find ['a', 'b']).1
    m.Built t ∧ (m.find ['b', 'a']).2 = some ⟨1, 2⟩ ∧
      (∃ last, t.Recounts ['b', 'a'] 0 last none (m.traverseTraced ['b', 'a'] 0).1) ∧
      (m.findTraced ['b', 'a']).1 =
        (m.traverseTraced ['b', 'a'] 0).1 ++ (m.traverseTraced ['b', 'a'] 1).1 ∧
      traceLines false true (m.findTraced ['b', 'a']).1 =
        ((eventLines true (m.findTraced ['b', 'a']).1).filter fun
          | (.branch .., _) | (.drop .., _) => false
          | _ => true).map (·.2) := by
  intro t m
  have hbuilt : m.Built t := .find .new _ () ['a', 'b']
  obtain ⟨hsections, -, htries, hlines⟩ := trace_recounts hbuilt ['b', 'a']
  have hfound : (m.find ['b', 'a']).2 = some ⟨1, 2⟩ := by
    unfold m t
    cbv
  rw [hfound] at htries
  have hfailed : (m.traverse ['b', 'a'] 0).2 = none :=
    htries.failed 0 (by decide) (by decide) (by simp)
  refine ⟨hbuilt, hfound, hfailed ▸ (hsections 0).2, ?_, (hlines true _ (.inl rfl)).2⟩
  rw [htries.events_eq]
  simp [List.range'_succ]

end Matcher

end PatternScan
