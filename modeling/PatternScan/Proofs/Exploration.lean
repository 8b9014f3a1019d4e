import Mathlib.Order.Bounds.Basic
import Mathlib.Tactic.ByContra
import PatternScan.Proofs.Visits
import PatternScan.Proofs.Walk
import PatternScan.Simulate.Matcher

/-!
# What a traversal has explored

While a traversal is at a position, the places it has noted, visited or still to be explored, are
led to by the characters read so far, and every other place that they lead to is past one that is
still to be explored (`Explores`). So when nothing is left to explore the visited states are exactly
those that the characters read so far lead to, and the deferred ones are where the next character
leads on from there.

A step takes one of six forms (`Stepped`), each of which keeps this.
-/

namespace PatternScan

namespace Traversal

/-- What a step of a traversal may be, with what happens and what the step comes to. -/
inductive Stepped (table : Table) (t : Traversal) : Option TraversalEvent → TraversalStep → Prop
  | accept {work : List Next} : t.frontier.work = .final :: work →
      Stepped table t (some (.accept t.pos)) (.accepted { t.frontier with work } t.pos)
  | skip {id : Nat} {work : List Next} : t.frontier.work = .state id :: work →
      (table.get? id = none ∨ t.frontier.isUnvisited id = false) →
      Stepped table t none (.more { t with frontier := { t.frontier with work } })
  | branch {id : Nat} {s : State} {work : List Next} : t.frontier.work = .state id :: work →
      table.get? id = some s → t.frontier.isUnvisited id = true → s.kind = .branch →
      Stepped table t (some (.branch t.pos id s)) (.more
        { t with frontier := { t.frontier.visit id with work := s.successors ++ work } })
  | consume {id : Nat} {s : State} {c : Char} {work : List Next} :
      t.frontier.work = .state id :: work → table.get? id = some s →
      t.frontier.isUnvisited id = true → t.rest.head? = some c → s.kind.accepts c = true →
      Stepped table t (some (.consume t.pos id s c)) (.more { t with frontier :=
        { t.frontier.visit id with work, deferred := s.first :: t.frontier.deferred } })
  | drop {id : Nat} {s : State} {work : List Next} : t.frontier.work = .state id :: work →
      table.get? id = some s → t.frontier.isUnvisited id = true → s.kind.consumes = true →
      (∀ c, t.rest.head? = some c → s.kind.accepts c = false) →
      Stepped table t (some (.drop t.pos id s t.rest.head?)) (.more
        { t with frontier := { t.frontier.visit id with work } })
  | advance {c : Char} {rest : List Char} : t.frontier.work = [] → t.rest = c :: rest →
      t.frontier.deferred ≠ [] →
      Stepped table t (some (.advance (t.pos + 1) t.frontier.deferred.length)) (.more
        ⟨{ t.frontier.clearVisited with work := t.frontier.deferred.reverse, deferred := [] },
          t.pos + 1, rest⟩)
  | reject : t.frontier.work = [] → (t.rest = [] ∨ t.frontier.deferred = []) →
      Stepped table t (some (.reject t.pos)) (.rejected t.frontier)

theorem stepped_expand {table : Table} {t : Traversal} {id : Nat} {s : State} {work : List Next}
    (hwork : t.frontier.work = .state id :: work) (hs : table.get? id = some s)
    (hfirst : t.frontier.isUnvisited id = true) :
    Stepped table t
      (some (expand { t with frontier := { t.frontier with work } } id s).1)
      (.more (expand { t with frontier := { t.frontier with work } } id s).2) := by
  unfold expand
  split
  · next hk =>
    have h := Stepped.branch hwork hs hfirst hk
    unfold State.successors at h
    split at h <;> simpa [*, Frontier.pushNow, Frontier.visit] using h
  · next hk =>
    have hc : s.kind.consumes = true := by
      rcases hkind : s.kind.consumes
      · exact absurd (StateKind.consumes_eq_false_iff.mp hkind) hk
      · rfl
    split
    · next c hhead =>
      split
      · next haccepts => exact .consume hwork hs hfirst hhead haccepts
      · next haccepts =>
        have h := Stepped.drop hwork hs hfirst hc (fun d hd => by
          obtain rfl := Option.some.inj (hhead.symm.trans hd)
          simpa using haccepts)
        rwa [hhead] at h
    · next hhead =>
      have h := Stepped.drop hwork hs hfirst hc (fun d hd => by
        rw [hhead] at hd
        cases hd)
      rwa [hhead] at h

theorem stepped_step (table : Table) (t : Traversal) :
    Stepped table t (t.step table).1 (t.step table).2 := by
  rcases hwork : t.frontier.work with _ | ⟨_ | id, work⟩
  · rcases hrest : t.rest with _ | ⟨c, rest⟩
    · have hstep : t.step table = (some (.reject t.pos), .rejected t.frontier) := by
        simp [step, Frontier.pop?, hwork, hrest]
      exact hstep ▸ .reject hwork (.inl hrest)
    · rcases hdeferred : t.frontier.deferred with _ | ⟨d, deferred⟩
      · have hstep : t.step table = (some (.reject t.pos), .rejected t.frontier) := by
          simp [step, Frontier.pop?, hwork, hrest, Frontier.advance?, hdeferred]
        exact hstep ▸ .reject hwork (.inr hdeferred)
      · have h : Stepped table t _ _ := .advance hwork hrest (by simp [hdeferred])
        simpa [step, Frontier.pop?, hwork, hrest, Frontier.advance?, hdeferred] using h
  · have hstep : t.step table =
        (some (.accept t.pos), .accepted { t.frontier with work } t.pos) := by
      simp [step, Frontier.pop?, hwork]
    exact hstep ▸ .accept hwork
  · rcases hs : table.get? id with _ | s
    · have hstep : t.step table =
          (none, .more { t with frontier := { t.frontier with work } }) := by
        simp [step, Frontier.pop?, hwork, hs]
      exact hstep ▸ .skip hwork (.inl hs)
    · rcases hfirst : t.frontier.isUnvisited id
      · have hstep : t.step table =
            (none, .more { t with frontier := { t.frontier with work } }) := by
          have : Frontier.isUnvisited { t.frontier with work } id = false := hfirst
          simp [step, Frontier.pop?, hwork, hs, this]
        exact hstep ▸ .skip hwork (.inr hfirst)
      · have hunvisited : Frontier.isUnvisited { t.frontier with work } id = true := hfirst
        have h := stepped_expand hwork hs hfirst
        simpa [step, Frontier.pop?, hwork, hs, hunvisited] using h

/-- A step is determined by its form. -/
theorem Stepped.step_eq {table : Table} {t : Traversal} {event? : Option TraversalEvent}
    {next : TraversalStep} (h : Stepped table t event? next) : t.step table = (event?, next) := by
  cases h with
  | accept hwork => simp [step, Frontier.pop?, hwork]
  | @skip id work hwork hskip =>
    rcases hs : table.get? id with _ | s
    · simp [step, Frontier.pop?, hwork, hs]
    · have hold : Frontier.isUnvisited { t.frontier with work } id = false :=
        hskip.resolve_left (by simp [hs])
      simp [step, Frontier.pop?, hwork, hs, hold]
  | @branch id s work hwork hs hfirst hb =>
    have hfirst' : Frontier.isUnvisited { t.frontier with work } id = true := hfirst
    simp only [step, Frontier.pop?, hwork, hs, hfirst', if_true, expand, hb]
    unfold State.successors
    split <;> simp [Frontier.pushNow, Frontier.visit, *]
  | @consume id s c work hwork hs hfirst hhead haccepts =>
    have hfirst' : Frontier.isUnvisited { t.frontier with work } id = true := hfirst
    simp only [step, Frontier.pop?, hwork, hs, hfirst', if_true, expand]
    split
    · next hb => simp [hb, StateKind.accepts] at haccepts
    · simp [hhead, haccepts, Frontier.defer, Frontier.visit]
  | @drop id s work hwork hs hfirst hconsumes hdrop =>
    have hfirst' : Frontier.isUnvisited { t.frontier with work } id = true := hfirst
    simp only [step, Frontier.pop?, hwork, hs, hfirst', if_true, expand]
    split
    · next hb => simp [hb, StateKind.consumes] at hconsumes
    · rcases hhead : t.rest.head? with _ | c
      · simp [Frontier.visit]
      · simp [hdrop c hhead, Frontier.visit]
  | advance hwork hrest hdeferred =>
    rcases hd : t.frontier.deferred with _ | ⟨d, deferred⟩
    · exact absurd hd hdeferred
    · simp [step, Frontier.pop?, hwork, hrest, Frontier.advance?, hd]
  | reject hwork hend =>
    rcases hrest : t.rest with _ | ⟨c, rest⟩
    · simp [step, Frontier.pop?, hwork, hrest]
    · have hdeferred : t.frontier.deferred = [] := hend.resolve_left (by simp [hrest])
      simp [step, Frontier.pop?, hwork, hrest, Frontier.advance?, hdeferred]

section Equations

variable {σ : Type} (observe : σ → TraversalEvent → σ) (seen : σ) {table : Table} {t : Traversal}
  {event? : Option TraversalEvent} {f : Frontier} {pos : Nat}

theorem run_of_more {t' : Traversal} (h : t.step table = (event?, .more t')) :
    t.run table observe seen = t'.run table observe (event?.elim seen (observe seen)) := by
  rw [run]
  split <;> simp_all

theorem run_of_accepted (h : t.step table = (event?, .accepted f pos)) :
    t.run table observe seen = (event?.elim seen (observe seen), f, some pos) := by
  rw [run]
  split <;> simp_all

theorem run_of_rejected (h : t.step table = (event?, .rejected f)) :
    t.run table observe seen = (event?.elim seen (observe seen), f, none) := by
  rw [run]
  split <;> simp_all

end Equations

/-- The traversal is at the position after the characters `read`, with the rest of the line
ahead. -/
structure Explores (table : Table) (read : List Char) (t : Traversal) : Prop where
  bounded : t.frontier.Over table.size
  reached : ∀ n, t.frontier.Noted n → table.Path (.state 0) read n
  covered : ∀ n, table.Path (.state 0) read n → ∃ m, t.frontier.Noted m ∧ table.Path m [] n
  passed : ∀ id s, t.frontier.Visited id → table.get? id = some s → s.kind = .branch →
    ∀ n ∈ s.successors, t.frontier.Noted n
  mem_deferred_iff : ∀ n, n ∈ t.frontier.deferred ↔ ∃ id s c, t.frontier.Visited id ∧
    table.get? id = some s ∧ t.rest.head? = some c ∧ s.kind.accepts c = true ∧ n = s.first

variable {table : Table} {read : List Char} {t : Traversal}

theorem explores_start {f : Frontier} (h : f.Over table.size) (pos : Nat) (rest : List Char) :
    Explores table [] (start f pos rest) := by
  have hnone : ∀ id, ¬ (f.reset (.state 0)).Visited id :=
    fun id => h.not_visited_clearVisited id
  refine ⟨h.reset _, fun n hn => ?_, fun n hn => ?_, fun id s hid => absurd hid (hnone id), ?_⟩
  · rcases hn with hn | ⟨id, _, hid⟩
    · obtain rfl := List.mem_singleton.mp hn
      exact .here _
    · exact absurd hid (hnone id)
  · exact ⟨_, .inl (List.mem_singleton.mpr rfl), hn⟩
  · intro n
    constructor
    · exact fun hn => absurd hn List.not_mem_nil
    · rintro ⟨id, _, _, hid, _⟩
      exact absurd hid (hnone id)

/-- With nothing left to explore, what has been noted has been visited. -/
theorem Explores.noted_iff (h : Explores table read t) (hwork : t.frontier.work = []) (n : Next) :
    t.frontier.Noted n ↔ table.Path (.state 0) read n := by
  refine ⟨h.reached n, fun hn => ?_⟩
  obtain ⟨m, hm, hmn⟩ := h.covered n hn
  refine Table.Path.closed_of_nil (fun id s hid hs hb => ?_) hmn rfl hm
  rcases hid with hid | ⟨i, hi, hid⟩
  · rw [hwork] at hid
    exact absurd hid List.not_mem_nil
  · obtain rfl := Next.state.inj hi
    exact h.passed id s hid hs hb

theorem Explores.not_accepted (h : Explores table read t) (hwork : t.frontier.work = []) :
    ¬ table.Accepts read := by
  intro haccepts
  rcases (h.noted_iff hwork .final).mpr haccepts with hn | ⟨id, hid, _⟩
  · rw [hwork] at hn
    exact absurd hn List.not_mem_nil
  · exact nomatch hid

theorem Explores.visited_iff (h : Explores table read t) (hwork : t.frontier.work = [])
    (id : Nat) : t.frontier.Visited id ↔ table.Path (.state 0) read (.state id) := by
  rw [← h.noted_iff hwork]
  constructor
  · exact fun hid => .inr ⟨id, rfl, hid⟩
  · rintro (hn | ⟨i, hi, hid⟩)
    · rw [hwork] at hn
      exact absurd hn List.not_mem_nil
    · exact Next.state.inj hi ▸ hid

/-- A popped state that is not to be visited has been visited before. -/
theorem Explores.skip (h : Explores table read t) {id : Nat} {work : List Next}
    (hwork : t.frontier.work = .state id :: work)
    (hskip : table.get? id = none ∨ t.frontier.isUnvisited id = false) :
    Explores table read { t with frontier := { t.frontier with work } } := by
  have hpath : table.Path (.state 0) read (.state id) :=
    h.reached _ (.inl (hwork ▸ List.mem_cons_self))
  have hid : id < table.size := hpath.within (Nat.pos_of_ne_zero table.nonempty)
  have hvisited : t.frontier.Visited id := by
    rcases hskip with hnone | hold
    · exact absurd (Array.getElem?_eq_none_iff.mp hnone) (Nat.not_le.mpr hid)
    · by_contra hnot
      rw [(Frontier.isUnvisited_eq_true_iff h.bounded).mpr ⟨hid, hnot⟩] at hold
      exact nomatch hold
  have hnoted : ∀ n, Frontier.Noted { t.frontier with work } n ↔ t.frontier.Noted n := by
    intro n
    simp only [Frontier.Noted, hwork, List.mem_cons]
    constructor
    · rintro (hn | hn)
      · exact .inl (.inr hn)
      · exact .inr hn
    · rintro ((rfl | hn) | hn)
      · exact .inr ⟨id, rfl, hvisited⟩
      · exact .inl hn
      · exact .inr hn
  refine ⟨h.bounded.of_marks rfl le_rfl, fun n hn => h.reached n ((hnoted n).mp hn), fun n hn => ?_,
    fun i s hi hs hb n hn => (hnoted n).mpr (h.passed i s hi hs hb n hn), h.mem_deferred_iff⟩
  obtain ⟨m, hm, hmn⟩ := h.covered n hn
  exact ⟨m, (hnoted m).mpr hm, hmn⟩

/-- A visit adds what the state leads to: to the places to explore if it is a branch, and to the
deferred ones if it reads the next character. -/
theorem Explores.visit (h : Explores table read t) {id : Nat} {s : State}
    {work deferred : List Next} (fresh : List Next) (hwork : t.frontier.work = .state id :: work)
    (hs : table.get? id = some s) (hfresh : ∀ n ∈ fresh, table.Path (.state 0) read n)
    (hbranch : s.kind = .branch → ∀ n ∈ s.successors, n ∈ fresh)
    (hdeferred : ∀ n, n ∈ deferred ↔ n ∈ t.frontier.deferred ∨
      ∃ c, t.rest.head? = some c ∧ s.kind.accepts c = true ∧ n = s.first) :
    Explores table read { t with frontier :=
      { t.frontier.visit id with work := fresh ++ work, deferred } } := by
  have hid : id < table.size := (Array.getElem?_eq_some_iff.mp hs).1
  have hpath : table.Path (.state 0) read (.state id) :=
    h.reached _ (.inl (hwork ▸ List.mem_cons_self))
  have hvisited : ∀ i, Frontier.Visited
      { t.frontier.visit id with work := fresh ++ work, deferred } i ↔
        i = id ∨ t.frontier.Visited i := fun i => Frontier.visited_visit_iff h.bounded hid
  have hnoted : ∀ n, t.frontier.Noted n → Frontier.Noted
      { t.frontier.visit id with work := fresh ++ work, deferred } n := by
    rintro n (hn | ⟨i, rfl, hi⟩)
    · rw [hwork, List.mem_cons] at hn
      rcases hn with rfl | hn
      · exact .inr ⟨id, rfl, (hvisited id).mpr (.inl rfl)⟩
      · exact .inl (List.mem_append_right _ hn)
    · exact .inr ⟨i, rfl, (hvisited i).mpr (.inr hi)⟩
  refine ⟨(h.bounded.visit id).of_marks rfl le_rfl, ?_, fun n hn => ?_,
    fun i s' hi hs' hb n hn => ?_, fun n => ?_⟩
  · rintro n (hn | ⟨i, rfl, hi⟩)
    · rcases List.mem_append.mp hn with hn | hn
      · exact hfresh n hn
      · exact h.reached n (.inl (hwork ▸ List.mem_cons_of_mem _ hn))
    · rcases (hvisited i).mp hi with rfl | hi
      · exact hpath
      · exact h.reached _ (.inr ⟨i, rfl, hi⟩)
  · obtain ⟨m, hm, hmn⟩ := h.covered n hn
    exact ⟨m, hnoted m hm, hmn⟩
  · rcases (hvisited i).mp hi with rfl | hi
    · obtain rfl := Option.some.inj (hs.symm.trans hs')
      exact .inl (List.mem_append_left _ (hbranch hb n hn))
    · exact hnoted n (h.passed i s' hi hs' hb n hn)
  · rw [hdeferred n, h.mem_deferred_iff n]
    constructor
    · rintro (⟨i, s', c, hi, hread⟩ | ⟨c, hread⟩)
      · exact ⟨i, s', c, (hvisited i).mpr (.inr hi), hread⟩
      · exact ⟨id, s, c, (hvisited id).mpr (.inl rfl), hs, hread⟩
    · rintro ⟨i, s', c, hi, hs', hread⟩
      rcases (hvisited i).mp hi with rfl | hi
      · obtain rfl := Option.some.inj (hs.symm.trans hs')
        exact .inr ⟨c, hread⟩
      · exact .inl ⟨i, s', c, hi, hs', hread⟩

/-- With nothing left to explore, the deferred places are where the next character leads. -/
theorem Explores.advance (h : Explores table read t) {c : Char} {rest : List Char}
    (hwork : t.frontier.work = []) (hrest : t.rest = c :: rest) :
    Explores table (read ++ [c])
      ⟨{ t.frontier.clearVisited with work := t.frontier.deferred.reverse, deferred := [] },
        t.pos + 1, rest⟩ := by
  have hnone : ∀ id, ¬ Frontier.Visited
      { t.frontier.clearVisited with work := t.frontier.deferred.reverse, deferred := [] } id :=
    fun id => h.bounded.not_visited_clearVisited id
  have hdeferred : ∀ n, n ∈ t.frontier.deferred.reverse ↔ ∃ id s, t.frontier.Visited id ∧
      table.get? id = some s ∧ s.kind.accepts c = true ∧ n = s.first := by
    intro n
    simp [h.mem_deferred_iff, hrest]
  refine ⟨h.bounded.clearVisited.of_marks rfl le_rfl, ?_, fun n hn => ?_,
    fun id s hid => absurd hid (hnone id), fun n => ?_⟩
  · rintro n (hn | ⟨id, _, hid⟩)
    · obtain ⟨id, s, hid, hs, hc, rfl⟩ := (hdeferred n).mp hn
      exact ((h.visited_iff hwork id).mp hid).snoc hs hc
    · exact absurd hid (hnone id)
  · obtain ⟨id, s, hid, hs, hc, hn⟩ := Table.path_append_singleton_iff.mp hn
    exact ⟨s.first, .inl ((hdeferred _).mpr
      ⟨id, s, (h.visited_iff hwork id).mpr hid, hs, hc, rfl⟩), hn⟩
  · constructor
    · exact fun hn => absurd hn List.not_mem_nil
    · rintro ⟨id, _, _, hid, _⟩
      exact absurd hid (hnone id)

end Traversal

end PatternScan
