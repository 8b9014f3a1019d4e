import Mathlib.Data.List.Permutation
import PatternScan.Proofs.Delivery
import PatternScan.Simulate.Trace

/-!
# Using a matcher again

What a traversal leaves behind (places that were not explored, marks of earlier epochs) cannot be
seen by the next one: after a reset any two frontiers over the same states are alike
(`Frontier.Over.alike_reset`), and runs from alike frontiers tell and find the same
(`Traversal.Alike.run_eq`). So a matcher or a searcher does what a new one does, whatever it has
done before, also when its epochs have begun anew.
-/

namespace PatternScan

namespace Frontier

/-- Two frontiers over so many states that cannot be told apart: the same is to be explored, now and
later, and the same states have been visited. -/
structure Alike (size : Nat) (f g : Frontier) : Prop where
  left : f.Over size
  right : g.Over size
  work : f.work = g.work
  deferred : f.deferred = g.deferred
  visited : ∀ id, f.Visited id ↔ g.Visited id

variable {f g : Frontier} {size : Nat}

theorem Alike.isUnvisited_eq (h : Alike size f g) (id : Nat) :
    f.isUnvisited id = g.isUnvisited id := by
  rw [Bool.eq_iff_iff, isUnvisited_eq_true_iff h.left, isUnvisited_eq_true_iff h.right,
    h.visited id]

theorem Alike.set (h : Alike size f g) (work : List Next) {deferred deferred' : List Next}
    (hdeferred : deferred = deferred') :
    Alike size { f with work, deferred } { g with work, deferred := deferred' } :=
  ⟨h.left.of_marks rfl (Nat.le_refl _), h.right.of_marks rfl (Nat.le_refl _), rfl, hdeferred,
    h.visited⟩

theorem Alike.visit (h : Alike size f g) {id : Nat} (hid : id < size) :
    Alike size (f.visit id) (g.visit id) := by
  refine ⟨h.left.visit id, h.right.visit id, h.work, h.deferred, fun i => ?_⟩
  rw [visited_visit_iff h.left hid, visited_visit_iff h.right hid, h.visited i]

/-- A new epoch makes frontiers alike but for what is to be explored. -/
theorem Over.alike_clearVisited (hf : f.Over size) (hg : g.Over size) (work deferred : List Next) :
    Alike size { f.clearVisited with work, deferred } { g.clearVisited with work, deferred } :=
  ⟨hf.clearVisited.of_marks rfl (Nat.le_refl _), hg.clearVisited.of_marks rfl (Nat.le_refl _),
    rfl, rfl, fun id => iff_of_false (hf.not_visited_clearVisited id)
      (hg.not_visited_clearVisited id)⟩

theorem Over.alike_reset (hf : f.Over size) (hg : g.Over size) (start : Next) :
    Alike size (f.reset start) (g.reset start) :=
  hf.alike_clearVisited hg [start] []

end Frontier

namespace Traversal

variable {table : Table} {t u : Traversal}

/-- Two traversals at the same place whose frontiers cannot be told apart. -/
structure Alike (table : Table) (t u : Traversal) : Prop where
  frontier : t.frontier.Alike table.size u.frontier
  pos : t.pos = u.pos
  rest : t.rest = u.rest

inductive StepAlike (table : Table) : TraversalStep → TraversalStep → Prop
  | more {t u : Traversal} : Alike table t u → StepAlike table (.more t) (.more u)
  | accepted (f g : Frontier) (pos : Nat) : StepAlike table (.accepted f pos) (.accepted g pos)
  | rejected (f g : Frontier) : StepAlike table (.rejected f) (.rejected g)

/-- The other of two traversals that are alike takes a step of the same form. -/
theorem Stepped.exists_alike {event? : Option TraversalEvent} {next : TraversalStep}
    (h : Stepped table t event? next) (halike : Alike table t u) :
    ∃ next', Stepped table u event? next' ∧ StepAlike table next next' := by
  obtain ⟨f, pos, rest⟩ := t
  obtain ⟨g, _, _⟩ := u
  obtain ⟨hfrontier, rfl, rfl⟩ := halike
  have hwork : f.work = g.work := hfrontier.work
  have hdeferred : f.deferred = g.deferred := hfrontier.deferred
  cases h with
  | accept h => exact ⟨_, .accept (hwork ▸ h), .accepted _ _ _⟩
  | skip h hskip =>
    rw [hfrontier.isUnvisited_eq] at hskip
    exact ⟨_, .skip (hwork ▸ h) hskip, .more ⟨hfrontier.set _ hdeferred, rfl, rfl⟩⟩
  | branch h hs hfirst hb =>
    have hid := ((Frontier.isUnvisited_eq_true_iff hfrontier.left).mp hfirst).1
    rw [hfrontier.isUnvisited_eq] at hfirst
    exact ⟨_, .branch (hwork ▸ h) hs hfirst hb,
      .more ⟨(hfrontier.visit hid).set _ hdeferred, rfl, rfl⟩⟩
  | consume h hs hfirst hhead haccepts =>
    have hid := ((Frontier.isUnvisited_eq_true_iff hfrontier.left).mp hfirst).1
    rw [hfrontier.isUnvisited_eq] at hfirst
    exact ⟨_, .consume (hwork ▸ h) hs hfirst hhead haccepts,
      .more ⟨(hfrontier.visit hid).set _ (congrArg (_ :: ·) hdeferred), rfl, rfl⟩⟩
  | drop h hs hfirst hconsumes hdrop =>
    have hid := ((Frontier.isUnvisited_eq_true_iff hfrontier.left).mp hfirst).1
    rw [hfrontier.isUnvisited_eq] at hfirst
    exact ⟨_, .drop (hwork ▸ h) hs hfirst hconsumes hdrop,
      .more ⟨(hfrontier.visit hid).set _ hdeferred, rfl, rfl⟩⟩
  | advance h hrest hne =>
    rw [hdeferred] at hne ⊢
    exact ⟨_, .advance (hwork ▸ h) hrest hne,
      .more ⟨hfrontier.left.alike_clearVisited hfrontier.right _ _, rfl, rfl⟩⟩
  | reject h hend => exact ⟨_, .reject (hwork ▸ h) (hdeferred ▸ hend), .rejected _ _⟩

section Run

variable {σ : Type} (observe : σ → TraversalEvent → σ)

/-- Runs that begin alike tell the same and end at the same position. -/
theorem Alike.run_eq (h : Alike table t u) (seen : σ) :
    (t.run table observe seen).1 = (u.run table observe seen).1 ∧
      (t.run table observe seen).2.2 = (u.run table observe seen).2.2 := by
  -- Both runs take steps of the same form, so they go on or end together.
  fun_induction Traversal.run table observe seen t generalizing u
  case case1 t _ t' hmore ih =>
    obtain ⟨next, hstep, halike⟩ := (stepped_step table t).exists_alike h
    rw [hmore] at halike
    cases halike with
    | more halike =>
      rw [run_of_more observe _ hstep.step_eq]
      exact ih halike
  case case2 t _ f pos haccepted =>
    obtain ⟨next, hstep, halike⟩ := (stepped_step table t).exists_alike h
    rw [haccepted] at halike
    cases halike with
    | accepted =>
      rw [run_of_accepted observe _ hstep.step_eq]
      exact ⟨rfl, rfl⟩
  case case3 t _ f hrejected =>
    obtain ⟨next, hstep, halike⟩ := (stepped_step table t).exists_alike h
    rw [hrejected] at halike
    cases halike with
    | rejected =>
      rw [run_of_rejected observe _ hstep.step_eq]
      exact ⟨rfl, rfl⟩

end Run

end Traversal

namespace Matcher

/-- A matcher that was made for a table, and may have matched lines before. -/
inductive Built (t : Table) : Matcher → Prop
  | new : Built t (.new t)
  | find {m : Matcher} {σ : Type} (h : Built t m) (observe : σ → TraversalEvent → σ) (seen : σ)
      (line : List Char) : Built t (m.findWith observe seen line).2.1
  | traverse {m : Matcher} {σ : Type} (h : Built t m) (observe : σ → TraversalEvent → σ) (seen : σ)
      (line : List Char) (pos : Nat) : Built t (m.traverseWith observe seen line pos).2.1

theorem Built.ready {t : Table} {m : Matcher} (h : m.Built t) : m.Ready ∧ m.table = t := by
  induction h with
  | new => exact ⟨ready_new t, rfl⟩
  | find _ observe seen line ih =>
    obtain ⟨hready, htable⟩ := ih.1.ready_findWith observe seen line
    exact ⟨hready, htable.trans ih.2⟩
  | traverse _ observe seen line pos ih =>
    obtain ⟨hready, htable, -⟩ := ih.1.traverseAt observe seen pos (line.drop pos)
    exact ⟨hready, htable.trans ih.2⟩

section Observe

variable {σ : Type} (observe : σ → TraversalEvent → σ)

theorem Ready.traverseAt_eq {m n : Matcher} (hm : m.Ready) (hn : n.Ready)
    (htable : m.table = n.table) (seen : σ) (pos : Nat) (rest : List Char) :
    (m.traverseAt observe seen pos rest).1 = (n.traverseAt observe seen pos rest).1 ∧
      (m.traverseAt observe seen pos rest).2.2 = (n.traverseAt observe seen pos rest).2.2 := by
  obtain ⟨t, f⟩ := m
  obtain ⟨_, g⟩ := n
  obtain rfl := htable
  have halike : Traversal.Alike t (.start f pos rest) (.start g pos rest) :=
    ⟨Frontier.Over.alike_reset hm hn _, rfl, rfl⟩
  exact halike.run_eq observe _

theorem Ready.findAt_eq : ∀ {m n : Matcher} (_ : m.Ready) (_ : n.Ready) (_ : m.table = n.table)
    (seen : σ) (pos : Nat) (rest : List Char),
    (m.findAt observe seen pos rest).1 = (n.findAt observe seen pos rest).1 ∧
      (m.findAt observe seen pos rest).2.2 = (n.findAt observe seen pos rest).2.2
  | _, _, _, _, _, _, _, [] => ⟨rfl, rfl⟩
  | m, n, hm, hn, htable, seen, pos, c :: rest => by
    obtain ⟨hseen, hstop⟩ := hm.traverseAt_eq observe hn htable seen pos (c :: rest)
    obtain ⟨hm', hmtable, -⟩ := hm.traverseAt observe seen pos (c :: rest)
    obtain ⟨hn', hntable, -⟩ := hn.traverseAt observe seen pos (c :: rest)
    unfold Matcher.findAt
    rcases hmrun : m.traverseAt observe seen pos (c :: rest) with ⟨seen', m', stop?⟩
    rcases hnrun : n.traverseAt observe seen pos (c :: rest) with ⟨seen'', n', stop?'⟩
    rw [hmrun] at hseen hstop hm' hmtable
    rw [hnrun] at hseen hstop hn' hntable
    obtain rfl : seen' = seen'' := hseen
    obtain rfl : stop? = stop?' := hstop
    rcases stop? with _ | stop
    · exact Ready.findAt_eq hm' hn' (hmtable.trans (htable.trans hntable.symm)) seen' (pos + 1) rest
    · exact ⟨rfl, rfl⟩

theorem Ready.findWith_eq {m n : Matcher} (hm : m.Ready) (hn : n.Ready)
    (htable : m.table = n.table) (seen : σ) (line : List Char) :
    (m.findWith observe seen line).1 = (n.findWith observe seen line).1 ∧
      (m.findWith observe seen line).2.2 = (n.findWith observe seen line).2.2 := by
  rcases line with _ | ⟨c, rest⟩
  · obtain ⟨hseen, hstop⟩ := hm.traverseAt_eq observe hn htable seen 0 []
    exact ⟨hseen, congrArg (Option.map _) hstop⟩
  · exact hm.findAt_eq observe hn htable seen 0 (c :: rest)

end Observe

/-- Whatever a matcher or a searcher has done before, it tells and finds what a new one does, with
every observer and every sink. -/
theorem built_runs_as_new {t : Table} {limit? : Option Nat} {m : Matcher} {s : Searcher}
    (hm : m.Built t) (hs : s.Built t limit?) :
    (∀ {σ : Type} (observe : σ → TraversalEvent → σ) (seen : σ) (line : List Char),
      (m.findWith observe seen line).1 = ((new t).findWith observe seen line).1 ∧
        (m.findWith observe seen line).2.2 = ((new t).findWith observe seen line).2.2) ∧
    (∀ {σ : Type} (observe : σ → TraversalEvent → σ) (seen : σ) (line : List Char) (pos : Nat),
      (m.traverseWith observe seen line pos).1 = ((new t).traverseWith observe seen line pos).1 ∧
        (m.traverseWith observe seen line pos).2.2 =
          ((new t).traverseWith observe seen line pos).2.2) ∧
    ∀ {σ : Type} (sink : Sink σ) (state : σ) (source : Source),
      (s.search sink state source).1 = ((Searcher.new t limit?).search sink state source).1 ∧
        (s.search sink state source).2.2 =
          ((Searcher.new t limit?).search sink state source).2.2 := by
  obtain ⟨hready, rfl⟩ := hm.ready
  refine ⟨fun observe seen line => ?_, fun observe seen line pos => ?_,
    fun sink state source => ?_⟩
  · exact hready.findWith_eq observe (ready_new m.table) rfl seen line
  · exact hready.traverseAt_eq observe (ready_new m.table) rfl seen pos (line.drop pos)
  · obtain ⟨hstate, hresult⟩ := hs.search_eq sink state source
    obtain ⟨hstate', hresult'⟩ :=
      (Searcher.Built.new : (Searcher.new m.table limit?).Built m.table limit?).search_eq
        sink state source
    exact ⟨hstate.trans hstate'.symm, hresult.trans hresult'.symm⟩

/-- A match has left two places unexplored, and a searcher was stopped by its sink. -/
theorem built_runs_as_new_stopped :
    let t : Table := ⟨#[.branch (.state 1) (.state 2), .consuming (.literal 'a') (.state 3),
      .consuming .wildcard (.state 2), .branch .final (.state 0)], by decide, by decide, by decide⟩
    let m := ((new t).findTraced ['a', 'b']).2.1
    let stopped := (Searcher.new t none).searchEvents (some 1) ['r'] true (.ofBytes [97, 10, 98])
    let source : Source := ⟨0, [98, 97, 10, 97], some ['e']⟩
    m.frontier.work = [.state 0, .state 2] ∧ stopped.2.2 = .error (.sink ['r']) ∧
      (m.findTraced ['b', 'a']).1 = ((new t).findTraced ['b', 'a']).1 ∧
      (m.traverse ['a'] 2).2 = ((new t).traverse ['a'] 2).2 ∧
      (stopped.2.1.searchEvents none [] true source).1 =
        ((Searcher.new t none).searchEvents none [] true source).1 := by
  intro t m stopped source
  have hm : m.Built t := .find .new record [] ['a', 'b']
  have hs : stopped.2.1.Built t none := .search .new _ _ _
  obtain ⟨hfind, htraverse, hsearch⟩ := built_runs_as_new hm hs
  have htold := (hsearch (EventLog.sink none [] true) .empty source).1
  refine ⟨?_, ?_, congrArg List.reverse (hfind record [] ['b', 'a']).1,
    (htraverse _ () ['a'] 2).2, congrArg (·.events.reverse) htold⟩
  · unfold m t
    cbv
  · have hread : (Source.ofBytes [97, 10, 98]).readLine = .line [97, 10] (.ofBytes [98]) := rfl
    have htext : Utf8.decode (trimLine [97, 10]) = .ok ['a'] := rfl
    have hfound : ((new t).find ['a']).2 = some ⟨0, 1⟩ := by
      unfold t
      cbv
    rcases hfind : (new t).find ['a'] with ⟨n, found?⟩
    rw [hfind] at hfound
    obtain rfl : found? = some ⟨0, 1⟩ := hfound
    have hline : Searcher.searchLine (new t) (EventLog.sink (some 1) ['r'] true) .empty .zero
        (trimLine [97, 10]) = (.empty, n, ⟨1, 1, 0⟩, .error ['r']) := by
      simp only [Searcher.searchLine, htext, hfind]
      rfl
    have hreached : ¬ SearchStats.zero.reached (Searcher.new t none).maxCount? := Bool.false_ne_true
    unfold stopped
    rw [Searcher.searchEvents, Searcher.search, Searcher.searchFrom_of_not_reached hreached, hread]
    simp only [Searcher.new, hline]

end Matcher

end PatternScan
