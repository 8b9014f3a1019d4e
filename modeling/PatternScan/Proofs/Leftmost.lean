import Mathlib.Order.Bounds.Basic
import Mathlib.Order.Bounds.Image
import PatternScan.Proofs.Exploration

/-!
# The first match

A traversal stops at the first position at which what has been read is accepted, if there is one
(`Explores.run`), whatever was visited in which order. So a search finds, of all the matches of a
line, the one that starts first, and of those that start with it the one that stops first. It may
pass over the end of a line that is not empty, since what matches there matches at its start.
-/

namespace PatternScan

namespace Table

/-- The rest of a line is first accepted after so many characters of it, or never. -/
def AcceptsFirst (t : Table) (read rest : List Char) : Option Nat → Prop
  | some k => IsLeast {j | j ≤ rest.length ∧ t.Accepts (read ++ rest.take j)} k
  | none => ∀ k ≤ rest.length, ¬ t.Accepts (read ++ rest.take k)

variable {t : Table} {read rest : List Char} {c : Char}

theorem acceptsFirst_zero (h : t.Accepts read) : t.AcceptsFirst read rest (some 0) :=
  ⟨⟨Nat.zero_le _, by simpa using h⟩, fun _ _ => Nat.zero_le _⟩

theorem AcceptsFirst.cons (hread : ¬ t.Accepts read) :
    ∀ {k? : Option Nat}, t.AcceptsFirst (read ++ [c]) rest k? →
      t.AcceptsFirst read (c :: rest) (k?.map (· + 1))
  | some k, ⟨⟨hk, haccepts⟩, hleast⟩ => by
    refine ⟨⟨Nat.succ_le_succ hk, by simpa using haccepts⟩, ?_⟩
    rintro (_ | j) ⟨hj, hj'⟩
    · exact absurd (by simpa using hj') hread
    · exact Nat.succ_le_succ (hleast ⟨Nat.le_of_succ_le_succ hj, by simpa using hj'⟩)
  | none, h => by
    rintro (_ | j) hj hj'
    · exact hread (by simpa using hj')
    · exact h j (Nat.le_of_succ_le_succ hj) (by simpa using hj')

end Table

namespace Traversal

variable {table : Table} {read : List Char} {t : Traversal}

theorem Explores.acceptsFirst_reject (h : Explores table read t) (hwork : t.frontier.work = [])
    (hend : t.rest = [] ∨ t.frontier.deferred = []) :
    table.AcceptsFirst read t.rest none := by
  rintro (_ | k) hk haccepts
  · exact h.not_accepted hwork (by simpa using haccepts)
  · rcases hrest : t.rest with _ | ⟨c, rest⟩
    · rw [hrest] at hk
      exact absurd hk (Nat.not_succ_le_zero k)
    · have hempty : t.frontier.deferred = [] := hend.resolve_left (by simp [hrest])
      rw [hrest, List.take_succ_cons, List.append_cons] at haccepts
      obtain ⟨n, hn, _⟩ := haccepts.cut rfl
      obtain ⟨id, s, hid, hs, hc, _⟩ := Table.path_append_singleton_iff.mp hn
      have hmem : s.first ∈ t.frontier.deferred := (h.mem_deferred_iff _).mpr
        ⟨id, s, c, (h.visited_iff hwork id).mpr hid, hs, by simp [hrest], hc, rfl⟩
      rw [hempty] at hmem
      exact absurd hmem List.not_mem_nil

/-- A step that does not end the traversal stays at its position or, if nothing is accepted there,
reads a character. -/
theorem Explores.step (h : Explores table read t) {event? : Option TraversalEvent}
    {t' : Traversal} (hstep : Stepped table t event? (.more t')) :
    (Explores table read t' ∧ t'.pos = t.pos ∧ t'.rest = t.rest) ∨
      ∃ c, Explores table (read ++ [c]) t' ∧ t'.pos = t.pos + 1 ∧ t.rest = c :: t'.rest ∧
        ¬ table.Accepts read := by
  cases hstep with
  | skip hwork hskip => exact .inl ⟨h.skip hwork hskip, rfl, rfl⟩
  | @branch id s work hwork hs _ hb =>
    have hpath := h.reached _ (.inl (hwork ▸ List.mem_cons_self))
    refine .inl ⟨h.visit s.successors hwork hs (fun n hn => hpath.passTo hs hb hn)
      (fun _ n hn => hn) ?_, rfl, rfl⟩
    simp [hb, StateKind.accepts, Frontier.visit]
  | @consume id s c work hwork hs _ hhead haccepts =>
    refine .inl ⟨h.visit [] hwork hs (by simp) (fun hb => ?_) ?_, rfl, rfl⟩
    · rw [hb] at haccepts
      exact absurd haccepts Bool.false_ne_true
    · simp [hhead, haccepts, or_comm]
  | @drop id s work hwork hs _ hconsumes hdrop =>
    refine .inl ⟨h.visit [] hwork hs (by simp) (fun hb => ?_) (fun n => ?_), rfl, rfl⟩
    · rw [hb] at hconsumes
      exact absurd hconsumes Bool.false_ne_true
    · refine ⟨.inl, ?_⟩
      rintro (hn | ⟨c, hc, haccepts, _⟩)
      · exact hn
      · rw [hdrop c hc] at haccepts
        exact absurd haccepts Bool.false_ne_true
  | advance hwork hrest hdeferred =>
    exact .inr ⟨_, h.advance hwork hrest, rfl, hrest, h.not_accepted hwork⟩

section Run

variable {σ : Type} (observe : σ → TraversalEvent → σ)

/-- A traversal stops where the line is first accepted, and leaves a frontier that can be used
again. -/
theorem Explores.run (h : Explores table read t) (seen : σ) :
    (t.run table observe seen).2.1.Over table.size ∧
      ∃ k?, (t.run table observe seen).2.2 = k?.map (t.pos + ·) ∧
        table.AcceptsFirst read t.rest k? := by
  fun_induction Traversal.run table observe seen t generalizing read
  case case1 _ t _ t' hmore ih =>
    have hstep := hmore ▸ stepped_step table t
    rcases h.step hstep with ⟨h', hpos, hrest⟩ | ⟨c, h', hpos, hrest, hread⟩
    · obtain ⟨hover, k?, hrun, hfirst⟩ := ih h'
      exact ⟨hover, k?, by rw [hrun, hpos], hrest ▸ hfirst⟩
    · obtain ⟨hover, k?, hrun, hfirst⟩ := ih h'
      refine ⟨hover, k?.map (· + 1), ?_, hrest ▸ hfirst.cons hread⟩
      rw [hrun, hpos, Option.map_map]
      congr 1
      funext k
      simp only [Function.comp_apply]
      omega
  case case2 _ t _ f pos haccepted =>
    obtain ⟨_, hstep⟩ : ∃ event?, Stepped table t event? (.accepted f pos) :=
      ⟨_, haccepted ▸ stepped_step table t⟩
    cases hstep with
    | accept hwork =>
      exact ⟨h.bounded.of_marks rfl le_rfl, some 0, rfl,
        Table.acceptsFirst_zero (h.reached _ (.inl (hwork ▸ List.mem_cons_self)))⟩
  case case3 _ t _ f hrejected =>
    obtain ⟨_, hstep⟩ : ∃ event?, Stepped table t event? (.rejected f) :=
      ⟨_, hrejected ▸ stepped_step table t⟩
    cases hstep with
    | reject hwork hend => exact ⟨h.bounded, none, rfl, h.acceptsFirst_reject hwork hend⟩

end Run

end Traversal

/-- What stands between two positions of a line is accepted. -/
def Table.Spans (t : Table) (chars : List Char) (start stop : Nat) : Prop :=
  start ≤ stop ∧ stop ≤ max start chars.length ∧ t.Accepts ((chars.drop start).take (stop - start))

/-- Of the matches that start at one of the positions up to `size`, this one starts first, and of
those that start with it this one stops first. -/
def Match.IsFirst (m : Match) (ends : Nat → Nat → Prop) (size : Nat) : Prop :=
  IsLeast {s | s ≤ size ∧ ∃ e, ends s e} m.start ∧ IsLeast {e | ends m.start e} m.stop

theorem Match.IsFirst.unique {ends : Nat → Nat → Prop} {size : Nat} :
    ∀ {m m' : Match}, m.IsFirst ends size → m'.IsFirst ends size → m = m'
  | ⟨start, stop⟩, ⟨start', stop'⟩, h, h' => by
    obtain rfl : start = start' := h.1.unique h'.1
    obtain rfl : stop = stop' := h.2.unique h'.2
    rfl

namespace Table

variable {t : Table} (chars : List Char) (start : Nat)

theorem spans_add_iff {k : Nat} : t.Spans chars start (start + k) ↔
    k ≤ (chars.drop start).length ∧ t.Accepts ((chars.drop start).take k) := by
  unfold Spans
  rw [Nat.add_sub_cancel_left, List.length_drop]
  constructor
  · rintro ⟨_, hk, haccepts⟩
    exact ⟨by omega, haccepts⟩
  · rintro ⟨hk, haccepts⟩
    exact ⟨Nat.le_add_right _ _, by omega, haccepts⟩

theorem AcceptsFirst.isLeast {k : Nat} (h : t.AcceptsFirst [] (chars.drop start) (some k)) :
    IsLeast {e | t.Spans chars start e} (start + k) := by
  refine ⟨(spans_add_iff chars start).mpr h.1, fun e he => ?_⟩
  obtain ⟨j, rfl⟩ := Nat.exists_eq_add_of_le he.1
  exact Nat.add_le_add_left (h.2 ((spans_add_iff chars start).mp he)) start

theorem AcceptsFirst.not_spans (h : t.AcceptsFirst [] (chars.drop start) none) (e : Nat) :
    ¬ t.Spans chars start e := by
  intro he
  obtain ⟨j, rfl⟩ := Nat.exists_eq_add_of_le he.1
  obtain ⟨hj, haccepts⟩ := (spans_add_iff chars start).mp he
  exact h j hj haccepts

/-- What matches at the end of a line matches at its start. -/
theorem Spans.of_length {chars : List Char} {e : Nat} (h : t.Spans chars chars.length e) :
    t.Spans chars 0 0 := by
  obtain ⟨_, _, haccepts⟩ := h
  rw [List.drop_length, List.take_nil] at haccepts
  exact ⟨le_rfl, Nat.zero_le _, by simpa using haccepts⟩

end Table

namespace Matcher

/-- The matcher's frontier is over the states of its table, whatever it has been used for. -/
def Ready (m : Matcher) : Prop :=
  m.frontier.Over m.table.size

theorem ready_new (t : Table) : (new t).Ready :=
  Frontier.over_ofSize t.size

section Find

variable {σ : Type} (observe : σ → TraversalEvent → σ) {m : Matcher}

theorem Ready.traverseAt (h : m.Ready) (seen : σ) (pos : Nat) (rest : List Char) :
    (m.traverseAt observe seen pos rest).2.1.Ready ∧
      (m.traverseAt observe seen pos rest).2.1.table = m.table ∧
      ∃ k?, (m.traverseAt observe seen pos rest).2.2 = k?.map (pos + ·) ∧
        m.table.AcceptsFirst [] rest k? := by
  obtain ⟨hover, hrun⟩ := (Traversal.explores_start h pos rest).run observe
    (observe seen (.start pos))
  exact ⟨hover, rfl, hrun⟩

theorem Ready.traverseWith_eq_some (h : m.Ready) {seen : σ} {chars : List Char} {start stop : Nat}
    (hstop : (m.traverseWith observe seen chars start).2.2 = some stop) :
    IsLeast {e | m.table.Spans chars start e} stop := by
  obtain ⟨_, _, k?, hk, hfirst⟩ := h.traverseAt observe seen start (chars.drop start)
  rcases k? with _ | k
  · exact nomatch hstop.symm.trans hk
  · obtain rfl := Option.some.inj (hstop.symm.trans hk)
    exact hfirst.isLeast chars start

theorem Ready.traverseWith_eq_none (h : m.Ready) {seen : σ} {chars : List Char} {start : Nat}
    (hnone : (m.traverseWith observe seen chars start).2.2 = none) (e : Nat) :
    ¬ m.table.Spans chars start e := by
  obtain ⟨_, _, k?, hk, hfirst⟩ := h.traverseAt observe seen start (chars.drop start)
  rcases k? with _ | k
  · exact hfirst.not_spans chars start e
  · exact nomatch hnone.symm.trans hk

/-- What trying the starts from `pos` on, without the end of the line, comes to. -/
def FoundFrom (t : Table) (chars : List Char) (pos : Nat) : Option Match → Prop
  | some found => pos ≤ found.start ∧ found.start < chars.length ∧
      (∀ s, pos ≤ s → s < found.start → ∀ e, ¬ t.Spans chars s e) ∧
      IsLeast {e | t.Spans chars found.start e} found.stop
  | none => ∀ s, pos ≤ s → s < chars.length → ∀ e, ¬ t.Spans chars s e

theorem FoundFrom.step {t : Table} {chars : List Char} {pos : Nat}
    (hpos : ∀ e, ¬ t.Spans chars pos e) :
    ∀ {found? : Option Match}, FoundFrom t chars (pos + 1) found? → FoundFrom t chars pos found?
  | some found, ⟨hstart, hlt, hnone, hstop⟩ => by
    refine ⟨by omega, hlt, fun s hs hs' => ?_, hstop⟩
    rcases Nat.eq_or_lt_of_le hs with rfl | hs
    · exact hpos
    · exact hnone s hs hs'
  | none, h => by
    intro s hs hs'
    rcases Nat.eq_or_lt_of_le hs with rfl | hs
    · exact hpos
    · exact h s hs hs'

theorem Ready.findAt (chars : List Char) : ∀ {m : Matcher} (_ : m.Ready) (seen : σ) (pos : Nat)
    (rest : List Char), chars.drop pos = rest →
      FoundFrom m.table chars pos (m.findAt observe seen pos rest).2.2
  | m, h, seen, pos, [], hrest => by
    intro s hs hs'
    have := List.drop_eq_nil_iff.mp hrest
    omega
  | m, h, seen, pos, c :: rest, hrest => by
    have hlt : pos < chars.length := by
      by_contra hge
      rw [List.drop_eq_nil_of_le (Nat.le_of_not_lt hge)] at hrest
      exact nomatch hrest
    obtain ⟨hready, htable, k?, hk, hfirst⟩ := h.traverseAt observe seen pos (c :: rest)
    rw [← hrest] at hfirst
    rcases hrun : m.traverseAt observe seen pos (c :: rest) with ⟨seen', m', _ | stop⟩
    · rw [hrun] at hk hready htable
      rcases k? with _ | k
      · have hnext := Ready.findAt chars hready seen' (pos + 1) rest
          (by rw [← List.drop_drop, hrest, List.drop_one, List.tail_cons])
        rw [htable] at hnext
        simp only [Matcher.findAt, hrun]
        exact hnext.step (hfirst.not_spans chars pos)
      · exact nomatch hk
    · rw [hrun] at hk
      rcases k? with _ | k
      · exact nomatch hk
      · obtain rfl := Option.some.inj hk
        simp only [Matcher.findAt, hrun]
        exact ⟨le_rfl, hlt, fun s hs hs' => absurd hs (Nat.not_le.mpr hs'),
          hfirst.isLeast chars pos⟩

/-- What a search finds is the first match. -/
theorem Ready.isFirst_of_findWith (h : m.Ready) {seen : σ} {chars : List Char} {found : Match}
    (hfound : (m.findWith observe seen chars).2.2 = some found) :
    found.IsFirst (m.table.Spans chars) chars.length := by
  rcases chars with _ | ⟨c, rest⟩
  · obtain ⟨_, _, k?, hk, hfirst⟩ := h.traverseAt observe seen 0 []
    rcases k? with _ | k
    · simp [findWith, hk] at hfound
    · obtain rfl : ⟨0, 0 + k⟩ = found := by simpa [findWith, hk] using hfound
      have hleast := hfirst.isLeast [] 0
      exact ⟨⟨⟨le_rfl, _, hleast.1⟩, fun _ _ => Nat.zero_le _⟩, hleast⟩
  · have hfind := Ready.findAt observe (c :: rest) h seen 0 (c :: rest) rfl
    rw [show (m.findAt observe seen 0 (c :: rest)).2.2 = some found from hfound] at hfind
    obtain ⟨_, hlt, hnone, hstop⟩ := hfind
    refine ⟨⟨⟨hlt.le, _, hstop.1⟩, ?_⟩, hstop⟩
    rintro s ⟨_, e, he⟩
    by_contra hs
    exact hnone s (Nat.zero_le s) (Nat.lt_of_not_le hs) e he

/-- A search that finds nothing has missed nothing, at the end of the line neither. -/
theorem Ready.not_spans_of_findWith (h : m.Ready) {seen : σ} {chars : List Char}
    (hnone : (m.findWith observe seen chars).2.2 = none) {s : Nat} (hs : s ≤ chars.length)
    (e : Nat) : ¬ m.table.Spans chars s e := by
  rcases chars with _ | ⟨c, rest⟩
  · obtain ⟨_, _, k?, hk, hfirst⟩ := h.traverseAt observe seen 0 []
    obtain rfl := Nat.le_zero.mp hs
    rcases k? with _ | k
    · exact hfirst.not_spans [] 0 e
    · simp [findWith, hk] at hnone
  · have hfind := Ready.findAt observe (c :: rest) h seen 0 (c :: rest) rfl
    rw [show (m.findAt observe seen 0 (c :: rest)).2.2 = none from hnone] at hfind
    intro he
    rcases Nat.eq_or_lt_of_le hs with rfl | hlt
    · exact hfind 0 le_rfl (Nat.succ_pos _) 0 he.of_length
    · exact hfind s (Nat.zero_le s) hlt e he

end Find

variable (t : Table) (chars : List Char)

theorem traverse_new_eq_some_iff {start stop : Nat} :
    ((new t).traverse chars start).2 = some stop ↔ IsLeast {e | t.Spans chars start e} stop := by
  refine ⟨(ready_new t).traverseWith_eq_some _, fun hleast => ?_⟩
  rcases hrun : ((new t).traverse chars start).2 with _ | stop'
  · exact absurd hleast.1 ((ready_new t).traverseWith_eq_none _ hrun stop)
  · rw [((ready_new t).traverseWith_eq_some _ hrun).unique hleast]

theorem find_new_eq_some_iff {found : Match} : ((new t).find chars).2 = some found ↔
    found.IsFirst (t.Spans chars) chars.length := by
  refine ⟨(ready_new t).isFirst_of_findWith _, fun hfirst => ?_⟩
  rcases hrun : ((new t).find chars).2 with _ | found'
  · obtain ⟨hs, e, he⟩ := hfirst.1.1
    exact absurd he ((ready_new t).not_spans_of_findWith _ hrun hs e)
  · rw [((ready_new t).isFirst_of_findWith _ hrun).unique hfirst]

theorem traverse_new_eq_none_iff {start : Nat} :
    ((new t).traverse chars start).2 = none ↔ ∀ e, ¬ t.Spans chars start e := by
  refine ⟨(ready_new t).traverseWith_eq_none _, fun hnone => ?_⟩
  rcases hrun : ((new t).traverse chars start).2 with _ | stop
  · rfl
  · exact absurd ((ready_new t).traverseWith_eq_some _ hrun).1 (hnone stop)

theorem find_new_eq_none_iff : ((new t).find chars).2 = none ↔
    ∀ s ≤ chars.length, ∀ e, ¬ t.Spans chars s e := by
  refine ⟨fun hrun s hs => (ready_new t).not_spans_of_findWith _ hrun hs, fun hnone => ?_⟩
  rcases hrun : ((new t).find chars).2 with _ | found
  · rfl
  · have hfirst := (ready_new t).isFirst_of_findWith _ hrun
    exact absurd hfirst.2.1 (hnone _ hfirst.1.1.1 _)

/-- What is accepted before anything is read is found at the start of every line. -/
theorem find_new_of_accepts_nil (h : t.Accepts []) : ((new t).find chars).2 = some ⟨0, 0⟩ := by
  have hspans : t.Spans chars 0 0 := ⟨le_rfl, Nat.zero_le _, by simpa using h⟩
  exact (find_new_eq_some_iff t chars).mpr
    ⟨⟨⟨Nat.zero_le _, 0, hspans⟩, fun _ _ => Nat.zero_le _⟩, hspans, fun _ _ => Nat.zero_le _⟩

/-- On every table, with whatever loops and dead ends, a traversal stops at the first position up to
which a path accepts what stands there, and a search finds the first match; they come to nothing
only if there is none. -/
theorem traverse_find_first :
    (∀ start stop, ((new t).traverse chars start).2 = some stop ↔
      IsLeast {e | t.Spans chars start e} stop) ∧
    (∀ start, ((new t).traverse chars start).2 = none ↔ ∀ e, ¬ t.Spans chars start e) ∧
    (∀ found, ((new t).find chars).2 = some found ↔
      found.IsFirst (t.Spans chars) chars.length) ∧
    (((new t).find chars).2 = none ↔ ∀ s ≤ chars.length, ∀ e, ¬ t.Spans chars s e) :=
  ⟨fun _ _ => traverse_new_eq_some_iff t chars, fun _ => traverse_new_eq_none_iff t chars,
    fun _ => find_new_eq_some_iff t chars, find_new_eq_none_iff t chars⟩

end Matcher

end PatternScan
