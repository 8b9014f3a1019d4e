import PatternScan.Simulate.Frontier
import PatternScan.Table.Basic

/-!
# Matching a line

A traversal starts at a position of the line and explores the states that the characters read so
far lead to, all of them before the next character is read. It ends at the first position where
acceptance is reached. A search tries one start after the other. What happens along the way is
reported to an observer, and the frontier is used again and again.
-/

namespace PatternScan

/-- What a match spans, in characters of the line. -/
structure Match where
  start : Nat
  stop : Nat
  deriving DecidableEq, Repr

/-- What happens in a traversal: it starts at a position, passes a branch, reads or does not read
the character at a position (there is none at the end of the line), moves on to a position with a
number of states, and ends. -/
inductive TraversalEvent
  | start (pos : Nat)
  | branch (pos id : Nat) (s : State)
  | consume (pos id : Nat) (s : State) (c : Char)
  | drop (pos id : Nat) (s : State) (c? : Option Char)
  | advance (pos carried : Nat)
  | accept (pos : Nat)
  | reject (pos : Nat)
  deriving DecidableEq, Repr

/-- A traversal under way: the frontier, the present position and the characters from there on. -/
structure Traversal where
  frontier : Frontier
  pos : Nat
  rest : List Char

/-- What one step of a traversal comes to: it goes on, or ends at a position with or without a
match. -/
inductive TraversalStep
  | more (t : Traversal)
  | accepted (frontier : Frontier) (pos : Nat)
  | rejected (frontier : Frontier)

namespace Traversal

/-- The start of a traversal at the position before `rest`. -/
def start (frontier : Frontier) (pos : Nat) (rest : List Char) : Traversal :=
  ⟨frontier.reset (.state 0), pos, rest⟩

/-- Explores a state for the first time at the present position. -/
def expand (t : Traversal) (id : Nat) (s : State) : TraversalEvent × Traversal :=
  let f := t.frontier.visit id
  match s.kind with
  | .branch =>
    let f := if s.second = s.first then f else f.pushNow s.second
    (.branch t.pos id s, { t with frontier := f.pushNow s.first })
  | kind =>
    match t.rest.head? with
    | some c =>
      if kind.accepts c then (.consume t.pos id s c, { t with frontier := f.defer s.first })
      else (.drop t.pos id s (some c), { t with frontier := f })
    | none => (.drop t.pos id s none, { t with frontier := f })

/-- One step, with what happens in it: the next state is explored, unless it has been at this
position, or if there is none the next character is read. -/
def step (table : Table) (t : Traversal) : Option TraversalEvent × TraversalStep :=
  match t.frontier.pop? with
  | some (.final, f) => (some (.accept t.pos), .accepted f t.pos)
  | some (.state id, f) =>
    match table.get? id with
    | none => (none, .more { t with frontier := f })
    | some s =>
      if f.isUnvisited id then
        let (event, t) := expand { t with frontier := f } id s
        (some event, .more t)
      else (none, .more { t with frontier := f })
  | none =>
    match t.rest, t.frontier.advance? with
    | _ :: rest, some f =>
      (some (.advance (t.pos + 1) t.frontier.deferred.length), .more ⟨f, t.pos + 1, rest⟩)
    | _, _ => (some (.reject t.pos), .rejected t.frontier)

/-- The characters to read, the states to visit before the next one, and the length of the stack. -/
def measure (t : Traversal) : Nat × Nat × Nat :=
  (t.rest.length, t.frontier.unvisited, t.frontier.work.length)

theorem expand_rest (t : Traversal) (id : Nat) (s : State) : (t.expand id s).2.rest = t.rest := by
  unfold expand
  split
  · rfl
  · split
    · split <;> rfl
    · rfl

theorem expand_unvisited (t : Traversal) (id : Nat) (s : State) :
    (t.expand id s).2.frontier.unvisited = (t.frontier.visit id).unvisited := by
  unfold expand
  split
  · split <;> rfl
  · split
    · split <;> rfl
    · rfl

/-- A step that does not end the traversal reads a character, visits a state or shortens the
stack. -/
theorem measure_lt_of_step {table : Table} {t t' : Traversal} (h : (t.step table).2 = .more t') :
    WellFoundedRelation.rel t'.measure t.measure := by
  unfold step at h
  split at h
  · simp at h
  · rename_i id f hpop
    obtain ⟨hwork, hmarks, hepoch⟩ :
        f.work.length < t.frontier.work.length ∧ f.marks = t.frontier.marks ∧
          f.epoch = t.frontier.epoch := by
      unfold Frontier.pop? at hpop
      split at hpop <;> simp_all
      obtain ⟨-, rfl⟩ := hpop
      simp
    have hunvisited : f.unvisited = t.frontier.unvisited := by
      simp [Frontier.unvisited, hmarks, hepoch]
    split at h
    · simp only [TraversalStep.more.injEq] at h
      subst h
      exact Prod.Lex.right _ (hunvisited ▸ Prod.Lex.right _ hwork)
    · split at h
      · rename_i hfirst
        simp only [TraversalStep.more.injEq] at h
        subst h
        have hlt := hunvisited ▸ Frontier.unvisited_visit_lt hfirst
        simp only [measure, expand_rest, expand_unvisited]
        exact Prod.Lex.right _ (Prod.Lex.left _ _ hlt)
      · simp only [TraversalStep.more.injEq] at h
        subst h
        exact Prod.Lex.right _ (hunvisited ▸ Prod.Lex.right _ hwork)
  · split at h
    · rename_i rest f hrest _
      simp only [TraversalStep.more.injEq] at h
      subst h
      refine Prod.Lex.left _ _ ?_
      rw [hrest]
      exact Nat.lt_succ_self rest.length
    · simp at h

/-- Takes a traversal to its end, with an observer who is told what happens: what the observer
makes of it, the frontier that is left, and the position of acceptance, if it is reached. -/
def run {σ : Type} (table : Table) (observe : σ → TraversalEvent → σ) (seen : σ) (t : Traversal) :
    σ × Frontier × Option Nat :=
  let seen' := (t.step table).1.elim seen (observe seen)
  match _step : (t.step table).2 with
  | .more t' => t'.run table observe seen'
  | .accepted f pos => (seen', f, some pos)
  | .rejected f => (seen', f, none)
termination_by t.measure
decreasing_by exact measure_lt_of_step _step

end Traversal

/-- Matches lines against a table, with a frontier of its own that it uses again and again. -/
structure Matcher where
  table : Table
  frontier : Frontier

namespace Matcher

def new (table : Table) : Matcher :=
  ⟨table, .ofSize table.size⟩

variable {σ : Type}

/-- Traverses a line from a position, after which comes `rest`, with an observer: the position of
acceptance, if it is reached. -/
def traverseAt (m : Matcher) (observe : σ → TraversalEvent → σ) (seen : σ) (pos : Nat)
    (rest : List Char) : σ × Matcher × Option Nat :=
  let (seen, frontier, stop?) :=
    (Traversal.start m.frontier pos rest).run m.table observe (observe seen (.start pos))
  (seen, { m with frontier }, stop?)

/-- Traverses a line from a position, which may lie past its end, with an observer. -/
def traverseWith (m : Matcher) (observe : σ → TraversalEvent → σ) (seen : σ) (line : List Char)
    (pos : Nat) : σ × Matcher × Option Nat :=
  m.traverseAt observe seen pos (line.drop pos)

/-- Tries one start after the other, up to the one before the last character. -/
def findAt (m : Matcher) (observe : σ → TraversalEvent → σ) (seen : σ) (pos : Nat) :
    List Char → σ × Matcher × Option Match
  | [] => (seen, m, none)
  | c :: rest =>
    match m.traverseAt observe seen pos (c :: rest) with
    | (seen, m, some stop) => (seen, m, some ⟨pos, stop⟩)
    | (seen, m, none) => m.findAt observe seen (pos + 1) rest

/-- Finds the match of a line that starts first, with an observer. An empty line has one start. -/
def findWith (m : Matcher) (observe : σ → TraversalEvent → σ) (seen : σ) :
    List Char → σ × Matcher × Option Match
  | [] =>
    let (seen, m, stop?) := m.traverseAt observe seen 0 []
    (seen, m, stop?.map (⟨0, ·⟩))
  | line => m.findAt observe seen 0 line

def traverse (m : Matcher) (line : List Char) (pos : Nat) : Matcher × Option Nat :=
  (m.traverseWith (fun _ _ => ()) () line pos).2

/-- Finds the match of a line that starts first. -/
def find (m : Matcher) (line : List Char) : Matcher × Option Match :=
  (m.findWith (fun _ _ => ()) () line).2

end Matcher

end PatternScan
