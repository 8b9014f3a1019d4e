import PatternScan.Search.Event
import PatternScan.Search.Lines

/-!
# What a search is to tell

The events of lines are those of each line on its own, found by a matcher that has matched nothing
yet. A sink is told them in order until it fails. A limit on the matches leaves the lines up to the
last match within it.
-/

namespace PatternScan

namespace SearchEvent

def number : SearchEvent → Nat
  | .matched m => m.number
  | .skipped line _ => line

def isMatch : SearchEvent → Bool
  | .matched _ => true
  | .skipped _ _ => false

end SearchEvent

/-- How many lines match. -/
def matchCount (events : List SearchEvent) : Nat :=
  events.countP SearchEvent.isMatch

/-- How many lines are skipped. -/
def skipCount (events : List SearchEvent) : Nat :=
  events.countP (!·.isMatch)

/-- The line of the match with the given number, counted from one, and 0 before all matches. -/
def lineOfMatch (events : List SearchEvent) : Nat → Nat
  | 0 => 0
  | k + 1 => (events.filter SearchEvent.isMatch)[k]?.elim 0 SearchEvent.number

namespace Table

/-- The event of a line, which may have an end: it is skipped if it is not text, it may match, or
there is nothing to tell. -/
def eventOf? (t : Table) (number : Nat) (line : List UInt8) : Option SearchEvent :=
  match Utf8.decode (trimLine line) with
  | .error e => some (.skipped number e)
  | .ok text => ((Matcher.new t).find text).2.map fun found => .matched ⟨number, found, text⟩

/-- The events of lines, the first of which has the given number. -/
def eventsFrom (t : Table) (number : Nat) (lines : List (List UInt8)) : List SearchEvent :=
  (lines.zipIdx number).filterMap fun (line, number) => t.eventOf? number line

end Table

/-- Tells a sink events in order, up to the match it fails on. -/
def Sink.deliver {σ : Type} (sink : Sink σ) (state : σ) :
    List SearchEvent → σ × Except (List Char) Unit
  | [] => (state, .ok ())
  | .skipped line e :: events => sink.deliver (sink.skipped state line e) events
  | .matched m :: events =>
    match sink.matched state m with
    | (state, .ok ()) => sink.deliver state events
    | (state, .error reason) => (state, .error reason)

/-- The lines up to the one at which so many have matched, the first of which has the given
number. -/
def Table.linesWithin (t : Table) : Option Nat → Nat → List (List UInt8) → List (List UInt8)
  | some 0, _, _ => []
  | _, _, [] => []
  | limit?, number, line :: lines =>
    let limit? := limit?.map (· - matchCount (t.eventOf? number line).toList)
    line :: t.linesWithin limit? (number + 1) lines

/-- The counts after so many more lines with these events. -/
def SearchStats.after (stats : SearchStats) (lines : Nat) (events : List SearchEvent) :
    SearchStats :=
  ⟨stats.lines + lines, stats.matched + matchCount events, stats.skipped + skipCount events⟩

/-- What a search comes to when its sink has been told as much as it takes: where neither the sink
nor the limit has stopped the search, the source ends or fails. -/
def Source.outcome (source : Source) (limit? : Option Nat) (stats : SearchStats) :
    Except (List Char) Unit → Except SearchError SearchStats
  | .error reason => .error (.sink reason)
  | .ok () =>
    if stats.reached limit? then .ok stats
    else
      match source.failure? with
      | none => .ok stats
      | some reason => .error (.read (stats.lines + 1) reason)

/-- The events of the lines that can be read: those of the lines that have an end, if the source
fails after them. -/
def Source.readable (source : Source) (events : List SearchEvent) : List SearchEvent :=
  match source.failure? with
  | none => events
  | some _ => events.filter (·.number ≤ source.bytes.count Source.lineFeed)

/-- The shortest beginning of the events that has so many matches. -/
def IsShortest (k : Nat) (events told : List SearchEvent) : Prop :=
  told <+: events ∧ matchCount told = k ∧ ∀ p, p <+: events → matchCount p = k → told <+: p

/-- A searcher that was made for a table and a limit, and may have searched sources before. -/
inductive Searcher.Built (t : Table) (limit? : Option Nat) : Searcher → Prop
  | new : Built t limit? (.new t limit?)
  | search {s : Searcher} {σ : Type} (h : Built t limit? s) (sink : Sink σ) (state : σ)
      (source : Source) : Built t limit? (s.search sink state source).2.1

/-- A search that goes on from here gives the text to its matcher: it is that of the next line, or
of a later one. -/
inductive Searcher.Hands {σ : Type} (sink : Sink σ) (text : List Char) :
    Searcher → σ → SearchStats → Source → Prop
  | next {s : Searcher} {state : σ} {stats : SearchStats} {source rest : Source}
      {line : List UInt8} : ¬ stats.reached s.maxCount? → source.readLine = .line line rest →
      Utf8.decode (trimLine line) = .ok text → Hands sink text s state stats source
  | interrupted {s : Searcher} {state : σ} {stats : SearchStats} {source rest : Source} :
      ¬ stats.reached s.maxCount? → source.readLine = .interrupted rest →
      Hands sink text s state stats rest → Hands sink text s state stats source
  | later {s : Searcher} {matcher : Matcher} {state state' : σ} {stats stats' : SearchStats}
      {source rest : Source} {line : List UInt8} : ¬ stats.reached s.maxCount? →
      source.readLine = .line line rest →
      Searcher.searchLine s.matcher sink state stats (trimLine line) =
        (state', matcher, stats', .ok ()) →
      Hands sink text { s with matcher } state' stats' rest → Hands sink text s state stats source

section Count

variable (events rest : List SearchEvent)

theorem matchCount_append : matchCount (events ++ rest) = matchCount events + matchCount rest :=
  List.countP_append

theorem skipCount_append : skipCount (events ++ rest) = skipCount events + skipCount rest :=
  List.countP_append

variable {events}

theorem matchCount_matched (m : LineMatch) :
    matchCount (.matched m :: events) = matchCount events + 1 :=
  List.countP_cons_of_pos rfl

theorem matchCount_skipped (line : Nat) (e : Utf8.DecodeError) :
    matchCount (.skipped line e :: events) = matchCount events :=
  List.countP_cons_of_neg Bool.false_ne_true

end Count

theorem Table.eventsFrom_nil (t : Table) (number : Nat) : t.eventsFrom number [] = [] :=
  rfl

theorem Table.eventsFrom_cons (t : Table) (number : Nat) (line : List UInt8)
    (lines : List (List UInt8)) : t.eventsFrom number (line :: lines) =
      (t.eventOf? number line).toList ++ t.eventsFrom (number + 1) lines := by
  rw [eventsFrom, List.zipIdx_cons]
  rcases h : t.eventOf? number line with _ | event
  · exact List.filterMap_cons_none h
  · exact List.filterMap_cons_some h

theorem Table.eventsFrom_append (t : Table) (lines' : List (List UInt8)) :
    ∀ (lines : List (List UInt8)) (number : Nat), t.eventsFrom number (lines ++ lines') =
      t.eventsFrom number lines ++ t.eventsFrom (number + lines.length) lines'
  | [], _ => rfl
  | line :: lines, number => by
    rw [List.cons_append, eventsFrom_cons, eventsFrom_cons, eventsFrom_append t lines' lines,
      List.append_assoc, List.length_cons, Nat.add_assoc, Nat.add_comm 1]

theorem Table.linesWithin_zero (t : Table) (number : Nat) (lines : List (List UInt8)) :
    t.linesWithin (some 0) number lines = [] := by
  cases lines <;> rfl

theorem Table.linesWithin_nil (t : Table) (limit? : Option Nat) (number : Nat) :
    t.linesWithin limit? number [] = [] := by
  rcases limit? with _ | _ | k <;> rfl

theorem Table.linesWithin_cons (t : Table) {limit? : Option Nat} (h : limit? ≠ some 0)
    (number : Nat) (line : List UInt8) (lines : List (List UInt8)) :
    t.linesWithin limit? number (line :: lines) =
      line :: t.linesWithin (limit?.map (· - matchCount (t.eventOf? number line).toList))
        (number + 1) lines := by
  rw [linesWithin]
  exact h

theorem Table.linesWithin_none (t : Table) : ∀ (number : Nat) (lines : List (List UInt8)),
    t.linesWithin none number lines = lines
  | _, [] => rfl
  | number, line :: lines => congrArg (line :: ·) (t.linesWithin_none (number + 1) lines)

theorem SearchStats.reached_iff (stats : SearchStats) (limit? : Option Nat) :
    stats.reached limit? ↔ limit?.map (· - stats.matched) = some 0 := by
  rcases limit? with _ | k
  · simp [reached]
  · simp [reached, Nat.sub_eq_zero_iff_le]

theorem Source.outcome_of_le (source : Source) {stats : SearchStats} {k : Nat}
    (h : k ≤ stats.matched) : source.outcome (some k) stats (.ok ()) = .ok stats :=
  if_pos (decide_eq_true h)

theorem Source.outcome_of_forall_lt (source : Source) {limit? : Option Nat} {stats : SearchStats}
    (h : ∀ k ∈ limit?, stats.matched < k) : source.outcome limit? stats (.ok ()) =
      match source.failure? with
      | none => .ok stats
      | some reason => .error (.read (stats.lines + 1) reason) := by
  refine if_neg ?_
  rcases limit? with _ | k
  · exact Bool.false_ne_true
  · exact fun hle => absurd (of_decide_eq_true hle) (Nat.not_le.mpr (h k rfl))

theorem SearchStats.map_sub_zero (limit? : Option Nat) :
    limit?.map (· - SearchStats.zero.matched) = limit? := by
  rcases limit? with _ | k <;> rfl

theorem SearchStats.zero_after (lines : Nat) (events : List SearchEvent) :
    SearchStats.zero.after lines events = ⟨lines, matchCount events, skipCount events⟩ := by
  simp only [after, zero, Nat.zero_add]

theorem SearchStats.map_sub_after (stats : SearchStats) (lines : Nat)
    (events : List SearchEvent) (limit? : Option Nat) :
    (limit?.map (· - stats.matched)).map (· - matchCount events) =
      limit?.map (· - (stats.after lines events).matched) := by
  rcases limit? with _ | k
  · rfl
  · exact congrArg some (Nat.sub_sub k stats.matched (matchCount events))

theorem SearchStats.after_after (stats : SearchStats) (lines lines' : Nat)
    (events events' : List SearchEvent) : (stats.after lines events).after lines' events' =
      stats.after (lines' + lines) (events ++ events') := by
  simp only [after, matchCount_append, skipCount_append, Nat.add_assoc, Nat.add_comm lines']

theorem Sink.deliver_matched {σ : Type} (sink : Sink σ) (state : σ) (m : LineMatch) :
    sink.deliver state [.matched m] = sink.matched state m := by
  unfold deliver
  rcases sink.matched state m with ⟨state, reason | _⟩
  · rfl
  · rfl

theorem Sink.deliver_append {σ : Type} (sink : Sink σ) (rest : List SearchEvent) :
    ∀ (events : List SearchEvent) (state : σ), sink.deliver state (events ++ rest) =
      match sink.deliver state events with
      | (state, .ok ()) => sink.deliver state rest
      | (state, .error reason) => (state, .error reason)
  | [], _ => rfl
  | .skipped line e :: events, state => sink.deliver_append rest events _
  | .matched m :: events, state => by
    rw [List.cons_append, deliver, deliver]
    rcases sink.matched state m with ⟨state, reason | _⟩
    · rfl
    · exact sink.deliver_append rest events state

end PatternScan
