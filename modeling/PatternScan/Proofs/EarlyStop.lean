import PatternScan.Proofs.Delivery

/-!
# Searches that stop early

A search may stop at its limit, at a match that its sink fails on, or where its source fails. In
each case it has told the beginning of what the search of the same bytes tells that nothing stops:
the events up to the last match of the limit (`Table.eventsFrom_linesWithin`), those before the
match that the sink fails on (`EventLog.deliver_failed`), or those of the lines that have an end
(`Table.readable_eventsFrom`).
-/

namespace PatternScan

open Source (lineFeed)

section Split

variable {before after : List SearchEvent} {m : LineMatch}

theorem exists_match_of_lt : ∀ {events : List SearchEvent} {k : Nat}, k < matchCount events →
    ∃ before m after, events = before ++ .matched m :: after ∧ matchCount before = k
  | .skipped line e :: events, k, h => by
    rw [matchCount_skipped] at h
    obtain ⟨before, m, after, rfl, hbefore⟩ := exists_match_of_lt h
    exact ⟨.skipped line e :: before, m, after, rfl, (matchCount_skipped line e).trans hbefore⟩
  | .matched m :: events, 0, _ => ⟨[], m, events, rfl, rfl⟩
  | .matched m' :: events, k + 1, h => by
    rw [matchCount_matched] at h
    obtain ⟨before, m, after, rfl, hbefore⟩ := exists_match_of_lt (Nat.lt_of_succ_lt_succ h)
    exact ⟨.matched m' :: before, m, after, rfl,
      (matchCount_matched m').trans (congrArg (· + 1) hbefore)⟩

theorem isShortest_of_split :
    IsShortest (matchCount before + 1) (before ++ .matched m :: after)
      (before ++ [.matched m]) := by
  have htold : before ++ [.matched m] <+: before ++ .matched m :: after := ⟨after, by simp⟩
  refine ⟨htold, matchCount_append before _, fun p hp hcount => ?_⟩
  rcases List.prefix_or_prefix_of_prefix htold hp with h | h
  · exact h
  · rcases List.prefix_concat_iff.mp h with rfl | ⟨rest, rfl⟩
    · exact List.prefix_refl _
    · rw [matchCount_append] at hcount
      omega

theorem lineOfMatch_of_split :
    lineOfMatch (before ++ .matched m :: after) (matchCount before + 1) = m.number := by
  have hfilter : (before ++ .matched m :: after).filter SearchEvent.isMatch =
      before.filter SearchEvent.isMatch ++ .matched m :: after.filter SearchEvent.isMatch := by
    rw [List.filter_append, List.filter_cons_of_pos rfl]
  rw [lineOfMatch, hfilter, matchCount, List.countP_eq_length_filter,
    List.getElem?_append_right le_rfl, Nat.sub_self]
  rfl

end Split

theorem isShortest_zero (events : List SearchEvent) : IsShortest 0 events [] :=
  ⟨List.nil_prefix, rfl, fun _ _ _ => List.nil_prefix⟩

namespace Table

variable {t : Table}

theorem number_of_eventOf? {number : Nat} {line : List UInt8} {event : SearchEvent}
    (h : t.eventOf? number line = some event) : event.number = number := by
  unfold eventOf? at h
  split at h
  · exact congrArg SearchEvent.number (Option.some.inj h).symm
  · obtain ⟨found, -, rfl⟩ := Option.map_eq_some_iff.mp h
    rfl

theorem linesWithin_of_lt : ∀ {lines : List (List UInt8)} {number k : Nat},
    matchCount (t.eventsFrom number lines) < k → t.linesWithin (some k) number lines = lines
  | [], number, k, _ => t.linesWithin_nil (some k) number
  | line :: lines, number, k, h => by
    rw [eventsFrom_cons, matchCount_append] at h
    rw [linesWithin_cons _ (by simp; omega), Option.map_some, linesWithin_of_lt (by omega)]

theorem linesWithin_of_forall_lt {limit? : Option Nat} {lines : List (List UInt8)} {number : Nat}
    (h : ∀ k ∈ limit?, matchCount (t.eventsFrom number lines) < k) :
    t.linesWithin limit? number lines = lines := by
  rcases limit? with _ | k
  · exact t.linesWithin_none number lines
  · exact linesWithin_of_lt (h k rfl)

theorem linesWithin_of_split {m : LineMatch} {after : List SearchEvent} :
    ∀ {lines : List (List UInt8)} {number : Nat} {before : List SearchEvent},
      t.eventsFrom number lines = before ++ .matched m :: after →
      let read := t.linesWithin (some (matchCount before + 1)) number lines
      t.eventsFrom number read = before ++ [.matched m] ∧ number + read.length = m.number + 1
  | [], _, _, h => absurd h.symm (List.append_ne_nil_of_right_ne_nil _ (List.cons_ne_nil _ _))
  | line :: lines, number, before, h => by
    dsimp only
    rw [eventsFrom_cons] at h
    rw [linesWithin_cons _ (by simp), eventsFrom_cons, List.length_cons, Option.map_some]
    rcases hevent : t.eventOf? number line with _ | event
    · rw [hevent] at h
      have hlimit : matchCount before + 1 - matchCount [] = matchCount before + 1 := rfl
      obtain ⟨hevents, hlength⟩ := linesWithin_of_split h
      rw [Option.toList_none, hlimit, hevents]
      exact ⟨rfl, by omega⟩
    · rw [hevent] at h
      rcases before with _ | ⟨event', before⟩
      · obtain ⟨rfl, -⟩ := List.cons.inj h
        have hlimit : matchCount [] + 1 - matchCount [SearchEvent.matched m] = 0 := rfl
        have hnumber : m.number = number := number_of_eventOf? hevent
        rw [Option.toList_some, hlimit, linesWithin_zero]
        exact ⟨rfl, by rw [hnumber, List.length_nil]⟩
      · obtain ⟨rfl, hrest⟩ := List.cons.inj h
        have hlimit : matchCount (event :: before) + 1 - matchCount [event] =
            matchCount before + 1 := by
          have := matchCount_append [event] before
          rw [List.singleton_append] at this
          omega
        obtain ⟨hevents, hlength⟩ := linesWithin_of_split hrest
        rw [Option.toList_some, hlimit, hevents]
        exact ⟨rfl, by omega⟩

/-- The lines within a limit have the shortest beginning of the events, if the limit is reached. -/
theorem eventsFrom_linesWithin {lines : List (List UInt8)} (rest : List SearchEvent) {k : Nat}
    (h : k ≤ matchCount (t.eventsFrom 1 lines)) :
    let events := t.eventsFrom 1 lines ++ rest
    let read := t.linesWithin (some k) 1 lines
    IsShortest k events (t.eventsFrom 1 read) ∧ read.length = lineOfMatch events k := by
  dsimp only
  rcases k with _ | k
  · rw [linesWithin_zero]
    exact ⟨isShortest_zero _, rfl⟩
  · obtain ⟨before, m, after, hsplit, rfl⟩ := exists_match_of_lt h
    obtain ⟨hevents, hlength⟩ := linesWithin_of_split hsplit
    rw [hevents, hsplit, List.append_assoc, List.cons_append]
    exact ⟨isShortest_of_split, by rw [lineOfMatch_of_split]; omega⟩

theorem number_of_mem_eventsFrom {event : SearchEvent} : ∀ {lines : List (List UInt8)}
    {number : Nat}, event ∈ t.eventsFrom number lines →
      number ≤ event.number ∧ event.number < number + lines.length
  | line :: lines, number, h => by
    rw [eventsFrom_cons] at h
    rw [List.length_cons]
    rcases List.mem_append.mp h with h | h
    · have := number_of_eventOf? (Option.mem_toList.mp h)
      omega
    · have := number_of_mem_eventsFrom h
      omega

/-- The events that can be read are those of the lines of the source, and begin those of all
lines. -/
theorem readable_eventsFrom (t : Table) (source : Source) :
    source.readable (t.eventsFrom 1 (allLines source.bytes)) = t.eventsFrom 1 source.lines ∧
      ∃ rest, t.eventsFrom 1 (allLines source.bytes) = t.eventsFrom 1 source.lines ++ rest := by
  unfold Source.readable Source.lines
  rcases source.failure? with _ | reason
  · exact ⟨rfl, [], (List.append_nil _).symm⟩
  · obtain ⟨rest, hrest⟩ := exists_allLines_eq source.bytes
    simp only [hrest, eventsFrom_append, length_endedLines, List.filter_append]
    refine ⟨?_, _, rfl⟩
    -- A line that lacks its end has a number past the count of the line feeds, the others have not.
    have hended : ∀ event ∈ t.eventsFrom 1 (endedLines source.bytes),
        event.number ≤ source.bytes.count lineFeed := by
      intro event hevent
      have := number_of_mem_eventsFrom hevent
      rw [length_endedLines] at this
      omega
    have hlast : ∀ event ∈ t.eventsFrom (1 + source.bytes.count lineFeed) rest,
        ¬ event.number ≤ source.bytes.count lineFeed := by
      intro event hevent
      have := number_of_mem_eventsFrom hevent
      omega
    rw [List.filter_eq_self.mpr (by simpa using hended),
      List.filter_eq_nil_iff.mpr (by simpa using hlast), List.append_nil]

end Table

namespace EventLog

/-- A log that fails at a match has kept what came before it. -/
theorem deliver_failed {log : EventLog} {before after : List SearchEvent} {m : LineMatch}
    {failAt? : Option Nat} {reason : List Char}
    (hfail : failAt? = some (log.matched + matchCount before + 1)) :
    (sink failAt? reason true).deliver log (before ++ .matched m :: after) =
      (⟨before.reverse ++ log.events, log.matched + matchCount before⟩, .error reason) := by
  have hbefore : ∀ j ∈ failAt?, j ≤ log.matched ∨ log.matched + matchCount before < j := by
    intro j hj
    obtain rfl := Option.some.inj (hfail.symm.trans hj)
    exact .inr (Nat.lt_succ_self _)
  have hmatched : (sink failAt? reason true).matched
      ⟨before.reverse ++ log.events, log.matched + matchCount before⟩ m =
        (⟨before.reverse ++ log.events, log.matched + matchCount before⟩, .error reason) :=
    sink_matched_of_eq hfail m
  rw [Sink.deliver_append, deliver_eq before log hbefore]
  simp only [Sink.deliver, hmatched]

end EventLog

namespace Searcher

variable {t : Table} {limit? : Option Nat} {s : Searcher}

/-- What is told where nothing stops the search. -/
theorem searchEvents_new (t : Table) (bytes : List UInt8) :
    ((new t none).searchEvents none [] true (.ofBytes bytes)).1 =
      t.eventsFrom 1 (allLines bytes) := by
  have hbuilt : (new t none).Built t none := .new
  have hrun := hbuilt.searchEvents_eq none [] (.ofBytes bytes) (fun _ => nofun)
  rw [Table.linesWithin_none] at hrun
  exact hrun.1

theorem Built.searchEvents_failed (h : s.Built t limit?) (reason : List Char) (source : Source)
    {before after : List SearchEvent} {m : LineMatch}
    (htold : t.eventsFrom 1 (t.linesWithin limit? 1 source.lines) =
      before ++ .matched m :: after) :
    (s.searchEvents (some (matchCount before + 1)) reason true source).1 = before ∧
      (s.searchEvents (some (matchCount before + 1)) reason true source).2.2 =
        .error (.sink reason) := by
  obtain ⟨hlog, hresult⟩ := h.search_eq
    (EventLog.sink (some (matchCount before + 1)) reason true) .empty source
  have hfailed : (EventLog.sink (some (matchCount before + 1)) reason true).deliver .empty
      (before ++ .matched m :: after) =
        (⟨before.reverse ++ [], 0 + matchCount before⟩, .error reason) :=
    EventLog.deliver_failed (congrArg (fun k => some (k + 1)) (Nat.zero_add _).symm)
  rw [htold, hfailed] at hlog hresult
  refine ⟨?_, hresult⟩
  have hevents := congrArg (·.events.reverse) hlog
  rwa [List.append_nil, List.reverse_reverse] at hevents

section Source

variable {source : Source} {events rest : List SearchEvent} {failAt? : Option Nat}
  (hevents : events = t.eventsFrom 1 source.lines ++ rest) (reason : List Char)
include hevents

theorem Built.stops_at_limit {k : Nat} (h : s.Built t (some k))
    (hcount : k ≤ matchCount (t.eventsFrom 1 source.lines))
    (hfail : ∀ j ∈ failAt?, j = 0 ∨ k < j) :
    let run := s.searchEvents failAt? reason true source
    IsShortest k events run.1 ∧
      run.2.2 = .ok ⟨lineOfMatch events k, matchCount run.1, skipCount run.1⟩ := by
  intro run
  obtain ⟨hshortest, hlines⟩ := Table.eventsFrom_linesWithin rest hcount
  rw [← hevents] at hshortest hlines
  obtain ⟨hrun, hresult⟩ := h.searchEvents_eq failAt? reason source
    (by rwa [hshortest.2.1])
  rw [source.outcome_of_le hshortest.2.1.ge, hlines, ← hrun] at hresult
  exact ⟨hrun ▸ hshortest, hresult⟩

theorem Built.stops_at_sink {j : Nat} (h : s.Built t limit?) (hpos : 0 < j)
    (hcount : j ≤ matchCount (t.eventsFrom 1 source.lines)) (hlimit : ∀ k ∈ limit?, j ≤ k) :
    let run := s.searchEvents (some j) reason true source
    (∃ m after, events = run.1 ++ .matched m :: after ∧ matchCount run.1 + 1 = j) ∧
      run.2.2 = .error (.sink reason) := by
  intro run
  -- A limit that is not below `j` leaves so many matches to tell, be it reached or not.
  have htold : t.eventsFrom 1 (t.linesWithin limit? 1 source.lines) <+: events ∧
      j ≤ matchCount (t.eventsFrom 1 (t.linesWithin limit? 1 source.lines)) := by
    by_cases hlt : ∀ k ∈ limit?, matchCount (t.eventsFrom 1 source.lines) < k
    · rw [Table.linesWithin_of_forall_lt hlt]
      exact ⟨⟨rest, hevents.symm⟩, hcount⟩
    · push Not at hlt
      obtain ⟨k, rfl, hle⟩ := hlt
      obtain ⟨hshortest, -⟩ := Table.eventsFrom_linesWithin rest hle
      rw [← hevents] at hshortest
      exact ⟨hshortest.1, (hlimit k rfl).trans hshortest.2.1.ge⟩
  obtain ⟨⟨rest', hrest'⟩, hle⟩ := htold
  obtain ⟨before, m, after, hsplit, hbefore⟩ := exists_match_of_lt (Nat.sub_one_lt_of_le hpos hle)
  obtain rfl : matchCount before + 1 = j := by omega
  obtain ⟨hrun, hresult⟩ := h.searchEvents_failed reason source hsplit
  have hrun : run.1 = before := hrun
  refine ⟨⟨m, after ++ rest', ?_, by rw [hrun]⟩, hresult⟩
  rw [hrun, ← hrest', hsplit, List.append_assoc, List.cons_append]

omit hevents in
theorem Built.reads_all (h : s.Built t limit?)
    (hlimit : ∀ k ∈ limit?, matchCount (t.eventsFrom 1 source.lines) < k)
    (hfail : ∀ j ∈ failAt?, j = 0 ∨ matchCount (t.eventsFrom 1 source.lines) < j) :
    let run := s.searchEvents failAt? reason true source
    run.1 = t.eventsFrom 1 source.lines ∧
      run.2.2 =
        match source.failure? with
        | none => .ok ⟨source.lines.length, matchCount run.1, skipCount run.1⟩
        | some cause => .error (.read (source.lines.length + 1) cause) := by
  intro run
  have hread := Table.linesWithin_of_forall_lt hlimit
  obtain ⟨hrun, hresult⟩ := h.searchEvents_eq failAt? reason source (by rwa [hread])
  rw [hread] at hrun hresult
  rw [source.outcome_of_forall_lt hlimit, ← hrun] at hresult
  exact ⟨hrun, hresult⟩

end Source

/-- What stops a search early leaves the beginning of what is told otherwise: up to the match of the
limit, up to before the match that the sink fails on, or the events of the lines that have an end.
Interrupted reads change nothing. -/
theorem search_stops_early (h : s.Built t limit?) (n : Nat) (bytes : List UInt8)
    (failure? : Option (List Char)) (failAt? : Option Nat) (reason : List Char) :
    let source : Source := ⟨n, bytes, failure?⟩
    let events := ((new t none).searchEvents none [] true (.ofBytes bytes)).1
    let readable := source.readable events
    let run := s.searchEvents failAt? reason true source
    (∀ k ∈ limit?, k ≤ matchCount readable → (∀ j ∈ failAt?, j = 0 ∨ k < j) →
      IsShortest k events run.1 ∧
        run.2.2 = .ok ⟨lineOfMatch events k, matchCount run.1, skipCount run.1⟩) ∧
    (∀ j ∈ failAt?, 0 < j → j ≤ matchCount readable → (∀ k ∈ limit?, j ≤ k) →
      (∃ m after, events = run.1 ++ .matched m :: after ∧ matchCount run.1 + 1 = j) ∧
        run.2.2 = .error (.sink reason)) ∧
    ((∀ k ∈ limit?, matchCount readable < k) →
      (∀ j ∈ failAt?, j = 0 ∨ matchCount readable < j) →
      run.1 = readable ∧ run.2.2 =
        match failure? with
        | none => .ok ⟨(allLines bytes).length, matchCount events, skipCount events⟩
        | some cause => .error (.read (bytes.count lineFeed + 1) cause)) ∧
    ∀ {σ : Type} (sink : Sink σ) (state : σ),
      s.search sink state source = s.search sink state { source with interruptions := 0 } := by
  dsimp only
  rw [searchEvents_new]
  obtain ⟨hreadable, rest, hevents⟩ := t.readable_eventsFrom ⟨n, bytes, failure?⟩
  rw [hreadable]
  refine ⟨?_, ?_, fun hlimit hfail => ?_,
    fun sink state => search_interruptions s sink state n bytes failure?⟩
  · rintro k rfl hcount hfail
    exact h.stops_at_limit hevents reason hcount hfail
  · rintro j rfl hpos hcount hlimit
    exact h.stops_at_sink hevents reason hpos hcount hlimit
  · obtain ⟨hrun, hresult⟩ := h.reads_all reason hlimit hfail
    refine ⟨hrun, hresult.trans ?_⟩
    rw [hrun]
    rcases failure? with _ | cause
    · rfl
    · rw [← length_endedLines]
      rfl

/-- The limit is reached on the last line before the source fails. A sink that fails on the match of
the limit stops the search before it, and with a higher limit the failure of the source does. -/
theorem search_stops_early_together :
    let t : Table := ⟨#[⟨.branch, .final, .final⟩], by decide, by decide, by decide⟩
    let source : Source := ⟨1, [97, 10, 255, 10, 97, 10, 97], some ['e']⟩
    let limited := (new t (some 2)).searchEvents none [] true source
    let refused := (new t (some 2)).searchEvents (some 2) ['r'] true source
    let unended := (new t (some 3)).searchEvents none [] true source
    (matchCount limited.1 = 2 ∧ limited.2.2 = .ok ⟨3, 2, skipCount limited.1⟩) ∧
      (matchCount refused.1 = 1 ∧ refused.2.2 = .error (.sink ['r'])) ∧
      (matchCount unended.1 = 2 ∧ unended.2.2 = .error (.read 4 ['e'])) := by
  intro t source limited refused unended
  have haccepts : t.Accepts [] := .pass rfl rfl (by decide) (.here .final)
  have hevents : ((new t none).searchEvents none [] true (.ofBytes source.bytes)).1 =
      [.matched ⟨1, ⟨0, 0⟩, ['a']⟩, .skipped 2 ⟨0, .invalid 1⟩, .matched ⟨3, ⟨0, 0⟩, ['a']⟩,
        .matched ⟨4, ⟨0, 0⟩, ['a']⟩] := by
    rw [searchEvents_new,
      show allLines source.bytes = [[97, 10], [255, 10], [97, 10], [97]] from rfl]
    iterate 4 rw [Table.eventsFrom_cons]
    rw [Table.eventOf?_of_accepts_nil haccepts 1 ['a'] rfl,
      Table.eventOf?_of_accepts_nil haccepts 3 ['a'] rfl,
      Table.eventOf?_of_accepts_nil haccepts 4 ['a'] rfl]
    rfl
  have hcount : matchCount (source.readable
      ((new t none).searchEvents none [] true (.ofBytes source.bytes)).1) = 2 := by
    rw [hevents]
    rfl
  have hbuilt : ∀ k, (new t (some k)).Built t (some k) := fun _ => .new
  obtain ⟨⟨-, hlimited, -⟩, hstats⟩ := (search_stops_early (hbuilt 2) 1
    source.bytes source.failure? none []).1 2 rfl hcount.ge (fun _ => nofun)
  obtain ⟨⟨m, rest, -, hrefused⟩, hsink⟩ := (search_stops_early (hbuilt 2) 1
    source.bytes source.failure? (some 2) ['r']).2.1 2 rfl Nat.two_pos hcount.ge
      (fun k hk => (Option.some.inj hk).le)
  obtain ⟨hunended, hread⟩ := (search_stops_early (hbuilt 3) 1
    source.bytes source.failure? none []).2.2.1
      (fun k hk => (Option.some.inj hk) ▸ hcount.trans_lt (Nat.lt_succ_self 2)) (fun _ => nofun)
  rw [hevents, hlimited] at hstats
  exact ⟨⟨hlimited, hstats⟩, ⟨Nat.succ.inj hrefused, hsink⟩, hunended ▸ hcount, hread⟩

end Searcher

end PatternScan
