import PatternScan.Proofs.Encoding
import PatternScan.Proofs.Leftmost
import PatternScan.Proofs.Reading
import PatternScan.Search.Reference

/-!
# What a search tells

A matcher finds what a new one finds, however often it has been used (`Matcher.Ready.find_eq`). So a
line tells its event whatever the lines before it were (`Searcher.searchLine_eq`), and a search
tells the events of the lines of its source, those within its limit and up to the match that the
sink fails on (`Searcher.searchFrom_eq`).
-/

namespace PatternScan

namespace Matcher

section Observe

variable {σ : Type} (observe : σ → TraversalEvent → σ)

theorem Ready.ready_findAt : ∀ {m : Matcher} (_ : m.Ready) (seen : σ) (pos : Nat)
    (rest : List Char), (m.findAt observe seen pos rest).2.1.Ready ∧
      (m.findAt observe seen pos rest).2.1.table = m.table
  | _, h, _, _, [] => ⟨h, rfl⟩
  | m, h, seen, pos, c :: rest => by
    obtain ⟨hready, htable, -⟩ := h.traverseAt observe seen pos (c :: rest)
    unfold Matcher.findAt
    rcases hrun : m.traverseAt observe seen pos (c :: rest) with ⟨seen', m', _ | stop⟩
    all_goals rw [hrun] at hready htable
    · obtain ⟨hready', htable'⟩ := Ready.ready_findAt hready seen' (pos + 1) rest
      exact ⟨hready', htable'.trans htable⟩
    · exact ⟨hready, htable⟩

theorem Ready.ready_findWith {m : Matcher} (h : m.Ready) (seen : σ) (line : List Char) :
    (m.findWith observe seen line).2.1.Ready ∧
      (m.findWith observe seen line).2.1.table = m.table := by
  rcases line with _ | ⟨c, rest⟩
  · obtain ⟨hready, htable, -⟩ := h.traverseAt observe seen 0 []
    exact ⟨hready, htable⟩
  · exact h.ready_findAt observe seen 0 (c :: rest)

end Observe

/-- A matcher that has been used finds what a new one finds: there is one first match. -/
theorem Ready.find_eq {m : Matcher} (h : m.Ready) (line : List Char) :
    (m.find line).2 = ((new m.table).find line).2 := by
  rcases hfound : (m.find line).2 with _ | found
  · have hnone := (find_new_eq_none_iff m.table line).mpr fun s hs =>
      h.not_spans_of_findWith _ hfound hs
    exact hnone.symm
  · have hsome := (find_new_eq_some_iff m.table line).mpr (h.isFirst_of_findWith _ hfound)
    exact hsome.symm

end Matcher

namespace Searcher

variable {σ : Type}

/-- A line tells its event, if it has one, and is counted; the matcher can be used again. -/
theorem searchLine_eq {m : Matcher} (h : m.Ready) (sink : Sink σ) (state : σ)
    (stats : SearchStats) (line : List UInt8) :
    ∃ m', m'.Ready ∧ m'.table = m.table ∧
      let told := (m.table.eventOf? (stats.lines + 1) line).toList
      searchLine m sink state stats (trimLine line) =
        ((sink.deliver state told).1, m', stats.after 1 told, (sink.deliver state told).2) := by
  unfold searchLine Table.eventOf?
  rcases Utf8.decode (trimLine line) with e | text
  · exact ⟨m, h, rfl, rfl⟩
  · obtain ⟨hready, htable⟩ := h.ready_findWith (fun _ _ => ()) () text
    have hfind := h.find_eq text
    refine ⟨(m.find text).1, hready, htable, ?_⟩
    simp only [← hfind]
    rcases m.find text with ⟨m', _ | found⟩
    · rfl
    · simp only [Option.map_some, Option.toList_some, Sink.deliver_matched]
      rfl

section Equations

variable {s : Searcher} {sink : Sink σ} {state : σ} {stats : SearchStats} {source : Source}

theorem searchFrom_of_reached (h : stats.reached s.maxCount?) :
    s.searchFrom sink state stats source = (state, s, .ok stats) := by
  rw [searchFrom, if_pos h]

theorem searchFrom_of_not_reached (h : ¬ stats.reached s.maxCount?) :
    s.searchFrom sink state stats source =
      match source.readLine with
      | .ended => (state, s, .ok stats)
      | .failed reason => (state, s, .error (.read (stats.lines + 1) reason))
      | .interrupted rest => s.searchFrom sink state stats rest
      | .line bytes rest =>
        match searchLine s.matcher sink state stats (trimLine bytes) with
        | (state, matcher, _, .error reason) => (state, { s with matcher }, .error (.sink reason))
        | (state, matcher, stats, .ok ()) =>
          { s with matcher }.searchFrom sink state stats rest := by
  rw [searchFrom, if_neg h]
  split <;> next hread => exact hread ▸ rfl

/-- Reads that are interrupted are tried again, unless the limit is reached before. -/
theorem searchFrom_interrupted (bytes : List UInt8) (failure? : Option (List Char)) :
    ∀ n, s.searchFrom sink state stats ⟨n, bytes, failure?⟩ =
      s.searchFrom sink state stats ⟨0, bytes, failure?⟩
  | 0 => rfl
  | n + 1 => by
    have ih := searchFrom_interrupted bytes failure? n
    by_cases hreached : stats.reached s.maxCount?
    · rw [searchFrom_of_reached hreached, searchFrom_of_reached hreached]
    · rw [searchFrom_of_not_reached hreached]
      exact ih

end Equations

/-- A search tells its sink the events of the lines within its limit, up to the match that the sink
fails on. -/
theorem searchFrom_eq {t : Table} (sink : Sink σ) : ∀ {lines : List (List UInt8)} {s : Searcher}
    (state : σ) (stats : SearchStats) (source : Source), s.matcher.Ready → s.matcher.table = t →
    source.interruptions = 0 → source.lines = lines →
    let read := t.linesWithin (s.maxCount?.map (· - stats.matched)) (stats.lines + 1) lines
    let told := t.eventsFrom (stats.lines + 1) read
    ∃ m, m.Ready ∧ m.table = t ∧ s.searchFrom sink state stats source =
      ((sink.deliver state told).1, { s with matcher := m },
        source.outcome s.maxCount? (stats.after read.length told) (sink.deliver state told).2)
  | lines, s, state, stats, source, hready, htable, hinterruptions, hlines => by
    dsimp only
    by_cases hreached : stats.reached s.maxCount?
    · refine ⟨s.matcher, hready, htable, ?_⟩
      rw [(stats.reached_iff _).mp hreached, Table.linesWithin_zero, Table.eventsFrom_nil,
        searchFrom_of_reached hreached]
      exact congrArg (state, s, ·) (if_pos hreached).symm
    rw [searchFrom_of_not_reached hreached]
    rcases lines with _ | ⟨line, lines⟩
    · refine ⟨s.matcher, hready, htable, ?_⟩
      rw [Table.linesWithin_nil, Table.eventsFrom_nil,
        Source.readLine_of_lines_nil hinterruptions hlines, Sink.deliver, Source.outcome,
        if_neg (show ¬ (stats.after (List.length []) []).reached s.maxCount? from hreached)]
      rcases source.failure? with _ | reason
      · rfl
      · rfl
    · obtain ⟨bytes, hread, hrest⟩ := Source.readLine_of_lines_cons hinterruptions hlines
      obtain ⟨m, hm, hmtable, hline⟩ := searchLine_eq hready sink state stats line
      rw [htable] at hmtable hline
      simp only [hread, hline]
      rw [Table.linesWithin_cons _ (mt (stats.reached_iff _).mpr hreached),
        Table.eventsFrom_cons, Sink.deliver_append]
      generalize t.eventOf? (stats.lines + 1) line = event?
      rcases sink.deliver state event?.toList with ⟨state', reason | _⟩
      · exact ⟨m, hm, hmtable, rfl⟩
      · -- The search goes on with the limit less what has matched, as `linesWithin` does.
        obtain ⟨m', hm', hmtable', hrun⟩ := searchFrom_eq sink (s := { s with matcher := m })
          state' (stats.after 1 event?.toList) { source with bytes } hm hmtable hinterruptions hrest
        refine ⟨m', hm', hmtable', ?_⟩
        rw [SearchStats.map_sub_after stats 1, List.length_cons, ← SearchStats.after_after]
        exact hrun

theorem search_interruptions (s : Searcher) (sink : Sink σ) (state : σ) (n : Nat)
    (bytes : List UInt8) (failure? : Option (List Char)) :
    s.search sink state ⟨n, bytes, failure?⟩ = s.search sink state ⟨0, bytes, failure?⟩ :=
  searchFrom_interrupted bytes failure? n

variable {t : Table} {limit? : Option Nat} {s : Searcher}

theorem search_eq_of_ready (hready : s.matcher.Ready) (htable : s.matcher.table = t)
    (sink : Sink σ) (state : σ) (source : Source) :
    let read := t.linesWithin s.maxCount? 1 source.lines
    let told := t.eventsFrom 1 read
    ∃ m, m.Ready ∧ m.table = t ∧ s.search sink state source =
      ((sink.deliver state told).1, { s with matcher := m },
        source.outcome s.maxCount? ⟨read.length, matchCount told, skipCount told⟩
          (sink.deliver state told).2) := by
  obtain ⟨n, bytes, failure?⟩ := source
  obtain ⟨m, hm, hmtable, hrun⟩ := searchFrom_eq sink state .zero ⟨0, bytes, failure?⟩
    hready htable rfl rfl
  refine ⟨m, hm, hmtable, ?_⟩
  rw [search_interruptions, search, hrun, SearchStats.map_sub_zero, SearchStats.zero_after]
  rfl

/-- A searcher can be used again, whatever has come of the searches before. -/
theorem Built.ready (h : s.Built t limit?) :
    s.matcher.Ready ∧ s.matcher.table = t ∧ s.maxCount? = limit? := by
  induction h with
  | new => exact ⟨Matcher.ready_new t, rfl, rfl⟩
  | search h sink state source ih =>
    obtain ⟨hready, htable, hlimit⟩ := ih
    obtain ⟨m, hm, hmtable, hrun⟩ := search_eq_of_ready hready htable sink state source
    rw [hrun]
    exact ⟨hm, hmtable, hlimit⟩

theorem Built.search_eq (h : s.Built t limit?) (sink : Sink σ) (state : σ) (source : Source) :
    let read := t.linesWithin limit? 1 source.lines
    let told := t.eventsFrom 1 read
    (s.search sink state source).1 = (sink.deliver state told).1 ∧
      (s.search sink state source).2.2 = source.outcome limit?
        ⟨read.length, matchCount told, skipCount told⟩ (sink.deliver state told).2 := by
  obtain ⟨hready, htable, rfl⟩ := h.ready
  obtain ⟨m, -, -, hrun⟩ := search_eq_of_ready hready htable sink state source
  rw [hrun]
  exact ⟨rfl, rfl⟩

end Searcher

namespace Table

variable {t : Table} {number : Nat} {line : List UInt8}

theorem eventOf?_skipped_iff : (∃ e, t.eventOf? number line = some (.skipped number e)) ↔
    ∀ text, trimLine line ≠ Utf8.encode text := by
  unfold eventOf?
  rcases hdecode : Utf8.decode (trimLine line) with e | text
  · refine ⟨fun _ text htext => ?_, fun _ => ⟨e, rfl⟩⟩
    exact nomatch hdecode.symm.trans (Utf8.decode_eq_ok_iff.mpr htext)
  · refine ⟨fun ⟨e, he⟩ => ?_, fun h => absurd (Utf8.decode_eq_ok_iff.mp hdecode) (h text)⟩
    obtain ⟨found, -, heq⟩ := Option.map_eq_some_iff.mp he
    exact nomatch heq

theorem eventOf?_matched_iff {m : LineMatch} : t.eventOf? number line = some (.matched m) ↔
    m.number = number ∧ trimLine line = Utf8.encode m.line ∧
      ((Matcher.new t).find m.line).2 = some m.found := by
  unfold eventOf?
  rcases hdecode : Utf8.decode (trimLine line) with e | text
  · refine ⟨fun h => (nomatch h), fun ⟨_, hline, _⟩ => ?_⟩
    exact nomatch hdecode.symm.trans (Utf8.decode_eq_ok_iff.mpr hline)
  · refine Option.map_eq_some_iff.trans ⟨?_, ?_⟩
    · rintro ⟨found, hfound, heq⟩
      obtain rfl := SearchEvent.matched.inj heq
      exact ⟨rfl, Utf8.decode_eq_ok_iff.mp hdecode, hfound⟩
    · rintro ⟨rfl, hline, hfound⟩
      obtain rfl : text = m.line :=
        Except.ok.inj (hdecode.symm.trans (Utf8.decode_eq_ok_iff.mpr hline))
      exact ⟨m.found, hfound, rfl⟩

theorem eventOf?_of_accepts_nil (h : t.Accepts []) (number : Nat) (text : List Char)
    (hline : trimLine line = Utf8.encode text) :
    t.eventOf? number line = some (.matched ⟨number, ⟨0, 0⟩, text⟩) :=
  eventOf?_matched_iff.mpr ⟨rfl, hline, Matcher.find_new_of_accepts_nil t text h⟩

end Table

namespace EventLog

variable {failAt? : Option Nat} {reason : List Char} {keepSkipped : Bool} {log : EventLog}

theorem sink_matched_of_ne (h : failAt? ≠ some (log.matched + 1)) (m : LineMatch) :
    (sink failAt? reason keepSkipped).matched log m =
      (⟨.matched m :: log.events, log.matched + 1⟩, .ok ()) :=
  if_neg h

theorem sink_matched_of_eq (h : failAt? = some (log.matched + 1)) (m : LineMatch) :
    (sink failAt? reason keepSkipped).matched log m = (log, .error reason) :=
  if_pos h

/-- A log keeps what it is told, as long as the match at which it is to fail is not among it. -/
theorem deliver_eq : ∀ (events : List SearchEvent) (log : EventLog),
    (∀ j ∈ failAt?, j ≤ log.matched ∨ log.matched + matchCount events < j) →
    (sink failAt? reason true).deliver log events =
      (⟨events.reverse ++ log.events, log.matched + matchCount events⟩, .ok ())
  | [], _, _ => rfl
  | .skipped line e :: events, log, h => by
    have ih := deliver_eq events { log with events := .skipped line e :: log.events } h
    rw [List.reverse_cons, List.append_assoc]
    exact ih
  | .matched m :: events, log, h => by
    rw [matchCount_matched, Nat.add_comm (matchCount events), ← Nat.add_assoc] at h ⊢
    have hnext : failAt? ≠ some (log.matched + 1) := by
      intro hj
      have := h _ hj
      omega
    have ih := deliver_eq events ⟨.matched m :: log.events, log.matched + 1⟩ fun j hj =>
      (h j hj).imp_left Nat.le_succ_of_le
    rw [Sink.deliver, sink_matched_of_ne hnext, List.reverse_cons, List.append_assoc]
    exact ih

end EventLog

namespace Searcher

variable {t : Table} {limit? : Option Nat} {s : Searcher}

/-- A log fails at none of the matches it is told of. -/
theorem Built.searchEvents_eq (h : s.Built t limit?) (failAt? : Option Nat) (reason : List Char)
    (source : Source) :
    let read := t.linesWithin limit? 1 source.lines
    let told := t.eventsFrom 1 read
    (∀ j ∈ failAt?, j = 0 ∨ matchCount told < j) →
    (s.searchEvents failAt? reason true source).1 = told ∧
      (s.searchEvents failAt? reason true source).2.2 = source.outcome limit?
        ⟨read.length, matchCount told, skipCount told⟩ (.ok ()) := by
  intro read told hfail
  obtain ⟨hlog, hresult⟩ := h.search_eq (EventLog.sink failAt? reason true) .empty source
  have hdeliver : (EventLog.sink failAt? reason true).deliver .empty told =
      (⟨told.reverse ++ [], 0 + matchCount told⟩, .ok ()) :=
    EventLog.deliver_eq told .empty fun j hj =>
      (hfail j hj).imp Nat.le_zero.mpr (Nat.zero_add _ ▸ ·)
  rw [hdeliver] at hlog hresult
  refine ⟨?_, hresult⟩
  have hevents := congrArg (·.events.reverse) hlog
  rwa [List.append_nil, List.reverse_reverse] at hevents

/-- A search without a limit tells the events of the lines of its bytes and counts them, and each
event is what its line says on its own. -/
theorem search_tells_events (h : s.Built t none) (n : Nat) (bytes : List UInt8) :
    let lines := allLines bytes
    let events := t.eventsFrom 1 lines
    let stats : SearchStats := ⟨lines.length, matchCount events, skipCount events⟩
    (∀ reason, (s.searchEvents none reason true ⟨n, bytes, none⟩).1 = events ∧
      (s.searchEvents none reason true ⟨n, bytes, none⟩).2.2 = .ok stats) ∧
    (∀ {σ : Type} (sink : Sink σ) (state : σ),
      (s.search sink state ⟨n, bytes, none⟩).1 = (sink.deliver state events).1 ∧
      (s.search sink state ⟨n, bytes, none⟩).2.2 =
        match (sink.deliver state events).2 with
        | .ok () => .ok stats
        | .error reason => .error (.sink reason)) ∧
    ∀ number line,
      ((∃ e, t.eventOf? number line = some (.skipped number e)) ↔
        ∀ text, trimLine line ≠ Utf8.encode text) ∧
      ∀ m, t.eventOf? number line = some (.matched m) ↔ m.number = number ∧
        trimLine line = Utf8.encode m.line ∧ ((Matcher.new t).find m.line).2 = some m.found := by
  intro lines events stats
  have hread : t.linesWithin none 1 (Source.lines ⟨n, bytes, none⟩) = lines :=
    t.linesWithin_none 1 lines
  refine ⟨fun reason => ?_, fun sink state => ?_,
    fun number line => ⟨Table.eventOf?_skipped_iff, fun m => Table.eventOf?_matched_iff⟩⟩
  · have hrun := h.searchEvents_eq none reason ⟨n, bytes, none⟩ (fun _ => nofun)
    rw [hread] at hrun
    exact hrun
  · have hrun := h.search_eq sink state ⟨n, bytes, none⟩
    rw [hread] at hrun
    refine ⟨hrun.1, hrun.2.trans ?_⟩
    rcases (sink.deliver state events).2 with reason | _
    · rfl
    · rfl

/-- A searcher that has been used: a line that matches before its end, one that is not text, an
empty one, and one that lacks its end. -/
theorem search_tells_events_crlf :
    let t : Table := ⟨#[⟨.branch, .final, .final⟩], by decide, by decide, by decide⟩
    let s := ((new t none).search (EventLog.sink none [] true) .empty (.ofBytes [97])).2.1
    let run := s.searchEvents none [] true ⟨1, [98, 97, 13, 10, 255, 97, 10, 10, 97, 98], none⟩
    s.Built t none ∧ run.1 = [.matched ⟨1, ⟨0, 0⟩, ['b', 'a']⟩, .skipped 2 ⟨0, .invalid 1⟩,
      .matched ⟨3, ⟨0, 0⟩, []⟩, .matched ⟨4, ⟨0, 0⟩, ['a', 'b']⟩] ∧ run.2.2 = .ok ⟨4, 3, 1⟩ := by
  intro t s run
  have hbuilt : s.Built t none := .search .new _ _ _
  have haccepts : t.Accepts [] := .pass rfl rfl (by decide) (.here .final)
  have hlines : allLines [98, 97, 13, 10, 255, 97, 10, 10, 97, 98] =
      [[98, 97, 13, 10], [255, 97, 10], [10], [97, 98]] := rfl
  have hevents : t.eventsFrom 1 [[98, 97, 13, 10], [255, 97, 10], [10], [97, 98]] =
      [.matched ⟨1, ⟨0, 0⟩, ['b', 'a']⟩, .skipped 2 ⟨0, .invalid 1⟩, .matched ⟨3, ⟨0, 0⟩, []⟩,
        .matched ⟨4, ⟨0, 0⟩, ['a', 'b']⟩] := by
    iterate 4 rw [Table.eventsFrom_cons]
    rw [Table.eventOf?_of_accepts_nil haccepts 1 ['b', 'a'] rfl,
      Table.eventOf?_of_accepts_nil haccepts 3 [] rfl,
      Table.eventOf?_of_accepts_nil haccepts 4 ['a', 'b'] rfl]
    rfl
  obtain ⟨htold, hresult⟩ :=
    (search_tells_events hbuilt 1 [98, 97, 13, 10, 255, 97, 10, 10, 97, 98]).1 []
  rw [hlines, hevents] at htold hresult
  exact ⟨hbuilt, htold, hresult⟩

end Searcher

end PatternScan
