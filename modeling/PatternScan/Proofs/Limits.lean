import PatternScan.CommandLine.Run
import PatternScan.Proofs.EarlyStop
import PatternScan.Proofs.JsonLines
import PatternScan.Report.Record

/-!
# Printing on devices that fill up

A piece that passes the limit of a device is one of a record, and all before it in the record are
without a line feed, so the whole lines of the output are the records that fit
(`Printer.deliver_limited`). Warnings are one piece each, and whether one is taken matters to no
other device.
-/

namespace PatternScan

section Fits

variable {limit? : Option Nat} {line : List Char} {lines : List (List Char)} {k : Nat}

theorem fits_nil (limit? : Option Nat) : Fits limit? [] 0 :=
  ⟨⟨Nat.le_refl _, fun _ _ => Nat.zero_le _⟩, fun _ h => h.1⟩

theorem Fits.cons (hline : ∀ limit ∈ limit?, Utf8.byteLength line ≤ limit)
    (h : Fits (limit?.map (· - Utf8.byteLength line)) lines k) :
    Fits limit? (line :: lines) (k + 1) := by
  obtain ⟨⟨hle, hfits⟩, hgreatest⟩ := h
  refine ⟨⟨Nat.succ_le_succ hle, fun limit hlimit => ?_⟩, ?_⟩
  · have := hfits _ (Option.mem_map_of_mem _ hlimit)
    have := hline limit hlimit
    rw [List.take_succ_cons, List.flatten_cons, Utf8.byteLength_append]
    omega
  · rintro (_ | j) ⟨hj, hjfits⟩
    · exact Nat.zero_le _
    · refine Nat.succ_le_succ (hgreatest ⟨Nat.le_of_succ_le_succ hj, fun left hleft => ?_⟩)
      obtain ⟨limit, hlimit, rfl⟩ := Option.mem_map.mp hleft
      have := hjfits limit hlimit
      rw [List.take_succ_cons, List.flatten_cons, Utf8.byteLength_append] at this
      omega

theorem fits_zero {limit : Nat} (h : limit < Utf8.byteLength line) :
    Fits (some limit) (line :: lines) 0 := by
  refine ⟨⟨Nat.zero_le _, fun _ _ => Nat.zero_le _⟩, ?_⟩
  rintro (_ | j) ⟨-, hj⟩
  · exact Nat.le_refl _
  · have := hj limit rfl
    rw [List.take_succ_cons, List.flatten_cons, Utf8.byteLength_append] at this
    omega

theorem Fits.eq_length (h : Fits limit? lines k)
    (hall : ∀ limit ∈ limit?, Utf8.byteLength lines.flatten ≤ limit) : k = lines.length :=
  Nat.le_antisymm h.1.1 (h.2 ⟨Nat.le_refl _, by rwa [List.take_length]⟩)

theorem Fits.lt_length {limit : Nat} (h : Fits (some limit) lines k)
    (hlt : limit < Utf8.byteLength lines.flatten) : k < lines.length := by
  refine Nat.lt_of_le_of_ne h.1.1 ?_
  rintro rfl
  have := h.1.2 limit rfl
  rw [List.take_length] at this
  omega

end Fits

namespace Device

/-- How much room a limit leaves. -/
def HasRoom (d : Device) (limit? : Option Nat) : Prop :=
  d.room = limit?.elim .unlimited .bytes

/-- Writes each of some pieces, whatever comes of the others. -/
def writeEach (d : Device) (pieces : List (List Char)) : Device :=
  pieces.foldl (fun d piece => (d.write piece).1) d

variable {d : Device} {limit? : Option Nat}

theorem hasRoom_new (limit? : Option Nat) (flushFails : Bool) :
    (new limit? flushFails).HasRoom limit? :=
  rfl

theorem HasRoom.write (h : d.HasRoom limit?) {piece : List Char}
    (hpiece : ∀ limit ∈ limit?, Utf8.byteLength piece ≤ limit) : ∃ d' : Device,
      d.write piece = (d', .ok ()) ∧ d'.taken = piece :: d.taken ∧
        d'.flushFails = d.flushFails ∧ d'.HasRoom (limit?.map (· - Utf8.byteLength piece)) := by
  rcases limit? with _ | limit
  · exact ⟨_, write_unlimited h piece, rfl, rfl, h⟩
  · have hroom : d.room = .bytes limit := h
    refine ⟨{ d with taken := piece :: d.taken, room := .bytes (limit - Utf8.byteLength piece) },
      ?_, rfl, rfl, rfl⟩
    simp only [Device.write, hroom, if_pos (hpiece limit rfl)]

theorem HasRoom.write_full {limit : Nat} (h : d.HasRoom (some limit)) {piece : List Char}
    (hlt : limit < Utf8.byteLength piece) :
    d.write piece = ({ d with room := .spent }, .error fullReason) := by
  have hroom : d.room = .bytes limit := h
  simp only [Device.write, hroom, if_neg (Nat.not_le.mpr hlt)]

theorem writeEach_spent (h : d.room = .spent) : ∀ pieces : List (List Char),
    d.writeEach pieces = d
  | [] => rfl
  | piece :: pieces => by
    have hwrite : d.write piece = (d, .error fullReason) := by simp only [write, h]
    rw [writeEach, List.foldl_cons, hwrite]
    exact writeEach_spent h pieces

/-- Of pieces that are each written, the first ones are taken that fit. -/
theorem HasRoom.writeEach : ∀ (pieces : List (List Char)) {d : Device} {limit? : Option Nat},
    d.HasRoom limit? → ∃ k, Fits limit? pieces k ∧
      (d.writeEach pieces).text = d.text ++ (pieces.take k).flatten
  | [], d, limit?, _ => ⟨0, fits_nil limit?, (List.append_nil _).symm⟩
  | piece :: pieces, d, limit?, h => by
    by_cases hfits : ∀ limit ∈ limit?, Utf8.byteLength piece ≤ limit
    · obtain ⟨d', hwrite, htaken, -, hroom⟩ := h.write hfits
      obtain ⟨k, hk, htext⟩ := HasRoom.writeEach pieces hroom
      refine ⟨k + 1, hk.cons hfits, ?_⟩
      rw [Device.writeEach, List.foldl_cons, hwrite]
      refine htext.trans ?_
      simp [text, htaken]
    · push Not at hfits
      obtain ⟨limit, rfl, hlt⟩ := hfits
      refine ⟨0, fits_zero hlt, ?_⟩
      rw [Device.writeEach, List.foldl_cons, h.write_full hlt]
      refine (congrArg text (writeEach_spent rfl pieces)).trans ?_
      simp [text]

theorem HasRoom.writeAll : ∀ (pieces : List (List Char)) {d : Device} {limit? : Option Nat},
    d.HasRoom limit? → (∀ limit ∈ limit?, Utf8.byteLength pieces.flatten ≤ limit) →
      ∃ d' : Device, d.writeAll pieces = (d', .ok ()) ∧ d'.text = d.text ++ pieces.flatten ∧
        d'.flushFails = d.flushFails ∧
          d'.HasRoom (limit?.map (· - Utf8.byteLength pieces.flatten))
  | [], d, limit?, h, _ => by
    refine ⟨d, rfl, (List.append_nil _).symm, rfl, ?_⟩
    rcases limit? with _ | limit <;> exact h
  | piece :: pieces, d, limit?, h, hfits => by
    simp only [List.flatten_cons, Utf8.byteLength_append] at hfits ⊢
    obtain ⟨d', hwrite, htaken, hflush, hroom⟩ := h.write fun limit hlimit =>
      (Nat.le_add_right _ _).trans (hfits limit hlimit)
    obtain ⟨d'', hrest, htext, hflush', hroom'⟩ := HasRoom.writeAll pieces hroom
      fun left hleft => by
      obtain ⟨limit, hlimit, rfl⟩ := Option.mem_map.mp hleft
      have := hfits limit hlimit
      omega
    refine ⟨d'', ?_, ?_, hflush'.trans hflush, ?_⟩
    · rw [Device.writeAll, hwrite]
      exact hrest
    · rw [htext]
      simp [text, htaken]
    · rw [Option.map_map] at hroom'
      rwa [show (fun limit => limit - (Utf8.byteLength piece + Utf8.byteLength pieces.flatten)) =
        (· - Utf8.byteLength pieces.flatten) ∘ (· - Utf8.byteLength piece) from
          funext fun limit => Nat.sub_add_eq limit _ _]

/-- Of pieces that do not all fit, those are taken that come before one of them. -/
theorem HasRoom.writeAll_full : ∀ (pieces : List (List Char)) {d : Device} {limit : Nat},
    d.HasRoom (some limit) → limit < Utf8.byteLength pieces.flatten →
      ∃ done piece rest, pieces = done ++ piece :: rest ∧
        (d.writeAll pieces).2 = .error fullReason ∧
          (d.writeAll pieces).1.text = d.text ++ done.flatten
  | [], _, _, _, hlt => absurd hlt (Nat.not_lt_zero _)
  | piece :: pieces, d, limit, h, hlt => by
    rw [List.flatten_cons, Utf8.byteLength_append] at hlt
    by_cases hfits : Utf8.byteLength piece ≤ limit
    · obtain ⟨d', hwrite, htaken, -, hroom⟩ := h.write fun _ hlimit =>
        Option.some.inj hlimit ▸ hfits
      have hlt' : limit - Utf8.byteLength piece < Utf8.byteLength pieces.flatten := by omega
      obtain ⟨done, piece', rest, rfl, hresult, htext⟩ := HasRoom.writeAll_full pieces hroom hlt'
      refine ⟨piece :: done, piece', rest, rfl, ?_, ?_⟩
      · rw [Device.writeAll, hwrite]
        exact hresult
      · rw [Device.writeAll, hwrite]
        refine htext.trans ?_
        simp [text, htaken]
    · refine ⟨[], piece, pieces, rfl, ?_, ?_⟩
      · rw [Device.writeAll, h.write_full (Nat.lt_of_not_le hfits)]
      · rw [Device.writeAll, h.write_full (Nat.lt_of_not_le hfits)]
        simp [text]

theorem wholeLines_eq {lines : List (List Char)} {part : List Char}
    (htext : d.text = lines.flatten ++ part) (hlines : ∀ line ∈ lines, IsLine line)
    (hpart : '\n' ∉ part) : d.wholeLines = lines.flatten := by
  have hdrop : ∀ c ∈ part.reverse, (c != '\n') = true := by
    intro c hc
    rw [bne_iff_ne]
    rintro rfl
    exact hpart (List.mem_reverse.mp hc)
  rw [wholeLines, htext, List.reverse_append, List.dropWhile_append_of_pos hdrop]
  rcases List.eq_nil_or_concat lines with rfl | ⟨lines, line, rfl⟩
  · rfl
  · obtain ⟨before, rfl, -⟩ := hlines line (by simp)
    simp

end Device

theorem feed_not_mem_digits (n : Nat) : '\n' ∉ Decimal.digits n :=
  Decimal.not_mem_digits rfl n

theorem feed_not_mem_message (e : Utf8.DecodeError) : '\n' ∉ e.message := by
  have hrepr : ∀ n : Nat, '\n' ∉ n.repr.toList := by
    intro n
    rw [Nat.toList_repr]
    exact feed_not_mem_digits n
  rw [Utf8.DecodeError.message]
  split <;> simp [-Nat.toList_repr, hrepr]

theorem feed_not_mem_skippedLineMessage (e : Utf8.DecodeError) :
    '\n' ∉ skippedLineMessage e := by
  have hwords : '\n' ∉ "line is not valid UTF-8: ".toList := by decide
  intro h
  rcases List.mem_append.mp h with h | h
  · exact hwords h
  · exact feed_not_mem_message e h

theorem isLine_skippedWarning (line : Nat) (e : Utf8.DecodeError) :
    IsLine (skippedWarning line e) := by
  refine ⟨"warning: line ".toList ++ Decimal.digits line ++ " skipped: ".toList ++
    skippedLineMessage e, rfl, ?_⟩
  simp only [List.mem_append, not_or]
  exact ⟨⟨⟨by decide, feed_not_mem_digits line⟩, by decide⟩, feed_not_mem_skippedLineMessage e⟩

theorem isLine_of_mem_warningLines {line : List Char} {events : List SearchEvent}
    (h : line ∈ warningLines events) : IsLine line := by
  obtain ⟨event, -, hevent⟩ := List.mem_filterMap.mp h
  cases event with
  | matched m => exact nomatch hevent
  | skipped number e => exact Option.some.inj hevent ▸ isLine_skippedWarning number e

namespace LineMatch

theorem feed_not_mem_numberPieces (m : LineMatch) (colored : Bool) :
    '\n' ∉ (m.numberPieces colored).flatten := by
  unfold numberPieces
  split <;> simp [feed_not_mem_digits, Color.code, Color.reset]

theorem feed_not_mem_linePieces {m : LineMatch} (h : '\n' ∉ m.line) (colored : Bool) :
    '\n' ∉ (m.linePieces colored).flatten := by
  have htake : ∀ k, '\n' ∉ m.line.take k := fun k hmem => h (List.mem_of_mem_take hmem)
  have hdrop : ∀ k, '\n' ∉ m.line.drop k := fun k hmem => h (List.mem_of_mem_drop hmem)
  have hmiss : '\n' ∉ (m.line.take m.found.stop).drop m.found.start :=
    fun hmem => htake _ (List.mem_of_mem_drop hmem)
  unfold linePieces
  split <;> simp [h, htake, hdrop, hmiss, Color.code, Color.reset]

/-- Of the pieces of a match, only the last one has a line feed. -/
theorem exists_pieces_eq {m : LineMatch} (h : '\n' ∉ m.line) (style : PrintStyle) :
    ∃ pieces, m.pieces style = pieces ++ [['\n']] ∧ '\n' ∉ pieces.flatten := by
  unfold LineMatch.pieces
  split
  · exact ⟨[m.json], rfl, by simpa using m.not_mem_json (by decide)⟩
  · refine ⟨_, rfl, ?_⟩
    rw [List.flatten_append, List.mem_append, not_or]
    refine ⟨?_, feed_not_mem_linePieces h _⟩
    split
    · exact m.feed_not_mem_numberPieces _
    · exact List.not_mem_nil

theorem isLine_record {m : LineMatch} (h : '\n' ∉ m.line) (style : PrintStyle) :
    IsLine (m.record style) := by
  obtain ⟨pieces, heq, hfeed⟩ := exists_pieces_eq h style
  refine ⟨pieces.flatten, ?_, hfeed⟩
  rw [record, heq, List.flatten_append, List.flatten_singleton]

/-- A device that fills up within a record has taken no line feed of it. -/
theorem exists_writeAll_full {m : LineMatch} (h : '\n' ∉ m.line) (style : PrintStyle) {d : Device}
    {limit : Nat} (hroom : d.HasRoom (some limit))
    (hlt : limit < Utf8.byteLength (m.record style)) : ∃ part, '\n' ∉ part ∧
      (d.writeAll (m.pieces style)).2 = .error Device.fullReason ∧
        (d.writeAll (m.pieces style)).1.text = d.text ++ part := by
  obtain ⟨pieces, heq, hfeed⟩ := exists_pieces_eq h style
  obtain ⟨done, piece, rest, hsplit, hresult, htext⟩ := hroom.writeAll_full (m.pieces style) hlt
  refine ⟨done.flatten, fun hmem => hfeed ?_, hresult, htext⟩
  -- What is taken comes before a piece that is the line feed at the latest.
  have hpieces : pieces = done ++ (piece :: rest).dropLast := by
    rw [← List.dropLast_append_cons, ← hsplit, heq, List.dropLast_concat]
  rw [hpieces, List.flatten_append]
  exact List.mem_append_left _ hmem

end LineMatch

namespace Printer

theorem deliver_limited : ∀ (events : List SearchEvent) {p : Printer} {limit? : Option Nat},
    p.out.HasRoom limit? → (∀ m ∈ matchesOf events, '\n' ∉ m.line) →
    let lines := recordLines p.style events
    let run := sink.deliver p events
    ∃ k part, Fits limit? lines k ∧ '\n' ∉ part ∧
      run.1.out.text = p.out.text ++ (lines.take k).flatten ++ part ∧
      run.1.diagnostics = p.diagnostics.writeEach (warningLines (beforeMatch k events)) ∧
      (k = lines.length ∧ part = [] ∧ run.2 = .ok () ∧ run.1.out.flushFails = p.out.flushFails ∨
        k < lines.length ∧ run.2 = .error Device.fullReason)
  | [], p, limit?, _, _ => by
    refine ⟨0, [], fits_nil limit?, List.not_mem_nil, ?_, rfl, .inl ⟨rfl, rfl, rfl, rfl⟩⟩
    exact ((List.append_nil _).trans (List.append_nil _)).symm
  | .skipped line e :: events, p, limit?, hroom, hfeed => by
    obtain ⟨k, part, hfits, hpart, htext, hdiagnostics, hend⟩ :=
      deliver_limited events (p := p.printSkipped line e) hroom hfeed
    refine ⟨k, part, hfits, hpart, htext, ?_, hend⟩
    rw [beforeMatch]
    exact hdiagnostics
  | .matched m :: events, p, limit?, hroom, hfeed => by
    obtain ⟨hm, hevents⟩ := List.forall_mem_cons.mp hfeed
    have hsink : sink.matched p m = p.printMatch m := rfl
    have hlines : recordLines p.style (.matched m :: events) =
        m.record p.style :: recordLines p.style events := rfl
    by_cases hrecord : ∀ limit ∈ limit?, Utf8.byteLength (m.record p.style) ≤ limit
    · obtain ⟨d, hwrite, htaken, hflush, hroom'⟩ := hroom.writeAll (m.pieces p.style) hrecord
      obtain ⟨k, part, hfits, hpart, htext, hdiagnostics, hend⟩ :=
        deliver_limited events (p := { p with out := d }) hroom' hevents
      have hrun : sink.deliver p (.matched m :: events) =
          sink.deliver { p with out := d } events := by
        rw [Sink.deliver, hsink, printMatch, hwrite]
      dsimp only
      rw [hrun, hlines]
      refine ⟨k + 1, part, hfits.cons hrecord, hpart, ?_, hdiagnostics, ?_⟩
      · rw [htext, List.take_succ_cons, List.flatten_cons, ← List.append_assoc]
        exact congrArg (· ++ _ ++ part) htaken
      · refine hend.imp ?_ ?_
        · rintro ⟨rfl, hnil, hok, hflush'⟩
          exact ⟨rfl, hnil, hok, hflush'.trans hflush⟩
        · rintro ⟨hlt, herror⟩
          exact ⟨Nat.succ_lt_succ hlt, herror⟩
    · push Not at hrecord
      obtain ⟨limit, rfl, hlt⟩ := hrecord
      obtain ⟨part, hpart, herror, htext⟩ := LineMatch.exists_writeAll_full hm p.style hroom hlt
      have hrun : sink.deliver p (.matched m :: events) =
          ({ p with out := (p.out.writeAll (m.pieces p.style)).1 }, .error Device.fullReason) := by
        rw [Sink.deliver, hsink, printMatch]
        rcases hwrite : p.out.writeAll (m.pieces p.style) with ⟨d, result⟩
        rw [hwrite] at herror
        obtain rfl : result = _ := herror
        rfl
      dsimp only
      rw [hrun, hlines]
      refine ⟨0, part, fits_zero hlt, hpart, ?_, rfl, .inr ⟨Nat.succ_pos _, rfl⟩⟩
      rw [List.take_zero, List.flatten_nil, List.append_nil]
      exact htext

end Printer

section Lines

namespace Table

variable {t : Table}

theorem mem_of_mem_linesWithin {line : List UInt8} : ∀ {lines : List (List UInt8)}
    {limit? : Option Nat} {number : Nat}, line ∈ t.linesWithin limit? number lines → line ∈ lines
  | [], limit?, number, h => by rwa [linesWithin_nil] at h
  | line' :: lines, limit?, number, h => by
    by_cases hzero : limit? = some 0
    · rw [hzero, linesWithin_zero] at h
      exact absurd h List.not_mem_nil
    · rw [linesWithin_cons _ hzero] at h
      rcases List.mem_cons.mp h with rfl | h
      · exact List.mem_cons_self
      · exact List.mem_cons_of_mem _ (mem_of_mem_linesWithin h)

theorem feed_not_mem_of_mem_matchesOf {m : LineMatch} : ∀ {lines : List (List UInt8)}
    {number : Nat}, (∀ line ∈ lines, Source.lineFeed ∉ trimLine line) →
      m ∈ matchesOf (t.eventsFrom number lines) → '\n' ∉ m.line
  | [], _, _, h => absurd h List.not_mem_nil
  | line :: lines, number, hlines, h => by
    obtain ⟨hline, hrest⟩ := List.forall_mem_cons.mp hlines
    rw [eventsFrom_cons, matchesOf, List.filterMap_append, List.mem_append] at h
    rcases h with h | h
    · obtain ⟨event, hevent, hmatch⟩ := List.mem_filterMap.mp h
      cases event with
      | matched m' =>
        obtain rfl := Option.some.inj hmatch
        obtain ⟨-, htext, -⟩ := eventOf?_matched_iff.mp (Option.mem_toList.mp hevent)
        intro hmem
        rw [htext] at hline
        exact hline ((Utf8.mem_encode_iff (by decide)).mpr hmem)
      | skipped => exact nomatch hmatch
    · exact feed_not_mem_of_mem_matchesOf hrest h

end Table

theorem beforeMatch_of_le : ∀ {events : List SearchEvent} {count : Nat},
    matchCount events ≤ count → beforeMatch count events = events
  | [], _, _ => rfl
  | .skipped line e :: events, count, h => by
    rw [matchCount_skipped] at h
    rw [beforeMatch, beforeMatch_of_le h]
  | .matched m :: events, count, h => by
    rw [matchCount_matched] at h
    rcases count with _ | count
    · exact absurd h (Nat.not_succ_le_zero _)
    · rw [beforeMatch, beforeMatch_of_le (Nat.le_of_succ_le_succ h)]

theorem length_matchesOf (events : List SearchEvent) :
    (matchesOf events).length = matchCount events := by
  induction events with
  | nil => rfl
  | cons event events ih =>
    cases event with
    | matched m => rw [matchCount_matched, ← ih]; rfl
    | skipped line e => rw [matchCount_skipped, ← ih]; rfl

end Lines

/-- The result of a search whose printer has been told all events. -/
def Printer.result (stats : SearchStats) (run : Printer × Except (List Char) Unit) :
    Except CommandError SearchStats :=
  match run.2 with
  | .error reason => .error (.search (.sink reason))
  | .ok () =>
    match run.1.finish with
    | .error reason => .error (.search (.sink reason))
    | .ok () => .ok stats

/-- What a search that tells these events comes to where so many of its records and so many of the
warnings before the next one fit. -/
structure PrintsWithin (style : PrintStyle) (told : List SearchEvent) (stats : SearchStats)
    (out? diagnostics? : Option Nat) (flushFails : Bool)
    (run : Printer × Except CommandError SearchStats) (j k : Nat) : Prop where
  fits : Fits out? (recordLines style told) j
  warnings_fit : Fits diagnostics? (warningLines (beforeMatch j told)) k
  wholeLines_eq : run.1.out.wholeLines = ((recordLines style told).take j).flatten
  diagnostics_eq : run.1.diagnostics.text =
    ((warningLines (beforeMatch j told)).take k).flatten
  ends : j = (recordLines style told).length ∧
      run.1.out.text = (recordLines style told).flatten ∧
      run.2 = (if flushFails then .error (.search (.sink Device.flushReason)) else .ok stats) ∨
    j < (recordLines style told).length ∧ run.2 = .error (.search (.sink Device.fullReason))

namespace PrintsWithin

variable {style : PrintStyle} {told : List SearchEvent} {stats : SearchStats}
  {out? diagnostics? : Option Nat} {flushFails : Bool}
  {run run' : Printer × Except CommandError SearchStats} {j j' k k' : Nat}

theorem of_length (h : PrintsWithin style told stats out? diagnostics? flushFails run j k)
    (hj : j = (recordLines style told).length) : run.1.out.text = (recordLines style told).flatten ∧
      run.2 = (if flushFails then .error (.search (.sink Device.flushReason)) else .ok stats) :=
  (h.ends.resolve_right fun hlt => absurd hj (Nat.ne_of_lt hlt.1)).2

theorem of_lt_length (h : PrintsWithin style told stats out? diagnostics? flushFails run j k)
    (hj : j < (recordLines style told).length) :
    run.2 = .error (.search (.sink Device.fullReason)) :=
  (h.ends.resolve_left fun heq => absurd heq.1 (Nat.ne_of_lt hj)).2

/-- Without a limit on the diagnostics all warnings are on them. -/
theorem diagnostics_eq_flatten
    (h : PrintsWithin style told stats out? none flushFails run j k) :
    run.1.diagnostics.text = (warningLines (beforeMatch j told)).flatten := by
  rw [h.diagnostics_eq, h.warnings_fit.eq_length nofun, List.take_length]

/-- The same records on the output mean the same warnings on the diagnostics. -/
theorem diagnostics_congr {out?' : Option Nat} {flushFails' : Bool}
    (h : PrintsWithin style told stats out? diagnostics? flushFails run j k)
    (h' : PrintsWithin style told stats out?' diagnostics? flushFails' run' j' k')
    (hj : j = j') : run.1.diagnostics.text = run'.1.diagnostics.text := by
  subst hj
  rw [h.diagnostics_eq, h'.diagnostics_eq, h.warnings_fit.unique h'.warnings_fit]

end PrintsWithin

section Search

variable {s : Surroundings} {t : Table} {path : List Char} {bytes : List UInt8}
  (maxCount? : Option Nat) (style : PrintStyle)

theorem Source.outcome_ofBytes (limit? : Option Nat) (stats : SearchStats) :
    (Source.ofBytes bytes).outcome limit? stats (.ok ()) = .ok stats := by
  unfold Source.outcome
  dsimp only
  split
  · rfl
  · rfl

/-- A search of a file that can be read prints what it is told, and fails only where that fails. -/
theorem searchFile_eq (h : s.openPath path = .ok (.file bytes)) :
    let told := t.eventsFrom 1 (t.linesWithin maxCount? 1 (allLines bytes))
    ∃ stats : SearchStats, stats.matched = matchCount told ∧ ∀ p : Printer,
      searchFile s t path maxCount? p =
        ((Printer.sink.deliver p told).1, Printer.result stats (Printer.sink.deliver p told)) := by
  intro told
  refine ⟨⟨(t.linesWithin maxCount? 1 (allLines bytes)).length, matchCount told, skipCount told⟩,
    rfl, fun p => ?_⟩
  have hsearch : ∃ searcher, (Searcher.new t maxCount?).search Printer.sink p (.ofBytes bytes) =
      ((Printer.sink.deliver p told).1, searcher, (Source.ofBytes bytes).outcome maxCount?
        ⟨(t.linesWithin maxCount? 1 (allLines bytes)).length, matchCount told, skipCount told⟩
          (Printer.sink.deliver p told).2) := by
    obtain ⟨_, -, -, hrun⟩ := Searcher.search_eq_of_ready (s := .new t maxCount?)
      (Matcher.ready_new t) rfl Printer.sink p (.ofBytes bytes)
    exact ⟨_, hrun⟩
  obtain ⟨searcher, hsearch⟩ := hsearch
  unfold searchFile
  rw [h]
  dsimp only
  rw [show (Entry.file bytes).source = .ofBytes bytes from rfl, hsearch]
  rcases Printer.sink.deliver p told with ⟨printer, reason | _⟩
  · rfl
  · rw [Source.outcome_ofBytes]
    unfold Printer.result
    dsimp only
    rcases printer.finish with reason | _
    · rfl
    · rfl

theorem searchFile_printsWithin (h : s.openPath path = .ok (.file bytes)) :
    let told := t.eventsFrom 1 (t.linesWithin maxCount? 1 (allLines bytes))
    (∀ line ∈ recordLines style told, IsLine line) ∧
    ∃ stats : SearchStats, stats.matched = (recordLines style told).length ∧
      ∀ out? diagnostics? flushFails, ∃ j k,
        PrintsWithin style told stats out? diagnostics? flushFails (searchFile s t path maxCount?
          ⟨style, .new out? flushFails, .new diagnostics? false⟩) j k := by
  intro told
  have hfeed : ∀ m ∈ matchesOf told, '\n' ∉ m.line := fun m => Table.feed_not_mem_of_mem_matchesOf
    fun line hline => feed_not_mem_trimLine (Table.mem_of_mem_linesWithin hline)
  have hlines : ∀ line ∈ recordLines style told, IsLine line := by
    intro line hline
    obtain ⟨m, hm, rfl⟩ := List.mem_map.mp hline
    exact LineMatch.isLine_record (hfeed m hm) style
  obtain ⟨stats, hstats, hsearch⟩ := searchFile_eq (t := t) maxCount? h
  refine ⟨hlines, stats, ?_, fun out? diagnostics? flushFails => ?_⟩
  · rw [hstats, ← length_matchesOf]
    exact (List.length_map _).symm
  obtain ⟨j, part, hj, hpart, htext, hdiagnostics, hend⟩ := Printer.deliver_limited told
    (p := ⟨style, .new out? flushFails, .new diagnostics? false⟩)
    (Device.hasRoom_new out? flushFails) hfeed
  obtain ⟨k, hk, hwarnings⟩ := (Device.hasRoom_new diagnostics? false).writeEach
    (warningLines (beforeMatch j told))
  have htext : _ = ((recordLines style told).take j).flatten ++ part := htext
  rw [hsearch]
  refine ⟨j, k, {
    fits := hj
    warnings_fit := hk
    wholeLines_eq := Device.wholeLines_eq htext
      (fun line hline => hlines line (List.mem_of_mem_take hline)) hpart
    diagnostics_eq := hdiagnostics ▸ hwarnings
    ends := ?_ }⟩
  refine hend.imp ?_ ?_
  · rintro ⟨rfl, rfl, hok, hflush⟩
    rw [List.take_length, List.append_nil] at htext
    refine ⟨rfl, htext, ?_⟩
    rw [Printer.result, hok]
    dsimp only
    rw [Printer.finish, Device.flush, hflush]
    rcases flushFails with _ | _
    · rfl
    · rfl
  · rintro ⟨hlt, herror⟩
    exact ⟨hlt, by rw [Printer.result, herror]⟩

/-- The diagnostics matter neither to the output nor to the result. -/
theorem searchFile_out_eq (h : s.openPath path = .ok (.file bytes))
    (out diagnostics diagnostics' : Device) :
    let run := searchFile s t path maxCount? ⟨style, out, diagnostics⟩
    let run' := searchFile s t path maxCount? ⟨style, out, diagnostics'⟩
    run.1.out = run'.1.out ∧ run.2 = run'.2 := by
  obtain ⟨stats, -, hsearch⟩ := searchFile_eq (t := t) maxCount? h
  have hdeliver := Printer.deliver_out (t.eventsFrom 1 (t.linesWithin maxCount? 1 (allLines bytes)))
  obtain ⟨hout, hresult⟩ := Prod.mk.inj ((hdeliver ⟨style, out, diagnostics⟩).trans
    (hdeliver ⟨style, out, diagnostics'⟩).symm)
  dsimp only
  rw [hsearch, hsearch]
  refine ⟨hout, ?_⟩
  simp only [Printer.result, Printer.finish, hout, hresult]

/-- What becomes of a search where its devices fill up or cannot be emptied. With room for all
records on the output nothing changes. With less, the search fails, the whole lines on the output
are the records that fit, and the warnings are those of the lines before the next match. A limit on
the diagnostics leaves the warnings that fit and changes nothing else, and a failure at the end
leaves the output as it is. -/
theorem searchFile_within_limits (s : Surroundings) (t : Table) (path : List Char)
    (bytes : List UInt8) (maxCount? : Option Nat) (style : PrintStyle)
    (h : s.openPath path = .ok (.file bytes)) :
    let told := ((Searcher.new t maxCount?).searchEvents none [] true (.ofBytes bytes)).1
    let lines := recordLines style told
    let search := fun out? diagnostics? flushFails => searchFile s t path maxCount?
      ⟨style, .new out? flushFails, .new diagnostics? false⟩
    (∀ line ∈ lines ++ warningLines told, IsLine line) ∧
    (∃ stats, (search none none false).2 = .ok stats ∧ stats.matched = lines.length ∧
      (search none none false).1.out.text = lines.flatten ∧
      (search none none false).1.diagnostics.text = (warningLines told).flatten) ∧
    (∀ limit diagnostics?, Utf8.byteLength lines.flatten ≤ limit →
      let run := search (some limit) diagnostics? false
      let free := search none diagnostics? false
      run.2 = free.2 ∧ run.1.out.text = free.1.out.text ∧
        run.1.diagnostics.text = free.1.diagnostics.text) ∧
    (∀ limit diagnostics? flushFails, limit < Utf8.byteLength lines.flatten →
      let run := search (some limit) diagnostics? flushFails
      ∃ e j k, run.2 = .error e ∧ e = .search (.sink Device.fullReason) ∧ e.exitCode = 2 ∧
        j < lines.length ∧ Fits (some limit) lines j ∧
        run.1.out.wholeLines = (lines.take j).flatten ∧
        Fits diagnostics? (warningLines (beforeMatch j told)) k ∧
        run.1.diagnostics.text = ((warningLines (beforeMatch j told)).take k).flatten) ∧
    (∀ out? limit flushFails,
      let run := search out? (some limit) flushFails
      let free := search out? none flushFails
      run.1.out = free.1.out ∧ run.2 = free.2 ∧ ∃ warned k, (∀ line ∈ warned, IsLine line) ∧
        free.1.diagnostics.text = warned.flatten ∧ Fits (some limit) warned k ∧
        run.1.diagnostics.text = (warned.take k).flatten) ∧
    ∀ out? diagnostics? stats, (search out? diagnostics? false).2 = .ok stats →
      let run := search out? diagnostics? true
      run.2 = .error (.search (.sink Device.flushReason)) ∧
        run.1.out.text = (search out? diagnostics? false).1.out.text ∧
        run.1.diagnostics.text = (search out? diagnostics? false).1.diagnostics.text := by
  intro told lines search
  have htold : told = t.eventsFrom 1 (t.linesWithin maxCount? 1 (allLines bytes)) :=
    ((Searcher.Built.new : (Searcher.new t maxCount?).Built t maxCount?).searchEvents_eq none []
      (.ofBytes bytes) (fun _ => nofun)).1
  obtain ⟨hlines, stats, hstats, hprints⟩ := searchFile_printsWithin (t := t) maxCount? style h
  rw [← htold] at hlines hstats hprints
  have hall : beforeMatch lines.length told = told := beforeMatch_of_le (by
    rw [← length_matchesOf]
    exact (List.length_map _).ge)
  refine ⟨fun line hline => ?_, ?_, fun limit diagnostics? hle => ?_,
    fun limit diagnostics? flushFails hlt => ?_, fun out? limit flushFails => ?_,
    fun out? diagnostics? stats' hok => ?_⟩
  · exact (List.mem_append.mp hline).elim (hlines line) isLine_of_mem_warningLines
  · obtain ⟨j, k, hrun⟩ := hprints none none false
    obtain rfl := hrun.fits.eq_length nofun
    obtain ⟨hout, hok⟩ := hrun.of_length rfl
    exact ⟨stats, hok, hstats, hout, hall ▸ hrun.diagnostics_eq_flatten⟩
  · obtain ⟨j, k, hrun⟩ := hprints (some limit) diagnostics? false
    obtain ⟨j', k', hfree⟩ := hprints none diagnostics? false
    have hj := hrun.fits.eq_length fun _ hlimit => Option.some.inj hlimit ▸ hle
    have hj' := hfree.fits.eq_length nofun
    obtain ⟨hout, hok⟩ := hrun.of_length hj
    obtain ⟨hout', hok'⟩ := hfree.of_length hj'
    exact ⟨hok.trans hok'.symm, hout.trans hout'.symm,
      hrun.diagnostics_congr hfree (hj.trans hj'.symm)⟩
  · obtain ⟨j, k, hrun⟩ := hprints (some limit) diagnostics? flushFails
    have hj := hrun.fits.lt_length hlt
    exact ⟨_, j, k, hrun.of_lt_length hj, rfl, rfl, hj, hrun.fits, hrun.wholeLines_eq,
      hrun.warnings_fit, hrun.diagnostics_eq⟩
  · obtain ⟨hout, hresult⟩ := searchFile_out_eq (t := t) maxCount? style h (.new out? flushFails)
      (.new (some limit) false) (.new none false)
    obtain ⟨j, k, hrun⟩ := hprints out? (some limit) flushFails
    obtain ⟨j', k', hfree⟩ := hprints out? none flushFails
    -- The records on the output do not depend on the limit of the diagnostics.
    obtain rfl := hrun.fits.unique hfree.fits
    exact ⟨hout, hresult, _, k, fun _ => isLine_of_mem_warningLines, hfree.diagnostics_eq_flatten,
      hrun.warnings_fit, hrun.diagnostics_eq⟩
  · obtain ⟨j, k, hrun⟩ := hprints out? diagnostics? true
    obtain ⟨j', k', hfree⟩ := hprints out? diagnostics? false
    obtain rfl := hrun.fits.unique hfree.fits
    have hj : j = lines.length :=
      (hfree.ends.resolve_right fun herror => nomatch hok.symm.trans herror.2).1
    obtain ⟨hout, hflush⟩ := hrun.of_length hj
    exact ⟨hflush, hout.trans (hfree.of_length hj).1.symm, hrun.diagnostics_congr hfree rfl⟩

/-- The output fills up at the line feed of the second match, after a skipped line whose warning
does not fit. -/
theorem searchFile_within_limits_full :
    let t : Table := ⟨#[⟨.branch, .final, .final⟩], by decide, by decide, by decide⟩
    let s : Surroundings := ⟨fun _ => .ok (.file [97, 10, 255, 10, 98, 10]), [], false⟩
    let run := searchFile s t ['f'] none
      ⟨⟨false, false, false⟩, .new (some 3) false, .new (some 9) false⟩
    (∃ e, run.2 = .error e ∧ e.exitCode = 2) ∧ run.1.out.wholeLines = ['a', '\n'] ∧
      run.1.diagnostics.text = [] := by
  intro t s run
  have haccepts : t.Accepts [] := .pass rfl rfl (by decide) (.here .final)
  have htold : ((Searcher.new t none).searchEvents none [] true
      (.ofBytes [97, 10, 255, 10, 98, 10])).1 =
      [.matched ⟨1, ⟨0, 0⟩, ['a']⟩, .skipped 2 ⟨0, .invalid 1⟩, .matched ⟨3, ⟨0, 0⟩, ['b']⟩] := by
    rw [Searcher.searchEvents_new,
      show allLines [97, 10, 255, 10, 98, 10] = [[97, 10], [255, 10], [98, 10]] from rfl]
    iterate 3 rw [Table.eventsFrom_cons]
    rw [Table.eventOf?_of_accepts_nil haccepts 1 ['a'] rfl,
      Table.eventOf?_of_accepts_nil haccepts 3 ['b'] rfl]
    rfl
  have hopen : s.openPath ['f'] = .ok (.file [97, 10, 255, 10, 98, 10]) := rfl
  obtain ⟨-, -, -, hfull, -, -⟩ :=
    searchFile_within_limits s t ['f'] _ none ⟨false, false, false⟩ hopen
  rw [htold] at hfull
  obtain ⟨e, j, k, herror, -, hexit, -, hj, hout, hk, hdiagnostics⟩ :=
    hfull 3 (some 9) false (by decide)
  have hone : Fits (some 3) [['a', '\n'], ['b', '\n']] 1 :=
    (fits_zero (by decide)).cons fun _ hlimit => Option.some.inj hlimit ▸ by decide
  obtain rfl := hj.unique hone
  obtain rfl := hk.unique (fits_zero (by decide))
  exact ⟨⟨e, herror, hexit⟩, hout, hdiagnostics⟩

end Search

end PatternScan
