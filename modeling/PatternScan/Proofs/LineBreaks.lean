import Mathlib.Data.List.Basic
import PatternScan.Proofs.Delivery
import PatternScan.Proofs.Ends
import PatternScan.Pattern.Parse

/-!
# Line breaks in searched lines

A text is given to the matcher of a search if the search comes to a turn that reads it
(`Searcher.Hands.exists_turn`), and matches in other texts are none of its business
(`Searcher.searchFrom_congr`). The texts are those of the lines (`Searcher.Hands.exists_line`), and
all of them if nothing stops the search (`Searcher.hands_of_mem_lines`). A line feed stands in none
of them, so what cannot be matched without one is never found. But a carriage return does, wherever
it is not the last byte of a line (`Searcher.hands_line_breaks`).
-/

namespace PatternScan

open Source (lineFeed carriageReturn)

/-- Only one byte is taken from the end. -/
theorem mem_dropEnd_iff {byte : UInt8} {line : List UInt8} :
    byte ∈ dropEnd byte line ↔ byte ∈ line.dropLast := by
  unfold dropEnd
  split
  · rfl
  · next hlast =>
    refine ⟨fun hmem => ?_, fun hmem => (List.dropLast_sublist line).subset hmem⟩
    have hform := (List.eq_nil_or_concat' line).resolve_left (List.ne_nil_of_mem hmem)
    obtain ⟨before, last, rfl⟩ := hform
    rw [List.getLast?_concat, Option.some.injEq] at hlast
    rw [List.dropLast_concat]
    exact (List.mem_append.mp hmem).resolve_right fun h => hlast (List.mem_singleton.mp h).symm

namespace Source

variable {s rest : Source}

theorem lines_of_readLine_interrupted (h : s.readLine = .interrupted rest) :
    rest.lines = s.lines := by
  unfold readLine at h
  split at h
  · obtain rfl := LineRead.interrupted.inj h
    rfl
  · split at h
    · cases h
    · split at h
      · cases h
      · split at h <;> cases h

theorem interruptions_of_readLine_line {line : List UInt8} (h : s.readLine = .line line rest) :
    s.interruptions = 0 := by
  rcases hs : s.interruptions with _ | n
  · rfl
  · rw [readLine, hs] at h
    cases h

theorem lines_of_readLine_line {line : List UInt8} (h : s.readLine = .line line rest) :
    s.lines = line :: rest.lines := by
  have hs := interruptions_of_readLine_line h
  rcases hlines : s.lines with _ | ⟨line', lines⟩
  · rw [readLine_of_lines_nil hs hlines] at h
    rcases hfailure : s.failure? with _ | reason <;> rw [hfailure] at h <;> cases h
  · obtain ⟨bytes, hread, hrest⟩ := readLine_of_lines_cons hs hlines
    obtain ⟨rfl, rfl⟩ := LineRead.line.inj (hread.symm.trans h)
    rw [hrest]

/-- No line has a line feed before its end. -/
theorem feed_not_mem_of_mem_lines {line : List UInt8} (h : line ∈ s.lines) :
    lineFeed ∉ trimLine line := by
  have hall : line ∈ allLines s.bytes := by
    unfold lines at h
    split at h
    · exact h
    · obtain ⟨more, hmore⟩ := exists_allLines_eq s.bytes
      exact hmore ▸ List.mem_append_left more h
  exact feed_not_mem_trimLine hall

end Source

/-- What is accepted only with a certain character is not found in a text without it. -/
theorem Matcher.find_new_of_accepts_mem {t : Table} {text : List Char} {c : Char}
    (h : ∀ word, t.Accepts word → c ∈ word) (hc : c ∉ text) :
    ((Matcher.new t).find text).2 = none := by
  refine (find_new_eq_none_iff t text).mpr fun i _ j hspans => ?_
  obtain ⟨word, hword, hplace, -⟩ := Table.spans_iff_between.mp hspans
  exact hc (List.mem_of_mem_drop (hplace.subset (h word hword)))

namespace Searcher

variable {σ : Type} {sink : Sink σ} {text : List Char} {s : Searcher} {state : σ}
  {stats : SearchStats} {source : Source}

/-- Where a text is given to the matcher the search comes to a turn that reads its line. -/
theorem Hands.exists_turn (h : Hands sink text s state stats source) :
    ∃ s' state' stats' source' line rest,
      s.searchFrom sink state stats source = searchFrom s' sink state' stats' source' ∧
      ¬ stats'.reached s'.maxCount? ∧ source'.readLine = .line line rest ∧
      Utf8.decode (trimLine line) = .ok text := by
  induction h with
  | next hreached hread htext => exact ⟨_, _, _, _, _, _, rfl, hreached, hread, htext⟩
  | interrupted hreached hread _ ih =>
    rw [searchFrom_of_not_reached hreached, hread]
    exact ih
  | later hreached hread hline _ ih =>
    rw [searchFrom_of_not_reached hreached, hread]
    simp only [hline]
    exact ih

theorem searchLine_congr {sink' : Sink σ} {rest : Source} {line : List UInt8}
    (hreached : ¬ stats.reached s.maxCount?) (hread : source.readLine = .line line rest)
    (hmatched : ∀ state' found, Hands sink found.line s state stats source →
      sink'.matched state' found = sink.matched state' found)
    (hskipped : sink'.skipped = sink.skipped) :
    searchLine s.matcher sink' state stats (trimLine line) =
      searchLine s.matcher sink state stats (trimLine line) := by
  unfold searchLine
  rcases htext : Utf8.decode (trimLine line) with e | text
  · simp only [hskipped]
  · dsimp only
    rcases s.matcher.find text with ⟨matcher, _ | found⟩
    · rfl
    · simp only [hmatched _ ⟨_, found, text⟩ (.next hreached hread htext)]

/-- What a search does with matches in other texts than those given to its matcher does not
matter. -/
theorem searchFrom_congr {sink' : Sink σ}
    (hmatched : ∀ state' found, Hands sink found.line s state stats source →
      sink'.matched state' found = sink.matched state' found)
    (hskipped : sink'.skipped = sink.skipped) :
    s.searchFrom sink' state stats source = s.searchFrom sink state stats source := by
  fun_induction searchFrom s sink state stats source with
  | case1 s state stats source hreached => exact searchFrom_of_reached hreached
  | case2 s state stats source hreached hread =>
    rw [searchFrom_of_not_reached hreached, hread]
  | case3 s state stats source hreached reason hread =>
    rw [searchFrom_of_not_reached hreached, hread]
  | case4 s state stats source hreached rest hread ih =>
    rw [searchFrom_of_not_reached hreached, hread]
    exact ih fun state' found h => hmatched state' found (.interrupted hreached hread h)
  | case5 s state stats source hreached line rest hread state' matcher stats' reason hline =>
    rw [searchFrom_of_not_reached hreached, hread]
    simp only [searchLine_congr hreached hread hmatched hskipped, hline]
  | case6 s state stats source hreached line rest hread state' matcher stats' hline ih =>
    rw [searchFrom_of_not_reached hreached, hread]
    simp only [searchLine_congr hreached hread hmatched hskipped, hline]
    exact ih fun state' found h => hmatched state' found (.later hreached hread hline h)

theorem Hands.exists_line (h : Hands sink text s state stats source) :
    ∃ line ∈ source.lines, trimLine line = Utf8.encode text := by
  induction h with
  | next _ hread htext =>
    rw [Source.lines_of_readLine_line hread]
    exact ⟨_, List.mem_cons_self, Utf8.decode_eq_ok_iff.mp htext⟩
  | interrupted _ hread _ ih => exact Source.lines_of_readLine_interrupted hread ▸ ih
  | later _ hread _ _ ih =>
    obtain ⟨line, hline, htext⟩ := ih
    rw [Source.lines_of_readLine_line hread]
    exact ⟨line, List.mem_cons_of_mem _ hline, htext⟩

theorem searchLine_ok (hsink : ∀ state m, (sink.matched state m).2 = .ok ()) (m : Matcher)
    (state : σ) (stats : SearchStats) (line : List UInt8) : ∃ state' matcher stats',
      searchLine m sink state stats (trimLine line) = (state', matcher, stats', .ok ()) := by
  unfold searchLine
  rcases Utf8.decode (trimLine line) with e | text
  · exact ⟨_, _, _, rfl⟩
  · dsimp only
    rcases m.find text with ⟨matcher, _ | found⟩
    · exact ⟨_, _, _, rfl⟩
    · exact ⟨_, _, _, congrArg (_, _, _, ·) (hsink _ _)⟩

/-- If nothing stops a search, it gives the texts of all lines to its matcher. -/
theorem hands_of_mem_lines (hsink : ∀ state m, (sink.matched state m).2 = .ok ()) :
    ∀ {lines : List (List UInt8)} {s : Searcher} (state : σ) (stats : SearchStats)
      {bytes line : List UInt8} {failure? : Option (List Char)}, s.maxCount? = none →
      Source.lines ⟨0, bytes, failure?⟩ = lines → line ∈ lines →
      Utf8.decode (trimLine line) = .ok text → Hands sink text s state stats ⟨0, bytes, failure?⟩
  | [], _, _, _, _, _, _, _, _, hmem, _ => absurd hmem List.not_mem_nil
  | first :: lines, s, state, stats, bytes, line, failure?, hlimit, hlines, hmem, htext => by
    have hreached : ¬ stats.reached s.maxCount? := by
      rw [hlimit]
      exact Bool.false_ne_true
    obtain ⟨rest, hread, hrest⟩ := Source.readLine_of_lines_cons rfl hlines
    rcases List.mem_cons.mp hmem with rfl | hmem
    · exact .next hreached hread htext
    · obtain ⟨state', matcher, stats', hline⟩ := searchLine_ok hsink s.matcher state stats first
      exact .later hreached hread hline
        (hands_of_mem_lines hsink state' stats' hlimit hrest hmem htext)

theorem hands_of_interruptions (hlimit : s.maxCount? = none) {bytes : List UInt8}
    {failure? : Option (List Char)} (h : Hands sink text s state stats ⟨0, bytes, failure?⟩) :
    ∀ n, Hands sink text s state stats ⟨n, bytes, failure?⟩
  | 0 => h
  | n + 1 => .interrupted (by rw [hlimit]; exact Bool.false_ne_true) rfl
    (hands_of_interruptions hlimit h n)

/-- The texts that a search gives to its matcher, each at a turn that it comes to, are those of its
lines, and of all its lines if it has no limit and its sink takes every match. What would become of
matches in other texts does not matter. None has a line feed in it, so nothing is found that cannot
be matched without one; but one has a carriage return if its line has one other than as its last
byte before its end. -/
theorem hands_line_breaks (s : Searcher) (sink : Sink σ) (state : σ) (source : Source) :
    (∀ text, s.Hands sink text state .zero source →
      '\n' ∉ text ∧
      (∀ e t, Table.ofExpr e = .ok t → (∀ word, e.Denotes word → '\n' ∈ word) →
        ((Matcher.new t).find text).2 = none) ∧
      (∃ line ∈ source.lines, trimLine line = Utf8.encode text ∧
        ('\r' ∈ text ↔ carriageReturn ∈ (dropEnd lineFeed line).dropLast)) ∧
      ∃ s' state' stats' source' line rest,
        s.search sink state source = searchFrom s' sink state' stats' source' ∧
        ¬ stats'.reached s'.maxCount? ∧ source'.readLine = .line line rest ∧
        Utf8.decode (trimLine line) = .ok text) ∧
    (s.maxCount? = none → (∀ state m, (sink.matched state m).2 = .ok ()) →
      ∀ line ∈ source.lines, ∀ text, trimLine line = Utf8.encode text →
        s.Hands sink text state .zero source) ∧
    ∀ sink' : Sink σ, sink'.skipped = sink.skipped →
      (∀ state' found, s.Hands sink found.line state .zero source →
        sink'.matched state' found = sink.matched state' found) →
      s.search sink' state source = s.search sink state source := by
  refine ⟨fun text h => ?_, fun hlimit hsink line hline text htext => ?_,
    fun sink' hskipped hmatched => searchFrom_congr hmatched hskipped⟩
  · obtain ⟨line, hline, htext⟩ := h.exists_line
    have hfeed : '\n' ∉ text := fun hmem =>
      Source.feed_not_mem_of_mem_lines hline (htext ▸ (Utf8.mem_encode_iff (by decide)).mpr hmem)
    refine ⟨hfeed, fun e t ht hwords => ?_, ⟨line, hline, htext, ?_⟩, h.exists_turn⟩
    · obtain ⟨hparts, hstates⟩ := Table.states_of_ofExpr ht
      exact Matcher.find_new_of_accepts_mem (fun word hword =>
        hwords word ((Expr.accepts_iff_denotes hparts hstates).mp hword)) hfeed
    · rw [← mem_dropEnd_iff, ← trimLine, htext]
      exact (Utf8.mem_encode_iff (b := carriageReturn) (by decide)).symm
  · obtain ⟨n, bytes, failure?⟩ := source
    exact hands_of_interruptions hlimit
      (hands_of_mem_lines hsink state .zero hlimit rfl hline (Utf8.decode_eq_ok_iff.mpr htext)) n

/-- Of the carriage returns before a line feed only the last one goes. -/
theorem hands_line_breaks_returns :
    let t : Table := ⟨#[⟨.wildcard, .final, .final⟩], by decide, by decide, by decide⟩
    let source : Source := ⟨1, [97, 13, 13, 10, 98, 13], none⟩
    (new t none).Hands (EventLog.sink none [] true) ['a', '\r'] .empty .zero source ∧
      '\n' ∉ ['a', '\r'] ∧ ∃ line ∈ source.lines, trimLine line = [97, 13] ∧
        carriageReturn ∈ (dropEnd lineFeed line).dropLast := by
  intro t source
  obtain ⟨hgiven, hall, -⟩ :=
    hands_line_breaks (new t none) (EventLog.sink none [] true) .empty source
  have hhands := hall rfl (fun _ _ => rfl) [97, 13, 13, 10] (by decide) ['a', '\r'] rfl
  obtain ⟨hfeed, -, ⟨line, hline, htext, hreturn⟩, -⟩ := hgiven _ hhands
  exact ⟨hhands, hfeed, line, hline, htext, hreturn.mp (by decide)⟩

/-- A carriage return inside a line is given to the matcher, and found, though no pattern may be
one. -/
theorem hands_return : ∃ t, Table.ofExpr (.literal '\r' ⟨0, 1⟩) = .ok t ∧
    (new t none).Hands (EventLog.sink none [] true) ['a', '\r', 'b'] .empty .zero
      (.ofBytes [97, 13, 98, 10]) ∧
    ((Matcher.new t).find ['a', '\r', 'b']).2 = some ⟨1, 2⟩ ∧
    Expr.parse ['\r'] = .error (.ofKind .lineBreak ⟨0, 1⟩) := by
  obtain ⟨t, ht, hstates⟩ := Table.exists_ofExpr_eq_ok (e := .literal '\r' ⟨0, 1⟩) trivial
  have hspans : ∀ i j, t.Spans ['a', '\r', 'b'] i j ↔ i = 1 ∧ j = 2 := by
    intro i j
    have haccepts : ∀ w, t.Accepts w ↔ w = ['\r'] := fun w =>
      Expr.accepts_iff_denotes (e := .literal '\r' ⟨0, 1⟩) trivial hstates
    rw [Table.spans_iff_between]
    simp only [Between, haccepts, exists_eq_left]
    rcases i with _ | _ | _ | i <;> simp
  refine ⟨t, ht, .next Bool.false_ne_true rfl rfl, ?_, rfl⟩
  have hspan := (hspans 1 2).mpr ⟨rfl, rfl⟩
  rw [Matcher.find_new_eq_some_iff]
  refine ⟨⟨⟨by decide, 2, hspan⟩, ?_⟩, hspan, fun j hj => ((hspans 1 j).mp hj).2.ge⟩
  rintro i ⟨-, j, hij⟩
  exact ((hspans i j).mp hij).1.ge

end Searcher

end PatternScan
