import Mathlib.Logic.Relation
import PatternScan.Proofs.Recognition

/-!
# The line ends of a written table

Other line ends leave the records of a text as they are, if only the last line has an end
(`Table.recordTexts_of_edits`); so they leave the table as it is, and a text without the last line
feed is read in the same way. But a carriage return is part of a line end just before a line feed
alone: at the end of the text it belongs to the last record, and no record ends in one
(`Table.ofText_of_lineEndEdits`).
-/

namespace PatternScan

section Lines

/-- A text without a line feed is one line, whatever it ends in. -/
theorem linesOf_of_feed_not_mem {line : List Char} (hne : line ≠ []) (hfeed : '\n' ∉ line) :
    linesOf line = [line] := by
  obtain ⟨line, c, rfl⟩ := (List.eq_nil_or_concat' line).resolve_left hne
  rw [List.mem_append, List.mem_singleton, not_or] at hfeed
  have hc : linesOf [c] = [[c]] := by
    rw [linesOf, linesOf]
    · exact Ne.symm hfeed.2
    · exact fun _ _ => List.cons_ne_nil _ _ ∘ Eq.symm
  refine linesOf_append_line hc hfeed.1 fun _ => ?_
  simpa [eq_comm] using hfeed.2

theorem linesOf_append {before : List Char} (h : ∀ c ∈ before.getLast?, c = '\n')
    (rest : List Char) : linesOf (before ++ rest) = linesOf before ++ linesOf rest := by
  fun_induction linesOf before with
  | case1 => rfl
  | case2 before ih =>
    have ih := ih fun c hc => h c (List.mem_getLast?_cons hc)
    rw [List.cons_append, linesOf, ih, List.cons_append]
  | case3 before ih =>
    have ih := ih fun c hc => h c (List.mem_getLast?_cons (List.mem_getLast?_cons hc))
    rw [List.cons_append, List.cons_append, linesOf, ih, List.cons_append]
  | case4 c before hc hreturn hrest ih =>
    obtain rfl := linesOf_eq_nil_iff.mp hrest
    exact absurd (h c rfl) hc
  | case5 c before hc hreturn line more hrest ih =>
    have ih := ih fun c hc => h c (List.mem_getLast?_cons hc)
    rw [hrest] at ih
    refine linesOf_cons hc (fun hc' hhead => ?_) ih
    rcases before with _ | ⟨c', before⟩
    · cases hrest
    · obtain rfl := Option.some.inj hhead
      exact hreturn _ hc' rfl

/-- The last line of a text, which may be empty, and what comes before it. -/
theorem exists_lastLine (text : List Char) : ∃ before line, text = before ++ line ∧
    (∀ c ∈ before.getLast?, c = '\n') ∧ '\n' ∉ line := by
  rcases hcut : cutAtLast? '\n' text with _ | ⟨before, line⟩
  · exact ⟨[], text, rfl, by simp, cutAtLast?_eq_none_iff.mp hcut⟩
  · obtain ⟨rfl, hline⟩ := cutAtLast?_eq_some_iff.mp hcut
    exact ⟨before ++ ['\n'], line, by simp, by simp, hline⟩

end Lines

namespace Table

variable {text text' : List Char} {t : Table}

/-- The records of a text as they are when a line feed comes after it. -/
def recordTexts (text : List Char) : List (List Char) :=
  (linesOf (text ++ ['\n'])).filter (· ≠ [])

theorem recordTexts_eq_of_no_return (h : text.getLast? ≠ some '\r') :
    recordTexts text = (linesOf text).filter (· ≠ []) := by
  obtain ⟨before, line, rfl, hbefore, hfeed⟩ := exists_lastLine text
  rw [recordTexts, List.append_assoc, linesOf_append hbefore, linesOf_append hbefore]
  rcases line with _ | ⟨c, line⟩
  · simp [linesOf]
  · rw [List.getLast?_append_cons] at h
    rw [linesOf_append_feed [] hfeed h, linesOf_of_feed_not_mem (List.cons_ne_nil c line) hfeed]
    rfl

theorem LineEndEdit.recordTexts_eq (h : LineEndEdit text text') :
    recordTexts text' = recordTexts text := by
  have hfeed : ∀ text, recordTexts (text ++ ['\n']) = recordTexts text := by
    intro text
    rw [recordTexts, linesOf_append (by simp)]
    simp [recordTexts, linesOf]
  cases h with
  | @carriageReturn before record after hbefore hne hrecord hreturn hafter =>
    -- A line feed follows the record, if only the one at the end.
    obtain ⟨rest, hrest⟩ : ∃ rest, after ++ ['\n'] = '\n' :: rest := by
      rcases after with _ | ⟨c, after⟩
      · exact ⟨[], rfl⟩
      · exact ⟨after ++ ['\n'], by rw [hafter c rfl, List.cons_append]⟩
    simp only [recordTexts, List.append_assoc, List.cons_append, hrest, linesOf_append hbefore,
      linesOf_append_feed rest hrecord hreturn, linesOf_append_return_feed rest hrecord]
  | @blankLine before line after hbefore hline =>
    have hblank :
        linesOf (line ++ '\n' :: (after ++ ['\n'])) = [] :: linesOf (after ++ ['\n']) := by
      rcases hline with rfl | rfl
      · exact linesOf_append_feed _ List.not_mem_nil (by simp)
      · exact linesOf_append_return_feed _ List.not_mem_nil
    simp only [recordTexts, List.append_assoc, List.cons_append, linesOf_append hbefore, hblank,
      List.filter_append]
    rfl
  | addFeed => exact hfeed text
  | removeFeed => exact (hfeed text').symm

theorem recordTexts_of_edits (h : Relation.ReflTransGen LineEndEdit text text') :
    recordTexts text' = recordTexts text := by
  induction h with
  | refl => rfl
  | tail _ hedit ih => exact hedit.recordTexts_eq.trans ih

section Reading

theorem readStates_append (more : List (List Char)) : ∀ (lines : List (List Char))
    (number expected : Nat), readStates number expected (lines ++ more) =
      (readStates number expected lines).bind fun states =>
        (readStates (number + lines.length) (expected + states.length) more).map (states ++ ·)
  | [], number, expected => by
    show readStates number expected more = (readStates number expected more).map ([] ++ ·)
    rcases readStates number expected more with e | states <;> rfl
  | [] :: lines, number, expected => by
    have ih := readStates_append more lines (number + 1) expected
    rw [List.length_cons, Nat.add_comm lines.length, ← Nat.add_assoc]
    exact ih
  | (c :: line) :: lines, number, expected => by
    have hne := List.cons_ne_nil c line
    have ih := readStates_append more lines (number + 1) (expected + 1)
    rw [List.cons_append, readStates_cons hne, readStates_cons hne, ih]
    rcases State.ofRecord (c :: line) with fault | ⟨id, s⟩
    · rfl
    by_cases hid : id = expected
    · simp only [hid, ↓reduceIte]
      rcases readStates (number + 1) (expected + 1) lines with e | states
      · rfl
      · show ((readStates (number + 1 + lines.length) (expected + 1 + states.length) more).map
            (states ++ ·)).map (s :: ·) =
          (readStates (number + (lines.length + 1)) (expected + (states.length + 1)) more).map
            (s :: states ++ ·)
        rw [Nat.add_right_comm, Nat.add_right_comm expected]
        rcases readStates (number + lines.length + 1) (expected + states.length + 1) more with
          e | others <;> rfl
    · simp only [hid, ↓reduceIte]
      rfl

theorem areRecords_iff_map_fst {limit id : Nat} {records : List (List Char × Nat)}
    {states : List State} : AreRecords limit id records states ↔
      List.Forall₂ (fun record (s, id) => IsRecord limit record id s) (records.map Prod.fst)
        (states.zipIdx id) := by
  rw [List.forall₂_map_left_iff]
  rfl

theorem map_fst_recordsFrom (number : Nat) (lines : List (List Char)) :
    (recordsFrom number lines).map Prod.fst = lines.filter (· ≠ []) := by
  calc (recordsFrom number lines).map Prod.fst
      = ((lines.zipIdx number).map Prod.fst).filter (· ≠ []) := by rw [List.filter_map]; rfl
    _ = lines.filter (· ≠ []) := by rw [List.zipIdx_map_fst]

/-- Blank lines do not count, apart from the numbers of the lines after them. -/
theorem readStates_of_filter_eq {lines lines' : List (List Char)} {number number' expected : Nat}
    {states : List State} (h : lines'.filter (· ≠ []) = lines.filter (· ≠ []))
    (hread : readStates number expected lines = .ok states) :
    readStates number' expected lines' = .ok states := by
  rw [readStates_eq_ok_iff, areRecords_iff_map_fst, map_fst_recordsFrom] at hread ⊢
  rwa [h]

theorem ofText_of_filter_eq (h : (linesOf text').filter (· ≠ []) = (linesOf text).filter (· ≠ []))
    (htext : ofText text = .ok t) : ofText text' = .ok t := by
  obtain ⟨states, hread, hstates⟩ := ofText_eq_ok_iff.mp htext
  exact ofText_eq_ok_iff.mpr ⟨states, readStates_of_filter_eq h hread, hstates⟩

/-- A carriage return at the end of a text is one of the last line, which is therefore no record. -/
theorem readStates_of_return (h : text.getLast? = some '\r') : ∃ before line fault,
    text = before ++ line ∧ (∀ c ∈ before.getLast?, c = '\n') ∧
      readStates 1 0 (linesOf text) = (readStates 1 0 (linesOf before)).bind fun _ =>
        .error (.malformedRecord (linesOf text).length fault) := by
  obtain ⟨before, line, rfl, hbefore, hfeed⟩ := exists_lastLine text
  have hne : line ≠ [] := by
    rintro rfl
    rw [List.append_nil] at h
    exact absurd (hbefore _ h) (by decide)
  rw [List.getLast?_append_of_ne_nil _ hne] at h
  obtain ⟨fault, hfault⟩ : ∃ fault, State.ofRecord line = .error fault := by
    rcases hrecord : State.ofRecord line with fault | ⟨id, s⟩
    · exact ⟨fault, rfl⟩
    · obtain ⟨fields, rfl, hs⟩ := State.ofRecord_eq_ok_iff.mp hrecord
      exact absurd (RecordFields.mem_second_of_getLast?_line h (by decide))
        (hs.second.not_mem (by decide) (by decide) (by decide))
  refine ⟨before, line, fault, rfl, hbefore, ?_⟩
  rw [linesOf_append hbefore, linesOf_of_feed_not_mem hne hfeed, readStates_append]
  congr 1
  funext states
  rw [readStates_cons hne, hfault, List.length_append, List.length_singleton, Nat.add_comm 1]
  rfl

/-- If the text is read once a line feed comes after it, all lines but the last are without
fault. -/
theorem ofText_of_return (h : text.getLast? = some '\r') (hfeed : ofText (text ++ ['\n']) = .ok t) :
    ∃ fault, ofText text = .error (.malformedRecord (linesOf text).length fault) := by
  obtain ⟨before, line, fault, rfl, hbefore, hread⟩ := readStates_of_return h
  obtain ⟨states, hstates, -⟩ := ofText_eq_ok_iff.mp hfeed
  rw [List.append_assoc, linesOf_append hbefore, readStates_append] at hstates
  refine ⟨fault, ofText_eq_error (hread.trans ?_)⟩
  rcases hlines : readStates 1 0 (linesOf before) with e | earlier
  · rw [hlines] at hstates
    cases hstates
  · rfl

theorem getLast?_ne_return_of_ofText (h : ofText text = .ok t) : text.getLast? ≠ some '\r' := by
  intro hreturn
  obtain ⟨before, line, fault, rfl, -, hread⟩ := readStates_of_return hreturn
  obtain ⟨states, hstates, -⟩ := ofText_eq_ok_iff.mp h
  rw [hread] at hstates
  rcases hlines : readStates 1 0 (linesOf before) with e | earlier
  · rw [hlines] at hstates
    cases hstates
  · rw [hlines] at hstates
    cases hstates

end Reading

/-- Other line ends leave the table as it is, unless the text ends in a carriage return: a line
feed has to follow this, or else the last line is a malformed record. -/
theorem ofText_of_lineEndEdits (h : ofText text = .ok t)
    (hedits : Relation.ReflTransGen LineEndEdit text text') :
    (text'.getLast? ≠ some '\r' → ofText text' = .ok t) ∧
      (text'.getLast? = some '\r' → ofText (text' ++ ['\n']) = .ok t ∧
        ∃ fault, ofText text' = .error (.malformedRecord (linesOf text').length fault)) := by
  have hrecords : recordTexts text' = (linesOf text).filter (· ≠ []) :=
    (recordTexts_of_edits hedits).trans
      (recordTexts_eq_of_no_return (getLast?_ne_return_of_ofText h))
  have hfeed : ofText (text' ++ ['\n']) = .ok t := ofText_of_filter_eq hrecords h
  refine ⟨fun hreturn => ?_, fun hreturn => ⟨hfeed, ofText_of_return hreturn hfeed⟩⟩
  rw [recordTexts_eq_of_no_return hreturn] at hrecords
  exact ofText_of_filter_eq hrecords h

/-- Carriage returns, a blank line and a last line feed change nothing; without the line feed the
last carriage return is one too many. -/
theorem ofText_of_lineEndEdits_returns :
    ∃ t, ofText "0,x,1,1\n1,,,-1,-1".toList = .ok t ∧
      Relation.ReflTransGen LineEndEdit "0,x,1,1\n1,,,-1,-1".toList
        "0,x,1,1\r\n\r\n1,,,-1,-1\r\n".toList ∧
      ofText "0,x,1,1\r\n\r\n1,,,-1,-1\r\n".toList = .ok t ∧
      ∃ fault, ofText "0,x,1,1\r\n\r\n1,,,-1,-1\r".toList = .error (.malformedRecord 3 fault) := by
  obtain ⟨t, ht⟩ : ∃ t, ofText "0,x,1,1\n1,,,-1,-1".toList = .ok t := ⟨_, rfl⟩
  have hedits : Relation.ReflTransGen LineEndEdit "0,x,1,1\n1,,,-1,-1".toList
      "0,x,1,1\r\n\r\n1,,,-1,-1\r\n".toList := by
    refine .head (@LineEndEdit.carriageReturn [] "0,x,1,1".toList "\n1,,,-1,-1".toList
      (by simp) (by decide) (by decide) (by decide) (by simp)) ?_
    refine .head (@LineEndEdit.blankLine "0,x,1,1\r\n".toList ['\r'] "1,,,-1,-1".toList
      (by simp) (.inr rfl)) ?_
    refine .head (@LineEndEdit.carriageReturn "0,x,1,1\r\n\r\n".toList "1,,,-1,-1".toList []
      (by simp) (by decide) (by decide) (by decide) (by simp)) ?_
    exact .single .addFeed
  refine ⟨t, ht, hedits, (ofText_of_lineEndEdits ht hedits).1 (by decide), ?_⟩
  have hremove : Relation.ReflTransGen LineEndEdit "0,x,1,1\n1,,,-1,-1".toList
      "0,x,1,1\r\n\r\n1,,,-1,-1\r".toList :=
    hedits.tail (@LineEndEdit.removeFeed "0,x,1,1\r\n\r\n1,,,-1,-1\r".toList)
  exact ((ofText_of_lineEndEdits ht hremove).2 (by decide)).2

/-- A carriage return at the end of a text is not part of a line end. -/
theorem ofText_return_at_end :
    ∃ t, ofText "0,x,-1,-1".toList = .ok t ∧
      LineEndEdit "0,x,-1,-1".toList "0,x,-1,-1\r".toList ∧
      ofText "0,x,-1,-1\r".toList = .error (.malformedRecord 1 (.successor "-1\r".toList)) :=
  ⟨_, rfl, @LineEndEdit.carriageReturn [] "0,x,-1,-1".toList [] (by simp) (by decide) (by decide)
    (by decide) (by simp), rfl⟩

end Table

end PatternScan
