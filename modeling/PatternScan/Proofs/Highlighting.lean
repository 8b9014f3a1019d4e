import PatternScan.Pattern.Tiling
import PatternScan.Proofs.Printing
import PatternScan.Report.Highlight

/-!
# What color adds to a record

Codes put into a part of a text stay at their places in this part whatever stands around it, so the
codes of the line number and those of the line can be put in each on their own. The colored record
of a match that does not end before it starts is the plain one with these codes put in, and none of
the pieces in which it is written cuts a character (`LineMatch.colored_record`).
-/

namespace PatternScan

section Codes

variable {codes : List (Nat × List Char)} {text : List Char}

theorem insertCodes_append (codes more : List (Nat × List Char)) (text : List Char) :
    insertCodes (codes ++ more) text = insertCodes codes (insertCodes more text) :=
  List.foldr_append

theorem length_le_insertCodes (text : List Char) : ∀ codes : List (Nat × List Char),
    text.length ≤ (insertCodes codes text).length
  | [] => Nat.le_refl _
  | (place, code) :: codes => by
    have ih := length_le_insertCodes text codes
    rw [insertCodes_cons, List.length_append, List.length_append, List.length_take,
      List.length_drop]
    omega

/-- Codes that are put in before the end of a text leave alone what comes after it. -/
theorem insertCodes_left (after : List Char) : ∀ {codes : List (Nat × List Char)},
    (∀ code ∈ codes, code.1 ≤ text.length) →
      insertCodes codes (text ++ after) = insertCodes codes text ++ after
  | [], _ => rfl
  | (place, code) :: codes, h => by
    rw [List.forall_mem_cons] at h
    have hplace : place ≤ (insertCodes codes text).length :=
      Nat.le_trans h.1 (length_le_insertCodes text codes)
    rw [insertCodes_cons, insertCodes_left after h.2, List.take_append_of_le_length hplace,
      List.drop_append_of_le_length hplace, ← List.append_assoc, insertCodes_cons]

/-- Codes that are put in after the beginning of a text leave this beginning alone. -/
theorem insertCodes_right (before text : List Char) : ∀ codes : List (Nat × List Char),
    insertCodes (codes.map fun (place, code) => (before.length + place, code)) (before ++ text) =
      before ++ insertCodes codes text
  | [] => rfl
  | (place, code) :: codes => by
    rw [List.map_cons, insertCodes_cons, insertCodes_right before text codes,
      List.take_length_add_append, List.drop_length_add_append, insertCodes_cons]
    simp only [List.append_assoc]

/-- A code before a part of a text and one after it. -/
theorem insertCodes_pair {i j : Nat} (hi : i ≤ j) (hj : j ≤ text.length) (code code' : List Char) :
    insertCodes [(i, code), (j, code')] text =
      text.take i ++ code ++ (text.take j).drop i ++ code' ++ text.drop j := by
  have hpart : i ≤ (text.take j).length := by rwa [List.length_take_of_le hj]
  have hlast : insertCodes [(j, code')] text = text.take j ++ (code' ++ text.drop j) :=
    List.append_assoc _ _ _
  rw [insertCodes_cons, hlast, List.take_append_of_le_length hpart,
    List.drop_append_of_le_length hpart, List.take_take, Nat.min_eq_left hi]
  simp only [List.append_assoc]

/-- Taking the codes away again gives back the text. -/
theorem removeCodes_insertCodes : ∀ {codes : List (Nat × List Char)},
    (∀ code ∈ codes, code.1 ≤ text.length) → removeCodes codes (insertCodes codes text) = text
  | [], _ => rfl
  | (place, code) :: codes, h => by
    rw [List.forall_mem_cons] at h
    have hplace : place ≤ (insertCodes codes text).length :=
      Nat.le_trans h.1 (length_le_insertCodes text codes)
    have htake : ((insertCodes codes text).take place).length = place :=
      List.length_take_of_le hplace
    have hbefore : (insertCodes ((place, code) :: codes) text).take place =
        (insertCodes codes text).take place := by
      rw [insertCodes_cons, List.append_assoc, List.take_left' htake]
    have hafter : (insertCodes ((place, code) :: codes) text).drop (place + code.length) =
        (insertCodes codes text).drop place := by
      rw [insertCodes_cons, List.drop_left' (by rw [List.length_append, htake])]
    rw [removeCodes_cons, hbefore, hafter, List.take_append_drop, removeCodes_insertCodes h.2]

end Codes

namespace LineMatch

variable (m : LineMatch)

/-- A plain record is the line, after its margin. -/
theorem record_plain (lineNumber : Bool) :
    m.record ⟨lineNumber, false, false⟩ = m.margin lineNumber ++ m.line ++ ['\n'] := by
  cases lineNumber <;> simp [record, pieces, numberPieces, linePieces, margin]

/-- The margin with the codes around the line number. -/
theorem insertCodes_margin (lineNumber : Bool) :
    insertCodes (if lineNumber then m.numberCodes else []) (m.margin lineNumber) =
      if lineNumber then (m.numberPieces true).flatten else [] := by
  cases lineNumber
  · rfl
  · have hdigits : (Decimal.digits m.number).length ≤ (m.margin true).length := by simp [margin]
    rw [if_pos rfl, if_pos rfl, numberCodes, insertCodes_pair (Nat.zero_le _) hdigits]
    simp [numberPieces, margin]

theorem le_length_of_mem_numberCodes (lineNumber : Bool) :
    ∀ code ∈ (if lineNumber then m.numberCodes else []), code.1 ≤ (m.margin lineNumber).length := by
  cases lineNumber <;> simp [numberCodes, margin]

theorem le_length_of_mem_foundCodes : ∀ code ∈ m.foundCodes, code.1 ≤ m.line.length := by
  unfold foundCodes
  split
  · exact fun _ hmem => absurd hmem List.not_mem_nil
  · rw [List.forall_mem_cons, List.forall_mem_singleton]
    exact ⟨Nat.min_le_right _ _, Nat.min_le_right _ _⟩

/-- The part of the line that matched, with both positions brought into the line. -/
theorem drop_take_min : (m.line.take (min m.found.stop m.line.length)).drop
    (min m.found.start m.line.length) = (m.line.take m.found.stop).drop m.found.start := by
  rw [List.drop_take, List.drop_take, ← List.drop_eq_drop_min, List.take_eq_take_iff,
    List.length_drop]
  omega

/-- The line with the codes around the match. -/
theorem insertCodes_line (h : m.found.start ≤ m.found.stop) :
    insertCodes m.foundCodes m.line = (m.linePieces true).flatten := by
  unfold linePieces foundCodes
  by_cases heq : m.found.start = m.found.stop
  · rw [if_pos heq, if_neg (by simp [heq]), List.flatten_singleton]
    rfl
  · rw [if_neg heq, if_pos ⟨rfl, heq⟩, insertCodes_pair (by omega) (Nat.min_le_right _ _),
      drop_take_min, ← List.take_eq_take_min, ← List.drop_eq_drop_min]
    simp

/-- A colored record is the plain one with its codes put in. -/
theorem record_eq_insertCodes (h : m.found.start ≤ m.found.stop) (lineNumber : Bool) :
    m.record ⟨lineNumber, false, true⟩ =
      insertCodes (m.codes lineNumber) (m.record ⟨lineNumber, false, false⟩) := by
  rw [record_plain, codes, insertCodes_append, List.append_assoc, insertCodes_right,
    insertCodes_left _ m.le_length_of_mem_foundCodes,
    insertCodes_left _ (m.le_length_of_mem_numberCodes lineNumber), insertCodes_margin,
    insertCodes_line m h]
  cases lineNumber <;> simp [record, pieces]

/-- The codes lie within the plain record. -/
theorem le_length_of_mem_codes (lineNumber : Bool) : ∀ code ∈ m.codes lineNumber,
    code.1 ≤ (m.record ⟨lineNumber, false, false⟩).length := by
  intro code hcode
  rw [record_plain, List.length_append, List.length_append]
  rcases List.mem_append.mp hcode with hcode | hcode
  · have := m.le_length_of_mem_numberCodes lineNumber code hcode
    omega
  · obtain ⟨found, hfound, rfl⟩ := List.mem_map.mp hcode
    have := m.le_length_of_mem_foundCodes found hfound
    dsimp only
    omega

/-- One code comes after the other. -/
theorem pairwise_codes (h : m.found.start ≤ m.found.stop) (lineNumber : Bool) :
    (m.codes lineNumber).Pairwise fun code later => code.1 ≤ later.1 := by
  have hnumber : m.numberCodes.Pairwise fun code later => code.1 ≤ later.1 :=
    List.pairwise_pair.mpr (Nat.zero_le _)
  have hfound : m.foundCodes.Pairwise fun code later => code.1 ≤ later.1 := by
    unfold foundCodes
    split
    · exact List.Pairwise.nil
    · refine List.pairwise_pair.mpr ?_
      dsimp only
      omega
  refine List.pairwise_append.mpr ⟨?_, ?_, fun code hcode later hlater => ?_⟩
  · cases lineNumber
    · exact List.Pairwise.nil
    · exact hnumber
  · exact List.pairwise_map.mpr (hfound.imp fun hle => Nat.add_le_add_left hle _)
  · obtain ⟨found, -, rfl⟩ := List.mem_map.mp hlater
    have := m.le_length_of_mem_numberCodes lineNumber code hcode
    dsimp only
    omega

/-- The pieces of the line are its parts between the bytes at which the match starts and stops. -/
theorem exists_linePieces_eq (h : m.found.start < m.found.stop) : ∃ before part after,
    m.linePieces true = [before, Color.green.code, part, Color.reset, after] ∧
      Span.Holds ⟨0, Utf8.byteOffset m.line m.found.start⟩ m.line before ∧
      Span.Holds ⟨Utf8.byteOffset m.line m.found.start, Utf8.byteOffset m.line m.found.stop⟩
        m.line part ∧
      Span.Holds ⟨Utf8.byteOffset m.line m.found.stop, Utf8.byteLength m.line⟩ m.line after := by
  have htake : m.line.take m.found.start ++ (m.line.take m.found.stop).drop m.found.start =
      m.line.take m.found.stop := by
    conv_rhs => rw [← List.take_append_drop m.found.start (m.line.take m.found.stop)]
    rw [List.take_take, Nat.min_eq_left h.le]
  have hline := List.take_append_drop m.found.stop m.line
  refine ⟨_, _, _, if_pos ⟨rfl, h.ne⟩, ?_, ?_, ?_⟩
  · exact ⟨[], _, (List.take_append_drop m.found.start m.line).symm, rfl, Utf8.byteOffset_eq _ _⟩
  · exact ⟨_, _, by rw [htake, hline], Utf8.byteOffset_eq _ _,
      by rw [htake]; exact Utf8.byteOffset_eq _ _⟩
  · exact ⟨_, [], by rw [hline, List.append_nil], Utf8.byteOffset_eq _ _, by rw [hline]⟩

/-- The colored record of a match that does not end before it starts is the plain one with codes put
in: around the line number if it is printed, and around the characters that matched, unless the
match is empty. Without these codes it is the plain record again. It can be printed, and the pieces
of the line are cut between characters. -/
theorem colored_record (lineNumber : Bool) (h : m.found.start ≤ m.found.stop) :
    m.record ⟨lineNumber, false, false⟩ = m.margin lineNumber ++ m.line ++ ['\n'] ∧
    m.record ⟨lineNumber, false, true⟩ =
      insertCodes (m.codes lineNumber) (m.record ⟨lineNumber, false, false⟩) ∧
    removeCodes (m.codes lineNumber) (m.record ⟨lineNumber, false, true⟩) =
      m.record ⟨lineNumber, false, false⟩ ∧
    ((m.codes lineNumber).Pairwise fun code later => code.1 ≤ later.1) ∧
    (∀ p : Printer, p.style = ⟨lineNumber, false, true⟩ → p.canPrint m = true ∧
      (p.Unlimited → (p.printMatch m).2 = .ok () ∧
        (p.printMatch m).1.out.text = p.out.text ++ m.record p.style)) ∧
    (m.found.start ≠ m.found.stop → ∃ before part after,
      m.linePieces true = [before, Color.green.code, part, Color.reset, after] ∧
        Span.Holds ⟨0, Utf8.byteOffset m.line m.found.start⟩ m.line before ∧
        Span.Holds ⟨Utf8.byteOffset m.line m.found.start, Utf8.byteOffset m.line m.found.stop⟩
          m.line part ∧
        Span.Holds ⟨Utf8.byteOffset m.line m.found.stop, Utf8.byteLength m.line⟩ m.line after) := by
  have hinsert := m.record_eq_insertCodes h lineNumber
  refine ⟨m.record_plain lineNumber, hinsert, ?_, m.pairwise_codes h lineNumber, fun p _ => ?_,
    fun hne => m.exists_linePieces_eq (Nat.lt_of_le_of_ne h hne)⟩
  · rw [hinsert, removeCodes_insertCodes (m.le_length_of_mem_codes lineNumber)]
  · have hreversed : m.isReversed = false := by
      rw [isReversed, decide_eq_false_iff_not]
      omega
    refine ⟨by simp [Printer.canPrint, hreversed], fun hunlimited => ?_⟩
    obtain ⟨hok, hprints⟩ := Printer.prints_matched hunlimited m
    refine ⟨hok, ?_⟩
    rw [hprints.out_eq]
    simp [records, SearchEvent.record]

/-- A match past the end of a line of characters of one byte up to four. -/
theorem colored_record_wide : let m : LineMatch := ⟨12, ⟨1, 9⟩, ['a', 'é', '日', '😀']⟩
    m.found.start ≤ m.found.stop ∧
    insertCodes (m.codes true) "12:aé日😀\n".toList =
      "\x1b[34m12\x1b[0m:a\x1b[32mé日😀\x1b[0m\n".toList ∧
    removeCodes (m.codes true) "\x1b[34m12\x1b[0m:a\x1b[32mé日😀\x1b[0m\n".toList =
      "12:aé日😀\n".toList := by
  intro m
  obtain ⟨-, hinsert, hremove, -⟩ := colored_record m true (by decide)
  have hplain : m.record ⟨true, false, false⟩ = "12:aé日😀\n".toList := by decide
  have hcolored : m.record ⟨true, false, true⟩ =
      "\x1b[34m12\x1b[0m:a\x1b[32mé日😀\x1b[0m\n".toList := by decide
  rw [hplain, hcolored] at hinsert hremove
  exact ⟨by decide, hinsert.symm, hremove⟩

end LineMatch

end PatternScan
