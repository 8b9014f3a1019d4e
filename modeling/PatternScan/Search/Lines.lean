import PatternScan.Search.Source

/-!
# The lines of bytes

Bytes are cut after every line feed. What stands after the last one is a line without an end, unless
nothing does. A source that fails instead of ending does not give that line away.
-/

namespace PatternScan

open Source (lineFeed)

/-- The lines that have an end, with it, and what stands after the last end. -/
def cutLines : List UInt8 → List (List UInt8) × List UInt8
  | [] => ([], [])
  | b :: bytes =>
    let (lines, tail) := cutLines bytes
    if b = lineFeed then ([b] :: lines, tail)
    else
      match lines with
      | [] => ([], b :: tail)
      | line :: more => ((b :: line) :: more, tail)

/-- The lines that have an end. -/
def endedLines (bytes : List UInt8) : List (List UInt8) :=
  (cutLines bytes).1

/-- The lines, the last one with or without an end. -/
def allLines (bytes : List UInt8) : List (List UInt8) :=
  let (lines, tail) := cutLines bytes
  if tail.isEmpty then lines else lines ++ [tail]

/-- The lines that can be read. -/
def Source.lines (s : Source) : List (List UInt8) :=
  match s.failure? with
  | none => allLines s.bytes
  | some _ => endedLines s.bytes

theorem cutLines_of_not_mem : ∀ {bytes : List UInt8}, lineFeed ∉ bytes →
    cutLines bytes = ([], bytes)
  | [], _ => rfl
  | b :: bytes, h => by
    obtain ⟨hb, hbytes⟩ := List.ne_and_not_mem_of_not_mem_cons h
    rw [cutLines, cutLines_of_not_mem hbytes]
    exact if_neg (Ne.symm hb)

theorem cutLines_append_feed (bytes : List UInt8) : ∀ {line : List UInt8}, lineFeed ∉ line →
    cutLines (line ++ lineFeed :: bytes) =
      ((line ++ [lineFeed]) :: (cutLines bytes).1, (cutLines bytes).2)
  | [], _ => by
    rw [List.nil_append, cutLines]
    exact if_pos rfl
  | b :: line, h => by
    obtain ⟨hb, hline⟩ := List.ne_and_not_mem_of_not_mem_cons h
    rw [List.cons_append, cutLines, cutLines_append_feed bytes hline]
    exact if_neg (Ne.symm hb)

/-- Bytes in lines that have their only line feed at the end, and a rest without one. -/
def CutAs (bytes : List UInt8) (lines : List (List UInt8)) (tail : List UInt8) : Prop :=
  bytes = lines.flatten ++ tail ∧
    (∀ line ∈ lines, ∃ before, line = before ++ [lineFeed] ∧ lineFeed ∉ before) ∧ lineFeed ∉ tail

theorem cutAs_cutLines : ∀ bytes : List UInt8, CutAs bytes (cutLines bytes).1 (cutLines bytes).2
  | [] => ⟨rfl, fun _ h => absurd h List.not_mem_nil, List.not_mem_nil⟩
  | b :: bytes => by
    have ih := cutAs_cutLines bytes
    unfold cutLines
    rcases hcut : cutLines bytes with ⟨lines, tail⟩
    rw [hcut] at ih
    obtain ⟨hbytes, hlines, htail⟩ := ih
    simp only
    split
    · next hb =>
      refine ⟨?_, List.forall_mem_cons.mpr ⟨⟨[], ?_, List.not_mem_nil⟩, hlines⟩, htail⟩
      · rw [hbytes, List.flatten_cons]
        rfl
      · rw [hb, List.nil_append]
    · next hb =>
      rcases lines with _ | ⟨line, more⟩
      · exact ⟨congrArg (b :: ·) hbytes, hlines,
          List.not_mem_cons_of_ne_of_not_mem (Ne.symm hb) htail⟩
      · obtain ⟨⟨before, hline, hbefore⟩, hmore⟩ := List.forall_mem_cons.mp hlines
        refine ⟨?_, List.forall_mem_cons.mpr ⟨⟨b :: before, ?_, ?_⟩, hmore⟩, htail⟩
        · exact congrArg (b :: ·) hbytes
        · rw [hline, List.cons_append]
        · exact List.not_mem_cons_of_ne_of_not_mem (Ne.symm hb) hbefore

theorem exists_allLines_eq (bytes : List UInt8) :
    ∃ rest, allLines bytes = endedLines bytes ++ rest := by
  unfold allLines endedLines
  rcases cutLines bytes with ⟨lines, tail⟩
  dsimp only
  split
  · exact ⟨[], (List.append_nil lines).symm⟩
  · exact ⟨[tail], rfl⟩

/-- A line ends at each line feed. -/
theorem length_endedLines (bytes : List UInt8) :
    (endedLines bytes).length = bytes.count lineFeed := by
  obtain ⟨hbytes, hlines, htail⟩ := cutAs_cutLines bytes
  have hone : ∀ line ∈ (cutLines bytes).1, line.count lineFeed = 1 := by
    rintro line hline
    obtain ⟨before, rfl, hbefore⟩ := hlines line hline
    rw [List.count_append, List.count_eq_zero.mpr hbefore, List.count_singleton_self]
  calc (endedLines bytes).length
      = ((cutLines bytes).1.map (List.count lineFeed)).sum := by
        rw [List.map_congr_left hone, List.map_const', List.sum_replicate_nat, Nat.mul_one]
        rfl
    _ = (cutLines bytes).1.flatten.count lineFeed := List.count_flatten.symm
    _ = ((cutLines bytes).1.flatten ++ (cutLines bytes).2).count lineFeed := by
        rw [List.count_append, List.count_eq_zero.mpr htail, Nat.add_zero]
    _ = bytes.count lineFeed := by rw [← hbytes]

theorem mem_of_mem_dropEnd {b byte : UInt8} {line : List UInt8} (h : b ∈ dropEnd byte line) :
    b ∈ line := by
  unfold dropEnd at h
  split at h
  · exact (List.dropLast_sublist line).subset h
  · exact h

theorem feed_not_mem_trimLine {bytes line : List UInt8} (h : line ∈ allLines bytes) :
    lineFeed ∉ trimLine line := by
  obtain ⟨-, hlines, htail⟩ := cutAs_cutLines bytes
  have hended : ∀ line ∈ (cutLines bytes).1, lineFeed ∉ trimLine line := by
    intro line hline hmem
    obtain ⟨before, rfl, hbefore⟩ := hlines line hline
    have hdrop : dropEnd lineFeed (before ++ [lineFeed]) = before := by
      simp [dropEnd]
    exact hbefore (hdrop ▸ mem_of_mem_dropEnd hmem)
  unfold allLines at h
  rcases hcut : cutLines bytes with ⟨lines, tail⟩
  rw [hcut] at h hended htail
  dsimp only at h
  split at h
  · exact hended line h
  · rcases List.mem_append.mp h with h | h
    · exact hended line h
    · obtain rfl := List.mem_singleton.mp h
      exact fun hmem => htail (mem_of_mem_dropEnd (mem_of_mem_dropEnd hmem))

end PatternScan
