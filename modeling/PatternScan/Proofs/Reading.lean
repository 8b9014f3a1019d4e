import Mathlib.Data.List.TakeWhile
import PatternScan.Search.Lines

/-!
# Reading line by line

Reading a source gives its lines one after the other (`Source.readLine_of_lines_cons`) and then ends
or fails (`Source.readLine_of_lines_nil`). What stands after the last end is read as a line only if
the source ends after it.
-/

namespace PatternScan.Source

theorem lines_append_feed {s : Source} {before bytes : List UInt8} (h : lineFeed ∉ before)
    (hbytes : s.bytes = before ++ lineFeed :: bytes) :
    s.lines = (before ++ [lineFeed]) :: { s with bytes }.lines := by
  unfold lines
  cases s.failure? with
  | some _ => simp only [endedLines, hbytes, cutLines_append_feed bytes h]
  | none =>
    simp only [allLines, hbytes, cutLines_append_feed bytes h]
    split
    · rfl
    · rfl

theorem lines_of_not_mem {s : Source} (h : lineFeed ∉ s.bytes) :
    s.lines = if s.failure? = none ∧ s.bytes ≠ [] then [s.bytes] else [] := by
  unfold lines
  cases s.failure? with
  | some _ => simp [endedLines, cutLines_of_not_mem h]
  | none => simp [allLines, cutLines_of_not_mem h]

/-- There is a line feed, and reading stops after the first one, or there is none. -/
theorem dropWhile_cases (bytes : List UInt8) :
    (∃ rest, bytes.dropWhile (· != lineFeed) = lineFeed :: rest ∧
      lineFeed ∉ bytes.takeWhile (· != lineFeed) ∧
      bytes = bytes.takeWhile (· != lineFeed) ++ lineFeed :: rest) ∨
    bytes.dropWhile (· != lineFeed) = [] ∧ lineFeed ∉ bytes := by
  rcases hdrop : bytes.dropWhile (· != lineFeed) with _ | ⟨feed, rest⟩
  · exact .inr ⟨rfl, fun hmem => by simpa using List.dropWhile_eq_nil_iff.mp hdrop _ hmem⟩
  · obtain rfl : feed = lineFeed := by
      have hhead := List.head?_dropWhile_not (· != lineFeed) bytes
      rw [hdrop] at hhead
      simpa using hhead
    refine .inl ⟨rest, rfl, fun hmem => by simpa using List.mem_takeWhile_imp hmem, ?_⟩
    rw [← hdrop, List.takeWhile_append_dropWhile]

variable {s : Source} (h : s.interruptions = 0)
include h

theorem readLine_of_lines_cons {line : List UInt8} {lines : List (List UInt8)}
    (hlines : s.lines = line :: lines) :
    ∃ bytes, s.readLine = .line line { s with bytes } ∧ { s with bytes }.lines = lines := by
  unfold readLine
  rw [h]
  rcases dropWhile_cases s.bytes with ⟨rest, hdrop, hbefore, hbytes⟩ | ⟨hdrop, hfeed⟩
  · obtain ⟨rfl, rfl⟩ := List.cons.inj (hlines.symm.trans (lines_append_feed hbefore hbytes))
    exact ⟨rest, by simp only [hdrop], rfl⟩
  · rw [lines_of_not_mem hfeed] at hlines
    split at hlines
    · next hlast =>
      obtain ⟨rfl, rfl⟩ := List.cons.inj hlines
      refine ⟨[], ?_, ?_⟩
      · simp only [hdrop, hlast.1, List.isEmpty_iff, hlast.2, if_false]
      · rw [lines_of_not_mem List.not_mem_nil, if_neg fun hnil => hnil.2 rfl]
    · exact nomatch hlines

theorem readLine_of_lines_nil (hlines : s.lines = []) :
    s.readLine = s.failure?.elim .ended .failed := by
  unfold readLine
  rw [h]
  rcases dropWhile_cases s.bytes with ⟨rest, -, hbefore, hbytes⟩ | ⟨hdrop, hfeed⟩
  · rw [lines_append_feed hbefore hbytes] at hlines
    exact nomatch hlines
  · rw [lines_of_not_mem hfeed] at hlines
    split at hlines
    · exact nomatch hlines
    · next hlast =>
      rcases hfailure : s.failure? with _ | reason
      · have hempty : s.bytes = [] := by simpa [hfailure] using hlast
        simp [hempty]
      · simp [hdrop]

end PatternScan.Source
