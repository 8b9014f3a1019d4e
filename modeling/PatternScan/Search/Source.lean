/-!
# Where lines come from

A source yields bytes line by line until they are used up; then it ends, or fails for a reason. The
first reads may be interrupted, which loses nothing.
-/

namespace PatternScan

/-- The bytes still to come, after so many interruptions, and the failure after them, if any. -/
structure Source where
  interruptions : Nat
  bytes : List UInt8
  failure? : Option (List Char)

/-- What comes of reading a line: the line with its end, and the source after it. -/
inductive LineRead
  | line (bytes : List UInt8) (rest : Source)
  | ended
  | failed (reason : List Char)
  | interrupted (rest : Source)

namespace Source

/-- A source that ends after the given bytes. -/
def ofBytes (bytes : List UInt8) : Source :=
  ⟨0, bytes, none⟩

/-- The byte that ends a line. -/
def lineFeed : UInt8 := 10

/-- The byte that may come before the end of a line. -/
def carriageReturn : UInt8 := 13

/-- Reads a line. The last one may lack its end, unless the source fails instead of ending. -/
def readLine (s : Source) : LineRead :=
  match s.interruptions with
  | n + 1 => .interrupted { s with interruptions := n }
  | 0 =>
    match s.bytes.dropWhile (· != lineFeed) with
    | feed :: rest =>
      .line (s.bytes.takeWhile (· != lineFeed) ++ [feed]) { s with bytes := rest }
    | [] =>
      match s.failure? with
      | some reason => .failed reason
      | none => if s.bytes.isEmpty then .ended else .line s.bytes { s with bytes := [] }

/-- What is left to read, interruptions counted too. -/
def remaining (s : Source) : Nat :=
  s.interruptions + s.bytes.length

theorem remaining_lt_of_interrupted {s rest : Source} (h : s.readLine = .interrupted rest) :
    rest.remaining < s.remaining := by
  unfold readLine at h
  split at h
  · rename_i n hn
    simp only [LineRead.interrupted.injEq] at h
    subst h
    simp only [remaining, hn]
    omega
  · split at h
    · simp at h
    · split at h
      · simp at h
      · split at h <;> simp at h

theorem remaining_lt_of_line {s rest : Source} {bytes : List UInt8}
    (h : s.readLine = .line bytes rest) : rest.remaining < s.remaining := by
  unfold readLine at h
  split at h
  · simp at h
  · split at h
    · rename_i feed after hdrop
      simp only [LineRead.line.injEq] at h
      obtain ⟨-, rfl⟩ := h
      have := (List.dropWhile_suffix (· != lineFeed) (l := s.bytes)).length_le
      rw [hdrop] at this
      simp only [remaining, List.length_cons] at this ⊢
      omega
    · split at h
      · simp at h
      · split at h
        · simp at h
        · rename_i hne
          simp only [LineRead.line.injEq] at h
          obtain ⟨-, rfl⟩ := h
          have : 0 < s.bytes.length := by
            cases hb : s.bytes <;> simp_all
          simp only [remaining, List.length_nil]
          omega

end Source

/-- A line without one byte at its end, if it ends in that byte. -/
def dropEnd (byte : UInt8) (line : List UInt8) : List UInt8 :=
  if line.getLast? = some byte then line.dropLast else line

/-- A line without its end: a line feed, and a carriage return before it. -/
def trimLine (line : List UInt8) : List UInt8 :=
  dropEnd Source.carriageReturn (dropEnd Source.lineFeed line)

end PatternScan
