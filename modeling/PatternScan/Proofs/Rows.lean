import Mathlib.Data.List.Basic
import Mathlib.Data.List.TakeWhile
import PatternScan.Proofs.Quoting
import PatternScan.Table.Dump

/-!
# Reading a table for people

A row is read back as the number and the state that it is of, whatever the widths of its columns and
whatever character stands in it (`State.ofRow?_row`). No row has a line break in it, so the lines of
a table for people are its rows, and two tables are shown alike only if they are the same
(`Table.dump_reads_back`).
-/

namespace PatternScan

section Parts

/-- Without color a row has an end and nothing else that is not shown. -/
def State.row (idWidth symbolWidth id : Nat) (s : State) : List Char :=
  Decimal.padLeft idWidth id ++ ' ' :: ' ' :: (s.kind.shown ++
    (List.replicate (symbolWidth - s.kind.shown.length) ' ' ++ ' ' :: ' ' :: '→' :: ' ' ::
      List.intercalate " | ".toList (s.successors.map (Next.shown false))))

theorem Table.dumpRow_plain (idWidth symbolWidth id : Nat) (s : State) :
    dumpRow false idWidth symbolWidth id s = s.row idWidth symbolWidth id ++ ['\n'] := by
  simp [dumpRow, State.row, Color.paint]

theorem StateKind.read?_shown (kind : StateKind) (rest : List Char) :
    read? (kind.shown ++ rest) = some (kind, rest) := by
  cases kind with
  | literal c =>
    have hform : shown (.literal c) ++ rest = '\'' :: (Quoted.escape c ++ '\'' :: rest) := by
      simp [shown, Quoted.shown]
    rw [hform, read?, Quoted.unescape?_escape]
    rfl
  | wildcard => rfl
  | branch => rfl

theorem Next.ofShown?_shown : ∀ next : Next, ofShown? (next.shown false) = some next
  | .final => rfl
  | .state id => by
    have hne : Decimal.digits id ≠ "accept".toList := Decimal.digits_ne_cons (by decide) id _
    rw [shown, ofShown?, if_neg hne, Decimal.ofDigits?_digits, Option.map_some]

theorem Next.blank_not_mem_shown : ∀ next : Next, ' ' ∉ next.shown false
  | .final => by decide
  | .state id => Decimal.not_mem_digits (by decide) id

theorem State.ofPair?_successors (s : State) :
    Next.ofPair? (List.intercalate " | ".toList (s.successors.map (Next.shown false))) =
      some (s.first, s.second) := by
  have hfirst := s.first.blank_not_mem_shown
  unfold successors
  split
  · next heq =>
    rw [List.map_singleton, List.intercalate_singleton, Next.ofPair?,
      cutAtFirst?_of_not_mem hfirst, Next.ofShown?_shown, heq]
    rfl
  · have hform : List.intercalate " | ".toList ([s.first, s.second].map (Next.shown false)) =
        s.first.shown false ++ ' ' :: '|' :: ' ' :: s.second.shown false := by
      simp [List.intercalate]
    rw [hform, Next.ofPair?, cutAtFirst?_append _ hfirst]
    simp only [Next.ofShown?_shown]
    rfl

theorem StateKind.shown_eq_cons (kind : StateKind) :
    ∃ c rest, kind.shown = c :: rest ∧ c ≠ ' ' := by
  cases kind with
  | literal c => exact ⟨'\'', _, rfl, by decide⟩
  | wildcard => exact ⟨'A', _, rfl, by decide⟩
  | branch => exact ⟨'B', _, rfl, by decide⟩

theorem Decimal.digits_eq_cons (n : Nat) : ∃ c rest, digits n = c :: rest ∧ c ≠ ' ' := by
  obtain ⟨c, rest, hdigits⟩ := List.exists_cons_of_ne_nil (Nat.toDigits_ne_nil (n := n) (b := 10))
  refine ⟨c, rest, hdigits, ?_⟩
  rintro rfl
  exact digits_ne_cons (by decide) n rest hdigits

/-- The blanks before a text that does not begin with one. -/
theorem dropWhile_blanks {c : Char} (h : c ≠ ' ') (n : Nat) (rest : List Char) :
    (List.replicate n ' ' ++ c :: rest).dropWhile (· = ' ') = c :: rest := by
  rw [List.dropWhile_append_of_pos (by simp), List.dropWhile_cons_of_neg (by simpa using h)]

/-- The blanks before the number of a row. -/
theorem Decimal.dropWhile_padLeft (width n : Nat) (rest : List Char) :
    (padLeft width n ++ rest).dropWhile (· = ' ') = digits n ++ rest := by
  obtain ⟨c, more, hdigits, hc⟩ := digits_eq_cons n
  rw [padLeft, List.append_assoc, hdigits]
  exact dropWhile_blanks hc _ _

/-- The blanks before the symbol of a row. -/
theorem StateKind.dropWhile_shown (kind : StateKind) (rest : List Char) :
    (' ' :: ' ' :: (kind.shown ++ rest)).dropWhile (· = ' ') = kind.shown ++ rest := by
  obtain ⟨c, more, hkind, hc⟩ := kind.shown_eq_cons
  rw [hkind]
  exact dropWhile_blanks hc 2 _

/-- The blanks before the arrow of a row. -/
theorem dropWhile_arrow (n : Nat) (rest : List Char) :
    (List.replicate n ' ' ++ ' ' :: ' ' :: '→' :: rest).dropWhile (· = ' ') = '→' :: rest := by
  rw [List.dropWhile_append_of_pos (by simp)]
  exact dropWhile_blanks (by decide) 2 rest

/-- A row shows its number and its state. -/
theorem State.ofRow?_row (idWidth symbolWidth id : Nat) (s : State) :
    ofRow? (s.row idWidth symbolWidth id) = some (id, s) := by
  have hall : ∀ c ∈ Decimal.digits id, c.isDigit = true := fun _ => Decimal.isDigit_of_mem_digits
  unfold ofRow? row
  dsimp only
  rw [Decimal.dropWhile_padLeft, List.takeWhile_append_of_pos hall,
    List.dropWhile_append_of_pos hall, List.takeWhile_cons_of_neg (by decide), List.append_nil,
    Decimal.ofDigits?_digits, List.dropWhile_cons_of_neg (by decide), StateKind.dropWhile_shown,
    StateKind.read?_shown]
  simp only [Option.bind_eq_bind, Option.bind_some, dropWhile_arrow, ofPair?_successors]
  rfl

end Parts

section Lines

theorem StateKind.isVisible_shown (kind : StateKind) : IsVisible kind.shown := by
  cases kind with
  | literal c => exact Quoted.isVisible_shown c
  | wildcard => exact (by decide : IsVisible "ANY".toList)
  | branch => exact (by decide : IsVisible "BR".toList)

theorem Next.isVisible_shown : ∀ next : Next, IsVisible (next.shown false)
  | .final => (by decide : IsVisible "accept".toList)
  | .state id => Decimal.isVisible_digits id

theorem State.isVisible_row (idWidth symbolWidth id : Nat) (s : State) :
    IsVisible (s.row idWidth symbolWidth id) := by
  have hsuccessors : ∀ part ∈ s.successors.map (Next.shown false), IsVisible part := by
    intro part hpart
    obtain ⟨next, -, rfl⟩ := List.mem_map.mp hpart
    exact next.isVisible_shown
  have hleads := (by decide : IsVisible "  → ".toList).append
    (isVisible_intercalate (by decide : IsVisible " | ".toList) hsuccessors)
  have hpadding := isVisible_blanks (symbolWidth - s.kind.shown.length)
  have hsymbol := s.kind.isVisible_shown.append (hpadding.append hleads)
  exact (Decimal.isVisible_padLeft idWidth id).append ((isVisible_blanks 2).append hsymbol)

theorem linesOf_of_isVisible {line : List Char} (h : IsVisible line) (rest : List Char) :
    linesOf (line ++ '\n' :: rest) = line :: linesOf rest := by
  refine linesOf_append_feed rest (fun hfeed => absurd (h _ hfeed) (by decide)) fun hlast => ?_
  exact absurd (h _ (List.mem_of_getLast? hlast)) (by decide)

/-- Rows without control characters are the lines of the text that they make up. -/
theorem linesOf_flatMap {rows : List (List Char)} (h : ∀ row ∈ rows, IsVisible row) :
    linesOf (rows.flatMap (· ++ ['\n'])) = rows := by
  induction rows with
  | nil => rfl
  | cons row rows ih =>
    obtain ⟨hrow, hrows⟩ := List.forall_mem_cons.mp h
    rw [List.flatMap_cons, List.append_assoc, List.singleton_append, linesOf_of_isVisible hrow,
      ih hrows]

end Lines

namespace Table

/-- The rows of a table for people. -/
def rows (t : Table) : List (List Char) :=
  t.states.toList.zipIdx.map fun (s, id) => s.row (Decimal.indexWidth t.size) t.symbolWidth id

theorem dump_plain (t : Table) :
    t.dump false = ("[states]".toList :: t.rows).flatMap (· ++ ['\n']) := by
  rw [List.flatMap_cons, rows, List.flatMap_map, dump]
  simp only [dumpRow_plain]
  rfl

theorem linesOf_dump (t : Table) : linesOf (t.dump false) = "[states]".toList :: t.rows := by
  rw [dump_plain]
  refine linesOf_flatMap (List.forall_mem_cons.mpr ⟨by decide, fun row hrow => ?_⟩)
  obtain ⟨⟨s, id⟩, -, rfl⟩ := List.mem_map.mp hrow
  exact s.isVisible_row _ _ id

theorem map_ofRow?_rows (t : Table) : t.rows.map State.ofRow? =
    t.states.toList.zipIdx.map fun (s, id) => some (id, s) := by
  rw [rows, List.map_map]
  exact List.map_congr_left fun (s, id) _ => s.ofRow?_row _ _ id

/-- The lines of a table for people are a heading and a row for each state, from which the number of
the state and the state itself are read back; so no other table is shown in the same way. -/
theorem dump_reads_back (a b : Table) :
    (a.dump false = b.dump false ↔ a = b) ∧
    ∃ rows, linesOf (a.dump false) = "[states]".toList :: rows ∧ rows.length = a.size ∧
      rows.map State.ofRow? = a.states.toList.zipIdx.map fun (s, id) => some (id, s) := by
  refine ⟨⟨fun h => ?_, congrArg (dump · false)⟩, a.rows, a.linesOf_dump, ?_, a.map_ofRow?_rows⟩
  · have hlines := congrArg linesOf h
    rw [linesOf_dump, linesOf_dump, List.cons.injEq] at hlines
    have hstates := congrArg (List.map State.ofRow?) hlines.2
    rw [map_ofRow?_rows, map_ofRow?_rows] at hstates
    have hswap : Function.Injective fun (s, id) => some ((id : Nat), (s : State)) := by
      rintro ⟨s, id⟩ ⟨s', id'⟩ heq
      simpa [and_comm] using heq
    refine ext_states (Array.toList_inj.mp ?_)
    rw [← List.zipIdx_map_fst 0 a.states.toList, List.map_injective_iff.mpr hswap hstates,
      List.zipIdx_map_fst]
  · rw [rows, List.length_map, List.length_zipIdx, Array.length_toList, size]

end Table

end PatternScan
