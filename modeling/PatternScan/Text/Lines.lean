/-!
# Cutting text

Text is cut into lines, and lines into fields or pieces. A carriage return just before the end of a
line belongs to the end; one that ends the text does not.
-/

namespace PatternScan

/-- The lines of a text. A last line may lack its end; after the last end there is no line. -/
def linesOf : List Char → List (List Char)
  | [] => []
  | '\n' :: rest => [] :: linesOf rest
  | '\r' :: '\n' :: rest => [] :: linesOf rest
  | c :: rest =>
    match linesOf rest with
    | [] => [[c]]
    | line :: more => (c :: line) :: more

theorem linesOf_cons {c : Char} {rest line : List Char} {more : List (List Char)} (hc : c ≠ '\n')
    (hreturn : c = '\r' → rest.head? ≠ some '\n') (h : linesOf rest = line :: more) :
    linesOf (c :: rest) = (c :: line) :: more := by
  rw [linesOf]
  · rw [h]
  · exact hc
  · rintro rest' rfl rfl
    exact hreturn rfl rfl

/-- What comes before a text joins its first line, unless a line end comes about between them. -/
theorem linesOf_append_line {rest first : List Char} {more : List (List Char)}
    (h : linesOf rest = first :: more) : ∀ {line : List Char}, '\n' ∉ line →
    (line.getLast? = some '\r' → rest.head? ≠ some '\n') →
    linesOf (line ++ rest) = (line ++ first) :: more
  | [], _, _ => h
  | [c], hfeed, hreturn =>
    linesOf_cons (by simpa [eq_comm] using hfeed) (fun hc => hreturn (by rw [hc]; rfl)) h
  | c :: c' :: line, hfeed, hreturn => by
    obtain ⟨hc, hline⟩ := List.ne_and_not_mem_of_not_mem_cons hfeed
    rw [List.getLast?_cons_cons] at hreturn
    refine linesOf_cons (Ne.symm hc) (fun _ => ?_) (linesOf_append_line h hline hreturn)
    simpa [eq_comm] using (List.ne_and_not_mem_of_not_mem_cons hline).1

/-- A line is read off up to its end, unless the carriage return before that belongs to the end. -/
theorem linesOf_append_feed (rest : List Char) {line : List Char} (hfeed : '\n' ∉ line)
    (hreturn : line.getLast? ≠ some '\r') :
    linesOf (line ++ '\n' :: rest) = line :: linesOf rest := by
  have hrest : linesOf ('\n' :: rest) = [] :: linesOf rest := by rw [linesOf]
  rw [linesOf_append_line hrest hfeed fun h => absurd h hreturn, List.append_nil]

theorem linesOf_append_return_feed (rest : List Char) {line : List Char} (hfeed : '\n' ∉ line) :
    linesOf (line ++ '\r' :: '\n' :: rest) = line :: linesOf rest := by
  have hrest : linesOf ('\r' :: '\n' :: rest) = [] :: linesOf rest := by rw [linesOf]
  rw [linesOf_append_line hrest hfeed fun _ => by simp, List.append_nil]

theorem linesOf_eq_nil_iff {text : List Char} : linesOf text = [] ↔ text = [] := by
  constructor
  · intro h
    unfold linesOf at h
    split at h
    · rfl
    · exact nomatch h
    · exact nomatch h
    · split at h <;> exact nomatch h
  · rintro rfl
    rfl

/-- No line contains an end. -/
theorem not_mem_of_mem_linesOf {line text : List Char} (h : line ∈ linesOf text) :
    '\n' ∉ line := by
  fun_induction linesOf text generalizing line with
  | case1 => exact absurd h List.not_mem_nil
  | case2 rest ih | case3 rest ih =>
    rcases List.mem_cons.mp h with rfl | h
    · exact List.not_mem_nil
    · exact ih h
  | case4 c rest hc _ hrest ih =>
    obtain rfl := List.mem_singleton.mp h
    simpa using Ne.symm hc
  | case5 c rest hc _ first more hrest ih =>
    rcases List.mem_cons.mp h with rfl | h
    · have hfirst := ih (hrest ▸ List.mem_cons_self)
      simpa using ⟨Ne.symm hc, hfirst⟩
    · exact ih (hrest ▸ List.mem_cons_of_mem first h)

/-- The pieces of a text between all its marks, one more than there are marks. -/
def piecesBetween (mark : Char) : List Char → List (List Char)
  | [] => [[]]
  | c :: rest =>
    if c = mark then [] :: piecesBetween mark rest
    else
      match piecesBetween mark rest with
      | [] => [[c]]
      | piece :: more => (c :: piece) :: more

theorem piecesBetween_ne_nil {mark : Char} : ∀ text : List Char, piecesBetween mark text ≠ []
  | [] => by simp [piecesBetween]
  | c :: rest => by
    unfold piecesBetween
    split
    · simp
    · split <;> simp

theorem piecesBetween_append {mark : Char} (rest : List Char) : ∀ {piece : List Char},
    mark ∉ piece → piecesBetween mark (piece ++ mark :: rest) = piece :: piecesBetween mark rest
  | [], _ => by rw [List.nil_append, piecesBetween, if_pos rfl]
  | c :: piece, h => by
    obtain ⟨hc, hpiece⟩ := List.ne_and_not_mem_of_not_mem_cons h
    rw [List.cons_append, piecesBetween, if_neg (Ne.symm hc), piecesBetween_append rest hpiece]

/-- A text without the characters at both its ends that are to be skipped. -/
def trim (skip : Char → Bool) (text : List Char) : List Char :=
  ((text.dropWhile skip).reverse.dropWhile skip).reverse

/-- What stands before and after the first `mark`. -/
def cutAtFirst? (mark : Char) : List Char → Option (List Char × List Char)
  | [] => none
  | c :: rest =>
    if c = mark then some ([], rest)
    else (cutAtFirst? mark rest).map fun (before, after) => (c :: before, after)

/-- What stands before and after the last `mark`. -/
def cutAtLast? (mark : Char) : List Char → Option (List Char × List Char)
  | [] => none
  | c :: rest =>
    match cutAtLast? mark rest with
    | some (before, after) => some (c :: before, after)
    | none => if c = mark then some ([], rest) else none

section Cut

variable {mark : Char}

theorem cutAtFirst?_append (after : List Char) : ∀ {before : List Char}, mark ∉ before →
    cutAtFirst? mark (before ++ mark :: after) = some (before, after)
  | [], _ => by simp [cutAtFirst?]
  | c :: before, h => by
    obtain ⟨hc, hbefore⟩ := List.ne_and_not_mem_of_not_mem_cons h
    rw [List.cons_append, cutAtFirst?, if_neg (Ne.symm hc), cutAtFirst?_append after hbefore]
    rfl

theorem cutAtFirst?_of_not_mem : ∀ {text : List Char}, mark ∉ text → cutAtFirst? mark text = none
  | [], _ => rfl
  | c :: text, h => by
    obtain ⟨hc, htext⟩ := List.ne_and_not_mem_of_not_mem_cons h
    rw [cutAtFirst?, if_neg (Ne.symm hc), cutAtFirst?_of_not_mem htext]
    rfl

theorem eq_append_of_cutAtFirst? : ∀ {text before after : List Char},
    cutAtFirst? mark text = some (before, after) → text = before ++ mark :: after ∧ mark ∉ before
  | [], _, _, h => nomatch h
  | c :: rest, before, after, h => by
    unfold cutAtFirst? at h
    split at h
    · next hc =>
      obtain ⟨rfl, rfl⟩ := Prod.mk.inj (Option.some.inj h)
      exact ⟨by rw [hc, List.nil_append], List.not_mem_nil⟩
    · next hc =>
      obtain ⟨⟨before', after'⟩, hrest, heq⟩ := Option.map_eq_some_iff.mp h
      obtain ⟨rfl, rfl⟩ := Prod.mk.inj heq
      obtain ⟨rfl, hbefore⟩ := eq_append_of_cutAtFirst? hrest
      exact ⟨rfl, List.not_mem_cons_of_ne_of_not_mem (Ne.symm hc) hbefore⟩

theorem cutAtFirst?_eq_some_iff {text before after : List Char} :
    cutAtFirst? mark text = some (before, after) ↔
      text = before ++ mark :: after ∧ mark ∉ before :=
  ⟨eq_append_of_cutAtFirst?, fun ⟨htext, h⟩ => htext ▸ cutAtFirst?_append after h⟩

theorem cutAtLast?_eq_none_iff : ∀ {text : List Char}, cutAtLast? mark text = none ↔ mark ∉ text
  | [] => by simp [cutAtLast?]
  | c :: rest => by
    have ih : cutAtLast? mark rest = none ↔ mark ∉ rest := cutAtLast?_eq_none_iff
    unfold cutAtLast?
    rcases hrest : cutAtLast? mark rest with _ | ⟨before, after⟩
    · have hmark := ih.mp hrest
      simp [hmark, eq_comm]
    · have hmark : mark ∈ rest := by
        by_cases hmark : mark ∈ rest
        · exact hmark
        · exact nomatch (ih.mpr hmark).symm.trans hrest
      simp [hmark]

theorem cutAtLast?_append {after : List Char} (h : mark ∉ after) : ∀ before : List Char,
    cutAtLast? mark (before ++ mark :: after) = some (before, after)
  | [] => by
    rw [List.nil_append, cutAtLast?, cutAtLast?_eq_none_iff.mpr h]
    exact if_pos rfl
  | c :: before => by
    rw [List.cons_append, cutAtLast?, cutAtLast?_append h before]

theorem eq_append_of_cutAtLast? : ∀ {text before after : List Char},
    cutAtLast? mark text = some (before, after) → text = before ++ mark :: after ∧ mark ∉ after
  | [], _, _, h => nomatch h
  | c :: rest, before, after, h => by
    unfold cutAtLast? at h
    split at h
    · next before' after' hrest =>
      obtain ⟨rfl, rfl⟩ := Prod.mk.inj (Option.some.inj h)
      obtain ⟨rfl, hafter⟩ := eq_append_of_cutAtLast? hrest
      exact ⟨rfl, hafter⟩
    · next hrest =>
      split at h
      · next hc =>
        obtain ⟨rfl, rfl⟩ := Prod.mk.inj (Option.some.inj h)
        exact ⟨by rw [hc, List.nil_append], cutAtLast?_eq_none_iff.mp hrest⟩
      · exact nomatch h

theorem cutAtLast?_eq_some_iff {text before after : List Char} :
    cutAtLast? mark text = some (before, after) ↔
      text = before ++ mark :: after ∧ mark ∉ after :=
  ⟨eq_append_of_cutAtLast?, fun ⟨htext, h⟩ => htext ▸ cutAtLast?_append h before⟩

end Cut

end PatternScan
