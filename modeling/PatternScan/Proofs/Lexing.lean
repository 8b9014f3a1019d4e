import Mathlib.Algebra.Group.Nat.Even
import PatternScan.Pattern.Tiling
import PatternScan.Proofs.Scanning

/-!
# Which texts have tokens

From the left, a backslash takes the character after it; so of the backslashes at the end of a text
the last one is left over if and only if their number is odd (`Token.exists_scanFrom_iff`). The
tokens of any other text lie next to each other from its first byte to its last, each the text of
its kind (`Token.scan_fills`).
-/

namespace PatternScan

theorem TokenKind.isWritten_text : ∀ {kind : TokenKind}, kind.PlainOnly →
    kind.IsWritten kind.text kind.char?
  | .pipe, _ => .pipe
  | .quantifier .zeroOrMore, _ => .star
  | .quantifier .oneOrMore, _ => .plus
  | .quantifier .optional, _ => .question
  | .parenOpen, _ => .parenOpen
  | .parenClose, _ => .parenClose
  | .dot, _ => .dot
  | .escaped c, _ => .escaped c
  | .plain c, h => .plain (h c rfl)

theorem TokenKind.text_ne_nil (kind : TokenKind) : kind.text ≠ [] := by
  cases kind <;> simp [text]

namespace Token

section Backslashes

theorem trailingBackslashes_le (text : List Char) : trailingBackslashes text ≤ text.length := by
  have hle := (List.takeWhile_prefix (· = '\\') (l := text.reverse)).length_le
  rwa [List.length_reverse] at hle

/-- A backslash counts only if nothing but backslashes comes after it. -/
theorem trailingBackslashes_cons (c : Char) (rest : List Char) :
    trailingBackslashes (c :: rest) =
      if c = '\\' ∧ trailingBackslashes rest = rest.length then rest.length + 1
      else trailingBackslashes rest := by
  simp only [trailingBackslashes, List.reverse_cons, List.takeWhile_append, List.length_reverse]
  by_cases hc : c = '\\' <;> split <;> simp_all

theorem trailingBackslashes_cons_of_ne {c : Char} (hc : c ≠ '\\') (rest : List Char) :
    trailingBackslashes (c :: rest) = trailingBackslashes rest := by
  rw [trailingBackslashes_cons, if_neg fun h => hc h.1]

/-- What a backslash takes adds two backslashes to those at the end, or none. -/
theorem even_trailingBackslashes_escaped (c : Char) (rest : List Char) :
    Even (trailingBackslashes ('\\' :: c :: rest)) ↔ Even (trailingBackslashes rest) := by
  have hle := trailingBackslashes_le rest
  rw [trailingBackslashes_cons, trailingBackslashes_cons c, List.length_cons]
  by_cases h : c = '\\' ∧ trailingBackslashes rest = rest.length
  · rw [if_pos h, if_pos ⟨rfl, rfl⟩, h.2, Nat.add_assoc, Nat.even_add]
    exact iff_true_right ⟨1, rfl⟩
  · rw [if_neg h, if_neg (by omega)]

end Backslashes

theorem exists_map_cons_iff {token : Token} {scanned : Except PatternError (List Token)} :
    (∃ tokens, scanned.map (token :: ·) = .ok tokens) ↔ ∃ tokens, scanned = .ok tokens := by
  rcases scanned with e | tokens
  · simp [Except.map]
  · simp [Except.map]

theorem exists_scanFrom_iff (offset : Nat) (source : List Char) :
    (∃ tokens, scanFrom offset source = .ok tokens) ↔ Even (trailingBackslashes source) := by
  fun_induction scanFrom offset source with
  | case1 => exact iff_of_true ⟨[], rfl⟩ (by decide)
  | case2 =>
    refine iff_of_false ?_ (by decide)
    rintro ⟨tokens, h⟩
    cases h
  | case3 offset c rest ih => rw [exists_map_cons_iff, ih, even_trailingBackslashes_escaped]
  | case4 offset c rest hlast hmore ih =>
    rw [exists_map_cons_iff, ih, trailingBackslashes_cons_of_ne (ne_backslash hlast hmore)]

theorem fill_of_scanFrom : ∀ (tokens : List Token) {offset : Nat} {source : List Char},
    scanFrom offset source = .ok tokens → Fill offset (offset + Utf8.byteLength source) tokens
  | [], _, _, h => by
    rw [eq_nil_of_scanFrom h]
    rfl
  | token :: after, offset, source, h => by
    obtain ⟨rest, rfl, hspan, hrest⟩ := scanFrom_eq_cons h
    have hpos : Utf8.byteLength token.kind.text ≠ 0 := fun hzero =>
      token.kind.text_ne_nil (Utf8.byteLength_eq_zero hzero)
    have hfill := fill_of_scanFrom after hrest
    rw [Nat.add_assoc, ← Utf8.byteLength_append] at hfill
    rw [Fill, hspan]
    exact ⟨rfl, by dsimp only; omega, hfill⟩

/-- A token lies where its text does. -/
theorem holds_of_mem_scan {source : List Char} {tokens : List Token}
    (h : scan source = .ok tokens) {token : Token} (hmem : token ∈ tokens) :
    token.span.Holds source token.kind.text := by
  obtain ⟨before, after, rfl⟩ := List.append_of_mem hmem
  obtain ⟨s, rest, rfl, -, hspan, -⟩ := scanFrom_eq_append_cons before h
  simp only [Nat.zero_add] at hspan
  exact ⟨s, rest, rfl, congrArg Span.start hspan, congrArg Span.stop hspan⟩

/-- A text has tokens if and only if the number of backslashes at its end is even. They take up all
its bytes, cut between characters, and each is written as its kind is; without them there is a
backslash left over at the end. -/
theorem scan_fills (source : List Char) :
    ((∃ tokens, scan source = .ok tokens) ↔ Even (trailingBackslashes source)) ∧
    (∀ tokens, scan source = .ok tokens →
      Fill 0 (Utf8.byteLength source) tokens ∧
      ∀ token ∈ tokens,
        Utf8.isBoundary source token.span.start = true ∧
        Utf8.isBoundary source token.span.stop = true ∧
        ∃ text, token.span.Holds source text ∧ token.kind.IsWritten text token.kind.char?) ∧
    (∀ e, scan source = .error e → e = .ofKind .trailingBackslash
      ⟨Utf8.byteLength source - 1, Utf8.byteLength source⟩) := by
  refine ⟨exists_scanFrom_iff 0 source, fun tokens h => ⟨?_, fun token hmem => ?_⟩, fun e h => ?_⟩
  · simpa only [Nat.zero_add] using fill_of_scanFrom tokens h
  · have hholds := holds_of_mem_scan h hmem
    have hplain := (scanFrom_spec 0 source h).2 token hmem
    exact ⟨hholds.boundaries.1, hholds.boundaries.2, _, hholds, TokenKind.isWritten_text hplain⟩
  · obtain ⟨s, rfl, rfl⟩ := scanFrom_eq_error 0 source h
    have hslash : Utf8.byteLength ['\\'] = 1 := rfl
    simp only [Utf8.byteLength_append, hslash, Nat.zero_add, Nat.add_sub_cancel]

/-- A backslash takes a line feed, another one a backslash, and the third has nothing to take. -/
theorem scan_fills_escapes :
    (∃ tokens, scan "é\\\n*\\\\".toList = .ok tokens ∧ Fill 0 7 tokens ∧
      ⟨.escaped '\n', ⟨2, 4⟩⟩ ∈ tokens ∧ Span.Holds ⟨2, 4⟩ "é\\\n*\\\\".toList ['\\', '\n']) ∧
    scan "日\\\\\\".toList = .error (.ofKind .trailingBackslash ⟨5, 6⟩) := by
  have hodd := scan_fills "日\\\\\\".toList
  obtain ⟨tokens, h⟩ := (scan_fills "é\\\n*\\\\".toList).1.mpr (by decide)
  obtain ⟨hfill, hlie⟩ := (scan_fills "é\\\n*\\\\".toList).2.1 tokens h
  have hmem : ⟨.escaped '\n', ⟨2, 4⟩⟩ ∈ tokens := by
    obtain rfl := Except.ok.inj h
    decide
  refine ⟨⟨tokens, h, hfill, hmem, ?_⟩, ?_⟩
  · obtain ⟨-, -, text, hholds, hwritten⟩ := hlie _ hmem
    cases hwritten
    exact hholds
  · rcases hscan : scan "日\\\\\\".toList with e | tokens
    · exact congrArg Except.error (hodd.2.2 e hscan)
    · exact absurd (hodd.1.mp ⟨tokens, hscan⟩) (by decide)

end Token

end PatternScan
