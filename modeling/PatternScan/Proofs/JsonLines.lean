import Mathlib.Data.List.Forall2
import PatternScan.Proofs.Encoding
import PatternScan.Proofs.Printing
import PatternScan.Report.JsonValue

/-!
# Matches as JSON lines

No two values have the same tokens (`Json.Value.tokens_inj`), so a text is that of one value at
most. A string is read back character by character (`Json.char?_escape`) and a number digit by
digit, so a match printed as an object is the text of its value, and of no other
(`LineMatch.reads_json_iff`). Nothing in it is below the space, so the output can be cut at its line
feeds.
-/

namespace PatternScan

namespace Json

theorem Value.tokens_append_ne (v : Value) (r r' : List Token) :
    v.tokens ++ r ≠ .mark ']' :: r' := by
  rcases v with s | ⟨_ | ⟨w, items⟩⟩ | ⟨_ | ⟨⟨key, w⟩, members⟩⟩ <;> simp [Value.tokens]

mutual

/-- The tokens of a value tell which one it is, and where it ends. -/
theorem Value.eq_of_tokens_append : ∀ {v v' : Value} {r r' : List Token},
    v.tokens ++ r = v'.tokens ++ r' → v = v' ∧ r = r'
  | .scalar s, v', r, r', h => by
    rcases v' with s' | ⟨_ | ⟨w, items⟩⟩ | ⟨_ | ⟨⟨key, w⟩, members⟩⟩ <;> simp_all [Value.tokens]
  | .array [], v', r, r', h => by
    rcases v' with s' | ⟨_ | ⟨w, items⟩⟩ | ⟨_ | ⟨⟨key, w⟩, members⟩⟩ <;> simp_all [Value.tokens]
    exact absurd h.symm (w.tokens_append_ne _ _)
  | .array (v :: items), v', r, r', h => by
    rcases v' with s' | ⟨_ | ⟨v', items'⟩⟩ | ⟨_ | ⟨⟨key, v'⟩, members⟩⟩ <;>
      simp [Value.tokens] at h
    · exact absurd h (v.tokens_append_ne _ _)
    · obtain ⟨rfl, hrest⟩ := Value.eq_of_tokens_append h
      obtain ⟨rfl, rfl⟩ := eq_of_laterItems_append hrest
      exact ⟨rfl, rfl⟩
  | .object [], v', r, r', h => by
    rcases v' with s' | ⟨_ | ⟨w, items⟩⟩ | ⟨_ | ⟨⟨key, w⟩, members⟩⟩ <;> simp_all [Value.tokens]
  | .object ((key, v) :: members), v', r, r', h => by
    rcases v' with s' | ⟨_ | ⟨v', items⟩⟩ | ⟨_ | ⟨⟨key', v'⟩, members'⟩⟩ <;>
      simp [Value.tokens] at h
    obtain ⟨rfl, hv⟩ := h
    obtain ⟨rfl, hrest⟩ := Value.eq_of_tokens_append hv
    obtain ⟨rfl, rfl⟩ := eq_of_laterMembers_append hrest
    exact ⟨rfl, rfl⟩

theorem eq_of_laterItems_append : ∀ {vs vs' : List Value} {r r' : List Token},
    laterItems vs ++ r = laterItems vs' ++ r' → vs = vs' ∧ r = r'
  | [], [], r, r', h => by simpa [laterItems] using h
  | [], _ :: _, r, r', h => by simp [laterItems] at h
  | _ :: _, [], r, r', h => by simp [laterItems] at h
  | v :: vs, v' :: vs', r, r', h => by
    simp only [laterItems, List.cons_append, List.append_assoc, List.cons.injEq, true_and] at h
    obtain ⟨rfl, hrest⟩ := Value.eq_of_tokens_append h
    obtain ⟨rfl, rfl⟩ := eq_of_laterItems_append hrest
    exact ⟨rfl, rfl⟩

theorem eq_of_laterMembers_append : ∀ {ms ms' : List (List Char × Value)} {r r' : List Token},
    laterMembers ms ++ r = laterMembers ms' ++ r' → ms = ms' ∧ r = r'
  | [], [], r, r', h => by simpa [laterMembers] using h
  | [], (_, _) :: _, r, r', h => by simp [laterMembers] at h
  | (_, _) :: _, [], r, r', h => by simp [laterMembers] at h
  | (key, v) :: ms, (key', v') :: ms', r, r', h => by
    simp only [laterMembers, List.cons_append, List.append_assoc, List.cons.injEq,
      Token.scalar.injEq, Scalar.string.injEq, true_and] at h
    obtain ⟨rfl, hv⟩ := h
    obtain ⟨rfl, hrest⟩ := Value.eq_of_tokens_append hv
    obtain ⟨rfl, rfl⟩ := eq_of_laterMembers_append hrest
    exact ⟨rfl, rfl⟩

end

theorem Value.tokens_inj {v v' : Value} (h : v.tokens = v'.tokens) : v = v' :=
  (Value.eq_of_tokens_append (congrArg (· ++ []) h)).1

theorem hexValue?_digitChar : ∀ n < 16, hexValue? (Nat.digitChar n) = some n := by
  decide

theorem le_toNat_digitChar : ∀ n < 16, 0x20 ≤ (Nat.digitChar n).toNat := by
  decide

theorem unit?_fourDigits {code : Nat} (h : code < 0x20) (rest : List Char) :
    unit? (fourDigits code ++ rest) = some (code, rest) := by
  have hzero : hexValue? '0' = some 0 := rfl
  have hhigh := hexValue?_digitChar (code / 16) (by omega)
  have hlow := hexValue?_digitChar (code % 16) (by omega)
  simp only [fourDigits, List.cons_append, List.nil_append, unit?, hzero, hhigh, hlow,
    Option.bind_eq_bind, Option.bind_some, Option.some.injEq, Prod.mk.injEq, and_true]
  omega

theorem char?_escape (c : Char) (rest : List Char) :
    char? (escape c ++ rest) = some (c, rest) := by
  unfold escape
  split_ifs with hquoted hb hf hn hr ht hcontrol
  · rcases hquoted with rfl | rfl <;> rfl
  all_goals try (subst_vars; rfl)
  · -- The number of the character is not that of a surrogate.
    rw [List.cons_append, List.cons_append, char?, if_pos rfl, escape?, numbered?,
      unit?_fourDigits hcontrol]
    simp only [Option.bind_eq_bind, Option.bind_some]
    rw [if_neg (by omega), if_neg (by omega), Char.ofNat_toNat]
  · rw [not_or] at hquoted
    rw [List.singleton_append, char?, if_neg hquoted.2, if_neg (by tauto)]

theorem le_toNat_of_mem_escape (c : Char) : ∀ d ∈ escape c, 0x20 ≤ d.toNat := by
  unfold escape
  split_ifs with hquoted hb hf hn hr ht hcontrol
  · rcases hquoted with rfl | rfl <;> simp
  iterate 5 simp
  · simp only [fourDigits, List.mem_cons, List.not_mem_nil, or_false, forall_eq_or_imp, forall_eq]
    have hhigh := le_toNat_digitChar (c.toNat / 16) (by omega)
    have hlow := le_toNat_digitChar (c.toNat % 16) (by omega)
    exact ⟨by decide, by decide, by decide, by decide, hhigh, hlow⟩
  · simpa using hcontrol

theorem le_toNat_of_mem_string (text : List Char) : ∀ c ∈ string text, 0x20 ≤ c.toNat := by
  intro c hc
  rw [string, List.cons_append, List.mem_cons, List.mem_append, List.mem_singleton,
    List.mem_flatMap] at hc
  rcases hc with rfl | ⟨d, -, hc⟩ | rfl
  · decide
  · exact le_toNat_of_mem_escape d c hc
  · decide

/-- An escape does not begin as the end of a string does. -/
theorem stringRest?_escape (c : Char) (rest : List Char) : stringRest? (escape c ++ rest) =
    (stringRest? rest).map fun (cs, after) => (c :: cs, after) := by
  have hchar := char?_escape c rest
  rw [stringRest?]
  · split
    · next hnone => cases hnone.symm.trans hchar
    · next c' rest' hsome =>
      obtain ⟨rfl, rfl⟩ := Prod.mk.inj (Option.some.inj (hsome.symm.trans hchar))
      rfl
  · intro rest' heq
    have hnone : char? (escape c ++ rest) = none := by rw [heq]; rfl
    cases hnone.symm.trans hchar

theorem stringRest?_flatMap_escape (rest : List Char) : ∀ text : List Char,
    stringRest? (text.flatMap escape ++ '"' :: rest) = some (text, rest)
  | [] => by rw [List.flatMap_nil, List.nil_append, stringRest?]
  | c :: text => by
    rw [List.flatMap_cons, List.append_assoc, stringRest?_escape,
      stringRest?_flatMap_escape rest text]
    rfl

theorem tokens?_string (text rest : List Char) :
    tokens? (string text ++ rest) = (tokens? rest).map (.scalar (.string text) :: ·) := by
  have hrest : stringRest? (text.flatMap escape ++ (['"'] ++ rest)) = some (text, rest) :=
    stringRest?_flatMap_escape rest text
  rw [string, List.cons_append, List.cons_append, List.append_assoc, tokens?, if_neg (by decide),
    if_neg (by decide), if_pos rfl]
  split
  · next hnone => cases hnone.symm.trans hrest
  · next cs rest' hsome =>
    obtain ⟨rfl, rfl⟩ := Prod.mk.inj (Option.some.inj (hsome.symm.trans hrest))
    rfl

theorem isBlank_of_isMark {c : Char} (h : isMark c = true) : isBlank c = false := by
  simp only [isMark, Bool.or_eq_true, decide_eq_true_eq] at h
  rcases h with ((((rfl | rfl) | rfl) | rfl) | rfl) | rfl <;> rfl

theorem tokens?_mark {c : Char} (h : isMark c = true) (rest : List Char) :
    tokens? (c :: rest) = (tokens? rest).map (.mark c :: ·) := by
  rw [tokens?, if_neg (by simp [isBlank_of_isMark h]), if_pos h]

/-- A number is written without a needless zero. -/
theorem eq_zero_of_head?_digits {n : Nat} (h : (Decimal.digits n).head? = some '0') : n = 0 := by
  induction n using Nat.strongRecOn with
  | _ n ih =>
    by_cases hn : n < 10
    · rw [Decimal.digits, Nat.toDigits_of_lt_base hn, List.head?_cons, Option.some.injEq] at h
      have hfirst : ∀ d < 10, Nat.digitChar d = '0' → d = 0 := by decide
      exact hfirst n hn h
    · rw [Decimal.digits, Nat.toDigits_of_base_le (by decide) (Nat.le_of_not_lt hn),
        List.head?_append_of_ne_nil _ Nat.toDigits_ne_nil] at h
      have := ih (n / 10) (by omega) h
      omega

theorem le_toNat_of_mem_digits (n : Nat) : ∀ c ∈ Decimal.digits n, 0x20 ≤ c.toNat := by
  intro c hc
  have hdigit := Decimal.isDigit_of_mem_digits hc
  simp only [Char.isDigit, Bool.and_eq_true, decide_eq_true_eq, UInt32.le_iff_toNat_le] at hdigit
  exact Nat.le_trans (by decide) hdigit.1

theorem magnitude?_digits (n : Nat) : magnitude? (Decimal.digits n) = some (n, 0) := by
  have hwhole : whole? (Decimal.digits n) = some n := by
    rw [whole?, if_neg, Decimal.ofDigits?_digits]
    rintro ⟨hhead, hne⟩
    obtain rfl := eq_zero_of_head?_digits hhead
    exact hne rfl
  simp [magnitude?, significand?, cutAtFirst?_of_not_mem (Decimal.not_mem_digits _ n), hwhole]

theorem word?_digits (n : Nat) : word? (Decimal.digits n) = some (.number n 0) := by
  have hletter : ∀ {c : Char} {cs : List Char}, c.isDigit = false → Decimal.digits n ≠ c :: cs :=
    fun h => Decimal.digits_ne_cons h n _
  rw [word?]
  · rw [number?, magnitude?_digits]
    · rfl
    · exact fun _ => hletter rfl
  all_goals exact hletter rfl

section Digit

variable {c : Char} (h : c.isDigit = true)
include h

theorem ne_of_isDigit {d : Char} (hd : d.isDigit = false) : c ≠ d := by
  rintro rfl
  exact nomatch h.symm.trans hd

theorem isBlank_of_isDigit : isBlank c = false := by
  simp [isBlank, ne_of_isDigit h]

theorem isMark_of_isDigit : isMark c = false := by
  simp [isMark, ne_of_isDigit h]

theorem continues_of_isDigit : continues c = true := by
  simp [continues, isBlank_of_isDigit h, isMark_of_isDigit h, ne_of_isDigit h]

end Digit

theorem tokens?_digits (n : Nat) {c : Char} (h : isMark c = true) (rest : List Char) :
    tokens? (Decimal.digits n ++ c :: rest) =
      (tokens? (c :: rest)).map (.scalar (.number n 0) :: ·) := by
  have hword := word?_digits n
  have hdigits : ∀ d ∈ Decimal.digits n, d.isDigit = true := fun d => Decimal.isDigit_of_mem_digits
  have hstop : ¬ continues c = true := by simp [continues, h]
  rcases hcons : Decimal.digits n with _ | ⟨d, ds⟩
  · exact absurd hcons Nat.toDigits_ne_nil
  · rw [hcons] at hword hdigits
    obtain ⟨hd, hds⟩ := List.forall_mem_cons.mp hdigits
    have hcontinues : ∀ d ∈ ds, continues d = true := fun d hd => continues_of_isDigit (hds d hd)
    rw [List.cons_append, tokens?, isBlank_of_isDigit hd, isMark_of_isDigit hd,
      if_neg Bool.false_ne_true, if_neg Bool.false_ne_true, if_neg (ne_of_isDigit hd rfl),
      List.takeWhile_append_of_pos hcontinues, List.dropWhile_append_of_pos hcontinues,
      List.takeWhile_cons_of_neg hstop, List.dropWhile_cons_of_neg hstop, List.append_nil, hword]

end Json

namespace LineMatch

theorem tokens?_json (m : LineMatch) : Json.tokens? m.json = some m.value.tokens := by
  have hend : Json.tokens? [] = some [] := by rw [Json.tokens?]
  simp only [json, Json.object, Json.field, List.intercalate, List.intersperse, List.flatten_cons,
    List.flatten_nil, List.append_assoc, List.cons_append, List.nil_append]
  simp (disch := decide) only [Json.tokens?_mark, Json.tokens?_string, Json.tokens?_digits, hend,
    Option.map_some]
  simp only [value, Json.Value.tokens, Json.laterMembers, List.cons_append, List.nil_append]

/-- A printed match is the text of its value, and of no other. -/
theorem reads_json_iff (m : LineMatch) (v : Json.Value) : Json.Reads m.json v ↔ v = m.value := by
  rw [Json.Reads, tokens?_json, Option.some.injEq]
  exact ⟨fun h => (Json.Value.tokens_inj h).symm, fun h => h ▸ rfl⟩

theorem le_toNat_of_mem_json (m : LineMatch) : ∀ c ∈ m.json, 0x20 ≤ c.toNat := by
  have hfield : ∀ (key : String) (value : List Char), (∀ c ∈ value, 0x20 ≤ c.toNat) →
      ∀ c ∈ Json.field key value, 0x20 ≤ c.toNat := by
    intro key value hvalue
    rw [Json.field, List.forall_mem_append, List.forall_mem_cons]
    exact ⟨Json.le_toNat_of_mem_string _, by decide, hvalue⟩
  have hnumber := hfield "line_number" _ (Json.le_toNat_of_mem_digits m.number)
  have hstart := hfield "start" _ (Json.le_toNat_of_mem_digits m.found.start)
  have hstop := hfield "end" _ (Json.le_toNat_of_mem_digits m.found.stop)
  have hline := hfield "line" _ (Json.le_toNat_of_mem_string m.line)
  simp only [json, Json.object, List.intercalate, List.intersperse, List.flatten_cons,
    List.flatten_nil, List.append_nil, List.cons_append, List.nil_append, List.append_assoc,
    List.forall_mem_append, List.forall_mem_cons]
  exact ⟨by decide, hnumber, by decide, hstart, by decide, hstop, by decide, hline, by decide,
    by simp⟩

theorem not_mem_json (m : LineMatch) {c : Char} (h : c.toNat < 0x20) : c ∉ m.json :=
  fun hmem => absurd (m.le_toNat_of_mem_json c hmem) (Nat.not_le.mpr h)

end LineMatch

/-- Cut at its line feeds, the output has a line for each match. -/
theorem piecesBetween_records {style : PrintStyle} (h : style.json = true) :
    ∀ events : List SearchEvent, piecesBetween '\n' (records style events) =
      (matchesOf events).map LineMatch.json ++ [[]]
  | [] => rfl
  | .skipped line e :: events => piecesBetween_records h events
  | .matched m :: events => by
    have hrecord : m.record style = m.json ++ ['\n'] := by
      simp [LineMatch.record, LineMatch.pieces, h]
    have hrecords :
        records style (.matched m :: events) = m.json ++ '\n' :: records style events := by
      rw [records, List.flatMap_cons, SearchEvent.record, hrecord, List.append_assoc]
      rfl
    rw [hrecords, piecesBetween_append _ (m.not_mem_json (by decide)),
      piecesBetween_records h events]
    rfl

/-- Printed as JSON, whatever their lines contain, matches are one line each, in order: cut off at
the line feeds, each line is the text of the value of its match and of no other. The options for
colors and line numbers do not matter, and there is no escape character, in bytes neither. -/
theorem Printer.json_lines (lineNumber colored flushFails : Bool) (diagnostics : Device)
    (events : List SearchEvent) :
    let run := sink.deliver ⟨⟨lineNumber, true, colored⟩, .new none flushFails, diagnostics⟩ events
    run.2 = .ok () ∧
    (∃ lines, piecesBetween '\n' run.1.out.text = lines ++ [[]] ∧
      List.Forall₂ (fun line m => ∀ v, Json.Reads line v ↔ v = m.value) lines
        (matchesOf events)) ∧
    '\x1b' ∉ run.1.out.text ∧ 0x1b ∉ Utf8.encode run.1.out.text := by
  intro run
  have hrun := deliver_out events ⟨⟨lineNumber, true, colored⟩, .new none flushFails, diagnostics⟩
  rw [Device.writeAll_unlimited _ rfl] at hrun
  obtain ⟨hout, hok⟩ := Prod.mk.inj hrun
  have htext : run.1.out.text = records ⟨lineNumber, true, colored⟩ events := by
    rw [show run.1.out = _ from hout, Device.text_taken, flatten_pieces]
    rfl
  have hescape : '\x1b' ∉ run.1.out.text := by
    rw [htext]
    intro hmem
    obtain ⟨event, -, hmem⟩ := List.mem_flatMap.mp hmem
    rcases event with m | _
    · simp only [SearchEvent.record, LineMatch.record, LineMatch.pieces, if_true,
        List.flatten_cons, List.flatten_nil, List.append_nil, List.mem_append,
        List.mem_singleton] at hmem
      rcases hmem with hmem | hmem
      · exact m.not_mem_json (by decide) hmem
      · exact absurd hmem (by decide)
    · exact absurd hmem List.not_mem_nil
  refine ⟨hok, ⟨(matchesOf events).map LineMatch.json, ?_, ?_⟩, hescape, ?_⟩
  · rw [htext, piecesBetween_records rfl]
  · rw [List.forall₂_map_left_iff]
    exact List.forall₂_same.mpr fun m _ => m.reads_json_iff
  · rw [Utf8.mem_encode_iff (by decide)]
    exact hescape

end PatternScan
