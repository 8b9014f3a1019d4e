import Mathlib.Tactic.SplitIfs
import PatternScan.Text.Decimal
import PatternScan.Text.Quoted

/-!
# Reading quoted characters

A character is read back from its quoted form, whatever comes after it (`Quoted.unescape?_escape`),
and this form has no control characters (`Quoted.isVisible_escape`).
-/

namespace PatternScan

section Visible

/-- No character of a text is a control character, of those before the blank. -/
def IsVisible (text : List Char) : Prop :=
  ∀ c ∈ text, 0x20 ≤ c.toNat

-- By name, as all characters there are could be tried instead of those of the text.
instance (text : List Char) : Decidable (IsVisible text) :=
  List.decidableBAll (fun c : Char => 0x20 ≤ c.toNat) text

theorem IsVisible.append {text more : List Char} (h : IsVisible text) (hmore : IsVisible more) :
    IsVisible (text ++ more) :=
  fun c hc => (List.mem_append.mp hc).elim (h c) (hmore c)

theorem IsVisible.cons {c : Char} {text : List Char} (hc : 0x20 ≤ c.toNat) (h : IsVisible text) :
    IsVisible (c :: text) :=
  List.forall_mem_cons.mpr ⟨hc, h⟩

theorem isVisible_blanks (n : Nat) : IsVisible (List.replicate n ' ') := by
  intro c hc
  rw [List.eq_of_mem_replicate hc]
  decide

/-- Parts that are visible, with visible text between them. -/
theorem isVisible_intercalate {between : List Char} (h : IsVisible between) :
    ∀ {parts : List (List Char)}, (∀ part ∈ parts, IsVisible part) →
      IsVisible (List.intercalate between parts)
  | [], _ => by simp [IsVisible]
  | [part], hparts => by simpa using hparts
  | part :: next :: parts, hparts => by
    obtain ⟨hpart, hrest⟩ := List.forall_mem_cons.mp hparts
    rw [List.intercalate_cons_cons]
    exact (hpart.append h).append (isVisible_intercalate h hrest)

theorem Decimal.isVisible_digits (n : Nat) : IsVisible (digits n) := by
  intro c hc
  have hdigit := isDigit_of_mem_digits hc
  simp only [Char.isDigit, Bool.and_eq_true, decide_eq_true_eq] at hdigit
  exact Nat.le_trans (by decide) hdigit.1

theorem Decimal.isVisible_padLeft (width n : Nat) : IsVisible (padLeft width n) :=
  (isVisible_blanks _).append (isVisible_digits n)

end Visible

namespace Quoted

section Hexadecimal

theorem digitValue_digitChar : ∀ n < 16, digitValue (Nat.digitChar n) = n := by
  decide

theorem le_toNat_digitChar_hex : ∀ n < 16, 0x20 ≤ (Nat.digitChar n).toNat := by
  decide

theorem ofDigits_append (digits : List Char) (c : Char) :
    ofDigits (digits ++ [c]) = ofDigits digits * 16 + digitValue c := by
  rw [ofDigits, List.foldl_append]
  rfl

/-- Digits are those of a number in base 16, and their value is the number. -/
theorem ofDigits_toDigits (n : Nat) : ofDigits (Nat.toDigits 16 n) = n ∧
    ∀ c ∈ Nat.toDigits 16 n, ∃ d < 16, c = Nat.digitChar d := by
  induction n using Nat.strongRecOn with
  | ind n ih =>
    rw [Nat.toDigits_eq_if (by decide)]
    split
    · next hn =>
      have hvalue := ofDigits_append [] (Nat.digitChar n)
      rw [digitValue_digitChar n hn] at hvalue
      refine ⟨hvalue.trans (Nat.zero_add n), fun c hc => ⟨n, hn, List.mem_singleton.mp hc⟩⟩
    · next hn =>
      obtain ⟨hvalue, hdigits⟩ := ih (n / 16) (by omega)
      have hlast : n % 16 < 16 := Nat.mod_lt n (by decide)
      refine ⟨?_, fun c hc => ?_⟩
      · rw [ofDigits_append, hvalue, digitValue_digitChar _ hlast]
        omega
      · rcases List.mem_append.mp hc with hc | hc
        · exact hdigits c hc
        · exact ⟨n % 16, hlast, List.mem_singleton.mp hc⟩

theorem brace_not_mem_toDigits (n : Nat) : '}' ∉ Nat.toDigits 16 n := by
  intro hmem
  obtain ⟨d, hd, heq⟩ := (ofDigits_toDigits n).2 _ hmem
  have hne : ∀ d < 16, '}' ≠ Nat.digitChar d := by decide
  exact hne d hd heq

end Hexadecimal

theorem unescape?_byNumber (c : Char) (rest : List Char) :
    unescape? (byNumber c ++ rest) = some (c, rest) := by
  have hform : byNumber c ++ rest =
      '\\' :: 'u' :: '\x7b' :: (Nat.toDigits 16 c.toNat ++ '}' :: rest) := by
    simp [byNumber]
  rw [hform, unescape?, cutAtFirst?_append rest (brace_not_mem_toDigits _), Option.map_some]
  dsimp only
  rw [(ofDigits_toDigits _).1, Char.ofNat_toNat]

theorem unescape?_cons {c : Char} (h : c ≠ '\\') (rest : List Char) :
    unescape? (c :: rest) = some (c, rest) := by
  rw [unescape?]
  all_goals simp [h]

/-- A character is read back from its escaped form. -/
theorem unescape?_escape (c : Char) (rest : List Char) :
    unescape? (escape c ++ rest) = some (c, rest) := by
  unfold escape
  split_ifs with hnull htab hreturn hfeed hquote hnumber
  · rw [hnull]; rfl
  · rw [htab]; rfl
  · rw [hreturn]; rfl
  · rw [hfeed]; rfl
  · rcases hquote with rfl | rfl | rfl <;> rfl
  · exact unescape?_byNumber c rest
  · have hslash : c ≠ '\\' := fun h => hquote (.inr (.inr h))
    exact unescape?_cons hslash rest

theorem has_unprintable_of_lt {c : Char} (h : c.toNat < 0x20) :
    CharSet.unprintable.has c = true := by
  have hrange : c.toNat ≤ 0x1F := Nat.le_of_lt_succ h
  rw [CharSet.has, CharSet.unprintable, CharSet.hasCode, if_neg (Nat.not_lt_zero _),
    decide_eq_true hrange, Bool.true_or]

theorem isVisible_byNumber (c : Char) : IsVisible (byNumber c) := by
  have hdigits : IsVisible (Nat.toDigits 16 c.toNat) := by
    intro d hd
    obtain ⟨digit, hdigit, rfl⟩ := (ofDigits_toDigits _).2 d hd
    exact le_toNat_digitChar_hex digit hdigit
  exact ((by decide : IsVisible "\\u\x7b".toList).append hdigits).append (by decide)

/-- Control characters are escaped. -/
theorem isVisible_escape (c : Char) : IsVisible (escape c) := by
  unfold escape
  split_ifs with hnull htab hreturn hfeed hquote hnumber
  · decide
  · decide
  · decide
  · decide
  · rcases hquote with rfl | rfl | rfl <;> decide
  · exact isVisible_byNumber c
  · have hshown : 0x20 ≤ c.toNat :=
      Nat.le_of_not_lt fun hlow => hnumber (.inr (has_unprintable_of_lt hlow))
    exact .cons hshown (by decide)

theorem isVisible_shown (c : Char) : IsVisible (shown c) :=
  .append (.cons (by decide) (isVisible_escape c)) (by decide)

end Quoted

end PatternScan
