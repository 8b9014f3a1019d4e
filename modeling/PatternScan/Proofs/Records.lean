import Mathlib.Data.List.Induction
import PatternScan.Table.Grammar

/-!
# What a record says

The readers find what the grammar says and nothing else: numbers (`Decimal.signed?_eq_some_iff`),
the fields of a record (`RecordFields.read_eq_ok_iff_describe`), and with these the record
(`State.ofRecord_eq_ok_iff`). No comma stands in a number, so the cuts are where the grammar has
them.
-/

namespace PatternScan

namespace Decimal

theorem digitChar_toNat_sub {c : Char} (h : c.isDigit = true) :
    c.toNat - '0'.toNat < 10 ∧ (c.toNat - '0'.toNat).digitChar = c := by
  obtain ⟨hzero, hnine⟩ := Char.isDigit_iff_toNat.mp h
  have hlt : c.toNat - '0'.toNat < 10 := by
    have : '9'.toNat = '0'.toNat + 9 := rfl
    omega
  refine ⟨hlt, Char.toNat_inj.mp ?_⟩
  have : '0'.toNat = 48 := rfl
  rw [Nat.toNat_digitChar_of_lt_ten hlt]
  omega

theorem isDigits_ofDigitChars (cs : List Char) (hne : cs ≠ []) (h : ∀ c ∈ cs, c.isDigit = true) :
    IsDigits cs (Nat.ofDigitChars 10 cs 0) := by
  induction cs using List.reverseRecOn with
  | nil => exact absurd rfl hne
  | append_singleton cs c ih =>
    obtain ⟨hlt, hc⟩ := digitChar_toNat_sub (h c (by simp))
    rw [Nat.ofDigitChars_append, Nat.ofDigitChars_cons, Nat.ofDigitChars_nil]
    by_cases hcs : cs = []
    · have hdigit := IsDigits.digit hlt
      rw [hc] at hdigit
      simpa [hcs] using hdigit
    · have hsnoc := (ih hcs fun c' hc' => h c' (by simp [hc'])).snoc hlt
      rwa [hc] at hsnoc

namespace IsDigits

variable {cs : List Char} {n : Nat}

theorem ne_nil (h : IsDigits cs n) : cs ≠ [] := by
  cases h <;> simp

theorem isDigit_of_mem (h : IsDigits cs n) : ∀ c ∈ cs, c.isDigit = true := by
  induction h with
  | digit hd => simpa [Nat.isDigit_digitChar] using hd
  | snoc h hd ih =>
    intro c hc
    rcases List.mem_append.mp hc with hc | hc
    · exact ih c hc
    · rw [List.mem_singleton.mp hc, Nat.isDigit_digitChar]
      exact decide_eq_true hd

theorem ofDigitChars_eq (h : IsDigits cs n) : Nat.ofDigitChars 10 cs 0 = n := by
  have hzero : '0'.toNat = 48 := rfl
  induction h with
  | digit hd =>
    rw [Nat.ofDigitChars_cons, Nat.ofDigitChars_nil, hzero,
      Nat.toNat_digitChar_sub_48_of_lt_ten hd]
    omega
  | snoc h hd ih =>
    rw [Nat.ofDigitChars_append, ih, Nat.ofDigitChars_cons, Nat.ofDigitChars_nil, hzero,
      Nat.toNat_digitChar_sub_48_of_lt_ten hd]

/-- Digits begin with no sign. -/
theorem ne_cons (h : IsDigits cs n) {c : Char} (hc : c.isDigit = false) (rest : List Char) :
    cs ≠ c :: rest := by
  rintro rfl
  rw [h.isDigit_of_mem c List.mem_cons_self] at hc
  exact Bool.false_ne_true hc.symm

end IsDigits

variable {cs : List Char}

theorem ofDigits?_eq_some_iff {n : Nat} : ofDigits? cs = some n ↔ IsDigits cs n := by
  constructor
  · intro h
    unfold ofDigits? at h
    split at h
    · next hcs =>
      rw [← Option.some.inj h]
      exact isDigits_ofDigitChars cs hcs.1 (List.all_eq_true.mp hcs.2)
    · exact nomatch h
  · intro h
    rw [ofDigits?, if_pos ⟨h.ne_nil, List.all_eq_true.mpr h.isDigit_of_mem⟩, h.ofDigitChars_eq]

theorem unsigned?_eq_some_iff {n : Nat} : unsigned? cs = some n ↔ IsUnsigned cs n := by
  constructor
  · intro h
    unfold unsigned? at h
    split at h
    · exact .plus (ofDigits?_eq_some_iff.mp h)
    · exact .plain (ofDigits?_eq_some_iff.mp h)
  · rintro (h | h)
    · unfold unsigned?
      split
      · next rest => exact absurd rfl (h.ne_cons (by decide) rest)
      · exact ofDigits?_eq_some_iff.mpr h
    · exact ofDigits?_eq_some_iff.mpr h

theorem IsUnsigned.ne_minus {n : Nat} (h : IsUnsigned cs n) (rest : List Char) :
    cs ≠ '-' :: rest := by
  rcases h with h | h
  · exact h.ne_cons (by decide) rest
  · simp

theorem signed?_eq_some_iff {n : Int} : signed? cs = some n ↔ IsSigned cs n := by
  constructor
  · intro h
    unfold signed? at h
    split at h
    · obtain ⟨_, hsize, rfl⟩ := Option.map_eq_some_iff.mp h
      obtain ⟨m, hm, hsize⟩ := Option.bind_eq_some_iff.mp hsize
      obtain rfl := Option.some.inj hsize
      exact .minus (ofDigits?_eq_some_iff.mp hm)
    · obtain ⟨m, hm, rfl⟩ := Option.map_eq_some_iff.mp h
      exact .unsigned (unsigned?_eq_some_iff.mp hm)
  · rintro (h | h)
    · unfold signed?
      split
      · next rest => exact absurd rfl (h.ne_minus rest)
      · exact Option.map_eq_some_iff.mpr ⟨_, unsigned?_eq_some_iff.mpr h, rfl⟩
    · exact Option.map_eq_some_iff.mpr
        ⟨_, Option.bind_eq_some_iff.mpr ⟨_, ofDigits?_eq_some_iff.mpr h, rfl⟩, rfl⟩

/-- Nothing but digits and a sign stands in a number. -/
theorem IsUnsigned.not_mem {n : Nat} {c : Char} (h : IsUnsigned cs n) (hdigit : c.isDigit = false)
    (hplus : c ≠ '+') : c ∉ cs := by
  have hdigits : ∀ {ds : List Char}, IsDigits ds n → c ∉ ds := by
    intro ds h hmem
    rw [h.isDigit_of_mem c hmem] at hdigit
    exact Bool.false_ne_true hdigit.symm
  rcases h with h | h
  · exact hdigits h
  · exact List.not_mem_cons_of_ne_of_not_mem hplus (hdigits h)

theorem IsSigned.not_mem {n : Int} {c : Char} (h : IsSigned cs n) (hdigit : c.isDigit = false)
    (hplus : c ≠ '+') (hminus : c ≠ '-') : c ∉ cs := by
  rcases h with h | h
  · exact h.not_mem hdigit hplus
  · exact List.not_mem_cons_of_ne_of_not_mem hminus ((IsUnsigned.plain h).not_mem hdigit hplus)

end Decimal

theorem Next.decode?_eq_some_iff {n : Int} {next : Next} :
    decode? n = some next ↔ n = next.encode ∧ next.Within idLimit := by
  constructor
  · intro h
    unfold decode? at h
    split at h
    · next hfinal =>
      rw [← Option.some.inj h]
      exact ⟨hfinal, trivial⟩
    split at h
    · next hid =>
      rw [← Option.some.inj h]
      exact ⟨(Int.toNat_of_nonneg hid.1).symm, hid.2⟩
    · exact nomatch h
  · rintro ⟨rfl, h⟩
    exact decode?_encode h

namespace RecordFields

variable {field : List Char}

theorem stateId_eq_ok_iff {id : Nat} :
    stateId field = .ok id ↔ Decimal.IsUnsigned field id ∧ id < Next.idLimit := by
  rw [← Decimal.unsigned?_eq_some_iff]
  unfold stateId
  split
  · next n hn =>
    rw [hn, Option.some.injEq]
    by_cases hlimit : n < Next.idLimit
    · rw [if_pos hlimit, Except.ok.injEq]
      exact ⟨fun h => ⟨h, h ▸ hlimit⟩, fun h => h.1⟩
    · rw [if_neg hlimit]
      exact ⟨nofun, fun ⟨h, hid⟩ => absurd (h ▸ hid) hlimit⟩
  · next hnone => simp [hnone]

theorem stateKind_eq_ok_iff {kind : StateKind} :
    stateKind field = .ok kind ↔ field = kind.symbol := by
  rw [← StateKind.ofSymbol?_eq_some_iff]
  unfold stateKind
  split
  · next kind' hkind => simp [hkind]
  · next hnone => simp [hnone]

theorem successor_eq_ok_iff {next : Next} : successor field = .ok next ↔
    Decimal.IsSigned field next.encode ∧ next.Within Next.idLimit := by
  have hdecode : (Decimal.signed? field).bind Next.decode? = some next ↔
      Decimal.IsSigned field next.encode ∧ next.Within Next.idLimit := by
    simp [Option.bind_eq_some_iff, Decimal.signed?_eq_some_iff, Next.decode?_eq_some_iff]
  rw [← hdecode]
  unfold successor
  split
  · next next' hnext => simp [hnext]
  · next hnone => simp [hnone]

theorem read_eq_ok_iff_describe {fields : RecordFields} {id : Nat} {s : State} :
    fields.read = .ok (id, s) ↔ fields.Describe Next.idLimit id s := by
  rw [read_eq_ok_iff, stateId_eq_ok_iff, stateKind_eq_ok_iff, successor_eq_ok_iff,
    successor_eq_ok_iff]
  constructor
  · rintro ⟨⟨hid, hlt⟩, hsymbol, ⟨hfirst, hfirst'⟩, hsecond, hsecond'⟩
    exact ⟨hid, hlt, hsymbol, hfirst, hfirst', hsecond, hsecond'⟩
  · intro h
    exact ⟨⟨h.number, h.number_lt⟩, h.symbol, ⟨h.first, h.first_within⟩, h.second, h.second_within⟩

theorem mem_second_of_getLast?_line {fields : RecordFields} {c : Char}
    (h : fields.line.getLast? = some c) (hc : c ≠ ',') : c ∈ fields.second := by
  rw [line, List.getLast?_append_cons] at h
  exact List.mem_of_ne_of_mem hc (List.mem_of_getLast? h)

end RecordFields

theorem State.ofRecord_eq_ok_iff {record : List Char} {id : Nat} {s : State} :
    ofRecord record = .ok (id, s) ↔ Table.IsRecord Next.idLimit record id s := by
  constructor
  · intro h
    unfold ofRecord at h
    split at h
    · next fields hfields =>
      exact ⟨fields, (RecordFields.ofLine?_eq_some_iff.mp hfields).1,
        RecordFields.read_eq_ok_iff_describe.mp h⟩
    · exact nomatch h
  · rintro ⟨fields, rfl, h⟩
    have hline : RecordFields.ofLine? fields.line = some fields :=
      RecordFields.ofLine?_eq_some_iff.mpr ⟨rfl, h.number.not_mem (by decide) (by decide),
        h.first.not_mem (by decide) (by decide) (by decide),
        h.second.not_mem (by decide) (by decide) (by decide)⟩
    rw [ofRecord, hline]
    exact RecordFields.read_eq_ok_iff_describe.mpr h

end PatternScan
