import PatternScan.Text.Utf8

/-!
# Text and its bytes

Bytes are decoded to a text exactly if they are the UTF-8 form of it (`decode_eq_ok_iff`). A leading
byte together with those that its range and its count ask for are the bytes of one character
(`utf8EncodeChar_of_completes`), and the bytes of every character past the first 128 are of this
kind (`exists_lead`).
-/

namespace PatternScan.Utf8

/-- The byte is one that comes after the second of a character, or is it where its range is not
narrower. -/
def Continues (b : UInt8) : Prop :=
  0x80 ≤ b.toNat ∧ b.toNat ≤ 0xBF

namespace Pending

/-- The bytes complete the character: the first is in its range, and as many as have to come after
it. -/
def Completes (p : Pending) : List UInt8 → Prop
  | [] => False
  | b :: rest => p.low ≤ b.toNat ∧ b.toNat ≤ p.high ∧ rest.length = p.following ∧
      ∀ b' ∈ rest, Continues b'

/-- The value of the character that the bytes complete. -/
def valueWith (p : Pending) (tail : List UInt8) : Nat :=
  tail.foldl (fun value b => value * 64 + (b.toNat - 0x80)) p.value

/-- The leading bytes by the number of bytes that come after them. -/
theorem ofLead?_eq (byte : Nat) : ofLead? byte =
    if 0xC2 ≤ byte ∧ byte ≤ 0xDF then some ⟨1, 0, 0x80, 0xBF, byte - 0xC0⟩
    else if 0xE0 ≤ byte ∧ byte ≤ 0xEF then
      some ⟨1, 1, if byte = 0xE0 then 0xA0 else 0x80, if byte = 0xED then 0x9F else 0xBF,
        byte - 0xE0⟩
    else if 0xF0 ≤ byte ∧ byte ≤ 0xF4 then
      some ⟨1, 2, if byte = 0xF0 then 0x90 else 0x80, if byte = 0xF4 then 0x8F else 0xBF,
        byte - 0xF0⟩
    else none := by
  unfold ofLead?
  repeat' split
  all_goals first | omega | (subst byte; rfl) | with_reducible rfl

theorem seen_of_ofLead? {byte : Nat} {p : Pending} (h : ofLead? byte = some p) : p.seen = 1 := by
  rw [ofLead?_eq] at h
  split at h
  · rw [← Option.some.inj h]
  split at h
  · rw [← Option.some.inj h]
  split at h
  · rw [← Option.some.inj h]
  · exact nomatch h

end Pending

section Bytes

variable {v : Nat} {b b₁ b₂ b₃ : UInt8}

theorem utf8EncodeChar_ofNat (h : v.isValidChar) : String.utf8EncodeChar (Char.ofNat v) =
    if v ≤ 0x7F then [UInt8.ofNat v]
    else if v ≤ 0x7FF then [UInt8.ofNat (v / 64 % 32 + 192), UInt8.ofNat (v % 64 + 128)]
    else if v ≤ 0xFFFF then
      [UInt8.ofNat (v / 4096 % 16 + 224), UInt8.ofNat (v / 64 % 64 + 128),
        UInt8.ofNat (v % 64 + 128)]
    else
      [UInt8.ofNat (v / 262144 % 8 + 240), UInt8.ofNat (v / 4096 % 64 + 128),
        UInt8.ofNat (v / 64 % 64 + 128), UInt8.ofNat (v % 64 + 128)] := by
  have hv : (Char.ofNat v).val.toNat = v := by
    rw [Char.ofNat, dif_pos h]
    rfl
  rw [String.utf8EncodeChar, hv]

theorem ofNat_eq {n : Nat} (h : n = b.toNat) : UInt8.ofNat n = b := by
  rw [h, UInt8.ofNat_toNat]

theorem utf8EncodeChar_one (hb : b.toNat < 0x80) :
    String.utf8EncodeChar (Char.ofNat b.toNat) = [b] := by
  rw [utf8EncodeChar_ofNat (.inl (by omega)), if_pos (by omega), ofNat_eq rfl]

theorem utf8EncodeChar_two (hb : 0xC2 ≤ b.toNat ∧ b.toNat ≤ 0xDF) (hb₁ : Continues b₁)
    (hv : v = (b.toNat - 0xC0) * 64 + (b₁.toNat - 0x80)) :
    v.isValidChar ∧ String.utf8EncodeChar (Char.ofNat v) = [b, b₁] := by
  unfold Continues at hb₁
  have hvalid : v.isValidChar := .inl (by omega)
  refine ⟨hvalid, ?_⟩
  rw [utf8EncodeChar_ofNat hvalid, if_neg (by omega), if_pos (by omega),
    ofNat_eq (b := b) (by omega), ofNat_eq (b := b₁) (by omega)]

/-- The value is past what two bytes say and is no surrogate. -/
theorem utf8EncodeChar_three (hb : 0xE0 ≤ b.toNat ∧ b.toNat ≤ 0xEF) (hb₁ : Continues b₁)
    (hb₂ : Continues b₂) (hlow : b.toNat = 0xE0 → 0xA0 ≤ b₁.toNat)
    (hhigh : b.toNat = 0xED → b₁.toNat ≤ 0x9F)
    (hv : v = ((b.toNat - 0xE0) * 64 + (b₁.toNat - 0x80)) * 64 + (b₂.toNat - 0x80)) :
    v.isValidChar ∧ String.utf8EncodeChar (Char.ofNat v) = [b, b₁, b₂] := by
  unfold Continues at hb₁ hb₂
  have hvalid : v.isValidChar := by
    unfold Nat.isValidChar
    omega
  refine ⟨hvalid, ?_⟩
  rw [utf8EncodeChar_ofNat hvalid, if_neg (by omega), if_neg (by omega), if_pos (by omega),
    ofNat_eq (b := b) (by omega), ofNat_eq (b := b₁) (by omega), ofNat_eq (b := b₂) (by omega)]

/-- The value is past what three bytes say and not past the last character. -/
theorem utf8EncodeChar_four (hb : 0xF0 ≤ b.toNat ∧ b.toNat ≤ 0xF4) (hb₁ : Continues b₁)
    (hb₂ : Continues b₂) (hb₃ : Continues b₃) (hlow : b.toNat = 0xF0 → 0x90 ≤ b₁.toNat)
    (hhigh : b.toNat = 0xF4 → b₁.toNat ≤ 0x8F)
    (hv : v = (((b.toNat - 0xF0) * 64 + (b₁.toNat - 0x80)) * 64 + (b₂.toNat - 0x80)) * 64 +
      (b₃.toNat - 0x80)) :
    v.isValidChar ∧ String.utf8EncodeChar (Char.ofNat v) = [b, b₁, b₂, b₃] := by
  unfold Continues at hb₁ hb₂ hb₃
  have hvalid : v.isValidChar := .inr (by omega)
  refine ⟨hvalid, ?_⟩
  rw [utf8EncodeChar_ofNat hvalid, if_neg (by omega), if_neg (by omega), if_neg (by omega),
    ofNat_eq (b := b) (by omega), ofNat_eq (b := b₁) (by omega), ofNat_eq (b := b₂) (by omega),
    ofNat_eq (b := b₃) (by omega)]

end Bytes

section Lead

variable {b : UInt8} {p : Pending} {tail : List UInt8}

/-- A leading byte and those that complete its character are the bytes of a character. -/
theorem utf8EncodeChar_of_completes (hlead : Pending.ofLead? b.toNat = some p)
    (h : p.Completes tail) : (p.valueWith tail).isValidChar ∧
      String.utf8EncodeChar (Char.ofNat (p.valueWith tail)) = b :: tail := by
  rw [Pending.ofLead?_eq] at hlead
  split at hlead
  · next hb =>
    obtain rfl := Option.some.inj hlead
    rcases tail with _ | ⟨b₁, _ | ⟨b₂, tail⟩⟩
    · exact h.elim
    · exact utf8EncodeChar_two hb ⟨h.1, h.2.1⟩ rfl
    · exact nomatch h.2.2.1
  split at hlead
  · next hb =>
    obtain rfl := Option.some.inj hlead
    rcases tail with _ | ⟨b₁, _ | ⟨b₂, _ | ⟨b₃, tail⟩⟩⟩
    · exact h.elim
    · exact nomatch h.2.2.1
    · obtain ⟨hlow, hhigh, -, htail⟩ := h
      simp only at hlow hhigh
      have hb₁ : Continues b₁ := by
        unfold Continues
        split at hlow <;> split at hhigh <;> omega
      refine utf8EncodeChar_three hb hb₁ (htail b₂ (by simp)) (fun h => ?_) (fun h => ?_) rfl
      · rwa [if_pos h] at hlow
      · rwa [if_pos h] at hhigh
    · exact nomatch h.2.2.1
  split at hlead
  · next hb =>
    obtain rfl := Option.some.inj hlead
    rcases tail with _ | ⟨b₁, _ | ⟨b₂, _ | ⟨b₃, _ | ⟨b₄, tail⟩⟩⟩⟩
    · exact h.elim
    · exact nomatch h.2.2.1
    · exact nomatch h.2.2.1
    · obtain ⟨hlow, hhigh, -, htail⟩ := h
      simp only at hlow hhigh
      have hb₁ : Continues b₁ := by
        unfold Continues
        split at hlow <;> split at hhigh <;> omega
      refine utf8EncodeChar_four hb hb₁ (htail b₂ (by simp)) (htail b₃ (by simp)) (fun h => ?_)
        (fun h => ?_) rfl
      · rwa [if_pos h] at hlow
      · rwa [if_pos h] at hhigh
    · exact nomatch h.2.2.1
  · exact nomatch hlead

theorem toNat_ofNat_of_lt {n : Nat} (h : n < 256) : (UInt8.ofNat n).toNat = n :=
  UInt8.toNat_ofNat_of_lt' h

/-- Every character past the first 128 has a leading byte and others that complete it. -/
theorem exists_lead {v : Nat} (hv : v.isValidChar) (h : 0x80 ≤ v) :
    ∃ b : UInt8, ∃ p tail, 0x80 ≤ b.toNat ∧ Pending.ofLead? b.toNat = some p ∧
      p.Completes tail ∧ p.valueWith tail = v := by
  unfold Nat.isValidChar at hv
  by_cases h2 : v ≤ 0x7FF
  · have hb := toNat_ofNat_of_lt (n := 0xC0 + v / 64) (by omega)
    have hb₁ := toNat_ofNat_of_lt (n := 0x80 + v % 64) (by omega)
    refine ⟨.ofNat (0xC0 + v / 64), _, [.ofNat (0x80 + v % 64)], by omega,
      by rw [Pending.ofLead?_eq, if_pos (by omega)], ⟨?_, ?_, rfl, by simp⟩, ?_⟩
    · simp only
      omega
    · simp only
      omega
    · simp only [Pending.valueWith, List.foldl_cons, List.foldl_nil]
      omega
  by_cases h3 : v ≤ 0xFFFF
  · have hb := toNat_ofNat_of_lt (n := 0xE0 + v / 4096) (by omega)
    have hb₁ := toNat_ofNat_of_lt (n := 0x80 + v / 64 % 64) (by omega)
    have hb₂ := toNat_ofNat_of_lt (n := 0x80 + v % 64) (by omega)
    refine ⟨.ofNat (0xE0 + v / 4096), _, [.ofNat (0x80 + v / 64 % 64), .ofNat (0x80 + v % 64)],
      by omega, by rw [Pending.ofLead?_eq, if_neg (by omega), if_pos (by omega)],
      ⟨?_, ?_, rfl, ?_⟩, ?_⟩
    · simp only
      split <;> omega
    · simp only
      split <;> omega
    · simp only [List.mem_singleton, forall_eq, Continues]
      omega
    · simp only [Pending.valueWith, List.foldl_cons, List.foldl_nil]
      omega
  · have hb := toNat_ofNat_of_lt (n := 0xF0 + v / 262144) (by omega)
    have hb₁ := toNat_ofNat_of_lt (n := 0x80 + v / 4096 % 64) (by omega)
    have hb₂ := toNat_ofNat_of_lt (n := 0x80 + v / 64 % 64) (by omega)
    have hb₃ := toNat_ofNat_of_lt (n := 0x80 + v % 64) (by omega)
    refine ⟨.ofNat (0xF0 + v / 262144), _,
      [.ofNat (0x80 + v / 4096 % 64), .ofNat (0x80 + v / 64 % 64), .ofNat (0x80 + v % 64)],
      by omega, by rw [Pending.ofLead?_eq, if_neg (by omega), if_neg (by omega), if_pos (by omega)],
      ⟨?_, ?_, rfl, ?_⟩, ?_⟩
    · simp only
      split <;> omega
    · simp only
      split <;> omega
    · simp only [List.mem_cons, List.not_mem_nil, or_false, forall_eq_or_imp, forall_eq, Continues]
      omega
    · simp only [Pending.valueWith, List.foldl_cons, List.foldl_nil]
      omega

end Lead

section Decode

variable {valid : Nat} {done text : List Char}

theorem decodeFrom_completes (rest : List UInt8) : ∀ {p : Pending} {tail : List UInt8},
    p.Completes tail → decodeFrom valid done (some p) (tail ++ rest) =
      decodeFrom (valid + p.seen + tail.length) (Char.ofNat (p.valueWith tail) :: done) none rest
  | _, [], h => h.elim
  | ⟨seen, 0, low, high, value⟩, [b], ⟨hlow, hhigh, _⟩ => by
    rw [List.cons_append, decodeFrom, if_pos ⟨hlow, hhigh⟩]
    rfl
  | ⟨seen, n + 1, low, high, value⟩, b :: b' :: tail, ⟨hlow, hhigh, hlength, hrest⟩ => by
    obtain ⟨hb', htail⟩ := List.forall_mem_cons.mp hrest
    have hcompletes : Pending.Completes ⟨seen + 1, n, 0x80, 0xBF, value * 64 + (b.toNat - 0x80)⟩
        (b' :: tail) := ⟨hb'.1, hb'.2, Nat.succ.inj hlength, htail⟩
    have hvalid : valid + (seen + 1) + (b' :: tail).length =
        valid + seen + (b :: b' :: tail).length := by
      simp only [List.length_cons]
      omega
    have hvalue : Pending.valueWith ⟨seen, n + 1, low, high, value⟩ (b :: b' :: tail) =
        Pending.valueWith ⟨seen + 1, n, 0x80, 0xBF, value * 64 + (b.toNat - 0x80)⟩
          (b' :: tail) := by
      simp only [Pending.valueWith, List.foldl_cons]
    rw [List.cons_append, decodeFrom, if_pos ⟨hlow, hhigh⟩, hvalue, ← hvalid]
    exact decodeFrom_completes rest hcompletes
  | ⟨_, n + 1, _, _, _⟩, [_], ⟨_, _, hlength, _⟩ => nomatch hlength
  | ⟨_, 0, _, _, _⟩, _ :: _ :: _, ⟨_, _, hlength, _⟩ => nomatch hlength

theorem exists_completes : ∀ {p : Pending} {valid : Nat} {bytes : List UInt8},
    decodeFrom valid done (some p) bytes = .ok text →
      ∃ tail rest, p.Completes tail ∧ bytes = tail ++ rest
  | p, valid, [], h => nomatch h
  | ⟨seen, following, low, high, value⟩, valid, b :: rest, h => by
    rw [decodeFrom] at h
    split at h
    · next hb =>
      rcases following with _ | n
      · exact ⟨[b], rest, ⟨hb.1, hb.2, rfl, by simp⟩, rfl⟩
      · obtain ⟨tail, rest', hcompletes, rfl⟩ := exists_completes h
        rcases tail with _ | ⟨b', tail⟩
        · exact hcompletes.elim
        · obtain ⟨hlow, hhigh, hlength, htail⟩ := hcompletes
          exact ⟨b :: b' :: tail, rest', ⟨hb.1, hb.2, congrArg (· + 1) hlength,
            List.forall_mem_cons.mpr ⟨⟨hlow, hhigh⟩, htail⟩⟩, rfl⟩
    · exact nomatch h

theorem decodeFrom_char (c : Char) (rest : List UInt8) :
    decodeFrom valid done none (String.utf8EncodeChar c ++ rest) =
      decodeFrom (valid + (String.utf8EncodeChar c).length) (c :: done) none rest := by
  by_cases hc : c.toNat < 0x80
  · have hb := toNat_ofNat_of_lt (n := c.toNat) (by omega)
    have hbytes := utf8EncodeChar_one (b := .ofNat c.toNat) (by omega)
    rw [hb, Char.ofNat_toNat] at hbytes
    rw [hbytes, List.cons_append, decodeFrom, if_pos (by omega), hb, Char.ofNat_toNat]
    rfl
  · obtain ⟨b, p, tail, hb, hlead, hcompletes, hvalue⟩ := exists_lead c.valid (Nat.le_of_not_lt hc)
    have hchar : Char.ofNat (p.valueWith tail) = c := by rw [hvalue]; exact Char.ofNat_toNat c
    have hbytes := (utf8EncodeChar_of_completes hlead hcompletes).2
    rw [hchar] at hbytes
    rw [hbytes, List.cons_append, decodeFrom, if_neg (by omega), hlead]
    simp only
    rw [decodeFrom_completes rest hcompletes, hchar, Pending.seen_of_ofLead? hlead,
      List.length_cons, Nat.add_assoc, Nat.add_comm 1]

theorem encode_cons (c : Char) (text : List Char) :
    encode (c :: text) = String.utf8EncodeChar c ++ encode text := by
  rw [encode, List.flatMap_cons, encode]

theorem ne_ofNat_of_lt {b : UInt8} {n : Nat} (hb : b.toNat < 0x80) (h : 0x80 ≤ n) (h' : n < 256) :
    b ≠ UInt8.ofNat n := by
  rintro rfl
  rw [toNat_ofNat_of_lt h'] at hb
  omega

theorem toNat_ofNat_of_toNat_lt {b : UInt8} (hb : b.toNat < 0x80) :
    (Char.ofNat b.toNat).toNat = b.toNat := by
  rw [Char.ofNat, dif_pos (.inl (by omega))]
  rfl

/-- The first 128 bytes stand for the first 128 characters and for nothing else. -/
theorem mem_utf8EncodeChar_iff {b : UInt8} (hb : b.toNat < 0x80) {c : Char} :
    b ∈ String.utf8EncodeChar c ↔ c = Char.ofNat b.toNat := by
  by_cases hc : c.toNat < 0x80
  · have hbytes := utf8EncodeChar_one (b := .ofNat c.toNat) (by
      rw [toNat_ofNat_of_lt (by omega)]
      exact hc)
    rw [toNat_ofNat_of_lt (by omega), Char.ofNat_toNat] at hbytes
    rw [hbytes, List.mem_singleton]
    constructor
    · rintro rfl
      rw [toNat_ofNat_of_lt (by omega), Char.ofNat_toNat]
    · intro h
      rw [h, toNat_ofNat_of_toNat_lt hb, UInt8.ofNat_toNat]
  · have hbytes := utf8EncodeChar_ofNat c.valid
    rw [show Char.ofNat c.val.toNat = c from Char.ofNat_toNat c] at hbytes
    have hne : c ≠ Char.ofNat b.toNat := by
      rintro rfl
      rw [toNat_ofNat_of_toNat_lt hb] at hc
      exact hc hb
    have hv : 0x80 ≤ c.val.toNat := Nat.le_of_not_lt hc
    rw [hbytes, if_neg (by omega), iff_false_right hne]
    split
    · simp only [List.mem_cons, List.not_mem_nil, or_false, not_or]
      exact ⟨ne_ofNat_of_lt hb (by omega) (by omega), ne_ofNat_of_lt hb (by omega) (by omega)⟩
    split
    · simp only [List.mem_cons, List.not_mem_nil, or_false, not_or]
      exact ⟨ne_ofNat_of_lt hb (by omega) (by omega), ne_ofNat_of_lt hb (by omega) (by omega),
        ne_ofNat_of_lt hb (by omega) (by omega)⟩
    · simp only [List.mem_cons, List.not_mem_nil, or_false, not_or]
      exact ⟨ne_ofNat_of_lt hb (by omega) (by omega), ne_ofNat_of_lt hb (by omega) (by omega),
        ne_ofNat_of_lt hb (by omega) (by omega), ne_ofNat_of_lt hb (by omega) (by omega)⟩

theorem mem_encode_iff {b : UInt8} (hb : b.toNat < 0x80) {text : List Char} :
    b ∈ encode text ↔ Char.ofNat b.toNat ∈ text := by
  simp only [encode, List.mem_flatMap, mem_utf8EncodeChar_iff hb, exists_eq_right]

theorem decodeFrom_encode (rest : List UInt8) : ∀ (text : List Char) (valid : Nat)
    (done : List Char), decodeFrom valid done none (encode text ++ rest) =
      decodeFrom (valid + (encode text).length) (text.reverse ++ done) none rest
  | [], _, _ => rfl
  | c :: text, valid, done => by
    rw [encode_cons, List.append_assoc, decodeFrom_char,
      decodeFrom_encode rest text, List.length_append, Nat.add_assoc, List.reverse_cons,
      List.append_assoc]
    rfl

/-- What is decoded is made up of the bytes of characters. -/
theorem exists_encode_of_decodeFrom : ∀ {valid : Nat} {done : List Char} {bytes : List UInt8},
    decodeFrom valid done none bytes = .ok text →
      ∃ rest, text = done.reverse ++ rest ∧ bytes = encode rest
  | _, _, [], h => ⟨[], by rw [List.append_nil]; exact (Except.ok.inj h).symm, rfl⟩
  | valid, done, b :: bytes, h => by
    rw [decodeFrom] at h
    split at h
    · next hb =>
      obtain ⟨rest, rfl, rfl⟩ := exists_encode_of_decodeFrom h
      refine ⟨Char.ofNat b.toNat :: rest, by simp, ?_⟩
      rw [encode_cons, utf8EncodeChar_one hb]
      rfl
    · split at h
      · exact nomatch h
      · next p hlead =>
        obtain ⟨tail, bytes', hcompletes, hbytes⟩ := exists_completes h
        rw [hbytes, decodeFrom_completes bytes' hcompletes] at h
        have hlt : bytes'.length ≤ bytes.length := by
          rw [hbytes, List.length_append]
          omega
        obtain ⟨rest, rfl, hrest⟩ := exists_encode_of_decodeFrom h
        refine ⟨Char.ofNat (p.valueWith tail) :: rest, by simp, ?_⟩
        rw [encode_cons, (utf8EncodeChar_of_completes hlead hcompletes).2, hbytes, hrest]
        rfl
termination_by _ _ bytes => bytes.length
decreasing_by
  · exact Nat.lt_succ_of_le hlt
  · exact Nat.lt_succ_self _

/-- Bytes are decoded to the text whose bytes they are, and only if there is one. -/
theorem decode_eq_ok_iff {bytes : List UInt8} : decode bytes = .ok text ↔ bytes = encode text := by
  constructor
  · intro h
    obtain ⟨rest, rfl, rfl⟩ := exists_encode_of_decodeFrom h
    rfl
  · rintro rfl
    have h := decodeFrom_encode [] text 0 []
    rw [List.append_nil] at h
    rw [decode, h, List.append_nil, decodeFrom, List.reverse_reverse]

end Decode

end PatternScan.Utf8
