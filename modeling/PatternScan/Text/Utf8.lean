/-!
# Text as bytes

Text is a list of characters; on a wire it is its UTF-8 bytes. `Utf8.decode` reads bytes back, and
says of bytes that are not UTF-8 how long their valid beginning is and how they fail after it.
-/

namespace PatternScan.Utf8

def encode (text : List Char) : List UInt8 :=
  text.flatMap String.utf8EncodeChar

/-- The number of bytes of a text. -/
def byteLength : List Char → Nat
  | [] => 0
  | c :: rest => c.utf8Size + byteLength rest

/-- The characters of a text that lie within its first so many bytes. -/
def take : Nat → List Char → List Char
  | _, [] => []
  | n, c :: rest => if c.utf8Size ≤ n then c :: take (n - c.utf8Size) rest else []

/-- Whether the first so many bytes of a text, or all if it has fewer, are whole characters. -/
def isBoundary (text : List Char) (offset : Nat) : Bool :=
  byteLength (take offset text) = min offset (byteLength text)

@[simp] theorem byteLength_append (text more : List Char) :
    byteLength (text ++ more) = byteLength text + byteLength more := by
  induction text with
  | nil => simp [byteLength]
  | cons c rest ih => simp [byteLength, ih, Nat.add_assoc]

theorem byteLength_eq_zero {text : List Char} (h : byteLength text = 0) : text = [] := by
  rcases text with _ | ⟨c, rest⟩
  · rfl
  · have hpos := c.utf8Size_pos
    simp only [byteLength] at h
    omega

/-- No character after the first so many bytes lies within them, since it has a byte. -/
@[simp] theorem take_byteLength_append (text more : List Char) :
    take (byteLength text) (text ++ more) = text := by
  induction text with
  | nil =>
    rcases more with _ | ⟨c, more⟩
    · rfl
    · have hpos := c.utf8Size_pos
      simp only [byteLength, List.nil_append, take]
      rw [if_neg (by omega)]
  | cons c rest ih =>
    simp only [byteLength, List.cons_append, take]
    rw [if_pos (by omega), Nat.add_sub_cancel_left, ih]

theorem isBoundary_append (text more : List Char) :
    isBoundary (text ++ more) (byteLength text) = true := by
  simp [isBoundary]

/-- The characters of a text with the bytes at which they begin, the first at byte `offset`. -/
def charsAt (offset : Nat) : List Char → List (Nat × Char)
  | [] => []
  | c :: rest => (offset, c) :: charsAt (offset + c.utf8Size) rest

/-- The byte at which the character of an index begins; there is none past the last character, which
means the end of the text. -/
def byteOffset (text : List Char) (index : Nat) : Nat :=
  ((charsAt 0 text)[index]?.map Prod.fst).getD (byteLength text)

theorem fst_charsAt (offset : Nat) (text : List Char) (index : Nat) :
    ((charsAt offset text)[index]?.map Prod.fst).getD (offset + byteLength text) =
      offset + byteLength (text.take index) := by
  induction text generalizing offset index with
  | nil => simp [charsAt, byteLength]
  | cons c rest ih =>
    rcases index with _ | index
    · simp [charsAt, byteLength]
    · simpa [charsAt, byteLength, Nat.add_assoc] using ih (offset + c.utf8Size) index

/-- An index comes after the bytes of the characters before it. -/
theorem byteOffset_eq (text : List Char) (index : Nat) :
    byteOffset text index = byteLength (text.take index) := by
  simpa [byteOffset] using fst_charsAt 0 text index

/-- How bytes fail to begin with a character: either so many of them can begin no character, or
they end inside one. -/
inductive Fault
  | invalid (length : Nat)
  | incomplete
  deriving DecidableEq, Repr

/-- The length of the longest beginning that is UTF-8, and the fault of what follows. -/
structure DecodeError where
  validLength : Nat
  fault : Fault
  deriving DecidableEq, Repr

def DecodeError.message (e : DecodeError) : List Char :=
  match e.fault with
  | .invalid length =>
    "invalid utf-8 sequence of ".toList ++ length.repr.toList ++ " bytes from index ".toList ++
      e.validLength.repr.toList
  | .incomplete =>
    "incomplete utf-8 byte sequence from index ".toList ++ e.validLength.repr.toList

/-- A character some bytes of which are read: how many those are, how many come after the next
one, the range the next one lies in, and the value of the bits read. -/
structure Pending where
  seen : Nat
  following : Nat
  low : Nat
  high : Nat
  value : Nat

/-- What a byte that begins a character of several bytes says of the rest of it. The narrower
ranges of the second byte keep out overlong forms, surrogates and values past `10FFFF`. -/
def Pending.ofLead? (byte : Nat) : Option Pending :=
  if 0xC2 ≤ byte ∧ byte ≤ 0xDF then some ⟨1, 0, 0x80, 0xBF, byte - 0xC0⟩
  else if byte = 0xE0 then some ⟨1, 1, 0xA0, 0xBF, 0⟩
  else if byte = 0xED then some ⟨1, 1, 0x80, 0x9F, 0xD⟩
  else if 0xE1 ≤ byte ∧ byte ≤ 0xEF then some ⟨1, 1, 0x80, 0xBF, byte - 0xE0⟩
  else if byte = 0xF0 then some ⟨1, 2, 0x90, 0xBF, 0⟩
  else if 0xF1 ≤ byte ∧ byte ≤ 0xF3 then some ⟨1, 2, 0x80, 0xBF, byte - 0xF0⟩
  else if byte = 0xF4 then some ⟨1, 2, 0x80, 0x8F, 4⟩
  else none

/-- Decodes byte by byte: `valid` bytes make up the characters `done`, latest first, and after
them come the bytes of a pending character, if any. -/
def decodeFrom (valid : Nat) (done : List Char) :
    Option Pending → List UInt8 → Except DecodeError (List Char)
  | none, [] => .ok done.reverse
  | some _, [] => .error ⟨valid, .incomplete⟩
  | none, byte :: rest =>
    if byte.toNat < 0x80 then
      decodeFrom (valid + 1) (Char.ofNat byte.toNat :: done) none rest
    else
      match Pending.ofLead? byte.toNat with
      | none => .error ⟨valid, .invalid 1⟩
      | some p => decodeFrom valid done (some p) rest
  | some p, byte :: rest =>
    if p.low ≤ byte.toNat ∧ byte.toNat ≤ p.high then
      let value := p.value * 64 + (byte.toNat - 0x80)
      match p.following with
      | 0 => decodeFrom (valid + p.seen + 1) (Char.ofNat value :: done) none rest
      | n + 1 => decodeFrom valid done (some ⟨p.seen + 1, n, 0x80, 0xBF, value⟩) rest
    else
      .error ⟨valid, .invalid p.seen⟩

/-- The text that some bytes are the UTF-8 form of. -/
def decode (bytes : List UInt8) : Except DecodeError (List Char) :=
  decodeFrom 0 [] none bytes

end PatternScan.Utf8
