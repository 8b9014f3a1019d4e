import PatternScan.Text.CharSet

/-!
# Width on a terminal

How a character of a source line is shown, and the columns it takes. Tabs are shown as spaces, and
controls, which would act on the terminal instead of being seen, by a picture.
-/

namespace PatternScan.Width

/-- The columns of a tab. -/
def tabWidth : Nat := 4

/-- Whether a character changes the direction of the text after it. -/
def isDirectional (c : Char) : Bool :=
  (0x202A ≤ c.toNat && c.toNat ≤ 0x202E) || (0x2066 ≤ c.toNat && c.toNat ≤ 0x2069)

/-- What is shown for a character. -/
def shown (c : Char) : List Char :=
  if c = '\t' then List.replicate tabWidth ' '
  else if c.toNat < 0x20 then [Char.ofNat (0x2400 + c.toNat)]
  else if c = '\x7f' then ['\u2421']
  else if c = '\u200d' then []
  else if isDirectional c then ['\ufffd']
  else [c]

/-- The columns that a character takes. Two Khmer characters are wider than their kind. -/
def columns (c : Char) : Nat :=
  if c = '\t' then tabWidth
  else if c.toNat < 0x20 ∨ c = '\x7f' ∨ isDirectional c then 1
  else if c = '\u17a4' then 2
  else if c = '\u17d8' then 3
  else if CharSet.zeroWidth.has c then 0
  else if CharSet.wide.has c then 2
  else 1

/-- The columns that a text takes. -/
def ofText : List Char → Nat
  | [] => 0
  | c :: rest => columns c + ofText rest

/-- The text left when characters that take so many columns are dropped. -/
def dropColumns : Nat → List Char → List Char
  | 0, text => text
  | _, [] => []
  | n, c :: rest => dropColumns (n - columns c) rest

end PatternScan.Width
