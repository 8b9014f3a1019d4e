import PatternScan.Text.CharSet
import PatternScan.Text.Lines

/-!
# Quoted characters

A character in single quotes, in a form that stays visible and on one line whatever the character
is: a few have a letter of their own after a backslash, what has no printed form or would be drawn
onto the quote is written by its number, and the rest stand for themselves. The form says where it
ends, so that it can be read back whatever comes after it.
-/

namespace PatternScan.Quoted

/-- A character by its number, in lower-case hexadecimal. -/
def byNumber (c : Char) : List Char :=
  "\\u\x7b".toList ++ Nat.toDigits 16 c.toNat ++ ['}']

/-- A character inside quotes of either kind. -/
def escape (c : Char) : List Char :=
  if c = '\x00' then ['\\', '0']
  else if c = '\t' then ['\\', 't']
  else if c = '\r' then ['\\', 'r']
  else if c = '\n' then ['\\', 'n']
  else if c = '\'' ∨ c = '"' ∨ c = '\\' then ['\\', c]
  else if CharSet.graphemeExtend.has c ∨ CharSet.unprintable.has c then byNumber c
  else [c]

/-- A character inside single quotes, where a double quote needs no backslash. -/
def escapeSingle (c : Char) : List Char :=
  if c = '"' then ['"'] else escape c

/-- A quoted character as tables and traces show it. -/
def shown (c : Char) : List Char :=
  '\'' :: escape c ++ ['\'']

/-- A quoted character as expressions show it. -/
def literal (c : Char) : List Char :=
  '\'' :: escapeSingle c ++ ['\'']

/-- The value of a digit, in lower-case hexadecimal. -/
def digitValue (c : Char) : Nat :=
  if c.isDigit then c.toNat - '0'.toNat else c.toNat - 'a'.toNat + 10

/-- The number that hexadecimal digits stand for. -/
def ofDigits (digits : List Char) : Nat :=
  digits.foldl (fun n c => n * 16 + digitValue c) 0

/-- The character at the beginning of a text that escapes it, and what comes after it. -/
def unescape? : List Char → Option (Char × List Char)
  | '\\' :: '0' :: rest => some ('\x00', rest)
  | '\\' :: 't' :: rest => some ('\t', rest)
  | '\\' :: 'r' :: rest => some ('\r', rest)
  | '\\' :: 'n' :: rest => some ('\n', rest)
  | '\\' :: 'u' :: '\x7b' :: rest =>
    (cutAtFirst? '}' rest).map fun (digits, rest) => (Char.ofNat (ofDigits digits), rest)
  | '\\' :: c :: rest => some (c, rest)
  | c :: rest => some (c, rest)
  | [] => none

end PatternScan.Quoted
