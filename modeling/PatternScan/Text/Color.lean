/-!
# Colors on a terminal

Parts of a text are colored by the codes around them. Without color nothing is put around them, and
nothing is left of the color when the codes are deleted.
-/

namespace PatternScan

/-- The colors in use; `plain` starts no color, but is closed as one is. -/
inductive Color
  | blue
  | green
  | dim
  | plain
  deriving DecidableEq, Repr

namespace Color

/-- The code that starts a color. -/
def code : Color → List Char
  | .blue => "\x1b[34m".toList
  | .green => "\x1b[32m".toList
  | .dim => "\x1b[2m".toList
  | .plain => []

/-- The code that ends every color. -/
def reset : List Char :=
  "\x1b[0m".toList

/-- A text in a color, if there is color at all. -/
def paint (colored : Bool) (color : Color) (text : List Char) : List Char :=
  if colored then color.code ++ text ++ reset else text

/-- The codes that start a color, and the one that ends it. -/
def codes : List (List Char) :=
  [blue.code, green.code, dim.code, reset]

end Color

end PatternScan
