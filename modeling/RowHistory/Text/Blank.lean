/-!
# Blank characters

White space in the sense of the Unicode property `White_Space`: twenty-five characters, of which
core's `Char.isWhitespace` knows the four of ASCII. This file fixes

* which characters are blank (`isBlank`);
* how a text is trimmed at both ends (`trim` on characters, `trimmed` on strings);
* when a text is nothing but blanks (`allBlank`).
-/

namespace RowHistory.Text

/-- The ranges of the property, in order. -/
def blankRanges : List (Nat × Nat) :=
  [(0x09, 0x0D), (0x20, 0x20), (0x85, 0x85), (0xA0, 0xA0), (0x1680, 0x1680), (0x2000, 0x200A),
   (0x2028, 0x2029), (0x202F, 0x202F), (0x205F, 0x205F), (0x3000, 0x3000)]

/-- A character with the property `White_Space`. -/
def isBlank (c : Char) : Bool :=
  blankRanges.any fun (lo, hi) => lo ≤ c.toNat && c.toNat ≤ hi

/-- The characters without the blanks that lead them. -/
def trimStart (cs : List Char) : List Char :=
  cs.dropWhile isBlank

/-- The characters without the blanks that end them. -/
def trimEnd (cs : List Char) : List Char :=
  (cs.reverse.dropWhile isBlank).reverse

/-- The characters without the blanks at either end. -/
def trim (cs : List Char) : List Char :=
  trimEnd (trimStart cs)

/-- The text without the blanks at either end. -/
def trimmed (s : String) : String :=
  String.ofList (trim s.toList)

/-- The text holds no character that is not blank. -/
def allBlank (s : String) : Bool :=
  s.toList.all isBlank

end RowHistory.Text
