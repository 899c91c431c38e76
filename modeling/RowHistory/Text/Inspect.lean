import RowHistory.Text.Unprintable

/-!
# Quoted texts for a reader's eye

A text in double quotes in which nothing is invisible: quotes, backslashes and the common controls
are escaped by a letter, and every other unprintable character by its number.
-/

namespace RowHistory.Text

/-- A character inside the quotes. -/
def inspectChar (c : Char) : List Char :=
  if c = '"' ∨ c = '\\' then ['\\', c]
  else if c = '\n' then ['\\', 'n']
  else if c = '\r' then ['\\', 'r']
  else if c = '\t' then ['\\', 't']
  else if c = '\x00' then ['\\', '0']
  else if isUnprintable c then ['\\', 'u', '{'] ++ Nat.toDigits 16 c.toNat ++ ['}']
  else [c]

/-- The text in quotes. -/
def inspect (s : String) : String :=
  String.ofList ('"' :: s.toList.flatMap inspectChar ++ ['"'])

end RowHistory.Text
