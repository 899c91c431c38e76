import RowHistory.Text.Numeral
import RowHistory.Instant.Basic

/-!
# Instants as text

Three written forms that share the date and the time of day:

* `storageText` has a blank between them and always six fraction digits, so that in the years 0
  to 9999 the order of the texts is the order of the instants;
* `isoText` has a `T` between them, as many fraction digits as are needed in groups of three, and
  a `Z`;
* `displayText` has a blank and ends in `UTC`.

A year outside 0 to 9999 has a sign.
-/

namespace RowHistory.Instant

open Text

/-- At least four digits, with a sign outside the years 0 to 9999. -/
def yearChars (year : Int) : List Char :=
  if 0 ≤ year ∧ year ≤ 9999 then padded 4 year.natAbs
  else (if year < 0 then '-' else '+') :: padded 4 year.natAbs

/-- Year, month and day. -/
def dateChars (d : Date) : List Char :=
  yearChars d.year ++ '-' :: padded 2 d.month ++ '-' :: padded 2 d.day

/-- Hour, minute and second. -/
def timeChars (t : Instant) : List Char :=
  padded 2 (t.secondOfDay / 3600) ++ ':' :: padded 2 (t.secondOfDay / 60 % 60) ++
    ':' :: padded 2 t.displaySecond

/-- No fraction, or three, six or nine digits of it, whatever is exact. -/
def fractionChars (nanos : Nat) : List Char :=
  if nanos = 0 then []
  else if nanos % 1000000 = 0 then '.' :: padded 3 (nanos / 1000000)
  else if nanos % 1000 = 0 then '.' :: padded 6 (nanos / 1000)
  else '.' :: padded 9 nanos

/-- The form in which instants are stored. -/
def storageChars (t : Instant) : List Char :=
  dateChars t.date ++ ' ' :: timeChars t ++ '.' :: padded 6 (t.subsecond / 1000)

@[inherit_doc storageChars] def storageText (t : Instant) : String :=
  String.ofList t.storageChars

/-- The form in which instants stand in configuration. -/
def isoText (t : Instant) : String :=
  String.ofList (dateChars t.date ++ 'T' :: timeChars t ++ fractionChars t.subsecond ++ ['Z'])

/-- The form in which instants stand in messages. -/
def displayText (t : Instant) : String :=
  String.ofList (dateChars t.date ++ ' ' :: timeChars t ++ fractionChars t.subsecond) ++ " UTC"

end RowHistory.Instant
