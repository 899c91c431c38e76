/-!
# The calendar

Dates of the proleptic Gregorian calendar and their day numbers, day zero being 1970-01-01. A
cycle of 400 years has 146097 days; counted from the first of March, a leap day is the last day
of its year, of its group of four years and of its cycle, so that the parts of a day number are
quotients, cut off where the last part is one longer. This file fixes

* the day number of a date (`Date.dayNumber`);
* the date of a day number (`Date.ofDayNumber`);
* which dates exist (`Date.Exists`) and the years that are kept (`yearMin`, `yearMax`).
-/

namespace RowHistory

/-- A year, a month from one and a day from one. -/
structure Date where
  year : Int
  month : Nat
  day : Nat
deriving DecidableEq, Repr

namespace Date

/-- A year with a 29th of February. -/
def isLeap (year : Int) : Bool :=
  year % 4 = 0 && (year % 100 ≠ 0 || year % 400 = 0)

/-- The number of days in a month. -/
def monthLength (year : Int) (month : Nat) : Nat :=
  if month = 2 then (if isLeap year then 29 else 28)
  else if month = 4 ∨ month = 6 ∨ month = 9 ∨ month = 11 then 30
  else 31

/-- The first and the last year that a time may lie in. -/
def yearMin : Int := -262143

@[inherit_doc yearMin] def yearMax : Int := 262142

/-- The date is one of the calendar. -/
def Exists (d : Date) : Prop :=
  1 ≤ d.month ∧ d.month ≤ 12 ∧ 1 ≤ d.day ∧ d.day ≤ monthLength d.year d.month

instance (d : Date) : Decidable d.Exists :=
  inferInstanceAs (Decidable (_ ∧ _ ∧ _ ∧ _))

/-- Days from the first of March of the year zero to day zero. -/
def epochShift : Int := 719468

/-- The number of days from 1970-01-01 to the date. -/
def dayNumber (d : Date) : Int :=
  let year := if d.month ≤ 2 then d.year - 1 else d.year
  let ofCycle := year % 400
  let month := (d.month + 9) % 12
  let ofYear := (153 * month + 2) / 5 + d.day - 1
  year / 400 * 146097 + (ofCycle * 365 + ofCycle / 4 - ofCycle / 100) + ofYear - epochShift

/-- The date a number of days after 1970-01-01. -/
def ofDayNumber (n : Int) : Date :=
  let shifted := n + epochShift
  let ofCycle := (shifted % 146097).toNat
  let century := min (ofCycle / 36524) 3
  let ofCentury := ofCycle - century * 36524
  let group := ofCentury / 1461
  let ofGroup := ofCentury % 1461
  let yearOfGroup := min (ofGroup / 365) 3
  let ofYear := ofGroup - yearOfGroup * 365
  let marchMonth := (5 * ofYear + 2) / 153
  let month := if marchMonth < 10 then marchMonth + 3 else marchMonth - 9
  let year := shifted / 146097 * 400 + (century * 100 + group * 4 + yearOfGroup : Nat)
  { year := if month ≤ 2 then year + 1 else year
    month := month
    day := ofYear - (153 * marchMonth + 2) / 5 + 1 }

/-- The same day of the month a number of months later, or the month's last day. -/
def addMonths (d : Date) (months : Nat) : Date :=
  let total := d.year * 12 + (d.month - 1 : Nat) + months
  let year := total / 12
  let month := (total % 12).toNat + 1
  ⟨year, month, min d.day (monthLength year month)⟩

end Date

end RowHistory
