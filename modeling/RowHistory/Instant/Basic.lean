import RowHistory.Instant.Calendar

/-!
# Instants

An instant is a count of seconds since 1970-01-01 00:00:00 UTC with nanoseconds. A leap second is
the second after the last one of a minute: it keeps the count of the second before it, and its
nanoseconds start at `10 ^ 9`. So instants are ordered by their seconds and then by their
nanoseconds. This file fixes

* the type and its order (`Instant`, `Instant.le`);
* precision and steps of one microsecond (`truncate`, `addMicro`);
* the date and the time of day (`date`, `secondOfDay`), and instants made from them
  (`ofCivil?`);
* which instants lie in the years that are kept (`InRange`), and the instant a number of months
  later (`addMonths?`).
-/

namespace RowHistory

/-- A point of time in UTC. It is assumed that there is no second 60 but at the end of a minute: a
text or a stored value that has one elsewhere is no instant here. -/
structure Instant where
  seconds : Int
  nanos : Nat
  nanos_lt : nanos < 2000000000
  leap_ends_minute : 1000000000 ≤ nanos → seconds % 60 = 59
deriving DecidableEq

namespace Instant

/-- The instant with given seconds and nanoseconds, if there is one. -/
def ofUnix? (seconds : Int) (nanos : Nat) : Option Instant :=
  if h : nanos < 2000000000 ∧ (1000000000 ≤ nanos → seconds % 60 = 59) then
    some ⟨seconds, nanos, h.1, h.2⟩
  else none

/-- The first instant of a second. -/
def ofSeconds (seconds : Int) : Instant :=
  ⟨seconds, 0, by decide, by simp⟩

/-- Order by seconds, then by nanoseconds. -/
def lt (a b : Instant) : Prop :=
  a.seconds < b.seconds ∨ (a.seconds = b.seconds ∧ a.nanos < b.nanos)

instance : LT Instant := ⟨lt⟩

instance (a b : Instant) : Decidable (a < b) :=
  inferInstanceAs (Decidable (_ ∨ _))

/-- Not later. -/
def le (a b : Instant) : Prop :=
  ¬ b < a

instance : LE Instant := ⟨le⟩

instance (a b : Instant) : Decidable (a ≤ b) :=
  inferInstanceAs (Decidable (¬ _))

/-- The later of two instants. -/
def later (a b : Instant) : Instant :=
  if a < b then b else a

/-- The instant without the digits below a microsecond. -/
def truncate (t : Instant) : Instant :=
  ⟨t.seconds, t.nanos - t.nanos % 1000, by have := t.nanos_lt; omega,
    fun h => t.leap_ends_minute (by omega)⟩

/-- One microsecond later. A leap second is run through before the next second starts. -/
def addMicro (t : Instant) : Instant :=
  if h : t.nanos + 1000 < 1000000000 then
    ⟨t.seconds, t.nanos + 1000, by omega, fun hl => by omega⟩
  else if hl : 1000000000 ≤ t.nanos ∧ t.nanos + 1000 < 2000000000 then
    ⟨t.seconds, t.nanos + 1000, by omega, fun _ => t.leap_ends_minute hl.1⟩
  else
    ⟨t.seconds + 1, (t.nanos + 1000) % 1000000000, by omega, fun h => by omega⟩

/-- The date. -/
def date (t : Instant) : Date :=
  Date.ofDayNumber (t.seconds / 86400)

/-- The second of the day, the leap second being the one before it. -/
def secondOfDay (t : Instant) : Nat :=
  (t.seconds % 86400).toNat

/-- The second as it is written, 60 for a leap second. -/
def displaySecond (t : Instant) : Nat :=
  t.secondOfDay % 60 + t.nanos / 1000000000

/-- The nanoseconds within the second that is written. -/
def subsecond (t : Instant) : Nat :=
  t.nanos % 1000000000

/-- The first second of the years that are kept, and the first one after them. -/
def secondsMin : Int :=
  (Date.mk Date.yearMin 1 1).dayNumber * 86400

@[inherit_doc secondsMin] def secondsEnd : Int :=
  (Date.mk (Date.yearMax + 1) 1 1).dayNumber * 86400

/-- The instant lies in the years that are kept. -/
def InRange (t : Instant) : Prop :=
  secondsMin ≤ t.seconds ∧ t.seconds < secondsEnd

instance (t : Instant) : Decidable t.InRange :=
  inferInstanceAs (Decidable (_ ∧ _))

/-- A time of day as it is written: the second 60 is the leap second of its minute. -/
structure Clockface where
  hour : Nat
  minute : Nat
  second : Nat
  nanos : Nat
deriving DecidableEq, Repr

/-- The hour, minute and second exist, and the nanoseconds are below a second. -/
def Clockface.Exists (c : Clockface) : Prop :=
  c.hour ≤ 23 ∧ c.minute ≤ 59 ∧ c.second ≤ 60 ∧ c.nanos < 1000000000

instance (c : Clockface) : Decidable c.Exists :=
  inferInstanceAs (Decidable (_ ∧ _ ∧ _ ∧ _))

/-- The instant at which a clock that is `offset` minutes ahead of UTC shows a date and a time,
if both exist and the instant is in range. -/
def ofCivil? (d : Date) (c : Clockface) (offset : Int) : Option Instant :=
  if d.Exists ∧ Date.yearMin ≤ d.year ∧ d.year ≤ Date.yearMax ∧ c.Exists then
    let seconds := d.dayNumber * 86400 + (c.hour * 3600 + c.minute * 60 + min c.second 59 : Nat)
      - offset * 60
    let nanos := if c.second = 60 then c.nanos + 1000000000 else c.nanos
    (ofUnix? seconds nanos).filter fun t => t.InRange
  else none

/-- The same time of day a number of months later, on the month's last day at the latest. -/
def addMonths? (t : Instant) (months : Nat) : Option Instant :=
  let d := t.date.addMonths months
  if d.year ≤ Date.yearMax then
    ofUnix? (d.dayNumber * 86400 + t.secondOfDay) t.nanos
  else none

end Instant

end RowHistory
