import RowHistory.Instant.Basic

/-!
# The session clock

Every tick is at least a microsecond after the one before, so that no two rows of a session share
an instant. At each tick the clock reads the time, from the system or as it was set by hand; a
reading that is not after the last tick is passed over. Between two ticks the clock may be told of
an instant, after which all later ticks lie.
-/

namespace RowHistory

/-- Where a clock reads the time. -/
inductive Clock.Source where
  /-- The system, by what it will give at each tick to come. Nothing is known of these readings: they
  may be any time apart, stand still or go back. -/
  | system (readings : Nat → Instant)
  /-- One instant, whenever it is read. -/
  | manual (origin : Instant)

/-- A clock that ticks in microseconds. -/
structure Clock where
  source : Clock.Source
  /-- The last tick, or the last instant it was told of. -/
  last : Option Instant := none

namespace Clock

/-- What is read at the next tick. -/
def Source.reading : Source → Instant
  | .system readings => (readings 0).truncate
  | .manual origin => origin

/-- The source after a reading. -/
def Source.rest : Source → Source
  | .system readings => .system fun i => readings (i + 1)
  | .manual origin => .manual origin

/-- A clock that follows the system. -/
def system (readings : Nat → Instant) : Clock :=
  { source := .system readings }

/-- A clock whose first tick is a given instant. -/
def startingAt (origin : Instant) : Clock :=
  { source := .manual origin.truncate }

/-- The clock of a system that gives a time from now on. -/
def reads (c : Clock) (time : Instant) : Clock :=
  { c with source := .system fun _ => time }

/-- The next tick. -/
def next (c : Clock) : Instant :=
  match c.last with
  | some last => c.source.reading.later last.addMicro
  | none => c.source.reading

/-- The next tick, and the clock after it. -/
def tick (c : Clock) : Instant × Clock :=
  (c.next, { source := c.source.rest, last := some c.next })

/-- Makes all later ticks come after an instant. -/
def observe (c : Clock) (t : Instant) : Clock :=
  { c with last := some (match c.last with
    | some last => last.later t.truncate
    | none => t.truncate) }

end Clock

end RowHistory
