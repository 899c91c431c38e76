import RowHistory.Proofs.Instant.Order
import Mathlib.Data.List.Chain

/-!
# Ticks increase

A clock ticks, and in between it is told of instants, in any order and of any precision. This file fixes

* how long it is from one instant to a later one (`Instant.nanosUntil`), which is a microsecond at least between
  whole microseconds (`Instant.le_nanosUntil`);
* the instants that lie behind a clock (`Clock.Behind`), which each call keeps (`Behind.tick`, `Behind.observe`)
  and the next tick is after (`Behind.lt_next`);
* the events of any calls of a clock (`Clock.events`), and that each tick is after all events before
  it, whatever the clock reads (`pairwise_events`);
* that a clock which always reads the same ticks in single steps (`ticks_increase`).

A step of a microsecond runs through a leap second only from inside it: from the last microsecond before it the step
goes to the next minute. So a tick in a leap second that the clock was told of is a microsecond and more after the
tick before, although that tick's own step would have led beyond it.
-/

namespace RowHistory

/-! ## 1. Distances -/

namespace Instant

variable {a b t u : Instant}

/-- The nanoseconds from an instant to a later one. Seconds are counted as they run, with the leap second that `a`
stands in. -/
def nanosUntil (a b : Instant) : Int :=
  (b.seconds - a.seconds) * 1000000000 + b.nanos - a.nanos +
    if a.seconds < b.seconds ∧ 1000000000 ≤ a.nanos then 1000000000 else 0

/-- **Whole microseconds are a microsecond apart**, also around a leap second. -/
theorem le_nanosUntil (ha : a.IsWhole) (hb : b.IsWhole) (h : a < b) : 1000 ≤ a.nanosUntil b := by
  have hlt := a.nanos_lt
  rw [lt_iff] at h
  unfold IsWhole at ha hb
  unfold nanosUntil
  split <;> omega

theorem truncate_le (t : Instant) : t.truncate ≤ t := by
  rw [le_iff]
  exact .inr ⟨rfl, Nat.sub_le _ _⟩

theorem le_later_left (a b : Instant) : a ≤ a.later b := by
  unfold later
  split
  · rename_i h
    exact le_of_lt h
  · exact le_refl a

/-- A step of a microsecond leads behind all instants that are truncated to its start or before it. -/
theorem lt_addMicro_of_truncate_le (ht : t.IsWhole) (h : u.truncate ≤ t) : u < t.addMicro := by
  unfold IsWhole at ht
  rw [le_iff] at h
  change u.seconds < t.seconds ∨ u.seconds = t.seconds ∧ u.nanos - u.nanos % 1000 ≤ t.nanos at h
  obtain hlt | ⟨heq, hle⟩ := h
  · exact lt_trans (lt_iff.mpr (.inl hlt)) t.lt_addMicro
  -- In one second a whole microsecond that is not before the truncated `u` ends after `u`.
  · rw [lt_iff]
    unfold addMicro
    split
    · show u.seconds < t.seconds ∨ u.seconds = t.seconds ∧ u.nanos < t.nanos + 1000
      omega
    · split
      · show u.seconds < t.seconds ∨ u.seconds = t.seconds ∧ u.nanos < t.nanos + 1000
        omega
      · exact .inl (by show u.seconds < t.seconds + 1; omega)

end Instant

/-! ## 2. Steps -/

namespace Clock

variable {c : Clock} {t u : Instant}

/-- The instant lies behind the clock: to the microsecond it is not after the last tick or the last instant that the
clock was told of. -/
def Behind (c : Clock) (u : Instant) : Prop :=
  ∃ last, c.last = some last ∧ u.truncate ≤ last

theorem Behind.tick (h : c.Behind u) : c.tick.2.Behind u := by
  obtain ⟨last, hlast, hle⟩ := h
  exact ⟨c.next, rfl, le_trans hle (le_of_lt (last_lt_next hlast))⟩

theorem Behind.observe (h : c.Behind u) (t : Instant) : (c.observe t).Behind u := by
  obtain ⟨last, hlast, hle⟩ := h
  refine ⟨last.later t.truncate, ?_, le_trans hle (last.le_later_left _)⟩
  simp only [Clock.observe, hlast]

theorem behind_tick (c : Clock) : c.tick.2.Behind c.next :=
  ⟨c.next, rfl, c.next.truncate_le⟩

theorem behind_observe (c : Clock) (t : Instant) : (c.observe t).Behind t := by
  cases hlast : c.last with
  | none => exact ⟨t.truncate, by simp only [Clock.observe, hlast], le_refl _⟩
  | some last =>
    exact ⟨last.later t.truncate, by simp only [Clock.observe, hlast], Instant.le_later_right _ _⟩

/-- **The next tick is after all that lies behind the clock**, with the digits below a microsecond. -/
theorem Behind.lt_next (hwhole : c.IsWhole) (h : c.Behind u) : u < c.next := by
  obtain ⟨last, hlast, hle⟩ := h
  have hstep := Instant.lt_addMicro_of_truncate_le (hwhole.2 last hlast) hle
  unfold next
  rw [hlast]
  exact lt_of_lt_of_le hstep (Instant.le_later_right _ _)

theorem reading_le_next (c : Clock) : c.source.reading ≤ c.next := by
  unfold next
  split
  · exact Instant.le_later_left _ _
  · exact le_refl _

theorem tick_fst (c : Clock) : c.tick.1 = c.next :=
  rfl

theorem source_tick {origin : Instant} (h : c.source = .manual origin) :
    c.tick.2.source = .manual origin := by
  show c.source.rest = _
  rw [h]
  rfl

/-- Two ticks in a row are a step apart, if the clock always reads the same. -/
theorem next_tick {origin : Instant} (h : c.source = .manual origin) :
    c.tick.2.next = c.next.addMicro := by
  have hreading : c.tick.2.source.reading = c.source.reading := by rw [source_tick h, h]
  have hlt : c.source.reading < c.next.addMicro :=
    lt_of_le_of_lt c.reading_le_next c.next.lt_addMicro
  show c.tick.2.source.reading.later c.next.addMicro = _
  unfold Instant.later
  rw [hreading, if_pos hlt]

/-! ## 3. Runs -/

/-- A call of a clock. -/
inductive Call where
  | tick
  | observe (t : Instant)

/-- What happened at a call: the clock gave a tick, or it was told of an instant. -/
inductive Event where
  | ticked (t : Instant)
  | told (t : Instant)
deriving DecidableEq

/-- The instant of an event. -/
def Event.instant : Event → Instant
  | .ticked t => t
  | .told t => t

/-- What happens at a sequence of calls. -/
def events (c : Clock) : List Call → List Event
  | [] => []
  | .tick :: calls => .ticked c.tick.1 :: c.tick.2.events calls
  | .observe t :: calls => .told t :: (c.observe t).events calls

/-- Ticks are whole, and after all that lies behind the clock. -/
theorem ticked_spec (hwhole : c.IsWhole) (calls : List Call) (h : .ticked t ∈ c.events calls) :
    t.IsWhole ∧ ∀ u, c.Behind u → u < t := by
  induction calls generalizing c with
  | nil => cases h
  | cons call calls ih =>
    cases call with
    | tick =>
      obtain heq | hmem := List.mem_cons.mp h
      · cases heq
        exact ⟨hwhole.next, fun u hu => hu.lt_next hwhole⟩
      · obtain ⟨ht, hbehind⟩ := ih hwhole.tick hmem
        exact ⟨ht, fun u hu => hbehind u hu.tick⟩
    | observe s =>
      obtain heq | hmem := List.mem_cons.mp h
      · cases heq
      · obtain ⟨ht, hbehind⟩ := ih (hwhole.observe s) hmem
        exact ⟨ht, fun u hu => hbehind u (hu.observe s)⟩

/-- No tick is before what the clock always reads. -/
theorem origin_le_ticked {origin : Instant} (hsource : c.source = .manual origin) (calls : List Call)
    (h : .ticked t ∈ c.events calls) : origin ≤ t := by
  induction calls generalizing c with
  | nil => cases h
  | cons call calls ih =>
    cases call with
    | tick =>
      obtain heq | hmem := List.mem_cons.mp h
      · cases heq
        have hle := c.reading_le_next
        rw [hsource] at hle
        exact hle
      · exact ih (source_tick hsource) hmem
    | observe s =>
      obtain heq | hmem := List.mem_cons.mp h
      · cases heq
      · exact ih (c := c.observe s) hsource hmem

/-- A tick is after an event, and by a microsecond at least if the event is a tick as well. -/
def Event.Before (earlier later : Event) : Prop :=
  ∀ t, later = .ticked t → earlier.instant < t ∧ ∀ s, earlier = .ticked s → 1000 ≤ s.nanosUntil t

/-- Of two ticks the second is one step of a microsecond after the first. -/
def Event.StepsTo (earlier later : Event) : Prop :=
  ∀ s t, earlier = .ticked s → later = .ticked t → t = s.addMicro

/-- **Each tick is after everything before it**, whatever the clock reads. -/
theorem pairwise_events (hwhole : c.IsWhole) (calls : List Call) :
    (c.events calls).Pairwise Event.Before := by
  induction calls generalizing c with
  | nil => exact .nil
  | cons call calls ih =>
    cases call with
    | tick =>
      refine .cons ?_ (ih hwhole.tick)
      rintro later hlater t rfl
      obtain ⟨ht, hbehind⟩ := ticked_spec hwhole.tick calls hlater
      have hlt := hbehind _ c.behind_tick
      refine ⟨hlt, ?_⟩
      rintro s ⟨⟩
      exact Instant.le_nanosUntil hwhole.next ht hlt
    | observe u =>
      refine .cons ?_ (ih (hwhole.observe u))
      rintro later hlater t rfl
      obtain ⟨-, hbehind⟩ := ticked_spec (hwhole.observe u) calls hlater
      exact ⟨hbehind _ (c.behind_observe u), fun s hs => nomatch hs⟩

theorem isChain_events {origin : Instant} (hsource : c.source = .manual origin) (calls : List Call) :
    (c.events calls).IsChain Event.StepsTo := by
  induction calls generalizing c with
  | nil => exact .nil
  | cons call calls ih =>
    cases call with
    | observe u => exact .cons (ih (c := c.observe u) hsource) fun later _ s t hs => nomatch hs
    | tick =>
      refine .cons (ih (source_tick hsource)) ?_
      rintro later hlater s t ⟨⟩ rfl
      cases calls with
      | nil => cases hlater
      | cons next calls =>
        cases next with
        | observe u => cases hlater
        | tick =>
          rw [events, List.head?_cons, Option.mem_some] at hlater
          rw [← Event.ticked.inj hlater, tick_fst, next_tick hsource, tick_fst]

/-- **The ticks of a clock that was set by hand.** Whatever the calls: its ticks are whole microseconds,
and none is before the truncated origin. Each is after all ticks before it, by a microsecond at least,
and after all instants that the clock was told of before it, as they were told. Ticks in a row are single
steps. -/
theorem ticks_increase (origin : Instant) (calls : List Call) :
    (∀ t, .ticked t ∈ (startingAt origin).events calls → t.IsWhole ∧ origin.truncate ≤ t) ∧
    ((startingAt origin).events calls).Pairwise Event.Before ∧
    ((startingAt origin).events calls).IsChain Event.StepsTo := by
  have hwhole := isWhole_startingAt origin
  exact ⟨fun t ht => ⟨(ticked_spec hwhole calls ht).1, origin_le_ticked rfl calls ht⟩,
    pairwise_events hwhole calls, isChain_events rfl calls⟩

/-- A clock that is told of a leap second runs through it to the next minute. -/
example : (startingAt ⟨59, 999999000, by decide, by decide⟩).events
    [.tick, .observe ⟨59, 1999998500, by decide, by decide⟩, .tick, .tick] =
      [.ticked ⟨59, 999999000, by decide, by decide⟩, .told ⟨59, 1999998500, by decide, by decide⟩,
        .ticked ⟨59, 1999999000, by decide, by decide⟩, .ticked ⟨60, 0, by decide, by decide⟩] := by
  decide +kernel

end Clock

end RowHistory
