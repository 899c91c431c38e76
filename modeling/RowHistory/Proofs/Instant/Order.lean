import RowHistory.Clock
import Mathlib.Order.Defs.LinearOrder

/-!
# The order of instants

Instants are ordered by their seconds and then by their nanoseconds. This file fixes

* the linear order, and that dates grow with it (`Date.ofDayNumber_lt`);
* instants of whole microseconds (`Instant.IsWhole`), which truncation gives and a step of a
  microsecond keeps;
* that a clock ticks in such instants, each tick after all before it (`Clock.next_lt_next`).
-/

namespace RowHistory

/-! ## 1. The linear order -/

namespace Instant

variable {a b t : Instant}

theorem lt_iff : a < b ↔ a.seconds < b.seconds ∨ (a.seconds = b.seconds ∧ a.nanos < b.nanos) :=
  Iff.rfl

theorem le_iff : a ≤ b ↔ a.seconds < b.seconds ∨ (a.seconds = b.seconds ∧ a.nanos ≤ b.nanos) := by
  show ¬ b < a ↔ _
  rw [lt_iff]
  omega

theorem ext_iff : a = b ↔ a.seconds = b.seconds ∧ a.nanos = b.nanos := by
  cases a
  cases b
  simp

instance : LinearOrder Instant where
  le_refl a := by rw [le_iff]; omega
  le_trans a b c := by simp only [le_iff]; omega
  le_antisymm a b := by simp only [le_iff, ext_iff]; omega
  le_total a b := by simp only [le_iff]; omega
  lt_iff_le_not_ge a b := by simp only [le_iff, lt_iff]; omega
  toDecidableLE := inferInstance
  toDecidableLT := inferInstance
  toDecidableEq := inferInstance

theorem le_later_right (a b : Instant) : b ≤ a.later b := by
  unfold later
  split
  · exact le_refl b
  · rename_i h
    exact not_lt.mp h

/-! ## 2. Whole microseconds -/

/-- An instant without digits below a microsecond. -/
def IsWhole (t : Instant) : Prop :=
  t.nanos % 1000 = 0

instance (t : Instant) : Decidable t.IsWhole :=
  inferInstanceAs (Decidable (_ = _))

theorem isWhole_truncate (t : Instant) : t.truncate.IsWhole := by
  show (t.nanos - t.nanos % 1000) % 1000 = 0
  omega

theorem truncate_le_truncate (h : a ≤ b) : a.truncate ≤ b.truncate := by
  rw [le_iff] at h ⊢
  show a.seconds < b.seconds ∨ a.seconds = b.seconds ∧
    a.nanos - a.nanos % 1000 ≤ b.nanos - b.nanos % 1000
  omega

theorem IsWhole.addMicro (h : t.IsWhole) : t.addMicro.IsWhole := by
  unfold IsWhole at h ⊢
  unfold Instant.addMicro
  split
  · show (t.nanos + 1000) % 1000 = 0
    omega
  · split
    · show (t.nanos + 1000) % 1000 = 0
      omega
    · show (t.nanos + 1000) % 1000000000 % 1000 = 0
      omega

theorem IsWhole.addMonths? (h : t.IsWhole) {months : Nat} (hu : t.addMonths? months = some b) :
    b.IsWhole := by
  unfold Instant.addMonths? Instant.ofUnix? at hu
  dsimp only at hu
  split at hu
  · split at hu
    · cases hu
      exact h
    · cases hu
  · cases hu

theorem IsWhole.later (ha : a.IsWhole) (hb : b.IsWhole) : (a.later b).IsWhole := by
  unfold Instant.later
  split
  · exact hb
  · exact ha

theorem lt_addMicro (t : Instant) : t < t.addMicro := by
  rw [lt_iff]
  unfold addMicro
  split
  · exact .inr ⟨rfl, by show t.nanos < t.nanos + 1000; omega⟩
  · split
    · exact .inr ⟨rfl, by show t.nanos < t.nanos + 1000; omega⟩
    · exact .inl (by show t.seconds < t.seconds + 1; omega)

end Instant

/-! ## 3. Dates -/

namespace Date

/-- A date comes before another one: by its year, its month, or its day. -/
def Before (d e : Date) : Prop :=
  d.year < e.year ∨ (d.year = e.year ∧
    (d.month < e.month ∨ (d.month = e.month ∧ d.day < e.day)))

/-- The year of a day, counted from the first of March. -/
def marchYear (n : Int) : Int :=
  let ofCycle := ((n + epochShift) % 146097).toNat
  let century := min (ofCycle / 36524) 3
  let ofCentury := ofCycle - century * 36524
  (n + epochShift) / 146097 * 400 + (century * 100 + ofCentury / 1461 * 4 +
    min (ofCentury % 1461 / 365) 3 : Nat)

/-- The day of that year. -/
def marchDay (n : Int) : Nat :=
  let ofCycle := ((n + epochShift) % 146097).toNat
  let ofGroup := (ofCycle - min (ofCycle / 36524) 3 * 36524) % 1461
  ofGroup - min (ofGroup / 365) 3 * 365

theorem marchDay_le (n : Int) : marchDay n ≤ 365 := by
  unfold marchDay
  dsimp only
  omega

/-- Years and days of the year grow with the day as a pair. -/
theorem marchYear_lt {n m : Int} (h : n < m) :
    marchYear n < marchYear m ∨ (marchYear n = marchYear m ∧ marchDay n < marchDay m) := by
  unfold marchYear marchDay
  dsimp only
  generalize hc : ((n + epochShift) % 146097).toNat = c
  generalize hd : ((m + epochShift) % 146097).toNat = d
  generalize hq : (n + epochShift) / 146097 = q
  generalize hr : (m + epochShift) / 146097 = r
  have hcycle : q < r ∨ (q = r ∧ c < d) := by omega
  have hc' : c < 146097 := by omega
  have hd' : d < 146097 := by omega
  clear hc hd hq hr h
  -- Cycle, century, group and year are compared one after the other.
  obtain ⟨i, hi⟩ : ∃ i, i = min (c / 36524) 3 := ⟨_, rfl⟩
  obtain ⟨j, hj⟩ : ∃ j, j = min (d / 36524) 3 := ⟨_, rfl⟩
  rw [← hi, ← hj]
  obtain ⟨u, hu⟩ : ∃ u, u = c - i * 36524 := ⟨_, rfl⟩
  obtain ⟨v, hv⟩ : ∃ v, v = d - j * 36524 := ⟨_, rfl⟩
  rw [← hu, ← hv]
  have hcentury : q < r ∨ (q = r ∧ (i < j ∨ (i = j ∧ u < v))) := by omega
  have hbounds : u < 36525 ∧ v < 36525 ∧ i ≤ 3 := by omega
  clear hi hj hu hv hcycle hc' hd'
  have hgroup : u / 1461 < v / 1461 ∨ (u / 1461 = v / 1461 ∧ u % 1461 < v % 1461) ∨ v ≤ u := by
    omega
  omega

/-- The date of a day of a year that starts in March. -/
def ofMarch (year : Int) (day : Nat) : Date :=
  let marchMonth := (5 * day + 2) / 153
  let month := if marchMonth < 10 then marchMonth + 3 else marchMonth - 9
  { year := if month ≤ 2 then year + 1 else year
    month := month
    day := day - (153 * marchMonth + 2) / 5 + 1 }

theorem ofDayNumber_eq (n : Int) : ofDayNumber n = ofMarch (marchYear n) (marchDay n) :=
  rfl

theorem ofMarch_before {y z : Int} {u v : Nat} (hu : u ≤ 365) (hv : v ≤ 365)
    (h : y < z ∨ (y = z ∧ u < v)) : (ofMarch y u).Before (ofMarch z v) := by
  unfold Before ofMarch
  dsimp only
  generalize hm : (5 * u + 2) / 153 = m
  generalize hk : (5 * v + 2) / 153 = k
  have hle : u < v → m < k ∨ (m = k ∧ u - (153 * m + 2) / 5 < v - (153 * k + 2) / 5) := by omega
  have hm' : m ≤ 11 := by omega
  have hk' : k ≤ 11 := by omega
  clear hm hk
  by_cases hm10 : m < 10 <;> by_cases hk10 : k < 10 <;>
    simp only [hm10, hk10, if_true, if_false] <;> split <;> split <;> omega

/-- **Dates grow with their day numbers.** -/
theorem ofDayNumber_before {n m : Int} (h : n < m) : (ofDayNumber n).Before (ofDayNumber m) := by
  rw [ofDayNumber_eq, ofDayNumber_eq]
  exact ofMarch_before (marchDay_le n) (marchDay_le m) (marchYear_lt h)

/-- Years go with the days. -/
theorem year_ofDayNumber_le {n m : Int} (h : n ≤ m) : (ofDayNumber n).year ≤ (ofDayNumber m).year := by
  obtain rfl | hlt := Int.le_iff_eq_or_lt.mp h
  · exact Int.le_refl _
  · obtain hyear | ⟨hyear, -⟩ := ofDayNumber_before hlt
    · exact Int.le_of_lt hyear
    · exact Int.le_of_eq hyear

theorem ofDayNumber_bounds (n : Int) : (ofDayNumber n).month ≤ 12 ∧ (ofDayNumber n).day ≤ 31 := by
  rw [ofDayNumber_eq]
  have hday := marchDay_le n
  unfold ofMarch
  dsimp only
  constructor
  · split <;> omega
  · omega

end Date

/-! ## 4. Clocks -/

namespace Clock

variable {c : Clock}

/-- A source that gives whole microseconds. What the system gives is truncated. -/
def Source.IsWhole : Source → Prop
  | .system _ => True
  | .manual origin => origin.IsWhole

theorem Source.IsWhole.reading {source : Source} (h : source.IsWhole) : source.reading.IsWhole := by
  cases source with
  | system readings => exact (readings 0).isWhole_truncate
  | manual origin => exact h

theorem Source.IsWhole.rest {source : Source} (h : source.IsWhole) : source.rest.IsWhole := by
  cases source with
  | system readings => trivial
  | manual origin => exact h

/-- A clock that reads whole microseconds. -/
def IsWhole (c : Clock) : Prop :=
  c.source.IsWhole ∧ ∀ t ∈ c.last, t.IsWhole

theorem isWhole_system (readings : Nat → Instant) : (system readings).IsWhole :=
  ⟨trivial, fun _ h => nomatch h⟩

theorem isWhole_startingAt (t : Instant) : (startingAt t).IsWhole :=
  ⟨t.isWhole_truncate, fun _ h => nomatch h⟩

theorem IsWhole.next (h : c.IsWhole) : c.next.IsWhole := by
  unfold Clock.next
  cases hlast : c.last with
  | none => exact h.1.reading
  | some last => exact h.1.reading.later (h.2 last (by rw [hlast]; rfl)).addMicro

theorem IsWhole.tick (h : c.IsWhole) : c.tick.2.IsWhole := by
  refine ⟨h.1.rest, fun t ht => ?_⟩
  cases ht
  exact h.next

theorem IsWhole.observe (h : c.IsWhole) (t : Instant) : (c.observe t).IsWhole := by
  refine ⟨h.1, fun u hu => ?_⟩
  cases hlast : c.last with
  | none =>
    simp only [Clock.observe, hlast] at hu
    cases hu
    exact t.isWhole_truncate
  | some last =>
    simp only [Clock.observe, hlast] at hu
    cases hu
    exact (h.2 last (by rw [hlast]; rfl)).later t.isWhole_truncate

/-- What a clock was told of lies before its next tick. -/
theorem last_lt_next {t : Instant} (h : c.last = some t) : t < c.next := by
  unfold next
  rw [h]
  exact lt_of_lt_of_le t.lt_addMicro (Instant.le_later_right _ _)

/-- **Ticks increase.** -/
theorem next_lt_next (c : Clock) : c.next < c.tick.2.next :=
  last_lt_next rfl

theorem lt_next_observe (c : Clock) (t : Instant) : t.truncate < (c.observe t).next := by
  cases hlast : c.last with
  | none => exact last_lt_next (by simp only [observe, hlast])
  | some last =>
    have h : (c.observe t).last = some (last.later t.truncate) := by simp only [observe, hlast]
    exact lt_of_le_of_lt (Instant.le_later_right last t.truncate) (last_lt_next h)

/-- The first ticks from now on. -/
def ticks (c : Clock) : Nat → List Instant
  | 0 => []
  | n + 1 => c.next :: c.tick.2.ticks n

theorem ticks_subset_succ (c : Clock) (n : Nat) : c.ticks n ⊆ c.ticks (n + 1) := by
  induction n generalizing c with
  | zero => exact List.nil_subset _
  | succ n ih => exact List.cons_subset_cons _ (ih c.tick.2)

end Clock

end RowHistory
