import RowHistory.Proofs.Session.Parallel
import RowHistory.Proofs.Versions.Runs

/-!
# The horizon of a session

New versions of a session end at its horizon, and a version is active as long as the text of its end is
not less than the text of the tick. This file fixes

* that the far future lies after the start (`Instant.lt_farFuture`), and a fixed horizon at the start
  just if it is less than a microsecond later (`Horizon.le_resolve`);
* that a year behind 9999 is written with a sign, so that its texts are less than all others
  (`Instant.storageText_lt_of_year`);
* where the horizon of a session lies, as an instant and as a text (`Session.horizon_of_begin`).
-/

namespace RowHistory

open Sql

/-! ## 1. A hundred years -/

namespace Date

/-- The first of March of a year, as a day number. -/
theorem marchStart_add_century (y : Int) :
    y / 400 * 146097 + (y % 400 * 365 + y % 400 / 4 - y % 400 / 100) + 36524 ≤
      (y + 100) / 400 * 146097 +
        ((y + 100) % 400 * 365 + (y + 100) % 400 / 4 - (y + 100) % 400 / 100) := by
  omega

theorem monthLength_ge (year : Int) (month : Nat) : 28 ≤ monthLength year month := by
  unfold monthLength
  split
  · split <;> omega
  · split <;> omega

/-- Twelve hundred months keep the month and add a hundred years. -/
theorem addMonths_farMonths {d : Date} (h : d.Exists) : d.addMonths Horizon.farMonths =
    ⟨d.year + 100, d.month, min d.day (monthLength (d.year + 100) d.month)⟩ := by
  obtain ⟨hmin, hmax, -⟩ := h
  have hyear : (d.year * 12 + (d.month - 1 : Nat) + (Horizon.farMonths : Nat)) / 12 = d.year + 100 := by
    unfold Horizon.farMonths
    omega
  have hmonth : ((d.year * 12 + (d.month - 1 : Nat) + (Horizon.farMonths : Nat)) % 12).toNat + 1 =
      d.month := by
    unfold Horizon.farMonths
    omega
  unfold addMonths
  simp only [hyear, hmonth]

/-- **The day of the far future is later**, also where the month is shorter. -/
theorem dayNumber_lt_farMonths {d : Date} (h : d.Exists) :
    d.dayNumber < (d.addMonths Horizon.farMonths).dayNumber := by
  have hday : d.day ≤ 31 := by
    refine le_trans h.2.2.2 ?_
    unfold monthLength
    split
    · split <;> omega
    · split <;> omega
  have hlength := monthLength_ge (d.year + 100) d.month
  rw [addMonths_farMonths h]
  generalize monthLength (d.year + 100) d.month = length at hlength
  unfold dayNumber
  dsimp only
  split
  · have hcentury := marchStart_add_century (d.year - 1)
    have hshift : d.year + 100 - 1 = d.year - 1 + 100 := by omega
    rw [hshift]
    omega
  · have hcentury := marchStart_add_century d.year
    omega

end Date

namespace Instant

variable {a b t e : Instant}

theorem lt_farFuture (h : t.addMonths? Horizon.farMonths = some e) : t < e := by
  unfold addMonths? ofUnix? at h
  dsimp only at h
  split at h
  · split at h
    · cases h
      have hlt := Date.dayNumber_lt_farMonths (Date.exists_ofDayNumber (t.seconds / 86400))
      rw [Date.dayNumber_ofDayNumber] at hlt
      refine .inl ?_
      show t.seconds < _ * 86400 + ((t.secondOfDay : Nat) : Int)
      unfold secondOfDay date
      omega
    · cases h
  · cases h

/-! ## 2. Years and texts -/

theorem year_le (h : a ≤ b) : a.date.year ≤ b.date.year := by
  refine Date.year_ofDayNumber_le ?_
  rw [le_iff] at h
  omega

/-- **A year behind 9999 has a sign, which comes before all digits.** -/
theorem storageText_lt_of_year (ha : 0 ≤ a.date.year ∧ a.date.year ≤ 9999) (hb : 9999 < b.date.year) :
    b.storageText < a.storageText := by
  obtain ⟨c, cs, hcons⟩ := List.exists_cons_of_ne_nil (Text.padded_ne_nil 4 a.date.year.natAbs)
  have hdigit : c.isDigit = true := Text.isDigit_of_mem_padded (hcons ▸ List.mem_cons_self)
  have hsign : '+' < c := by
    show '+'.toNat < c.toNat
    exact lt_of_lt_of_le (by decide) (Char.isDigit_iff_toNat.mp hdigit).1
  have hyear : yearChars b.date.year = '+' :: Text.padded 4 b.date.year.natAbs := by
    unfold yearChars
    rw [if_neg (by omega), if_neg (by omega)]
  rw [String.lt_iff_toList_lt]
  unfold storageText storageChars dateChars
  rw [String.toList_ofList, String.toList_ofList, yearChars_eq ha, hcons, hyear]
  exact List.Lex.rel hsign

/-- Texts are ordered as the instants are, as long as the later one, which is not before the year zero,
has four digits for its year. -/
theorem storageText_le_iff (ha : a.IsStorable) (hb : b.IsWhole) (hyear : 0 ≤ b.date.year) :
    a.storageText ≤ b.storageText ↔ a ≤ b ∧ b.InYears := by
  by_cases hlast : b.date.year ≤ 9999
  · rw [← compare_le_iff_le, compare_storageText ha ⟨hb, hyear, hlast⟩, compare_le_iff_le]
    exact ⟨fun h => ⟨h, hyear, hlast⟩, fun h => h.1⟩
  · have hlt := storageText_lt_of_year ha.year (not_le.mp hlast)
    exact ⟨fun h => absurd h (not_le.mpr hlt), fun h => absurd h.2.2 hlast⟩

end Instant

/-- A text column compares texts as they are. -/
theorem Sql.compareCells_texts (a b : String) :
    compareCells .ge (some .text) (.text a) (.text b) = some (decide (compare a b ≠ .lt)) :=
  rfl

/-! ## 3. Horizons -/

/-- **A horizon is not before the start**, and at the start only if it was fixed less than a microsecond
after it. -/
theorem Horizon.le_resolve {h : Horizon} {start e : Instant} (hstart : start.IsWhole)
    (hresolve : h.resolve start = .ok (some e)) :
    start ≤ e ∧ (e = start ↔ ∃ t, h = .at t ∧ t.truncate = start) := by
  cases h with
  | farFuture =>
    simp only [resolve] at hresolve
    split at hresolve
    · rename_i hmonths
      cases hresolve
      have hlt := Instant.lt_farFuture hmonths
      refine ⟨le_of_lt hlt, fun heq => absurd heq (ne_of_gt hlt), fun hat => ?_⟩
      obtain ⟨t, ht, -⟩ := hat
      cases ht
    · cases hresolve
  | unlimited => cases hresolve
  | «at» t =>
    simp only [resolve] at hresolve
    split at hresolve
    · cases hresolve
    · rename_i hafter
      cases hresolve
      have hle := Instant.truncate_le_truncate (le_of_lt (not_le.mp hafter))
      rw [hstart.truncate_eq] at hle
      refine ⟨hle, fun heq => ⟨t, rfl, heq⟩, fun hat => ?_⟩
      obtain ⟨u, hu, htruncate⟩ := hat
      cases hu
      exact htruncate

theorem Horizon.resolve_none {h : Horizon} {start : Instant} {validTo : Option Instant}
    (hresolve : h.resolve start = .ok validTo) : validTo = none ↔ h = .unlimited := by
  cases h with
  | farFuture =>
    simp only [resolve] at hresolve
    split at hresolve
    · cases hresolve
      exact iff_of_false (Option.some_ne_none _) Horizon.noConfusion
    · cases hresolve
  | unlimited =>
    cases hresolve
    exact ⟨fun _ => rfl, fun _ => rfl⟩
  | «at» t =>
    simp only [resolve] at hresolve
    split at hresolve
    · cases hresolve
    · cases hresolve
      exact iff_of_false (Option.some_ne_none _) Horizon.noConfusion

/-- All ticks of a clock are whole, and none comes before the next one. -/
theorem Clock.IsWhole.ticks {c : Clock} (h : c.IsWhole) {n : Nat} {t : Instant} (ht : t ∈ c.ticks n) :
    t.IsWhole ∧ c.next ≤ t := by
  induction n generalizing c with
  | zero => cases ht
  | succ n ih =>
    rcases List.mem_cons.mp ht with rfl | ht
    · exact ⟨h.next, le_refl _⟩
    · obtain ⟨hwhole, hle⟩ := ih h.tick ht
      exact ⟨hwhole, le_trans (le_of_lt c.next_lt_next) hle⟩

namespace Session

variable {σ : Type} [Connection σ] {o : Options} {clock : Clock} {id : String} {c : σ} {s : Session σ}

omit [Connection σ] in
/-- The horizon is resolved for the start. -/
theorem resolve_of_prepare {start : Instant} {clock' : Clock} {validTo : Option Instant}
    (h : prepare o clock = .ok (start, clock', validTo)) : o.validTo.resolve start = .ok validTo := by
  obtain ⟨-, -, hrest⟩ := ok_of_bind h
  obtain ⟨horizon, hresolve, heq⟩ := ok_of_bind hrest
  cases heq
  exact hresolve

/-- **The horizon of a session.** There is none just if none is wanted. Otherwise it is not before the
start, and it is the start just if it was fixed less than a microsecond after it. If the session starts
in the years 0 to 9999, the text of the horizon is greater than that of the start just if the horizon is
later and lies in these years too; then, and for no other horizon, a text column finds it not before a
tick just if it is not. -/
theorem horizon_of_begin (hclock : clock.IsWhole) (h : begin o clock id c = .ok s) :
    (s.validTo = none ↔ o.validTo = .unlimited) ∧
    ∀ e ∈ s.validTo, s.start ≤ e ∧
      (e = s.start ↔ ∃ t, o.validTo = .at t ∧ t.truncate = s.start) ∧
      (s.start.InYears →
        (s.start.storageText < e.storageText ↔ s.start < e ∧ e.InYears) ∧
        ∀ n, ∀ now ∈ s.clock.ticks n, now.InYears → s.start < now ∧
          (compareCells .ge (some .text) (.text e.storageText) (.text now.storageText) = some true ↔
            now ≤ e ∧ e.InYears)) := by
  obtain ⟨-, -, -, hprepare, -⟩ := begin_eq h
  obtain ⟨hstart, hclock', hnext, hwhole⟩ := prepare_whole hclock hprepare
  have hresolve := resolve_of_prepare hprepare
  refine ⟨Horizon.resolve_none hresolve, fun e he => ?_⟩
  rw [he] at hresolve
  obtain ⟨hle, heq⟩ := Horizon.le_resolve hstart hresolve
  refine ⟨hle, heq, fun hyears => ?_⟩
  have hyear : 0 ≤ e.date.year := le_trans hyears.1 (Instant.year_le hle)
  have htext : ∀ {a : Instant}, a.IsWhole → a.InYears →
      (a.storageText ≤ e.storageText ↔ a ≤ e ∧ e.InYears) :=
    fun ha hin => Instant.storageText_le_iff ⟨ha, hin⟩ (hwhole e he) hyear
  refine ⟨⟨fun hlt => ?_, fun ⟨hlt, hin⟩ => ?_⟩, fun n now hnow hin => ?_⟩
  · obtain ⟨-, hin⟩ := (htext hstart hyears).mp (le_of_lt hlt)
    refine ⟨lt_of_le_of_ne hle fun hsame => ?_, hin⟩
    rw [hsame] at hlt
    exact lt_irrefl _ hlt
  · exact Instant.storageText_lt ⟨hstart, hyears⟩ ⟨hwhole e he, hin⟩ hlt
  · obtain ⟨hnowWhole, hle'⟩ := hclock'.ticks hnow
    refine ⟨lt_of_lt_of_le hnext hle', ?_⟩
    rw [← htext hnowWhole hin, compareCells_texts, Option.some_inj, decide_eq_true_eq,
      compare_ge_iff_ge]

/-- A session that starts on a leap day, whose far future has none: its horizon is the day before. -/
def leapDay : Options :=
  { Sample.options with startDate := some (Instant.ofSeconds 951782400) }

theorem horizon_of_leapDay : ∃ s : Session (Traced Store), Sample.clock.IsWhole ∧
    begin leapDay Sample.clock "sample" (Sample.store []) = .ok s ∧ s.start.InYears ∧
    s.validTo = some (Instant.ofSeconds 4107456000) ∧ s.start < Instant.ofSeconds 4107456000 ∧
    s.start.storageText < (Instant.ofSeconds 4107456000).storageText ∧
    ∀ n, ∀ now ∈ s.clock.ticks n, now.InYears → now ≤ Instant.ofSeconds 4107456000 →
      compareCells .ge (some .text) (.text (Instant.ofSeconds 4107456000).storageText)
        (.text now.storageText) = some true := by
  have hcheck : okAnd (begin leapDay Sample.clock "sample" (Sample.store [])) (fun s =>
      decide s.start.InYears && decide (s.start < Instant.ofSeconds 4107456000) &&
        s.validTo == some (Instant.ofSeconds 4107456000)) = true := by
    rw [Store.connection_eq Sample.options]
    decide +kernel
  obtain ⟨s, hbegin, hs⟩ := exists_of_okAnd hcheck
  simp only [Bool.and_eq_true, decide_eq_true_eq, beq_iff_eq] at hs
  obtain ⟨⟨hyears, hlt⟩, hvalidTo⟩ := hs
  have hclock : Sample.clock.IsWhole := Clock.isWhole_startingAt _
  have hin : (Instant.ofSeconds 4107456000).InYears := by decide +kernel
  obtain ⟨-, -, htexts⟩ := (horizon_of_begin hclock hbegin).2 _ hvalidTo
  obtain ⟨htext, hticks⟩ := htexts hyears
  exact ⟨s, hclock, hbegin, hyears, hvalidTo, hlt, htext.mpr ⟨hlt, hin⟩,
    fun n now hnow hyear hle => (hticks n now hnow hyear).2.mpr ⟨hle, hin⟩⟩

/-- A fixed horizon half a microsecond after the first tick of the sample clock. -/
def shortHorizon : Options :=
  { Sample.options with validTo := .at ⟨1704067200, 500, by decide, by decide⟩ }

/-- The first tick of a clock that starts in the year 9949. -/
def lateClock : Clock :=
  Clock.startingAt (Instant.ofSeconds 251823600000)

/-- **Horizons that are not after their start**: a fixed one becomes the start itself, and the far future
of a late start has a text that is less. -/
theorem horizons_not_after_start :
    (∃ s : Session (Traced Store), begin shortHorizon Sample.clock "sample" (Sample.store []) = .ok s ∧
      s.validTo = some s.start) ∧
    ∃ s : Session (Traced Store), begin Sample.options lateClock "sample" (Sample.store []) = .ok s ∧
      ∃ e, s.validTo = some e ∧ e.storageText < s.start.storageText := by
  have hshort : okAnd (begin shortHorizon Sample.clock "sample" (Sample.store [])) (fun s =>
      s.validTo == some s.start) = true := by
    rw [Store.connection_eq Sample.options]
    decide +kernel
  have hlate : okAnd (begin Sample.options lateClock "sample" (Sample.store [])) (fun s =>
      s.validTo == some (Instant.ofSeconds 254979360000) && decide s.start.InYears) = true := by
    rw [Store.connection_eq Sample.options]
    decide +kernel
  obtain ⟨s, hbegin, hs⟩ := exists_of_okAnd hshort
  obtain ⟨u, hbegin', hu⟩ := exists_of_okAnd hlate
  simp only [Bool.and_eq_true, decide_eq_true_eq, beq_iff_eq] at hs hu
  exact ⟨⟨s, hbegin, hs⟩, u, hbegin', _, hu.1,
    Instant.storageText_lt_of_year hu.2 (by decide +kernel)⟩

end Session

end RowHistory
