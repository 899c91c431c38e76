import RowHistory.Instant.Reader
import RowHistory.Proofs.Instant.StorageText
import Mathlib.Data.List.TakeWhile

/-!
# Stored texts are read back

An instant that is stored as text comes back from the text, without the digits below a microsecond,
whatever its year. This file fixes

* that a numeral in front of other text is read as its number (`takeNumber_padded`,
  `spanDigits_padded`), and that trimming leaves it (`trimStart_padded`);
* that dates and day numbers are each other's inverse (`dayNumber_ofDayNumber`), and that every day
  number has a date that exists (`exists_ofDayNumber`);
* that a stored text is read back (`parse?_storageText`), and that what is read lies in the years that
  are kept (`inRange_of_parse?`);
* that a text of configuration is read back exactly (`parseLoose?_isoText`).
-/

namespace RowHistory.Text

variable {w n : Nat} {rest cs : List Char} {c : Char}

/-! ## 1. Numerals -/

theorem isDigit_of_mem_padded (h : c ∈ padded w n) : c.isDigit = true := by
  obtain hzero | hdigit := List.mem_append.mp h
  · rw [List.eq_of_mem_replicate hzero]
    rfl
  · exact Nat.isDigit_of_mem_toDigits (by decide) (by decide) hdigit

theorem padded_ne_nil (w n : Nat) : padded w n ≠ [] :=
  List.append_ne_nil_of_right_ne_nil _ Nat.toDigits_ne_nil

/-- **Zeros in front do not change a number.** -/
theorem digitsValue_padded (w n : Nat) : digitsValue (padded w n) = n := by
  have hzeros : ∀ k : Nat, Nat.ofDigitChars 10 (List.replicate k '0') 0 = 0 := by
    intro k
    induction k with
    | zero => rfl
    | succ k ih => exact ih
  unfold digitsValue padded
  rw [Nat.ofDigitChars_append, hzeros]
  exact Nat.ofDigitChars_toDigits (by decide) (by decide)

theorem length_padded (hw : 0 < w) (h : n < 10 ^ w) : (padded w n).length = w := by
  have hle : (digits n).length ≤ w := (Nat.length_toDigits_le_iff (by decide) hw).mpr h
  unfold padded
  rw [List.length_append, List.length_replicate]
  omega

/-- A digit is no blank. -/
theorem isBlank_of_isDigit (h : c.isDigit = true) : isBlank c = false := by
  have hc : 48 ≤ c.toNat ∧ c.toNat ≤ 57 := by
    rw [Char.isDigit_iff_toNat] at h
    exact h
  unfold isBlank blankRanges
  simp only [List.any_cons, List.any_nil, Bool.or_eq_false_iff, Bool.and_eq_false_iff,
    decide_eq_false_iff_not]
  refine ⟨?_, ?_, ?_, ?_, ?_, ?_, ?_, ?_, ?_, ?_, trivial⟩ <;> omega

theorem trimStart_cons (h : isBlank c = false) : trimStart (c :: cs) = c :: cs := by
  unfold trimStart
  rw [List.dropWhile_cons_of_neg (by rw [h]; exact Bool.false_ne_true)]

theorem trimStart_padded (w n : Nat) (rest : List Char) :
    trimStart (padded w n ++ rest) = padded w n ++ rest := by
  obtain ⟨c, cs, hcons⟩ := List.exists_cons_of_ne_nil (padded_ne_nil w n)
  rw [hcons, List.cons_append]
  refine trimStart_cons (isBlank_of_isDigit (isDigit_of_mem_padded (w := w) (n := n) ?_))
  rw [hcons]
  exact List.mem_cons_self

theorem trimEnd_padded (w n : Nat) (front : List Char) :
    trimEnd (front ++ padded w n) = front ++ padded w n := by
  have hreverse : (padded w n).reverse ≠ [] := List.reverse_ne_nil_iff.mpr (padded_ne_nil w n)
  obtain ⟨c, cs, hcons⟩ := List.exists_cons_of_ne_nil hreverse
  have hdigit : c.isDigit = true :=
    isDigit_of_mem_padded (List.mem_reverse.mp (hcons ▸ List.mem_cons_self))
  have htrim : (c :: (cs ++ front.reverse)).dropWhile isBlank = c :: (cs ++ front.reverse) :=
    trimStart_cons (isBlank_of_isDigit hdigit)
  unfold trimEnd
  rw [List.reverse_append, hcons, List.cons_append, htrim, ← List.cons_append, ← hcons,
    ← List.reverse_append, List.reverse_reverse]

/-- Digits in front of something else are cut off. -/
theorem spanDigits_padded (h : ∀ c ∈ rest.head?, c.isDigit = false) :
    spanDigits (padded w n ++ rest) = (padded w n, rest) := by
  have hdigits : ∀ c ∈ padded w n, c.isDigit = true := fun _ hc => isDigit_of_mem_padded hc
  have hrest : rest.takeWhile Char.isDigit = [] ∧ rest.dropWhile Char.isDigit = rest := by
    cases rest with
    | nil => exact ⟨rfl, rfl⟩
    | cons c cs =>
      have hc : ¬ c.isDigit = true := by rw [h c rfl]; exact Bool.false_ne_true
      exact ⟨List.takeWhile_cons_of_neg hc, List.dropWhile_cons_of_neg hc⟩
  unfold spanDigits
  rw [List.takeWhile_append_of_pos hdigits, List.dropWhile_append_of_pos hdigits, hrest.1, hrest.2,
    List.append_nil]

end RowHistory.Text

namespace RowHistory.Instant

open Text

variable {w n : Nat} {rest : List Char}

/-- **A numeral of full width is read as its number**, whatever follows. -/
theorem takeNumber_padded {least : Nat} (hw : 0 < w) (hleast : least ≤ w) (h : n < 10 ^ w) :
    takeNumber least w (padded w n ++ rest) = some (n, rest) := by
  have hlength := length_padded hw h
  have htake : (padded w n ++ rest).take w = padded w n := by
    rw [List.take_append_of_le_length (le_of_eq hlength.symm), List.take_of_length_le
      (le_of_eq hlength)]
  have hdigits : ((padded w n ++ rest).take w).takeWhile Char.isDigit = padded w n := by
    rw [htake]
    exact List.takeWhile_eq_self_iff.mpr fun _ hc => isDigit_of_mem_padded hc
  unfold takeNumber
  simp only [hdigits, hlength, digitsValue_padded]
  rw [if_neg (not_lt.mpr hleast), List.drop_left' hlength]

theorem takeField_padded (h : n < 100) : takeField (padded 2 n ++ rest) = some (n, rest) := by
  unfold takeField
  rw [trimStart_padded]
  exact takeNumber_padded (by decide) (by decide) h

/-- A year is read as it is written, in front of a mark. -/
theorem takeYear_yearChars (year : Int) :
    takeYear (yearChars year ++ '-' :: rest) = some (year, '-' :: rest) := by
  have hspan : ∀ n, spanDigits (padded 4 n ++ '-' :: rest) = (padded 4 n, '-' :: rest) := fun n =>
    spanDigits_padded fun c hc => by cases hc; rfl
  unfold yearChars
  split
  · rename_i hyear
    have hlt : year.natAbs < 10 ^ 4 := by omega
    have hnumber : takeNumber 1 4 (padded 4 year.natAbs ++ '-' :: rest) =
        some (year.natAbs, '-' :: rest) := takeNumber_padded (by decide) (by decide) hlt
    obtain ⟨c, cs, hcons⟩ := List.exists_cons_of_ne_nil (padded_ne_nil 4 year.natAbs)
    have hdigit : c.isDigit = true := isDigit_of_mem_padded (hcons ▸ List.mem_cons_self)
    have hminus : c ≠ '-' := by rintro rfl; cases hdigit
    have hplus : c ≠ '+' := by rintro rfl; cases hdigit
    unfold takeYear
    rw [trimStart_padded]
    rw [hcons, List.cons_append] at hnumber ⊢
    dsimp only
    split
    · rename_i heq
      exact absurd (List.head_eq_of_cons_eq heq) hminus
    · rename_i heq
      exact absurd (List.head_eq_of_cons_eq heq) hplus
    · rw [hnumber, Option.map_some, Int.natAbs_of_nonneg hyear.1]
  · rename_i hyear
    split
    · rename_i hneg
      unfold takeYear
      rw [List.cons_append, trimStart_cons (by decide)]
      simp only [hspan, padded_ne_nil, digitsValue_padded, if_false, if_true]
      rw [Int.ofNat_natAbs_of_nonpos (le_of_lt hneg), Int.neg_neg]
    · rename_i hneg
      unfold takeYear
      rw [List.cons_append, trimStart_cons (by decide)]
      simp only [hspan, padded_ne_nil, digitsValue_padded, if_false, Bool.false_eq_true]
      rw [Int.natAbs_of_nonneg (not_lt.mp hneg)]

theorem takeMark_cons (gap : Bool) {c : Char} (h : isBlank c = false) :
    takeMark gap c (c :: rest) = some rest := by
  cases gap <;> simp [takeMark, trimStart_cons h]

/-- Digits of a fraction, nine at most, are a multiple of a power of ten. -/
theorem takeFraction_padded (hw : 0 < w) (hle : w ≤ 9) (h : n < 10 ^ w)
    (hrest : ∀ c ∈ rest.head?, c.isDigit = false) :
    takeFraction ('.' :: (padded w n ++ rest)) = some (n * 10 ^ (9 - w), rest) := by
  have hlength := length_padded hw h
  unfold takeFraction
  simp only [spanDigits_padded hrest, padded_ne_nil, if_false, hlength]
  rw [List.take_of_length_le (by omega), digitsValue_padded]

end RowHistory.Instant

/-! ## 2. Dates -/

namespace RowHistory.Date

/-- The day number of a day of a year that starts in March. -/
theorem dayNumber_ofMarch (year : Int) {day : Nat} (h : day ≤ 365) :
    (ofMarch year day).dayNumber = year / 400 * 146097 +
      (year % 400 * 365 + year % 400 / 4 - year % 400 / 100) + day - epochShift := by
  unfold dayNumber ofMarch
  dsimp only
  generalize hm : (5 * day + 2) / 153 = m
  have hm' : m ≤ 11 := by omega
  have hday : (153 * m + 2) / 5 ≤ day := by omega
  by_cases hlt : m < 10
  · have hmonth : ¬ m + 3 ≤ 2 := by omega
    have hback : (m + 3 + 9) % 12 = m := by omega
    simp only [hlt, hmonth, hback, if_true, if_false]
    omega
  · have hmonth : m - 9 ≤ 2 := by omega
    have hback : (m - 9 + 9) % 12 = m := by omega
    simp only [hlt, hmonth, hback, if_true, if_false]
    omega

/-- A day number, cut into the parts of its date that starts in March. -/
theorem march_parts (n : Int) : ∃ (q : Int) (i g k : Nat), i ≤ 3 ∧ g ≤ 24 ∧ k ≤ 3 ∧
    marchYear n = q * 400 + (i * 100 + g * 4 + k : Nat) ∧
    n + epochShift = q * 146097 + (i * 36524 + g * 1461 + k * 365 + marchDay n : Nat) ∧
    (marchDay n = 365 → k = 3 ∧ (g = 24 → i = 3)) := by
  unfold marchYear marchDay
  dsimp only
  generalize hc : ((n + epochShift) % 146097).toNat = c
  have hcycle : n + epochShift = (n + epochShift) / 146097 * 146097 + c := by omega
  have hc' : c < 146097 := by omega
  refine ⟨(n + epochShift) / 146097, min (c / 36524) 3, (c - min (c / 36524) 3 * 36524) / 1461,
    min ((c - min (c / 36524) 3 * 36524) % 1461 / 365) 3, ?_⟩
  generalize (n + epochShift) / 146097 = q at hcycle ⊢
  generalize hi : min (c / 36524) 3 = i
  generalize hu : c - i * 36524 = u
  have hbounds : i ≤ 3 ∧ u < 36525 ∧ c = i * 36524 + u ∧ (u = 36524 → i = 3) := by omega
  clear hi hu hc hc'
  generalize hg : u / 1461 = g
  generalize hv : u % 1461 = v
  have hgroup : g ≤ 24 ∧ v < 1461 ∧ u = g * 1461 + v := by omega
  clear hg hv
  generalize hk : min (v / 365) 3 = k
  have hyear : k ≤ 3 ∧ v = k * 365 + (v - k * 365) ∧ (v - k * 365 = 365 → k = 3) := by omega
  clear hk
  refine ⟨hbounds.1, hgroup.1, hyear.1, rfl, ?_, fun h => ⟨hyear.2.2 h, fun hlast => ?_⟩⟩
  · omega
  · have hk := hyear.2.2 h
    exact hbounds.2.2.2 (by omega)

/-- **The day number of the date of a day is the day.** -/
theorem dayNumber_ofDayNumber (n : Int) : (ofDayNumber n).dayNumber = n := by
  obtain ⟨q, i, g, k, hi, hg, hk, hyear, hn, -⟩ := march_parts n
  rw [ofDayNumber_eq, dayNumber_ofMarch _ (marchDay_le n), hyear]
  have hdiv : (q * 400 + (i * 100 + g * 4 + k : Nat)) / 400 = q := by omega
  have hmod : (q * 400 + (i * 100 + g * 4 + k : Nat)) % 400 = (i * 100 + g * 4 + k : Nat) := by omega
  have hfour : ((i * 100 + g * 4 + k : Nat) : Int) / 4 = i * 25 + g := by omega
  have hhundred : ((i * 100 + g * 4 + k : Nat) : Int) / 100 = i := by omega
  rw [hdiv, hmod, hfour, hhundred]
  omega

/-- The last day of a long year, counted from March, is the 29th of February. -/
theorem isLeap_of_marchDay {n : Int} (h : marchDay n = 365) : isLeap (marchYear n + 1) = true := by
  obtain ⟨q, i, g, k, hi, hg, -, hyear, -, hlong⟩ := march_parts n
  obtain ⟨hk, hlast⟩ := hlong h
  have hfour : (marchYear n + 1) % 4 = 0 := by omega
  have hcentury : (marchYear n + 1) % 100 ≠ 0 ∨ (marchYear n + 1) % 400 = 0 := by omega
  unfold isLeap
  rw [Bool.and_eq_true, Bool.or_eq_true]
  exact ⟨decide_eq_true hfour, hcentury.imp decide_eq_true decide_eq_true⟩

/-- **The date of a day exists.** -/
theorem exists_ofDayNumber (n : Int) : (ofDayNumber n).Exists := by
  have hday := marchDay_le n
  have hleap := isLeap_of_marchDay (n := n)
  rw [ofDayNumber_eq]
  generalize marchDay n = d at hday hleap
  generalize marchYear n = y at hleap
  unfold Exists ofMarch monthLength
  dsimp only
  generalize hm : (5 * d + 2) / 153 = m
  have hm' : m ≤ 11 := by omega
  by_cases hlt : m < 10
  · have hmonth : ¬ m + 3 ≤ 2 := by omega
    have hmonth' : ¬ m + 3 = 2 := by omega
    simp only [hlt, hmonth, hmonth', if_true, if_false]
    refine ⟨by omega, by omega, by omega, ?_⟩
    split <;> omega
  · have hmonth : m - 9 ≤ 2 := by omega
    simp only [hlt, hmonth, if_true, if_false]
    refine ⟨by omega, by omega, by omega, ?_⟩
    obtain rfl | rfl : m = 10 ∨ m = 11 := by omega
    · simp only [Nat.reduceSub, Nat.reduceEqDiff, or_self, if_false]
      omega
    · simp only [Nat.reduceSub, if_true]
      by_cases hlast : d = 365
      · rw [hleap hlast, if_pos rfl]
        omega
      · split <;> omega

end RowHistory.Date

/-! ## 3. Stored texts -/

namespace RowHistory.Instant

open Text

variable {t : Instant}

/-- The year of an instant in range is kept. -/
theorem InRange.year (h : t.InRange) : Date.yearMin ≤ t.date.year ∧ t.date.year ≤ Date.yearMax := by
  have hfirst : (Date.ofDayNumber (Date.mk Date.yearMin 1 1).dayNumber).year = Date.yearMin := by
    decide
  have hend : Date.ofDayNumber (Date.mk (Date.yearMax + 1) 1 1).dayNumber =
      ⟨Date.yearMax + 1, 1, 1⟩ := by decide
  have hexists := Date.exists_ofDayNumber (t.seconds / 86400)
  constructor
  · have hle : (Date.mk Date.yearMin 1 1).dayNumber ≤ t.seconds / 86400 := by
      have hmin : (Date.mk Date.yearMin 1 1).dayNumber * 86400 ≤ t.seconds := h.1
      omega
    exact hfirst ▸ Date.year_ofDayNumber_le hle
  · have hlt : t.seconds / 86400 < (Date.mk (Date.yearMax + 1) 1 1).dayNumber := by
      have hmax : t.seconds < (Date.mk (Date.yearMax + 1) 1 1).dayNumber * 86400 := h.2
      omega
    have hbefore := Date.ofDayNumber_before hlt
    rw [hend] at hbefore
    obtain hyear | ⟨-, hmonth | ⟨-, hday⟩⟩ := hbefore
    · exact Int.lt_add_one_iff.mp hyear
    · exact absurd hmonth (not_lt.mpr hexists.1)
    · exact absurd hday (not_lt.mpr hexists.2.2.1)

/-- An instant that can be stored is in range. -/
theorem IsStorable.inRange (h : t.IsStorable) : t.InRange := by
  have hfirst : (Date.ofDayNumber (Date.mk Date.yearMin 1 1).dayNumber).year = Date.yearMin := by
    decide
  have hend : (Date.ofDayNumber (Date.mk (Date.yearMax + 1) 1 1).dayNumber).year =
      Date.yearMax + 1 := by decide
  obtain ⟨hzero, hmax⟩ := h.year
  constructor
  · refine not_lt.mp fun hlt => ?_
    have hday : t.seconds / 86400 ≤ (Date.mk Date.yearMin 1 1).dayNumber := by
      have hmin : t.seconds < (Date.mk Date.yearMin 1 1).dayNumber * 86400 := hlt
      omega
    have hle := Date.year_ofDayNumber_le hday
    rw [hfirst] at hle
    exact absurd (le_trans hzero hle) (by decide)
  · refine not_le.mp fun hle => ?_
    have hday : (Date.mk (Date.yearMax + 1) 1 1).dayNumber ≤ t.seconds / 86400 := by
      have hge : (Date.mk (Date.yearMax + 1) 1 1).dayNumber * 86400 ≤ t.seconds := hle
      omega
    have hge : Date.yearMax + 1 ≤ t.date.year := hend ▸ Date.year_ofDayNumber_le hday
    exact absurd (le_trans hge hmax) (by decide)

theorem IsWhole.truncate_eq (h : t.IsWhole) : t.truncate = t := by
  unfold IsWhole at h
  rw [ext_iff]
  exact ⟨rfl, by show t.nanos - t.nanos % 1000 = t.nanos; omega⟩

/-- The time of day of an instant, as it is written with microseconds. -/
def clockface (t : Instant) : Clockface :=
  ⟨t.secondOfDay / 3600, t.secondOfDay / 60 % 60, t.displaySecond, t.subsecond / 1000 * 1000⟩

/-- **An instant is the one that its date and its time of day make.** -/
theorem ofCivil?_subsecond (h : t.InRange) :
    ofCivil? t.date { t.clockface with nanos := t.subsecond } 0 = some t := by
  have hnanos := t.nanos_lt
  have hleap : 1000000000 ≤ t.nanos → t.secondOfDay % 60 = 59 := by
    intro hl
    have := t.leap_ends_minute hl
    unfold secondOfDay
    omega
  have hday : t.secondOfDay < 86400 := by
    unfold secondOfDay
    omega
  have hexists : ({ t.clockface with nanos := t.subsecond } : Clockface).Exists := by
    unfold Clockface.Exists clockface displaySecond subsecond
    dsimp only
    omega
  have hseconds : t.date.dayNumber * 86400 + (t.clockface.hour * 3600 + t.clockface.minute * 60 +
      min t.clockface.second 59 : Nat) - 0 * 60 = t.seconds := by
    have hnumber : t.date.dayNumber = t.seconds / 86400 := Date.dayNumber_ofDayNumber _
    have hrest : ((t.secondOfDay : Nat) : Int) = t.seconds % 86400 := by
      unfold secondOfDay
      omega
    rw [hnumber]
    unfold clockface displaySecond
    dsimp only
    omega
  have hsecond : (if t.clockface.second = 60 then t.subsecond + 1000000000 else t.subsecond) =
      t.nanos := by
    unfold clockface displaySecond subsecond
    dsimp only
    split <;> omega
  have hunix : ofUnix? t.seconds t.nanos = some t := dif_pos ⟨t.nanos_lt, t.leap_ends_minute⟩
  unfold ofCivil?
  rw [if_pos ⟨Date.exists_ofDayNumber _, h.year.1, h.year.2, hexists⟩]
  dsimp only
  rw [hseconds, hsecond, hunix]
  exact Option.filter_some_pos (decide_eq_true h)

/-- Without the digits below a microsecond, the time of day is the same up to them. -/
theorem clockface_truncate (t : Instant) :
    { t.truncate.clockface with nanos := t.truncate.subsecond } = t.clockface := by
  have hnanos := t.nanos_lt
  unfold clockface displaySecond subsecond secondOfDay truncate
  simp only [Clockface.mk.injEq, true_and]
  omega

/-- Up to microseconds, an instant is the one that its date and its time of day make. -/
theorem ofCivil?_date (h : t.InRange) : ofCivil? t.date t.clockface 0 = some t.truncate := by
  rw [← clockface_truncate]
  exact ofCivil?_subsecond (t := t.truncate) h

theorem takeDate_dateChars (gap : Bool) (t : Instant) (rest : List Char) :
    takeDate gap (dateChars t.date ++ rest) = some (t.date, rest) := by
  obtain ⟨hmonth, hday⟩ := t.date_bounds
  have hchars : dateChars t.date ++ rest = yearChars t.date.year ++ '-' ::
      (padded 2 t.date.month ++ '-' :: (padded 2 t.date.day ++ rest)) := by
    rw [dateChars]
    simp -implicitDefEqProofs only [List.append_assoc, List.cons_append]
  have hmark : isBlank '-' = false := by decide
  unfold takeDate
  simp only [hchars, takeYear_yearChars, takeMark_cons gap hmark, takeField_padded hmonth,
    takeField_padded hday, Option.bind_eq_bind, Option.bind_some]
  rfl

/-- A time of day is read up to its fraction. -/
theorem takeTime_timeChars (gap : Bool) (t : Instant) (rest : List Char) :
    takeTime gap (timeChars t ++ rest) = (takeFraction rest).map fun (nanos, after) =>
      ({ t.clockface with nanos }, after) := by
  obtain ⟨hhour, hminute, hsecond, -⟩ := t.time_bounds
  have hchars : timeChars t ++ rest =
      padded 2 (t.secondOfDay / 3600) ++ ':' :: (padded 2 (t.secondOfDay / 60 % 60) ++
        ':' :: (padded 2 t.displaySecond ++ rest)) := by
    rw [timeChars]
    simp -implicitDefEqProofs only [List.append_assoc, List.cons_append]
  have hmark : isBlank ':' = false := by decide
  unfold takeTime
  simp only [hchars, takeField_padded hhour, takeField_padded hminute, takeField_padded hsecond,
    takeMark_cons gap hmark, Option.bind_eq_bind, Option.bind_some]
  cases takeFraction rest <;> rfl

/-- A time of day with six digits of its fraction. -/
theorem takeTime_micros (t : Instant) :
    takeTime false (timeChars t ++ '.' :: padded 6 (t.subsecond / 1000)) =
      some (t.clockface, []) := by
  have hend : ∀ c ∈ ([] : List Char).head?, c.isDigit = false := fun _ hc => nomatch hc
  have hfraction := takeFraction_padded (by decide) (by decide) t.time_bounds.2.2.2 hend
  rw [List.append_nil] at hfraction
  rw [takeTime_timeChars, hfraction]
  rfl

/-- The stored form is read as it is written. -/
theorem parseStored?_storageChars (h : t.InRange) :
    parseStored? (fun rest => some (trimStart rest)) t.storageChars = some t.truncate := by
  have hchars : t.storageChars = dateChars t.date ++ ' ' :: (timeChars t ++
      '.' :: padded 6 (t.subsecond / 1000)) := by
    rw [storageChars]
    simp -implicitDefEqProofs only [List.append_assoc, List.cons_append]
  have hblank : trimStart (' ' :: (timeChars t ++ '.' :: padded 6 (t.subsecond / 1000))) =
      timeChars t ++ '.' :: padded 6 (t.subsecond / 1000) := by
    show trimStart (timeChars t ++ '.' :: padded 6 (t.subsecond / 1000)) = _
    rw [timeChars]
    simp -implicitDefEqProofs only [List.append_assoc, List.cons_append]
    exact trimStart_padded _ _ _
  unfold parseStored?
  simp only [hchars, takeDate_dateChars, hblank, takeTime_micros, Option.bind_eq_bind,
    Option.bind_some, if_true]
  exact ofCivil?_date h

/-- Nothing is trimmed off a stored text. -/
theorem trim_storageChars (t : Instant) : trim t.storageChars = t.storageChars := by
  have hstart : trimStart t.storageChars = t.storageChars := by
    have hhead : ∀ year rest, trimStart (yearChars year ++ rest) = yearChars year ++ rest := by
      intro year rest
      unfold yearChars
      split
      · exact trimStart_padded _ _ _
      · split <;> exact trimStart_cons (by decide)
    rw [storageChars, dateChars]
    simp -implicitDefEqProofs only [List.append_assoc]
    exact hhead _ _
  unfold trim
  rw [hstart, storageChars, List.append_cons]
  exact trimEnd_padded _ _ _

/-- **A stored text is read back**, without the digits below a microsecond. -/
theorem parse?_storageText (h : t.InRange) : parse? t.storageText = some t.truncate := by
  unfold parse? storageText
  dsimp only
  rw [String.toList_ofList, trim_storageChars, parseStored?_storageChars h, Option.some_or]

theorem IsStorable.parse? (h : t.IsStorable) : Instant.parse? t.storageText = some t := by
  rw [parse?_storageText h.inRange, h.whole.truncate_eq]

theorem inRange_of_ofCivil? {d : Date} {c : Clockface} {offset : Int}
    (h : ofCivil? d c offset = some t) : t.InRange := by
  unfold ofCivil? at h
  split at h
  · exact of_decide_eq_true (Option.filter_eq_some_iff.mp h).2
  · cases h

theorem inRange_of_parseStored? {separator : List Char → Option (List Char)} {cs : List Char}
    (h : parseStored? separator cs = some t) : t.InRange := by
  simp only [parseStored?, Option.bind_eq_bind, Option.bind_eq_some_iff] at h
  obtain ⟨_, -, _, -, _, -, h⟩ := h
  split at h
  · exact inRange_of_ofCivil? h
  · cases h

theorem inRange_of_parseStrict? {cs : List Char} (h : parseStrict? cs = some t) : t.InRange := by
  unfold parseStrict? at h
  obtain ⟨_, -, h⟩ := Option.bind_eq_some_iff.mp h
  obtain ⟨_, -, h⟩ := Option.bind_eq_some_iff.mp h
  obtain ⟨_, -, h⟩ := Option.bind_eq_some_iff.mp h
  obtain ⟨_, -, h⟩ := Option.bind_eq_some_iff.mp h
  obtain ⟨_, -, h⟩ := Option.bind_eq_some_iff.mp h
  dsimp only at h
  -- The time follows each of the three separators.
  split at h
  case h_4 => cases h
  all_goals
    simp only [Option.bind_eq_bind, Option.bind_some, Option.bind_eq_some_iff] at h
    obtain ⟨_, -, _, -, _, -, _, -, _, -, _, -, _, -, h⟩ := h
    split at h
    · exact inRange_of_ofCivil? h
    · cases h

/-- **What is read lies in the years that are kept.** -/
theorem inRange_of_parse? {s : String} (h : Instant.parse? s = some t) : t.InRange := by
  unfold Instant.parse? at h
  dsimp only at h
  obtain h | ⟨-, h⟩ := Option.or_eq_some_iff.mp h
  · exact inRange_of_parseStored? h
  · obtain h | ⟨-, h⟩ := Option.or_eq_some_iff.mp h
    · exact inRange_of_parseStored? h
    · exact inRange_of_parseStrict? h

/-! ## 4. Texts of configuration -/

/-- A fraction of as many digits as are needed is read exactly. -/
theorem takeFraction_fractionChars {n : Nat} (h : n < 10 ^ 9) :
    takeFraction (fractionChars n ++ ['Z']) = some (n, ['Z']) := by
  have hend : ∀ c ∈ (['Z'] : List Char).head?, c.isDigit = false := by
    intro c hc
    cases hc
    rfl
  unfold fractionChars
  split
  · rename_i hzero
    rw [hzero]
    rfl
  split
  · rw [List.cons_append, takeFraction_padded (by decide) (by decide) (by omega) hend]
    simp only [Option.some_inj, Prod.mk.injEq, and_true]
    omega
  split
  · rw [List.cons_append, takeFraction_padded (by decide) (by decide) (by omega) hend]
    simp only [Option.some_inj, Prod.mk.injEq, and_true]
    omega
  · rw [List.cons_append, takeFraction_padded (by decide) (by decide) h hend, Nat.sub_self,
      Nat.pow_zero, Nat.mul_one]

/-- **A text of configuration is read back exactly**, leap seconds and all years included. -/
theorem parseLoose?_isoText (h : t.InRange) : parseLoose? t.isoText = some t := by
  have hsubsecond : t.subsecond < 10 ^ 9 := Nat.mod_lt _ (by decide)
  have hchars : t.isoText.toList = dateChars t.date ++ 'T' :: (timeChars t ++
      (fractionChars t.subsecond ++ ['Z'])) := by
    rw [isoText, String.toList_ofList]
    simp -implicitDefEqProofs only [List.append_assoc, List.cons_append]
  have hzone : takeZone (trimStart ['Z']) = some (0, []) := by decide
  unfold parseLoose?
  simp only [hchars, takeDate_dateChars, takeTime_timeChars, takeFraction_fractionChars hsubsecond,
    hzone, Option.bind_eq_bind, Option.bind_some, Option.map_some, List.all_nil, if_true]
  exact ofCivil?_subsecond h

end RowHistory.Instant
