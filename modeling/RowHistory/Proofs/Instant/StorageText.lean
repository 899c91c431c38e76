import RowHistory.Instant.Printer
import RowHistory.Proofs.Instant.Order
import Mathlib.Data.String.Basic

/-!
# The order of stored texts

Instants are stored as text, and the database compares the texts. In the years 0 to 9999 all parts
have a fixed width, the greatest in front, so that the order of the texts is the order of the
instants. This file fixes

* the order of padded numerals in front of other text (`padded_append_lt`);
* the instants that can be stored (`Instant.IsStorable`), and that storing keeps their order
  (`storageText_lt_iff`) and tells them apart (`storageText_inj`).
-/

namespace RowHistory.Text

variable {w n m : Nat} {xs ys : List Char}

/-! ## 1. Numerals of a fixed width -/

theorem digitChar_lt (h : n < m) (hm : m < 10) : n.digitChar < m.digitChar := by
  show n.digitChar.toNat < m.digitChar.toNat
  rw [Nat.toNat_digitChar_of_lt_ten (by omega), Nat.toNat_digitChar_of_lt_ten hm]
  omega

/-- The last digit of a padded numeral. -/
theorem padded_succ (hw : 0 < w) : padded (w + 1) n = padded w (n / 10) ++ [(n % 10).digitChar] := by
  unfold padded digits
  by_cases h : n < 10
  · have hdiv : n / 10 = 0 := by omega
    rw [Nat.toDigits_of_lt_base h, hdiv, Nat.mod_eq_of_lt h]
    show List.replicate w '0' ++ _ = (List.replicate (w - 1) '0' ++ ['0']) ++ _
    rw [← List.replicate_succ', Nat.sub_add_cancel hw]
  · rw [Nat.toDigits_of_base_le (by decide) (Nat.le_of_not_lt h), List.length_append,
      List.length_singleton, Nat.add_sub_add_right, List.append_assoc]

/-- **The order of padded numerals** of one width is that of their numbers, whatever follows. -/
theorem padded_lt (hn : n < 10 ^ w) (hm : m < 10 ^ w) (h : n < m) :
    padded w n ++ xs < padded w m ++ ys := by
  induction w generalizing n m xs ys with
  | zero => omega
  | succ w ih =>
    cases w with
    | zero =>
      have hn' : n < 10 := hn
      have hm' : m < 10 := hm
      unfold padded digits
      rw [Nat.toDigits_of_lt_base hn', Nat.toDigits_of_lt_base hm']
      exact List.Lex.rel (digitChar_lt h hm')
    | succ w =>
      rw [padded_succ (Nat.succ_pos w), padded_succ (Nat.succ_pos w), List.append_assoc,
        List.append_assoc]
      obtain hlt | heq : n / 10 < m / 10 ∨ n / 10 = m / 10 := by omega
      · refine ih ?_ ?_ hlt
        · rw [Nat.pow_succ] at hn; omega
        · rw [Nat.pow_succ] at hm; omega
      · rw [heq]
        exact List.append_left_lt (List.Lex.rel (digitChar_lt (by omega) (by omega)))

theorem padded_append_lt (hn : n < 10 ^ w) (hm : m < 10 ^ w) (h : n < m ∨ (n = m ∧ xs < ys)) :
    padded w n ++ xs < padded w m ++ ys := by
  obtain hlt | ⟨rfl, hlt⟩ := h
  · exact padded_lt hn hm hlt
  · exact List.append_left_lt hlt

/-- Three parts with a mark behind the first two, the greatest first. -/
theorem threeParts_lt {k n₁ n₂ n₃ m₁ m₂ m₃ : Nat} {c : Char} (hn₁ : n₁ < 10 ^ k) (hm₁ : m₁ < 10 ^ k)
    (hn₂ : n₂ < 100) (hm₂ : m₂ < 100) (hn₃ : n₃ < 100) (hm₃ : m₃ < 100)
    (h : n₁ < m₁ ∨ (n₁ = m₁ ∧ (n₂ < m₂ ∨ (n₂ = m₂ ∧ (n₃ < m₃ ∨ (n₃ = m₃ ∧ xs < ys)))))) :
    padded k n₁ ++ c :: (padded 2 n₂ ++ c :: (padded 2 n₃ ++ xs)) <
      padded k m₁ ++ c :: (padded 2 m₂ ++ c :: (padded 2 m₃ ++ ys)) := by
  refine padded_append_lt hn₁ hm₁ (h.imp_right (And.imp_right fun h => .cons ?_))
  refine padded_append_lt hn₂ hm₂ (h.imp_right (And.imp_right fun h => .cons ?_))
  exact padded_append_lt hn₃ hm₃ h

end RowHistory.Text

namespace RowHistory.Instant

open Text

variable {a b : Instant}

/-! ## 2. Instants -/

/-- The years in which stored texts of instants are ordered as the instants are. -/
def InYears (t : Instant) : Prop :=
  0 ≤ t.date.year ∧ t.date.year ≤ 9999

instance (t : Instant) : Decidable t.InYears :=
  inferInstanceAs (Decidable (_ ∧ _))

/-- An instant that its stored text gives back: whole microseconds in the years 0 to 9999. -/
structure IsStorable (t : Instant) : Prop where
  whole : t.IsWhole
  year : 0 ≤ t.date.year ∧ t.date.year ≤ 9999

/-- The time of day of an earlier instant of the same day is less: by the hour, the minute, the
second that is written, or the microsecond. -/
theorem timeOfDay_lt (ha : a.IsWhole) (hb : b.IsWhole) (hday : a.seconds / 86400 = b.seconds / 86400)
    (h : a < b) :
    a.secondOfDay / 3600 < b.secondOfDay / 3600 ∨ (a.secondOfDay / 3600 = b.secondOfDay / 3600 ∧
      (a.secondOfDay / 60 % 60 < b.secondOfDay / 60 % 60 ∨
        (a.secondOfDay / 60 % 60 = b.secondOfDay / 60 % 60 ∧
          (a.displaySecond < b.displaySecond ∨ (a.displaySecond = b.displaySecond ∧
            a.subsecond / 1000 < b.subsecond / 1000))))) := by
  have hnanos := b.nanos_lt
  unfold IsWhole at ha hb
  unfold displaySecond subsecond secondOfDay
  generalize hu : (a.seconds % 86400).toNat = u
  generalize hv : (b.seconds % 86400).toNat = v
  have hlt : u < v ∨ (u = v ∧ a.nanos < b.nanos) := by
    rw [lt_iff] at h
    omega
  have hleap : 1000000000 ≤ a.nanos → u % 60 = 59 := by
    intro hl
    have := a.leap_ends_minute hl
    omega
  clear h hu hv hday
  obtain hlt | ⟨rfl, hlt⟩ := hlt
  · have hminute : u / 60 < v / 60 ∨ (u / 60 = v / 60 ∧ u % 60 < v % 60) := by omega
    omega
  · omega

theorem date_bounds (t : Instant) : t.date.month < 100 ∧ t.date.day < 100 := by
  obtain ⟨hmonth, hday⟩ := Date.ofDayNumber_bounds (t.seconds / 86400)
  exact ⟨Nat.lt_of_le_of_lt hmonth (by decide), Nat.lt_of_le_of_lt hday (by decide)⟩

theorem time_bounds (t : Instant) : t.secondOfDay / 3600 < 100 ∧ t.secondOfDay / 60 % 60 < 100 ∧
    t.displaySecond < 100 ∧ t.subsecond / 1000 < 10 ^ 6 := by
  have hnanos := t.nanos_lt
  unfold displaySecond subsecond secondOfDay
  omega

theorem IsStorable.year_lt (h : a.IsStorable) : a.date.year.natAbs < 10 ^ 4 := by
  have hyear := h.year
  omega

theorem yearChars_eq {y : Int} (h : 0 ≤ y ∧ y ≤ 9999) : yearChars y = padded 4 y.natAbs :=
  if_pos h

theorem IsStorable.storageChars_eq (h : a.IsStorable) : a.storageChars =
    padded 4 a.date.year.natAbs ++ '-' :: (padded 2 a.date.month ++ '-' :: (padded 2 a.date.day ++
      ' ' :: (padded 2 (a.secondOfDay / 3600) ++ ':' :: (padded 2 (a.secondOfDay / 60 % 60) ++
        ':' :: (padded 2 a.displaySecond ++ '.' :: padded 6 (a.subsecond / 1000)))))) := by
  rw [storageChars, dateChars, timeChars, yearChars_eq h.year]
  simp -implicitDefEqProofs only [List.append_assoc, List.cons_append]

theorem day_le (h : a < b) : a.seconds / 86400 < b.seconds / 86400 ∨
    a.seconds / 86400 = b.seconds / 86400 := by
  rw [lt_iff] at h
  omega

theorem storageChars_lt (ha : a.IsStorable) (hb : b.IsStorable) (h : a < b) :
    a.storageChars < b.storageChars := by
  obtain ⟨hmonth, hday⟩ := a.date_bounds
  obtain ⟨hmonth', hday'⟩ := b.date_bounds
  obtain ⟨hhour, hminute, hsecond, hmicro⟩ := a.time_bounds
  obtain ⟨hhour', hminute', hsecond', hmicro'⟩ := b.time_bounds
  rw [ha.storageChars_eq, hb.storageChars_eq]
  refine threeParts_lt ha.year_lt hb.year_lt hmonth hmonth' hday hday' ?_
  obtain hlt | heq := day_le h
  · have hbefore : a.date.Before b.date := Date.ofDayNumber_before hlt
    obtain hy | ⟨hy, hm | ⟨hm, hd⟩⟩ := hbefore
    · exact .inl (Int.natAbs_lt_natAbs_of_nonneg_of_lt ha.year.1 hy)
    · exact .inr ⟨congrArg Int.natAbs hy, .inl hm⟩
    · exact .inr ⟨congrArg Int.natAbs hy, .inr ⟨hm, .inl hd⟩⟩
  · have hdate : a.date = b.date := congrArg Date.ofDayNumber heq
    rw [hdate]
    refine .inr ⟨rfl, .inr ⟨rfl, .inr ⟨rfl, .cons ?_⟩⟩⟩
    refine threeParts_lt hhour hhour' hminute hminute' hsecond hsecond' ?_
    refine (timeOfDay_lt ha.whole hb.whole heq h).imp_right (And.imp_right fun hrest => ?_)
    refine hrest.imp_right (And.imp_right fun hrest => ?_)
    refine hrest.imp_right (And.imp_right fun hrest => .cons ?_)
    rw [← List.append_nil (padded 6 (a.subsecond / 1000)),
      ← List.append_nil (padded 6 (b.subsecond / 1000))]
    exact padded_lt hmicro hmicro' hrest

theorem storageText_lt (ha : a.IsStorable) (hb : b.IsStorable) (h : a < b) :
    a.storageText < b.storageText := by
  rw [String.lt_iff_toList_lt]
  unfold storageText
  rw [String.toList_ofList, String.toList_ofList]
  exact storageChars_lt ha hb h

/-- **The order of stored texts is the order of the instants.** -/
theorem compare_storageText (ha : a.IsStorable) (hb : b.IsStorable) :
    compare a.storageText b.storageText = compare a b := by
  rcases lt_trichotomy a b with h | rfl | h
  · rw [compare_lt_iff_lt.mpr h]
    exact compare_lt_iff_lt.mpr (storageText_lt ha hb h)
  · have hself : compare a a = .eq := compare_eq_iff_eq.mpr rfl
    rw [hself]
    exact compare_eq_iff_eq.mpr rfl
  · rw [compare_gt_iff_gt.mpr h]
    exact compare_gt_iff_gt.mpr (storageText_lt hb ha h)

theorem storageText_inj (ha : a.IsStorable) (hb : b.IsStorable)
    (h : a.storageText = b.storageText) : a = b := by
  have hcompare := compare_storageText ha hb
  rw [compare_eq_iff_eq.mpr h] at hcompare
  exact compare_eq_iff_eq.mp hcompare.symm

end RowHistory.Instant
