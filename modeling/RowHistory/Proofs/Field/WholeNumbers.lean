import RowHistory.Proofs.Binary.LargeIntegers
import RowHistory.Proofs.Decimal.Literals
import RowHistory.Proofs.Field.RoundTrip

/-!
# Whole numbers as decimals

A whole number may come as a number or as a text that spells it, and a field of decimals reads both. This file
fixes

* that the spelling is read exactly at every scale, or not at all (`parseWithScale_intText`);
* that a number within a signed word is too (`decimalOfJson?_inInt64`);
* that a larger one is read as the number which the nearest double is written as (`decimalOfJson?_large`), so
  that it agrees with its spelling only if that is the number itself (`whole_numbers_and_spellings`).
-/

namespace RowHistory

open Sql (toOption_eq_some)
open Text

namespace Decimal

variable {x : Decimal} {n : Int} {scale : Nat}

/-! ## 1. Spellings -/

/-- The decimal is the whole number `n`, at the scale. -/
def IsWhole (x : Decimal) (n : Int) (scale : Nat) : Prop :=
  x.mantissa = n * 10 ^ scale ∧ x.scale = scale

theorem IsWhole.eq {y : Decimal} (hx : x.IsWhole n scale) (hy : y.IsWhole n scale) : x = y :=
  ext_parts (hx.1.trans hy.1.symm) (hx.2.trans hy.2.symm)

/-- The spelling of a whole number is a literal without a fraction. -/
theorem spells_intText (hn : n.natAbs < 2 ^ 127) :
    (⟨decide (n < 0), digits n.natAbs, []⟩ : Literal).Spells (trim (intText n).toList) := by
  have hchars := ofChars?_chars ⟨n, 0, fits_of_natAbs_lt hn, Nat.zero_le _⟩
  have htrim := trim_chars ⟨n, 0, fits_of_natAbs_lt hn, Nat.zero_le _⟩
  rw [Nat.pow_zero, Nat.div_one] at hchars
  rw [intText, String.toList_ofList]
  refine ofChars?_eq_some_iff.mp ?_
  exact (congrArg Literal.ofChars? htrim).trans hchars

theorem value_spelled (n : Int) : (⟨decide (n < 0), digits n.natAbs, []⟩ : Literal).value = n := by
  have habs : (⟨decide (n < 0), digits n.natAbs, []⟩ : Literal).absValue = n.natAbs := by
    rw [Literal.absValue_eq, List.append_nil, ← padded_zero, digitsValue_padded, List.length_nil, Nat.pow_zero,
      Nat.cast_one, div_one]
  unfold Literal.value
  rw [habs]
  by_cases hneg : n < 0
  · rw [if_pos (decide_eq_true hneg), ← Int.cast_natCast, Int.natCast_natAbs, abs_of_neg hneg, Int.cast_neg,
      neg_neg]
  · rw [if_neg (by simpa using hneg), ← Int.cast_natCast, Int.natCast_natAbs, abs_of_nonneg (not_lt.mp hneg)]

/-- **The spelling of a whole number is read exactly**, or not at all. -/
theorem parseWithScale_intText (hn : n.natAbs < 2 ^ 127) :
    parseWithScale (intText n) scale = .ok x ↔ x.IsWhole n scale := by
  have hspells := spells_intText hn
  have hwhole : roundAway ((⟨decide (n < 0), digits n.natAbs, []⟩ : Literal).value * (10 ^ scale : Nat)) =
      n * 10 ^ scale := by
    rw [value_spelled, tenPower_eq_natCast]
    exact_mod_cast roundAway_intCast (n * (10 ^ scale : Nat))
  have hcases := hspells.toDecimal_cases scale
  unfold parseWithScale
  rw [parseAt_of_spells hspells, Option.getD_some]
  rw [hwhole] at hcases
  obtain ⟨hlarge, heq⟩ | ⟨-, hover, heq⟩ | ⟨-, -, y, heq, hy⟩ := hcases
  · rw [heq]
    refine ⟨(nomatch ·), fun h => absurd x.scale_le ?_⟩
    rw [h.2]
    exact Nat.not_le.mpr hlarge
  · rw [heq]
    refine ⟨(nomatch ·), fun h => ?_⟩
    have hspelled : x.mantissa.natAbs < 2 ^ 127 := isSpelled_of_whole hn h.1
    rw [← h.1, Int.abs_eq_natAbs] at hover
    omega
  · rw [heq]
    exact ⟨fun h => Except.ok.inj h ▸ hy, fun h => congrArg Except.ok (IsWhole.eq hy h)⟩

end Decimal

namespace FieldType

variable {n : Int} {scale : Nat} {d : Decimal}

/-! ## 2. Numbers -/

theorem decimalOfJson?_intText (hn : n.natAbs < 2 ^ 127) :
    decimalOfJson? scale (.str (intText n)) = some d ↔ d.IsWhole n scale :=
  toOption_eq_some.trans (Decimal.parseWithScale_intText hn)

/-- **A number within a signed word is widened exactly.** -/
theorem decimalOfJson?_inInt64 (hn : InInt64 n) :
    decimalOfJson? scale (.int n) = some d ↔ d.IsWhole n scale := by
  have hint : Json.toInt64? (.int n) = some n := if_pos hn
  unfold decimalOfJson?
  rw [hint]
  refine toOption_eq_some.trans (Decimal.rescale_ofInt_iff ?_)
  unfold InInt64 int64Min int64Max at hn
  omega

/-- **A larger number is read as its double is written.** -/
theorem decimalOfJson?_large {k : Int} (hn : ¬ InInt64 n) (hk : k.natAbs < 2 ^ 127)
    (htext : (Double.ofInt n).plainText? = some (intText k)) :
    decimalOfJson? scale (.int n) = some d ↔ d.IsWhole k scale := by
  have hint : Json.toInt64? (.int n) = none := if_neg hn
  have hread : Decimal.ofDouble (Double.ofInt n) scale = Decimal.parseWithScale (intText k) scale := by
    unfold Decimal.ofDouble
    rw [htext]
  unfold decimalOfJson?
  rw [hint]
  refine toOption_eq_some.trans ?_
  rw [hread]
  exact Decimal.parseWithScale_intText hk

/-- A field of decimals holds what is read from a value other than null. -/
theorem ofJson_decimal {j : Json} (hj : j ≠ .null) {field : String} {v : Value} :
    (FieldType.decimal scale).ofJson field j = .ok v ↔ ∃ d, v = .decimal d ∧ decimalOfJson? scale j = some d := by
  have hvalue : (FieldType.decimal scale).valueOfJson? j = (decimalOfJson? scale j).map .decimal := rfl
  rw [ofJson_eq_ok hj, hvalue, Option.map_eq_some_iff]
  exact exists_congr fun d => and_comm.trans (and_congr_left' eq_comm)

/-- **A number of a word is read as a whole number**: itself, if it is within a signed word, and otherwise one
that is near to it. -/
theorem exists_decimalOfJson? (hlow : -2 ^ 63 ≤ n) (hhigh : n < 2 ^ 64) : ∃ k : Int,
    (n < 2 ^ 63 → k = n) ∧
    (2 ^ 63 ≤ n → (Double.ofInt n).plainText? = some (intText k) ∧ |k - n| ≤ 2048) ∧
    ∀ scale d, decimalOfJson? scale (.int n) = some d ↔ d.IsWhole k scale := by
  have hint : InInt64 n ↔ n < 2 ^ 63 := by
    unfold InInt64 int64Min int64Max
    omega
  obtain hsmall | hlarge := Int.lt_or_le n (2 ^ 63)
  · exact ⟨n, fun _ => rfl, fun h => absurd hsmall (Int.not_lt.mpr h),
      fun _ _ => decimalOfJson?_inInt64 (hint.mpr hsmall)⟩
  · obtain ⟨m, rfl⟩ := Int.eq_ofNat_of_zero_le (a := n) (by omega)
    obtain ⟨k, htext, hbelow, habove⟩ := Double.plainText?_ofInt_large (n := m) (by omega) (by omega)
    refine ⟨k, fun h => absurd hlarge (Int.not_le.mpr h), fun _ => ⟨htext, abs_le.mpr (by omega)⟩, fun _ _ => ?_⟩
    exact decimalOfJson?_large (mt hint.mp (Int.not_lt.mpr hlarge)) (by omega) htext

end FieldType

/-- **Whole numbers and their spellings.** A decimal field reads the spelling of an integer of sixty-four bits,
with a sign or without, as the integer itself, or not at all. So it reads an integer within a signed word. It
reads a larger one as the whole number that the nearest double is written as, at most 2048 away: the two agree
at all scales just if that number is the integer. -/
theorem whole_numbers_and_spellings {n : Int} (hlow : -2 ^ 63 ≤ n) (hhigh : n < 2 ^ 64) : ∃ k : Int,
    (n < 2 ^ 63 → k = n) ∧
    (2 ^ 63 ≤ n → (Double.ofInt n).plainText? = some (intText k) ∧ |k - n| ≤ 2048) ∧
    (∀ scale field v, (FieldType.decimal scale).ofJson field (.int n) = .ok v ↔
      ∃ d : Decimal, v = .decimal d ∧ d.mantissa = k * 10 ^ scale ∧ d.scale = scale) ∧
    (∀ scale field v, (FieldType.decimal scale).ofJson field (.str (intText n)) = .ok v ↔
      ∃ d : Decimal, v = .decimal d ∧ d.mantissa = n * 10 ^ scale ∧ d.scale = scale) ∧
    ((∀ scale field v, (FieldType.decimal scale).ofJson field (.int n) = .ok v ↔
      (FieldType.decimal scale).ofJson field (.str (intText n)) = .ok v) ↔ k = n) := by
  obtain ⟨k, hexact, hnear, hread⟩ := FieldType.exists_decimalOfJson? hlow hhigh
  have hnumber : ∀ scale field v, (FieldType.decimal scale).ofJson field (.int n) = .ok v ↔
      ∃ d : Decimal, v = .decimal d ∧ d.IsWhole k scale := fun scale field v => by
    simp only [FieldType.ofJson_decimal (Json.noConfusion : Json.int n ≠ .null), hread]
  have hspelling : ∀ scale field v, (FieldType.decimal scale).ofJson field (.str (intText n)) = .ok v ↔
      ∃ d : Decimal, v = .decimal d ∧ d.IsWhole n scale := fun scale field v => by
    simp only [FieldType.ofJson_decimal (Json.noConfusion : Json.str (intText n) ≠ .null),
      FieldType.decimalOfJson?_intText (n := n) (by omega)]
  refine ⟨k, hexact, hnear, hnumber, hspelling, fun hagree => ?_, fun heq scale field v => ?_⟩
  · -- Every integer of a word is a decimal without fraction digits.
    have hfits : Decimal.Fits n := Decimal.fits_of_natAbs_lt (by omega)
    have hself : (⟨n, 0, hfits, Nat.zero_le _⟩ : Decimal).IsWhole n 0 := ⟨(Int.mul_one n).symm, rfl⟩
    obtain ⟨d, hd, hwhole⟩ := (hnumber 0 "" _).mp ((hagree 0 "" _).mpr ((hspelling 0 "" _).mpr ⟨_, rfl, hself⟩))
    rw [← Value.decimal.inj hd] at hwhole
    rw [← Int.mul_one k]
    exact hwhole.1.symm
  · rw [hnumber, hspelling, heq]

/-- The least and the greatest integer of a word. -/
theorem extreme_words_read :
    (∃ d : Decimal, d.mantissa = -2 ^ 63 * 10 ^ 19 ∧
      (FieldType.decimal 19).ofJson "n" (.int (-2 ^ 63)) = .ok (.decimal d) ∧
      (FieldType.decimal 19).ofJson "n" (.str (intText (-2 ^ 63))) = .ok (.decimal d)) ∧
    ∃ d : Decimal, |d.mantissa - (2 ^ 64 - 1)| ≤ 2048 ∧
      (FieldType.decimal 0).ofJson "n" (.int (2 ^ 64 - 1)) = .ok (.decimal d) := by
  constructor
  · obtain ⟨k, hexact, -, hnumber, hspelling, -⟩ :=
      whole_numbers_and_spellings (n := -2 ^ 63) (by decide) (by decide)
    obtain rfl := hexact (by decide)
    refine ⟨⟨-2 ^ 63 * 10 ^ 19, 19, by decide, by decide⟩, rfl, ?_, ?_⟩
    · exact (hnumber 19 "n" _).mpr ⟨_, rfl, rfl, rfl⟩
    · exact (hspelling 19 "n" _).mpr ⟨_, rfl, rfl, rfl⟩
  · obtain ⟨k, -, hnear, hnumber, -⟩ :=
      whole_numbers_and_spellings (n := 2 ^ 64 - 1) (by decide) (by decide)
    have hk := (hnear (by decide)).2
    have hfits : Decimal.Fits k := by
      have := abs_le.mp hk
      exact Decimal.fits_of_natAbs_lt (by omega)
    exact ⟨⟨k, 0, hfits, Nat.zero_le _⟩, hk, (hnumber 0 "n" _).mpr ⟨_, rfl, (Int.mul_one k).symm, rfl⟩⟩

/-- A large number differs from its spelling, and may be read where the spelling overflows. -/
theorem large_numbers_differ_from_spellings :
    ((FieldType.decimal 0).ofJson "p" (.int 9223372036854775809) =
        .ok (.decimal ⟨9223372036854776000, 0, by decide, by decide⟩) ∧
      (FieldType.decimal 0).ofJson "p" (.str "9223372036854775809") =
        .ok (.decimal ⟨9223372036854775809, 0, by decide, by decide⟩)) ∧
    (FieldType.decimal 19).ofJson "p" (.int 17014118346046923174) =
        .ok (.decimal ⟨17014118346046923000 * 10 ^ 19, 19, by decide, by decide⟩) ∧
      (FieldType.decimal 19).ofJson "p" (.str "17014118346046923174") =
        .error (.invalidValue "p" (.decimal 19) "string") := by
  decide +kernel

end RowHistory
