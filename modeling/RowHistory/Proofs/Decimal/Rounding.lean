import RowHistory.Proofs.Decimal.Overflow
import Mathlib.Data.Rat.Floor
import Mathlib.Tactic.FieldSimp
import Mathlib.Tactic.Linarith

/-!
# Rounding half away from zero

A decimal that loses fraction digits is rounded to the nearest number of its new scale, and a half goes away
from zero. This file fixes

* what that means for a rational number (`NearestAway`), that there is one such whole number for each
  (`nearestAway_iff`), and how it is had from a quotient and its remainder (`roundAway_div`);
* that the narrowing of a mantissa is exact in 128 bits (`narrows_exactly`) and rounds so
  (`narrowed_eq_roundAway`);
* that a change of scale is exact where it widens and rounds where it narrows (`rescale_rounds`).
-/

namespace RowHistory.Decimal

/-! ## 1. The nearest whole number -/

/-- `n` is the whole number nearest to `q`, and of two that are equally near the one farther from zero. -/
def NearestAway (q : ℚ) (n : ℤ) : Prop :=
  ∀ k : ℤ, |q - n| ≤ |q - k| ∧ (|q - k| = |q - n| → |k| ≤ |n|)

/-- The nearest whole number, a half going away from zero. -/
def roundAway (q : ℚ) : ℤ :=
  if q < 0 then -⌊1 / 2 - q⌋ else ⌊q + 1 / 2⌋

section Nearest

variable {q : ℚ} {n m : ℤ}

theorem NearestAway.neg (h : NearestAway q n) : NearestAway (-q) (-n) := by
  have habs : ∀ k : ℤ, |(-q) - (k : ℤ)| = |q - (-k : ℤ)| := by
    intro k
    rw [← abs_neg, Int.cast_neg]
    congr 1
    ring
  intro k
  rw [habs, habs, neg_neg, abs_neg, ← abs_neg k]
  exact h (-k)

theorem roundAway_neg (q : ℚ) : roundAway (-q) = -roundAway q := by
  unfold roundAway
  obtain hneg | rfl | hpos := lt_trichotomy q 0
  · rw [if_pos hneg, if_neg (by linarith), neg_neg, neg_add_eq_sub]
  · rw [neg_zero, if_neg (lt_irrefl _)]
    norm_num
  · rw [if_pos (by linarith), if_neg (by linarith), sub_neg_eq_add, add_comm]

theorem nearestAway_of_nonneg (hq : 0 ≤ q) (hlow : n - 1 / 2 ≤ q) (hhigh : q < n + 1 / 2) :
    NearestAway q n := by
  have hn : 0 ≤ n := by
    have : (-1 : ℚ) < n := by linarith
    have : -1 < n := by exact_mod_cast this
    omega
  have hnear : |q - n| ≤ 1 / 2 := abs_le.mpr ⟨by linarith, by linarith⟩
  intro k
  obtain hk | rfl | hk := lt_trichotomy k n
  · have hk' : (k : ℚ) ≤ n - 1 := by exact_mod_cast Int.le_sub_one_of_lt hk
    have hdist : |q - k| = q - k := abs_of_nonneg (by linarith)
    refine ⟨by linarith, fun htie => ?_⟩
    -- A tie below `n` is not below zero, since `q` is not.
    have hk0 : (-1 : ℚ) < k := by linarith
    have hk0' : -1 < k := by exact_mod_cast hk0
    rw [abs_of_nonneg hn, abs_of_nonneg (by omega)]
    omega
  · exact ⟨le_refl _, fun _ => le_refl _⟩
  · have hk' : (n : ℚ) + 1 ≤ k := by exact_mod_cast hk
    have hdist : |q - k| = k - q := by rw [abs_sub_comm, abs_of_nonneg (by linarith)]
    exact ⟨by linarith, fun htie => by linarith⟩

theorem nearestAway_roundAway (q : ℚ) : NearestAway q (roundAway q) := by
  have hnonneg : ∀ p : ℚ, 0 ≤ p → NearestAway p (roundAway p) := by
    intro p hp
    have hlow := Int.floor_le (p + 1 / 2)
    have hhigh := Int.lt_floor_add_one (p + 1 / 2)
    unfold roundAway
    rw [if_neg (not_lt.mpr hp)]
    exact nearestAway_of_nonneg hp (by linarith) (by linarith)
  obtain hneg | hpos := lt_or_ge q 0
  · have h := (hnonneg (-q) (by linarith)).neg
    rwa [roundAway_neg, neg_neg, neg_neg] at h
  · exact hnonneg q hpos

theorem NearestAway.unique (hm : NearestAway q m) (hn : NearestAway q n) : m = n := by
  have hdist : |q - m| = |q - n| := le_antisymm (hm n).1 (hn m).1
  have habs : |m| = |n| := le_antisymm ((hn m).2 hdist) ((hm n).2 hdist.symm)
  obtain heq | heq := abs_eq_abs.mp habs
  · exact heq
  -- Opposite numbers are equally near to zero only, and there zero itself is nearer.
  · obtain hsub | hsub := abs_eq_abs.mp hdist
    · have : (m : ℚ) = n := by linarith
      exact_mod_cast this
    · have hcast : (m : ℚ) = -n := by exact_mod_cast heq
      have hq : q = 0 := by linarith
      have hzero : |(n : ℚ)| ≤ 0 := by
        have := (hn 0).1
        rwa [hq, zero_sub, abs_neg, Int.cast_zero, sub_zero, abs_zero] at this
      have hn0 : n = 0 := by exact_mod_cast abs_nonpos_iff.mp hzero
      omega

/-- **Each rational number has one nearest whole number.** -/
theorem nearestAway_iff : NearestAway q n ↔ n = roundAway q := by
  constructor
  · exact fun h => h.unique (nearestAway_roundAway q)
  · rintro rfl
    exact nearestAway_roundAway q

end Nearest

/-- **A quotient is rounded by its remainder**: up from half the divisor on. -/
theorem roundAway_div (a : Nat) {d : Nat} (hd : 0 < d) :
    roundAway ((a : ℚ) / d) = (if d ≤ a % d * 2 then a / d + 1 else a / d : Nat) := by
  have hd' : (0 : ℚ) < d := by exact_mod_cast hd
  have hparts : (a : ℚ) = d * (a / d : Nat) + (a % d : Nat) := by exact_mod_cast (Nat.div_add_mod a d).symm
  have hquotient : (a : ℚ) / d = (a / d : Nat) + (a % d : Nat) / d := by
    rw [div_eq_iff hd'.ne', add_mul, div_mul_cancel₀ _ hd'.ne', mul_comm, ← hparts]
  have hlt : ((a % d : Nat) : ℚ) / d < 1 := by
    rw [div_lt_one hd']
    exact_mod_cast Nat.mod_lt a hd
  have hnonneg : (0 : ℚ) ≤ ((a % d : Nat) : ℚ) / d := by positivity
  have hhalf : d ≤ a % d * 2 ↔ (1 / 2 : ℚ) ≤ ((a % d : Nat) : ℚ) / d := by
    rw [div_le_div_iff₀ two_pos hd', one_mul]
    exact_mod_cast Iff.rfl
  unfold roundAway
  rw [hquotient, if_neg (not_lt.mpr (by positivity)), Int.floor_eq_iff]
  split
  · rename_i hle
    have := hhalf.mp hle
    rw [Int.cast_natCast, Nat.cast_add, Nat.cast_one]
    constructor <;> linarith
  · rename_i hnot
    have := not_le.mp (mt hhalf.mpr hnot)
    rw [Int.cast_natCast]
    constructor <;> linarith

theorem natCast_pow_ne_zero (n : Nat) : ((10 ^ n : Nat) : ℚ) ≠ 0 :=
  Nat.cast_ne_zero.mpr (Nat.pow_pos (by decide)).ne'

theorem roundAway_intCast (n : ℤ) : roundAway n = n := by
  have hnat : ∀ a : Nat, roundAway a = a := by
    intro a
    have h := roundAway_div a Nat.one_pos
    rwa [Nat.cast_one, div_one, Nat.mod_one, Nat.zero_mul, if_neg (by decide), Nat.div_one] at h
  obtain ⟨a, rfl | rfl⟩ := n.eq_nat_or_neg
  · exact_mod_cast hnat a
  · rw [Int.cast_neg, roundAway_neg]
    exact congrArg _ (by exact_mod_cast hnat a)

/-! ## 2. Narrowing in 128 bits -/

/-- No operation of a narrowing overflows: the factor, the quotient, the remainder and the quotient moved
away from zero are signed 128-bit integers, and the doubled remainder is an unsigned one. -/
structure NarrowsExactly (m factor : Int) : Prop where
  factor_fits : Fits factor
  quotient_fits : Fits (m.tdiv factor)
  remainder_fits : Fits (m.tmod factor)
  doubled_lt : (m.tmod factor).natAbs * 2 < 2 ^ 128
  moved_fits : Fits (m.tdiv factor + m.sign)

/-- **Narrowing does not overflow** for any mantissa. -/
theorem narrows_exactly {m : Int} {d : Nat} (hm : Fits m) (hd : 2 ≤ d) (hlt : d < 2 ^ 127) :
    NarrowsExactly m d := by
  have hquotient : (m.tdiv d).natAbs ≤ 2 ^ 126 := by
    have hle : m.natAbs / d ≤ m.natAbs / 2 := Nat.div_le_div_left hd two_pos
    unfold Fits at hm
    rw [Int.natAbs_tdiv, Int.natAbs_natCast]
    show m.natAbs / d ≤ _
    omega
  have hremainder : (m.tmod d).natAbs < d := by
    rw [Int.natAbs_tmod, Int.natAbs_natCast]
    exact Nat.mod_lt _ (by omega)
  have hsign : m.sign.natAbs ≤ 1 := by
    rw [Int.natAbs_sign]
    split <;> decide
  refine ⟨?_, ?_, ?_, ?_, ?_⟩
  · exact fits_natCast.mpr hlt
  · exact fits_of_natAbs_lt (by omega)
  · exact fits_of_natAbs_lt (by omega)
  · omega
  · exact fits_of_natAbs_lt (by omega)

/-- Where no operation overflows, none wraps. -/
theorem NarrowsExactly.narrowed_eq {m : Int} {d : Nat} (h : NarrowsExactly m d) :
    narrowed m d = if d ≤ m.natAbs % d * 2 then m.tdiv d + m.sign else m.tdiv d := by
  unfold narrowed
  dsimp only
  rw [wrap_of_fits h.quotient_fits, wrap_of_fits h.remainder_fits, wrapUnsigned_of_lt h.doubled_lt,
    wrap_of_fits h.moved_fits, Int.natAbs_natCast, Int.natAbs_tmod, Int.natAbs_natCast]

/-- **Narrowing rounds half away from zero.** -/
theorem narrowed_eq_roundAway {m : Int} {d : Nat} (hm : Fits m) (hd : 2 ≤ d) (hlt : d < 2 ^ 127) :
    narrowed m d = roundAway ((m : ℚ) / d) := by
  have hnat : ∀ a : Nat, (if d ≤ a % d * 2 then (a : Int).tdiv d + (a : Int).sign else (a : Int).tdiv d) =
      roundAway ((a : ℚ) / d) := by
    intro a
    rw [roundAway_div a (by omega), ← Int.ofNat_tdiv]
    split
    · rename_i hle
      have hpos : 0 < a := Nat.pos_of_ne_zero (by rintro rfl; rw [Nat.zero_mod] at hle; omega)
      rw [Int.sign_eq_one_of_pos (by omega)]
      rfl
    · rfl
  rw [(narrows_exactly hm hd hlt).narrowed_eq]
  -- The quotient goes towards zero, so a negative mantissa mirrors its magnitude.
  obtain ⟨a, rfl | rfl⟩ := m.eq_nat_or_neg
  · rw [Int.natAbs_natCast, Int.cast_natCast]
    exact hnat a
  · rw [Int.natAbs_neg, Int.natAbs_natCast, Int.cast_neg, Int.cast_natCast, neg_div, roundAway_neg, ← hnat a,
      Int.neg_tdiv, Int.sign_neg]
    split
    · exact (neg_add _ _).symm
    · rfl

/-! ## 3. Changes of scale -/

variable {x y : Decimal} {s : Nat}

/-- **A narrower scale rounds the mantissa**, which then fits. -/
theorem rescale_narrow (h : s < x.scale) : NarrowsExactly x.mantissa (10 ^ (x.scale - s)) ∧
    ∃ y : Decimal, x.rescale s = .ok y ∧ y.scale = s ∧
      y.mantissa = roundAway ((x.mantissa : ℚ) / (10 ^ (x.scale - s) : Nat)) := by
  have htwo : 2 ≤ 10 ^ (x.scale - s) :=
    Nat.le_trans (by decide) (Nat.pow_le_pow_right (by decide) (Nat.sub_pos_of_lt h))
  have hlt := tenPower_lt (Nat.le_trans (Nat.sub_le x.scale s) x.scale_le)
  have hscale := Nat.le_trans (Nat.le_of_lt h) x.scale_le
  rw [rescale_of_lt h, tenPower_eq_natCast, ofParts_of_fits (fits_narrowed _ _) hscale]
  exact ⟨narrows_exactly x.mantissa_fits htwo hlt, _, rfl, rfl,
    narrowed_eq_roundAway x.mantissa_fits htwo hlt⟩

theorem scale_le_of_rescale (h : x.rescale s = .ok y) : s ≤ maxScale := by
  by_contra hlarge
  rw [rescale_of_scale_gt (Nat.not_le.mp hlarge)] at h
  cases h

theorem roundAway_nonneg {q : ℚ} (h : 0 ≤ q) : 0 ≤ roundAway q := by
  unfold roundAway
  rw [if_neg (not_lt.mpr h)]
  exact Int.floor_nonneg.mpr (by linarith)

theorem roundAway_nonpos {q : ℚ} (h : q ≤ 0) : roundAway q ≤ 0 := by
  have := roundAway_nonneg (neg_nonneg.mpr h)
  rw [roundAway_neg] at this
  omega

/-- The sign does not flip. -/
theorem rescale_sign (h : x.rescale s = .ok y) :
    (0 ≤ x.mantissa → 0 ≤ y.mantissa) ∧ (x.mantissa ≤ 0 → y.mantissa ≤ 0) := by
  obtain hlt | hle := Nat.lt_or_ge s x.scale
  · have hpow : (0 : ℚ) ≤ (10 ^ (x.scale - s) : Nat) := Nat.cast_nonneg _
    obtain ⟨-, z, hz, -, hmantissa⟩ := rescale_narrow hlt
    cases hz.symm.trans h
    rw [hmantissa]
    exact ⟨fun hx => roundAway_nonneg (div_nonneg (Int.cast_nonneg hx) hpow),
      fun hx => roundAway_nonpos (div_nonpos_of_nonpos_of_nonneg (Int.cast_nonpos.mpr hx) hpow)⟩
  · have hpow : (0 : Int) ≤ 10 ^ (s - x.scale) := Int.pow_nonneg (by decide)
    rw [rescale_of_le (scale_le_of_rescale h) hle] at h
    rw [(ofParts_ok h).1]
    exact ⟨fun hx => mul_nonneg hx hpow, fun hx => mul_nonpos_of_nonpos_of_nonneg hx hpow⟩

/-- **What was widened is narrowed back** to the same decimal. -/
theorem rescale_rescale (hle : x.scale ≤ s) (h : x.rescale s = .ok y) : y.rescale x.scale = .ok x := by
  obtain heq | hlt := Nat.eq_or_lt_of_le hle
  · subst heq
    rw [rescale_self] at h
    cases h
    exact rescale_self x
  · rw [rescale_of_le (scale_le_of_rescale h) hle] at h
    obtain ⟨hmantissa, hscale⟩ := ofParts_ok h
    obtain ⟨-, z, hz, hback, hrounded⟩ := rescale_narrow (x := y) (s := x.scale) (by omega)
    rw [hmantissa, hscale, tenPower_eq_natCast, Int.cast_mul, Int.cast_natCast,
      mul_div_cancel_right₀ _ (natCast_pow_ne_zero _), roundAway_intCast] at hrounded
    rw [hz, ext_parts hrounded hback]

/-- **A change of scale is exact where it widens and rounds half away from zero where it narrows.** Only the
product of a widening can overflow, which is reported. -/
theorem rescale_rounds (x : Decimal) (s : Nat) :
    (x.rescale s = .error (.scaleTooLarge s) ↔ 28 < s) ∧
    (x.scale ≤ s → s ≤ 28 → Fits (10 ^ (s - x.scale)) ∧
      (x.rescale s = .error .overflow ↔ ¬ Fits (x.mantissa * 10 ^ (s - x.scale))) ∧
      (Fits (x.mantissa * 10 ^ (s - x.scale)) →
        ∃ y, x.rescale s = .ok y ∧ y.mantissa = x.mantissa * 10 ^ (s - x.scale) ∧ y.scale = s)) ∧
    (s < x.scale → NarrowsExactly x.mantissa (10 ^ (x.scale - s)) ∧
      ∃ y, x.rescale s = .ok y ∧ y.scale = s ∧
        ∀ n : ℤ, NearestAway ((x.mantissa : ℚ) / (10 ^ (x.scale - s) : Nat)) n ↔ n = y.mantissa) ∧
    (∀ y, x.rescale s = .ok y →
      (0 ≤ x.mantissa → 0 ≤ y.mantissa) ∧ (x.mantissa ≤ 0 → y.mantissa ≤ 0)) ∧
    (∀ y, x.scale ≤ s → x.rescale s = .ok y → y.rescale x.scale = .ok x) := by
  refine ⟨⟨fun h => ?_, rescale_of_scale_gt⟩, fun hle hs => ?_, fun hlt => ?_, fun y => rescale_sign,
    fun y => rescale_rescale⟩
  · by_contra hsmall
    obtain hlt | hle := Nat.lt_or_ge s x.scale
    · obtain ⟨-, y, hy, -⟩ := rescale_narrow hlt
      rw [hy] at h
      cases h
    · have hs : s ≤ maxScale := Nat.not_lt.mp hsmall
      rw [rescale_of_le hs hle, ofParts_error hs] at h
      cases h.1
  · rw [rescale_of_le hs hle]
    refine ⟨fits_tenPower (Nat.le_trans (Nat.sub_le s x.scale) hs), ?_,
      fun hfits => ⟨_, ofParts_of_fits hfits hs, rfl, rfl⟩⟩
    rw [ofParts_error hs]
    exact ⟨fun h => h.2, fun h => ⟨rfl, h⟩⟩
  · obtain ⟨hexact, y, hy, hscale, hmantissa⟩ := rescale_narrow hlt
    refine ⟨hexact, y, hy, hscale, fun n => ?_⟩
    rw [hmantissa]
    exact nearestAway_iff

/-- A negative half goes away from zero. -/
theorem negative_half_rescaled :
    ∃ y, (⟨-2345, 3, by decide, by decide⟩ : Decimal).rescale 2 = .ok y ∧ y.mantissa = -235 := by
  have hround : roundAway (((-2345 : ℤ) : ℚ) / (10 ^ (3 - 2) : Nat)) = -235 := by decide +kernel
  obtain ⟨-, y, hy, -, hnearest⟩ := (rescale_rounds ⟨-2345, 3, by decide, by decide⟩ 2).2.2.1 (by decide)
  exact ⟨y, hy, ((hnearest _).mp (nearestAway_iff.mpr hround.symm)).symm⟩

end RowHistory.Decimal
