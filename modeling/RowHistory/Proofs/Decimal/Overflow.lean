import RowHistory.Decimal.Literal

/-!
# Overflow of mantissas

Mantissas are computed in 128 bits. Some operations report an overflow and the others wrap. This file
fixes

* that an operation whose exact result fits does neither (`checked_of_fits`, `wrap_of_fits`), and that
  powers of ten fit at every scale (`fits_tenPower`);
* that a literal overflows at some step just if its exact magnitude does (`Literal.gather_eq`), hence its
  decimal (`Literal.toDecimal_eq`);
* the mantissa of a decimal at another scale (`rescale_of_le`, `rescale_of_lt`).
-/

namespace RowHistory.Decimal

open Text

variable {x : Decimal} {scale : Nat}

/-! ## 1. Operations -/

theorem fits_natCast {n : Nat} : Fits n ↔ n < 2 ^ 127 := by
  unfold Fits
  omega

theorem fits_of_natAbs_lt {n : Int} (h : n.natAbs < 2 ^ 127) : Fits n := by
  unfold Fits
  omega

theorem checked_of_fits {n : Int} (h : Fits n) : checked n = .ok n :=
  if_pos h

theorem checked_of_not_fits {n : Int} (h : ¬ Fits n) : checked n = .error .overflow :=
  if_neg h

theorem wrap_of_fits {n : Int} (h : Fits n) : wrap n = n := by
  unfold Fits at h
  unfold wrap
  exact Int.bmod_eq_of_le (by omega) (by omega)

theorem wrapUnsigned_of_lt {n : Nat} (h : n < 2 ^ 128) : wrapUnsigned n = n :=
  Nat.mod_eq_of_lt h

theorem tenPower_lt {e : Nat} (h : e ≤ maxScale) : 10 ^ e < 2 ^ 127 :=
  Nat.lt_of_le_of_lt (Nat.pow_le_pow_right (by decide) h) (by decide)

theorem tenPower_eq_natCast (e : Nat) : (10 : Int) ^ e = (10 ^ e : Nat) := by
  simp

/-- **Powers of ten fit** up to the largest scale. -/
theorem fits_tenPower {e : Nat} (h : e ≤ maxScale) : Fits (10 ^ e) := by
  rw [tenPower_eq_natCast]
  exact fits_natCast.mpr (tenPower_lt h)

theorem tenPower_of_le {e : Nat} (h : e ≤ maxScale) : tenPower e = .ok (10 ^ e) :=
  checked_of_fits (fits_tenPower h)

theorem ofParts_ok {m : Int} (h : ofParts m scale = .ok x) : x.mantissa = m ∧ x.scale = scale := by
  unfold ofParts at h
  split at h
  · split at h
    · cases h
      exact ⟨rfl, rfl⟩
    · cases h
  · cases h

theorem ofParts_self (x : Decimal) : ofParts x.mantissa x.scale = .ok x := by
  unfold ofParts
  rw [dif_pos x.scale_le, dif_pos x.mantissa_fits]

theorem ofParts_of_fits {m : Int} (hm : Fits m) (hscale : scale ≤ maxScale) :
    ofParts m scale = .ok ⟨m, scale, hm, hscale⟩ :=
  ofParts_self ⟨m, scale, hm, hscale⟩

theorem ofParts_error {m : Int} {e : Error} (hscale : scale ≤ maxScale) :
    ofParts m scale = .error e ↔ e = .overflow ∧ ¬ Fits m := by
  by_cases hm : Fits m
  · rw [ofParts_of_fits hm hscale]
    exact ⟨(nomatch ·), fun h => absurd hm h.2⟩
  · rw [ofParts, dif_pos hscale, dif_neg hm]
    exact ⟨fun h => ⟨(Except.error.inj h).symm, hm⟩, fun h => by rw [h.1]⟩

theorem ext_parts {y : Decimal} (hmantissa : x.mantissa = y.mantissa) (hscale : x.scale = y.scale) : x = y := by
  have hok : (.ok x : Except Error Decimal) = .ok y := by
    rw [← ofParts_self x, ← ofParts_self y, hmantissa, hscale]
  exact Except.ok.inj hok

/-- Once a growing result has overflowed, what is made of it overflows as well. -/
theorem checked_bind_of_le {a b : Int} {f : Int → Except Error Int} (ha : 0 ≤ a) (hab : a ≤ b)
    (hf : Fits a → f a = checked b) : (checked a >>= f) = checked b := by
  by_cases h : Fits a
  · rw [checked_of_fits h]
    exact hf h
  · have hb : ¬ Fits b := by
      unfold Fits at h ⊢
      omega
    rw [checked_of_not_fits h, checked_of_not_fits hb]
    rfl

/-! ## 2. Literals -/

theorem le_ofDigitChars (ds : List Char) (m : Nat) : m ≤ Nat.ofDigitChars 10 ds m := by
  induction ds generalizing m with
  | nil => exact Nat.le_refl m
  | cons d ds ih =>
    rw [Nat.ofDigitChars_cons]
    exact Nat.le_trans (by omega) (ih _)

theorem appendDigits_eq {m : Nat} (hm : Fits m) (ds : List Char) :
    appendDigits m ds = checked (Nat.ofDigitChars 10 ds m) := by
  induction ds generalizing m with
  | nil => exact (checked_of_fits hm).symm
  | cons d ds ih =>
    have hnext : ((m : Int) * 10 + (d.toNat - '0'.toNat : Nat)) =
        (10 * m + (d.toNat - '0'.toNat) : Nat) := by omega
    have hle := le_ofDigitChars ds (10 * m + (d.toNat - '0'.toNat))
    rw [Nat.ofDigitChars_cons, appendDigits]
    refine checked_bind_of_le (by omega) (by omega) fun _ => ?_
    rw [hnext]
    exact checked_bind_of_le (by omega) (by omega) fun hfits => ih hfits

theorem appendZeros_eq {m : Nat} (hm : Fits m) (n : Nat) :
    appendZeros m n = checked (m * 10 ^ n : Nat) := by
  induction n generalizing m with
  | zero =>
    rw [Nat.pow_zero, Nat.mul_one]
    exact (checked_of_fits hm).symm
  | succ n ih =>
    have hnext : (m : Int) * 10 = (m * 10 : Nat) := by omega
    have hpower : m * 10 ^ (n + 1) = m * 10 * 10 ^ n := by
      rw [Nat.pow_succ, Nat.mul_assoc, Nat.mul_comm (10 ^ n)]
    have hle : m * 10 ≤ m * 10 * 10 ^ n := Nat.le_mul_of_pos_right _ (Nat.pow_pos (by decide))
    rw [hpower, appendZeros, hnext]
    exact checked_bind_of_le (by omega) (by omega) fun hfits => ih hfits

/-- A magnitude after rounding. -/
def rounded (m : Nat) : List Char → Nat
  | d :: _ => if '5' ≤ d then m + 1 else m
  | [] => m

theorem le_rounded (m : Nat) (dropped : List Char) : m ≤ rounded m dropped := by
  unfold rounded
  split
  · split <;> omega
  · exact Nat.le_refl m

theorem roundUp_eq {m : Nat} (hm : Fits m) (dropped : List Char) :
    roundUp m dropped = checked (rounded m dropped) := by
  cases dropped with
  | nil => exact (checked_of_fits hm).symm
  | cons d ds =>
    by_cases hfive : '5' ≤ d
    · rw [roundUp, rounded, if_pos hfive, if_pos hfive, Int.natCast_succ]
    · rw [roundUp, rounded, if_neg hfive, if_neg hfive]
      exact (checked_of_fits hm).symm

/-- The literal's magnitude times `10 ^ scale`, rounded half up. -/
def Literal.magnitude (l : Literal) (scale : Nat) : Nat :=
  rounded (digitsValue (l.whole ++ l.fraction.take scale) * 10 ^ (scale - l.fraction.length))
    (l.fraction.drop scale)

/-- **A literal overflows just if its exact magnitude does**, whichever step reports it. -/
theorem Literal.gather_eq (l : Literal) (scale : Nat) : l.gather scale = checked (l.magnitude scale) := by
  have hdigits : appendDigits 0 (l.whole ++ l.fraction.take scale) =
      checked (digitsValue (l.whole ++ l.fraction.take scale)) := appendDigits_eq (m := 0) (by decide) _
  have hzeros : scale - (l.fraction.take scale).length = scale - l.fraction.length := by
    rw [List.length_take]
    omega
  unfold gather magnitude
  dsimp only
  rw [hdigits, hzeros]
  -- Each of the three steps starts from the exact result of the one before, and none makes it smaller.
  generalize digitsValue (l.whole ++ l.fraction.take scale) = m
  have hshift : m ≤ m * 10 ^ (scale - l.fraction.length) :=
    Nat.le_mul_of_pos_right _ (Nat.pow_pos (by decide))
  have hround := le_rounded (m * 10 ^ (scale - l.fraction.length)) (l.fraction.drop scale)
  refine checked_bind_of_le (by omega) (Int.ofNat_le.mpr (Nat.le_trans hshift hround)) fun hfits => ?_
  rw [appendZeros_eq hfits]
  exact checked_bind_of_le (by omega) (Int.ofNat_le.mpr hround) fun hfits => roundUp_eq hfits _

/-- The decimal of a literal, by its exact magnitude. -/
theorem Literal.toDecimal_eq (l : Literal) (scale : Nat) : l.toDecimal scale =
    if maxScale < scale then .error (.scaleTooLarge scale)
    else if 2 ^ 127 ≤ l.magnitude scale then .error .overflow
    else ofParts (if l.negative then -(l.magnitude scale : Int) else l.magnitude scale) scale := by
  unfold toDecimal
  by_cases hscale : maxScale < scale
  · rw [dif_neg (Nat.not_le.mpr hscale), if_pos hscale]
  · rw [dif_pos (Nat.not_lt.mp hscale), if_neg hscale, gather_eq]
    by_cases hlarge : 2 ^ 127 ≤ l.magnitude scale
    · have hnot : ¬ Fits (l.magnitude scale) := fun h => Nat.not_lt.mpr hlarge (fits_natCast.mp h)
      rw [if_pos hlarge, checked_of_not_fits hnot]
      rfl
    · have hlt := Nat.not_le.mp hlarge
      have hsigned : Fits (if l.negative then -(l.magnitude scale : Int) else l.magnitude scale) := by
        unfold Fits
        split <;> omega
      rw [if_neg hlarge, checked_of_fits (fits_natCast.mpr hlt),
        ofParts_of_fits hsigned (Nat.not_lt.mp hscale)]
      show Except.ok _ = _
      simp only [wrap_of_fits hsigned]

/-! ## 3. Scales -/

theorem rescale_self (x : Decimal) : x.rescale x.scale = .ok x := by
  unfold rescale
  rw [dif_pos x.scale_le, if_pos rfl]

theorem rescale_of_scale_gt (h : maxScale < scale) : x.rescale scale = .error (.scaleTooLarge scale) := by
  unfold rescale
  rw [dif_neg (Nat.not_le.mpr h)]

/-- **A wider scale multiplies the mantissa** by a power of ten. -/
theorem rescale_of_le (hscale : scale ≤ maxScale) (h : x.scale ≤ scale) :
    x.rescale scale = ofParts (x.mantissa * 10 ^ (scale - x.scale)) scale := by
  unfold rescale
  rw [dif_pos hscale]
  by_cases heq : scale = x.scale
  · rw [if_pos heq, heq, Nat.sub_self, Int.pow_zero, Int.mul_one, ofParts_self]
  · rw [if_neg heq, if_pos (by omega), tenPower_of_le (by omega)]
    rfl

/-- A narrower scale divides it by one. -/
theorem rescale_of_lt (h : scale < x.scale) :
    x.rescale scale = ofParts (narrowed x.mantissa (10 ^ (x.scale - scale))) scale := by
  have hscale : scale ≤ maxScale := Nat.le_trans (Nat.le_of_lt h) x.scale_le
  have hdiff : x.scale - scale ≤ maxScale := Nat.le_trans (Nat.sub_le _ _) x.scale_le
  unfold rescale
  rw [dif_pos hscale, if_neg (Nat.ne_of_lt h), if_neg (Nat.lt_asymm h),
    tenPower_of_le hdiff, ofParts_of_fits (fits_narrowed _ _) hscale]
  rfl

end RowHistory.Decimal
