import RowHistory.Binary.Reader
import RowHistory.Comparison

/-!
# What patterns stand for

Facts about the readings of doubles that the database relies on when it compares numbers:

* a rounded quotient is a number (`reading_ofRatio_ne_nan`), and that of an integer other than zero
  is not zero (`ofInt_eq_zero`);
* readings are compared by their values (`Reading.value?`, `compare?_eq_iff`);
* the integer of a double without a fraction has the same value (`value?_of_toInt64?`).
-/

namespace RowHistory

open Binary

namespace Binary

/-! ## 1. Values -/

/-- The value of a reading: an infinity with its sign, or a count of least units. -/
def Reading.value? : Reading → Option (Bool ⊕ Int)
  | .nan => none
  | .infinite s => some (.inl s)
  | .finite s m q => some (.inr (if s then -(unitCount m q : Int) else unitCount m q))

/-- **Readings are equal if their values are.** -/
theorem Reading.compare?_eq_iff {r s : Reading} :
    r.compare? s = some .eq ↔ r.value?.isSome ∧ r.value? = s.value? := by
  cases r with
  | nan => simp [Reading.compare?, Reading.value?]
  | infinite t =>
    cases s with
    | nan => simp [Reading.compare?, Reading.value?]
    | infinite u => cases t <;> cases u <;> simp [Reading.compare?, Reading.value?]
    | finite u n r => cases t <;> simp [Reading.compare?, Reading.value?]
  | finite t m q =>
    cases s with
    | nan => simp [Reading.compare?, Reading.value?]
    | infinite u => cases u <;> simp [Reading.compare?, Reading.value?]
    | finite u n r => simp [Reading.compare?, Reading.value?]

/-- How many least units make a whole number. -/
def wholeUnits : Nat :=
  2 ^ (0 - double.leastExponent).toNat

theorem wholeUnits_pos : 0 < wholeUnits :=
  Nat.two_pow_pos _

theorem unitCount_zero (m : Nat) : unitCount m 0 = m * wholeUnits :=
  rfl

/-- A magnitude that is a whole number. -/
theorem unitCount_of_dvd {m : Nat} {q : Int} (hq : double.leastExponent ≤ q)
    (h : m * 2 ^ q.toNat % 2 ^ (-q).toNat = 0) :
    unitCount m q = m * 2 ^ q.toNat / 2 ^ (-q).toNat * wholeUnits := by
  have hleast : double.leastExponent = -1074 := rfl
  obtain ⟨k, hk⟩ := Nat.dvd_of_mod_eq_zero h
  unfold unitCount wholeUnits
  rw [hk, Nat.mul_div_cancel_left _ (Nat.two_pow_pos _)]
  by_cases hneg : 0 ≤ q
  · have hzero : (-q).toNat = 0 := by omega
    rw [hzero, Nat.pow_zero, Nat.one_mul] at hk
    rw [← hk, Nat.mul_assoc, ← Nat.pow_add]
    congr 2
    omega
  · have hzero : q.toNat = 0 := by omega
    rw [hzero, Nat.pow_zero, Nat.mul_one] at hk
    rw [hk, Nat.mul_comm _ k, Nat.mul_assoc, ← Nat.pow_add]
    congr 2
    omega

theorem nearest_le (f : Format) (n d : Nat) : f.nearest n d ≤ f.infinityBits := by
  unfold Format.nearest
  split
  · exact Nat.zero_le _
  · exact Nat.min_le_left _ _

end Binary

namespace Double

/-! ## 2. Magnitudes -/

theorem toNat_ofMagnitude (s : Bool) {k : Nat} (h : k ≤ double.infinityBits) :
    (ofMagnitude s k).bits.toNat = (if s then 2 ^ 63 else 0) + k := by
  have hinf : double.infinityBits = 2047 * 2 ^ 52 := rfl
  have hsign : double.signBit = 2 ^ 63 := rfl
  unfold ofMagnitude ofBits
  rw [UInt64.toNat_ofNat', hsign]
  cases s
  · show k % 2 ^ 64 = 0 + k
    omega
  · show (2 ^ 63 + k) % 2 ^ 64 = 2 ^ 63 + k
    omega

/-- A magnitude up to infinity is that of a number. -/
theorem reading_ofMagnitude (s : Bool) {k : Nat} (h : k ≤ double.infinityBits) :
    (ofMagnitude s k).reading ≠ .nan ∧
      (∀ t q, (ofMagnitude s k).reading = .finite t 0 q → k = 0) := by
  have hinf : double.infinityBits = 2047 * 2 ^ 52 := rfl
  have hsign : double.signBit = 2 ^ 63 := rfl
  have hmag : (ofMagnitude s k).bits.toNat % double.signBit = k := by
    rw [toNat_ofMagnitude s h, hsign]
    cases s
    · show (0 + k) % 2 ^ 63 = k
      omega
    · show (2 ^ 63 + k) % 2 ^ 63 = k
      omega
  unfold reading Format.read
  simp only [hmag]
  rw [if_neg (Nat.not_lt.mpr h)]
  have hbits : double.fractionBits = 52 := rfl
  split
  · exact ⟨Reading.noConfusion, fun t q h => by cases h⟩
  · split
    · refine ⟨Reading.noConfusion, fun t q h => ?_⟩
      injection h with _ hm _
      rw [hbits] at *
      omega
    · refine ⟨Reading.noConfusion, fun t q h => ?_⟩
      injection h with _ hm _
      rw [hbits] at *
      omega

theorem reading_ofRatio_ne_nan (s : Bool) (n d : Nat) : (ofRatio s n d).reading ≠ .nan :=
  (reading_ofMagnitude s (nearest_le double n d)).1

theorem reading_ofInt_ne_nan (n : Int) : (ofInt n).reading ≠ .nan :=
  reading_ofRatio_ne_nan _ _ _

theorem reading_ofDecimal_ne_nan (s : Bool) (digits : Nat) (exponent : Int) :
    (ofDecimal s digits exponent).reading ≠ .nan := by
  unfold ofDecimal
  dsimp only
  split
  · exact (reading_ofMagnitude s (Nat.zero_le _)).1
  · split
    · exact (reading_ofMagnitude s (Nat.le_refl _)).1
    · split
      · exact reading_ofRatio_ne_nan _ _ _
      · exact reading_ofRatio_ne_nan _ _ _

/-! ## 3. Integers -/

theorem exponent_le_of_reading {x : Double} {s : Bool} {m : Nat} {q : Int}
    (h : x.reading = .finite s m q) : double.leastExponent ≤ q := by
  unfold reading Format.read at h
  dsimp only at h
  split at h
  · cases h
  · split at h
    · cases h
    · split at h
      · cases h
        exact Int.le_refl _
      · rename_i hfield
        injection h with _ _ hq
        generalize x.bits.toNat % double.signBit / 2 ^ double.fractionBits = field at hfield hq
        omega

/-- **The integer of a double has its value.** -/
theorem value?_of_toInt64? {x : Double} {i : Int} (h : x.toInt64? = some i) :
    x.reading.value? = some (.inr (i * wholeUnits)) := by
  unfold toInt64? at h
  cases hr : x.reading with
  | nan => simp [hr] at h
  | infinite s => simp [hr] at h
  | finite s m q =>
    simp only [hr] at h
    by_cases hdvd : m * 2 ^ q.toNat % 2 ^ (-q).toNat = 0
    · rw [if_pos hdvd, Option.ite_none_right_eq_some] at h
      obtain ⟨-, hi⟩ := h
      cases hi
      simp only [Reading.value?, unitCount_of_dvd (exponent_le_of_reading hr) hdvd]
      -- The power of two is not computed.
      generalize wholeUnits = u
      cases s with
      | false => rfl
      | true => rw [if_pos rfl, if_pos rfl, Int.natCast_mul, Int.neg_mul]
    · rw [if_neg hdvd] at h
      cases h

end Double

namespace Binary

theorem div_le_halfEven (n d : Nat) : n / d ≤ halfEven n d := by
  unfold halfEven
  dsimp only
  split
  · exact Nat.le_refl _
  · split <;> omega

theorem floorLog2_le (n : Nat) : floorLog2 n 1 ≤ Nat.log2 n := by
  have hone : Nat.log2 1 = 0 := by decide
  unfold floorLog2
  dsimp only
  rw [hone]
  split <;> omega

/-- The exponent of the last digit of a whole number leaves a digit of it. -/
theorem shifted_ge {n : Nat} (h : n ≠ 0) {q : Int} (hq : q ≤ Nat.log2 n) :
    0 < (shifted n 1 (-q)).1 / (shifted n 1 (-q)).2 := by
  unfold shifted
  split
  · rw [Nat.div_one]
    exact Nat.mul_pos (Nat.pos_of_ne_zero h) (Nat.two_pow_pos _)
  · have hpow : 2 ^ (- -q).toNat ≤ n := by
      refine Nat.le_trans (Nat.pow_le_pow_right (by decide) ?_) (Nat.log2_self_le h)
      omega
    rw [Nat.one_mul]
    exact Nat.div_pos hpow (Nat.two_pow_pos _)

theorem nearest_ne_zero {n : Nat} (h : n ≠ 0) : double.nearest n 1 ≠ 0 := by
  have hinf : double.infinityBits = 2047 * 2 ^ 52 := rfl
  have hleast : double.leastExponent = -1074 := rfl
  have hq : max double.leastExponent (floorLog2 n 1 - double.fractionBits) ≤ Nat.log2 n := by
    have := floorLog2_le n
    omega
  have hdigit := Nat.lt_of_lt_of_le (shifted_ge h hq) (div_le_halfEven _ _)
  unfold Format.nearest
  rw [if_neg h, hinf]
  dsimp only
  split <;> omega

end Binary

/-- The double nearest to an integer is zero without a sign, if it is zero. -/
theorem Double.ofInt_eq_zero {n : Int} (h : (Double.ofInt n).same Double.zero = true) :
    Double.ofInt n = Double.zero := by
  have hsame := Reading.compare?_eq_iff.mp (of_decide_eq_true h)
  have hzero : Double.zero.reading.value? = some (.inr 0) := by decide
  rw [hzero] at hsame
  obtain ⟨hnan, hfinite⟩ := reading_ofMagnitude (decide (n < 0)) (nearest_le double n.natAbs 1)
  have hmag : double.nearest n.natAbs 1 = 0 := by
    cases hr : (ofInt n).reading with
    | nan => exact absurd hr hnan
    | infinite s =>
      rw [hr] at hsame
      cases hsame.2
    | finite s m q =>
      rw [hr] at hsame
      have hm : m = 0 := by
        have hcount : unitCount m q = 0 := by
          have := Sum.inr.inj (Option.some.inj hsame.2)
          cases s <;> simp at this <;> exact this
        exact (Nat.mul_eq_zero.mp hcount).resolve_right (Nat.ne_of_gt (Nat.two_pow_pos _))
      rw [hm] at hr
      exact hfinite s q hr
  have hn : n = 0 :=
    Decidable.byContradiction fun hne => nearest_ne_zero (Int.natAbs_ne_zero.mpr hne) hmag
  rw [hn]
  rfl

end RowHistory
