import RowHistory.Proofs.Binary.Readings

/-!
# Integers beyond a signed word, as doubles

An integer of a machine word without a sign need not be one of a word with a sign, and then it is written as
the double nearest to it. This file fixes

* the double nearest to it (`reading_ofInt_large`): between `2 ^ 63` and `2 ^ 64` the doubles are the multiples
  of 2048;
* the decimal of such a double (`shortest_large`), which is whole and no further from it than half of that;
* so how the integer is written (`plainText?_ofInt_large`): as a whole number at most 2048 away.
-/

namespace RowHistory

open Text

namespace Binary

/-! ## 1. The nearest double -/

/-- **Rounding moves a quotient by at most a half.** -/
theorem halfEven_bounds (n : Nat) {d : Nat} (hd : 0 < d) :
    2 * n ≤ 2 * (d * halfEven n d) + d ∧ 2 * (d * halfEven n d) ≤ 2 * n + d := by
  have hdivided : d * (n / d) + n % d = n := Nat.div_add_mod n d
  have hraised : d * (n / d + 1) = d * (n / d) + d := Nat.mul_succ d _
  unfold halfEven
  dsimp only
  split
  · omega
  · split
    · have hrest := Nat.mod_lt n hd
      omega
    · obtain heven | hodd := Nat.mod_two_eq_zero_or_one (n / d)
      · rw [heven, Nat.add_zero]
        omega
      · rw [hodd]
        omega

variable {n : Nat} (hlow : 2 ^ 63 ≤ n) (hhigh : n < 2 ^ 64)

include hlow hhigh

theorem floorLog2_large : floorLog2 n 1 = 63 := by
  have hlog : Nat.log2 n = 63 := (Nat.log2_eq_iff (by omega)).mpr ⟨hlow, hhigh⟩
  have hone : Nat.log2 1 = 0 := by decide
  unfold floorLog2
  rw [hlog, hone]
  exact (if_pos hlow : (if 2 ^ 63 ≤ n then (63 : Int) else 62) = 63)

theorem nearest_large : double.nearest n 1 = 1085 * 2 ^ 52 + halfEven n 2048 := by
  have hexponent : max double.leastExponent (floorLog2 n 1 - double.fractionBits) = 11 := by
    rw [floorLog2_large hlow hhigh]
    rfl
  have hshifted : shifted n 1 (-11) = (n, 2048) := rfl
  have hinf : double.infinityBits = 2047 * 2 ^ 52 := rfl
  have hbits : double.fractionBits = 52 := rfl
  have hleast : ((11 : Int) - double.leastExponent).toNat = 1085 := rfl
  have hbounds := halfEven_bounds n (d := 2048) (by decide)
  unfold Format.nearest
  rw [if_neg (by omega)]
  dsimp only
  rw [hexponent, hshifted, hinf, hbits, hleast]
  dsimp only
  rw [if_neg (by omega)]
  omega

/-- **The double nearest to a large integer** is a multiple of 2048 at most 1024 away. -/
theorem reading_ofInt_large : ∃ m q, (Double.ofInt n).reading = .finite false m q ∧
    (q = 11 ∧ 2 ^ 52 ≤ m ∧ m < 2 ^ 53 ∧ n ≤ 2048 * m + 1024 ∧ 2048 * m ≤ n + 1024 ∨
      q = 12 ∧ m = 2 ^ 52 ∧ 2 ^ 64 ≤ n + 1024) := by
  have hbounds := halfEven_bounds n (d := 2048) (by decide)
  have hbits : (Double.ofInt n).bits.toNat = 1085 * 2 ^ 52 + halfEven n 2048 := by
    have hpositive : decide ((n : Int) < 0) = false := decide_eq_false (by omega)
    unfold Double.ofInt Double.ofRatio
    rw [Double.toNat_ofMagnitude _ (nearest_le double _ 1), hpositive, Int.natAbs_natCast,
      nearest_large hlow hhigh, if_neg Bool.false_ne_true, Nat.zero_add]
  generalize halfEven n 2048 = m at hbounds hbits
  have hsign : double.signBit = 2 ^ 63 := rfl
  have hinf : double.infinityBits = 2047 * 2 ^ 52 := rfl
  have hfraction : double.fractionBits = 52 := rfl
  have hleast : double.leastExponent = -1074 := rfl
  have hunsigned : ¬ (1085 * 2 ^ 52 + m) / 2 ^ 63 % 2 = 1 := by omega
  have hword : (1085 * 2 ^ 52 + m) % 2 ^ 63 = 1085 * 2 ^ 52 + m := by omega
  unfold Double.reading Format.read
  rw [hbits, hsign, hinf, hfraction, hleast]
  dsimp only
  rw [hword, if_neg (by omega), if_neg (by omega), if_neg (by omega), decide_eq_false hunsigned]
  refine ⟨_, _, rfl, ?_⟩
  obtain hm | hm := Nat.lt_or_ge m (2 ^ 53)
  · exact .inl (by omega)
  · exact .inr (by omega)

/-! ## 2. Its shortest digits -/

omit hlow hhigh

variable {i : Interval} {tie : Tie} {d : Digits}

theorem unit_whole (e : Nat) : 10 ^ (-(e : Int)).toNat = 1 := by
  rw [show (-(e : Int)).toNat = 0 by omega, Nat.pow_zero]

/-- A whole number is in the interval if it is between the ends, and only if it is no further than they. -/
theorem Interval.holds_whole (v e : Nat) :
    (i.holds v e = true → i.low ≤ v * 10 ^ e * i.denominator ∧ v * 10 ^ e * i.denominator ≤ i.high) ∧
    (i.low < v * 10 ^ e * i.denominator → v * 10 ^ e * i.denominator < i.high → i.holds v e = true) := by
  unfold Interval.holds
  dsimp only
  rw [unit_whole, Int.toNat_natCast, Nat.mul_one, Nat.mul_one]
  split
  · rw [Bool.and_eq_true, decide_eq_true_iff, decide_eq_true_iff]
    exact ⟨id, fun hlow hhigh => ⟨Nat.le_of_lt hlow, Nat.le_of_lt hhigh⟩⟩
  · rw [Bool.and_eq_true, decide_eq_true_iff, decide_eq_true_iff]
    exact ⟨fun h => ⟨Nat.le_of_lt h.1, Nat.le_of_lt h.2⟩, fun hlow hhigh => ⟨hlow, hhigh⟩⟩

/-- A candidate lies on its grid, and in the interval. -/
theorem Interval.of_candidate? {k : Int} {count : Nat} (h : i.candidate? tie k count = some d) :
    d.exponent = k - count ∧ i.holds d.value d.exponent = true := by
  unfold Interval.candidate? at h
  dsimp only at h
  split at h
  · rename_i hboth
    rw [Bool.and_eq_true] at hboth
    obtain rfl := Option.some.inj h
    split
    · exact ⟨rfl, hboth.1⟩
    · exact ⟨rfl, hboth.2⟩
  · split at h
    · rename_i hdown
      obtain rfl := Option.some.inj h
      exact ⟨rfl, hdown⟩
    · split at h
      · rename_i hup
        obtain rfl := Option.some.inj h
        exact ⟨rfl, hup⟩
      · cases h

/-- A grid of whole numbers with the lower neighbour in the interval has a candidate. -/
theorem Interval.candidate?_isSome {k : Int} {count e : Nat} (hgrid : k - count = e)
    (h : i.holds (i.value / (10 ^ e * i.denominator)) e = true) :
    (i.candidate? tie k count).isSome = true := by
  unfold Interval.candidate?
  dsimp only
  rw [hgrid, unit_whole, Int.toNat_natCast, Nat.mul_one, h]
  simp only [Bool.true_and, if_true]
  split <;> rfl

/-- If the finest grid has a candidate, the shortest digits are those of some candidate. -/
theorem shortest_of_candidate {f : Format} {m : Nat} {q k : Int} (hi : f.interval m q = i)
    (hk : integerDigits i.value i.denominator = k) (h : (i.candidate? tie k 17).isSome = true) :
    ∃ count d, count < 17 ∧ i.candidate? tie k (count + 1) = some d ∧ f.shortest tie m q = d.normal := by
  unfold Format.shortest
  dsimp only
  rw [hi, hk]
  cases hfound : (List.range 17).findSome? fun n => i.candidate? tie k (n + 1) with
  | none =>
    have hnone := List.findSome?_eq_none_iff.mp hfound 16 (by decide)
    rw [hnone] at h
    cases h
  | some d =>
    obtain ⟨count, hcount, hcandidate⟩ := List.exists_of_findSome?_eq_some hfound
    exact ⟨count, d, List.mem_range.mp hcount, hcandidate, rfl⟩

/-- Zeros that move into the exponent leave the number as it is. -/
theorem Digits.strip_whole (fuel v e : Nat) :
    ∃ v' e' : Nat, strip fuel ⟨v, e⟩ = ⟨v', e'⟩ ∧ v' * 10 ^ e' = v * 10 ^ e := by
  induction fuel generalizing v e with
  | zero => exact ⟨v, e, rfl, rfl⟩
  | succ fuel ih =>
    unfold strip
    split
    · rename_i hzero
      obtain ⟨v', e', hstrip, hvalue⟩ := ih (v / 10) (e + 1)
      refine ⟨v', e', hstrip, hvalue.trans ?_⟩
      have hten : v / 10 * 10 = v := Nat.div_mul_cancel (Nat.dvd_of_mod_eq_zero hzero.2)
      rw [Nat.pow_succ', ← Nat.mul_assoc, hten]
    · exact ⟨v, e, rfl, rfl⟩

/-- The interval of a large double: the ends are 1024 away. -/
theorem interval_large {m : Nat} (hm : 2 ^ 52 < m) : double.interval m 11 =
    ⟨2048 * m - 1024, 2048 * m, 2048 * m + 1024, 1, m % 2 = 0⟩ := by
  have hbelow : ¬ (m = 2 ^ double.fractionBits ∧ double.leastExponent < 11) := by
    rintro ⟨heq, -⟩
    exact Nat.ne_of_gt hm heq
  have hscale : 2 ^ ((11 : Int) - 2).toNat = 512 := rfl
  have hone : 2 ^ ((2 : Int) - 11).toNat = 1 := rfl
  have hends : (4 * m - 2) * 512 = 2048 * m - 1024 ∧ 4 * m * 512 = 2048 * m ∧
      (4 * m + 2) * 512 = 2048 * m + 1024 := by
    omega
  unfold Format.interval
  dsimp only
  rw [if_neg hbelow, hscale, hone, hends.1, hends.2.1, hends.2.2]

/-- There are nineteen or twenty digits before the point, so no grid of seventeen reaches behind it. -/
theorem integerDigits_large {m : Nat} (hlow : 2 ^ 52 < m) (hhigh : m < 2 ^ 53) :
    ∃ k : Nat, integerDigits (2048 * m) 1 = k ∧ (k = 19 ∨ k = 20) := by
  refine ⟨_, if_pos (by omega), ?_⟩
  have hlength : ∀ {k : Nat}, 0 < k → ((Nat.toDigits 10 (2048 * m)).length ≤ k ↔ 2048 * m < 10 ^ k) :=
    fun hk => Nat.length_toDigits_le_iff (by decide) hk
  have hle := (hlength (k := 20) (by decide)).mpr (by omega)
  have hgt := mt (hlength (k := 18) (by decide)).mp (by omega)
  rw [Nat.div_one]
  omega

/-- **The shortest digits of a large double** are those of a whole number. -/
theorem shortest_large (tie : Tie) {m : Nat} (hlow : 2 ^ 52 < m) (hhigh : m < 2 ^ 53) :
    ∃ v e : Nat, double.shortest tie m 11 = ⟨v, e⟩ ∧ 2048 * m ≤ v * 10 ^ e + 1024 ∧
      v * 10 ^ e ≤ 2048 * m + 1024 := by
  obtain ⟨k, hk, hdigits⟩ := integerDigits_large hlow hhigh
  have hlast : ((double.interval m 11).candidate? tie k 17).isSome = true := by
    rw [interval_large hlow]
    -- The neighbour below is less than a thousand away.
    refine Interval.candidate?_isSome (e := k - 17) (by omega) ((Interval.holds_whole _ _).2 ?_ ?_)
    · obtain rfl | rfl := hdigits <;> dsimp only <;> omega
    · obtain rfl | rfl := hdigits <;> dsimp only <;> omega
  rw [interval_large hlow] at hlast
  obtain ⟨count, ⟨v, exponent⟩, hcount, hcandidate, hshortest⟩ :=
    shortest_of_candidate (interval_large hlow) hk hlast
  obtain ⟨hexponent, hholds⟩ := Interval.of_candidate? hcandidate
  dsimp only at hexponent
  obtain ⟨e, rfl⟩ : ∃ e : Nat, exponent = e := ⟨k - (count + 1), by omega⟩
  obtain ⟨v', e', hstrip, hsame⟩ := Digits.strip_whole (Nat.toDigits 10 v).length v e
  have hbounds := (Interval.holds_whole v e).1 hholds
  dsimp only at hbounds
  exact ⟨v', e', hshortest.trans hstrip, by omega, by omega⟩

end Binary

/-! ## 3. Its text -/

namespace Text

/-- Zeros behind the digits of a number multiply it. -/
theorem digits_append_zeros {v : Nat} (hv : v ≠ 0) (e : Nat) :
    digits v ++ List.replicate e '0' = digits (v * 10 ^ e) := by
  induction e with
  | zero => rw [List.replicate_zero, List.append_nil, Nat.pow_zero, Nat.mul_one]
  | succ e ih =>
    have hpositive : 0 < v * 10 ^ e := Nat.mul_pos (Nat.pos_of_ne_zero hv) (Nat.pow_pos (by decide))
    have hnext := Nat.toDigits_append_toDigits (b := 10) (n := v * 10 ^ e) (d := 0) (by decide) hpositive
      (by decide)
    calc digits v ++ List.replicate (e + 1) '0'
      _ = digits (v * 10 ^ e) ++ ['0'] := by rw [List.replicate_succ', ← List.append_assoc, ih]
      _ = digits (10 * (v * 10 ^ e) + 0) := hnext
      _ = digits (v * 10 ^ (e + 1)) := by rw [Nat.add_zero, Nat.pow_succ, Nat.mul_comm, Nat.mul_assoc]

end Text

namespace Double

open Binary

/-- A whole number is written as its digits. -/
theorem plainText?_whole {x : Double} {m v e : Nat} {q : Int} (hreading : x.reading = .finite false m q)
    (hm : m ≠ 0) (hshortest : double.shortest .up m q = ⟨v, e⟩) (hv : v ≠ 0) :
    x.plainText? = some (intText (v * 10 ^ e : Nat)) := by
  have hdigits : RealFormat.plain.digits double m q = ⟨v, e⟩ := (if_neg hm).trans hshortest
  have htext : RealFormat.plain.magnitude ⟨v, e⟩ = digits (v * 10 ^ e) := by
    have hpositional : RealFormat.plain.positional (Digits.leading ⟨v, e⟩) = true := rfl
    rw [← digits_append_zeros hv, RealFormat.magnitude, if_neg hv, if_pos hpositional,
      RealFormat.positionalText]
    dsimp only
    rw [if_pos (Int.natCast_nonneg e)]
    exact List.append_nil _
  unfold plainText?
  rw [hreading]
  dsimp only
  rw [hdigits, RealFormat.signed, if_neg Bool.false_ne_true, htext, intText, intDigits,
    if_neg (Int.not_lt.mpr (Int.natCast_nonneg _)), Int.natAbs_natCast]

/-- **A large integer is written as a whole number that is near to it**: no further than the doubles there are
from each other. -/
theorem plainText?_ofInt_large {n : Nat} (hlow : 2 ^ 63 ≤ n) (hhigh : n < 2 ^ 64) :
    ∃ k : Nat, (ofInt n).plainText? = some (intText k) ∧ n ≤ k + 2048 ∧ k ≤ n + 2048 := by
  obtain ⟨m, q, hreading, ⟨rfl, hm, hm', hnear⟩ | ⟨rfl, rfl, hnear⟩⟩ := reading_ofInt_large hlow hhigh
  · obtain hm | rfl := Nat.lt_or_eq_of_le hm
    · obtain ⟨v, e, hshortest, hbounds⟩ := shortest_large .up hm hm'
      have hv : v ≠ 0 := by
        rintro rfl
        omega
      exact ⟨_, plainText?_whole hreading (by omega) hshortest hv, by omega, by omega⟩
    · -- The two powers of two have an interval that is narrower below them.
      have hshortest : double.shortest .up (2 ^ 52) 11 = ⟨9223372036854776, (3 : Nat)⟩ := by decide +kernel
      exact ⟨_, plainText?_whole hreading (by decide) hshortest (by decide), by omega, by omega⟩
  · have hshortest : double.shortest .up (2 ^ 52) 12 = ⟨18446744073709552, (3 : Nat)⟩ := by decide +kernel
    exact ⟨_, plainText?_whole hreading (by decide) hshortest (by decide), by omega, by omega⟩

end Double

end RowHistory
