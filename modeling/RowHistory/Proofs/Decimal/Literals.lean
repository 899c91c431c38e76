import RowHistory.Proofs.Decimal.RoundTrip
import RowHistory.Proofs.Decimal.Rounding

/-!
# Literals are read exactly

A literal is a sign, digits and a point, and it stands for a rational number. This file fixes

* how a literal may be spelt (`Literal.Spells`), and that the reader takes just these texts
  (`ofChars?_eq_some_iff`);
* the number that a literal stands for (`Literal.value`), and that the magnitude gathered from its digits is
  that number at the scale, rounded half away from zero (`Literal.Spells.signed_eq`): of the digits that are
  dropped the first one decides (`five_le_iff`);
* what is read from a text, for all texts and scales (`parseAt_exact`).
-/

namespace RowHistory

open Text

/-! ## 1. Spellings -/

/-- What is in front of the rest is a sign. -/
theorem spanSign_spec (cs : List Char) : ∃ sign, cs = sign ++ (spanSign cs).2 ∧
    if (spanSign cs).1 then sign = ['-'] else sign = [] ∨ sign = ['+'] := by
  unfold spanSign
  split
  · exact ⟨['-'], rfl, rfl⟩
  · exact ⟨['+'], rfl, .inr rfl⟩
  · exact ⟨[], rfl, .inl rfl⟩

namespace Decimal

variable {l : Literal} {cs : List Char} {s : Nat}

/-- `cs` spells the literal: a sign, which only a plus may lack, the digits before the point, and the point
with the digits behind it, which may lack if there are none. There is a digit somewhere. -/
structure Literal.Spells (l : Literal) (cs : List Char) : Prop where
  isDigit : ∀ c ∈ l.whole ++ l.fraction, c.isDigit = true
  ne_nil : l.whole ++ l.fraction ≠ []
  written : ∃ sign point, cs = sign ++ (l.whole ++ (point ++ l.fraction)) ∧
    (if l.negative then sign = ['-'] else sign = [] ∨ sign = ['+']) ∧
    (point = ['.'] ∨ point = [] ∧ l.fraction = [])

/-- What is between the two parts is a point, or the second part is missing with it. -/
theorem splitPoint_spec (cs : List Char) : ∃ point, cs = (splitPoint cs).1 ++ (point ++ (splitPoint cs).2) ∧
    (point = ['.'] ∨ point = [] ∧ (splitPoint cs).2 = []) := by
  have hsplit := (List.takeWhile_append_dropWhile (p := (· ≠ '.')) (l := cs)).symm
  unfold splitPoint
  dsimp only
  cases hrest : cs.dropWhile (· ≠ '.') with
  | nil =>
    rw [hrest] at hsplit
    exact ⟨[], hsplit, .inr ⟨rfl, rfl⟩⟩
  | cons c rest =>
    have hpoint : c = '.' := by
      have hhead := List.head?_dropWhile_not (fun c => decide (c ≠ '.')) cs
      rw [hrest] at hhead
      simpa using hhead
    rw [hrest, hpoint] at hsplit
    exact ⟨['.'], hsplit, .inl rfl⟩

theorem Literal.Spells.splitPoint_eq (h : l.Spells cs) {point : List Char}
    (hpoint : point = ['.'] ∨ point = [] ∧ l.fraction = []) :
    splitPoint (l.whole ++ (point ++ l.fraction)) = (l.whole, l.fraction) := by
  have hwhole : ∀ c ∈ l.whole, c.isDigit = true := fun c hc => h.isDigit c (List.mem_append_left _ hc)
  obtain rfl | ⟨rfl, hnone⟩ := hpoint
  · exact (splitPoint_digits hwhole _).1
  · rw [hnone, List.append_nil, List.append_nil]
    exact (splitPoint_digits hwhole []).2

/-- A literal without its sign does not start with one. -/
theorem Literal.Spells.spanSign_eq (h : l.Spells cs) {point : List Char}
    (hpoint : point = ['.'] ∨ point = [] ∧ l.fraction = []) :
    spanSign (l.whole ++ (point ++ l.fraction)) = (false, l.whole ++ (point ++ l.fraction)) := by
  cases hwhole : l.whole with
  | cons c rest =>
    refine spanSign_of_isDigit (h.isDigit c ?_) _
    rw [hwhole]
    exact List.mem_cons_self
  | nil =>
    obtain rfl | ⟨-, hnone⟩ := hpoint
    · rfl
    · exact absurd (by rw [hwhole, hnone]; rfl) h.ne_nil

/-- **The reader takes just the spellings of literals.** -/
theorem ofChars?_eq_some_iff : Literal.ofChars? cs = some l ↔ l.Spells cs := by
  constructor
  · intro h
    unfold Literal.ofChars? at h
    dsimp only at h
    split at h
    · cases h
    · rename_i hparts
      obtain rfl := Option.some.inj h
      obtain ⟨hne, hwhole, hfraction⟩ : ¬ (_ ∧ _) ∧ _ ∧ _ := by
        simpa only [not_or, not_not] using hparts
      obtain ⟨sign, hsign, hnegative⟩ := spanSign_spec cs
      obtain ⟨point, hrest, hpoint⟩ := splitPoint_spec (spanSign cs).2
      refine ⟨fun c hc => ?_, fun hnil => hne (List.append_eq_nil_iff.mp hnil), sign, point, ?_, hnegative,
        hpoint⟩
      · obtain hc | hc := List.mem_append.mp hc
        · exact List.all_eq_true.mp hwhole c hc
        · exact List.all_eq_true.mp hfraction c hc
      · exact hsign.trans (congrArg _ hrest)
  · intro h
    obtain ⟨sign, point, rfl, hsign, hpoint⟩ := h.written
    have hspan : spanSign (sign ++ (l.whole ++ (point ++ l.fraction))) =
        (l.negative, l.whole ++ (point ++ l.fraction)) := by
      cases hnegative : l.negative with
      | true =>
        rw [hnegative, if_pos rfl] at hsign
        rw [hsign]
        rfl
      | false =>
        rw [hnegative, if_neg Bool.false_ne_true] at hsign
        obtain rfl | rfl := hsign
        · exact h.spanSign_eq hpoint
        · rfl
    have hwhole : l.whole.all Char.isDigit = true :=
      List.all_eq_true.mpr fun c hc => h.isDigit c (List.mem_append_left _ hc)
    have hfraction : l.fraction.all Char.isDigit = true :=
      List.all_eq_true.mpr fun c hc => h.isDigit c (List.mem_append_right _ hc)
    have hne : ¬ (l.whole = [] ∧ l.fraction = []) := fun hnil => h.ne_nil (List.append_eq_nil_iff.mpr hnil)
    unfold Literal.ofChars?
    rw [hspan]
    dsimp only
    rw [h.splitPoint_eq hpoint]
    dsimp only
    rw [if_neg (by simp only [hne, hwhole, hfraction, not_true_eq_false, or_self, not_false_eq_true])]

/-! ## 2. Values -/

theorem digitsValue_cons (d : Char) (ds : List Char) :
    digitsValue (d :: ds) = 10 ^ ds.length * (d.toNat - 48) + digitsValue ds := by
  have hfirst : digitsValue [d] = d.toNat - 48 := by
    show 10 * 0 + (d.toNat - 48) = _
    omega
  rw [← List.singleton_append, digitsValue_append, hfirst]

theorem digitsValue_lt {ds : List Char} (h : ∀ c ∈ ds, c.isDigit = true) : digitsValue ds < 10 ^ ds.length := by
  induction ds with
  | nil => exact Nat.one_pos
  | cons d ds ih =>
    have hd : 48 ≤ d.toNat ∧ d.toNat ≤ 57 := Char.isDigit_iff_toNat.mp (h d List.mem_cons_self)
    have hrest := ih fun c hc => h c (List.mem_cons_of_mem _ hc)
    have hfirst : 10 ^ ds.length * (d.toNat - 48) ≤ 10 ^ ds.length * 9 := Nat.mul_le_mul_left _ (by omega)
    rw [digitsValue_cons, List.length_cons, Nat.pow_succ]
    omega

/-- The first digit that is dropped tells whether all of them make a half. -/
theorem five_le_iff {d : Char} {ds : List Char} (h : ∀ c ∈ d :: ds, c.isDigit = true) :
    '5' ≤ d ↔ 10 ^ (d :: ds).length ≤ digitsValue (d :: ds) * 2 := by
  have hrest := digitsValue_lt fun c hc => h c (List.mem_cons_of_mem _ hc)
  have hfive : '5' ≤ d ↔ 53 ≤ d.toNat := Iff.rfl
  rw [hfive, digitsValue_cons, List.length_cons, Nat.pow_succ]
  constructor
  · intro hle
    have hfirst : 10 ^ ds.length * 5 ≤ 10 ^ ds.length * (d.toNat - 48) := Nat.mul_le_mul_left _ (by omega)
    omega
  · intro hle
    by_contra hlt
    have hfirst : 10 ^ ds.length * (d.toNat - 48) ≤ 10 ^ ds.length * 4 := Nat.mul_le_mul_left _ (by omega)
    omega

/-- The number that a literal stands for, without its sign. -/
def Literal.absValue (l : Literal) : ℚ :=
  digitsValue l.whole + digitsValue l.fraction / (10 ^ l.fraction.length : Nat)

/-- The number that a literal stands for. -/
def Literal.value (l : Literal) : ℚ :=
  if l.negative then -l.absValue else l.absValue

theorem Literal.absValue_eq (l : Literal) :
    l.absValue = digitsValue (l.whole ++ l.fraction) / (10 ^ l.fraction.length : Nat) := by
  unfold absValue
  rw [digitsValue_append, Nat.cast_add, Nat.cast_mul, add_div, mul_div_cancel_left₀ _ (natCast_pow_ne_zero _)]

/-- A literal with no more digits than the scale keeps is exact. -/
theorem magnitude_of_le (h : l.fraction.length ≤ s) :
    (l.magnitude s : ℤ) = roundAway (l.absValue * (10 ^ s : Nat)) := by
  have hpow : 10 ^ s = 10 ^ l.fraction.length * 10 ^ (s - l.fraction.length) := by
    rw [← Nat.pow_add, Nat.add_sub_cancel' h]
  have hexact : l.absValue * (10 ^ s : Nat) =
      (digitsValue (l.whole ++ l.fraction) * 10 ^ (s - l.fraction.length) : Nat) := by
    rw [Literal.absValue_eq, hpow, Nat.cast_mul, Nat.cast_mul, ← mul_assoc,
      div_mul_cancel₀ _ (natCast_pow_ne_zero _)]
  unfold Literal.magnitude
  rw [hexact, List.take_of_length_le h, List.drop_of_length_le h, rounded]
  exact (roundAway_intCast _).symm

/-- **A literal with more digits is rounded by the first that is dropped.** -/
theorem magnitude_of_lt (hdigits : ∀ c ∈ l.fraction, c.isDigit = true) (h : s < l.fraction.length) :
    (l.magnitude s : ℤ) = roundAway (l.absValue * (10 ^ s : Nat)) := by
  have hlength : (l.fraction.drop s).length = l.fraction.length - s := List.length_drop
  have hdropped : ∀ c ∈ l.fraction.drop s, c.isDigit = true := fun c hc => hdigits c (List.mem_of_mem_drop hc)
  have hlt := digitsValue_lt hdropped
  have hvalue : digitsValue (l.whole ++ l.fraction) = 10 ^ (l.fraction.drop s).length *
      digitsValue (l.whole ++ l.fraction.take s) + digitsValue (l.fraction.drop s) := by
    rw [← digitsValue_append, List.append_assoc, List.take_append_drop]
  have hpow : 10 ^ l.fraction.length = 10 ^ (l.fraction.drop s).length * 10 ^ s := by
    rw [hlength, ← Nat.pow_add, Nat.sub_add_cancel (Nat.le_of_lt h)]
  have hquotient : l.absValue * (10 ^ s : Nat) =
      digitsValue (l.whole ++ l.fraction) / (10 ^ (l.fraction.drop s).length : Nat) := by
    rw [Literal.absValue_eq, hpow, Nat.cast_mul, ← div_div, div_mul_cancel₀ _ (natCast_pow_ne_zero _)]
  unfold Literal.magnitude
  -- The digits that are kept are the quotient, and those that are dropped are the remainder.
  rw [hquotient, roundAway_div _ (Nat.pow_pos (by decide)), hvalue, Nat.mul_add_mod, Nat.mod_eq_of_lt hlt,
    Nat.mul_add_div (Nat.pow_pos (by decide)), Nat.div_eq_of_lt hlt,
    Nat.sub_eq_zero_of_le (Nat.le_of_lt h), Nat.pow_zero, Nat.mul_one]
  obtain ⟨d, ds, hcons⟩ := List.exists_cons_of_length_pos (hlength ▸ Nat.sub_pos_of_lt h)
  rw [hcons] at hdropped ⊢
  simp only [rounded, five_le_iff hdropped, Nat.add_zero]

/-- **The signed magnitude of a literal is its number at the scale, rounded.** -/
theorem Literal.Spells.signed_eq (h : l.Spells cs) (s : Nat) :
    (if l.negative then -(l.magnitude s : ℤ) else l.magnitude s) = roundAway (l.value * (10 ^ s : Nat)) := by
  have hmagnitude : (l.magnitude s : ℤ) = roundAway (l.absValue * (10 ^ s : Nat)) := by
    obtain hlt | hle := Nat.lt_or_ge s l.fraction.length
    · exact magnitude_of_lt (fun c hc => h.isDigit c (List.mem_append_right _ hc)) hlt
    · exact magnitude_of_le hle
  unfold Literal.value
  split
  · rw [hmagnitude, neg_mul, roundAway_neg]
  · exact hmagnitude

/-! ## 3. Reading -/

variable {target : Option Nat} {text : String}

theorem parseAt_of_spells (h : l.Spells (trim text.toList)) : parseAt target text =
    l.toDecimal (target.getD (min (l.fraction.length % 2 ^ 32) maxScale)) := by
  unfold parseAt
  rw [ofChars?_eq_some_iff.mpr h]

/-- **The decimal of a literal, by the number that it stands for.** -/
theorem Literal.Spells.toDecimal_cases (h : l.Spells cs) (s : Nat) :
    (28 < s ∧ l.toDecimal s = .error (.scaleTooLarge s)) ∨
    (s ≤ 28 ∧ 2 ^ 127 - 1 < |roundAway (l.value * (10 ^ s : Nat))| ∧ l.toDecimal s = .error .overflow) ∨
    (s ≤ 28 ∧ |roundAway (l.value * (10 ^ s : Nat))| ≤ 2 ^ 127 - 1 ∧
      ∃ d, l.toDecimal s = .ok d ∧ d.mantissa = roundAway (l.value * (10 ^ s : Nat)) ∧ d.scale = s) := by
  have habs : |roundAway (l.value * (10 ^ s : Nat))| = l.magnitude s := by
    rw [← h.signed_eq]
    split
    · rw [abs_neg, Nat.abs_cast]
    · exact Nat.abs_cast _
  rw [Literal.toDecimal_eq, h.signed_eq]
  by_cases hlarge : maxScale < s
  · exact .inl ⟨hlarge, if_pos hlarge⟩
  · have hs : s ≤ maxScale := Nat.not_lt.mp hlarge
    rw [if_neg hlarge, habs]
    by_cases hover : 2 ^ 127 ≤ l.magnitude s
    · exact .inr (.inl ⟨hs, by omega, if_pos hover⟩)
    · have hfits : Fits (roundAway (l.value * (10 ^ s : Nat))) := by
        refine fits_of_natAbs_lt ?_
        have := Int.abs_eq_natAbs (roundAway (l.value * (10 ^ s : Nat)))
        omega
      rw [if_neg hover, ofParts_of_fits hfits hs]
      exact .inr (.inr ⟨hs, by omega, _, rfl, rfl, rfl⟩)

/-- **Literals are read exactly.** A text that spells none is invalid. Any other gives its number at the given
scale, or at that of its fraction digits, rounded half away from zero, unless the scale is too large or the
magnitude has no signed 128-bit integer. -/
theorem parseAt_exact (target : Option Nat) (text : String) :
    (parseAt target text = .error (.invalid text) ↔ ∀ l : Literal, ¬ l.Spells (trim text.toList)) ∧
    ∀ l : Literal, l.Spells (trim text.toList) → (target = none → l.fraction.length < 2 ^ 32) →
      let s := target.getD (min l.fraction.length 28)
      let n := roundAway (l.value * (10 ^ s : Nat))
      (∀ k, parseAt target text = .error (.scaleTooLarge k) ↔ target = some k ∧ 28 < k) ∧
      (parseAt target text = .error .overflow ↔ s ≤ 28 ∧ 2 ^ 127 - 1 < |n|) ∧
      (s ≤ 28 → |n| ≤ 2 ^ 127 - 1 →
        ∃ d, parseAt target text = .ok d ∧ d.mantissa = n ∧ d.scale = s) := by
  refine ⟨⟨fun hinvalid l hl => ?_, fun hnone => ?_⟩, fun l hl hshort => ?_⟩
  · rw [parseAt_of_spells hl] at hinvalid
    obtain ⟨-, heq⟩ | ⟨-, -, heq⟩ | ⟨-, -, d, heq, -⟩ := hl.toDecimal_cases _ <;>
      cases heq.symm.trans hinvalid
  · unfold parseAt
    cases hchars : Literal.ofChars? (trim text.toList) with
    | none => rfl
    | some l => exact absurd (ofChars?_eq_some_iff.mp hchars) (hnone l)
  · intro s n
    have hs : target.getD (min (l.fraction.length % 2 ^ 32) maxScale) = s := by
      cases target with
      | none => exact congrArg (min · 28) (Nat.mod_eq_of_lt (hshort rfl))
      | some k => rfl
    have hgiven : 28 < s → target = some s := by
      cases target with
      | none => exact fun h => absurd h (Nat.not_lt.mpr (Nat.min_le_right _ _))
      | some k => exact fun _ => rfl
    have hsmall : s ≤ 28 → ∀ k, ¬ (target = some k ∧ 28 < k) := by
      rintro hle k ⟨rfl, hk⟩
      exact Nat.not_lt.mpr hle hk
    rw [parseAt_of_spells hl, hs]
    obtain ⟨hlarge, heq⟩ | ⟨hle, hover, heq⟩ | ⟨hle, hfits, d, heq, hmantissa, hscale⟩ := hl.toDecimal_cases s
    · have hnot : ¬ s ≤ 28 := Nat.not_le.mpr hlarge
      rw [heq]
      refine ⟨fun k => ⟨fun h => ?_, fun h => ?_⟩, ⟨(nomatch ·), fun h => absurd h.1 hnot⟩,
        fun h => absurd h hnot⟩
      · cases h
        exact ⟨hgiven hlarge, hlarge⟩
      · rw [Option.some.inj ((hgiven hlarge).symm.trans h.1)]
    · rw [heq]
      exact ⟨fun k => ⟨(nomatch ·), fun h => absurd h (hsmall hle k)⟩, ⟨fun _ => ⟨hle, hover⟩, fun _ => rfl⟩,
        fun _ h => absurd hover (not_lt.mpr h)⟩
    · rw [heq]
      exact ⟨fun k => ⟨(nomatch ·), fun h => absurd h (hsmall hle k)⟩,
        ⟨(nomatch ·), fun h => absurd hfits (not_le.mpr h.2)⟩, fun _ _ => ⟨d, rfl, hmantissa, hscale⟩⟩

/-- Half a cent below zero is rounded to a cent. -/
theorem half_cent_read : ∃ d, parseAt (some 2) " -.005\n" = .ok d ∧ d.mantissa = -1 ∧ d.scale = 2 := by
  have hspells : (⟨true, [], ['0', '0', '5']⟩ : Literal).Spells (trim " -.005\n".toList) :=
    ofChars?_eq_some_iff.mp (by decide)
  have hround : roundAway ((⟨true, [], ['0', '0', '5']⟩ : Literal).value * (10 ^ 2 : Nat)) = -1 := by
    decide +kernel
  have hread := ((parseAt_exact (some 2) " -.005\n").2 _ hspells (by simp)).2.2
  dsimp only [Option.getD_some] at hread
  rw [hround] at hread
  exact hread (by decide) (by decide)

end Decimal

end RowHistory
