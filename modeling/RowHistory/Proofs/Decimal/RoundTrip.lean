import RowHistory.Proofs.Decimal.Overflow
import RowHistory.Proofs.Instant.RoundTrip

/-!
# Decimals are read back

A decimal that is stored as text comes back from the text, with its scale. Only the least mantissa does
not: its magnitude overflows in a literal. This file fixes

* the decimals that have a literal (`Decimal.IsSpelled`), which all do that were read from one
  (`Literal.isSpelled_toDecimal`);
* the parts of the literal that a decimal is written as (`ofChars?_chars`), and their value
  (`digitsValue_append`);
* that the text of a decimal is read back (`parseAt_text`), also as an integer if it has no fraction
  digits (`readInt64?_text`);
* that decimals of one scale have texts of their own (`eq_of_text_eq`).
-/

namespace RowHistory

open Text

/-- A digit is no sign. -/
theorem spanSign_of_isDigit {c : Char} (h : c.isDigit = true) (cs : List Char) :
    spanSign (c :: cs) = (false, c :: cs) := by
  have hminus : c ≠ '-' := by
    rintro rfl
    cases h
  have hplus : c ≠ '+' := by
    rintro rfl
    cases h
  unfold spanSign
  split
  · rename_i heq
    exact absurd (List.cons.inj heq).1 hminus
  · rename_i heq
    exact absurd (List.cons.inj heq).1 hplus
  · rfl

namespace Text

theorem padded_zero (n : Nat) : padded 0 n = digits n := by
  unfold padded
  rw [Nat.zero_sub]
  rfl

theorem readNat?_padded (w n : Nat) : readNat? (padded w n) = some n := by
  have hdigits : (padded w n).all Char.isDigit = true :=
    List.all_eq_true.mpr fun _ hc => isDigit_of_mem_padded hc
  unfold readNat?
  rw [if_pos ⟨padded_ne_nil w n, hdigits⟩, digitsValue_padded]

theorem readInt?_padded (w n : Nat) : readInt? (padded w n) = some (n : Int) := by
  obtain ⟨c, cs, hcons⟩ := List.exists_cons_of_ne_nil (padded_ne_nil w n)
  have hc : c.isDigit = true := isDigit_of_mem_padded (hcons ▸ List.mem_cons_self)
  have hplain : readInt? (c :: cs) = (readNat? (c :: cs)).map fun n => (n : Int) := by
    unfold readInt?
    split
    · rename_i heq
      cases heq
      cases hc
    · rename_i heq
      cases heq
      cases hc
    · rfl
  rw [hcons, hplain, ← hcons, readNat?_padded]
  rfl

/-- A numeral is read as its number, if it is within 64 bits. -/
theorem readInt64?_padded {w n : Nat} {k : Int} (h : readInt64? (String.ofList (padded w n)) = some k) :
    k = n := by
  have htrim : trim (padded w n) = padded w n := by
    have hstart := trimStart_padded w n []
    rw [List.append_nil] at hstart
    unfold trim
    rw [hstart]
    exact trimEnd_padded w n []
  unfold readInt64? at h
  rw [String.toList_ofList, htrim, readInt?_padded] at h
  exact (Option.some.inj (Option.filter_eq_some_iff.mp h).1).symm

/-- Digits behind others count less by their number. -/
theorem digitsValue_append (ds es : List Char) :
    digitsValue (ds ++ es) = 10 ^ es.length * digitsValue ds + digitsValue es := by
  unfold digitsValue
  rw [Nat.ofDigitChars_append, Nat.ofDigitChars_eq_ofDigitChars_zero]

end Text

namespace Decimal

variable {x : Decimal} {scale : Nat}

/-! ## 1. Decimals with a literal -/

/-- The decimal has a literal: its magnitude does not overflow. -/
def IsSpelled (x : Decimal) : Prop :=
  x.mantissa.natAbs < 2 ^ 127

/-- **What is read from a literal has one.** -/
theorem Literal.isSpelled_toDecimal {l : Literal} (h : l.toDecimal scale = .ok x) : x.IsSpelled := by
  rw [Literal.toDecimal_eq] at h
  split at h
  · cases h
  · split at h
    · cases h
    · rename_i hlt
      unfold IsSpelled
      rw [(ofParts_ok h).1]
      split <;> omega

theorem isSpelled_parseAt {s : Option Nat} {literal : String} (h : parseAt s literal = .ok x) :
    x.IsSpelled := by
  unfold parseAt at h
  split at h
  · cases h
  · exact Literal.isSpelled_toDecimal h

theorem isSpelled_ofDouble {d : Double} (h : ofDouble d scale = .ok x) : x.IsSpelled := by
  unfold ofDouble at h
  split at h
  · exact isSpelled_parseAt h
  · cases h

/-- A small integer has a literal at every scale: the magnitude that overflows is no multiple of
five. -/
theorem isSpelled_of_whole {n : Int} (hn : n.natAbs < 2 ^ 127) (h : x.mantissa = n * 10 ^ scale) :
    x.IsSpelled := by
  have hfits := x.mantissa_fits
  rw [h] at hfits
  unfold Fits at hfits
  unfold IsSpelled
  rw [h]
  cases scale with
  | zero =>
    rw [Int.pow_zero, Int.mul_one]
    exact hn
  | succ k =>
    have hfive : (5 : Int) ∣ n * 10 ^ (k + 1) := by
      rw [Int.pow_succ, ← Int.mul_assoc]
      exact Int.dvd_trans (by decide) (Int.dvd_mul_left _ 10)
    generalize n * 10 ^ (k + 1) = m at hfits hfive ⊢
    omega

/-- **An integer is widened exactly**, or not at all. -/
theorem rescale_ofInt_iff {n : Int} (hn : n.natAbs < 2 ^ 127) :
    ((ofInt n).bind fun whole => whole.rescale scale) = .ok x ↔
      x.mantissa = n * 10 ^ scale ∧ x.scale = scale := by
  have hwhole : ofInt n = .ok ⟨n, 0, fits_of_natAbs_lt hn, Nat.zero_le _⟩ := ofParts_of_fits _ _
  rw [hwhole]
  show rescale _ scale = .ok x ↔ _
  by_cases hscale : maxScale < scale
  · rw [rescale_of_scale_gt hscale]
    refine ⟨(nomatch ·), fun h => absurd x.scale_le ?_⟩
    rw [h.2]
    exact Nat.not_le.mpr hscale
  · rw [rescale_of_le (Nat.not_lt.mp hscale) (Nat.zero_le _), Nat.sub_zero]
    refine ⟨ofParts_ok, fun h => ?_⟩
    rw [← h.1, ← h.2]
    exact ofParts_self x

theorem scale_of_parseWithScale {literal : String} (h : parseWithScale literal scale = .ok x) :
    x.scale = scale := by
  unfold parseWithScale parseAt at h
  split at h
  · cases h
  · rw [Option.getD_some, Literal.toDecimal_eq] at h
    split at h
    · cases h
    · split at h
      · cases h
      · exact (ofParts_ok h).2

theorem scale_of_ofDouble {d : Double} (h : ofDouble d scale = .ok x) : x.scale = scale := by
  unfold ofDouble at h
  split at h
  · exact scale_of_parseWithScale h
  · cases h

/-! ## 2. The literal of a decimal -/

/-- The fraction digits that a decimal is written with. -/
def fraction (x : Decimal) : List Char :=
  if x.scale = 0 then [] else padded x.scale (x.mantissa.natAbs % 10 ^ x.scale)

/-- The characters of a decimal, by the parts of its literal. -/
theorem chars_eq (x : Decimal) : x.chars = (if x.mantissa < 0 then ['-'] else []) ++
    (digits (x.mantissa.natAbs / 10 ^ x.scale) ++ if x.scale = 0 then [] else '.' :: x.fraction) := by
  have hpower : wrapUnsigned (10 ^ x.scale) = 10 ^ x.scale :=
    wrapUnsigned_of_lt (Nat.lt_trans (tenPower_lt x.scale_le) (by decide))
  unfold chars fraction
  dsimp only
  rw [hpower]
  by_cases hscale : x.scale = 0
  · simp only [hscale, if_true, Nat.pow_zero, Nat.div_one, List.append_nil]
    split <;> rfl
  · simp only [hscale, if_false]
    split <;> rfl

theorem isDigit_of_mem_digits {n : Nat} {c : Char} (h : c ∈ digits n) : c.isDigit = true := by
  rw [← padded_zero] at h
  exact isDigit_of_mem_padded h

theorem isDigit_of_mem_fraction {c : Char} (h : c ∈ x.fraction) : c.isDigit = true := by
  unfold fraction at h
  split at h
  · cases h
  · exact isDigit_of_mem_padded h

theorem length_fraction (x : Decimal) : x.fraction.length = x.scale := by
  unfold fraction
  split
  · rename_i hzero
    exact hzero.symm
  · rename_i hscale
    exact length_padded (Nat.pos_of_ne_zero hscale) (Nat.mod_lt _ (Nat.pow_pos (by decide)))

theorem digitsValue_fraction (x : Decimal) :
    digitsValue x.fraction = x.mantissa.natAbs % 10 ^ x.scale := by
  unfold fraction
  split
  · rename_i hzero
    rw [hzero, Nat.pow_zero, Nat.mod_one]
    rfl
  · exact digitsValue_padded _ _

/-- Nothing is trimmed off the text of a decimal. -/
theorem trim_chars (x : Decimal) : trim x.chars = x.chars := by
  have hstart : trimStart x.chars = x.chars := by
    rw [chars_eq]
    split
    · exact trimStart_cons (by decide)
    · rw [List.nil_append, ← padded_zero]
      exact trimStart_padded _ _ _
  have hend : trimEnd x.chars = x.chars := by
    rw [chars_eq, ← List.append_assoc, fraction]
    by_cases hscale : x.scale = 0
    · rw [if_pos hscale, List.append_nil, ← padded_zero]
      exact trimEnd_padded _ _ _
    · rw [if_neg hscale, if_neg hscale, List.append_cons]
      exact trimEnd_padded _ _ _
  unfold trim
  rw [hstart, hend]

/-- A text of digits is cut at its point. -/
theorem splitPoint_digits {ds : List Char} (h : ∀ c ∈ ds, c.isDigit = true) (rest : List Char) :
    splitPoint (ds ++ '.' :: rest) = (ds, rest) ∧ splitPoint ds = (ds, []) := by
  have hdigits : ∀ c ∈ ds, decide (c ≠ '.') = true := by
    intro c hc
    refine decide_eq_true ?_
    rintro rfl
    exact absurd (h _ hc) (by decide)
  unfold splitPoint
  constructor
  · rw [List.takeWhile_append_of_pos hdigits, List.dropWhile_append_of_pos hdigits]
    simp
  · rw [List.takeWhile_eq_self_iff.mpr hdigits, List.dropWhile_eq_nil_iff.mpr hdigits]
    rfl

/-- **A decimal is written as a literal** of its sign, its whole part and its fraction digits. -/
theorem ofChars?_chars (x : Decimal) : Literal.ofChars? x.chars =
    some ⟨decide (x.mantissa < 0), digits (x.mantissa.natAbs / 10 ^ x.scale), x.fraction⟩ := by
  have hdigits : ∀ c ∈ digits (x.mantissa.natAbs / 10 ^ x.scale), c.isDigit = true := fun _ hc =>
    isDigit_of_mem_digits hc
  have hne : digits (x.mantissa.natAbs / 10 ^ x.scale) ≠ [] := Nat.toDigits_ne_nil
  have hall := List.all_eq_true.mpr hdigits
  have hfraction := List.all_eq_true.mpr fun c hc => isDigit_of_mem_fraction (x := x) (c := c) hc
  have hsign : spanSign x.chars = (decide (x.mantissa < 0), digits (x.mantissa.natAbs / 10 ^ x.scale) ++
      if x.scale = 0 then [] else '.' :: x.fraction) := by
    rw [chars_eq]
    split
    · rename_i hneg
      rw [decide_eq_true hneg]
      rfl
    · rename_i hneg
      rw [decide_eq_false hneg, List.nil_append]
      obtain ⟨c, cs, hcons⟩ := List.exists_cons_of_ne_nil hne
      rw [hcons, List.cons_append]
      exact spanSign_of_isDigit (hdigits c (hcons ▸ List.mem_cons_self)) _
  have hsplit : splitPoint (digits (x.mantissa.natAbs / 10 ^ x.scale) ++
      if x.scale = 0 then [] else '.' :: x.fraction) =
        (digits (x.mantissa.natAbs / 10 ^ x.scale), x.fraction) := by
    split
    · rename_i hzero
      rw [List.append_nil, (splitPoint_digits hdigits []).2, fraction, if_pos hzero]
    · exact (splitPoint_digits hdigits _).1
  unfold Literal.ofChars?
  rw [hsign]
  dsimp only
  rw [hsplit]
  dsimp only
  rw [if_neg (by simp only [hne, hall, hfraction, false_and, not_true_eq_false, or_self,
    not_false_eq_true])]

/-- The literal of a decimal has its magnitude. -/
theorem magnitude_chars (x : Decimal) (negative : Bool) :
    Literal.magnitude ⟨negative, digits (x.mantissa.natAbs / 10 ^ x.scale), x.fraction⟩ x.scale =
      x.mantissa.natAbs := by
  have hwhole : digitsValue (digits (x.mantissa.natAbs / 10 ^ x.scale)) =
      x.mantissa.natAbs / 10 ^ x.scale := by
    rw [← padded_zero, digitsValue_padded]
  have hlength := x.length_fraction
  unfold Literal.magnitude
  dsimp only
  rw [List.take_of_length_le (le_of_eq hlength), List.drop_of_length_le (le_of_eq hlength), hlength,
    Nat.sub_self, Nat.pow_zero, Nat.mul_one, digitsValue_append, hwhole, digitsValue_fraction, hlength]
  exact Nat.div_add_mod _ _

/-! ## 3. Reading -/

/-- The text of a decimal, read at its own scale. Only a magnitude that no literal has overflows. -/
theorem parseAt_text (x : Decimal) {target : Option Nat} (h : target.getD x.scale = x.scale) :
    parseAt target x.text = if 2 ^ 127 ≤ x.mantissa.natAbs then .error .overflow else .ok x := by
  have hscale : min (x.fraction.length % 2 ^ 32) maxScale = x.scale := by
    have hle := x.scale_le
    rw [length_fraction, Nat.mod_eq_of_lt (Nat.lt_of_le_of_lt hle (by decide))]
    exact Nat.min_eq_left hle
  have hsigned : (if decide (x.mantissa < 0) = true then -(x.mantissa.natAbs : Int)
      else x.mantissa.natAbs) = x.mantissa := by
    simp only [decide_eq_true_eq]
    split <;> omega
  unfold parseAt text
  rw [String.toList_ofList, trim_chars, ofChars?_chars]
  dsimp only
  rw [hscale, h, Literal.toDecimal_eq, if_neg (Nat.not_lt.mpr x.scale_le), magnitude_chars, hsigned,
    ofParts_self]

/-- **The text of a decimal is read back**, if it has a literal. -/
theorem parse_text (h : x.IsSpelled) : parse x.text = .ok x := by
  unfold parse
  rw [parseAt_text x rfl, if_neg (Nat.not_le.mpr h)]

/-- Decimals of one scale have texts of their own. -/
theorem eq_of_text_eq {y : Decimal} (hscale : y.scale = x.scale) (h : y.text = x.text) : y = x := by
  have hchars : y.chars = x.chars := String.ofList_injective h
  have hliteral : some _ = some _ := (ofChars?_chars y).symm.trans (hchars ▸ ofChars?_chars x)
  obtain ⟨hsign, hwhole, hfraction⟩ := Literal.mk.inj (Option.some.inj hliteral)
  have hmagnitude : y.mantissa.natAbs = x.mantissa.natAbs := by
    rw [← magnitude_chars y true, ← magnitude_chars x true, hwhole, hfraction, hscale]
  rw [decide_eq_decide] at hsign
  exact ext_parts (by omega) hscale

/-- **Decimals come back from their texts**, at the scale that the text shows and at their own. The one
without a literal is refused. No step of the printing overflows, and at one scale no two decimals have the
same text. -/
theorem text_read_back (x : Decimal) :
    (x.mantissa ≠ -2 ^ 127 → parse x.text = .ok x ∧ parseWithScale x.text x.scale = .ok x) ∧
    (x.mantissa = -2 ^ 127 →
      parse x.text = .error .overflow ∧ parseWithScale x.text x.scale = .error .overflow) ∧
    (x.mantissa.natAbs < 2 ^ 128 ∧ 10 ^ x.scale < 2 ^ 128) ∧
    ∀ y : Decimal, y.scale = x.scale → y.text = x.text → y = x := by
  have hfits := x.mantissa_fits
  unfold Fits at hfits
  have hnatural : parse x.text = _ := parseAt_text x rfl
  have hgiven : parseWithScale x.text x.scale = _ := parseAt_text x rfl
  refine ⟨fun hne => ?_, fun hleast => ?_, ⟨by omega, ?_⟩, fun y => eq_of_text_eq⟩
  · rw [if_neg (by omega)] at hnatural hgiven
    exact ⟨hnatural, hgiven⟩
  · rw [if_pos (by omega)] at hnatural hgiven
    exact ⟨hnatural, hgiven⟩
  · exact Nat.lt_trans (tenPower_lt x.scale_le) (by decide)

/-- The least mantissa is refused, and the one after it comes back. -/
theorem extreme_mantissas_read_back :
    parse (⟨-2 ^ 127 + 1, 28, by decide, by decide⟩ : Decimal).text =
      .ok ⟨-2 ^ 127 + 1, 28, by decide, by decide⟩ ∧
    parse (⟨-2 ^ 127, 28, by decide, by decide⟩ : Decimal).text = .error .overflow :=
  ⟨((text_read_back _).1 (by decide)).1, ((text_read_back _).2.1 rfl).1⟩

/-- The text of a decimal without fraction digits is read as an integer. -/
theorem readInt64?_text (hscale : x.scale = 0) (hfits : InInt64 x.mantissa) :
    readInt64? x.text = some x.mantissa := by
  have hint : readInt? x.chars = some x.mantissa := by
    unfold chars
    simp only [hscale, if_true]
    rw [← padded_zero]
    by_cases hneg : x.mantissa < 0
    · rw [if_pos hneg, readInt?, readNat?_padded]
      exact congrArg some (show -(x.mantissa.natAbs : Int) = x.mantissa by omega)
    · rw [if_neg hneg, readInt?_padded]
      exact congrArg some (show (x.mantissa.natAbs : Int) = x.mantissa by omega)
  unfold readInt64? text
  rw [String.toList_ofList, trim_chars, hint, Option.filter_some, if_pos (decide_eq_true hfits)]

end Decimal

end RowHistory
