import RowHistory.Proofs.Decimal.Rounding
import RowHistory.Proofs.Field.RoundTrip

/-!
# Equality by meaning

Two values of a field are equal if they mean the same once both are read as the declared type. This file
fixes

* that decimals are the same if they are the same number (`Decimal.same_iff_value`), which is so although a
  mantissa that overflows at the larger scale counts as different (`Decimal.same_of_le`);
* what a value means that was read as a type (`Normal.meaning?`): floating-point numbers mean nothing, since
  they are compared up to their spacing;
* that equality under any other type is agreement of meanings (`FieldType.equal_iff`), hence an
  equivalence, under which null has no other equal (`equality_by_meaning`).
-/

namespace RowHistory

/-! ## 1. Decimals -/

namespace Decimal

variable {x y : Decimal}

/-- The number that a decimal stands for. -/
def value (x : Decimal) : ℚ :=
  x.mantissa / (10 ^ x.scale : Nat)

theorem same_comm (x y : Decimal) : x.same y = y.same x := by
  unfold same
  rw [Nat.max_comm]
  cases x.rescale (max y.scale x.scale) with
  | error e => cases y.rescale (max y.scale x.scale) <;> rfl
  | ok a =>
    cases y.rescale (max y.scale x.scale) with
    | error e => rfl
    | ok b => exact decide_eq_decide.mpr eq_comm

/-- A mantissa that overflows at the larger scale is none that is stored there. -/
theorem same_of_le (h : x.scale ≤ y.scale) :
    x.same y = true ↔ x.mantissa * 10 ^ (y.scale - x.scale) = y.mantissa := by
  unfold same
  rw [Nat.max_eq_right h, rescale_self, rescale_of_le y.scale_le h]
  by_cases hfits : Fits (x.mantissa * 10 ^ (y.scale - x.scale))
  · rw [ofParts_of_fits hfits y.scale_le]
    exact decide_eq_true_iff
  · rw [(ofParts_error y.scale_le).mpr ⟨rfl, hfits⟩]
    refine ⟨(nomatch ·), fun heq => absurd y.mantissa_fits ?_⟩
    rwa [← heq]

/-- **Decimals are the same if they are the same number.** -/
theorem same_iff_value : x.same y = true ↔ x.value = y.value := by
  have hle : ∀ {x y : Decimal}, x.scale ≤ y.scale → (x.same y = true ↔ x.value = y.value) := by
    intro x y h
    have hpow : 10 ^ y.scale = 10 ^ x.scale * 10 ^ (y.scale - x.scale) := by
      rw [← Nat.pow_add, Nat.add_sub_cancel' h]
    unfold value
    rw [same_of_le h, tenPower_eq_natCast, hpow, Nat.cast_mul,
      eq_div_iff (mul_ne_zero (natCast_pow_ne_zero _) (natCast_pow_ne_zero _)), ← mul_assoc,
      div_mul_cancel₀ _ (natCast_pow_ne_zero _)]
    exact_mod_cast Iff.rfl
  obtain h | h := Nat.le_total x.scale y.scale
  · exact hle h
  · rw [same_comm, hle h, eq_comm]

/-- The same number, without fractions. -/
theorem value_eq_iff : x.value = y.value ↔ x.mantissa * 10 ^ y.scale = y.mantissa * 10 ^ x.scale := by
  unfold value
  rw [div_eq_div_iff (natCast_pow_ne_zero _) (natCast_pow_ne_zero _), tenPower_eq_natCast,
    tenPower_eq_natCast]
  exact_mod_cast Iff.rfl

theorem same_equivalence : Equivalence fun x y : Decimal => x.same y = true where
  refl := same_self
  symm h := by rwa [same_comm]
  trans h h' := same_iff_value.mpr ((same_iff_value.mp h).trans (same_iff_value.mp h'))

end Decimal

/-! ## 2. Values -/

/-- What a value means under a declared type. -/
inductive Meaning where
  | integer (n : Int)
  | number (q : ℚ)
  | boolean (b : Bool)
  | string (s : String)
  | timestamp (t : Instant)

/-- What a value means that was read as a type. -/
def Normal.meaning? : Normal → Option Meaning
  | .integer n => some (.integer n)
  | .decimal d => some (.number d.value)
  | .float _ => none
  | .boolean b => some (.boolean b)
  | .string s => some (.string s)
  | .timestamp t => some (.timestamp t)

/-- **Values that mean something are the same if they mean the same.** -/
theorem Normal.same_iff_meaning {a b : Normal} (ha : a.meaning?.isSome) :
    a.same b = true ↔ a.meaning? = b.meaning? := by
  cases a with
  | float x => cases ha
  | integer | decimal | boolean | string | timestamp =>
    cases b <;> simp [Normal.same, Normal.meaning?, Decimal.same_iff_value]

namespace FieldType

variable {type : FieldType} {field : String} {v w : Value}

/-- The value can be read as the type, or is null. -/
def Normalizes (type : FieldType) (field : String) (v : Value) : Prop :=
  ∃ a, type.normalize field v = .ok a

theorem normalize_eq_ok {a : Option Normal} (h : type.normalize field v = .ok a) :
    (a = none ↔ v = .null) ∧ ∀ n ∈ a, type.read? v = some n := by
  unfold normalize at h
  split at h
  · rename_i hnull
    cases h
    cases v with
    | null => exact ⟨⟨fun _ => rfl, fun _ => rfl⟩, fun _ hn => absurd hn (Option.not_mem_none _)⟩
    | _ => cases hnull
  · rename_i hnull
    have hv : v ≠ .null := by
      rintro rfl
      exact hnull rfl
    split at h
    · rename_i n hread
      cases h
      refine ⟨⟨(nomatch ·), fun heq => absurd heq hv⟩, ?_⟩
      rintro _ ⟨⟩
      exact hread
    · cases h

/-- What is read as a type other than that of floating-point numbers means something. -/
theorem meaning?_of_read? (htype : type ≠ .float) {n : Normal} (h : type.read? v = some n) :
    n.meaning?.isSome := by
  cases type with
  | float => exact absurd rfl htype
  | integer | decimal | boolean | string | timestamp =>
    obtain ⟨b, -, rfl⟩ := Option.map_eq_some_iff.mp h
    rfl

/-- What is read from two values is the same if both mean the same; null means nothing. -/
theorem sameNormal_iff {a b : Option Normal} (ha : ∀ n ∈ a, n.meaning?.isSome)
    (hb : ∀ n ∈ b, n.meaning?.isSome) :
    sameNormal a b = true ↔ a.bind Normal.meaning? = b.bind Normal.meaning? := by
  cases a with
  | none =>
    cases b with
    | none => exact ⟨fun _ => rfl, fun _ => rfl⟩
    | some n =>
      obtain ⟨m, hm⟩ := Option.isSome_iff_exists.mp (hb n rfl)
      simp [sameNormal, hm]
  | some n =>
    cases b with
    | none =>
      obtain ⟨m, hm⟩ := Option.isSome_iff_exists.mp (ha n rfl)
      simp [sameNormal, hm]
    | some n' => exact Normal.same_iff_meaning (ha n rfl)

/-- What a value means as a type. -/
def meaning? (type : FieldType) (field : String) (v : Value) : Option Meaning :=
  ((type.normalize field v).toOption.join).bind Normal.meaning?

/-- **Two values that can be read are equal if they mean the same.** -/
theorem equal_iff (htype : type ≠ .float) (hv : type.Normalizes field v) (hw : type.Normalizes field w) :
    ∃ b, type.equal field v w = .ok b ∧
      (b = true ↔ type.meaning? field v = type.meaning? field w) := by
  obtain ⟨a, ha⟩ := hv
  obtain ⟨b, hb⟩ := hw
  have hmeans : ∀ {v : Value} {a : Option Normal}, type.normalize field v = .ok a →
      ∀ n ∈ a, n.meaning?.isSome := fun h n hn =>
    meaning?_of_read? htype ((normalize_eq_ok h).2 n hn)
  refine ⟨sameNormal a b, ?_, ?_⟩
  · unfold equal
    rw [ha, hb]
  · unfold meaning?
    rw [ha, hb]
    exact sameNormal_iff (hmeans ha) (hmeans hb)

/-- Only values that can be read are compared. -/
theorem equal_ok_iff (htype : type ≠ .float) : (∃ b, type.equal field v w = .ok b) ↔
    type.Normalizes field v ∧ type.Normalizes field w := by
  constructor
  · rintro ⟨b, h⟩
    unfold equal at h
    split at h
    · cases h
    · rename_i a ha
      split at h
      · cases h
      · rename_i a' ha'
        exact ⟨⟨a, ha⟩, ⟨a', ha'⟩⟩
  · rintro ⟨hv, hw⟩
    obtain ⟨b, hb, -⟩ := equal_iff htype hv hw
    exact ⟨b, hb⟩

theorem equal_true_iff (htype : type ≠ .float) (hv : type.Normalizes field v)
    (hw : type.Normalizes field w) :
    type.equal field v w = .ok true ↔ type.meaning? field v = type.meaning? field w := by
  obtain ⟨b, hb, hiff⟩ := equal_iff htype hv hw
  rw [hb, ← hiff]
  exact ⟨Except.ok.inj, congrArg Except.ok⟩

/-- **Equality is an equivalence** on the values that can be read. -/
theorem equal_equivalence (htype : type ≠ .float) : Equivalence
    fun v w : { v // type.Normalizes field v } => type.equal field v w = .ok true where
  refl v := (equal_true_iff htype v.2 v.2).mpr rfl
  symm {v w} h := (equal_true_iff htype w.2 v.2).mpr ((equal_true_iff htype v.2 w.2).mp h).symm
  trans {u v w} h h' := (equal_true_iff htype u.2 w.2).mpr
    (((equal_true_iff htype u.2 v.2).mp h).trans ((equal_true_iff htype v.2 w.2).mp h'))

/-- **Null is equal to null only.** -/
theorem equal_null_iff : (type.equal field .null v = .ok true ↔ v = .null) ∧
    (type.equal field v .null = .ok true ↔ v = .null) := by
  have hnone : type.normalize field v = .ok none ↔ v = .null := by
    refine ⟨fun h => (normalize_eq_ok h).1.mp rfl, ?_⟩
    rintro rfl
    rfl
  have hnull : type.normalize field .null = .ok none := rfl
  unfold equal
  rw [hnull, ← hnone]
  cases type.normalize field v with
  | error e => simp
  | ok a => cases a <;> simp [sameNormal]

end FieldType

/-- **Equality is that of numbers, and under a declared type that of meanings.** Decimals are the same just if
they are the same number, at whatever scales, also where a mantissa overflows at the larger scale. Under every
type other than that of floating-point numbers the values that can be read are the ones that are compared,
equality is an equivalence on them, and null is equal to null only. -/
theorem equality_by_meaning :
    (∀ x y : Decimal, x.same y = true ↔ x.mantissa * 10 ^ y.scale = y.mantissa * 10 ^ x.scale) ∧
    (Equivalence fun x y : Decimal => x.same y = true) ∧
    ∀ (type : FieldType) (field : String), type ≠ .float →
      (∀ v w, (∃ b, type.equal field v w = .ok b) ↔ type.Normalizes field v ∧ type.Normalizes field w) ∧
      (Equivalence fun v w : { v // type.Normalizes field v } => type.equal field v w = .ok true) ∧
      ∀ v, (type.equal field .null v = .ok true ↔ v = .null) ∧
        (type.equal field v .null = .ok true ↔ v = .null) :=
  ⟨fun _ _ => Decimal.same_iff_value.trans Decimal.value_eq_iff, Decimal.same_equivalence,
    fun _ _ htype => ⟨fun _ _ => FieldType.equal_ok_iff htype, FieldType.equal_equivalence htype,
      fun _ => FieldType.equal_null_iff⟩⟩

/-- A text and a double that both are a decimal are equal: `12.500` and `12.5`, by way of `12.50`. -/
theorem price_spellings_equal : (FieldType.decimal 2).equal "price" (.text "12.500")
    (.float64 ⟨0x4029000000000000⟩) = .ok true := by
  have hprice : (FieldType.decimal 2).Normalizes "price" (.decimal ⟨1250, 2, by decide, by decide⟩) := ⟨_, rfl⟩
  have htext : (FieldType.decimal 2).Normalizes "price" (.text "12.500") := ⟨_, rfl⟩
  have hdouble : (FieldType.decimal 2).Normalizes "price" (.float64 ⟨0x4029000000000000⟩) := ⟨_, rfl⟩
  have hleft : (FieldType.decimal 2).equal "price" (.text "12.500")
      (.decimal ⟨1250, 2, by decide, by decide⟩) = .ok true := by decide +kernel
  have hright : (FieldType.decimal 2).equal "price" (.decimal ⟨1250, 2, by decide, by decide⟩)
      (.float64 ⟨0x4029000000000000⟩) = .ok true := by decide +kernel
  exact (equality_by_meaning.2.2 (.decimal 2) "price" (by decide)).2.1.trans (x := ⟨_, htext⟩)
    (y := ⟨_, hprice⟩) (z := ⟨_, hdouble⟩) hleft hright

end RowHistory
