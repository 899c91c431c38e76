import RowHistory.Proofs.Field.Equality
import RowHistory.Proofs.Instant.Storing

/-!
# Values from JSON are canonical

A field that is read from JSON has one form for each thing that it can mean, so that nothing is lost when it
is written out, and its identifier is found by its text. This file fixes

* that a value is read again from the JSON that it is written as (`Holds.read_back`);
* that decimals of one scale, and instants, are stored as the same text just if they are equal
  (`Holds.text_eq_iff`);
* both for whatever JSON a field accepts (`typed_json_canonical`).
-/

namespace RowHistory

open Sql Text

theorem Decimal.same_iff_eq {x y : Decimal} (h : x.scale = y.scale) : x.same y = true ↔ x = y := by
  rw [same_of_le (le_of_eq h), h, Nat.sub_self, Int.pow_zero, Int.mul_one]
  exact ⟨fun hmantissa => ext_parts hmantissa h, congrArg mantissa⟩

/-- **The stored texts of instants are equal just if the instants are**, up to microseconds. -/
theorem Instant.storageText_eq_iff {t u : Instant} (ht : t.InRange) (hu : u.InRange) :
    t.storageText = u.storageText ↔ t.truncate = u.truncate := by
  constructor
  · intro h
    have hparse := parse?_storageText ht
    rw [h, parse?_storageText hu] at hparse
    exact (Option.some.inj hparse).symm
  · intro h
    rw [← storageText_truncate t, h, storageText_truncate]

namespace FieldType

variable {type : FieldType} {field : String} {v w : Value}

/-- A value of a type is equal to itself. -/
theorem Holds.equal_self (h : type.Holds v) : type.equal field v v = .ok true := by
  cases h <;> exact equal_of_same rfl rfl rfl rfl (Normal.same_self _)

/-- **What a value is written as in JSON is read as a value that is equal to it.** -/
theorem Holds.read_back (h : type.Holds v) :
    ∃ v', type.ofJson field v.toJson = .ok v' ∧ type.equal field v v' = .ok true := by
  have hself : type.equal field v v = .ok true := h.equal_self
  cases h with
  | integer hn =>
    refine ⟨_, ?_, hself⟩
    simp only [Value.toJson, ofJson, valueOfJson?, Json.toInt64?, if_pos hn, Option.map_some]
  | @decimal scale d hd hscale =>
    subst hscale
    have hread : Decimal.parseWithScale d.text d.scale = .ok d :=
      (d.parseAt_text rfl).trans (if_neg (Nat.not_le.mpr hd))
    refine ⟨_, ?_, hself⟩
    simp only [Value.toJson, ofJson, valueOfJson?, decimalOfJson?, hread, Except.toOption, Option.map_some]
  | boolean | string => exact ⟨_, rfl, hself⟩
  | @timestamp t ht =>
    refine ⟨.timestamp t.truncate, ?_, equal_of_asInstant? rfl rfl t.isWhole_truncate.truncate_eq.symm⟩
    simp only [Value.toJson, ofJson, valueOfJson?, Instant.parse?_storageText ht, Option.map_some]

/-- **Decimals and instants of a field are stored as the same text just if they are equal.** -/
theorem Holds.text_eq_iff (htype : type = .timestamp ∨ ∃ scale, type = .decimal scale)
    (hv : type.Holds v) (hw : type.Holds w) : ∃ s u, Cell.ofValue v = .text s ∧
      Cell.ofValue w = .text u ∧ (s = u ↔ type.equal field v w = .ok true) := by
  cases hv with
  | integer | boolean | string => simp at htype
  | @decimal scale d hd hscale =>
    cases hw with
    | @decimal _ e he hscale' =>
      have hequal : (FieldType.decimal scale).equal field (.decimal d) (.decimal e) = .ok (d.same e) := rfl
      have hscales : d.scale = e.scale := hscale.trans hscale'.symm
      refine ⟨_, _, rfl, rfl, ?_⟩
      rw [hequal, Except.ok.injEq, Decimal.same_iff_eq hscales]
      exact ⟨Decimal.eq_of_text_eq hscales, congrArg Decimal.text⟩
  | @timestamp t ht =>
    cases hw with
    | @timestamp u hu =>
      have hequal : FieldType.timestamp.equal field (.timestamp t) (.timestamp u) =
          .ok (decide (t.truncate = u.truncate)) := rfl
      refine ⟨_, _, rfl, rfl, ?_⟩
      rw [hequal, Except.ok.injEq, decide_eq_true_eq]
      exact Instant.storageText_eq_iff ht hu

end FieldType

/-- **Typed JSON is canonical.** Whatever a field of a type other than that of floating-point numbers accepts is
accepted again in the form in which it is written out, and is equal to what it was. What is not null is stored
by a decimal or timestamp field as a text, and two such texts are the same just if the values are equal. -/
theorem typed_json_canonical (type : FieldType) (field : String) (htype : type ≠ .float) :
    (∀ j v, type.ofJson field j = .ok v →
      ∃ v', type.ofJson field v.toJson = .ok v' ∧ type.equal field v v' = .ok true) ∧
    ((type = .timestamp ∨ ∃ scale, type = .decimal scale) →
      ∀ j k v w, j ≠ .null → k ≠ .null → type.ofJson field j = .ok v → type.ofJson field k = .ok w →
        ∃ s u, Cell.ofValue v = .text s ∧ Cell.ofValue w = .text u ∧
          (s = u ↔ type.equal field v w = .ok true)) := by
  refine ⟨fun j v h => ?_, fun htext j k v w hj hk hv hw => ?_⟩
  · obtain ⟨-, rfl⟩ | hholds := FieldType.holds_of_ofJson htype h
    · exact ⟨.null, rfl, rfl⟩
    · exact hholds.read_back
  · have hholds : ∀ {j v}, j ≠ .null → type.ofJson field j = .ok v → type.Holds v := fun hj h =>
      FieldType.holds_of_valueOfJson? htype ((FieldType.ofJson_eq_ok hj).mp h)
    exact (hholds hj hv).text_eq_iff htext (hholds hk hw)

/-- One instant in two zones, once with digits below a microsecond, is stored as one text, and read again. -/
theorem zoned_instants_canonical : ∃ v w s,
    FieldType.timestamp.ofJson "at" (.str "2024-05-01T14:00:00.0010004+02:00") = .ok v ∧
    FieldType.timestamp.ofJson "at" (.str "2024-05-01 12:00:00.001") = .ok w ∧ v ≠ w ∧
    Cell.ofValue v = .text s ∧ Cell.ofValue w = .text s ∧
    ∃ v', FieldType.timestamp.ofJson "at" v.toJson = .ok v' ∧
      FieldType.timestamp.equal "at" v v' = .ok true := by
  have hv : FieldType.timestamp.ofJson "at" (.str "2024-05-01T14:00:00.0010004+02:00") =
      .ok (.timestamp ⟨1714564800, 1000400, by decide, by decide⟩) := by decide +kernel
  have hw : FieldType.timestamp.ofJson "at" (.str "2024-05-01 12:00:00.001") =
      .ok (.timestamp ⟨1714564800, 1000000, by decide, by decide⟩) := by decide +kernel
  obtain ⟨hback, htexts⟩ := typed_json_canonical .timestamp "at" (by decide)
  obtain ⟨s, u, hs, hu, hiff⟩ := htexts (.inl rfl) _ _ _ _ (by nofun) (by nofun) hv hw
  obtain rfl : s = u := hiff.mpr (by decide)
  exact ⟨_, _, s, hv, hw, by decide, hs, hu, hback _ _ hv⟩

end RowHistory
