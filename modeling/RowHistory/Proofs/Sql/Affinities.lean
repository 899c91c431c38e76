import RowHistory.Proofs.Binary.Readings
import RowHistory.Proofs.Decimal.RoundTrip
import RowHistory.Sql.Table

/-!
# What columns keep and find again

A column converts what is stored in it, and what is compared with it. This file fixes

* that a column keeps what it stored (`Affinity.store_store`);
* the key of a cell (`Cell.key`): proper cells are equal for the database if their keys are
  (`order_eq_iff`), so that being found is an equality of keys (`compareCells_eq_iff`);
* that cells are ordered, unless they are floating-point numbers (`order_swap`, `order_ge_trans`);
* that a column finds what it stored (`key_read_store`), unless it turns integers into
  floating-point numbers;
* that every column keeps the texts of instants (`keepsInstants`), and that a column which does so
  compares them as instants (`compareCells_instants`).
-/

namespace RowHistory.Sql

open Binary

/-! ## 1. Numbers of texts -/

namespace Cell

/-- No NaN; the database never has one. -/
def IsProper (c : Cell) : Prop :=
  ∀ x, c = .real x → x.reading ≠ .nan

theorem isProper_ofValue (v : Value) : (ofValue v).IsProper := by
  have hreal : ∀ x, (ofValue.ofReal x).IsProper := by
    intro x y h
    unfold ofValue.ofReal at h
    split at h
    · cases h
    · rename_i hx
      cases h
      intro hnan
      exact hx (decide_eq_true hnan)
  cases v with
  | float32 x => exact hreal _
  | float64 x => exact hreal _
  | _ => exact fun _ h => nomatch h

end Cell

/-- The number of a text is an integer or a proper floating-point number. -/
theorem numberOf?_some {s : String} {c : Cell} (h : numberOf? s = some c) :
    (∃ n, c = .integer n) ∨ ∃ x, c = .real x ∧ x.reading ≠ .nan := by
  unfold numberOf? at h
  dsimp only at h
  split at h
  · cases h
  · rename_i n rest _
    generalize (if (spanSign (s.toList.dropWhile isNumberSpace)).1 then -(n.digits : Int)
      else (n.digits : Int)) = i at h
    split at h
    · split at h
      · cases h
        exact .inl ⟨_, rfl⟩
      · cases h
        exact .inr ⟨_, rfl, Double.reading_ofDecimal_ne_nan _ _ _⟩
    · cases h

theorem integral_cases (x : Double) : (∃ i, integral x = .integer i ∧ x.toInt64? = some i) ∨
    integral x = .real x := by
  unfold integral
  cases h : x.toInt64? with
  | none => exact .inr rfl
  | some i =>
    dsimp only
    split
    · exact .inl ⟨i, rfl, rfl⟩
    · exact .inr rfl

/-! ## 2. What is stored -/

namespace Affinity

variable {a : Affinity} {c : Cell}

theorem numeric_text {s : String} {n : Cell} (h : numberOf? s = some n) : numeric (.text s) = n := by
  simp only [numeric, h, Option.getD_some]

theorem numeric_numeric (c : Cell) : numeric (numeric c) = numeric c := by
  cases c with
  | text s =>
    cases h : numberOf? s with
    | none =>
      have hs : numeric (.text s) = .text s := by simp only [numeric, h, Option.getD_none]
      rw [hs, hs]
    | some n =>
      rw [numeric_text h]
      obtain ⟨m, rfl⟩ | ⟨x, rfl, -⟩ := numberOf?_some h <;> rfl
  | _ => rfl

/-- A floating-point number becomes an integer where it is one. -/
def settled : Cell → Cell
  | .real x => integral x
  | c => c

theorem settled_settled (c : Cell) : settled (settled c) = settled c := by
  cases c with
  | real x =>
    show settled (integral x) = integral x
    obtain ⟨i, hi, -⟩ | hx := integral_cases x
    · rw [hi]
      rfl
    · rw [hx]
      exact hx
  | _ => rfl

theorem numeric_settled (h : numeric c = c) : numeric (settled c) = settled c := by
  cases c with
  | real x =>
    show numeric (integral x) = integral x
    obtain ⟨i, hi, -⟩ | hx := integral_cases x
    · rw [hi]
      rfl
    · rw [hx]
      rfl
  | _ => exact h

theorem floating_floating (c : Cell) : floating (floating c) = floating c := by
  cases c with
  | integer n =>
    show Cell.real (if (Double.ofInt n).same Double.zero then Double.zero else Double.ofInt n) = _
    split
    · rename_i h
      rw [← Double.ofInt_eq_zero h]
      rfl
    · rfl
  | real x =>
    unfold floating
    dsimp only
    split
    · rw [if_pos (by decide)]
    · rfl
  | _ => rfl

theorem numeric_floating (h : numeric c = c) : numeric (floating c) = floating c := by
  cases c with
  | integer n => rfl
  | real x => rfl
  | _ => exact h

/-- What each column stores. -/
theorem store_eq (a : Affinity) (c : Cell) : a.store c = match a with
    | .integer => settled (numeric c)
    | .real => floating (numeric c)
    | .text => textual c
    | .blob => c := by
  cases a with
  | integer =>
    cases c with
    | text s =>
      cases h : numberOf? s with
      | none => simp only [store, numeric, h, Option.getD_none, settled]
      | some n =>
        rw [numeric_text h]
        obtain ⟨m, rfl⟩ | ⟨x, rfl, -⟩ := numberOf?_some h <;> simp only [store, h, settled]
    | _ => rfl
  | real =>
    cases c with
    | text s =>
      cases h : numberOf? s with
      | none => simp only [store, numeric, h, Option.getD_none, floating]
      | some n => simp only [store, numeric, h, Option.getD_some]
    | _ => rfl
  | text => cases c <;> rfl
  | blob => cases c <;> rfl

/-- **What a column stored, it keeps.** -/
theorem store_store (a : Affinity) (c : Cell) : a.store (a.store c) = a.store c := by
  rw [store_eq, store_eq]
  cases a with
  | integer =>
    show settled (numeric (settled (numeric c))) = settled (numeric c)
    rw [numeric_settled (numeric_numeric c), settled_settled]
  | real =>
    show floating (numeric (floating (numeric c))) = floating (numeric c)
    rw [numeric_floating (numeric_numeric c), floating_floating]
  | text => cases c <;> rfl
  | blob => rfl

theorem store_null (a : Affinity) : a.store .null = .null := by
  cases a <;> rfl

end Affinity

/-! ## 3. Keys -/

/-- What the database compares of a cell. -/
inductive Key where
  | null
  /-- An infinity with its sign, or a count of least units; none for NaN. -/
  | number (value : Option (Bool ⊕ Int))
  | text (s : String)
  | blob (bytes : List UInt8)
deriving DecidableEq

namespace Cell

/-- The key of a cell. -/
def key : Cell → Key
  | .null => .null
  | .integer n => .number (some (.inr (n * wholeUnits)))
  | .real x => .number x.reading.value?
  | .text s => .text s
  | .blob bytes => .blob bytes

variable {c d : Cell}

theorem value?_integerReading (n : Int) :
    (integerReading n).value? = some (.inr (n * wholeUnits)) := by
  unfold integerReading Reading.value?
  simp only [unitCount_zero]
  generalize wholeUnits = u
  by_cases h : n < 0
  · simp only [h, decide_true, ↓reduceIte, Int.natCast_mul, Int.ofNat_natAbs_of_nonpos (Int.le_of_lt h),
      Int.neg_mul, Int.neg_neg]
  · simp only [h, decide_false, Bool.false_eq_true, ↓reduceIte, Int.natCast_mul,
      Int.natAbs_of_nonneg (Int.not_lt.mp h)]

theorem IsProper.isSome {x : Double} (h : (Cell.real x).IsProper) : x.reading.value?.isSome := by
  cases hr : x.reading with
  | nan => exact absurd hr (h x rfl)
  | _ => rfl

theorem getD_compare?_eq {r s : Reading} {o : Ordering} (hr : r.value?.isSome)
    (hs : s.value?.isSome) : (r.compare? s).getD o = .eq ↔ r.value? = s.value? := by
  cases hc : r.compare? s with
  | none => cases r <;> cases s <;> simp [Reading.compare?, Reading.value?] at hc hr hs
  | some p =>
    rw [Option.getD_some]
    constructor
    · rintro rfl
      exact (Reading.compare?_eq_iff.mp hc).2
    · intro heq
      have h := Reading.compare?_eq_iff.mpr ⟨hr, heq⟩
      rw [hc] at h
      exact Option.some.inj h

/-- **Proper cells are equal for the database if their keys are.** -/
theorem order_eq_iff (hc : c.IsProper) (hd : d.IsProper) : c.order d = .eq ↔ c.key = d.key := by
  cases c with
  | integer n =>
    cases d with
    | integer m =>
      show compare n m = .eq ↔ _
      have hpos : (wholeUnits : Int) ≠ 0 := Int.natCast_ne_zero.mpr (Nat.ne_of_gt wholeUnits_pos)
      simp only [Int.compare_eq_eq, key, Key.number.injEq, Option.some.injEq, Sum.inr.injEq]
      exact ⟨fun h => by rw [h], fun h => Int.eq_of_mul_eq_mul_right hpos h⟩
    | real y =>
      show ((integerReading n).compare? y.reading).getD .gt = .eq ↔ _
      rw [getD_compare?_eq (by rw [value?_integerReading]; rfl) hd.isSome, value?_integerReading]
      simp only [key, Key.number.injEq]
    | _ => exact ⟨nofun, nofun⟩
  | real x =>
    cases d with
    | integer m =>
      show (x.reading.compare? (integerReading m)).getD .lt = .eq ↔ _
      rw [getD_compare?_eq hc.isSome (by rw [value?_integerReading]; rfl), value?_integerReading]
      simp only [key, Key.number.injEq]
    | real y =>
      show (x.reading.compare? y.reading).getD .eq = .eq ↔ _
      rw [getD_compare?_eq hc.isSome hd.isSome]
      simp only [key, Key.number.injEq]
    | _ => exact ⟨nofun, nofun⟩
  | text s =>
    cases d with
    | text u => simp only [order, Std.LawfulEqOrd.compare_eq_iff_eq, key, Key.text.injEq]
    | _ => exact ⟨nofun, nofun⟩
  | blob b =>
    cases d with
    | blob b' =>
      show compare (b.map UInt8.toNat) (b'.map UInt8.toNat) = .eq ↔ _
      have hinj : Function.Injective UInt8.toNat := fun x y h => UInt8.toNat_inj.mp h
      simp only [Std.LawfulEqOrd.compare_eq_iff_eq, key, Key.blob.injEq]
      exact ⟨fun h => List.map_injective_iff.mpr hinj h, fun h => by rw [h]⟩
    | _ => exact ⟨nofun, nofun⟩
  | null =>
    cases d with
    | null => exact ⟨fun _ => rfl, fun _ => rfl⟩
    | _ => exact ⟨nofun, nofun⟩

/-- Cells other than floating-point numbers with the same key are the same. -/
theorem eq_of_key (hc : ∀ x, c ≠ .real x) (hd : ∀ x, d ≠ .real x) (h : c.key = d.key) : c = d := by
  cases c with
  | real x => exact absurd rfl (hc x)
  | integer n =>
    cases d with
    | integer m =>
      have hpos : (wholeUnits : Int) ≠ 0 := Int.natCast_ne_zero.mpr (Nat.ne_of_gt wholeUnits_pos)
      simp only [key, Key.number.injEq, Option.some.injEq, Sum.inr.injEq] at h
      rw [Int.eq_of_mul_eq_mul_right hpos h]
    | real y => exact absurd rfl (hd y)
    | null | text _ | blob _ => cases h
  | null =>
    cases d with
    | null => rfl
    | real y => exact absurd rfl (hd y)
    | integer _ | text _ | blob _ => cases h
  | text s =>
    cases d with
    | text u => rw [Key.text.inj h]
    | real y => exact absurd rfl (hd y)
    | null | integer _ | blob _ => cases h
  | blob b =>
    cases d with
    | blob b' => rw [Key.blob.inj h]
    | real y => exact absurd rfl (hd y)
    | null | integer _ | text _ => cases h

/-- Kinds of cells are ordered by their ranks. -/
theorem order_of_rank_ne (h : c.rank ≠ d.rank) : c.order d = compare c.rank d.rank := by
  cases c with
  | null =>
    cases d with
    | null => exact absurd rfl h
    | integer _ | real _ | text _ | blob _ => rfl
  | integer _ | real _ =>
    cases d with
    | integer _ | real _ => exact absurd rfl h
    | null | text _ | blob _ => rfl
  | text _ =>
    cases d with
    | text _ => exact absurd rfl h
    | null | integer _ | real _ | blob _ => rfl
  | blob _ =>
    cases d with
    | blob _ => exact absurd rfl h
    | null | integer _ | real _ | text _ => rfl

theorem rank_le_of_order (h : c.order d ≠ .lt) : d.rank ≤ c.rank := by
  refine Nat.not_lt.mp fun hlt => h ?_
  rw [order_of_rank_ne (Nat.ne_of_lt hlt)]
  exact Nat.compare_eq_lt.mpr hlt

theorem compare_ge_trans {α : Type} [Ord α] [Std.TransOrd α] {x y z : α} (h : compare x y ≠ .lt)
    (h' : compare y z ≠ .lt) : compare x z ≠ .lt :=
  Ordering.isGE_iff_ne_lt.mp
    (Std.TransCmp.isGE_trans (Ordering.isGE_iff_ne_lt.mpr h) (Ordering.isGE_iff_ne_lt.mpr h'))

variable {e : Cell} (hc : ∀ x, c ≠ .real x) (hd : ∀ x, d ≠ .real x)

include hc hd

theorem order_swap : d.order c = (c.order d).swap := by
  by_cases hrank : c.rank = d.rank
  · cases c with
    | real x => exact absurd rfl (hc x)
    | null =>
      cases d with
      | null => rfl
      | integer _ | real _ | text _ | blob _ => cases hrank
    | integer _ =>
      cases d with
      | real x => exact absurd rfl (hd x)
      | integer _ => exact Std.OrientedOrd.eq_swap
      | null | text _ | blob _ => cases hrank
    | text _ =>
      cases d with
      | text _ => exact Std.OrientedOrd.eq_swap
      | null | integer _ | real _ | blob _ => cases hrank
    | blob _ =>
      cases d with
      | blob _ => exact Std.OrientedOrd.eq_swap
      | null | integer _ | real _ | text _ => cases hrank
  · rw [order_of_rank_ne hrank, order_of_rank_ne (Ne.symm hrank)]
    exact Std.OrientedOrd.eq_swap

/-- **Cells other than floating-point numbers are ordered**: one that is not below a second, which is not below
a third, is not below that. -/
theorem order_ge_trans (he : ∀ x, e ≠ .real x) (h : c.order d ≠ .lt) (h' : d.order e ≠ .lt) :
    c.order e ≠ .lt := by
  have hle := rank_le_of_order h
  have hle' := rank_le_of_order h'
  by_cases hrank : c.rank = e.rank
  · -- Cells of one rank are of one kind.
    have hrank' : c.rank = d.rank := by omega
    cases c with
    | real x => exact absurd rfl (hc x)
    | null =>
      cases e with
      | null => exact nofun
      | integer _ | real _ | text _ | blob _ => cases hrank
    | integer _ =>
      cases e with
      | real x => exact absurd rfl (he x)
      | integer _ =>
        cases d with
        | real x => exact absurd rfl (hd x)
        | integer _ => exact compare_ge_trans h h'
        | null | text _ | blob _ => cases hrank'
      | null | text _ | blob _ => cases hrank
    | text _ =>
      cases e with
      | text _ =>
        cases d with
        | text _ => exact compare_ge_trans h h'
        | null | integer _ | real _ | blob _ => cases hrank'
      | null | integer _ | real _ | blob _ => cases hrank
    | blob _ =>
      cases e with
      | blob _ =>
        cases d with
        | blob _ => exact compare_ge_trans h h'
        | null | integer _ | real _ | text _ => cases hrank'
      | null | integer _ | real _ | text _ => cases hrank
  · rw [order_of_rank_ne hrank]
    exact fun hlt => hrank (by have := Nat.compare_eq_lt.mp hlt; omega)

end Cell

/-! ## 4. What is found -/

namespace Affinity

variable {a : Affinity} {c v : Cell}

/-- A cell as it is compared with a column. -/
def read : Affinity → Cell → Cell
  | .integer, c => numeric c
  | .real, c => numeric c
  | .text, c => textual c
  | .blob, c => c

theorem isProper_numeric (h : c.IsProper) : (numeric c).IsProper := by
  cases c with
  | text s =>
    cases hs : numberOf? s with
    | none =>
      simp only [numeric, hs, Option.getD_none]
      exact h
    | some n =>
      rw [numeric_text hs]
      obtain ⟨m, rfl⟩ | ⟨x, rfl, hx⟩ := numberOf?_some hs
      · exact fun _ h => nomatch h
      · intro y hy
        cases hy
        exact hx
  | _ => exact h

theorem isProper_textual (h : c.IsProper) : (textual c).IsProper := by
  cases c with
  | integer n => exact fun _ h => nomatch h
  | real x => exact fun _ h => nomatch h
  | _ => exact h

theorem numeric_eq_null : numeric c = .null ↔ c = .null := by
  cases c with
  | text s =>
    cases hs : numberOf? s with
    | none => simp [numeric, hs]
    | some n =>
      rw [numeric_text hs]
      obtain ⟨m, rfl⟩ | ⟨x, rfl, -⟩ := numberOf?_some hs <;> simp
  | _ => simp [numeric]

theorem textual_eq_null : textual c = .null ↔ c = .null := by
  cases c <;> simp [textual]

/-- Two cells compared as they are. -/
theorem compare_plain (hc : c.IsProper) (hv : v.IsProper) :
    (if c.isNull || v.isNull then none else some (Relation.eq.holds (c.order v))) = some true ↔
      c ≠ .null ∧ v ≠ .null ∧ c.key = v.key := by
  by_cases hnull : c = .null ∨ v = .null
  · have hor : (c.isNull || v.isNull) = true := by
      simpa [Cell.isNull] using hnull
    rw [if_pos hor]
    simp only [reduceCtorEq, false_iff]
    rintro ⟨hc, hv, -⟩
    exact hnull.elim hc hv
  · have hor : ¬ (c.isNull || v.isNull) = true := by
      simpa [Cell.isNull] using hnull
    rw [if_neg hor, Option.some.injEq, ← Cell.order_eq_iff hc hv]
    simp only [Relation.holds, decide_eq_true_eq]
    exact ⟨fun h => ⟨fun hn => hnull (.inl hn), fun hn => hnull (.inr hn), h⟩, fun h => h.2.2⟩

/-- **A column finds a value if the keys are equal**, as they are read there. -/
theorem compareCells_eq_iff (hstored : a.store c = c) (hc : c.IsProper) (hv : v.IsProper) :
    compareCells .eq (some a) c v = some true ↔
      c ≠ .null ∧ v ≠ .null ∧ (a.read c).key = (a.read v).key := by
  have hnumeric := compare_plain (isProper_numeric hc) (isProper_numeric hv)
  rw [Ne, Ne, numeric_eq_null, numeric_eq_null] at hnumeric
  have htextual := compare_plain (isProper_textual hc) (isProper_textual hv)
  rw [Ne, Ne, textual_eq_null, textual_eq_null] at htextual
  cases a with
  | integer => exact hnumeric
  | real => exact hnumeric
  | blob => exact compare_plain hc hv
  | text =>
    by_cases ht : (isText c || isText v) = true
    · have halign : align (some .text) c v = (textual c, textual v) := if_pos ht
      unfold compareCells
      rw [halign]
      exact htextual
    · have halign : align (some .text) c v = (c, v) := if_neg ht
      unfold compareCells
      rw [halign]
      refine (compare_plain hc hv).trans ?_
      -- What is stored is no number, so a number beside it is different either way.
      cases c with
      | integer n => exact nomatch hstored
      | real x => exact nomatch hstored
      | text s => exact absurd rfl ht
      | null => simp
      | blob b =>
        cases v with
        | text s => exact absurd rfl ht
        | null | blob _ => exact Iff.rfl
        | integer _ | real _ => exact ⟨fun h => (nomatch h.2.2), fun h => (nomatch h.2.2)⟩

theorem key_settled (c : Cell) : (settled c).key = c.key := by
  cases c with
  | real x =>
    show (integral x).key = Key.number x.reading.value?
    obtain ⟨i, hi, hx⟩ | hx := integral_cases x
    · rw [hi, Double.value?_of_toInt64? hx]
      rfl
    · rw [hx]
      rfl
  | _ => rfl

/-- **A column finds what it stored**, unless it stores integers as floating-point numbers. -/
theorem key_read_store (ha : a ≠ .real) (c : Cell) : (a.read (a.store c)).key = (a.read c).key := by
  rw [store_eq]
  cases a with
  | real => exact absurd rfl ha
  | integer =>
    show (numeric (settled (numeric c))).key = (numeric c).key
    rw [numeric_settled (numeric_numeric c), key_settled]
  | text => cases c <;> rfl
  | blob => rfl

theorem store_eq_null : a.store c = .null ↔ c = .null := by
  refine ⟨fun h => ?_, fun h => by rw [h, store_null]⟩
  rw [store_eq] at h
  cases a with
  | integer =>
    refine numeric_eq_null.mp ?_
    cases hn : numeric c with
    | null => rfl
    | real x =>
      rw [hn] at h
      obtain ⟨i, hi, -⟩ | hx := integral_cases x
      · exact nomatch hi.symm.trans h
      · exact nomatch hx.symm.trans h
    | _ =>
      rw [hn] at h
      cases h
  | real =>
    refine numeric_eq_null.mp ?_
    cases hn : numeric c with
    | null => rfl
    | _ =>
      rw [hn] at h
      cases h
  | text => exact textual_eq_null.mp h
  | blob => exact h

theorem isProper_store (h : c.IsProper) : (a.store c).IsProper := by
  rw [store_eq]
  cases a with
  | integer =>
    show (settled (numeric c)).IsProper
    have hproper := isProper_numeric h
    cases hn : numeric c with
    | real x =>
      rw [hn] at hproper
      show (integral x).IsProper
      obtain ⟨i, hi, -⟩ | hx := integral_cases x
      · rw [hi]
        exact fun _ h => nomatch h
      · rw [hx]
        exact hproper
    | _ => exact fun _ h => nomatch h
  | real =>
    show (floating (numeric c)).IsProper
    have hproper := isProper_numeric h
    cases hn : numeric c with
    | integer n =>
      intro x hx
      cases hx
      exact Double.reading_ofInt_ne_nan n
    | real x =>
      rw [hn] at hproper
      intro y hy
      have hy' : y = if x.same Double.zero then Double.zero else x := (Cell.real.inj hy).symm
      rw [hy']
      split
      · decide
      · exact hproper x rfl
    | _ => exact fun _ h => nomatch h
  | text => exact isProper_textual h
  | blob => exact h

/-- **What a column stored is found by the value that was given.** -/
theorem compareCells_store (ha : a ≠ .real) (hnull : c ≠ .null) (hc : c.IsProper) :
    compareCells .eq (some a) (a.store c) c = some true := by
  rw [compareCells_eq_iff (store_store a c) (isProper_store hc) hc]
  exact ⟨fun h => hnull (store_eq_null.mp h), hnull, key_read_store ha c⟩

/-- What a column gives back as it is, it compares as it is. -/
theorem read_of_store (h : a.store c = c) : a.read c = c := by
  cases a with
  | blob => rfl
  | text =>
    cases c with
    | integer n | real x => cases h
    | null | text _ | blob _ => rfl
  | integer | real =>
    cases c with
    | text s =>
      -- A text that spells a number would have become it.
      cases hs : numberOf? s with
      | none => simp only [read, numeric, hs, Option.getD_none]
      | some n =>
        obtain ⟨m, rfl⟩ | ⟨x, rfl, -⟩ := numberOf?_some hs
        · simp only [store, hs, floating, reduceCtorEq] at h
        · obtain ⟨i, hi, -⟩ | hx := integral_cases x
          · simp only [store, hs, floating, hi, reduceCtorEq] at h
          · simp only [store, hs, floating, hx, reduceCtorEq] at h
    | null | integer _ | real _ | blob _ => rfl

/-- A column that keeps integers finds them. -/
theorem compareCells_integers (h : ∀ n : Int, a.store (.integer n) = .integer n) (n m : Int) :
    compareCells .eq (some a) (.integer n) (.integer m) = some true ↔ n = m := by
  have hread : ∀ n, a.read (.integer n) = .integer n := by
    intro n
    cases a with
    | text => exact nomatch h n
    | _ => rfl
  have hproper : ∀ n : Int, (Cell.integer n).IsProper := fun n _ h => nomatch h
  rw [compareCells_eq_iff (h n) (hproper n) (hproper m), hread, hread,
    ← Cell.order_eq_iff (hproper n) (hproper m)]
  show _ ∧ _ ∧ compare n m = .eq ↔ _
  rw [Int.compare_eq_eq]
  exact ⟨fun h => h.2.2, fun h => ⟨nofun, nofun, h⟩⟩

/-! ## 5. Instants -/

/-- A column keeps the texts of instants. -/
def KeepsInstants (a : Affinity) : Prop :=
  ∀ t : Instant, t.IsStorable → a.store (.text t.storageText) = .text t.storageText

theorem isNumberSpace_of_isDigit {c : Char} (h : c.isDigit = true) : isNumberSpace c = false := by
  have hle : 48 ≤ c.toNat := (Char.isDigit_iff_toNat.mp h).1
  have hne : c ≠ ' ' := by
    rintro rfl
    cases h
  unfold isNumberSpace
  rw [decide_eq_false hne, Bool.false_or, Bool.and_eq_false_iff]
  exact .inr (decide_eq_false (by omega))

/-- The text of an instant spells no number: what follows its year is no blank. -/
theorem numberOf?_storageText {t : Instant} (h : t.IsStorable) : numberOf? t.storageText = none := by
  obtain ⟨rest, hchars⟩ : ∃ rest, t.storageChars =
      Text.padded 4 t.date.year.natAbs ++ '-' :: rest := ⟨_, h.storageChars_eq⟩
  generalize hyear : Text.padded 4 t.date.year.natAbs = year at hchars
  have hspan : Text.spanDigits (year ++ '-' :: rest) = (year, '-' :: rest) :=
    hyear ▸ Text.spanDigits_padded fun c hc => by
      rw [List.head?_cons] at hc
      cases hc
      rfl
  obtain ⟨d, ds, rfl⟩ := List.exists_cons_of_ne_nil (hyear ▸ Text.padded_ne_nil 4 t.date.year.natAbs)
  have hdigit : d.isDigit = true := Text.isDigit_of_mem_padded (hyear ▸ List.mem_cons_self)
  have hnumeral : Numeral.span? (d :: ds ++ '-' :: rest) = some (⟨d :: ds, [], 0, false⟩, '-' :: rest) := by
    unfold Numeral.span?
    rw [hspan]
    rfl
  unfold numberOf?
  rw [Instant.storageText, String.toList_ofList, hchars, List.cons_append, List.dropWhile_cons_of_neg
    (by rw [isNumberSpace_of_isDigit hdigit]; exact Bool.false_ne_true)]
  dsimp only
  rw [spanSign_of_isDigit hdigit, ← List.cons_append, hnumeral]
  rfl

/-- **Every column keeps the texts of instants.** -/
theorem keepsInstants (a : Affinity) : a.KeepsInstants := by
  intro t ht
  have hnone := numberOf?_storageText ht
  cases a with
  | integer => simp only [store, hnone]
  | real => simp only [store, hnone]
  | text => rfl
  | blob => rfl

theorem numeric_of_store {s : String} (ha : a = .integer ∨ a = .real)
    (h : a.store (.text s) = .text s) : numeric (.text s) = .text s := by
  cases hs : numberOf? s with
  | none => simp only [numeric, hs, Option.getD_none]
  | some n =>
    exfalso
    rw [store_eq, numeric_text hs] at h
    obtain rfl | rfl := ha
    · obtain ⟨m, rfl⟩ | ⟨x, rfl, -⟩ := numberOf?_some hs
      · cases h
      · obtain ⟨i, hi, -⟩ | hx := integral_cases x
        · exact nomatch hi.symm.trans h
        · exact nomatch hx.symm.trans h
    · obtain ⟨m, rfl⟩ | ⟨x, rfl, -⟩ := numberOf?_some hs <;> exact nomatch h

/-- **A column that keeps the texts of instants compares them as instants.** -/
theorem compareCells_instants (ha : a.KeepsInstants) {t u : Instant} (ht : t.IsStorable)
    (hu : u.IsStorable) (op : Relation) :
    compareCells op (some a) (.text t.storageText) (.text u.storageText) =
      some (op.holds (compare t u)) := by
  have halign : align (some a) (.text t.storageText) (.text u.storageText) =
      (.text t.storageText, .text u.storageText) := by
    have hnumeric : a = .integer ∨ a = .real →
        (numeric (.text t.storageText), numeric (.text u.storageText)) =
          (.text t.storageText, .text u.storageText) := by
      intro h
      rw [numeric_of_store h (ha t ht), numeric_of_store h (ha u hu)]
    cases a with
    | integer => exact hnumeric (.inl rfl)
    | real => exact hnumeric (.inr rfl)
    | text => rfl
    | blob => rfl
  unfold compareCells
  rw [halign, ← Instant.compare_storageText ht hu]
  rfl

end Affinity

end RowHistory.Sql
