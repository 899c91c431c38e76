import RowHistory.Decision
import RowHistory.Field.Input
import RowHistory.Proofs.Rows

/-!
# What was stored is equal

A value is bound to a cell, and the declared type of its field reads what the cell gives back. Decimals
and instants come back as texts, truth values as numbers. This file fixes

* the values that a type reads again from what was stored for them (`FieldType.Lasts`), and that each of
  them is equal to what comes back (`Lasts.equal_stored`);
* the values that JSON has for a type (`FieldType.Holds`), all of which last unless they are
  floating-point numbers (`Holds.lasts`);
* the values of a row that was read from JSON (`value_rowOfJson`), and that fields of a sound
  classification have names of their own (`nodup_of_fault?`);
* that a row is identical to a record just if all fields that are compared or updated are equal
  (`againstActive_identical`).
-/

namespace RowHistory

open Sql Text

/-! ## 1. Values of a declared type -/

theorem Decimal.same_self (d : Decimal) : d.same d = true := by
  unfold same
  rw [Nat.max_self, rescale_self]
  exact decide_eq_true rfl

theorem Spaced.same_self (x : Spaced) : x.same x = true := by
  have hzero : roundedDistance? 0 = some 0 := by decide +kernel
  unfold same
  cases x.reading with
  | nan => rfl
  | infinite s => exact decide_eq_true rfl
  | finite s m q =>
    simp only [Int.sub_self, Int.natAbs_zero, hzero, Option.any_some, Nat.zero_le, decide_true]

theorem Normal.same_self (a : Normal) : a.same a = true := by
  cases a with
  | integer | boolean | string | timestamp => exact decide_eq_true rfl
  | decimal d => exact d.same_self
  | float x => exact x.same_self

/-- A floating-point number, of either width. -/
def Value.isFloating : Value → Bool
  | .float32 _ => true
  | .float64 _ => true
  | _ => false

/-- What is not a floating-point number is bound to null, an integer or a text. -/
theorem Value.ofValue_exact {v : Value} (h : v.isFloating = false) :
    v = .null ∨ (∃ n, Cell.ofValue v = .integer n) ∨ ∃ s, Cell.ofValue v = .text s := by
  cases v with
  | null => exact .inl rfl
  | bool | int32 | int64 => exact .inr (.inl ⟨_, rfl⟩)
  | decimal | text | timestamp => exact .inr (.inr ⟨_, rfl⟩)
  | float32 | float64 => cases h

/-- The text of a decimal is read as a double that counts as the same as its own. -/
def Decimal.NearText (d : Decimal) : Prop :=
  (readDouble? d.text).any (fun x =>
    (Spaced.ofReading d.toDouble.reading).same (.ofReading x.reading)) = true

instance (d : Decimal) : Decidable d.NearText :=
  inferInstanceAs (Decidable (_ = _))

namespace FieldType

variable {type : FieldType} {name : String} {v w : Value}

/-- Two values are equal if what they are read as is the same. -/
theorem equal_of_same {a b : Normal} (hv : v.isNull = false) (hw : w.isNull = false)
    (hread : type.read? v = some a) (hread' : type.read? w = some b) (hsame : a.same b = true) :
    type.equal name v w = .ok true := by
  unfold equal normalize
  simp only [hv, hw, hread, hread', Bool.false_eq_true, if_false]
  exact congrArg Except.ok hsame

/-- Values that hold the same instant up to microseconds are equal as timestamps. -/
theorem equal_of_asInstant? {t u : Instant} (hv : v.asInstant? = some t) (hw : w.asInstant? = some u)
    (h : t.truncate = u.truncate) : FieldType.timestamp.equal name v w = .ok true := by
  have hnull : ∀ {v : Value} {t : Instant}, v.asInstant? = some t → v.isNull = false := by
    intro v t hv
    cases v with
    | null => cases hv
    | _ => rfl
  have hread : ∀ {v : Value} {t : Instant}, v.asInstant? = some t →
      FieldType.timestamp.read? v = some (.timestamp t.truncate) := by
    intro v t hv
    rw [FieldType.read?, hv, Option.map_some]
  exact equal_of_same (hnull hv) (hnull hw) (hread hv) (hread hw) (decide_eq_true h)

/-- What the text must be that a value is stored as: a decimal must be written without a fraction where
an integer is read, and read back as itself where a decimal is. -/
def ReadsText : FieldType → Value → Prop
  | .integer, .decimal d => d.scale = 0
  | .decimal _, .decimal d => d.IsSpelled
  | .float, .decimal d => d.NearText
  | .timestamp, .timestamp t => t.InRange
  | _, _ => True

instance (type : FieldType) (v : Value) : Decidable (type.ReadsText v) := by
  unfold ReadsText Decimal.IsSpelled
  split <;> infer_instance

/-- A value that its declared type reads, also from the text that it is stored as. -/
def Lasts (type : FieldType) (v : Value) : Prop :=
  v = .null ∨ (type.read? v).isSome = true ∧ type.ReadsText v

instance (type : FieldType) (v : Value) : Decidable (type.Lasts v) :=
  inferInstanceAs (Decidable (_ ∨ _))

/-- A decimal is read from its text. -/
theorem read?_text {d : Decimal} (hread : (type.read? (.decimal d)).isSome = true)
    (htext : type.ReadsText (.decimal d)) :
    ∃ a b, type.read? (.decimal d) = some a ∧ type.read? (.text d.text) = some b ∧ a.same b = true := by
  cases type with
  | integer =>
    have hscale : d.scale = 0 := htext
    have hrescale : d.rescale 0 = .ok d := by
      rw [← hscale]
      exact d.rescale_self
    have hvalue : Value.asInteger? (.decimal d) =
        if d.same d ∧ InInt64 d.mantissa then some d.mantissa else none := by
      unfold Value.asInteger?
      dsimp only
      rw [hrescale]
    have hfits : InInt64 d.mantissa := by
      by_contra hnot
      rw [read?, hvalue, if_neg fun h => hnot h.2] at hread
      cases hread
    refine ⟨.integer d.mantissa, .integer d.mantissa, ?_, ?_, decide_eq_true rfl⟩
    · rw [read?, hvalue, if_pos ⟨d.same_self, hfits⟩]
      rfl
    · show (readInt64? d.text).map Normal.integer = _
      rw [Decimal.readInt64?_text hscale hfits]
      rfl
  | decimal scale =>
    refine ⟨.decimal d, .decimal d, rfl, ?_, d.same_self⟩
    show (Decimal.parse d.text).toOption.map Normal.decimal = _
    rw [Decimal.parse_text htext]
    rfl
  | float =>
    obtain ⟨x, hx, hsame⟩ := (Option.any_eq_true _ _).mp htext
    refine ⟨_, .float (.ofReading x.reading), rfl, ?_, hsame⟩
    show ((readDouble? d.text).map fun x => Spaced.ofReading x.reading).map Normal.float = _
    rw [hx]
    rfl
  | boolean | string | timestamp => cases hread

/-- **A value that lasts is equal to what comes back** after it was stored. -/
theorem Lasts.equal_stored (h : type.Lasts v) (hv : v.isFloating = false) :
    type.equal name v (Cell.ofValue v).toValue = .ok true := by
  obtain rfl | ⟨hread, htext⟩ := h
  · rfl
  obtain ⟨a, ha⟩ := Option.isSome_iff_exists.mp hread
  cases v with
  | null => rfl
  | float32 | float64 => cases hv
  | bool b =>
    cases type with
    | boolean => cases b <;> rfl
    | integer | decimal | float | string | timestamp => cases hread
  | int32 n =>
    have hwide : type.read? (.int64 n) = some a := by
      rw [← ha]
      cases type <;> rfl
    exact equal_of_same rfl rfl ha hwide a.same_self
  | int64 n => exact equal_of_same rfl rfl ha ha a.same_self
  | text s => exact equal_of_same rfl rfl ha ha a.same_self
  | decimal d =>
    obtain ⟨a, b, ha, hb, hsame⟩ := read?_text hread htext
    exact equal_of_same rfl rfl ha hb hsame
  | timestamp t =>
    cases type with
    | timestamp =>
      have hback : (Value.text t.storageText).asInstant? = some t.truncate := by
        rw [Value.asInstant?, Instant.parse?_storageText htext]
      exact equal_of_asInstant? rfl hback t.isWhole_truncate.truncate_eq.symm
    | integer | decimal | float | boolean | string => cases hread

/-- A decimal of a JSON value has a literal and the declared scale. -/
theorem spelled_decimalOfJson? {scale : Nat} {j : Json} {d : Decimal}
    (h : decimalOfJson? scale j = some d) : d.IsSpelled ∧ d.scale = scale := by
  have hok {x : Except Decimal.Error Decimal} (hx : x.toOption = some d) : x = .ok d :=
    toOption_eq_some.mp hx
  cases j with
  | str s => exact ⟨Decimal.isSpelled_parseAt (hok h), Decimal.scale_of_parseWithScale (hok h)⟩
  | int n =>
    have hint : Json.toInt64? (.int n) = if InInt64 n then some n else none := rfl
    unfold decimalOfJson? at h
    rw [hint] at h
    by_cases hin : InInt64 n
    · rw [if_pos hin] at h
      have hsmall : n.natAbs < 2 ^ 127 := by
        unfold InInt64 int64Min int64Max at hin
        omega
      obtain ⟨hmantissa, hscale⟩ := (Decimal.rescale_ofInt_iff hsmall).mp (hok h)
      exact ⟨Decimal.isSpelled_of_whole hsmall hmantissa, hscale⟩
    · rw [if_neg hin] at h
      exact ⟨Decimal.isSpelled_ofDouble (hok h), Decimal.scale_of_ofDouble (hok h)⟩
  | real x => exact ⟨Decimal.isSpelled_ofDouble (hok h), Decimal.scale_of_ofDouble (hok h)⟩
  | null | bool _ | arr _ | obj _ => cases h

/-- The values that JSON has for a declared type, other than null and floating-point numbers. -/
inductive Holds : FieldType → Value → Prop
  | integer {n : Int} : InInt64 n → Holds .integer (.int64 n)
  | decimal {scale : Nat} {d : Decimal} : d.IsSpelled → d.scale = scale →
      Holds (.decimal scale) (.decimal d)
  | boolean (b : Bool) : Holds .boolean (.bool b)
  | string (s : String) : Holds .string (.text s)
  | timestamp {t : Instant} : t.InRange → Holds .timestamp (.timestamp t)

theorem inInt64_of_toInt64? {j : Json} {n : Int} (h : j.toInt64? = some n) : InInt64 n := by
  unfold Json.toInt64? at h
  split at h
  · obtain ⟨hin, heq⟩ := Option.ite_none_right_eq_some.mp h
    cases heq
    exact hin
  · cases h

theorem holds_of_valueOfJson? {j : Json} (htype : type ≠ .float) (h : type.valueOfJson? j = some v) :
    type.Holds v := by
  cases type with
  | integer =>
    obtain ⟨n, hn, rfl⟩ := Option.map_eq_some_iff.mp h
    exact .integer (inInt64_of_toInt64? hn)
  | decimal scale =>
    obtain ⟨d, hd, rfl⟩ := Option.map_eq_some_iff.mp h
    obtain ⟨hspelled, hscale⟩ := spelled_decimalOfJson? hd
    exact .decimal hspelled hscale
  | float => exact absurd rfl htype
  | boolean =>
    cases j with
    | bool b =>
      cases h
      exact .boolean b
    | null | int _ | real _ | str _ | arr _ | obj _ => cases h
  | string =>
    cases j with
    | str s =>
      cases h
      exact .string s
    | null | bool _ | int _ | real _ | arr _ | obj _ => cases h
  | timestamp =>
    cases j with
    | str s =>
      obtain ⟨t, ht, rfl⟩ := Option.map_eq_some_iff.mp h
      exact .timestamp (Instant.inRange_of_parse? ht)
    | null | bool _ | int _ | real _ | arr _ | obj _ => cases h

/-- A field is read from JSON other than null just if that holds a value of its type. -/
theorem ofJson_eq_ok {field : String} {j : Json} (hj : j ≠ .null) :
    type.ofJson field j = .ok v ↔ type.valueOfJson? j = some v := by
  unfold ofJson
  split
  · exact absurd rfl hj
  · cases type.valueOfJson? j <;> simp

/-- A field that is read from JSON is null if that is, or it has a value of its type. -/
theorem holds_of_ofJson {field : String} {j : Json} (htype : type ≠ .float)
    (h : type.ofJson field j = .ok v) : (j = .null ∧ v = .null) ∨ type.Holds v := by
  by_cases hj : j = .null
  · subst hj
    cases h
    exact .inl ⟨rfl, rfl⟩
  · exact .inr (holds_of_valueOfJson? htype ((ofJson_eq_ok hj).mp h))

/-- **A value of a declared type lasts**, and is no floating-point number. -/
theorem Holds.lasts (h : type.Holds v) : type.Lasts v ∧ v.isFloating = false := by
  cases h with
  | integer | boolean | string => exact ⟨.inr ⟨rfl, trivial⟩, rfl⟩
  | decimal hd _ => exact ⟨.inr ⟨rfl, hd⟩, rfl⟩
  | timestamp ht => exact ⟨.inr ⟨rfl, ht⟩, rfl⟩

end FieldType

/-! ## 2. Rows of JSON -/

namespace Classification

variable {c : Classification} {b : Bookkeeping} {f : Field}

theorem mem_ofKind {kind : FieldKind} : f ∈ c.ofKind kind ↔ f ∈ c.fields ∧ f.kind = kind := by
  unfold ofKind
  rw [List.mem_filter, decide_eq_true_eq]

theorem mem_names {kind : FieldKind} {name : String} (h : name ∈ c.names kind) :
    ∃ f ∈ c.fields, f.kind = kind ∧ f.name = name := by
  obtain ⟨f, hf, hname⟩ := List.mem_map.mp h
  obtain ⟨hmem, hkind⟩ := mem_ofKind.mp hf
  exact ⟨f, hmem, hkind, hname⟩

/-- Fields without a fault have names of their own. -/
theorem nodup_of_fault? {seen : List String} {fields : List Field} (h : fault? b seen fields = none) :
    (fields.map Field.name).Nodup ∧ ∀ f ∈ fields, f.name ∉ seen := by
  induction fields generalizing seen with
  | nil => exact ⟨List.nodup_nil, List.forall_mem_nil _⟩
  | cons f fields ih =>
    unfold fault? at h
    split at h
    · cases h
    split at h
    · cases h
    rename_i hseen
    split at h
    · cases h
    obtain ⟨hnodup, hnew⟩ := ih h
    refine ⟨List.nodup_cons.mpr ⟨fun hmem => ?_, hnodup⟩, List.forall_mem_cons.mpr ⟨hseen, ?_⟩⟩
    · obtain ⟨g, hg, hname⟩ := List.mem_map.mp hmem
      exact hnew g hg (hname ▸ List.mem_cons_self)
    · exact fun g hg hmem => hnew g hg (List.mem_cons_of_mem _ hmem)

/-- A field is found by its name. -/
theorem get?_of_mem (hnames : (c.fields.map Field.name).Nodup) (hf : f ∈ c.fields) :
    c.get? f.name = some f := by
  cases hget : c.get? f.name with
  | none => exact absurd (decide_eq_true rfl) (List.find?_eq_none.mp hget f hf)
  | some g =>
    have hname := List.find?_some hget
    rw [decide_eq_true_eq] at hname
    rw [List.inj_on_of_nodup_map hnames (List.mem_of_find?_eq_some hget) hf hname]

theorem valueOfJson_of_mem {members : List (String × Json)} {entries : List (String × Value)}
    (h : c.entriesOfJson members = .ok entries) {name : String} {v : Value}
    (hmem : (name, v) ∈ entries) : ∃ j, c.valueOfJson name j = .ok v := by
  induction members generalizing entries with
  | nil =>
    cases h
    cases hmem
  | cons m members ih =>
    obtain ⟨n, j⟩ := m
    unfold entriesOfJson at h
    cases hvalue : c.valueOfJson n j with
    | error e =>
      rw [hvalue] at h
      cases h
    | ok u =>
      cases hrest : c.entriesOfJson members with
      | error e =>
        rw [hvalue, hrest] at h
        cases h
      | ok rest =>
        rw [hvalue, hrest] at h
        cases h
        obtain heq | hmem := List.mem_cons.mp hmem
        · cases heq
          exact ⟨j, hvalue⟩
        · exact ih hrest hmem

/-- **A field of a row that was read from JSON** was read by its declared type. -/
theorem value_rowOfJson (hnames : (c.fields.map Field.name).Nodup) {j : Json} {row : Row}
    (h : c.rowOfJson j = .ok row) (hf : f ∈ c.fields) :
    ∃ j', f.type.ofJson f.name j' = .ok (row.value f.name) := by
  cases j with
  | obj members =>
    obtain ⟨entries, hentries, rfl⟩ := ok_of_map h
    obtain hmem | hnull := Row.value_ofList entries f.name
    · obtain ⟨j', hj'⟩ := valueOfJson_of_mem hentries hmem
      unfold valueOfJson at hj'
      rw [get?_of_mem hnames hf] at hj'
      exact ⟨j', hj'⟩
    · exact ⟨.null, by rw [hnull]; rfl⟩
  | null | bool _ | int _ | real _ | str _ | arr _ => cases h

/-! ## 3. Comparisons -/

theorem anyFieldDiffers_eq_false {row stored : Row} {fields : List Field} :
    anyFieldDiffers row stored fields = .ok false ↔ ∀ f ∈ fields, f.equal row stored = .ok true := by
  induction fields with
  | nil => exact ⟨fun _ => List.forall_mem_nil _, fun _ => rfl⟩
  | cons f fields ih =>
    rw [List.forall_mem_cons, ← ih]
    simp only [anyFieldDiffers]
    cases f.equal row stored with
    | error e => simp
    | ok same => cases same <;> simp

variable {row : Row} {active : Record}

/-- The fields of a kind are all equal. -/
def Agrees (c : Classification) (kind : FieldKind) (row stored : Row) : Prop :=
  ∀ f ∈ c.ofKind kind, f.equal row stored = .ok true

/-- **A row is identical to a record** if nothing differs that is compared or updated. -/
theorem againstActive_identical (hcompare : c.Agrees .compare row active.row)
    (hupdate : c.Agrees .update row active.row) :
    c.againstActive row active = .ok ⟨.identical, active.version⟩ := by
  unfold againstActive anyDiffers
  rw [anyFieldDiffers_eq_false.mpr hcompare, anyFieldDiffers_eq_false.mpr hupdate]

/-- What a judgement says of the fields: none that is compared differs unless the row is changed, and
no other one if it is identical. -/
theorem agrees_of_againstActive {natural : Outcome} (h : c.againstActive row active = .ok natural) :
    (natural.status ≠ .changed → c.Agrees .compare row active.row) ∧
      (natural.status = .identical → c.Agrees .update row active.row) := by
  unfold againstActive at h
  split at h
  · cases h
  · cases h
    exact ⟨fun hne => absurd rfl hne, fun heq => nomatch heq⟩
  · rename_i hcompare
    have hagrees : c.Agrees .compare row active.row := anyFieldDiffers_eq_false.mp hcompare
    split at h
    · cases h
    · cases h
      exact ⟨fun _ => hagrees, fun heq => nomatch heq⟩
    · rename_i hupdate
      exact ⟨fun _ => hagrees, fun _ => anyFieldDiffers_eq_false.mp hupdate⟩

end Classification

end RowHistory
