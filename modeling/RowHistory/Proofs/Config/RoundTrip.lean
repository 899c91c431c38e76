import RowHistory.Config
import RowHistory.Proofs.Json.RoundTrip

/-!
# Configurations are read back

A configuration is written as JSON text, and the text gives it back: every name, every size, every
scale, every instant that can be named. This file fixes

* that the members of a record are found by their names (`Json.record?_obj`);
* that each part is decoded from what it is written as (`Bookkeeping.ofJson?_toJson`,
  `Field.ofJson?_toJson`, `Horizon.ofJson?_toJson`, `Options.ofJson?_toJson`);
* that each part is read from its text (`Options.reads_toJson`), and the whole round trip
  (`parse_render`).
-/

namespace RowHistory

namespace Json

/-! ## 1. Records -/

/-- The only member of a name. -/
theorem member?_of_mem {members : List (String × Json)} (h : (members.map Prod.fst).Nodup)
    {name : String} {j : Json} (hmem : (name, j) ∈ members) : member? members name = some (some j) := by
  have hfilter : members.filter (fun m => m.1 = name) = [(name, j)] := by
    induction members with
    | nil => cases hmem
    | cons m members ih =>
      rw [List.map_cons, List.nodup_cons] at h
      rcases List.mem_cons.mp hmem with rfl | hmem
      · have hnone : members.filter (fun m => m.1 = name) = [] := by
          refine List.filter_eq_nil_iff.mpr fun m hm => ?_
          rw [decide_eq_true_eq]
          exact fun heq => h.1 (List.mem_map.mpr ⟨m, hm, heq⟩)
        rw [List.filter_cons_of_pos (by rw [decide_eq_true_eq]), hnone]
      · have hne : ¬ m.1 = name := fun heq => h.1 (heq ▸ List.mem_map_of_mem hmem)
        rw [List.filter_cons_of_neg (by rw [decide_eq_true_eq]; exact hne)]
        exact ih h.2 hmem
  unfold member?
  rw [hfilter]

/-- **An object is a record of its own names**, if these differ. -/
theorem record?_obj {members : List (String × Json)} (h : (members.map Prod.fst).Nodup) :
    record? (members.map Prod.fst) (.obj members) = some (members.map fun m => some m.2) := by
  have hall : ∀ ms : List (String × Json), ms ⊆ members →
      (ms.map Prod.fst).mapM (member? members) = some (ms.map fun m => some m.2) := by
    intro ms hms
    induction ms with
    | nil => rfl
    | cons m ms ih =>
      obtain ⟨hm, hms⟩ := List.cons_subset.mp hms
      simp only [List.map_cons, List.mapM_cons, member?_of_mem h hm, ih hms, Option.bind_eq_bind,
        Option.bind_some, Option.pure_def]
  exact hall members (List.Subset.refl _)

/-- A list is decoded item by item. -/
theorem list?_map {α : Type} {read : Json → Option α} {write : α → Json} {xs : List α}
    (h : ∀ x ∈ xs, read (write x) = some x) : list? read (.arr (xs.map write)) = some xs := by
  show (xs.map write).mapM read = some xs
  induction xs with
  | nil => rfl
  | cons x xs ih =>
    obtain ⟨hx, hxs⟩ := List.forall_mem_cons.mp h
    simp only [List.map_cons, List.mapM_cons, hx, ih hxs, Option.bind_eq_bind, Option.bind_some,
      Option.pure_def]

/-- A text that may be absent. -/
theorem nullable_text? (s : Option String) : nullable text? ((s.map str).getD .null) = some s := by
  cases s <;> rfl

theorem nat?_int {n bound : Nat} (h : n < bound) : nat? bound (.int n) = some n := by
  show (if 0 ≤ (n : Int) ∧ (n : Int) < bound then some (n : Int).toNat else none) = some n
  rw [if_pos ⟨Int.natCast_nonneg n, Int.ofNat_lt.mpr h⟩, Int.toNat_natCast]

end Json

/-! ## 2. Parts -/

theorem Bookkeeping.ofJson?_toJson (b : Bookkeeping) : ofJson? b.toJson = some b := by
  have hrecord : Json.record? memberNames b.toJson = some [some (.str b.validFrom),
      some (.str b.validTo), some (.str b.version), some ((b.lastSeen.map Json.str).getD .null)] :=
    Json.record?_obj (show memberNames.Nodup by decide)
  unfold ofJson?
  simp only [hrecord, Option.bind_eq_bind, Option.bind_some, Json.defaulted, Json.text?,
    Json.nullable_text?]
  rfl

/-- The scale of a declared decimal can be named. -/
def FieldType.HasScale : FieldType → Prop
  | .decimal scale => scale < scaleBound
  | _ => True

instance : (type : FieldType) → Decidable type.HasScale
  | .decimal scale => inferInstanceAs (Decidable (scale < scaleBound))
  | .integer | .float | .boolean | .string | .timestamp => isTrue trivial

theorem FieldKind.choice?_name (k : FieldKind) :
    Json.choice? FieldKind.choices (.str k.name) = some k := by
  cases k <;> rfl

/-- A type is found among the members of its field. -/
theorem FieldType.ofMembers?_members {type : FieldType} (h : type.HasScale) {name kind : Json} :
    ofMembers? (("name", name) :: ("kind", kind) :: type.members) = some type := by
  cases type with
  | decimal scale =>
    have hscale : Json.nat? scaleBound (.int scale) = some scale := Json.nat?_int h
    have htype : Json.member? [("name", name), ("kind", kind), ("type", .str "decimal"),
        ("scale", .int scale)] "type" = some (some (.str "decimal")) := rfl
    have hmember : Json.member? [("name", name), ("kind", kind), ("type", .str "decimal"),
        ("scale", .int scale)] "scale" = some (some (.int scale)) := rfl
    unfold ofMembers? members
    simp -implicitDefEqProofs only [htype, hmember, nameOfJson?, hscale, Option.bind_eq_bind,
      Option.bind_some, if_true, Option.pure_def]
  | integer | float | boolean | string | timestamp => rfl

theorem Field.ofJson?_toJson {f : Field} (h : f.type.HasScale) : ofJson? f.toJson = some f := by
  have hmembers : ∀ name ∈ f.type.members.map Prod.fst, name ≠ "name" ∧ name ≠ "kind" := by
    cases f.type <;> simp [FieldType.members]
  have hnone : ∀ {name : String}, (∀ m ∈ f.type.members.map Prod.fst, m ≠ name) →
      f.type.members.filter (fun m => m.1 = name) = [] := by
    intro name hne
    refine List.filter_eq_nil_iff.mpr fun m hm => ?_
    rw [decide_eq_true_eq]
    exact hne _ (List.mem_map_of_mem hm)
  have hname : Json.member? (("name", .str f.name) :: ("kind", .str f.kind.name) :: f.type.members)
      "name" = some (some (.str f.name)) := by
    simp [Json.member?, hnone fun m hm => (hmembers m hm).1]
  have hkind : Json.member? (("name", .str f.name) :: ("kind", .str f.kind.name) :: f.type.members)
      "kind" = some (some (.str f.kind.name)) := by
    simp [Json.member?, hnone fun m hm => (hmembers m hm).2]
  unfold ofJson? toJson
  simp -implicitDefEqProofs only [hname, hkind, Json.text?, FieldKind.choice?_name,
    FieldType.ofMembers?_members h, Option.bind_eq_bind, Option.bind_some, Option.pure_def]

theorem Classification.ofJson?_toJson {c : Classification} (h : ∀ f ∈ c.fields, f.type.HasScale) :
    ofJson? c.toJson = some c := by
  have hlist : Json.list? Field.ofJson? c.toJson = some c.fields :=
    Json.list?_map fun f hf => Field.ofJson?_toJson (h f hf)
  unfold ofJson?
  rw [hlist]
  rfl

/-- The instant of a fixed horizon can be named. -/
def Horizon.InRange : Horizon → Prop
  | .at t => t.InRange
  | _ => True

instance : (h : Horizon) → Decidable h.InRange
  | .at t => inferInstanceAs (Decidable t.InRange)
  | .farFuture | .unlimited => isTrue trivial

theorem Horizon.instantOfJson?_isoText {t : Instant} (h : t.InRange) :
    instantOfJson? (.str t.isoText) = some t := by
  show (some t.isoText).bind Instant.parseLoose? = some t
  rw [Option.bind_some, Instant.parseLoose?_isoText h]

theorem Horizon.ofJson?_toJson {h : Horizon} (hrange : h.InRange) : ofJson? h.toJson = some h := by
  cases h with
  | farFuture | unlimited => rfl
  | «at» t =>
    show (instantOfJson? (.str t.isoText)).map Horizon.at = _
    rw [instantOfJson?_isoText hrange]
    rfl

/-! ## 3. Options -/

namespace Options

/-- The options can be written: their size and their scales fit their words, and their instants lie in
the years that are kept. -/
structure IsRepresentable (o : Options) : Prop where
  size : o.commitSize < sizeBound
  scales : ∀ f ∈ o.fields.fields, f.type.HasScale
  start : ∀ t ∈ o.startDate, t.InRange
  horizon : o.validTo.InRange

variable {o : Options}

theorem choice?_quote (q : Sql.QuoteStyle) :
    Json.choice? Sql.QuoteStyle.choices (.str q.name) = some q := by
  cases q <;> rfl

theorem nullable_start {start : Option Instant} (h : ∀ t ∈ start, t.InRange) :
    Json.nullable Horizon.instantOfJson? (((start.map Instant.isoText).map Json.str).getD .null) =
      some start := by
  cases start with
  | none => rfl
  | some t =>
    show (Horizon.instantOfJson? (.str t.isoText)).map some = _
    rw [Horizon.instantOfJson?_isoText (h t rfl)]
    rfl

/-- **Options are decoded from their record.** -/
theorem ofJson?_toJson (h : o.IsRepresentable) : ofJson? o.toJson = some o := by
  have hrecord : Json.record? memberNames o.toJson = some [some (.str o.table),
      some ((o.schema.map Json.str).getD .null), some (.str o.quote.name),
      some (.int o.commitSize), some (.bool o.purge), some ((o.purgeWhere.map Json.str).getD .null),
      some (((o.startDate.map Instant.isoText).map Json.str).getD .null), some o.validTo.toJson,
      some o.names.toJson, some o.fields.toJson] :=
    Json.record?_obj (show memberNames.Nodup by decide)
  unfold ofJson?
  simp -implicitDefEqProofs only [hrecord, Option.bind_eq_bind, Option.bind_some, Json.required,
    Json.defaulted, Json.text?, Json.bool?, Json.nullable_text?, choice?_quote, Json.nat?_int h.size,
    nullable_start h.start, Horizon.ofJson?_toJson h.horizon, Bookkeeping.ofJson?_toJson,
    Classification.ofJson?_toJson h.scales]
  rfl

end Options

/-! ## 4. Texts -/

namespace Json

/-- A list is read back if its items are. -/
theorem readsItems_map {α : Type} {write : α → Json} {depth : Nat} {xs : List α}
    (h : ∀ x ∈ xs, Reads .whole depth (write x)) : ReadsItems [] depth (xs.map write) := by
  induction xs with
  | nil => trivial
  | cons x xs ih =>
    obtain ⟨hx, hxs⟩ := List.forall_mem_cons.mp h
    exact ⟨hx, ih hxs⟩

theorem reads_orNull (s : Option String) (d : Demand) (depth : Nat) :
    Reads d depth ((s.map str).getD .null) := by
  cases s <;> trivial

/-- A size of 64 bits is a number that is read back. -/
theorem isWord_natCast {n : Nat} (h : n < 2 ^ 64) : IsWord n := by
  unfold IsWord
  omega

end Json

theorem Field.reads_toJson {f : Field} (h : f.type.HasScale) (depth : Nat) :
    Json.Reads .whole (depth + 1) f.toJson := by
  refine ⟨Nat.succ_pos _, trivial, trivial, ?_⟩
  obtain ⟨name, kind, type⟩ := f
  cases type with
  | decimal scale =>
    have hlt : scale < 2 ^ 64 := Nat.lt_trans h (by decide)
    exact ⟨trivial, Json.isWord_natCast hlt, trivial⟩
  | integer | float | boolean | string | timestamp => exact ⟨trivial, trivial⟩

theorem Classification.reads_toJson {c : Classification} (h : ∀ f ∈ c.fields, f.type.HasScale)
    (depth : Nat) : Json.Reads .whole (depth + 2) c.toJson :=
  ⟨Nat.succ_pos _, Json.readsItems_map fun f hf => Field.reads_toJson (h f hf) depth⟩

theorem Bookkeeping.reads_toJson (b : Bookkeeping) (depth : Nat) :
    Json.Reads demand (depth + 1) b.toJson :=
  ⟨Nat.succ_pos _, trivial, trivial, trivial, Json.reads_orNull _ _ _, trivial⟩

theorem Horizon.reads_toJson (h : Horizon) (depth : Nat) :
    Json.Reads .whole (depth + 1) h.toJson := by
  cases h with
  | farFuture | unlimited => trivial
  | «at» t => exact ⟨Nat.succ_pos _, trivial, trivial⟩

/-- **The record of options is read from its text.** -/
theorem Options.reads_toJson {o : Options} (h : o.IsRepresentable) (depth : Nat) :
    Json.Reads demand (depth + 3) o.toJson := by
  refine ⟨Nat.succ_pos _, trivial, Json.reads_orNull _ _ _, trivial, Json.isWord_natCast h.size, trivial,
    Json.reads_orNull _ _ _, Json.reads_orNull _ _ _, Horizon.reads_toJson _ _,
    Bookkeeping.reads_toJson _ _, Classification.reads_toJson h.scales _, trivial⟩

namespace Config

variable {c : Config}

theorem reads_toJson (h : c.versioning.IsRepresentable) (depth : Nat) :
    Json.Reads demand (depth + 4) c.toJson :=
  ⟨Nat.succ_pos _, trivial, Json.reads_orNull _ _ _, trivial, Options.reads_toJson h depth, trivial⟩

theorem ofJson?_toJson (h : c.versioning.IsRepresentable) : ofJson? c.toJson = some c := by
  have hrecord : Json.record? memberNames c.toJson = some [some (.str c.database),
      some ((c.initSql.map Json.str).getD .null), some (.str c.logLevel),
      some c.versioning.toJson] := Json.record?_obj (show memberNames.Nodup by decide)
  unfold ofJson?
  simp -implicitDefEqProofs only [hrecord, Option.bind_eq_bind, Option.bind_some, Json.required,
    Json.defaulted, Json.text?, Json.nullable_text?, Options.ofJson?_toJson h]
  rfl

end Config

/-- **Configurations and their options are read back from their texts**, whatever they are; a
configuration is then checked. -/
theorem parse_render {o : Options} (h : o.IsRepresentable) :
    Options.parse? o.toJson.render = some o ∧
    ∀ c : Config, c.versioning = o →
      (Json.readWanted? Config.demand c.toJson.render).bind Config.ofJson? = some c ∧
      Config.parse c.toJson.render = c.validate.map fun () => c := by
  refine ⟨?_, ?_⟩
  · unfold Options.parse?
    rw [Json.readWanted?_render (Options.reads_toJson h 124), Option.bind_some, Options.ofJson?_toJson h]
  · rintro c rfl
    have hread : (Json.readWanted? Config.demand c.toJson.render).bind Config.ofJson? = some c := by
      rw [Json.readWanted?_render (Config.reads_toJson h 123), Option.bind_some, Config.ofJson?_toJson h]
    refine ⟨hread, ?_⟩
    unfold Config.parse
    rw [hread]

/-- Options with the last size and scale, a leap second, the last year, and names that need escapes. -/
def Options.extreme : Options :=
  { table := "a\"\\\n\x01é😀"
    schema := some ""
    quote := .backtick
    commitSize := 18446744073709551615
    purge := true
    purgeWhere := some "x = '\t/'"
    startDate := some ⟨1483228799, 1999999999, by decide, by decide⟩
    validTo := .at ⟨8210266876799, 1000000, by decide, by decide⟩
    names := { version := "\x7f", lastSeen := some "\x08\x0c" }
    fields := ⟨[⟨"", .id, .decimal 4294967295⟩, ⟨"version", .ignore, .timestamp⟩]⟩ }

theorem parse_render_extreme : Options.extreme.IsRepresentable ∧
    Options.parse? Options.extreme.toJson.render = some Options.extreme ∧
    (Json.readWanted? Config.demand
      (Config.mk ":memory:" (some "\r") "\x1f" .extreme).toJson.render).bind Config.ofJson? =
        some (Config.mk ":memory:" (some "\r") "\x1f" .extreme) := by
  have h : Options.extreme.IsRepresentable :=
    ⟨by decide +kernel, by decide +kernel, by decide +kernel, by decide +kernel⟩
  obtain ⟨hoptions, hconfig⟩ := parse_render h
  exact ⟨h, hoptions, (hconfig _ rfl).1⟩

end RowHistory
