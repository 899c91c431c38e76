import RowHistory.Proofs.Versions.Lookups
import RowHistory.Proofs.Versions.Results

/-!
# Lives of identifiers

Rows come one after the other, and each is stamped with the tick at which it comes. What becomes of an
identifier does not depend on these ticks, as long as no version ends by itself, and it does not depend
on the rows of other identifiers at all. This file fixes

* stored rows without their times (`Layout.veiled`);
* the versions of one identifier without times (`Life`), with what an incoming row is beside them
  (`Life.natural`) and what it makes of them (`Life.step`);
* the rows of a table that are those of a life (`Layout.Lives`), and that a row is judged as the life
  says (`Lives.natural_of_judged`, `Lives.judged_of_natural`);
* that a step of the machine takes the life of its identifier to the next one, and leaves the rows of
  all others (`Step.lives`, `Step.filter_other`).
-/

namespace RowHistory

open Sql

/-! ## 1. Rows without their times -/

namespace Sql.Table

variable {t : Table} {r : List Cell} {name : String} {entries : List (String × Cell)}

theorem cellNamed?_append (xs ys : List (String × Cell)) (name : String) :
    cellNamed? (xs ++ ys) name = (cellNamed? xs name).or (cellNamed? ys name) := by
  unfold cellNamed?
  rw [List.find?_append, Option.map_or]

theorem cellNamed?_cons_of_ne {e : String × Cell} (h : e.1.toLower ≠ name.toLower) :
    cellNamed? (e :: entries) name = cellNamed? entries name := by
  have hsame : sameName e.1 name = false := Bool.eq_false_iff.mpr fun heq => h (sameName_iff.mp heq)
  unfold cellNamed?
  rw [List.find?_cons, hsame]

/-- The cell at a place after some were set by name. -/
theorem getElem?_put {i : Nat} {c : Column} {x : Cell} (hc : t.columns[i]? = some c)
    (hx : r[i]? = some x) : (t.put entries r)[i]? = some (match cellNamed? entries c.name with
      | some v => c.affinity.store v
      | none => x) := by
  exact List.getElem?_zipWith_eq_some.mpr ⟨c, x, hc, hx, rfl⟩

/-- What comes back of a stored row by a name depends on the cell of that name alone. -/
theorem value_congr (hd : t.Distinct) {r' : List Cell} (hr : t.IsRow r) (hr' : t.IsRow r')
    (h : t.cell r' name = t.cell r name) :
    (Store.rowOfCells ((t.columns.map Column.name).zip r')).value name =
      (Store.rowOfCells ((t.columns.map Column.name).zip r)).value name := by
  by_cases hmem : name ∈ t.columns.map Column.name
  · rw [value_rowOfCells_of_mem hd hr' hmem, value_rowOfCells_of_mem hd hr hmem, h]
  · have hnull : ∀ r : List Cell,
        (Store.rowOfCells ((t.columns.map Column.name).zip r)).value name = .null := by
      intro r
      refine (Row.value_ofList _ name).resolve_left fun hentry => hmem ?_
      obtain ⟨⟨n, x⟩, hzip, heq⟩ := List.mem_map.mp hentry
      obtain rfl : n = name := congrArg Prod.fst heq
      exact (List.of_mem_zip hzip).1
    rw [hnull, hnull]

end Sql.Table

namespace Layout

variable {l : Layout} {t : Table} {row w : Row} {now : Instant} {horizon : Option Instant}
  {status : RowStatus} {n : Int} {rows rows' before after : List (List Cell)} {r r' : List Cell}
  {v : Version} {strict : Prop} {ticks : List Instant} {db : Database}

/-- The columns of times. -/
def dates (l : Layout) : List String :=
  l.names.validFrom :: l.names.validTo :: l.names.lastSeen.toList

/-- The other columns of a version: its fields, and its number. -/
def contents (l : Layout) : List String :=
  l.fields.names .id ++ l.fields.names .compare ++ l.fields.names .update ++
    l.fields.names .lazy ++ [l.names.version]

theorem contents_perm (l : Layout) : (l.contents ++ l.dates).Perm l.insertColumns := by
  rw [List.perm_iff_count]
  intro c
  simp only [contents, dates, insertColumns, List.count_append, List.count_cons, List.count_nil]
  omega

theorem Distinct.contents (hl : l.Distinct) {c d : String} (hc : c ∈ l.contents) (hd : d ∈ l.dates) :
    d.toLower ≠ c.toLower := by
  have hnodup := ((l.contents_perm.map String.toLower).nodup_iff).mpr hl
  rw [List.map_append] at hnodup
  exact (List.nodup_append.mp hnodup).2.2 _ (List.mem_map_of_mem hc) _ (List.mem_map_of_mem hd) |>.symm

/-- A stored row without its times. -/
def veiled (l : Layout) (t : Table) (r : List Cell) : List Cell :=
  t.put (l.dates.map fun d => (d, .null)) r

theorem isRow_veiled (h : t.IsRow r) : t.IsRow (l.veiled t r) :=
  h.put _

theorem cell_veiled (hl : l.Distinct) (h : t.IsRow r) {c : String} (hc : c ∈ l.contents) :
    t.cell (l.veiled t r) c = t.cell r c := by
  refine Table.cell_put_of_none h.length (Table.cellNamed?_eq_none fun e he => ?_)
  obtain ⟨d, hd, rfl⟩ := List.mem_map.mp he
  exact hl.contents hc hd

/-- No time is left. -/
theorem cell_veiled_date (h : l.Stored t r) {d : String} (hd : d ∈ l.dates) :
    t.cell (l.veiled t r) d = .null := by
  have hhas : t.Has d := h.columns d (l.contents_perm.subset (List.mem_append_right _ hd))
  unfold veiled
  rw [Table.cell_put hhas h.row.length]
  cases hnamed : Table.cellNamed? (l.dates.map fun d => (d, Cell.null)) d with
  | none =>
    unfold Table.cellNamed? at hnamed
    rw [Option.map_eq_none_iff, List.find?_eq_none] at hnamed
    exact absurd (sameName_refl d) (hnamed _ (List.mem_map_of_mem hd))
  | some x =>
    obtain ⟨e, he, rfl⟩ := Option.map_eq_some_iff.mp hnamed
    obtain ⟨d', -, rfl⟩ := List.mem_map.mp (List.mem_of_find?_eq_some he)
    exact Affinity.store_null _

/-- Rows that differ in their times only are the same without them. -/
theorem veiled_congr (hr : r.length = t.columns.length) (hr' : r'.length = t.columns.length)
    (h : ∀ (i : Nat) (c : Column), t.columns[i]? = some c → (∀ d ∈ l.dates, d.toLower ≠ c.name.toLower) →
      r[i]? = r'[i]?) : l.veiled t r = l.veiled t r' := by
  refine List.ext_getElem? fun i => ?_
  cases hc : t.columns[i]? with
  | none =>
    have hle := List.getElem?_eq_none_iff.mp hc
    unfold veiled
    rw [List.getElem?_eq_none (by rw [Table.length_put hr]; exact hle),
      List.getElem?_eq_none (by rw [Table.length_put hr']; exact hle)]
  | some c =>
    have hlt := (List.getElem?_eq_some_iff.mp hc).1
    have hx := List.getElem?_eq_getElem (hr ▸ hlt : i < r.length)
    have hx' := List.getElem?_eq_getElem (hr' ▸ hlt : i < r'.length)
    unfold veiled
    rw [Table.getElem?_put hc hx, Table.getElem?_put hc hx']
    cases hnamed : Table.cellNamed? (l.dates.map fun d => (d, Cell.null)) c.name with
    | some x => rfl
    | none =>
      have hne : ∀ d ∈ l.dates, d.toLower ≠ c.name.toLower := by
        intro d hd heq
        unfold Table.cellNamed? at hnamed
        rw [Option.map_eq_none_iff, List.find?_eq_none] at hnamed
        exact hnamed _ (List.mem_map_of_mem hd) (sameName_iff.mpr heq)
      exact (hx.symm.trans (h i c hc hne)).trans hx'

/-- Times that are set do not show. -/
theorem veiled_put {entries : List (String × Cell)} (hr : r.length = t.columns.length)
    (h : ∀ e ∈ entries, e.1 ∈ l.dates) : l.veiled t (t.put entries r) = l.veiled t r := by
  refine veiled_congr (Table.length_put hr) hr fun i c hc hne => ?_
  have hx := List.getElem?_eq_getElem (hr ▸ (List.getElem?_eq_some_iff.mp hc).1 : i < r.length)
  rw [Table.getElem?_put hc hx, Table.cellNamed?_eq_none fun e he => hne e.1 (h e he), hx]

/-- Entries that are set on rows without times show as they do on the rows. -/
theorem veiled_put_congr {entries entries' : List (String × Cell)} (hr : r.length = t.columns.length)
    (h : ∀ name, (∀ d ∈ l.dates, d.toLower ≠ name.toLower) →
      Table.cellNamed? entries name = Table.cellNamed? entries' name) :
    l.veiled t (t.put entries r) = l.veiled t (t.put entries' (l.veiled t r)) := by
  have hlength : (l.veiled t r).length = t.columns.length := Table.length_put hr
  refine veiled_congr (Table.length_put hr) (Table.length_put hlength) fun i c hc hne => ?_
  have hlt := (List.getElem?_eq_some_iff.mp hc).1
  have hx := List.getElem?_eq_getElem (hr ▸ hlt : i < r.length)
  have hdates : Table.cellNamed? (l.dates.map fun d => (d, Cell.null)) c.name = none :=
    Table.cellNamed?_eq_none (List.forall_mem_map.mpr hne)
  have hveiled : (l.veiled t r)[i]? = some r[i] := by
    unfold veiled
    rw [Table.getElem?_put hc hx, hdates]
  rw [Table.getElem?_put hc hx, Table.getElem?_put hc hveiled, h c.name hne]

theorem validFrom_dates (l : Layout) : l.names.validFrom ∈ l.dates :=
  List.mem_cons_self

theorem validTo_dates (l : Layout) : l.names.validTo ∈ l.dates :=
  List.mem_cons_of_mem _ List.mem_cons_self

theorem seenCells_dates (l : Layout) (now : Instant) : ∀ e ∈ l.seenCells now, e.1 ∈ l.dates := by
  intro e he
  have hmem : e.1 ∈ l.names.lastSeen.toList := fst_seenCells l now ▸ List.mem_map_of_mem he
  exact List.mem_cons_of_mem _ (List.mem_cons_of_mem _ hmem)

/-- A name that is no time is not among the cells of times. -/
theorem cellNamed?_versionCells {name : String} (hne : ∀ d ∈ l.dates, d.toLower ≠ name.toLower)
    (row : Row) (n : Int) (now : Instant) (horizon : Option Instant) :
    Table.cellNamed? (l.versionCells row n now horizon) name = Table.cellNamed?
      (fieldCells row (l.fields.names .id) ++ fieldCells row (l.fields.names .update) ++
        fieldCells row (l.fields.names .compare) ++ fieldCells row (l.fields.names .lazy) ++
        [(l.names.version, .integer n)]) name := by
  have hseen : Table.cellNamed? (l.seenCells now) name = none :=
    Table.cellNamed?_eq_none fun e he => hne e.1 (l.seenCells_dates now e he)
  have htail : Table.cellNamed? ((l.names.version, Cell.integer n) :: l.seenCells now) name =
      Table.cellNamed? [(l.names.version, .integer n)] name := by
    rw [← List.singleton_append, Table.cellNamed?_append, hseen, Option.or_none]
  unfold versionCells
  rw [Table.cellNamed?_append, Table.cellNamed?_cons_of_ne (hne _ l.validFrom_dates),
    Table.cellNamed?_cons_of_ne (hne _ l.validTo_dates), htail, ← Table.cellNamed?_append]

/-- Without times, all new versions of a row with a number are the same. -/
theorem veiled_fresh (l : Layout) (t : Table) (row : Row) (n : Int) (now now' : Instant)
    (horizon horizon' : Option Instant) :
    l.veiled t (l.freshRow t row n now horizon) = l.veiled t (l.freshRow t row n now' horizon') := by
  have hblank := (Table.isRow_blank t).length
  refine veiled_congr (Table.length_put hblank) (Table.length_put hblank) fun i c hc hne => ?_
  have hx := List.getElem?_eq_getElem (hblank ▸ (List.getElem?_eq_some_iff.mp hc).1 : i < t.blank.length)
  unfold freshRow
  rw [Table.getElem?_put hc hx, Table.getElem?_put hc hx, cellNamed?_versionCells hne,
    cellNamed?_versionCells hne]

/-- A version that is changed in place shows what is set in it. -/
theorem veiled_renewed (l : Layout) (row : Row) (now now' : Instant) (hr : r.length = t.columns.length) :
    l.veiled t (t.put (l.renewedCells row now) r) =
      l.veiled t (t.put (l.renewedCells row now') (l.veiled t r)) := by
  refine veiled_put_congr hr fun name hne => ?_
  have hcells : ∀ now, Table.cellNamed? (l.renewedCells row now) name = Table.cellNamed?
      (fieldCells row (l.fields.names .update) ++ fieldCells row (l.fields.names .lazy)) name := by
    intro now
    have hseen : Table.cellNamed? (l.seenCells now) name = none :=
      Table.cellNamed?_eq_none fun e he => hne e.1 (l.seenCells_dates now e he)
    unfold renewedCells
    rw [Table.cellNamed?_append, Table.cellNamed?_cons_of_ne (hne _ l.validFrom_dates), hseen,
      Option.or_none]
  rw [hcells, hcells]

end Layout

/-! ## 2. Lives -/

/-- A comparison reads the number of a version and its fields, and nothing else. -/
theorem Classification.againstActive_congr {c : Classification} {row : Row} {a b : Record}
    (hversion : a.version = b.version)
    (hcompare : ∀ n ∈ c.names .compare, a.row.value n = b.row.value n)
    (hupdate : ∀ n ∈ c.names .update, a.row.value n = b.row.value n) :
    c.againstActive row a = c.againstActive row b := by
  unfold againstActive anyDiffers
  rw [anyFieldDiffers_congr fun f hf => ⟨rfl, hcompare f.name (List.mem_map_of_mem hf)⟩,
    anyFieldDiffers_congr fun f hf => ⟨rfl, hupdate f.name (List.mem_map_of_mem hf)⟩, hversion]

/-- A record is read if its number is, once its times are. -/
theorem Record.ofRow_of_bounds {b : Bookkeeping} {row : Row} {validFrom validTo : Option Instant}
    (hfrom : boundOf b.validFrom (row.value b.validFrom) = .ok validFrom)
    (hto : boundOf b.validTo (row.value b.validTo) = .ok validTo) :
    ofRow b row = (versionOf b.version (row.value b.version)).map
      fun version => ⟨row, version, validFrom, validTo⟩ := by
  unfold ofRow
  rw [hfrom, hto]
  cases versionOf b.version (row.value b.version) <;> rfl

namespace Layout

variable {l : Layout} {t : Table} {row w : Row} {now : Instant} {horizon : Option Instant}
  {status : RowStatus} {n : Int} {rows rows' before after : List (List Cell)} {r r' : List Cell}
  {v : Version} {strict : Prop} {ticks : List Instant} {db : Database}

/-- The record that comes back of a stored row. -/
def readBack (l : Layout) (t : Table) (r : List Cell) : Except StorageError Record :=
  Record.ofRow l.names (Store.rowOfCells ((t.columns.map Column.name).zip r))

/-- What a row is beside the last version of its identifier, which is active or has ended. -/
def verdict (l : Layout) (t : Table) (row : Row) (isOpen : Bool) (r : List Cell) : Option Outcome :=
  (l.readBack t r).toOption.bind fun record =>
    if isOpen then (l.fields.againstActive row record).toOption
    else some (.withoutActive (some record))

/-- The times of a stored row are read. -/
theorem boundOf_stored (hd : t.Distinct) {name : String}
    (h : t.cell r name = .null ∨ ∃ e : Instant, e.IsStorable ∧ t.cell r name = .text e.storageText) :
    ∃ bound, Record.boundOf name
      ((Store.rowOfCells ((t.columns.map Column.name).zip r)).value name) = .ok bound := by
  obtain hvalue | hvalue := Table.value_rowOfCells (r := r) hd name
  · rw [hvalue]
    obtain hnull | ⟨e, he, htext⟩ := h
    · rw [hnull]
      exact ⟨none, rfl⟩
    · rw [htext]
      exact ⟨some e, boundOf_text name he⟩
  · rw [hvalue]
    exact ⟨none, rfl⟩

/-- **Times do not count** in what a row is. -/
theorem verdict_veiled (hs : l.Suits t) (hr : l.Stored t r) (hshow : l.Shows t r v) (row : Row)
    (isOpen : Bool) : l.verdict t row isOpen (l.veiled t r) = l.verdict t row isOpen r := by
  obtain ⟨validFrom, hfrom⟩ := boundOf_stored hs.columns
    (.inr ⟨_, hshow.storable.1, hshow.validFrom⟩)
  obtain ⟨validTo, hto⟩ : ∃ bound, Record.boundOf l.names.validTo
      ((Store.rowOfCells ((t.columns.map Column.name).zip r)).value l.names.validTo) = .ok bound := by
    refine boundOf_stored hs.columns ?_
    rw [hshow.validTo]
    cases hend : v.validTo with
    | none => exact .inl rfl
    | some e => exact .inr ⟨e, hshow.storable.2 e hend, rfl⟩
  obtain ⟨validFrom', hfrom'⟩ := boundOf_stored hs.columns (.inl (cell_veiled_date hr l.validFrom_dates))
  obtain ⟨validTo', hto'⟩ := boundOf_stored hs.columns (.inl (cell_veiled_date hr l.validTo_dates))
  have hvalue : ∀ {c}, c ∈ l.contents →
      (Store.rowOfCells ((t.columns.map Column.name).zip (l.veiled t r))).value c =
        (Store.rowOfCells ((t.columns.map Column.name).zip r)).value c := fun hc =>
    Table.value_congr hs.columns hr.row (isRow_veiled hr.row) (cell_veiled hs.names hr.row hc)
  have hcompare : ∀ c ∈ l.fields.names .compare, c ∈ l.contents := fun c hc => by
    simp only [contents, List.mem_append]
    exact .inl (.inl (.inl (.inr hc)))
  have hupdate : ∀ c ∈ l.fields.names .update, c ∈ l.contents := fun c hc => by
    simp only [contents, List.mem_append]
    exact .inl (.inl (.inr hc))
  have hversion : l.names.version ∈ l.contents := List.mem_append_right _ List.mem_cons_self
  unfold verdict readBack
  rw [Record.ofRow_of_bounds hfrom hto, Record.ofRow_of_bounds hfrom' hto', hvalue hversion]
  cases Record.versionOf l.names.version
      ((Store.rowOfCells ((t.columns.map Column.name).zip r)).value l.names.version) with
  | error e => rfl
  | ok version =>
    cases isOpen with
    | false => rfl
    | true =>
      exact congrArg Except.toOption (Classification.againstActive_congr rfl
        (fun c hc => hvalue (hcompare c hc)) fun c hc => hvalue (hupdate c hc))

end Layout

/-- The versions of an identifier without their times, the last one active or ended. -/
structure Life where
  versions : List (List Cell)
  isOpen : Bool
deriving DecidableEq

namespace Life

/-- Nothing is stored. -/
def unborn : Life :=
  ⟨[], false⟩

/-- What an incoming row is by itself; none if it cannot be judged. -/
def natural (life : Life) (l : Layout) (t : Table) (row : Row) : Option Outcome :=
  match life.versions.getLast? with
  | none => some (.withoutActive none)
  | some r => l.verdict t row life.isOpen r

/-- What an outcome makes of the versions. -/
def after (life : Life) (l : Layout) (t : Table) (row : Row) (outcome : Outcome) : Life :=
  match outcome.status with
  | .new | .outdated | .changed =>
    { versions := life.versions ++
        [l.veiled t (l.freshRow t row outcome.version (Instant.ofSeconds 0) none)]
      isOpen := true }
  | .update =>
    { life with versions := life.versions.dropLast ++ life.versions.getLast?.toList.map fun r =>
        l.veiled t (t.put (l.renewedCells row (Instant.ofSeconds 0)) r) }
  | .purged => { life with isOpen := false }
  | .identical | .skipped => life

/-- What is told of an incoming row, and the versions after it. -/
def step (life : Life) (l : Layout) (t : Table) (row : Row) (forced : Option RowStatus) :
    Option ((Outcome × Option SkipReason) × Life) :=
  (life.natural l t row).map fun natural =>
    (Session.force forced natural, life.after l t row (Session.force forced natural).1)

end Life

/-! ## 3. Judgements -/

namespace Layout

variable {l : Layout} {t : Table} {row w : Row} {now : Instant} {horizon : Option Instant}
  {status : RowStatus} {n : Int} {rows rows' before after : List (List Cell)} {r r' : List Cell}
  {v : Version} {strict : Prop} {ticks : List Instant} {db db' : Database} {life : Life}
  {answer : Answer}

/-- The stored rows of an identifier are those of a life. The last of them ends at the horizon, or it
has ended. -/
structure Lives (l : Layout) (t : Table) (horizon : Option Instant) (ticks : List Instant)
    (rows : List (List Cell)) (w : Row) (life : Life) : Prop where
  versions : (rows.filter (l.identifies t w)).map (l.veiled t) = life.versions
  ends : ∀ r, (rows.filter (l.identifies t w)).getLast? = some r → ∀ v, l.Shows t r v →
    if life.isOpen then v.validTo = horizon else ∃ e, v.validTo = some e ∧ Past ticks e

theorem lives_unborn (l : Layout) (t : Table) (horizon : Option Instant) (ticks : List Instant)
    (w : Row) : l.Lives t horizon ticks [] w .unborn :=
  ⟨rfl, nofun⟩

theorem Lives.mono {ticks' : List Instant} (hticks : ticks ⊆ ticks')
    (h : l.Lives t horizon ticks rows w life) : l.Lives t horizon ticks' rows w life := by
  refine ⟨h.versions, fun r hr v hv => ?_⟩
  have hends := h.ends r hr v hv
  by_cases hopen : life.isOpen = true
  · rwa [if_pos hopen] at hends ⊢
  · rw [if_neg hopen] at hends ⊢
    obtain ⟨e, he, hpast⟩ := hends
    exact ⟨e, he, hpast.mono hticks⟩

/-- The last row of an identifier is one of them. -/
theorem mem_of_getLast? (h : (rows.filter (l.identifies t w)).getLast? = some r) :
    r ∈ rows ∧ l.identifies t w r = true :=
  List.mem_filter.mp (List.mem_of_getLast? h)

/-- The active row of an identifier is the last one. -/
theorem Chained.after_active (h : l.Chained t strict ticks (before ++ r :: after))
    (hticks : ∀ k ∈ ticks, k < now) (hid : l.identifies t row r = true) (hshow : l.Shows t r v)
    (hactive : v.ActiveAt now) : after.filter (l.identifies t row) = [] := by
  have hchain := h.chains row
  rw [List.filter_append, List.filter_cons_of_pos hid, List.map_append, List.map_cons,
    hshow.eq_shown] at hchain
  exact List.map_eq_nil_iff.mp (hchain.active_last hticks hactive)

/-- **A version is active if it is the last one and has not ended.** -/
theorem Lives.active_iff (hlives : l.Lives t horizon ticks rows row life)
    (h : l.Chained t strict ticks rows) (hticks : ∀ k ∈ ticks, k < now)
    (hhorizon : ∀ e ∈ horizon, now ≤ e) (hr : r ∈ rows) (hid : l.identifies t row r = true)
    (hshow : l.Shows t r v) : v.ActiveAt now ↔
      (rows.filter (l.identifies t row)).getLast? = some r ∧ life.isOpen = true := by
  constructor
  · intro hactive
    have hlast : (rows.filter (l.identifies t row)).getLast? = some r := by
      obtain ⟨before, after, rfl⟩ := List.append_of_mem hr
      rw [List.filter_append, List.filter_cons_of_pos hid, h.after_active hticks hid hshow hactive,
        List.getLast?_concat]
    refine ⟨hlast, ?_⟩
    by_contra hclosed
    have hends := hlives.ends r hlast v hshow
    rw [if_neg hclosed] at hends
    obtain ⟨e, he, hpast⟩ := hends
    exact absurd (hactive.2 e he) (not_le.mpr (hpast.lt hticks))
  · rintro ⟨hlast, hopen⟩
    have hends := hlives.ends r hlast v hshow
    rw [if_pos hopen] at hends
    exact ⟨le_of_lt ((h.past hr hid hshow).lt hticks), hends ▸ hhorizon⟩

section Lookups

variable (hids : l.fields.names .id ≠ []) (hs : l.Suits t) (h : l.Chained t strict ticks rows)
  (hfind : db.find? l.table = some { t with rows })

include hids hs h hfind

/-- The latest version of an identifier is the last one. -/
theorem Chained.latest_record (hrun : l.run .latest { row } db = some (answer, db')) :
    answer.record? l.names = match (rows.filter (l.identifies t row)).getLast? with
      | none => .ok none
      | some r => (l.readBack t r).map some := by
  have hpicks : ∀ r, l.picks .latest { row } t r = l.identifies t row r :=
    picks_latest l { row } t
  obtain ⟨hrecord, hnone⟩ | ⟨r, hr, hpicked, hrecord, hmax⟩ :=
    select_shown hids (h.kept hs) h.shows hfind (.inl rfl) hrun
  · have hempty : rows.filter (l.identifies t row) = [] := by
      refine List.filter_eq_nil_iff.mpr fun r hr => ?_
      rw [← hpicks, hnone r hr]
      exact Bool.false_ne_true
    rw [hrecord, hempty]
    rfl
  · rw [hpicks] at hpicked
    cases hlast : (rows.filter (l.identifies t row)).getLast? with
    | none =>
      have hempty := List.getLast?_eq_none_iff.mp hlast
      exact absurd (List.mem_filter.mpr ⟨hr, hpicked⟩) (hempty ▸ List.not_mem_nil)
    | some r₀ =>
      obtain ⟨hr₀, hid₀⟩ := mem_of_getLast? hlast
      have hshow := shows_shown (h.shows r hr)
      have hshow₀ := shows_shown (h.shows r₀ hr₀)
      -- Both have the count of the versions as their number.
      have hnumber := h.number_latest hr hpicked hshow fun r' hr' hid' =>
        ⟨_, shows_shown (h.shows r' hr'), hmax r' hr' (by rw [hpicks, hid'])⟩
      have hnumber₀ : (l.shown t r₀).number = (rows.filter (l.identifies t row)).length := by
        have hchain := h.chains row
        obtain ⟨rest, hrest⟩ := List.getLast?_eq_some_iff.mp hlast
        rw [hrest, List.map_append, List.map_singleton] at hchain
        rw [hchain.number_last, hrest, List.length_append, List.length_map]
        rfl
      have hsame := h.eq_of_number hr hr₀ hpicked hid₀ hshow hshow₀ (hnumber.trans hnumber₀.symm)
      have hlatest : answer.record? l.names = (l.readBack t r₀).map some := by
        rw [hrecord, hsame, readBack]
      exact hlatest

/-- The active version of an identifier is the last one, if that has not ended. -/
theorem Lives.active_record (hlives : l.Lives t horizon ticks rows row life)
    (hticks : ∀ k ∈ ticks, k < now) (hnow : now.IsStorable) (hhorizon : ∀ e ∈ horizon, now ≤ e)
    (hrun : l.run .active { row, instant := some now } db = some (answer, db')) :
    answer.record? l.names = match (rows.filter (l.identifies t row)).getLast? with
      | none => .ok none
      | some r => if life.isOpen then (l.readBack t r).map some else .ok none := by
  have hpicks : ∀ r ∈ rows, l.picks .active { row, instant := some now } t r = true ↔
      (rows.filter (l.identifies t row)).getLast? = some r ∧ life.isOpen = true := by
    intro r hr
    have hshow := shows_shown (h.shows r hr)
    rw [picks_active hshow hnow]
    constructor
    · rintro ⟨hid, hactive⟩
      exact (hlives.active_iff h hticks hhorizon hr hid hshow).mp hactive
    · intro hlast
      have hid := (mem_of_getLast? hlast.1).2
      exact ⟨hid, (hlives.active_iff h hticks hhorizon hr hid hshow).mpr hlast⟩
  obtain ⟨hrecord, hnone⟩ | ⟨r, hr, hpicked, hrecord, -⟩ :=
    select_shown hids (h.kept hs) h.shows hfind (.inr rfl) hrun
  · rw [hrecord]
    cases hlast : (rows.filter (l.identifies t row)).getLast? with
    | none => rfl
    | some r =>
      have hclosed : ¬ life.isOpen = true := by
        intro hopen
        have hr := (mem_of_getLast? hlast).1
        exact Bool.false_ne_true ((hnone r hr).symm.trans ((hpicks r hr).mpr ⟨hlast, hopen⟩))
      exact (if_neg hclosed).symm
  · obtain ⟨hlast, hopen⟩ := (hpicks r hr).mp hpicked
    rw [hrecord, hlast]
    exact (if_pos hopen).symm

/-- **A row is judged as the life of its identifier says.** -/
theorem Lives.natural_of_judged (hlives : l.Lives t horizon ticks rows row life)
    (hticks : ∀ k ∈ ticks, k < now) (hnow : now.IsStorable) (hhorizon : ∀ e ∈ horizon, now ≤ e)
    {natural : Outcome} (hjudged : Session.Judged l row now db natural) :
    life.natural l t row = some natural := by
  have hverdict : ∀ {r}, (rows.filter (l.identifies t row)).getLast? = some r →
      life.natural l t row = l.verdict t row life.isOpen r := by
    intro r hlast
    have hr := (mem_of_getLast? hlast).1
    unfold Life.natural
    rw [← hlives.versions, List.getLast?_map, hlast]
    exact verdict_veiled hs (h.stored r hr) (shows_shown (h.shows r hr)) row life.isOpen
  cases hjudged with
  | @active answer record natural hrun hrecord hagainst =>
    rw [hlives.active_record hids hs h hfind hticks hnow hhorizon hrun] at hrecord
    cases hlast : (rows.filter (l.identifies t row)).getLast? with
    | none =>
      rw [hlast] at hrecord
      cases hrecord
    | some r =>
      rw [hlast] at hrecord
      cases hopen : life.isOpen with
      | false =>
        rw [hopen] at hrecord
        cases hrecord
      | true =>
        rw [hopen] at hrecord
        obtain ⟨record', hread, heq⟩ := ok_of_map hrecord
        cases heq
        rw [hverdict hlast, hopen, verdict, hread]
        show (l.fields.againstActive row record).toOption = _
        rw [hagainst]
        rfl
  | @latest answer answer' latest hrun hrecord hrun' hrecord' =>
    rw [hlives.active_record hids hs h hfind hticks hnow hhorizon hrun] at hrecord
    rw [h.latest_record hids hs hfind hrun'] at hrecord'
    cases hlast : (rows.filter (l.identifies t row)).getLast? with
    | none =>
      rw [hlast] at hrecord'
      cases hrecord'
      unfold Life.natural
      rw [← hlives.versions, List.getLast?_map, hlast]
      rfl
    | some r =>
      rw [hlast] at hrecord hrecord'
      dsimp only at hrecord hrecord'
      obtain ⟨record, hread, rfl⟩ := ok_of_map hrecord'
      cases hopen : life.isOpen with
      | true =>
        rw [hopen, hread] at hrecord
        cases hrecord
      | false =>
        rw [hverdict hlast, hopen, verdict, hread]
        rfl

/-- **What the life of its identifier says is how a row is judged**, if its lookups succeed. -/
theorem Lives.judged_of_natural (hlives : l.Lives t horizon ticks rows row life)
    (hticks : ∀ k ∈ ticks, k < now) (hnow : now.IsStorable) (hhorizon : ∀ e ∈ horizon, now ≤ e)
    (hactive : ∃ answer, l.run .active { row, instant := some now } db = some (answer, db))
    (hlatest : ∃ answer, l.run .latest { row } db = some (answer, db)) {natural : Outcome}
    (hnatural : life.natural l t row = some natural) : Session.Judged l row now db natural := by
  obtain ⟨answer, hrun⟩ := hactive
  obtain ⟨answer', hrun'⟩ := hlatest
  have hrecord := hlives.active_record hids hs h hfind hticks hnow hhorizon hrun
  have hrecord' := h.latest_record hids hs hfind hrun'
  unfold Life.natural at hnatural
  rw [← hlives.versions, List.getLast?_map] at hnatural
  cases hlast : (rows.filter (l.identifies t row)).getLast? with
  | none =>
    rw [hlast] at hrecord hrecord' hnatural
    cases hnatural
    exact .latest hrun hrecord hrun' hrecord'
  | some r =>
    have hr := (mem_of_getLast? hlast).1
    rw [hlast] at hrecord hrecord' hnatural
    dsimp only at hrecord hrecord'
    have hverdict : l.verdict t row life.isOpen r = some natural :=
      (verdict_veiled hs (h.stored r hr) (shows_shown (h.shows r hr)) row life.isOpen).symm.trans hnatural
    cases hread : l.readBack t r with
    | error e =>
      rw [verdict, hread] at hverdict
      cases hverdict
    | ok record =>
      rw [verdict, hread] at hverdict
      rw [hread] at hrecord hrecord'
      cases hopen : life.isOpen with
      | false =>
        rw [hopen] at hverdict hrecord
        cases hverdict
        exact .latest hrun hrecord hrun' hrecord'
      | true =>
        rw [hopen] at hverdict hrecord
        cases hagainst : l.fields.againstActive row record with
        | error e =>
          have hnone : (l.fields.againstActive row record).toOption = some natural := hverdict
          rw [hagainst] at hnone
          cases hnone
        | ok outcome =>
          have hsome : (l.fields.againstActive row record).toOption = some natural := hverdict
          rw [hagainst] at hsome
          cases hsome
          exact .active hrun hrecord hagainst

end Lookups

/-! ## 4. Steps -/

/-- The rows of an identifier are the same for all rows that have it. -/
theorem filter_of_same (hs : l.Suits t) (hstored : ∀ r ∈ rows, l.Stored t r) (hfind : l.Findable t row)
    (hsame : l.sameIdentifier t w row = true) :
    rows.filter (l.identifies t w) = rows.filter (l.identifies t row) :=
  List.filter_congr fun r hr => identifies_of_same hs (hstored r hr) hfind hsame

theorem lives_of_same (hs : l.Suits t) (hstored : ∀ r ∈ rows, l.Stored t r) (hfind : l.Findable t row)
    (hsame : l.sameIdentifier t w row = true) :
    l.Lives t horizon ticks rows w life ↔ l.Lives t horizon ticks rows row life := by
  have hfilter := filter_of_same hs hstored hfind hsame
  constructor
  · rintro ⟨hversions, hends⟩
    rw [hfilter] at hversions hends
    exact ⟨hversions, hends⟩
  · rintro ⟨hversions, hends⟩
    rw [← hfilter] at hversions hends
    exact ⟨hversions, hends⟩

/-- A new version comes behind the others. -/
theorem Lives.append (hlives : l.Lives t horizon ticks rows row life) (hs : l.Suits t)
    (hcolumns : ∀ c ∈ l.insertColumns, t.Has c) (hnow : now.IsStorable)
    (hhorizon : ∀ e ∈ horizon, e.IsStorable) (hfind : l.Findable t row) (n : Int) :
    l.Lives t horizon ticks (rows ++ [l.freshRow t row n now horizon]) row
      ⟨life.versions ++ [l.veiled t (l.freshRow t row n (Instant.ofSeconds 0) none)], true⟩ := by
  have hid : l.identifies t row (l.freshRow t row n now horizon) = true :=
    identifies_fresh hs hcolumns hfind
  have hfilter : (rows ++ [l.freshRow t row n now horizon]).filter (l.identifies t row) =
      rows.filter (l.identifies t row) ++ [l.freshRow t row n now horizon] := by
    rw [List.filter_append, List.filter_cons_of_pos hid, List.filter_nil]
  refine ⟨?_, fun r hr v hv => ?_⟩
  · rw [hfilter, List.map_append, List.map_singleton, hlives.versions]
    exact congrArg (life.versions ++ [·]) (veiled_fresh l t row n now _ horizon none)
  · rw [hfilter, List.getLast?_concat] at hr
    cases hr
    rw [hv.unique (shows_fresh hs hcolumns hnow hhorizon)]
    rfl

section Active

variable (hone : l.OneActive t row now before r after v)
  (h : l.Chained t strict ticks (before ++ r :: after)) (hticks : ∀ k ∈ ticks, k < now)

include hone h hticks

/-- The active row of an identifier comes behind its others, also after a change. -/
theorem OneActive.filter (hid : l.identifies t row r' = true) :
    (before ++ r' :: after).filter (l.identifies t row) =
      before.filter (l.identifies t row) ++ [r'] := by
  rw [List.filter_append, List.filter_cons_of_pos hid,
    h.after_active hticks hone.identified hone.shows hone.active]

/-- **The active version is changed**, and it stays the last one. -/
theorem OneActive.lives (hl : l.Distinct) (hlives : l.Lives t horizon ticks (before ++ r :: after) row life)
    {entries : List (String × Cell)}
    (hentries : ∀ e ∈ entries, e.1 ∈ l.names.validTo :: l.updateColumns) {v' : Version}
    (hshow : l.Shows t (t.put entries r) v') (isOpen : Bool)
    (hends : if isOpen then v'.validTo = horizon else ∃ e, v'.validTo = some e ∧ Past (now :: ticks) e) :
    life.versions = life.versions.dropLast ++ [l.veiled t r] ∧
    l.Lives t horizon (now :: ticks) (before ++ t.put entries r :: after) row
      ⟨life.versions.dropLast ++ [l.veiled t (t.put entries r)], isOpen⟩ := by
  have hr := h.stored r (mem_middle _ _ r)
  have hid : l.identifies t row (t.put entries r) = true :=
    (identifies_put hl hr.row hentries).trans hone.identified
  have hversions := hlives.versions
  rw [hone.filter h hticks hone.identified, List.map_append, List.map_singleton] at hversions
  have hinit : life.versions.dropLast = (before.filter (l.identifies t row)).map (l.veiled t) := by
    rw [← hversions, List.dropLast_concat]
  refine ⟨by rw [hinit, hversions], ?_, fun r' hr' u hu => ?_⟩
  · rw [hone.filter h hticks hid, List.map_append, List.map_singleton, hinit]
  · rw [hone.filter h hticks hid, List.getLast?_concat] at hr'
    cases hr'
    rw [hu.unique hshow]
    exact hends

/-- The active version ends, which is not seen without times. -/
theorem OneActive.lives_ended (hs : l.Suits t) (hnow : now.IsStorable)
    (hlives : l.Lives t horizon ticks (before ++ r :: after) row life) :
    l.Lives t horizon (now :: ticks) (before ++ l.endedRow t now r :: after) row
      ⟨life.versions, false⟩ := by
  have hr := h.stored r (mem_middle _ _ r)
  obtain ⟨hversions, hended⟩ := hone.lives h hticks hs.names hlives
    (List.forall_mem_singleton.mpr List.mem_cons_self) (hone.shows.ended hs hr hnow)
    false ⟨now, rfl, past_head now ticks⟩
  rw [veiled_put hr.row.length (List.forall_mem_singleton.mpr l.validTo_dates), ← hversions] at hended
  exact hended

/-- What holds of the end of the active version goes on, if that is kept. -/
theorem OneActive.ends_kept (hlives : l.Lives t horizon ticks (before ++ r :: after) row life)
    {v' : Version} (hend : v'.validTo = v.validTo) :
    if life.isOpen then v'.validTo = horizon
      else ∃ e, v'.validTo = some e ∧ Past (now :: ticks) e := by
  have hlast : ((before ++ r :: after).filter (l.identifies t row)).getLast? = some r := by
    rw [hone.filter h hticks hone.identified, List.getLast?_concat]
  rw [hend]
  exact (hlives.mono (List.subset_cons_self now ticks)).ends r hlast v hone.shows

end Active

section Steps

variable (hstep : Step l t row now horizon rows status n rows') (hs : l.Suits t)
  (h : l.Chained t strict ticks rows) (hticks : ∀ k ∈ ticks, k < now) (hnow : now.IsStorable)
  (hhorizon : ∀ e ∈ horizon, e.IsStorable) (hfind : l.Findable t row)
  (hcolumns : status = .new → ∀ c ∈ l.insertColumns, t.Has c)

include hstep hs h hticks hnow hhorizon hfind hcolumns

/-- **A step takes the life of its identifier to the next one.** -/
theorem Step.lives (hlives : l.Lives t horizon ticks rows row life) :
    l.Lives t horizon (now :: ticks) rows' row (life.after l t row ⟨status, n⟩) := by
  have hmono := hlives.mono (List.subset_cons_self now ticks)
  have hall := hstep.columns h.stored hcolumns
  cases hstep with
  | new hnone => exact hmono.append hs (hall rfl) hnow hhorizon hfind 1
  | outdated _ _ _ _ _ => exact hmono.append hs (hall rfl) hnow hhorizon hfind _
  | changed hone =>
    exact (hone.lives_ended h hticks hs hnow hlives).append hs (hall rfl) hnow hhorizon hfind _
  | @update _ _ r _ hone =>
    have hr := h.stored r (mem_middle _ _ r)
    obtain ⟨hversions, hrenewed⟩ := hone.lives h hticks hs.names hlives (l.renewedCells_changes row now)
      (hone.shows.renewed hs hr hnow) life.isOpen (hone.ends_kept h hticks hlives rfl)
    have hlast : life.versions.getLast? = some (l.veiled t r) := by
      rw [hversions, List.getLast?_concat]
    rw [veiled_renewed l row now (Instant.ofSeconds 0) hr.row.length] at hrenewed
    show l.Lives t horizon (now :: ticks) _ row ⟨life.versions.dropLast ++
      life.versions.getLast?.toList.map _, life.isOpen⟩
    rw [hlast]
    exact hrenewed
  | identical hone =>
    have hr := h.stored _ (mem_middle _ _ _)
    obtain ⟨hversions, hseen⟩ := hone.lives h hticks hs.names hlives (l.seenCells_changes now)
      (hone.shows.seen hs hr) life.isOpen (hone.ends_kept h hticks hlives rfl)
    rw [veiled_put hr.row.length (l.seenCells_dates now), ← hversions] at hseen
    exact hseen
  | purged hone => exact hone.lives_ended h hticks hs hnow hlives
  | skipped _ => exact hmono

omit hticks hnow hhorizon in
/-- **A step leaves the rows of other identifiers.** -/
theorem Step.filter_other (hother : l.sameIdentifier t w row = false) :
    rows'.filter (l.identifies t w) = rows.filter (l.identifies t w) := by
  have hall := hstep.columns h.stored hcolumns
  have hfresh : (∀ c ∈ l.insertColumns, t.Has c) → ∀ n horizon,
      l.identifies t w (l.freshRow t row n now horizon) = false := fun hcolumns n horizon =>
    (identifies_of_cells fun m hm => cell_fresh_id hs hcolumns hm).trans hother
  have happend : status.adds = true → ∀ (rows : List (List Cell)) n horizon,
      (rows ++ [l.freshRow t row n now horizon]).filter (l.identifies t w) =
        rows.filter (l.identifies t w) := by
    intro hadds rows n horizon
    rw [List.filter_append, List.filter_cons_of_neg (by rw [hfresh (hall hadds)]; exact Bool.false_ne_true),
      List.filter_nil, List.append_nil]
  have hput : ∀ {before after r v}, l.OneActive t row now before r after v → l.Stored t r →
      ∀ {entries}, (∀ e ∈ entries, e.1 ∈ l.names.validTo :: l.updateColumns) →
      (before ++ t.put entries r :: after).filter (l.identifies t w) =
        (before ++ r :: after).filter (l.identifies t w) := by
    intro before after r v hone hr entries hentries
    have hnot : l.identifies t w r = false :=
      (identifies_of_found hs hr hfind hone.identified).trans hother
    have hnot' := (identifies_put (w := w) hs.names hr.row hentries).trans hnot
    rw [List.filter_append, List.filter_append,
      List.filter_cons_of_neg (by rw [hnot']; exact Bool.false_ne_true),
      List.filter_cons_of_neg (by rw [hnot]; exact Bool.false_ne_true)]
  have hended : ∀ e ∈ [(l.names.validTo, Cell.text now.storageText)],
      e.1 ∈ l.names.validTo :: l.updateColumns := List.forall_mem_singleton.mpr List.mem_cons_self
  cases hstep with
  | new _ => exact happend rfl _ _ _
  | outdated _ _ _ _ _ => exact happend rfl _ _ _
  | changed hone =>
    exact (happend rfl _ _ _).trans (hput hone (h.stored _ (mem_middle _ _ _)) hended)
  | update hone => exact hput hone (h.stored _ (mem_middle _ _ _)) (l.renewedCells_changes row now)
  | identical hone => exact hput hone (h.stored _ (mem_middle _ _ _)) (l.seenCells_changes now)
  | purged hone => exact hput hone (h.stored _ (mem_middle _ _ _)) hended
  | skipped _ => rfl

end Steps

end Layout

end RowHistory
