import RowHistory.Proofs.Instant.RoundTrip
import RowHistory.Proofs.Statement.Success
import RowHistory.Proofs.Storage.Success
import RowHistory.Proofs.Versions.Refinement

/-!
# Looking versions up

A lookup in a table of versions finds the latest of the versions that it asks for, and gives back
what the table stored. This file fixes

* the tables that have the columns of a layout under just their names (`Layout.Spelled`);
* the record that a stored row gives back (`ofRow_stored`);
* what a lookup at an instant finds, and that it succeeds (`Chained.gives_active`).
-/

namespace RowHistory

open Sql

namespace Layout

variable {l : Layout} {t : Table} {r : List Cell} {v : Version} {strict : Prop}
  {ticks : List Instant} {rows : List (List Cell)} {db : Database}

/-- Every column of a layout is there, under just its name. -/
def Spelled (l : Layout) (t : Table) : Prop :=
  ∀ c ∈ l.insertColumns, c ∈ t.columns.map Column.name

instance (l : Layout) (t : Table) : Decidable (l.Spelled t) :=
  inferInstanceAs (Decidable (∀ c ∈ l.insertColumns, _))

theorem Spelled.has (h : l.Spelled t) {c : String} (hc : c ∈ l.insertColumns) : t.Has c :=
  Table.has_of_name (h c hc)

/-- What comes back of a stored row, as the record of a version. -/
def recordOf (t : Table) (r : List Cell) (v : Version) : Record :=
  { row := Store.rowOfCells ((t.columns.map Column.name).zip r)
    version := v.number
    validFrom := some v.validFrom
    validTo := v.validTo }

/-- A column that can be compared comes back as it is stored. -/
theorem value_recordOf (hl : l.Spelled t) (hd : t.Distinct) (hr : t.IsRow r) {c : String}
    (hc : c ∈ l.insertColumns) : (recordOf t r v).row.value c = (t.cell r c).toValue :=
  Table.value_rowOfCells_of_mem hd hr (hl c hc)

theorem boundOf_text (name : String) {e : Instant} (h : e.IsStorable) :
    Record.boundOf name (.text e.storageText) = .ok (some e) := by
  have hinstant : Value.asInstant? (.text e.storageText) = some e := h.parse?
  unfold Record.boundOf
  rw [if_neg (by exact Bool.false_ne_true), hinstant]

/-- **A stored row gives back its version.** -/
theorem ofRow_stored (hl : l.Spelled t) (hd : t.Distinct) (hr : t.IsRow r) (hshow : l.Shows t r v) :
    Record.ofRow l.names (Store.rowOfCells ((t.columns.map Column.name).zip r)) =
      .ok (recordOf t r v) := by
  have hvalue : ∀ {c}, c ∈ l.insertColumns → (Store.rowOfCells
      ((t.columns.map Column.name).zip r)).value c = (t.cell r c).toValue := fun hc =>
    Table.value_rowOfCells_of_mem hd hr (hl _ hc)
  generalize hrow : Store.rowOfCells ((t.columns.map Column.name).zip r) = row at hvalue
  have hversion : Record.versionOf l.names.version (row.value l.names.version) = .ok v.number := by
    rw [hvalue (lasting_insert l.version_lasting), hshow.number]
    rfl
  have hfrom : Record.boundOf l.names.validFrom (row.value l.names.validFrom) =
      .ok (some v.validFrom) := by
    rw [hvalue (updateColumns_insert l.validFrom_update), hshow.validFrom]
    exact boundOf_text _ hshow.storable.1
  have hto : Record.boundOf l.names.validTo (row.value l.names.validTo) = .ok v.validTo := by
    rw [hvalue l.validTo_insert, hshow.validTo]
    cases hend : v.validTo with
    | none => rfl
    | some e => exact boundOf_text _ (hshow.storable.2 e hend)
  unfold Record.ofRow recordOf
  rw [hversion, hfrom, hto, hrow]
  rfl

/-- What a lookup of the version at an instant finds: the latest of those that are active. -/
inductive Finds (l : Layout) (t : Table) (rows : List (List Cell)) (w : Row) (now : Instant) :
    Option Record → Prop
  | none : (∀ r ∈ rows, l.identifies t w r = true → ∀ v, l.Shows t r v → ¬ v.ActiveAt now) →
      Finds l t rows w now none
  | some {r : List Cell} {v : Version} : r ∈ rows → l.identifies t w r = true → l.Shows t r v →
      v.ActiveAt now → (∀ r' ∈ rows, l.identifies t w r' = true → ∀ v', l.Shows t r' v' →
        v'.ActiveAt now → v'.number ≤ v.number) → Finds l t rows w now (some (recordOf t r v))

variable (hids : l.fields.names .id ≠ []) (hmain : l.InMain) (hspelled : l.Spelled t)
  (hs : l.Suits t) (h : l.Chained t strict ticks rows)
  (hfind : db.find? l.table = some { t with rows })

include hids hmain hspelled hs h hfind

/-- **A lookup of the version at an instant** succeeds, and changes nothing. -/
theorem Chained.run_active {now : Instant} (hnow : now.IsStorable) (w : Row) :
    ∃ answer found, l.run .active { row := w, instant := some now } db = some (answer, db) ∧
      answer.record? l.names = .ok found ∧ l.Finds t rows w now found := by
  have hcolumns : ∀ c ∈ l.insertColumns, Table.Has { t with rows } c := fun c hc => hspelled.has hc
  obtain ⟨answer, hrun⟩ := run_selects hids hmain hcolumns (.inr rfl) hfind
    { row := w, instant := some now }
  have hpicks : ∀ {r v}, l.Shows t r v →
      (l.picks .active { row := w, instant := some now } t r = true ↔
        l.identifies t w r = true ∧ v.ActiveAt now) := fun hv => picks_active hv hnow
  obtain ⟨hnone, hpicked⟩ | ⟨r, hr, hpicked, hrow, hmax⟩ :=
    select_shown hids (h.kept hs) h.shows hfind (.inr rfl) hrun
  · refine ⟨answer, none, hrun, hnone, .none fun r hr hid v hv hactive => ?_⟩
    exact Bool.false_ne_true ((hpicked r hr).symm.trans ((hpicks hv).mpr ⟨hid, hactive⟩))
  · have hshow := shows_shown (h.shows r hr)
    obtain ⟨hid, hactive⟩ := (hpicks hshow).mp hpicked
    refine ⟨answer, _, hrun, ?_, .some hr hid hshow hactive fun r' hr' hid' v' hv' hactive' => ?_⟩
    · rw [hrow, ofRow_stored hspelled hs.columns (h.stored r hr).row hshow]
      rfl
    · have hle := hmax r' hr' ((hpicks hv').mpr ⟨hid', hactive'⟩)
      rw [hv'.eq_shown] at hle
      exact hle

/-- A storage that nobody disturbs looks the version up. -/
theorem Chained.gives_active {σ ε : Type} [Connection σ] [Transactional σ] [Steady σ]
    {s : Storage σ ε} (hready : s.Ready) (hlayout : s.layout = l) (hdb : s.working = db)
    {now : Instant} (hnow : now.IsStorable) (w : Row) :
    ∃ found, Storage.Gives (Storage.active w now) s found ∧ l.Finds t rows w now found := by
  obtain ⟨answer, found, hrun, hrecord, hfinds⟩ := h.run_active hids hmain hspelled hs hfind hnow w
  rw [← hlayout, ← hdb] at hrun
  rw [← hlayout] at hrecord
  exact ⟨found, Storage.gives_select hready hrun hrecord, hfinds⟩

end Layout

end RowHistory
