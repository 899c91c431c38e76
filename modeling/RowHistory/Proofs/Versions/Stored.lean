import RowHistory.Proofs.Versions.Machine

/-!
# Stored rows

What holds of every row that was stored for an identifier, and what a change makes of it. This file
fixes

* the rows that a table of versions has (`Layout.Stored`), and that identifiers split them: two
  incoming rows that find one stored row find the same ones (`identifies_congr`);
* what a row shows after it ended, was renewed or was seen (`Shows.ended`, `Shows.renewed`,
  `Shows.seen`), and what a fresh one shows (`shows_fresh`);
* that a fresh row is found by its own identifier (`identifies_fresh`).
-/

namespace RowHistory

open Sql

namespace Layout

variable {l : Layout} {t : Table} {r r' : List Cell} {row w : Row} {v : Version} {now : Instant}

/-! ## 1. Identifiers -/

/-- A row as a table of versions keeps it. -/
structure Stored (l : Layout) (t : Table) (r : List Cell) : Prop where
  row : t.IsRow r
  columns : ∀ c ∈ l.insertColumns, t.Has c
  proper : ∀ n ∈ l.fields.names .id, (t.cell r n).IsProper

/-- The columns of an identifier find what they stored for it. -/
def Findable (l : Layout) (t : Table) (row : Row) : Prop :=
  ∀ n ∈ l.fields.names .id, compareCells .eq (some (t.affinityOf n))
    ((t.affinityOf n).store (Cell.ofValue (row.value n))) (Cell.ofValue (row.value n)) = some true

theorem id_lasting {n : String} (h : n ∈ l.fields.names .id) : n ∈ l.lasting :=
  List.mem_append_left _ (List.mem_append_left _ h)

theorem lasting_insert {n : String} (h : n ∈ l.lasting) : n ∈ l.insertColumns :=
  l.lasting_perm.subset (List.mem_append_left _ h)

theorem Stored.has_id (h : l.Stored t r) {n : String} (hn : n ∈ l.fields.names .id) : t.Has n :=
  h.columns n (lasting_insert (id_lasting hn))

/-- A stored row is found by the keys of its identifier. -/
theorem identifies_iff (h : l.Stored t r) : l.identifies t w r = true ↔
    ∀ n ∈ l.fields.names .id, t.cell r n ≠ .null ∧ Cell.ofValue (w.value n) ≠ .null ∧
      ((t.affinityOf n).read (t.cell r n)).key =
        ((t.affinityOf n).read (Cell.ofValue (w.value n))).key := by
  unfold identifies
  rw [List.all_eq_true]
  refine forall₂_congr fun n hn => ?_
  rw [decide_eq_true_iff]
  exact Affinity.compareCells_eq_iff (h.row.store_cell (h.has_id hn)) (h.proper n hn)
    (Cell.isProper_ofValue _)

theorem identifies_of_common (h : l.Stored t r) (h' : l.Stored t r')
    (hw : l.identifies t w r = true) (hrow : l.identifies t row r = true)
    (hrow' : l.identifies t row r' = true) : l.identifies t w r' = true := by
  rw [identifies_iff h] at hw hrow
  rw [identifies_iff h'] at hrow' ⊢
  intro n hn
  obtain ⟨-, hnull, hkey⟩ := hw n hn
  obtain ⟨-, -, hkey₁⟩ := hrow n hn
  obtain ⟨hnull', -, hkey₂⟩ := hrow' n hn
  exact ⟨hnull', hnull, by rw [hkey₂, ← hkey₁, hkey]⟩

/-- **Identifiers split the rows**: two that find one row find the same rows. -/
theorem identifies_congr (h : l.Stored t r) (h' : l.Stored t r') (hw : l.identifies t w r = true)
    (hrow : l.identifies t row r = true) : l.identifies t w r' = l.identifies t row r' :=
  Bool.eq_iff_iff.mpr ⟨identifies_of_common h h' hrow hw, identifies_of_common h h' hw hrow⟩

/-! ## 2. Changes -/

variable {entries : List (String × Cell)}

theorem Stored.put (hl : l.Distinct) (h : l.Stored t r)
    (hentries : ∀ e ∈ entries, e.1 ∈ l.names.validTo :: l.updateColumns) :
    l.Stored t (t.put entries r) :=
  ⟨h.row.put entries, h.columns, fun n hn => by
    rw [hl.cell_put h.row hentries (id_lasting hn)]
    exact h.proper n hn⟩

/-- A change of other columns keeps the identifier. -/
theorem identifies_put (hl : l.Distinct) (h : t.IsRow r)
    (hentries : ∀ e ∈ entries, e.1 ∈ l.names.validTo :: l.updateColumns) :
    l.identifies t w (t.put entries r) = l.identifies t w r := by
  unfold identifies
  rw [Bool.eq_iff_iff, List.all_eq_true, List.all_eq_true]
  refine forall₂_congr fun n hn => ?_
  rw [hl.cell_put h hentries (id_lasting hn)]

theorem version_lasting (l : Layout) : l.names.version ∈ l.lasting :=
  List.mem_append_right _ List.mem_cons_self

theorem validTo_insert (l : Layout) : l.names.validTo ∈ l.insertColumns :=
  l.lasting_perm.subset (List.mem_append_right _ List.mem_cons_self)

theorem validFrom_update (l : Layout) : l.names.validFrom ∈ l.updateColumns :=
  List.mem_append_right _ List.mem_cons_self

theorem updateColumns_insert {c : String} (h : c ∈ l.updateColumns) : c ∈ l.insertColumns :=
  l.lasting_perm.subset (List.mem_append_right _ (List.mem_cons_of_mem _ h))

/-- The columns that can change have different names. -/
theorem Distinct.changing (hl : l.Distinct) :
    ((l.names.validTo :: l.updateColumns).map String.toLower).Nodup :=
  (((l.lasting_perm.map String.toLower).nodup_iff).mpr hl).sublist
    ((List.sublist_append_right _ _).map _)

theorem Distinct.validTo_ne (hl : l.Distinct) {c : String} (hc : c ∈ l.updateColumns) :
    c.toLower ≠ l.names.validTo.toLower := by
  intro heq
  refine (List.nodup_cons.mp hl.changing).1 ?_
  rw [← heq]
  exact List.mem_map_of_mem hc

theorem Distinct.lastSeen_ne (hl : l.Distinct) {c : String} (hc : c ∈ l.names.lastSeen.toList) :
    c.toLower ≠ l.names.validFrom.toLower := by
  have hnodup : ((l.names.validFrom :: l.names.lastSeen.toList).map String.toLower).Nodup :=
    (List.nodup_cons.mp hl.changing).2.sublist ((List.sublist_append_right _ _).map _)
  intro heq
  refine (List.nodup_cons.mp hnodup).1 ?_
  rw [← heq]
  exact List.mem_map_of_mem hc

theorem lastSeen_update {c : String} (hc : c ∈ l.names.lastSeen.toList) : c ∈ l.updateColumns :=
  List.mem_append_right _ (List.mem_cons_of_mem _ hc)

/-- The cells of different columns, by name. -/
theorem Distinct.cellNamed? (hl : l.Distinct)
    (hnames : (entries.map Prod.fst).Sublist l.insertColumns) {n : String} {x : Cell}
    (h : (n, x) ∈ entries) : Table.cellNamed? entries n = some x := by
  refine Table.cellNamed?_eq_some ?_ h
  have hlower : entries.map (fun e => e.1.toLower) = (entries.map Prod.fst).map String.toLower := by
    rw [List.map_map]
    rfl
  rw [hlower]
  exact hl.sublist (hnames.map _)

variable (hs : l.Suits t)

include hs

/-- A row that ended shows its end. -/
theorem Shows.ended (hr : l.Stored t r) (hnow : now.IsStorable) (h : l.Shows t r v) :
    l.Shows t (l.endedRow t now r) { v with validTo := some now } := by
  have hentries : ∀ e ∈ [(l.names.validTo, Cell.text now.storageText)],
      e.1 ∈ l.names.validTo :: l.updateColumns := List.forall_mem_singleton.mpr List.mem_cons_self
  refine ⟨?_, ?_, ?_, h.storable.1, fun e he => Option.some.inj he ▸ hnow⟩
  · exact (hs.names.cell_put hr.row hentries l.version_lasting).trans h.number
  · refine (Table.cell_put_of_none hr.row.length ?_).trans h.validFrom
    exact Table.cellNamed?_eq_none (List.forall_mem_singleton.mpr
      (hs.names.validTo_ne l.validFrom_update).symm)
  · have hentry : Table.cellNamed? [(l.names.validTo, Cell.text now.storageText)] l.names.validTo =
        some (.text now.storageText) := Table.cellNamed?_eq_some (by simp) List.mem_cons_self
    unfold endedRow
    rw [Table.cell_put (hr.columns _ l.validTo_insert) hr.row.length, hentry]
    exact hs.validTo now hnow

/-- A row that is renewed starts again. -/
theorem Shows.renewed (hr : l.Stored t r) (hnow : now.IsStorable) (h : l.Shows t r v) :
    l.Shows t (t.put (l.renewedCells row now) r) { v with validFrom := now } := by
  have hnames : ∀ e ∈ l.renewedCells row now, e.1 ∈ l.updateColumns := fun e he =>
    l.fst_renewedCells row now ▸ List.mem_map_of_mem he
  refine ⟨?_, ?_, ?_, hnow, h.storable.2⟩
  · exact (hs.names.cell_put hr.row (l.renewedCells_changes row now) l.version_lasting).trans h.number
  · have hsublist : ((l.renewedCells row now).map Prod.fst).Sublist l.insertColumns := by
      rw [fst_renewedCells]
      exact l.setColumns_sublist .update
    have hentry := hs.names.cellNamed? (x := .text now.storageText) hsublist
      (List.mem_append_right _ List.mem_cons_self)
    rw [Table.cell_put (hr.columns _ (updateColumns_insert l.validFrom_update)) hr.row.length, hentry]
    exact hs.validFrom now hnow
  · refine (Table.cell_put_of_none hr.row.length ?_).trans h.validTo
    exact Table.cellNamed?_eq_none fun e he => hs.names.validTo_ne (hnames e he)

/-- A row that was seen shows what it showed. -/
theorem Shows.seen (hr : l.Stored t r) (h : l.Shows t r v) :
    l.Shows t (t.put (l.seenCells now) r) v := by
  have hnames : ∀ e ∈ l.seenCells now, e.1 ∈ l.names.lastSeen.toList := fun e he =>
    l.fst_seenCells now ▸ List.mem_map_of_mem he
  refine ⟨?_, ?_, ?_, h.storable⟩
  · exact (hs.names.cell_put hr.row (l.seenCells_changes now) l.version_lasting).trans h.number
  · refine (Table.cell_put_of_none hr.row.length ?_).trans h.validFrom
    exact Table.cellNamed?_eq_none fun e he => hs.names.lastSeen_ne (hnames e he)
  · refine (Table.cell_put_of_none hr.row.length ?_).trans h.validTo
    exact Table.cellNamed?_eq_none fun e he => hs.names.validTo_ne (lastSeen_update (hnames e he))

/-! ## 3. Fresh rows -/

variable {number : Int} {horizon : Option Instant} (hcolumns : ∀ c ∈ l.insertColumns, t.Has c)

include hcolumns

/-- The cells of a fresh row. -/
theorem cell_fresh {n : String} {x : Cell} (h : (n, x) ∈ l.versionCells row number now horizon) :
    t.cell (l.freshRow t row number now horizon) n = (t.affinityOf n).store x := by
  have hn : n ∈ l.insertColumns := l.fst_versionCells row number now horizon ▸ List.mem_map_of_mem h
  have hsublist : ((l.versionCells row number now horizon).map Prod.fst).Sublist l.insertColumns := by
    rw [fst_versionCells]
  unfold freshRow
  rw [Table.cell_put (hcolumns n hn) (Table.isRow_blank t).length, hs.names.cellNamed? hsublist h]

theorem cell_fresh_id {n : String} (h : n ∈ l.fields.names .id) :
    t.cell (l.freshRow t row number now horizon) n =
      (t.affinityOf n).store (Cell.ofValue (row.value n)) := by
  refine cell_fresh hs hcolumns ?_
  unfold versionCells
  simp only [List.append_assoc]
  exact List.mem_append_left _ (List.mem_map.mpr ⟨n, h, rfl⟩)

theorem stored_fresh : l.Stored t (l.freshRow t row number now horizon) :=
  ⟨(Table.isRow_blank t).put _, hcolumns, fun n hn => by
    rw [cell_fresh_id hs hcolumns hn]
    exact Affinity.isProper_store (Cell.isProper_ofValue _)⟩

/-- **A fresh row shows its version.** -/
theorem shows_fresh (hnow : now.IsStorable) (hhorizon : ∀ e ∈ horizon, e.IsStorable) :
    l.Shows t (l.freshRow t row number now horizon) ⟨number, now, horizon⟩ := by
  refine ⟨?_, ?_, ?_, hnow, hhorizon⟩
  · refine (cell_fresh hs hcolumns (List.mem_append_right _ ?_)).trans (hs.version number)
    exact List.mem_cons_of_mem _ (List.mem_cons_of_mem _ List.mem_cons_self)
  · exact (cell_fresh hs hcolumns (List.mem_append_right _ List.mem_cons_self)).trans
      (hs.validFrom now hnow)
  · refine (cell_fresh hs hcolumns (List.mem_append_right _
      (List.mem_cons_of_mem _ List.mem_cons_self))).trans ?_
    cases horizon with
    | none => exact Affinity.store_null _
    | some e => exact hs.validTo e (hhorizon e rfl)

/-- **A fresh row is found by its own identifier.** -/
theorem identifies_fresh (hfind : l.Findable t row) :
    l.identifies t row (l.freshRow t row number now horizon) = true := by
  unfold identifies
  rw [List.all_eq_true]
  intro n hn
  rw [cell_fresh_id hs hcolumns hn]
  exact decide_eq_true (hfind n hn)

end Layout

end RowHistory
