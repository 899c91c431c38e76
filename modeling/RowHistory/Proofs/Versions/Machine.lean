import RowHistory.Proofs.Rows
import RowHistory.Proofs.Statement.Effects
import RowHistory.Session

/-!
# The machine of versions

What becomes of the rows of a table when an incoming row is processed, without statements: a new
version is added, the active one ends or is changed in place. This file fixes

* what a stored row says of its version (`Layout.Shows`) and whom it belongs to
  (`Layout.identifies`);
* the cells that a version gets (`versionCells`, `renewedCells`);
* the steps of the machine (`Layout.Step`), one for each status;
* what every step leaves alone (`Step.lasts`).
-/

namespace RowHistory

open Sql

/-! ## 1. Versions -/

/-- What a stored row says of its version. -/
structure Version where
  number : Int
  validFrom : Instant
  /-- The end of the validity; none if it is open. -/
  validTo : Option Instant
deriving DecidableEq

/-- The version is active at an instant: it has started, and it has not ended before it. -/
def Version.ActiveAt (v : Version) (now : Instant) : Prop :=
  v.validFrom ≤ now ∧ ∀ e ∈ v.validTo, now ≤ e

/-- The cell of an end. -/
def endCell (t : Option Instant) : Cell :=
  Cell.ofValue (Value.ofInstant? t)

namespace Layout

variable {l : Layout} {t : Table} {r : List Cell}

/-- A stored row shows a version, whose instants can be read back. -/
structure Shows (l : Layout) (t : Table) (r : List Cell) (v : Version) : Prop where
  number : t.cell r l.names.version = .integer v.number
  validFrom : t.cell r l.names.validFrom = .text v.validFrom.storageText
  validTo : t.cell r l.names.validTo = endCell v.validTo
  storable : v.validFrom.IsStorable ∧ ∀ e ∈ v.validTo, e.IsStorable

/-- A stored row belongs to the identifier of an incoming one. -/
def identifies (l : Layout) (t : Table) (row : Row) (r : List Cell) : Bool :=
  (l.fields.names .id).all fun n =>
    compareCells .eq (some (t.affinityOf n)) (t.cell r n) (Cell.ofValue (row.value n)) = some true

/-- The table is fit for versions: names differ, the version column keeps integers, and the columns
of the validity keep the texts of instants. -/
structure Suits (l : Layout) (t : Table) : Prop where
  names : l.Distinct
  columns : t.Distinct
  version : ∀ n : Int, (t.affinityOf l.names.version).store (.integer n) = .integer n
  validFrom : (t.affinityOf l.names.validFrom).KeepsInstants
  validTo : (t.affinityOf l.names.validTo).KeepsInstants

/-- All columns keep the texts of instants, and a column for integers keeps the version. -/
theorem suits_of_integer (hl : l.Distinct) (ht : t.Distinct)
    (hversion : t.affinityOf l.names.version = .integer) : l.Suits t :=
  ⟨hl, ht, fun _ => by rw [hversion]; rfl, Affinity.keepsInstants _, Affinity.keepsInstants _⟩

/-! ## 2. Cells -/

/-- The values of some fields of a row, null where it has none. -/
def fieldCells (row : Row) (names : List String) : List (String × Cell) :=
  names.map fun n => (n, Cell.ofValue (row.value n))

/-- The last-seen column, if there is one. -/
def seenCells (l : Layout) (now : Instant) : List (String × Cell) :=
  l.names.lastSeen.toList.map fun n => (n, .text now.storageText)

/-- The cells of a new version. -/
def versionCells (l : Layout) (row : Row) (number : Int) (now : Instant) (horizon : Option Instant) :
    List (String × Cell) :=
  fieldCells row (l.fields.names .id) ++ fieldCells row (l.fields.names .update) ++
    fieldCells row (l.fields.names .compare) ++ fieldCells row (l.fields.names .lazy) ++
    (l.names.validFrom, .text now.storageText) :: (l.names.validTo, endCell horizon) ::
      (l.names.version, .integer number) :: l.seenCells now

/-- The cells of a version that is changed in place. -/
def renewedCells (l : Layout) (row : Row) (now : Instant) : List (String × Cell) :=
  fieldCells row (l.fields.names .update) ++ fieldCells row (l.fields.names .lazy) ++
    (l.names.validFrom, .text now.storageText) :: l.seenCells now

/-- The row of a new version. -/
def freshRow (l : Layout) (t : Table) (row : Row) (number : Int) (now : Instant)
    (horizon : Option Instant) : List Cell :=
  t.put (l.versionCells row number now horizon) t.blank

/-- The row of a version that ends. -/
def endedRow (l : Layout) (t : Table) (now : Instant) (r : List Cell) : List Cell :=
  t.put [(l.names.validTo, .text now.storageText)] r

/-- A row after a purge with a cutoff, which ends the rows that it picks. -/
def sweptRow (l : Layout) (t : Table) (picked : List Cell → Bool) (cutoff : Instant)
    (r : List Cell) : List Cell :=
  if picked r then l.endedRow t cutoff r else r

/-! ## 3. Steps -/

/-- The one active row of an identifier, between the others. -/
structure OneActive (l : Layout) (t : Table) (row : Row) (now : Instant)
    (before : List (List Cell)) (r : List Cell) (after : List (List Cell)) (v : Version) : Prop where
  identified : l.identifies t row r = true
  shows : l.Shows t r v
  active : v.ActiveAt now
  only : ∀ r' ∈ before ++ after, l.identifies t row r' = true →
    ∃ v', l.Shows t r' v' ∧ ¬ v'.ActiveAt now

/-- No row of an identifier is active. -/
def NoneActive (l : Layout) (t : Table) (row : Row) (now : Instant) (rows : List (List Cell)) : Prop :=
  ∀ r ∈ rows, l.identifies t row r = true → ∃ v, l.Shows t r v ∧ ¬ v.ActiveAt now

/-- What becomes of the rows of a table: the rows before, the status of an incoming row, its
version, and the rows after it. -/
inductive Step (l : Layout) (t : Table) (row : Row) (now : Instant) (horizon : Option Instant) :
    List (List Cell) → RowStatus → Int → List (List Cell) → Prop
  /-- Nothing is stored for the identifier, and its first version is added. -/
  | new {rows : List (List Cell)} : (∀ r ∈ rows, l.identifies t row r = false) →
      Step l t row now horizon rows .new 1 (rows ++ [l.freshRow t row 1 now horizon])
  /-- No version is active, and one behind the latest is added. -/
  | outdated {rows : List (List Cell)} {r : List Cell} {v : Version} : r ∈ rows →
      l.identifies t row r = true → l.Shows t r v → l.NoneActive t row now rows →
      (∀ r' ∈ rows, l.identifies t row r' = true → ∃ v', l.Shows t r' v' ∧ v'.number ≤ v.number) →
      Step l t row now horizon rows .outdated (v.number + 1)
        (rows ++ [l.freshRow t row (v.number + 1) now horizon])
  /-- The active version ends, and the next one is added. -/
  | changed {before after : List (List Cell)} {r : List Cell} {v : Version} :
      l.OneActive t row now before r after v →
      Step l t row now horizon (before ++ r :: after) .changed (v.number + 1)
        (before ++ l.endedRow t now r :: after ++ [l.freshRow t row (v.number + 1) now horizon])
  /-- The active version is changed in place. -/
  | update {before after : List (List Cell)} {r : List Cell} {v : Version} :
      l.OneActive t row now before r after v →
      Step l t row now horizon (before ++ r :: after) .update v.number
        (before ++ t.put (l.renewedCells row now) r :: after)
  /-- The active version was seen; without a last-seen column nothing is written. -/
  | identical {before after : List (List Cell)} {r : List Cell} {v : Version} :
      l.OneActive t row now before r after v →
      Step l t row now horizon (before ++ r :: after) .identical v.number
        (before ++ t.put (l.seenCells now) r :: after)
  /-- The active version ends. -/
  | purged {before after : List (List Cell)} {r : List Cell} {v : Version} :
      l.OneActive t row now before r after v →
      Step l t row now horizon (before ++ r :: after) .purged v.number
        (before ++ l.endedRow t now r :: after)
  /-- No version is active to which a status could apply, and nothing is written. -/
  | skipped {rows : List (List Cell)} {n : Int} : l.NoneActive t row now rows →
      Step l t row now horizon rows .skipped n rows

/-! ## 4. What stays -/

/-- The columns of a stored row that never change: its identifier, what is compared, and its
number. -/
def lasting (l : Layout) : List String :=
  l.fields.names .id ++ l.fields.names .compare ++ [l.names.version]

/-- All other columns can change. -/
theorem lasting_perm (l : Layout) :
    (l.lasting ++ l.names.validTo :: l.updateColumns).Perm l.insertColumns := by
  rw [List.perm_iff_count]
  intro c
  simp only [lasting, updateColumns, insertColumns, List.count_append, List.count_cons, List.count_nil]
  omega

/-- The other columns have other names. -/
theorem Distinct.lasting (hl : l.Distinct) {c d : String} (hc : c ∈ l.lasting)
    (hd : d ∈ l.names.validTo :: l.updateColumns) : d.toLower ≠ c.toLower := by
  have hnodup := ((l.lasting_perm.map String.toLower).nodup_iff).mpr hl
  rw [List.map_append] at hnodup
  exact (List.nodup_append.mp hnodup).2.2 _ (List.mem_map_of_mem hc) _ (List.mem_map_of_mem hd) |>.symm

/-- A change of other columns leaves a lasting one. -/
theorem Distinct.cell_put (hl : l.Distinct) (hr : t.IsRow r) {entries : List (String × Cell)}
    (h : ∀ e ∈ entries, e.1 ∈ l.names.validTo :: l.updateColumns) {c : String}
    (hc : c ∈ l.lasting) : t.cell (t.put entries r) c = t.cell r c :=
  Table.cell_put_of_none hr.length (Table.cellNamed?_eq_none fun e he => hl.lasting hc (h e he))

theorem fst_fieldCells (row : Row) (names : List String) :
    (fieldCells row names).map Prod.fst = names := by
  unfold fieldCells
  rw [List.map_map]
  exact List.map_id names

theorem fst_seenCells (l : Layout) (now : Instant) :
    (l.seenCells now).map Prod.fst = l.names.lastSeen.toList := by
  unfold seenCells
  rw [List.map_map]
  exact List.map_id _

theorem fst_versionCells (l : Layout) (row : Row) (number : Int) (now : Instant)
    (horizon : Option Instant) :
    (l.versionCells row number now horizon).map Prod.fst = l.insertColumns := by
  simp only [versionCells, insertColumns, List.map_append, List.map_cons, fst_fieldCells, fst_seenCells]

theorem fst_renewedCells (l : Layout) (row : Row) (now : Instant) :
    (l.renewedCells row now).map Prod.fst = l.updateColumns := by
  simp only [renewedCells, updateColumns, List.map_append, List.map_cons, fst_fieldCells, fst_seenCells]

theorem seenCells_changes (l : Layout) (now : Instant) :
    ∀ e ∈ l.seenCells now, e.1 ∈ l.names.validTo :: l.updateColumns := by
  intro e he
  have hmem : e.1 ∈ l.names.lastSeen.toList := fst_seenCells l now ▸ List.mem_map_of_mem he
  exact List.mem_cons_of_mem _ (List.mem_append_right _ (List.mem_cons_of_mem _ hmem))

theorem renewedCells_changes (l : Layout) (row : Row) (now : Instant) :
    ∀ e ∈ l.renewedCells row now, e.1 ∈ l.names.validTo :: l.updateColumns := fun _ he =>
  List.mem_cons_of_mem _ (fst_renewedCells l row now ▸ List.mem_map_of_mem he)

/-- What is left of rows: each is there, with its lasting columns. -/
def Lasts (l : Layout) (t : Table) (rows rows' : List (List Cell)) : Prop :=
  List.Forall₂ (fun r r' => ∀ c ∈ l.lasting, t.cell r' c = t.cell r c) rows rows'

theorem Lasts.refl (l : Layout) (t : Table) (rows : List (List Cell)) : l.Lasts t rows rows :=
  List.forall₂_same.mpr fun _ _ _ _ => rfl

/-- One row of several is changed. -/
theorem Distinct.lasts (hl : l.Distinct) {before after : List (List Cell)} (hr : t.IsRow r)
    {entries : List (String × Cell)} (h : ∀ e ∈ entries, e.1 ∈ l.names.validTo :: l.updateColumns) :
    l.Lasts t (before ++ r :: after) (before ++ t.put entries r :: after) :=
  List.rel_append (Lasts.refl l t before) (.cons (fun _ hc => hl.cell_put hr h hc) (Lasts.refl l t after))

/-- **No row is removed, and none changes its identifier, what is compared, or its number**; one
row is added at most. -/
theorem Step.lasts {row : Row} {now : Instant} {horizon : Option Instant} {status : RowStatus}
    {n : Int} {rows rows' : List (List Cell)} (hl : l.Distinct) (hrows : ∀ r ∈ rows, t.IsRow r)
    (h : Step l t row now horizon rows status n rows') :
    ∃ kept added, rows' = kept ++ added ∧ l.Lasts t rows kept ∧ added.length ≤ 1 := by
  have hended : ∀ e ∈ [(l.names.validTo, Cell.text now.storageText)],
      e.1 ∈ l.names.validTo :: l.updateColumns := List.forall_mem_singleton.mpr List.mem_cons_self
  have hone : ∀ {before after : List (List Cell)} {r : List Cell},
      r ∈ before ++ r :: after := List.mem_append_right _ List.mem_cons_self
  cases h with
  | new _ => exact ⟨_, _, rfl, .refl l t _, Nat.le_refl 1⟩
  | outdated _ _ _ _ _ => exact ⟨_, _, rfl, .refl l t _, Nat.le_refl 1⟩
  | changed _ => exact ⟨_, _, rfl, hl.lasts (hrows _ hone) hended, Nat.le_refl 1⟩
  | update _ =>
    exact ⟨_, [], (List.append_nil _).symm, hl.lasts (hrows _ hone) (l.renewedCells_changes row now),
      Nat.zero_le 1⟩
  | identical _ =>
    exact ⟨_, [], (List.append_nil _).symm, hl.lasts (hrows _ hone) (l.seenCells_changes now),
      Nat.zero_le 1⟩
  | purged _ =>
    exact ⟨_, [], (List.append_nil _).symm, hl.lasts (hrows _ hone) hended, Nat.zero_le 1⟩
  | skipped _ => exact ⟨_, [], (List.append_nil _).symm, .refl l t _, Nat.zero_le 1⟩

end Layout

end RowHistory
