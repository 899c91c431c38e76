import RowHistory.Proofs.Sql.Constraints
import RowHistory.Proofs.Versions.Lives

/-!
# Steps that are written

A row that was judged is written unless the table refuses what its statements set: a null where none may
be, or a value that must be unique. This file fixes

* where entries that are set by name leave nulls (`Table.nullColumn?_put`), and that the versions of a
  row have theirs at the same places whatever the times are (`sameNulls_version`);
* tables in which what must be unique tells versions apart (`Layout.Keyed`), so that rows which go on with
  the chains are not refused (`Chained.check`);
* that what is decided is written (`Decided.writes`).
-/

namespace RowHistory

open Sql

/-! ## 1. Nulls -/

namespace Sql.Table

variable {t : Table} {r : List Cell} {entries entries' : List (String × Cell)}

/-- **Which rows have no null that must not be**, after cells were set by name. -/
theorem nullColumn?_put (hr : r.length = t.columns.length) : t.nullColumn? (t.put entries r) = none ↔
    ∀ (i : Nat) (c : Column) (x : Cell), t.columns[i]? = some c → r[i]? = some x → c.notNull = true →
      (cellNamed? entries c.name).getD x ≠ .null := by
  unfold nullColumn?
  rw [Option.map_eq_none_iff, List.find?_eq_none]
  have hcell : ∀ {i : Nat} {c : Column} {x : Cell}, t.columns[i]? = some c → r[i]? = some x →
      ((t.put entries r)[i]? = some .null ↔ (cellNamed? entries c.name).getD x = .null) := by
    intro i c x hc hx
    rw [getElem?_put hc hx, Option.some.injEq]
    cases cellNamed? entries c.name with
    | some v => exact Affinity.store_eq_null
    | none => exact Iff.rfl
  constructor
  · intro h i c x hc hx hnotNull hnull
    have hput := (hcell hc hx).mpr hnull
    refine h (c, .null) (List.mem_of_getElem? (List.getElem?_zip_eq_some.mpr ⟨hc, hput⟩)) ?_
    simp [hnotNull, Cell.isNull]
  · rintro h ⟨c, y⟩ hmem hnull
    obtain ⟨i, hi⟩ := List.mem_iff_getElem?.mp hmem
    obtain ⟨hc, hy⟩ := List.getElem?_zip_eq_some.mp hi
    have hx := List.getElem?_eq_getElem (hr ▸ (List.getElem?_eq_some_iff.mp hc).1 : i < r.length)
    obtain ⟨hnotNull, hy'⟩ := Bool.and_eq_true_iff.mp hnull
    obtain rfl : y = .null := of_decide_eq_true hy'
    exact h i c _ hc hx hnotNull ((hcell hc hx).mp hy)

/-- Cells that are not null can be set everywhere. -/
theorem nullColumn?_put_of_ne (hr : r.length = t.columns.length) (hentries : ∀ e ∈ entries, e.2 ≠ .null)
    (hnone : t.nullColumn? r = none) : t.nullColumn? (t.put entries r) = none := by
  rw [← put_nil hr, nullColumn?_put hr] at hnone
  rw [nullColumn?_put hr]
  intro i c x hc hx hnotNull
  cases hnamed : cellNamed? entries c.name with
  | none => exact hnone i c x hc hx hnotNull
  | some y =>
    obtain ⟨e, he, rfl⟩ := Option.map_eq_some_iff.mp hnamed
    exact hentries e (List.mem_of_find?_eq_some he)

/-- Entries of the same names are null at the same ones. -/
def SameNulls (entries entries' : List (String × Cell)) : Prop :=
  List.Forall₂ (fun e e' => e.1 = e'.1 ∧ (e.2 = .null ↔ e'.2 = .null)) entries entries'

theorem SameNulls.cellNamed? (h : SameNulls entries entries') (name : String) (x : Cell) :
    (cellNamed? entries name).getD x = .null ↔ (cellNamed? entries' name).getD x = .null := by
  induction h with
  | nil => exact Iff.rfl
  | @cons e e' entries entries' he _ ih =>
    unfold Table.cellNamed? at ih ⊢
    rw [List.find?_cons, List.find?_cons, ← he.1]
    cases sameName e.1 name with
    | true => exact he.2
    | false => exact ih

theorem sameNulls_refl (entries : List (String × Cell)) : SameNulls entries entries :=
  List.forall₂_same.mpr fun _ _ => ⟨rfl, Iff.rfl⟩

/-- The entries of a row may be null where others may. -/
theorem SameNulls.nullColumn? (h : SameNulls entries entries') (hr : r.length = t.columns.length)
    (hnone : t.nullColumn? (t.put entries r) = none) : t.nullColumn? (t.put entries' r) = none := by
  rw [nullColumn?_put hr] at hnone ⊢
  exact fun i c x hc hx hnotNull hnull =>
    hnone i c x hc hx hnotNull ((h.cellNamed? c.name x).mpr hnull)

/-- Entries that a row without forbidden nulls has can be set in another one. -/
theorem nullColumn?_put_of_put {r' : List Cell} (hr : t.IsRow r) (hr' : t.IsRow r')
    (hnone : t.nullColumn? (t.put entries r) = none) (hnone' : t.nullColumn? r' = none) :
    t.nullColumn? (t.put entries r') = none := by
  rw [← put_nil hr'.length, nullColumn?_put hr'.length] at hnone'
  rw [nullColumn?_put hr.length] at hnone
  rw [nullColumn?_put hr'.length]
  intro i c x hc hx hnotNull
  have hlt : i < r.length := hr.length ▸ (List.getElem?_eq_some_iff.mp hc).1
  cases hnamed : cellNamed? entries c.name with
  | none => exact hnone' i c x hc hx hnotNull
  | some y =>
    have hy := hnone i c r[i] hc (List.getElem?_eq_getElem hlt) hnotNull
    rw [hnamed] at hy
    exact hy

end Sql.Table

namespace Layout

variable {t : Table} {row : Row} {now : Instant}

theorem sameNulls_seen (l : Layout) (now now' : Instant) :
    Table.SameNulls (l.seenCells now) (l.seenCells now') :=
  List.forall₂_map_left_iff.mpr (List.forall₂_map_right_iff.mpr
    (List.forall₂_same.mpr fun _ _ => ⟨rfl, ⟨nofun, nofun⟩⟩))

theorem endCell_eq_null {horizon : Option Instant} : endCell horizon = .null ↔ horizon.isSome = false := by
  cases horizon with
  | none => exact ⟨fun _ => rfl, fun _ => rfl⟩
  | some e => exact ⟨nofun, nofun⟩

/-- New versions of a row have nulls at the same places, if both horizons are open or none is. -/
theorem sameNulls_version (l : Layout) (row : Row) (n : Int) (now now' : Instant)
    {horizon horizon' : Option Instant} (h : horizon.isSome = horizon'.isSome) :
    Table.SameNulls (l.versionCells row n now horizon) (l.versionCells row n now' horizon') := by
  refine List.rel_append (Table.sameNulls_refl _) (.cons ⟨rfl, ⟨nofun, nofun⟩⟩ (.cons ⟨rfl, ?_⟩
    (.cons ⟨rfl, Iff.rfl⟩ (l.sameNulls_seen now now'))))
  rw [endCell_eq_null, endCell_eq_null, h]

theorem sameNulls_renewed (l : Layout) (row : Row) (now now' : Instant) :
    Table.SameNulls (l.renewedCells row now) (l.renewedCells row now') :=
  List.rel_append (Table.sameNulls_refl _) (.cons ⟨rfl, ⟨nofun, nofun⟩⟩ (l.sameNulls_seen now now'))

/-! ## 2. Versions that are told apart -/

/-- What must be unique in a table tells versions apart: it has the identifier, and the number. -/
def Keyed (l : Layout) (t : Table) : Prop :=
  ∀ columns ∈ t.unique, ∀ n ∈ l.names.version :: l.fields.names .id, t.place n ∈ columns

instance (l : Layout) (t : Table) : Decidable (l.Keyed t) :=
  inferInstanceAs (Decidable (∀ columns ∈ t.unique, _))

/-- Rows of other identifiers, or with other numbers, do not repeat each other. -/
theorem Keyed.apart {l : Layout} (hkeyed : l.Keyed t) {r r' : List Cell} {v v' : Version}
    (hr : l.Stored t r) (hr' : l.Stored t r') (hshow : l.Shows t r v) (hshow' : l.Shows t r' v')
    (hid : l.identifies t row r = true)
    (hne : l.identifies t row r' = true → v'.number ≠ v.number) : t.Apart r r' := by
  intro columns hcolumns
  rw [← Bool.not_eq_true]
  intro hagree
  have hcells : ∀ n ∈ l.names.version :: l.fields.names .id, t.cell r n ≠ .null ∧ t.cell r' n ≠ .null ∧
      (t.cell r n).order (t.cell r' n) = .eq := by
    intro n hn
    have hcell := List.all_eq_true.mp hagree _ (hkeyed columns hcolumns n hn)
    simp only [Cell.isNull, Bool.and_eq_true, Bool.not_eq_true', decide_eq_false_iff_not,
      decide_eq_true_eq] at hcell
    exact ⟨hcell.1.1, hcell.1.2, hcell.2⟩
  refine hne ?_ ?_
  · rw [identifies_iff hr] at hid
    rw [identifies_iff hr']
    intro n hn
    obtain ⟨-, hnull, hkey⟩ := hid n hn
    obtain ⟨-, hnull', horder⟩ := hcells n (List.mem_cons_of_mem _ hn)
    have hkeys := (Cell.order_eq_iff (hr.proper n hn) (hr'.proper n hn)).mp horder
    refine ⟨hnull', hnull, ?_⟩
    rw [← hkey, Affinity.read_of_store (hr.row.store_cell (hr.has_id hn)),
      Affinity.read_of_store (hr'.row.store_cell (hr'.has_id hn)), hkeys]
  · have horder := (hcells _ List.mem_cons_self).2.2
    rw [hshow.number, hshow'.number] at horder
    exact (Int.compare_eq_eq.mp horder).symm

/-- **A row that goes on with the chains may stand beside the others**, if it has no forbidden
null. -/
theorem Chained.check {l : Layout} {strict : Prop} {ticks : List Instant}
    {before after : List (List Cell)} {r : List Cell} (hkeyed : l.Keyed t)
    (h : l.Chained t strict ticks (before ++ r :: after)) (hid : l.identifies t row r = true)
    (hnull : t.nullColumn? r = none) : t.check (before ++ after) r = .ok () := by
  refine Table.check_ok_iff.mpr ⟨hnull, fun r' hr' => ?_⟩
  have hmem := mem_middle before after r
  have hmem' : r' ∈ before ++ r :: after := mem_other hr'
  have hshow := shows_shown (h.shows r hmem)
  have hshow' := shows_shown (h.shows r' hmem')
  exact hkeyed.apart (h.stored r hmem) (h.stored r' hmem') hshow hshow' hid fun hid' =>
    h.number_ne hid hshow hr' hid' hshow'

/-! ## 3. Statements -/

/-- Statements are written if the first one is, and then the others. -/
theorem written_of_run {l : Layout} {db db₁ db' : Database} {kind : StatementKind}
    {kinds : List StatementKind} {answer : Answer} (hrun : l.run kind { row } db = some (answer, db₁))
    (hrest : l.written row kinds db₁ = some db') : l.written row (kind :: kinds) db = some db' :=
  Option.bind_eq_some_iff.mpr ⟨(answer, db₁), hrun, hrest⟩

section Writes

variable {o : Options} (horizon : Option Instant) (outcome : Outcome) {rows before after : List (List Cell)}
  {r : List Cell} {v : Version} {strict : Prop} {ticks : List Instant} {db : Database}
  (hkeyed : o.layout.Keyed t) (hids : o.layout.fields.names .id ≠ []) (hmain : o.layout.InMain)
  (hs : o.layout.Suits t) (hticks : ∀ k ∈ ticks, k < now) (hnow : now.IsStorable)
  (hhorizon : ∀ e ∈ horizon, e.IsStorable) (hfindable : o.layout.Findable t row)

include hkeyed hmain hs

/-- A new version is written, if it goes on with the chains. -/
theorem writes_insert (hfindable : o.layout.Findable t row)
    (hfind : db.find? o.layout.table = some { t with rows }) (hstatus : outcome.status ≠ .purged)
    (hcolumns : ∀ c ∈ o.layout.insertColumns, t.Has c)
    (h' : o.layout.Chained t strict ticks (rows ++
      [o.layout.freshRow t row outcome.version now horizon]))
    (hnull : t.nullColumn? (o.layout.freshRow t row outcome.version now horizon) = none) :
    ∃ db', o.layout.written (Session.stamped o horizon outcome now row) [.insert] db = some db' := by
  have hcheck := h'.check hkeyed (identifies_fresh hs hcolumns hfindable) hnull
  rw [List.append_nil, freshRow, ← sets_insert hs.names hstatus] at hcheck
  obtain ⟨db', hrun⟩ := run_inserts hmain (t := { t with rows }) hcolumns hs.columns hfind hcheck
  exact ⟨db', written_of_run hrun rfl⟩

include hids

/-- A change of the active row is written, if the row goes on with the chains. -/
theorem OneActive.runs (changed : Row) {kind : StatementKind} {st : Statement}
    {entries : List (String × Cell)} (hone : o.layout.OneActive t row now before r after v)
    (h : o.layout.Chained t strict ticks (before ++ r :: after))
    (h' : o.layout.Chained t strict (now :: ticks) (before ++ t.put entries r :: after))
    (hfind : db.find? o.layout.table = some { t with rows := before ++ r :: after })
    (hkind : IsChange kind) (hst : o.layout.statement kind = .ok st)
    (hpicks : o.layout.picks kind { row := changed } t r = true ∧
      ∀ r' ∈ before ++ after, o.layout.picks kind { row := changed } t r' = false)
    (hsets : o.layout.sets kind changed = entries)
    (hentries : ∀ e ∈ entries, e.1 ∈ o.layout.names.validTo :: o.layout.updateColumns)
    (hnull : t.nullColumn? (t.put entries r) = none) :
    ∃ db', o.layout.run kind { row := changed } db = some (.changed 1, db') := by
  have hr := h.stored r (mem_middle _ _ r)
  have hid := (identifies_put (w := row) hs.names hr.row hentries).trans hone.identified
  have hcheck := h'.check hkeyed hid hnull
  rw [← hsets] at hcheck
  have hcolumns : ∀ c ∈ o.layout.insertColumns,
      Table.Has { t with rows := before ++ r :: after } c := hr.columns
  exact run_changes hids hmain hcolumns hs.names hkind hst rfl (h.kept hs) hfind hpicks.1 hpicks.2 hcheck

include hticks hnow hhorizon hfindable

/-- The end of the active version is written. -/
theorem OneActive.runs_end {kind : StatementKind} (hkind : kind = .endActive ∨ kind = .purgeOne)
    (hone : o.layout.OneActive t row now before r after v)
    (h : o.layout.Chained t strict ticks (before ++ r :: after))
    (hfind : db.find? o.layout.table = some { t with rows := before ++ r :: after })
    (hnull : t.nullColumn? r = none) :
    ∃ db', o.layout.run kind { row := Session.stamped o horizon outcome now row } db =
      some (.changed 1, db') := by
  have hchange : IsChange kind := by rcases hkind with rfl | rfl <;> simp [IsChange]
  obtain ⟨st, hst⟩ : ∃ st, o.layout.statement kind = .ok st := by
    rcases hkind with rfl | rfl <;> exact ⟨_, rfl⟩
  have hstep : Step o.layout t row now horizon _ .purged _ _ := .purged hone
  have hended := hstep.chained hs h hticks hnow hhorizon hfindable (by rintro ⟨⟩)
  exact hone.runs hkeyed hids hmain hs _ h hended hfind hchange hst
    (hone.picks_open hs h hticks hnow (hkind.imp_right .inr)) (sets_end hs.names hkind)
    (List.forall_mem_singleton.mpr List.mem_cons_self)
    (Table.nullColumn?_put_of_ne (h.stored r (mem_middle _ _ r)).row.length
      (List.forall_mem_singleton.mpr Cell.noConfusion) hnull)

/-- The active version is seen, or nothing is written. -/
theorem OneActive.writes_seen (hone : o.layout.OneActive t row now before r after v)
    (h : o.layout.Chained t strict ticks (before ++ r :: after))
    (hfind : db.find? o.layout.table = some { t with rows := before ++ r :: after })
    (hnull : t.nullColumn? r = none) :
    ∃ db', o.layout.written (Session.stamped o horizon outcome now row)
      (Storage.statementsOf (Mutation.ofStatus o.names.tracksLastSeen .identical)) db = some db' := by
  cases htracks : o.names.tracksLastSeen with
  | false => exact ⟨db, rfl⟩
  | true =>
    obtain ⟨c, hc⟩ := Option.isSome_iff_exists.mp htracks
    obtain ⟨st, hst⟩ : ∃ st, o.layout.statement .touch = .ok st := by
      have hlast : o.layout.names.lastSeen = some c := hc
      simp only [statement, hlast]
      exact ⟨_, rfl⟩
    have hstep : Step o.layout t row now horizon _ .identical _ _ := .identical hone
    have hseen := hstep.chained hs h hticks hnow hhorizon hfindable (by rintro ⟨⟩)
    obtain ⟨db', hrun⟩ := hone.runs hkeyed hids hmain hs (Session.stamped o horizon outcome now row) h
      hseen hfind (.inr (.inr (.inl rfl))) hst (hone.picks_open hs h hticks hnow (.inr (.inl rfl)))
      (sets_touch hs.names) (o.layout.seenCells_changes now)
      (Table.nullColumn?_put_of_ne (h.stored r (mem_middle _ _ r)).row.length
        (List.forall_mem_map.mpr fun _ _ => Cell.noConfusion) hnull)
    exact ⟨db', written_of_run hrun rfl⟩

/-- **What is decided is written**, if the nulls of a new version or of its changes may be. -/
theorem Decided.writes (h : o.layout.Chained t strict ticks rows)
    (hfind : db.find? o.layout.table = some { t with rows })
    (hnulls : ∀ r ∈ rows, t.nullColumn? r = none)
    (hadded : outcome.status.adds = true → (∀ c ∈ o.layout.insertColumns, t.Has c) ∧
      t.nullColumn? (o.layout.freshRow t row outcome.version now horizon) = none)
    (hrenewed : outcome.status = .update → ∀ r ∈ rows,
      t.nullColumn? (t.put (o.layout.renewedCells row now) r) = none)
    (hdecided : o.layout.Decided t row now rows outcome) :
    ∃ db', o.layout.written (Session.stamped o horizon outcome now row)
      (Storage.statementsOf (Mutation.ofStatus o.names.tracksLastSeen outcome.status)) db =
        some db' := by
  -- What the statements leave is a step, so the chains go on and no version is repeated.
  have hchained : ∀ {status n rows'}, Step o.layout t row now horizon rows status n rows' →
      (status = .new → ∀ c ∈ o.layout.insertColumns, t.Has c) →
      o.layout.Chained t strict (now :: ticks) rows' := fun hstep hcolumns =>
    hstep.chained hs h hticks hnow hhorizon hfindable hcolumns
  cases hdecided with
  | natural hstanding =>
    cases hstanding with
    | @active before after r v natural hone hnatural =>
      have hnull := hnulls r (mem_middle _ _ r)
      rcases hnatural with rfl | rfl | rfl
      · obtain ⟨hcolumns, hfresh⟩ := hadded rfl
        obtain ⟨db₁, hrun⟩ := hone.runs_end horizon ⟨.changed, v.number + 1⟩ hkeyed hids hmain hs
          hticks hnow hhorizon hfindable (.inl rfl) h hfind hnull
        have hended := run_end hs hids hticks hnow h hone hfind (.inl rfl) hrun
        obtain ⟨db', hinsert⟩ := writes_insert horizon ⟨.changed, v.number + 1⟩ hkeyed hmain hs
          hfindable hended.table nofun hcolumns (hchained (.changed hone) nofun) hfresh
        exact ⟨db', written_of_run hrun hinsert⟩
      · obtain ⟨db', hrun⟩ := hone.runs hkeyed hids hmain hs
          (Session.stamped o horizon ⟨.update, v.number⟩ now row) h (hchained (.update hone) nofun) hfind
          (.inl rfl) rfl (hone.picks_update hs h rfl) (sets_update hs.names)
          (o.layout.renewedCells_changes row now) (hrenewed rfl r (mem_middle _ _ r))
        exact ⟨db', written_of_run hrun rfl⟩
      · exact hone.writes_seen _ _ hkeyed hids hmain hs hticks hnow hhorizon hfindable h hfind hnull
    | outdated hr hid hshow hnone hmax =>
      obtain ⟨hcolumns, hfresh⟩ := hadded rfl
      exact writes_insert _ _ hkeyed hmain hs hfindable hfind nofun hcolumns
        (hchained (.outdated hr hid hshow hnone hmax) nofun) hfresh
    | new hnone =>
      obtain ⟨hcolumns, hfresh⟩ := hadded rfl
      exact writes_insert _ _ hkeyed hmain hs hfindable hfind nofun hcolumns
        (hchained (.new hnone) fun _ => hcolumns) hfresh
  | @forced before after r v status hone hstatus =>
    have hnull := hnulls r (mem_middle _ _ r)
    rcases hstatus with rfl | rfl
    · exact hone.writes_seen _ _ hkeyed hids hmain hs hticks hnow hhorizon hfindable h hfind hnull
    · obtain ⟨db', hrun⟩ := hone.runs_end horizon ⟨.purged, v.number⟩ hkeyed hids hmain hs hticks hnow
        hhorizon hfindable (.inr rfl) h hfind hnull
      exact ⟨db', written_of_run hrun rfl⟩
  | skipped _ => exact ⟨db, rfl⟩

end Writes

end Layout

end RowHistory
