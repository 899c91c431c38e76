import RowHistory.Proofs.Versions.Stored

/-!
# Statements with stamped rows

The statements get their values from a row that was stamped with its version and its instants. This
file fixes, for stored rows that show their versions,

* the values of a stamped row (`value_stamped`), and so the cells that a statement sets
  (`sets_insert`, `sets_update`, `sets_touch`, `sets_end`);
* the rows that it picks: those of the identifier (`picks_latest`) that are active (`picks_active`),
  have not ended (`picks_open`) or have a number (`picks_update`);
* that a purge without a further condition picks only rows that have not ended (`purgePicks_open`).
-/

namespace RowHistory

open Sql

namespace Layout

variable {l : Layout} {t : Table} {r : List Cell} {row : Row} {v : Version} {now : Instant}

/-! ## 1. Stamped rows -/

/-- The bookkeeping columns have different names. -/
theorem Distinct.bookkeeping (hl : l.Distinct) : l.names.all.Nodup :=
  (List.Nodup.of_map _ hl).sublist (List.sublist_append_right _ _)

/-- No field has the name of a bookkeeping column. -/
theorem Distinct.field (hl : l.Distinct) {n : String} {k : FieldKind} (hk : k ≠ .ignore)
    (hn : n ∈ l.fields.names k) : n ∉ l.names.all := by
  have hdisjoint := (List.nodup_append.mp (List.Nodup.of_map _ hl)).2.2
  intro hall
  refine hdisjoint n ?_ n hall rfl
  cases k with
  | ignore => exact absurd rfl hk
  | _ => simp [hn]

end Layout

namespace Session

variable {o : Options}

/-- A stamped row keeps its fields. -/
theorem value_stamped_field {horizon : Option Instant} {outcome : Outcome} {now : Instant} {row : Row}
    {n : String} (hn : n ∉ o.names.all) :
    (stamped o horizon outcome now row).value n = row.value n := by
  have hstamp : (stamp o.names outcome.version now horizon row).value n = row.value n := by
    unfold stamp
    cases hseen : o.names.lastSeen <;>
      simp_all [Bookkeeping.all, Row.value_set]
  unfold stamped
  simp only [Bookkeeping.all, List.mem_append, List.mem_cons, not_or] at hn
  split
  · rw [Row.value_set, if_neg hn.1.2.1, hstamp]
  · exact hstamp

/-- **The bookkeeping of a stamped row**: its number, its start and when it was seen, and its end
unless it is purged. -/
theorem value_stamped (hnames : o.names.all.Nodup) (horizon : Option Instant) (outcome : Outcome)
    (now : Instant) (row : Row) :
    (stamped o horizon outcome now row).value o.names.version = .int64 outcome.version ∧
    (stamped o horizon outcome now row).value o.names.validFrom = .timestamp now ∧
    (∀ n ∈ o.names.lastSeen, (stamped o horizon outcome now row).value n = .timestamp now) ∧
    (outcome.status ≠ .purged →
      (stamped o horizon outcome now row).value o.names.validTo = Value.ofInstant? horizon) := by
  unfold stamped stamp
  cases hseen : o.names.lastSeen with
  | none =>
    simp only [Bookkeeping.all, hseen, Option.toList_none, List.append_nil, List.nodup_cons,
      List.mem_cons, List.not_mem_nil, or_false, not_or] at hnames
    by_cases hp : outcome.status = .purged <;> simp [hp, Row.value_set] <;> grind
  | some seen =>
    simp only [Bookkeeping.all, hseen, Option.toList_some, List.cons_append, List.nil_append,
      List.nodup_cons, List.mem_cons, List.not_mem_nil, or_false, not_or] at hnames
    by_cases hp : outcome.status = .purged <;> simp [hp, Row.value_set] <;> grind

end Session

namespace Layout

/-! ## 2. What is set -/

section Sets

variable {o : Options} {horizon : Option Instant} {outcome : Outcome} {now : Instant} {row : Row}

/-- These statements set columns to the fields of the row of the same names. -/
theorem sets_fields {l : Layout} {kind : StatementKind}
    (h : kind = .insert ∨ kind = .update ∨ kind = .touch) (row : Row) :
    l.sets kind row = fieldCells row (l.setColumns kind) := by
  have hparameters : l.setParameters kind = (l.setColumns kind).map .field := by
    rcases h with rfl | rfl | rfl <;> rfl
  unfold sets fieldCells
  rw [hparameters, List.map_map, List.map_prod_left_eq_zip]
  rfl

theorem fieldCells_append (row : Row) (xs ys : List String) :
    fieldCells row (xs ++ ys) = fieldCells row xs ++ fieldCells row ys :=
  List.map_append

theorem fieldCells_cons (row : Row) (n : String) (xs : List String) :
    fieldCells row (n :: xs) = (n, Cell.ofValue (row.value n)) :: fieldCells row xs :=
  rfl

variable (hl : o.layout.Distinct)

include hl

theorem fieldCells_stamped {k : FieldKind} (hk : k ≠ .ignore) :
    fieldCells (Session.stamped o horizon outcome now row) (o.layout.fields.names k) =
      fieldCells row (o.layout.fields.names k) := by
  refine List.map_congr_left fun n hn => ?_
  rw [Session.value_stamped_field (hl.field hk hn)]

theorem fieldCells_seen :
    fieldCells (Session.stamped o horizon outcome now row) o.layout.names.lastSeen.toList =
      o.layout.seenCells now := by
  refine List.map_congr_left fun n hn => ?_
  rw [(Session.value_stamped hl.bookkeeping horizon outcome now row).2.2.1 n (Option.mem_toList.mp hn)]
  rfl

/-- An insertion sets the cells of a new version. -/
theorem sets_insert (hstatus : outcome.status ≠ .purged) :
    o.layout.sets .insert (Session.stamped o horizon outcome now row) =
      o.layout.versionCells row outcome.version now horizon := by
  obtain ⟨hversion, hfrom, -, hto⟩ := Session.value_stamped hl.bookkeeping horizon outcome now row
  have hversion : (Session.stamped o horizon outcome now row).value o.layout.names.version = _ := hversion
  have hfrom : (Session.stamped o horizon outcome now row).value o.layout.names.validFrom = _ := hfrom
  have hto : (Session.stamped o horizon outcome now row).value o.layout.names.validTo = _ := hto hstatus
  rw [sets_fields (.inl rfl), setColumns, insertColumns]
  simp only [fieldCells_append, fieldCells_cons, fieldCells_seen hl, hversion, hfrom, hto]
  rw [fieldCells_stamped (k := .id) hl (by decide), fieldCells_stamped (k := .update) hl (by decide),
    fieldCells_stamped (k := .compare) hl (by decide), fieldCells_stamped (k := .lazy) hl (by decide)]
  rfl

/-- A change in place sets the fields that may change, and the start. -/
theorem sets_update : o.layout.sets .update (Session.stamped o horizon outcome now row) =
    o.layout.renewedCells row now := by
  have hfrom : (Session.stamped o horizon outcome now row).value o.layout.names.validFrom = _ :=
    (Session.value_stamped hl.bookkeeping horizon outcome now row).2.1
  rw [sets_fields (.inr (.inl rfl)), setColumns, updateColumns]
  simp only [fieldCells_append, fieldCells_cons, fieldCells_seen hl, hfrom]
  rw [fieldCells_stamped (k := .update) hl (by decide), fieldCells_stamped (k := .lazy) hl (by decide)]
  rfl

theorem sets_touch : o.layout.sets .touch (Session.stamped o horizon outcome now row) =
    o.layout.seenCells now := by
  rw [sets_fields (.inr (.inr rfl))]
  exact fieldCells_seen hl

/-- An end is the start of the row that ends it. -/
theorem sets_end {kind : StatementKind} (h : kind = .endActive ∨ kind = .purgeOne) :
    o.layout.sets kind (Session.stamped o horizon outcome now row) =
      [(o.names.validTo, .text now.storageText)] := by
  have hcell : o.layout.sets kind (Session.stamped o horizon outcome now row) = [(o.names.validTo,
      Cell.ofValue ((Session.stamped o horizon outcome now row).value o.names.validFrom))] := by
    rcases h with rfl | rfl <;> rfl
  rw [hcell, (Session.value_stamped hl.bookkeeping horizon outcome now row).2.1]
  rfl

end Sets

/-! ## 3. What is picked -/

section Picks

variable {l : Layout} {t : Table} {r : List Cell} {row : Row} {v : Version} {now : Instant}

/-- A statement picks rows of the identifier, under its further conditions. -/
theorem picks_eq (l : Layout) (kind : StatementKind) (b : Binding) (t : Table) (r : List Cell) :
    l.picks kind b t r = (l.identifies t b.row r &&
      ((l.further kind).zip ((l.furtherParameters kind).map (cellOf b))).all fun p =>
        p.1.holds t r p.2) := by
  unfold picks conditions conditionParameters idParameters idAtoms identifies
  rw [List.map_append, List.zip_append (by simp), List.all_append, List.map_map, List.zip_map',
    List.all_map]
  rfl

theorem picks_latest (l : Layout) (b : Binding) (t : Table) (r : List Cell) :
    l.picks .latest b t r = l.identifies t b.row r := by
  rw [picks_eq]
  exact Bool.and_true _

/-- The identifier of a stamped row is the one that it had. -/
theorem identifies_stamped {o : Options} {horizon : Option Instant} {outcome : Outcome}
    (hl : o.layout.Distinct) :
    o.layout.identifies t (Session.stamped o horizon outcome now row) r =
      o.layout.identifies t row r := by
  unfold identifies
  rw [Bool.eq_iff_iff, List.all_eq_true, List.all_eq_true]
  refine forall₂_congr fun n hn => ?_
  rw [Session.value_stamped_field (hl.field (k := .id) nofun hn)]

theorem holds_started {start : Instant} (hfrom : t.cell r l.names.validFrom = .text start.storageText)
    (hstart : start.IsStorable) (hnow : now.IsStorable) :
    (Atom.compare l.names.validFrom .le).holds t r (.text now.storageText) = true ↔ start ≤ now := by
  rw [Atom.holds_compare, hfrom,
    Affinity.compareCells_instants (Affinity.keepsInstants _) hstart hnow]
  simp only [Relation.holds, Option.some.injEq, decide_eq_true_eq, ne_eq]
  rw [compare_gt_iff_gt, not_lt]

theorem holds_open {bound : Option Instant} (hto : t.cell r l.names.validTo = endCell bound)
    (hbound : ∀ e ∈ bound, e.IsStorable) (hnow : now.IsStorable) :
    (Atom.notBefore l.names.validTo).holds t r (.text now.storageText) = true ↔
      ∀ e ∈ bound, now ≤ e := by
  rw [Atom.holds_notBefore, hto]
  cases bound with
  | none => exact ⟨fun _ e he => (nomatch he), fun _ => .inr rfl⟩
  | some e =>
    have hcompare := Affinity.compareCells_instants
      (Affinity.keepsInstants (t.affinityOf l.names.validTo)) (hbound e rfl) hnow .ge
    have hcell : endCell (some e) = .text e.storageText := rfl
    rw [hcell, hcompare]
    simp only [Relation.holds, Option.some.injEq, decide_eq_true_eq, ne_eq, Option.mem_def,
      forall_eq', reduceCtorEq, or_false]
    rw [compare_lt_iff_lt, not_lt]

/-- **A lookup finds the rows of the identifier whose validity holds the instant**, if its ends are instants. -/
theorem picks_active_of_ends {start : Instant} {bound : Option Instant}
    (hfrom : t.cell r l.names.validFrom = .text start.storageText)
    (hto : t.cell r l.names.validTo = endCell bound) (hstart : start.IsStorable)
    (hbound : ∀ e ∈ bound, e.IsStorable) (hnow : now.IsStorable) :
    l.picks .active { row, instant := some now } t r = true ↔
      l.identifies t row r = true ∧ start ≤ now ∧ ∀ e ∈ bound, now ≤ e := by
  have hatoms : (((l.further .active).zip ((l.furtherParameters .active).map
      (cellOf { row, instant := some now }))).all fun p => p.1.holds t r p.2) =
        ((Atom.compare l.names.validFrom .le).holds t r (.text now.storageText) &&
          ((Atom.notBefore l.names.validTo).holds t r (.text now.storageText) && true)) := rfl
  rw [picks_eq, hatoms, Bool.and_true, Bool.and_eq_true, Bool.and_eq_true,
    holds_started hfrom hstart hnow, holds_open hto hbound hnow]

variable (hshow : l.Shows t r v)

include hshow

theorem holds_number (hs : l.Suits t) (n : Int) :
    (Atom.compare l.names.version .eq).holds t r (.integer n) = true ↔ v.number = n := by
  rw [Atom.holds_compare, hshow.number]
  exact Affinity.compareCells_integers hs.version _ _

/-- **A lookup finds the rows of the identifier that are active.** -/
theorem picks_active (hnow : now.IsStorable) :
    l.picks .active { row, instant := some now } t r = true ↔
      l.identifies t row r = true ∧ v.ActiveAt now :=
  picks_active_of_ends hshow.validFrom hshow.validTo hshow.storable.1 hshow.storable.2 hnow

omit hshow in
/-- The value of the further condition of these statements is the start of the row. -/
theorem further_open {kind : StatementKind} (h : kind = .endActive ∨ kind = .touch ∨ kind = .purgeOne)
    (row : Row) : (((l.further kind).zip ((l.furtherParameters kind).map (cellOf { row }))).all
      fun p => p.1.holds t r p.2) = (Atom.notBefore l.names.validTo).holds t r
        (Cell.ofValue (row.value l.names.validFrom)) := by
  rcases h with rfl | rfl | rfl <;> exact Bool.and_true _

end Picks

section Stamped

variable {o : Options} {t : Table} {r : List Cell} {row : Row} {v : Version} {now : Instant}
  {horizon : Option Instant} {outcome : Outcome} (hs : o.layout.Suits t)
  (hshow : o.layout.Shows t r v)

include hs hshow

/-- **An end and a touch change the rows of the identifier that have not ended.** -/
theorem picks_open (hnow : now.IsStorable) {kind : StatementKind}
    (h : kind = .endActive ∨ kind = .touch ∨ kind = .purgeOne) :
    o.layout.picks kind { row := Session.stamped o horizon outcome now row } t r = true ↔
      o.layout.identifies t row r = true ∧ ∀ e ∈ v.validTo, now ≤ e := by
  have hfrom : (Session.stamped o horizon outcome now row).value o.layout.names.validFrom =
      .timestamp now := (Session.value_stamped hs.names.bookkeeping horizon outcome now row).2.1
  rw [picks_eq, further_open h, Bool.and_eq_true, identifies_stamped hs.names, hfrom]
  exact and_congr_right fun _ => holds_open hshow.validTo hshow.storable.2 hnow

/-- **A change in place changes the row of the identifier that has the number.** -/
theorem picks_update :
    o.layout.picks .update { row := Session.stamped o horizon outcome now row } t r = true ↔
      o.layout.identifies t row r = true ∧ v.number = outcome.version := by
  have hversion : (Session.stamped o horizon outcome now row).value o.layout.names.version =
      .int64 outcome.version := (Session.value_stamped hs.names.bookkeeping horizon outcome now row).1
  have hatoms : (((o.layout.further .update).zip ((o.layout.furtherParameters .update).map
      (cellOf { row := Session.stamped o horizon outcome now row }))).all fun p => p.1.holds t r p.2) =
        ((Atom.compare o.layout.names.version .eq).holds t r (Cell.ofValue
          ((Session.stamped o horizon outcome now row).value o.layout.names.version)) && true) := rfl
  rw [picks_eq, hatoms, Bool.and_true, Bool.and_eq_true, identifies_stamped hs.names, hversion]
  exact and_congr_right fun _ => holds_number hshow hs outcome.version

end Stamped

/-! ## 4. Purges -/

/-- **A purge without a further condition picks the rows that have not ended and were seen before its
cutoff.** -/
theorem fits_purge {l : Layout} {t : Table} {r : List Cell} {cutoff now : Instant}
    {lastSeen : String} (hseen : l.names.lastSeen = some lastSeen) (hr : l.Stored t r)
    {st : Statement} {reading : Command.Reading} {p : Path} {sets : List (Name × Expr Name)}
    {e : Expr Name} {e' : Expr Nat} (hst : l.purge none = .ok st)
    (hread : Command.read st.sql = .ok reading)
    (hcommand : reading.command = .update p sets (some e)) (hresolve : e.resolve t = .ok e') :
    t.fits (purgeCells cutoff now) (some e') r = true ↔
      (Atom.notBefore l.names.validTo).holds t r (.text now.storageText) = true ∧
      (Atom.compare lastSeen .lt).holds t r (.text cutoff.storageText) = true := by
  obtain ⟨p', sets', d, hread', -, -, hd⟩ := read_purge hseen hst
  rw [hread'] at hread
  cases hread
  cases hcommand
  have hcolumns : ∀ b ∈ l.purgeAtoms lastSeen, t.Has b.column := by
    intro b hb
    refine hr.columns _ ?_
    simp only [purgeAtoms, List.mem_cons, List.not_mem_nil, or_false] at hb
    obtain rfl | rfl := hb
    · exact l.validTo_insert
    · exact updateColumns_insert (lastSeen_update (by rw [hseen]; exact List.mem_cons_self))
  have hlength : 1 + (l.purgeAtoms lastSeen).length ≤ (purgeCells cutoff now).length := Nat.le_refl 3
  rw [Table.fits_iff (Option.some.inj hd) hresolve hcolumns hlength]
  refine ⟨fun h => ⟨h _ List.mem_cons_self, h _ (List.mem_cons_of_mem _ List.mem_cons_self)⟩, ?_⟩
  rintro ⟨hopen, hbefore⟩ q hq
  obtain rfl | hq := List.mem_cons.mp hq
  · exact hopen
  · obtain rfl := List.mem_singleton.mp hq
    exact hbefore

/-- A purge without a further condition picks only rows that have not ended. -/
theorem purgePicks_open {l : Layout} {t : Table} {r : List Cell} {v : Version}
    {cutoff now : Instant} (hr : l.Stored t r) (hshow : l.Shows t r v)
    (hnow : now.IsStorable) (h : l.PurgePicks t (purgeCells cutoff now) r) :
    ∀ e ∈ v.validTo, now ≤ e := by
  obtain ⟨st, reading, p, sets, e, e', hst, hread, hcommand, hresolve, hfits⟩ := h
  cases hseen : l.names.lastSeen with
  | none =>
    rw [purge, hseen] at hst
    cases hst
  | some lastSeen =>
    have hholds := (fits_purge hseen hr hst hread hcommand hresolve).mp hfits
    exact (holds_open hshow.validTo hshow.storable.2 hnow).mp hholds.1

end Layout

end RowHistory
