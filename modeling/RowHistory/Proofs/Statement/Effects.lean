import RowHistory.Proofs.Connection.Judge
import RowHistory.Proofs.Storage.Steps

/-!
# What statements do to their table

The statements of a layout by what they do, with the values of a row: which rows they pick and
which cells they set. This file fixes

* the values that a statement gets, in order (`parameters_statement`);
* which rows it picks (`Layout.picks`), and what it sets (`Layout.sets`);
* that a success of a change, an insertion, a selection or a purge does exactly that to the table of
  the layout (`run_change`, `run_insert`, `run_select`, `swept_eq`);
* the further conditions that only narrow a purge (`Layout.Narrows`), as one more conjunct does
  (`narrows_of_isConjunct`).
-/

namespace RowHistory

open Sql

/-! ## 1. Values -/

namespace Layout

variable {l : Layout} {kind : StatementKind} {st : Statement}

/-- The values of the columns that a statement sets. -/
def setParameters (l : Layout) : StatementKind → List Parameter
  | .latest => []
  | .active => []
  | .insert => l.insertColumns.map .field
  | .update => l.updateColumns.map .field
  | .endActive => [.field l.names.validFrom]
  | .touch => l.names.lastSeen.toList.map .field
  | .purgeOne => [.field l.names.validFrom]

/-- The values of its conditions behind those on the identifier. -/
def furtherParameters (l : Layout) : StatementKind → List Parameter
  | .latest => []
  | .active => [.instant, .instant]
  | .insert => []
  | .update => [.field l.names.version]
  | .endActive => [.field l.names.validFrom]
  | .touch => [.field l.names.validFrom]
  | .purgeOne => [.field l.names.validFrom]

/-- The values of its conditions. -/
def conditionParameters (l : Layout) (kind : StatementKind) : List Parameter :=
  l.idParameters ++ l.furtherParameters kind

/-- **The values of a statement**: first those that it sets, then those of its conditions. -/
theorem parameters_statement (hkind : kind ≠ .insert) (hst : l.statement kind = .ok st) :
    st.parameters = l.setParameters kind ++ l.conditionParameters kind := by
  cases kind with
  | insert => exact absurd rfl hkind
  | latest =>
    cases hst
    rw [statementOf_eq l.run_latestLines]
    exact (List.append_nil _).symm
  | active =>
    cases hst
    rw [statementOf_eq l.run_activeLines]
    exact List.append_assoc _ _ _
  | update =>
    cases hst
    rw [statementOf_eq l.run_updateLines]
    exact List.append_assoc _ _ _
  | touch =>
    cases hseen : l.names.lastSeen with
    | none => simp [statement, hseen] at hst
    | some lastSeen =>
      simp only [statement, hseen] at hst
      cases hst
      rw [statementOf_eq (l.run_touchLines lastSeen), setParameters, hseen]
      exact List.append_assoc _ _ _
  | endActive | purgeOne =>
    cases hst
    rw [statementOf_eq l.run_endLines]
    exact List.append_assoc _ _ _

theorem parameters_insert (hst : l.statement .insert = .ok st) :
    st.parameters = l.insertColumns.map .field := by
  cases hst
  rfl

/-- The cell of a value. -/
def cellOf (b : Binding) (p : Parameter) : Cell :=
  Cell.ofValue (p.value b)

theorem cellsOf_bind (st : Statement) (b : Binding) :
    cellsOf (st.bind b) = st.parameters.map (cellOf b) := by
  unfold cellsOf Statement.bind
  rw [List.map_map]
  rfl

/-! ## 2. What is picked and set -/

/-- A statement picks a row: all its conditions hold of it. -/
def picks (l : Layout) (kind : StatementKind) (b : Binding) (t : Table) (r : List Cell) : Bool :=
  ((l.conditions kind).zip ((l.conditionParameters kind).map (cellOf b))).all fun p =>
    p.1.holds t r p.2

/-- What a statement sets, by name. -/
def sets (l : Layout) (kind : StatementKind) (row : Row) : List (String × Cell) :=
  (l.setColumns kind).zip ((l.setParameters kind).map (cellOf { row }))

theorem length_setParameters (l : Layout) (kind : StatementKind) :
    (l.setParameters kind).length = (l.setColumns kind).length := by
  cases kind <;> simp [setParameters, setColumns]

theorem length_conditionParameters (l : Layout) (kind : StatementKind) :
    (l.conditionParameters kind).length = (l.conditions kind).length := by
  cases kind <;> simp [conditionParameters, idParameters, furtherParameters, conditions, further, idAtoms]

/-- The names of the columns are different, in upper or lower case. -/
def Distinct (l : Layout) : Prop :=
  (l.insertColumns.map String.toLower).Nodup

theorem setColumns_sublist (l : Layout) (kind : StatementKind) :
    (l.setColumns kind).Sublist l.insertColumns := by
  unfold insertColumns
  have hlast : (l.names.validFrom :: l.names.lastSeen.toList).Sublist
      (l.names.validFrom :: l.names.validTo :: l.names.version :: l.names.lastSeen.toList) :=
    .cons_cons _ (.cons _ (.cons _ (.refl _)))
  have htail : ∀ {xs : List String}, xs.Sublist
      (l.names.validFrom :: l.names.validTo :: l.names.version :: l.names.lastSeen.toList) →
      xs.Sublist (l.fields.names .id ++ l.fields.names .update ++ l.fields.names .compare ++
        l.fields.names .lazy ++
        l.names.validFrom :: l.names.validTo :: l.names.version :: l.names.lastSeen.toList) :=
    fun h => h.trans (List.sublist_append_right _ _)
  cases kind with
  | latest => exact List.nil_sublist _
  | active => exact List.nil_sublist _
  | insert => exact .refl _
  | update =>
    refine (List.Sublist.append ?_ hlast)
    refine List.Sublist.append ?_ (.refl _)
    exact (List.sublist_append_right _ _).trans (List.sublist_append_left _ _)
  | endActive => exact htail (.cons _ (.cons_cons _ (List.nil_sublist _)))
  | purgeOne => exact htail (.cons _ (.cons_cons _ (List.nil_sublist _)))
  | touch => exact htail (.cons _ (.cons _ (.cons _ (.refl _))))

theorem map_fst_sets (l : Layout) (kind : StatementKind) (row : Row) :
    (l.sets kind row).map Prod.fst = l.setColumns kind := by
  refine List.map_fst_zip ?_
  rw [List.length_map, length_setParameters]

theorem nodup_sets (hl : l.Distinct) (kind : StatementKind) (row : Row) :
    ((l.sets kind row).map fun e => e.1.toLower).Nodup := by
  have hnames : (l.sets kind row).map (fun e => e.1.toLower) =
      (l.setColumns kind).map String.toLower := by
    rw [← map_fst_sets l kind row, List.map_map]
    rfl
  rw [hnames]
  exact hl.sublist ((l.setColumns_sublist kind).map _)

theorem column_of_conditions {a : Atom} (h : a ∈ l.conditions kind) : a.column ∈ l.insertColumns := by
  unfold insertColumns
  obtain hid | hfurther := List.mem_append.mp h
  · obtain ⟨c, hc, rfl⟩ := List.mem_map.mp hid
    simp only [Atom.column, List.append_assoc]
    exact List.mem_append_left _ hc
  · refine List.mem_append_right _ ?_
    cases kind with
    | latest => cases hfurther
    | insert => cases hfurther
    | active =>
      obtain rfl | ha := List.mem_cons.mp hfurther
      · exact List.mem_cons_self
      · cases List.mem_singleton.mp ha
        exact List.mem_cons_of_mem _ List.mem_cons_self
    | _ =>
      cases List.mem_singleton.mp hfurther
      simp [Atom.column]

/-! ## 3. Changes -/

theorem eval_numbered {t : Table} {supplied r : List Cell} {columns : List String} {n : Nat}
    (hlen : n + columns.length ≤ supplied.length) :
    (Reader.numbered (fun c k => (t.place c, (.parameter k : Expr Nat))) 1 n columns).map
        (fun a => (a.1, a.2.eval t.columns supplied r)) =
      (columns.zip (supplied.drop n)).map fun e => (t.place e.1, e.2) := by
  induction columns generalizing n with
  | nil => rfl
  | cons c columns ih =>
    rw [List.length_cons] at hlen
    have hdrop : supplied.drop n = _ := Atom.drop_eq_getD_cons (by omega)
    rw [Reader.numbered, List.map_cons, ih (by omega), hdrop, List.zip_cons_cons, List.map_cons]
    rfl

/-- What holds of the table of a layout at all times: its columns differ, its rows are as it keeps
them, and once it has rows, it has all columns. -/
structure Kept (l : Layout) (t : Table) : Prop where
  distinct : t.Distinct
  rows : ∀ r ∈ t.rows, t.IsRow r
  columns : t.rows ≠ [] → ∀ c ∈ l.insertColumns, t.Has c

variable {row : Row} {db db' : Database} {answer : Answer}

theorem zip_append_of_length {α β : Type} {xs : List α} {ys zs : List β} (h : xs.length = ys.length) :
    xs.zip (ys ++ zs) = xs.zip ys := by
  conv_lhs => rw [← List.append_nil xs]
  rw [List.zip_append h, List.zip_nil_left, List.append_nil]

/-- A row fits the conditions of a statement if it is picked. -/
theorem fits_eq_picks {t : Table} {r supplied : List Cell} {e : Expr Name} {e' : Expr Nat}
    {b : Binding} {n : Nat} (he : some e.plain = conjunctionFrom n (l.conditions kind))
    (hresolve : e.resolve t = .ok e')
    (hsupplied : supplied.drop n = (l.conditionParameters kind).map (cellOf b))
    (hhas : ∀ c ∈ l.insertColumns, t.Has c) :
    t.fits supplied (some e') r = l.picks kind b t r := by
  have hlength := congrArg List.length hsupplied
  rw [List.length_drop, List.length_map, length_conditionParameters] at hlength
  have hcolumns : ∀ a ∈ l.conditions kind, t.Has a.column :=
    fun a ha => hhas _ (column_of_conditions ha)
  unfold picks
  rw [Bool.eq_iff_iff, List.all_eq_true, ← hsupplied]
  cases hconditions : l.conditions kind with
  | nil =>
    rw [hconditions] at he
    cases he
  | cons a as =>
    rw [hconditions] at he hlength hcolumns
    exact Table.fits_iff (Option.some.inj he) hresolve hcolumns (by rw [List.length_cons] at *; omega)

/-- The values of a change: first those that it sets, then those of its conditions. -/
theorem cells_change (hkind : IsChange kind) (hst : l.statement kind = .ok st) :
    cellsOf (st.bind { row }) = (l.setParameters kind).map (cellOf { row }) ++
      (l.conditionParameters kind).map (cellOf { row }) := by
  have hne : kind ≠ .insert := by rcases hkind with rfl | rfl | rfl | rfl <;> exact nofun
  rw [cellsOf_bind, parameters_statement hne hst, List.map_append]

theorem drop_cells_change (hkind : IsChange kind) (hst : l.statement kind = .ok st) :
    (cellsOf (st.bind { row })).drop (l.setColumns kind).length =
      (l.conditionParameters kind).map (cellOf { row }) := by
  rw [cells_change hkind hst]
  exact List.drop_left' (by rw [List.length_map, length_setParameters])

/-- A row that is changed gets the cells that are set. -/
theorem changedRow_sets {t : Table} {r : List Cell} (hl : l.Distinct) (hkind : IsChange kind)
    (hst : l.statement kind = .ok st) (hd : t.Distinct) (hhas : ∀ c ∈ l.setColumns kind, t.Has c)
    (hr : t.IsRow r) : t.changedRow (cellsOf (st.bind { row }))
      (Reader.numbered (fun c k => (t.place c, .parameter k)) 1 0 (l.setColumns kind)) r =
        t.put (l.sets kind row) r := by
  have hlength : ((l.setParameters kind).map (cellOf { row })).length = (l.setColumns kind).length := by
    rw [List.length_map, length_setParameters]
  refine Table.changedRow_eq hd ?_ (nodup_sets hl kind row)
    (fun e he => hhas e.1 (List.of_mem_zip he).1) hr
  rw [cells_change hkind hst, eval_numbered (by rw [List.length_append, hlength]; omega),
    List.drop_zero, zip_append_of_length hlength.symm]
  rfl

/-- **A change sets its cells in the rows that it picks.** -/
theorem run_change (hids : l.fields.names .id ≠ []) (hl : l.Distinct) (hkind : IsChange kind)
    (h : l.run kind { row } db = some (answer, db')) :
    ∃ t, db.find? l.table = some t ∧ (l.Kept t → db' = db.replace { t with
      rows := t.rows.map fun r => if l.picks kind { row } t r then t.put (l.sets kind row) r else r }) := by
  obtain ⟨st, hst, hperf⟩ := run_some h
  obtain ⟨p, sets, e, hread, hp, hsets, he⟩ := read_change hids hkind hst
  obtain ⟨plan, hplan, -, hrun⟩ := Database.perform_ok hread hperf
  obtain ⟨t, sets', e', t', count, -, hfind, hplaces, hresolve, hupdate, hdb, -⟩ :=
    Database.update_ok hplan hrun
  rw [hp.2] at hfind
  refine ⟨t, hfind, fun hkept => ?_⟩
  obtain ⟨hhas, rfl⟩ := assignmentPlaces_ok hplaces hsets
  rw [hdb, Table.update_eq hupdate]
  congr 2
  refine List.map_congr_left fun r hr => ?_
  have hcolumns := hkept.columns (List.ne_nil_of_mem hr)
  have hfits : t.fits (cellsOf (st.bind { row })) (some e') r = l.picks kind { row } t r :=
    fits_eq_picks he hresolve (drop_cells_change hkind hst) hcolumns
  rw [hfits, changedRow_sets hl hkind hst hkept.distinct hhas (hkept.rows r hr)]

/-! ## 4. Insertions -/

/-- The columns of an insertion by places, and they are there. -/
theorem insertPlaces_ok {t : Table} {p : Path} {names : List Name} {places : List Nat}
    (h : insertPlaces t p names = .ok places) :
    (∀ c ∈ names.map Name.text, t.Has c) ∧ places = (names.map Name.text).map t.place := by
  induction names generalizing places with
  | nil =>
    cases h
    exact ⟨List.forall_mem_nil _, rfl⟩
  | cons name names ih =>
    unfold insertPlaces at h
    cases hindex : t.index? name.text with
    | none =>
      simp only [hindex] at h
      cases h
    | some i =>
      simp only [hindex] at h
      obtain ⟨rest, hrest, rfl⟩ := ok_of_map h
      obtain ⟨hhas, hplace⟩ := Table.has_of_index? hindex
      obtain ⟨hhas', rfl⟩ := ih hrest
      exact ⟨List.forall_mem_cons.mpr ⟨hhas, hhas'⟩, by rw [List.map_cons, List.map_cons, hplace]⟩

theorem mapM_parameters (t : Table) (ks : List Nat) :
    (ks.map Expr.parameter : List (Expr Name)).mapM (fun e => e.resolve t) =
      .ok (ks.map Expr.parameter) := by
  induction ks with
  | nil => rfl
  | cons k ks ih =>
    rw [List.map_cons, List.mapM_cons, ih]
    rfl

theorem eval_suppliedFrom (supplied : List Cell) :
    (Reader.suppliedFrom 0 supplied.length).map (Expr.eval [] supplied []) = supplied := by
  refine List.ext_getElem (by simp [Reader.suppliedFrom]) fun i hi hi' => ?_
  simp [Reader.suppliedFrom, Expr.eval, hi']

/-- **An insertion adds a row with the values of its columns.** -/
theorem run_insert (h : l.run .insert { row } db = some (answer, db')) :
    ∃ t, db.find? l.table = some t ∧ (∀ c ∈ l.insertColumns, t.Has c) ∧ (t.Distinct →
      db' = db.replace { t with rows := t.rows ++ [t.put (l.sets .insert row) t.blank] }) := by
  obtain ⟨st, hst, hperf⟩ := run_some h
  obtain ⟨p, names, hread, hp, hnames⟩ := read_insertion hst
  obtain ⟨plan, hplan, hlen, hrun⟩ := Database.perform_ok hread hperf
  obtain ⟨t, places, es, t', -, hfind, hplaces, hvalues, hinsert, hdb⟩ :=
    Database.insert_ok hplan hrun
  rw [hp.2] at hfind
  obtain ⟨hhas, rfl⟩ := insertPlaces_ok hplaces
  rw [hnames] at hhas hinsert
  refine ⟨t, hfind, hhas, fun hd => ?_⟩
  have hvalues' : es = Reader.suppliedFrom 0 l.insertColumns.length :=
    (Except.ok.inj ((mapM_parameters t _).symm.trans hvalues)).symm
  have hlen' : l.insertColumns.length = (cellsOf (st.bind { row })).length := hlen.symm
  rw [hdb, Table.insert_eq hinsert, hvalues', hlen', eval_suppliedFrom, Table.stored_newRow hd hhas,
    cellsOf_bind, parameters_insert hst]
  rfl

/-! ## 5. Selections -/

/-- **The greatest of rows by a term**, which is no floating-point number in any of them: it is below none. -/
theorem foldl_greater {t : Table} {supplied : List Cell} {order : Expr Nat} {rows : List (List Cell)}
    {a : List Cell} (h : ∀ r ∈ a :: rows, ∀ x, order.eval t.columns supplied r ≠ .real x) :
    rows.foldl (t.greater supplied order) a ∈ a :: rows ∧ ∀ r ∈ a :: rows,
      (order.eval t.columns supplied (rows.foldl (t.greater supplied order) a)).order
        (order.eval t.columns supplied r) ≠ .lt := by
  induction rows generalizing a with
  | nil =>
    refine ⟨List.mem_cons_self, fun r hr => ?_⟩
    have hswap := Cell.order_swap (h a List.mem_cons_self) (h a List.mem_cons_self)
    rw [List.mem_singleton.mp hr]
    intro hlt
    rw [List.foldl_nil] at hlt
    rw [hlt] at hswap
    cases hswap
  | cons b rows ih =>
    obtain ⟨ha, hb, hrows⟩ : _ ∧ _ ∧ _ := by simpa only [List.forall_mem_cons] using h
    rw [List.foldl_cons, Table.greater]
    split
    · rename_i hlt
      obtain ⟨hmem, hmax⟩ := ih (List.forall_mem_cons.mpr ⟨hb, hrows⟩)
      refine ⟨List.mem_cons_of_mem _ hmem, List.forall_mem_cons.mpr ⟨?_, hmax⟩⟩
      refine Cell.order_ge_trans (h _ (List.mem_cons_of_mem _ hmem)) hb ha (hmax b List.mem_cons_self) ?_
      rw [Cell.order_swap ha hb, hlt]
      exact nofun
    · rename_i hge
      obtain ⟨hmem, hmax⟩ := ih (List.forall_mem_cons.mpr ⟨ha, hrows⟩)
      have hmem' := List.Sublist.mem hmem (List.Sublist.cons_cons a (List.sublist_cons_self b rows))
      obtain ⟨hmax, hmaxRows⟩ := List.forall_mem_cons.mp hmax
      refine ⟨hmem', List.forall_mem_cons.mpr ⟨hmax, List.forall_mem_cons.mpr ⟨?_, hmaxRows⟩⟩⟩
      exact Cell.order_ge_trans (h _ hmem') ha hb hmax hge

/-- **A selection gives one of the rows that it picks, of the greatest version**, or it picks none. -/
theorem run_select (hids : l.fields.names .id ≠ []) (hkind : kind = .latest ∨ kind = .active)
    {b : Binding} (h : l.run kind b db = some (answer, db')) :
    ∃ t, db.find? l.table = some t ∧ ((t.rows ≠ [] → ∀ c ∈ l.insertColumns, t.Has c) →
      (∀ r ∈ t.rows, l.picks kind b t r = true → ∀ x, t.cell r l.names.version ≠ .real x) →
      (answer.row? = none ∧ ∀ r ∈ t.rows, l.picks kind b t r = false) ∨
      ∃ r ∈ t.rows, l.picks kind b t r = true ∧
        answer.row? = some (Store.rowOfCells ((t.columns.map Column.name).zip r)) ∧
        ∀ r' ∈ t.rows, l.picks kind b t r' = true →
          (t.cell r l.names.version).order (t.cell r' l.names.version) ≠ .lt) := by
  obtain ⟨st, hst, hperf⟩ := run_some h
  obtain ⟨p, e, o, hread, hp, he, ho⟩ := read_selection hids hkind hst
  obtain ⟨plan, hplan, -, hrun⟩ := Database.perform_ok hread hperf
  obtain ⟨t, e', o', -, hfind, hresolve, hresolve', -, rfl⟩ := Database.select_ok hplan hrun
  rw [hp.2] at hfind
  refine ⟨t, hfind, fun hcolumns hversion => ?_⟩
  have hne : kind ≠ .insert := by rcases hkind with rfl | rfl <;> exact nofun
  have hnone : l.setParameters kind = [] := by rcases hkind with rfl | rfl <;> rfl
  have hpicks : ∀ r ∈ t.rows, t.fits (cellsOf (st.bind b)) (some e') r = l.picks kind b t r := by
    intro r hr
    refine fits_eq_picks he hresolve ?_ (hcolumns (List.ne_nil_of_mem hr))
    rw [cellsOf_bind, parameters_statement hne hst, hnone]
    rfl
  have hfilter : t.rows.filter (t.fits (cellsOf (st.bind b)) (some e')) =
      t.rows.filter (l.picks kind b t) := List.filter_congr hpicks
  unfold Table.first?
  rw [hfilter]
  cases hrows : t.rows.filter (l.picks kind b t) with
  | nil =>
    refine .inl ⟨rfl, fun r hr => ?_⟩
    have hall := List.filter_eq_nil_iff.mp hrows r hr
    rwa [Bool.not_eq_true] at hall
  | cons a rows =>
    have hmem : ∀ r, r ∈ a :: rows ↔ r ∈ t.rows ∧ l.picks kind b t r = true := by
      intro r
      rw [← hrows, List.mem_filter]
    have hhas : t.Has l.names.version :=
      hcolumns (List.ne_nil_of_mem ((hmem a).mp List.mem_cons_self).1) _ (by simp [insertColumns])
    rw [Expr.resolve_eq (by rw [ho]; exact List.forall_mem_singleton.mpr hhas), ho] at hresolve'
    cases hresolve'
    have horder : ∀ r ∈ a :: rows, ∀ x, (Expr.column (t.place l.names.version)).eval t.columns
        (cellsOf (st.bind b)) r ≠ .real x := fun r hr =>
      hversion r ((hmem r).mp hr).1 ((hmem r).mp hr).2
    obtain ⟨hin, hmax⟩ := foldl_greater horder
    obtain ⟨hrow, hpicked⟩ := (hmem _).mp hin
    exact .inr ⟨_, hrow, hpicked, rfl, fun r' hr' hp' => hmax r' ((hmem r').mpr ⟨hr', hp'⟩)⟩

/-! ## 6. Purges -/

/-- A purge without a condition picks a row of the table, for supplied values. -/
def PurgePicks (l : Layout) (t : Table) (supplied r : List Cell) : Prop :=
  ∃ st reading p sets e e', l.purge none = .ok st ∧ Command.read st.sql = .ok reading ∧
    reading.command = .update p sets (some e) ∧ e.resolve t = .ok e' ∧
    t.fits supplied (some e') r = true

/-- The values of a purge. -/
def purgeCells (cutoff now : Instant) : List Cell :=
  [.text cutoff.storageText, .text now.storageText, .text cutoff.storageText]

/-- A condition narrows a purge: of the rows of a table the database picks none that would not be
picked without it. -/
def Narrows (l : Layout) (judge : Judge) (condition : Option String) : Prop :=
  trimmedCondition condition ≠ none → ∀ st cutoff now db t picked, l.purge condition = .ok st →
    db.find? l.table = some t → judge st.sql (purgeCells cutoff now) db = some picked →
    ∀ r ∈ t.rows, picked r = true → l.PurgePicks t (purgeCells cutoff now) r

theorem narrows_none (l : Layout) (judge : Judge) : l.Narrows judge none :=
  fun h => absurd rfl h

/-- The condition of a purge, as a store reads it. -/
def purgeCondition? (l : Layout) (condition : Option String) : Option (Expr Name) := do
  let st ← (l.purge condition).toOption
  let reading ← (Command.read st.sql).toOption
  match reading.command with
  | .update _ _ e => e
  | _ => none

/-- A further condition of a purge is read as one more conjunct. -/
def isConjunct (l : Layout) (condition : Option String) : Bool :=
  match l.purgeCondition? condition, l.purgeCondition? none with
  | some (.and e _), some e' => e = e'
  | _, _ => false

theorem purgeCondition?_some {condition : Option String} {e : Expr Name}
    (h : l.purgeCondition? condition = some e) :
    ∃ st reading p sets, l.purge condition = .ok st ∧ Command.read st.sql = .ok reading ∧
      reading.command = .update p sets (some e) := by
  obtain ⟨st, hst, h⟩ := Option.bind_eq_some_iff.mp h
  obtain ⟨reading, hread, h⟩ := Option.bind_eq_some_iff.mp h
  split at h
  · rename_i p sets _ hcommand
    subst h
    exact ⟨st, reading, p, sets, toOption_eq_some.mp hst, toOption_eq_some.mp hread, hcommand⟩
  · cases h

/-- **On a store one more conjunct narrows a purge.** -/
theorem narrows_of_isConjunct {condition : Option String} (h : l.isConjunct condition = true) :
    l.Narrows Store.judge condition := by
  obtain ⟨e, extra, hfurther, hplain⟩ : ∃ e extra,
      l.purgeCondition? condition = some (.and e extra) ∧ l.purgeCondition? none = some e := by
    unfold isConjunct at h
    split at h
    · rename_i e extra e' hfurther hplain
      exact ⟨e, extra, hfurther, of_decide_eq_true h ▸ hplain⟩
    · cases h
  obtain ⟨st', reading', p', sets', hst', hread', hcommand'⟩ := purgeCondition?_some hfurther
  obtain ⟨st₀, reading₀, p₀, sets₀, hst₀, hread₀, hcommand₀⟩ := purgeCondition?_some hplain
  intro _ st cutoff now db t picked hst hfind hjudge r _ hpicked
  cases hst'.symm.trans hst
  obtain ⟨reading, p, sets, e'', t', e', hread, hcommand, hlookup, hresolve, rfl⟩ :=
    Store.judge_some hjudge
  cases hread'.symm.trans hread
  cases hcommand'.symm.trans hcommand
  -- The text in front of the condition leads to the table of the layout.
  obtain ⟨p'', sets'', e''', hupdate, hleads, -⟩ := read_purge_ok hst hread
  cases hcommand.symm.trans hupdate
  have htable := (Database.lookup_ok hlookup).2
  rw [hleads.2, hfind] at htable
  cases htable
  obtain ⟨e₁, he₁, hresolve⟩ := ok_of_bind hresolve
  obtain ⟨e₂, -, hresolve⟩ := ok_of_bind hresolve
  cases hresolve
  exact ⟨st₀, reading₀, p₀, sets₀, e, e₁, hst₀, hread₀, hcommand₀, he₁, Table.fits_left hpicked⟩

theorem parameters_purge {condition : Option String} (hst : l.purge condition = .ok st) :
    st.parameters = [.cutoff, .instant, .cutoff] := by
  unfold purge at hst
  cases hseen : l.names.lastSeen with
  | none =>
    rw [hseen] at hst
    cases hst
  | some lastSeen =>
    rw [hseen] at hst
    cases hst
    rfl

theorem cells_purge {condition : Option String} (hst : l.purge condition = .ok st)
    (cutoff now : Instant) :
    cellsOf (st.bind { instant := some now, cutoff := some cutoff }) = purgeCells cutoff now := by
  rw [cellsOf_bind, parameters_purge hst]
  rfl

theorem purge_of_blank {condition : Option String} (h : trimmedCondition condition = none) :
    l.purge condition = l.purge none := by
  unfold purge
  rw [h]
  rfl

/-- A row whose end is set to the cutoff. -/
theorem changedRow_cutoff {t : Table} {r : List Cell} (hkept : l.Kept t) (hr : r ∈ t.rows)
    (hhas : t.Has l.names.validTo) (cutoff now : Instant) :
    t.changedRow (purgeCells cutoff now) [(t.place l.names.validTo, .parameter 0)] r =
      t.put [(l.names.validTo, .text cutoff.storageText)] r :=
  Table.changedRow_eq hkept.distinct rfl (List.nodup_singleton _) (List.forall_mem_singleton.mpr hhas)
    (hkept.rows r hr)

/-- **A purge without a condition ends the rows that fit its statement at its cutoff**, and counts
them. -/
theorem swept_fits {judge : Judge} {cutoff now : Instant} {condition : Option String}
    (hnone : trimmedCondition condition = none)
    (h : l.swept judge cutoff now condition db = some (answer, db')) :
    ∃ (t : Table) (st : Statement) (reading : Command.Reading) (p : Path)
      (sets : List (Name × Expr Name)) (e : Expr Name) (e' : Expr Nat),
      db.find? l.table = some t ∧ l.purge none = .ok st ∧ Command.read st.sql = .ok reading ∧
      reading.command = .update p sets (some e) ∧ e.resolve t = .ok e' ∧
      answer = .changed (t.rows.filter (t.fits (purgeCells cutoff now) (some e'))).length ∧
      (l.Kept t → db' = db.replace { t with rows := t.rows.map (fun r =>
        if t.fits (purgeCells cutoff now) (some e') r then
          t.put [(l.names.validTo, .text cutoff.storageText)] r else r) }) := by
  obtain ⟨st, hst, hpurged⟩ := swept_some h
  rw [cells_purge hst] at hpurged
  obtain ⟨-, hperf⟩ | ⟨_, _, _, _, _, hsome, -⟩ := purged_cases hpurged
  swap
  · exact absurd hnone hsome
  rw [purge_of_blank hnone] at hst
  cases hread : Command.read st.sql with
  | error e =>
    simp only [Database.perform, hread] at hperf
    cases hperf
  | ok reading =>
    obtain ⟨p, sets, e, hcommand, hp, hsets⟩ := read_purge_ok hst hread
    obtain ⟨plan, hplan, -, hrun⟩ := Database.perform_ok hread hperf
    rw [hcommand] at hplan
    obtain ⟨t, sets', e', t', count, -, hfind, hplaces, hresolve, hupdate, hdb, hanswer⟩ :=
      Database.update_ok hplan hrun
    rw [hp.2] at hfind
    obtain ⟨hhas, rfl⟩ := assignmentPlaces_ok hplaces hsets
    rw [Table.update_count hupdate] at hanswer
    refine ⟨t, st, reading, p, sets, e, e', hfind, hst, hread, hcommand, hresolve, hanswer,
      fun hkept => ?_⟩
    rw [hdb, Table.update_eq hupdate]
    congr 2
    refine List.map_congr_left fun r hr => ?_
    have hchanged := changedRow_cutoff hkept hr (hhas _ List.mem_cons_self) cutoff now
    exact congrArg (if t.fits (purgeCells cutoff now) (some e') r then · else r) hchanged

/-- **A purge ends some rows at its cutoff**, and counts them. If its condition narrows it, these are
rows that would be ended without it. -/
theorem swept_eq {judge : Judge} {cutoff now : Instant} {condition : Option String}
    (h : l.swept judge cutoff now condition db = some (answer, db')) :
    ∃ (t : Table) (picked : List Cell → Bool), db.find? l.table = some t ∧
      (l.Narrows judge condition → ∀ r ∈ t.rows, picked r = true →
        l.PurgePicks t (purgeCells cutoff now) r) ∧
      answer = .changed (t.rows.filter picked).length ∧
      (l.Kept t → db' = db.replace { t with rows := t.rows.map (fun r =>
        if picked r then t.put [(l.names.validTo, .text cutoff.storageText)] r else r) }) := by
  cases htrimmed : trimmedCondition condition with
  | none =>
    obtain ⟨t, st, reading, p, sets, e, e', hfind, hst, hread, hcommand, hresolve, hanswer, hdb⟩ :=
      swept_fits htrimmed h
    exact ⟨t, t.fits (purgeCells cutoff now) (some e'), hfind,
      fun _ r _ hr => ⟨st, reading, p, sets, e, e', hst, hread, hcommand, hresolve, hr⟩, hanswer, hdb⟩
  | some text =>
    obtain ⟨st, hst, hpurged⟩ := swept_some h
    rw [cells_purge hst] at hpurged
    obtain ⟨hnone, -⟩ |
      ⟨picked, t, column, t', count, hsome, hjudge, hfind, hcolumn, hupdate, hanswer, hdb⟩ :=
      purged_cases hpurged
    · exact nomatch htrimmed.symm.trans hnone
    · obtain ⟨hhas, rfl⟩ := Table.has_of_index? hcolumn
      rw [Table.update_count hupdate] at hanswer
      refine ⟨t, picked, hfind, fun hnarrows r hr hp => ?_, hanswer, fun hkept => ?_⟩
      · exact hnarrows hsome st cutoff now db t picked hst hfind hjudge r hr hp
      · rw [hdb, Table.update_eq hupdate]
        congr 2
        refine List.map_congr_left fun r hr => ?_
        rw [changedRow_cutoff hkept hr hhas]

end Layout

end RowHistory
