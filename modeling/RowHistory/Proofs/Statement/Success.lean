import RowHistory.Proofs.Statement.Effects

/-!
# Statements that succeed

A statement of a layout fails only for what it meets in the database. This file fixes

* the layouts whose tables can be reached (`Layout.InMain`);
* that a selection succeeds on a table with all columns (`run_selects`), and wherever it did before,
  whatever the rows are (`run_selects_again`);
* that an insertion, or a change of one row, succeeds if the table takes the row (`run_inserts`,
  `run_changes`).
-/

namespace RowHistory

open Sql

/-! ## 1. Tables and plans -/

namespace Sql

theorem Database.perform_of_run {db : Database} {sql : String} {supplied : List Cell}
    {r : Command.Reading} {plan : Plan} {found : Answer × Database}
    (hread : Command.read sql = .ok r) (hplan : db.plan r.command = .ok plan)
    (hlength : supplied.length = r.parameters) (hrun : plan.run supplied db = .ok found) :
    db.perform sql supplied = .ok found := by
  unfold Database.perform
  simp only [hread, hplan]
  rw [if_pos hlength, hrun]

namespace Table

variable {t : Table} {supplied : List Cell}

/-- Rows that are not picked are left as they are. -/
theorem updateRows_none {sets : List (Nat × Expr Nat)} {picked : List Cell → Bool}
    {done rows : List (List Cell)} (h : ∀ r ∈ rows, picked r = false) :
    t.updateRows supplied sets picked done rows = .ok (done ++ rows, 0) := by
  induction rows generalizing done with
  | nil => rw [updateRows, List.append_nil]
  | cons r rows ih =>
    obtain ⟨hr, hrows⟩ := List.forall_mem_cons.mp h
    rw [updateRows, if_neg (by rw [hr]; exact Bool.false_ne_true), ih hrows, List.append_assoc,
      List.singleton_append]

/-- **One row is picked, and the table takes it as it is changed.** -/
theorem updateRows_one {sets : List (Nat × Expr Nat)} {picked : List Cell → Bool}
    {done before after : List (List Cell)} {r : List Cell} (hr : picked r = true)
    (hothers : ∀ r' ∈ before ++ after, picked r' = false)
    (hcheck : t.check (done ++ (before ++ after)) (t.changedRow supplied sets r) = .ok ()) :
    t.updateRows supplied sets picked done (before ++ r :: after) =
      .ok (done ++ before ++ t.changedRow supplied sets r :: after, 1) := by
  induction before generalizing done with
  | nil =>
    rw [List.nil_append] at hothers hcheck ⊢
    simp only [updateRows]
    rw [if_pos hr, hcheck]
    dsimp only
    rw [updateRows_none hothers, List.append_assoc, List.singleton_append, List.append_nil]
    rfl
  | cons b before ih =>
    rw [List.cons_append] at hothers
    obtain ⟨hb, hothers⟩ := List.forall_mem_cons.mp hothers
    have hsplit : done ++ (b :: before ++ after) = done ++ [b] ++ (before ++ after) := by simp
    rw [List.cons_append, updateRows, if_neg (by rw [hb]; exact Bool.false_ne_true),
      ih hothers (hsplit ▸ hcheck), List.append_assoc done [b], List.singleton_append]

end Table

/-- The assignments of a change are found on a table with their columns. -/
theorem assignmentPlaces_of_has {t : Table} {sets : List (Name × Expr Name)} {columns : List String}
    {n : Nat} (hplain : sets.map Reader.plainAssignment = Reader.assignmentsFrom n columns)
    (hhas : ∀ c ∈ columns, t.Has c) : assignmentPlaces t sets =
      .ok (Reader.numbered (fun c k => (t.place c, .parameter k)) 1 n columns) := by
  induction columns generalizing sets n with
  | nil =>
    obtain rfl := List.map_eq_nil_iff.mp hplain
    rfl
  | cons c columns ih =>
    cases sets with
    | nil => cases hplain
    | cons a sets =>
      obtain ⟨hhead, htail⟩ := List.cons.inj hplain
      obtain ⟨name, value⟩ := a
      obtain ⟨hc, hcolumns⟩ := List.forall_mem_cons.mp hhas
      obtain rfl : name.text = c := congrArg Prod.fst hhead
      have hvalue : value.plain = .parameter n := congrArg Prod.snd hhead
      have hnames : ∀ c ∈ value.plain.names, t.Has c := by
        rw [hvalue]
        exact List.forall_mem_nil _
      rw [assignmentPlaces, Expr.resolve_eq hnames, hvalue, ih htail hcolumns]
      dsimp only [bind, Except.bind]
      rw [hc.index?]
      rfl

/-- The columns of an insertion are found on a table that has them. -/
theorem insertPlaces_of_has {t : Table} (p : Path) {names : List Name}
    (hhas : ∀ c ∈ names.map Name.text, t.Has c) :
    insertPlaces t p names = .ok ((names.map Name.text).map t.place) := by
  induction names with
  | nil => rfl
  | cons name names ih =>
    obtain ⟨hname, hnames⟩ := List.forall_mem_cons.mp hhas
    unfold insertPlaces
    rw [hname.index?, ih hnames]
    rfl

end Sql

/-! ## 2. Statements -/

namespace Layout

variable {l : Layout} {t : Table} {db : Database} {kind : StatementKind} {st : Statement}

/-- The layout leads into the only schema. -/
def InMain (l : Layout) : Prop :=
  ∀ s ∈ l.schema, sameName s Database.mainSchema = true

instance (l : Layout) : Decidable l.InMain :=
  inferInstanceAs (Decidable (∀ s ∈ l.schema, _))

theorem InMain.lookup (h : l.InMain) {p : Path} (hp : Reader.Leads l.schema l.table p)
    (hfind : db.find? l.table = some t) : db.lookup p = .ok t := by
  have hmain : Database.inMain p = true := by
    unfold Database.inMain
    rw [hp.1]
    cases hs : l.schema with
    | none => rfl
    | some s => exact h s hs
  unfold Database.lookup
  rw [if_pos hmain, hp.2, hfind]

/-- A selection that succeeds found its table there. -/
theorem inMain_of_run (hids : l.fields.names .id ≠ []) (hkind : kind = .latest ∨ kind = .active)
    {b : Binding} {found : Answer × Database} (h : l.run kind b db = some found) : l.InMain := by
  obtain ⟨st, hst, hperf⟩ := run_some h
  obtain ⟨p, e, o, hread, hp, -, -⟩ := read_selection hids hkind hst
  obtain ⟨plan, hplan, -, hrun⟩ := Database.perform_ok hread hperf
  obtain ⟨-, -, -, hmain, -⟩ := Database.select_ok hplan hrun
  intro s hs
  unfold Database.inMain at hmain
  rw [hp.1, hs] at hmain
  exact hmain

/-- The conditions of a statement are resolved on a table with all columns. -/
theorem resolve_conditions {e : Expr Name} {n : Nat}
    (he : some e.plain = conjunctionFrom n (l.conditions kind))
    (hcolumns : ∀ c ∈ l.insertColumns, t.Has c) : e.resolve t = .ok (e.plain.map t.place) := by
  refine Expr.resolve_eq fun c hc => ?_
  have hhas : ∀ a ∈ l.conditions kind, t.Has a.column := fun a ha =>
    hcolumns _ (column_of_conditions ha)
  cases hconditions : l.conditions kind with
  | nil =>
    rw [hconditions] at he
    cases he
  | cons a as =>
    rw [hconditions] at he hhas
    rw [Option.some.inj he] at hc
    obtain hleft | ⟨b, hb, rfl⟩ := Atom.names_conj c hc
    · rw [Atom.names_expr c hleft]
      exact hhas a List.mem_cons_self
    · exact hhas b (List.mem_cons_of_mem _ hb)

theorem run_of_perform {b : Binding} {found : Answer × Database} (hst : l.statement kind = .ok st)
    (h : db.perform st.sql (cellsOf (st.bind b)) = .ok found) : l.run kind b db = some found := by
  unfold Layout.run
  rw [hst]
  simp only [h]
  rfl

/-- **A selection succeeds wherever it did before**, for any values and on any rows. -/
theorem run_selects_again (hids : l.fields.names .id ≠ []) (hkind : kind = .latest ∨ kind = .active)
    {b : Binding} {found : Answer × Database} (h : l.run kind b db = some found)
    (hfind : db.find? l.table = some t) {db' : Database} {rows : List (List Cell)}
    (hfind' : db'.find? l.table = some { t with rows }) (b' : Binding) :
    ∃ answer, l.run kind b' db' = some (answer, db') := by
  have hmain := inMain_of_run hids hkind h
  obtain ⟨st, hst, hperf⟩ := run_some h
  obtain ⟨p, e, o, hread, hp, -, -⟩ := read_selection hids hkind hst
  obtain ⟨plan, hplan, hlength, hrun⟩ := Database.perform_ok hread hperf
  obtain ⟨t', e', o', -, ht', he, ho, -, -⟩ := Database.select_ok hplan hrun
  rw [hp.2, hfind] at ht'
  cases ht'
  -- Names are resolved by the columns alone.
  have hrows : ∀ e : Expr Name, e.resolve { t with rows } = e.resolve t := by
    intro e
    induction e with
    | column | parameter | constant => rfl
    | compare op l r hl hr => simp only [Expr.resolve, hl, hr]
    | isNull e he => simp only [Expr.resolve, he]
    | not e he => simp only [Expr.resolve, he]
    | and l r hl hr => simp only [Expr.resolve, hl, hr]
    | or l r hl hr => simp only [Expr.resolve, hl, hr]
  generalize ht' : ({ t with rows } : Table) = t' at hfind' hrows
  have hplan' : db'.plan (.select p (some e) (some o)) =
      .ok (.select t'.name (some e') (some o')) := by
    rw [Database.plan, hmain.lookup hp hfind']
    show (do return Plan.select t'.name (← (e.resolve t').map some) (← (o.resolve t').map some) :
      Except SqlError Plan) = _
    rw [hrows, hrows, he, ho]
    rfl
  have hlength' : (cellsOf (st.bind b')).length = (l.conditions kind).length := by
    rw [cellsOf_bind, List.length_map] at hlength ⊢
    exact hlength
  have hrun' : ∃ answer, (Plan.select t'.name (some e') (some o')).run (cellsOf (st.bind b')) db' =
      .ok (answer, db') := by
    simp only [Plan.run, (Database.find?_name hfind').2]
    split
    · exact ⟨_, rfl⟩
    · exact ⟨_, rfl⟩
  obtain ⟨answer, hrun'⟩ := hrun'
  exact ⟨answer, run_of_perform hst (Database.perform_of_run hread hplan' hlength' hrun')⟩

/-- **An insertion succeeds** if the table has all columns and takes the row beside the others. -/
theorem run_inserts (hmain : l.InMain) (hcolumns : ∀ c ∈ l.insertColumns, t.Has c) (hd : t.Distinct)
    (hfind : db.find? l.table = some t) {row : Row}
    (hcheck : t.check t.rows (t.put (l.sets .insert row) t.blank) = .ok ()) :
    ∃ db', l.run .insert { row } db = some (.changed 1, db') := by
  obtain ⟨st, hst⟩ : ∃ st, l.statement .insert = .ok st := ⟨_, rfl⟩
  obtain ⟨p, names, hread, hp, hnames⟩ := read_insertion hst
  have hhas : ∀ c ∈ names.map Name.text, t.Has c := hnames ▸ hcolumns
  have hplaces := insertPlaces_of_has p hhas
  have hvalues : (Reader.suppliedFrom 0 l.insertColumns.length : List (Expr Name)).mapM
      (fun e => e.resolve t) = .ok (Reader.suppliedFrom 0 l.insertColumns.length) :=
    mapM_parameters t _
  have hplan : db.plan (.insert p names (Reader.suppliedFrom 0 l.insertColumns.length)) =
      .ok (.insert t.name (l.insertColumns.map t.place)
        (Reader.suppliedFrom 0 l.insertColumns.length)) := by
    rw [Database.plan, hmain.lookup hp hfind]
    show (do
      let places ← insertPlaces t p names
      return Plan.insert t.name places (← (Reader.suppliedFrom 0 l.insertColumns.length).mapM
        fun e => e.resolve t) : Except SqlError Plan) = _
    rw [hplaces, hvalues, hnames]
    rfl
  have hlength : (cellsOf (st.bind { row })).length = l.insertColumns.length := by
    rw [cellsOf_bind, parameters_insert hst, List.length_map, List.length_map]
  have hstored : t.stored (t.newRow (l.insertColumns.map t.place)
      ((Reader.suppliedFrom 0 l.insertColumns.length).map
        (Expr.eval [] (cellsOf (st.bind { row })) []))) = t.put (l.sets .insert row) t.blank := by
    rw [← hlength, eval_suppliedFrom, Table.stored_newRow hd hcolumns, cellsOf_bind,
      parameters_insert hst]
    rfl
  have hinsert : t.insert (l.insertColumns.map t.place)
      ((Reader.suppliedFrom 0 l.insertColumns.length).map
        (Expr.eval [] (cellsOf (st.bind { row })) [])) =
      .ok { t with rows := t.rows ++ [t.put (l.sets .insert row) t.blank] } := by
    unfold Table.insert
    rw [hstored]
    dsimp only
    rw [hcheck]
    rfl
  refine ⟨db.replace { t with rows := t.rows ++ [t.put (l.sets .insert row) t.blank] },
    run_of_perform hst (Database.perform_of_run hread hplan hlength ?_)⟩
  simp only [Plan.run, (Database.find?_name hfind).2, hinsert]
  rfl

variable (hids : l.fields.names .id ≠ []) (hmain : l.InMain)
  (hcolumns : ∀ c ∈ l.insertColumns, t.Has c)

include hids hmain hcolumns

/-- **A selection succeeds** on a table with all columns. -/
theorem run_selects (hkind : kind = .latest ∨ kind = .active)
    (hfind : db.find? l.table = some t) (b : Binding) :
    ∃ answer, l.run kind b db = some (answer, db) := by
  obtain ⟨st, hst⟩ : ∃ st, l.statement kind = .ok st := by
    rcases hkind with rfl | rfl <;> exact ⟨_, rfl⟩
  have hne : kind ≠ .insert := by rcases hkind with rfl | rfl <;> exact nofun
  have hnone : l.setParameters kind = [] := by rcases hkind with rfl | rfl <;> rfl
  obtain ⟨p, e, o, hread, hp, he, ho⟩ := read_selection hids hkind hst
  have hversion : t.Has l.names.version := hcolumns _ (by simp [insertColumns])
  have hplan : db.plan (.select p (some e) (some o)) = .ok (.select t.name
      (some (e.plain.map t.place)) (some (o.plain.map t.place))) := by
    rw [Database.plan, hmain.lookup hp hfind]
    show (do return Plan.select t.name (← (e.resolve t).map some) (← (o.resolve t).map some) :
      Except SqlError Plan) = _
    rw [resolve_conditions he hcolumns,
      Expr.resolve_eq (by rw [ho]; exact List.forall_mem_singleton.mpr hversion)]
    rfl
  have hlength : (cellsOf (st.bind b)).length = (l.conditions kind).length := by
    rw [cellsOf_bind, parameters_statement hne hst, hnone, List.nil_append, List.length_map,
      length_conditionParameters]
  have hrun : ∃ answer, (Plan.select t.name (some (e.plain.map t.place))
      (some (o.plain.map t.place))).run (cellsOf (st.bind b)) db = .ok (answer, db) := by
    simp only [Plan.run, (Database.find?_name hfind).2]
    split
    · exact ⟨_, rfl⟩
    · exact ⟨_, rfl⟩
  obtain ⟨answer, hrun⟩ := hrun
  exact ⟨answer, run_of_perform hst (Database.perform_of_run hread hplan hlength hrun)⟩

/-- **A change of one row succeeds** if the table takes the changed row beside the others. -/
theorem run_changes (hl : l.Distinct) (hkind : IsChange kind) (hst : l.statement kind = .ok st)
    {row : Row} {before after : List (List Cell)} {r : List Cell}
    (hrows : t.rows = before ++ r :: after) (hkept : l.Kept t) (hfind : db.find? l.table = some t)
    (hr : l.picks kind { row } t r = true)
    (hothers : ∀ r' ∈ before ++ after, l.picks kind { row } t r' = false)
    (hcheck : t.check (before ++ after) (t.put (l.sets kind row) r) = .ok ()) :
    ∃ db', l.run kind { row } db = some (.changed 1, db') := by
  obtain ⟨p, sets, e, hread, hp, hsets, he⟩ := read_change hids hkind hst
  have hset : ∀ c ∈ l.setColumns kind, t.Has c := fun c hc =>
    hcolumns c ((l.setColumns_sublist kind).subset hc)
  have hplaces := assignmentPlaces_of_has hsets hset
  have hresolve := resolve_conditions he hcolumns
  have hplan : db.plan (.update p sets (some e)) = .ok (.update t.name
      (Reader.numbered (fun c k => (t.place c, .parameter k)) 1 0 (l.setColumns kind))
      (some (e.plain.map t.place))) := by
    rw [Database.plan, hmain.lookup hp hfind]
    show (do
      let assignments ← assignmentPlaces t sets
      return Plan.update t.name assignments (← (e.resolve t).map some) : Except SqlError Plan) = _
    rw [hplaces, hresolve]
    rfl
  have hlength : (cellsOf (st.bind { row })).length =
      (l.setColumns kind).length + (l.conditions kind).length := by
    rw [cells_change hkind hst, List.length_append, List.length_map, List.length_map,
      length_setParameters, length_conditionParameters]
  have hfits : ∀ r', t.fits (cellsOf (st.bind { row })) (some (e.plain.map t.place)) r' =
      l.picks kind { row } t r' := fun r' =>
    fits_eq_picks he hresolve (drop_cells_change hkind hst) hcolumns
  have hmem : r ∈ t.rows := hrows ▸ List.mem_append_right _ List.mem_cons_self
  have hchanged : t.changedRow (cellsOf (st.bind { row }))
      (Reader.numbered (fun c k => (t.place c, .parameter k)) 1 0 (l.setColumns kind)) r =
        t.put (l.sets kind row) r :=
    changedRow_sets hl hkind hst hkept.distinct hset (hkept.rows r hmem)
  have hupdate : t.update (cellsOf (st.bind { row }))
      (Reader.numbered (fun c k => (t.place c, .parameter k)) 1 0 (l.setColumns kind))
      (t.fits (cellsOf (st.bind { row })) (some (e.plain.map t.place))) =
      .ok ({ t with rows := before ++ t.put (l.sets kind row) r :: after }, 1) := by
    unfold Table.update
    rw [hrows, Table.updateRows_one ((hfits r).trans hr)
      (fun r' hr' => (hfits r').trans (hothers r' hr')) (hchanged.symm ▸ hcheck), hchanged]
    rfl
  refine ⟨db.replace { t with rows := before ++ t.put (l.sets kind row) r :: after },
    run_of_perform hst (Database.perform_of_run hread hplan hlength ?_)⟩
  simp only [Plan.run, (Database.find?_name hfind).2, hupdate]
  rfl

end Layout

end RowHistory
