import RowHistory.Proofs.Sql.Affinities
import RowHistory.Proofs.Sql.Reading
import RowHistory.Proofs.Sql.Performing
import Mathlib.Data.List.Nodup

/-!
# Tables by the names of their columns

Statements name columns, and a table keeps places. This file reads what is done to a table by
names alone:

* the cell of a row in a column and what that column keeps (`Table.cell`, `Table.affinityOf`);
* a row with some cells set by name (`Table.put`), which is what an insertion makes of an empty row
  (`stored_newRow`) and a change of a stored one (`changedRow_eq`);
* the truth of a condition by names (`Atom.holds`), and of a row of conditions (`fits_iff`);
* the assignments of a change by places (`assignmentPlaces_ok`).
-/

namespace RowHistory.Sql

namespace Table

variable {t : Table} {name : String} {i : Nat} {r : List Cell} {entries : List (String × Cell)}

/-! ## 1. Columns -/

/-- The columns have different names, in upper or lower case. -/
def Distinct (t : Table) : Prop :=
  (t.columns.map fun c => c.name.toLower).Nodup

/-- The table has a column. -/
def Has (t : Table) (name : String) : Prop :=
  (t.index? name).isSome = true

/-- The place of a column; behind all others if there is none. -/
def place (t : Table) (name : String) : Nat :=
  (t.index? name).getD t.columns.length

/-- The cell of a row in a column. -/
def cell (t : Table) (r : List Cell) (name : String) : Cell :=
  r.getD (t.place name) .null

/-- The affinity of a column. -/
def affinityOf (t : Table) (name : String) : Affinity :=
  (t.columns[t.place name]?.map Column.affinity).getD .blob

theorem Has.index? (h : t.Has name) : t.index? name = some (t.place name) := by
  obtain ⟨i, hi⟩ := Option.isSome_iff_exists.mp h
  rw [place, hi, Option.getD_some]

theorem has_of_index? (h : t.index? name = some i) : t.Has name ∧ t.place name = i := by
  unfold Has place
  rw [h]
  exact ⟨rfl, rfl⟩

theorem Has.column (h : t.Has name) :
    ∃ c, t.columns[t.place name]? = some c ∧ sameName c.name name = true := by
  have hfind := h.index?
  unfold Table.index? at hfind
  rw [List.findIdx?_eq_some_iff_getElem] at hfind
  obtain ⟨hlt, hsame, -⟩ := hfind
  exact ⟨_, List.getElem?_eq_getElem hlt, hsame⟩

theorem Has.place_lt (h : t.Has name) : t.place name < t.columns.length := by
  obtain ⟨c, hc, -⟩ := h.column
  exact (List.getElem?_eq_some_iff.mp hc).1

/-- A column of a name has its place. -/
theorem place_eq (hd : t.Distinct) {c : Column} (hc : t.columns[i]? = some c) (h : t.Has name) :
    t.place name = i ↔ sameName name c.name = true := by
  obtain ⟨c', hc', hsame⟩ := h.column
  rw [sameName_iff] at hsame ⊢
  constructor
  · rintro rfl
    rw [hc] at hc'
    cases hc'
    exact hsame.symm
  · intro hname
    have hlower : ∀ (j : Nat) (d : Column), t.columns[j]? = some d →
        (t.columns.map fun c => c.name.toLower)[j]? = some d.name.toLower := by
      intro j d hj
      rw [List.getElem?_map, hj]
      rfl
    have hi := hlower i c hc
    rw [← hname, ← hsame] at hi
    have hj := hlower _ c' hc'
    exact (List.getElem?_inj (List.getElem?_eq_some_iff.mp hj).1 hd).mp (hj.trans hi.symm)

/-! ## 2. Cells set by name -/

/-- The cell for a name, the first of them. -/
def cellNamed? (entries : List (String × Cell)) (name : String) : Option Cell :=
  (entries.find? fun e => sameName e.1 name).map Prod.snd

theorem cellNamed?_congr {name' : String} (h : sameName name name' = true) :
    cellNamed? entries name = cellNamed? entries name' := by
  rw [sameName_iff] at h
  unfold cellNamed? sameName
  rw [h]

/-- The row with some cells set, as their columns keep them. -/
def put (t : Table) (entries : List (String × Cell)) (r : List Cell) : List Cell :=
  t.columns.zipWith (fun c x => match cellNamed? entries c.name with
    | some v => c.affinity.store v
    | none => x) r

/-- The row without values. -/
def blank (t : Table) : List Cell :=
  List.replicate t.columns.length .null

theorem length_put (hr : r.length = t.columns.length) :
    (t.put entries r).length = t.columns.length := by
  unfold put
  rw [List.length_zipWith, hr, Nat.min_self]

/-- **A cell after others were set by name.** -/
theorem cell_put (h : t.Has name) (hr : r.length = t.columns.length) :
    t.cell (t.put entries r) name = match cellNamed? entries name with
      | some v => (t.affinityOf name).store v
      | none => t.cell r name := by
  obtain ⟨c, hc, hsame⟩ := h.column
  have hlt : t.place name < r.length := by
    rw [hr]
    exact h.place_lt
  have haff : t.affinityOf name = c.affinity := by rw [affinityOf, hc]; rfl
  have hcell : t.cell (t.put entries r) name = match cellNamed? entries c.name with
      | some v => c.affinity.store v
      | none => r[t.place name] := by
    unfold cell put
    rw [List.getD_eq_getElem?_getD, List.getElem?_zipWith, hc, List.getElem?_eq_getElem hlt]
    rfl
  rw [hcell, cellNamed?_congr hsame, haff, cell, List.getD_eq_getElem?_getD,
    List.getElem?_eq_getElem hlt]
  rfl

theorem cellNamed?_eq_none (h : ∀ e ∈ entries, e.1.toLower ≠ name.toLower) :
    cellNamed? entries name = none := by
  unfold cellNamed?
  rw [Option.map_eq_none_iff, List.find?_eq_none]
  exact fun e he hsame => h e he (sameName_iff.mp hsame)

/-- Among different names each has its cell. -/
theorem cellNamed?_eq_some (hnames : (entries.map fun e => e.1.toLower).Nodup) {v : Cell}
    (h : (name, v) ∈ entries) : cellNamed? entries name = some v := by
  have hfound : (entries.find? fun e => sameName e.1 name).isSome :=
    List.find?_isSome.mpr ⟨_, h, sameName_refl name⟩
  obtain ⟨e, he⟩ := Option.isSome_iff_exists.mp hfound
  have hsame : sameName e.1 name = true :=
    List.find?_some (p := fun e : String × Cell => sameName e.1 name) he
  have heq : e = (name, v) := List.inj_on_of_nodup_map hnames (List.mem_of_find?_eq_some he) h
    (sameName_iff.mp hsame)
  rw [cellNamed?, he, heq]
  rfl

/-- A cell that is not set stays, also where there is no column. -/
theorem cell_put_of_none (hr : r.length = t.columns.length) (h : cellNamed? entries name = none) :
    t.cell (t.put entries r) name = t.cell r name := by
  by_cases hhas : t.Has name
  · rw [cell_put hhas hr, h]
  · have hplace : t.place name = t.columns.length := by
      unfold place
      rw [Option.not_isSome_iff_eq_none.mp hhas]
      rfl
    have hend : ∀ {r : List Cell}, r.length = t.columns.length → t.cell r name = .null := by
      intro r hr
      rw [cell, hplace, List.getD_eq_getElem?_getD, List.getElem?_eq_none (Nat.le_of_eq hr)]
      rfl
    rw [hend (length_put hr), hend hr]

theorem put_nil (hr : r.length = t.columns.length) : t.put [] r = r := by
  refine List.ext_getElem (by rw [length_put hr, hr]) fun i hi hi' => ?_
  simp [put, cellNamed?]

/-- One cell that is set by name is set at its place. -/
theorem put_single (hd : t.Distinct) (h : t.Has name) (hr : r.length = t.columns.length) (x : Cell) :
    t.put [(name, x)] r = r.set (t.place name) ((t.affinityOf name).store x) := by
  refine List.ext_getElem? fun i => ?_
  unfold put
  rw [List.getElem?_zipWith, List.getElem?_set]
  cases hc : t.columns[i]? with
  | none =>
    have hle := List.getElem?_eq_none_iff.mp hc
    have hlt := h.place_lt
    rw [if_neg (by omega), List.getElem?_eq_none (by omega)]
  | some c =>
    have hi : i < r.length := hr ▸ (List.getElem?_eq_some_iff.mp hc).1
    rw [List.getElem?_eq_getElem hi]
    by_cases hplace : t.place name = i
    · have hsame := (place_eq hd hc h).mp hplace
      have hnamed : cellNamed? [(name, x)] c.name = some x := by
        simp only [cellNamed?, List.find?_cons, hsame, Option.map_some]
      have haffinity : t.affinityOf name = c.affinity := by
        rw [affinityOf, hplace, hc]
        rfl
      rw [if_pos hplace, if_pos (hplace ▸ hi), haffinity]
      show some (match cellNamed? [(name, x)] c.name with
        | some v => c.affinity.store v
        | none => _) = _
      rw [hnamed]
    · have hnamed : cellNamed? [(name, x)] c.name = none := by
        refine cellNamed?_eq_none (List.forall_mem_singleton.mpr fun heq => hplace ?_)
        exact (place_eq hd hc h).mpr (sameName_iff.mpr heq)
      rw [if_neg hplace]
      show some (match cellNamed? [(name, x)] c.name with
        | some v => c.affinity.store v
        | none => _) = _
      rw [hnamed]

/-- The value of the first place among places by name. -/
theorem find?_places (hd : t.Distinct) {c : Column} (hc : t.columns[i]? = some c)
    (hhas : ∀ e ∈ entries, t.Has e.1) :
    ((entries.map fun e => (t.place e.1, e.2)).find? fun p => p.1 = i).map Prod.snd =
      cellNamed? entries c.name := by
  induction entries with
  | nil => rfl
  | cons e entries ih =>
    have he := place_eq hd hc (hhas e List.mem_cons_self)
    have ih := ih fun e h => hhas e (List.mem_cons_of_mem _ h)
    unfold cellNamed? at ih ⊢
    rw [List.map_cons, List.find?_cons, List.find?_cons]
    by_cases h : t.place e.1 = i
    · simp only [h, decide_true, he.mp h, Option.map_some]
    · have hsame : sameName e.1 c.name = false := by
        rw [Bool.eq_false_iff]
        exact fun hs => h (he.mpr hs)
      simp only [h, decide_false, hsame]
      exact ih

/-- **A new row has the values of its names.** -/
theorem stored_newRow (hd : t.Distinct) {names : List String} {values : List Cell}
    (hhas : ∀ n ∈ names, t.Has n) :
    t.stored (t.newRow (names.map t.place) values) = t.put (names.zip values) t.blank := by
  have hzip : (names.map t.place).zip values =
      (names.zip values).map fun e => (t.place e.1, e.2) := by
    rw [List.zip_map_left]
    rfl
  have hhas' : ∀ e ∈ names.zip values, t.Has e.1 := fun e he => hhas e.1 (List.of_mem_zip he).1
  refine List.ext_getElem? fun i => ?_
  unfold stored put newRow blank
  rw [List.getElem?_zipWith, List.getElem?_zipWith, hzip]
  cases hc : t.columns[i]? with
  | none => rfl
  | some c =>
    have hlt : i < t.columns.length := (List.getElem?_eq_some_iff.mp hc).1
    rw [List.getElem?_map, List.getElem?_range hlt, List.getElem?_replicate, if_pos hlt]
    show some (c.affinity.store (((((names.zip values).map fun e => (t.place e.1, e.2)).find?
      fun p => p.1 = i).map Prod.snd).getD .null)) = some _
    rw [find?_places hd hc hhas']
    cases cellNamed? (names.zip values) c.name with
    | none => exact congrArg some c.affinity.store_null
    | some v => rfl

/-- What a row of settings leaves at a place: the value set there, if there is one. -/
theorem getElem?_foldl_set {places : List (Nat × Cell)} (hnodup : (places.map Prod.fst).Nodup)
    (r : List Cell) (i : Nat) :
    (places.foldl (fun new p => new.set p.1 p.2) r)[i]? =
      match (places.find? fun p => p.1 = i).map Prod.snd with
      | some v => r[i]?.map fun _ => v
      | none => r[i]? := by
  induction places generalizing r with
  | nil => rfl
  | cons p places ih =>
    rw [List.map_cons, List.nodup_cons] at hnodup
    rw [List.foldl_cons, ih hnodup.2, List.find?_cons]
    by_cases h : p.1 = i
    · have hnone : (places.find? fun p => p.1 = i) = none := by
        rw [List.find?_eq_none]
        intro q hq heq
        exact hnodup.1 (List.mem_map.mpr ⟨q, hq, (of_decide_eq_true heq).trans h.symm⟩)
      simp only [hnone, h, decide_true, Option.map_none, Option.map_some, List.getElem?_set_self']
      rfl
    · simp only [h, decide_false]
      cases (places.find? fun p => p.1 = i).map Prod.snd with
      | none => simp only [List.getElem?_set_ne h]
      | some v => simp only [List.getElem?_set_ne h]

/-- Different names have different places. -/
theorem nodup_places {names : List String} (hnames : (names.map String.toLower).Nodup)
    (hhas : ∀ n ∈ names, t.Has n) : (names.map t.place).Nodup := by
  have hinj := List.inj_on_of_nodup_map hnames
  refine List.Nodup.map_on (fun n hn m hm h => hinj hn hm ?_) (List.Nodup.of_map _ hnames)
  obtain ⟨c, hc, hsame⟩ := (hhas n hn).column
  obtain ⟨d, hd, hsame'⟩ := (hhas m hm).column
  rw [h, hd] at hc
  cases hc
  rw [← sameName_iff.mp hsame, ← sameName_iff.mp hsame']

/-- A row that the table keeps as it is, with a cell for every column. -/
structure IsRow (t : Table) (r : List Cell) : Prop where
  length : r.length = t.columns.length
  stored : t.stored r = r

theorem IsRow.getElem? (h : t.IsRow r) {c : Column} (hc : t.columns[i]? = some c) :
    ∃ x, r[i]? = some x ∧ c.affinity.store x = x := by
  have hlt : i < r.length := by
    rw [h.length]
    exact (List.getElem?_eq_some_iff.mp hc).1
  have hi := congrArg (·[i]?) h.stored
  simp only [Table.stored, List.getElem?_zipWith, hc, List.getElem?_eq_getElem hlt] at hi
  exact ⟨r[i], List.getElem?_eq_getElem hlt, Option.some.inj hi⟩

/-- What a column keeps of a cell of a row. -/
theorem IsRow.store_cell (h : t.IsRow r) (hhas : t.Has name) :
    (t.affinityOf name).store (t.cell r name) = t.cell r name := by
  obtain ⟨c, hc, -⟩ := hhas.column
  obtain ⟨x, hx, hstore⟩ := h.getElem? hc
  have hcell : t.cell r name = x := by rw [cell, List.getD_eq_getElem?_getD, hx]; rfl
  have haff : t.affinityOf name = c.affinity := by rw [affinityOf, hc]; rfl
  rw [hcell, haff, hstore]

theorem isRow_blank (t : Table) : t.IsRow t.blank := by
  refine ⟨List.length_replicate, List.ext_getElem? fun i => ?_⟩
  unfold stored blank
  rw [List.getElem?_zipWith]
  cases hc : t.columns[i]? with
  | none =>
    have hle := List.getElem?_eq_none_iff.mp hc
    rw [List.getElem?_eq_none (by rw [List.length_replicate]; exact hle)]
  | some c =>
    rw [List.getElem?_replicate, if_pos (List.getElem?_eq_some_iff.mp hc).1]
    exact congrArg some c.affinity.store_null

theorem IsRow.put (h : t.IsRow r) (entries : List (String × Cell)) : t.IsRow (t.put entries r) := by
  refine ⟨length_put h.length, List.ext_getElem? fun i => ?_⟩
  unfold Table.stored Table.put
  rw [List.getElem?_zipWith, List.getElem?_zipWith]
  cases hc : t.columns[i]? with
  | none => rfl
  | some c =>
    obtain ⟨x, hx, hstore⟩ := h.getElem? hc
    rw [hx]
    show some (c.affinity.store (match cellNamed? entries c.name with
      | some v => c.affinity.store v
      | none => x)) = some _
    cases cellNamed? entries c.name with
    | none => exact congrArg some hstore
    | some v => exact congrArg some (c.affinity.store_store v)

/-- **A change sets cells by name.** -/
theorem changedRow_eq (hd : t.Distinct) {supplied : List Cell} {sets : List (Nat × Expr Nat)}
    (hsets : sets.map (fun a => (a.1, a.2.eval t.columns supplied r)) =
      entries.map fun e => (t.place e.1, e.2))
    (hnames : (entries.map fun e => e.1.toLower).Nodup) (hhas : ∀ e ∈ entries, t.Has e.1)
    (hr : t.IsRow r) : t.changedRow supplied sets r = t.put entries r := by
  have hfold : sets.foldl (fun new a => new.set a.1 (a.2.eval t.columns supplied r)) r =
      (entries.map fun e => (t.place e.1, e.2)).foldl (fun new p => new.set p.1 p.2) r := by
    rw [← hsets, List.foldl_map]
  have hnodup : ((entries.map fun e => (t.place e.1, e.2)).map Prod.fst).Nodup := by
    have hplaces : ((entries.map Prod.fst).map t.place).Nodup := by
      refine nodup_places ?_ fun n hn => ?_
      · rw [List.map_map]
        exact hnames
      · obtain ⟨e, he, rfl⟩ := List.mem_map.mp hn
        exact hhas e he
    rw [List.map_map] at hplaces ⊢
    exact hplaces
  show t.stored (sets.foldl (fun new a => new.set a.1 (a.2.eval t.columns supplied r)) r) = _
  rw [hfold]
  refine List.ext_getElem? fun i => ?_
  unfold Table.stored Table.put
  rw [List.getElem?_zipWith, List.getElem?_zipWith]
  cases hc : t.columns[i]? with
  | none => rfl
  | some c =>
    obtain ⟨x, hx, hstore⟩ := hr.getElem? hc
    rw [getElem?_foldl_set hnodup, find?_places hd hc hhas, hx]
    dsimp only
    cases cellNamed? entries c.name with
    | none => exact congrArg some hstore
    | some v => rfl

/-! ## 3. Insertions and changes -/

theorem insert_eq {columns : List Nat} {values : List Cell} {t' : Table}
    (h : t.insert columns values = .ok t') :
    t' = { t with rows := t.rows ++ [t.stored (t.newRow columns values)] } := by
  obtain ⟨u, -, hrest⟩ := ok_of_bind h
  cases hrest
  rfl

theorem updateRows_eq {supplied : List Cell} {sets : List (Nat × Expr Nat)}
    {picked : List Cell → Bool} {done rows all : List (List Cell)} {count : Nat}
    (h : t.updateRows supplied sets picked done rows = .ok (all, count)) :
    all = done ++ rows.map fun r =>
      if picked r then t.changedRow supplied sets r else r := by
  induction rows generalizing done count with
  | nil =>
    cases h
    simp
  | cons r rows ih =>
    unfold updateRows at h
    by_cases hpicked : picked r = true
    · rw [if_pos hpicked] at h
      dsimp only at h
      split at h
      · cases h
      · obtain ⟨⟨all', count'⟩, hrest, heq⟩ := ok_of_map h
        cases heq
        rw [ih hrest, List.map_cons, if_pos hpicked, List.append_assoc, List.singleton_append]
    · rw [if_neg hpicked] at h
      rw [ih h, List.map_cons, if_neg hpicked, List.append_assoc, List.singleton_append]

theorem updateRows_count {supplied : List Cell} {sets : List (Nat × Expr Nat)}
    {picked : List Cell → Bool} {done rows all : List (List Cell)} {count : Nat}
    (h : t.updateRows supplied sets picked done rows = .ok (all, count)) :
    count = (rows.filter picked).length := by
  induction rows generalizing done count with
  | nil =>
    cases h
    rfl
  | cons r rows ih =>
    unfold updateRows at h
    by_cases hpicked : picked r = true
    · rw [if_pos hpicked] at h
      dsimp only at h
      split at h
      · cases h
      · obtain ⟨⟨all', count'⟩, hrest, heq⟩ := ok_of_map h
        cases heq
        rw [ih hrest, List.filter_cons_of_pos hpicked, List.length_cons]
    · rw [if_neg hpicked] at h
      rw [ih h, List.filter_cons_of_neg hpicked]

/-- A change that succeeds counts the rows that were picked. -/
theorem update_count {supplied : List Cell} {sets : List (Nat × Expr Nat)}
    {picked : List Cell → Bool} {t' : Table} {count : Nat}
    (h : t.update supplied sets picked = .ok (t', count)) :
    count = (t.rows.filter picked).length := by
  obtain ⟨⟨rows, n⟩, hrows, heq⟩ := ok_of_map h
  cases heq
  exact updateRows_count hrows

/-- A change that succeeds changes the rows that were picked. -/
theorem update_eq {supplied : List Cell} {sets : List (Nat × Expr Nat)}
    {picked : List Cell → Bool} {t' : Table} {count : Nat}
    (h : t.update supplied sets picked = .ok (t', count)) :
    t' = { t with rows := t.rows.map (fun r =>
      if picked r then t.changedRow supplied sets r else r) } := by
  obtain ⟨⟨rows, n⟩, hrows, heq⟩ := ok_of_map h
  cases heq
  rw [updateRows_eq hrows]
  rfl

end Table

/-! ## 4. Conditions -/

/-- The names in an expression. -/
def Expr.names {ν : Type} : Expr ν → List ν
  | .column name => [name]
  | .parameter _ => []
  | .constant _ => []
  | .compare _ l r => l.names ++ r.names
  | .isNull e => e.names
  | .not e => e.names
  | .and l r => l.names ++ r.names
  | .or l r => l.names ++ r.names

variable {t : Table} {r supplied : List Cell}

/-- An expression whose names are columns is resolved by their places. -/
theorem Expr.resolve_eq {e : Expr Name} (h : ∀ c ∈ e.plain.names, t.Has c) :
    e.resolve t = .ok (e.plain.map t.place) := by
  have hpair : ∀ {l r : Expr Name}, (∀ c ∈ l.plain.names ++ r.plain.names, t.Has c) →
      (∀ c ∈ l.plain.names, t.Has c) ∧ (∀ c ∈ r.plain.names, t.Has c) := fun h =>
    ⟨fun c hc => h c (List.mem_append_left _ hc), fun c hc => h c (List.mem_append_right _ hc)⟩
  induction e with
  | column name =>
    have hindex := (h name.text List.mem_cons_self).index?
    simp only [resolve, hindex]
    rfl
  | parameter i => rfl
  | constant c => rfl
  | compare op l r ihl ihr =>
    rw [resolve, ihl (hpair h).1, ihr (hpair h).2]
    rfl
  | isNull e ih =>
    rw [resolve, ih h]
    rfl
  | not e ih =>
    rw [resolve, ih h]
    rfl
  | and l r ihl ihr =>
    rw [resolve, ihl (hpair h).1, ihr (hpair h).2]
    rfl
  | or l r ihl ihr =>
    rw [resolve, ihl (hpair h).1, ihr (hpair h).2]
    rfl

theorem Cell.truth_ofTruth (o : Option Bool) : (Cell.ofTruth o).truth = o := by
  match o with
  | none => rfl
  | some true => rfl
  | some false => rfl

theorem truthAnd_eq_true {x y : Option Bool} :
    truthAnd x y = some true ↔ x = some true ∧ y = some true := by
  unfold truthAnd
  split <;> simp_all

theorem truthOr_eq_true {x y : Option Bool} :
    truthOr x y = some true ↔ x = some true ∨ y = some true := by
  unfold truthOr
  split <;> simp_all

namespace Atom

/-- The column of a condition. -/
def column : Atom → String
  | .compare c _ => c
  | .notBefore c => c

/-- A condition holds of a row, for a value. -/
def holds (t : Table) (r : List Cell) (v : Cell) : Atom → Bool
  | .compare c op => compareCells op (some (t.affinityOf c)) (t.cell r c) v = some true
  | .notBefore c => compareCells .ge (some (t.affinityOf c)) (t.cell r c) v = some true ||
      (t.cell r c).isNull

theorem holds_compare {c : String} {op : Relation} {v : Cell} :
    (compare c op).holds t r v = true ↔
      compareCells op (some (t.affinityOf c)) (t.cell r c) v = some true :=
  decide_eq_true_iff

theorem holds_notBefore {c : String} {v : Cell} : (notBefore c).holds t r v = true ↔
    compareCells .ge (some (t.affinityOf c)) (t.cell r c) v = some true ∨ t.cell r c = .null := by
  unfold holds
  rw [Bool.or_eq_true, decide_eq_true_iff]
  simp only [Cell.isNull, decide_eq_true_eq]

theorem names_expr {a : Atom} {n : Nat} : ∀ c ∈ (a.expr n).names, c = a.column := by
  cases a <;> simp [expr, Expr.names, column]

theorem truth_expr {a : Atom} (h : t.Has a.column) (n : Nat) :
    (((a.expr n).map t.place).eval t.columns supplied r).truth = some true ↔
      a.holds t r (supplied.getD n .null) = true := by
  have haff : ∀ c, t.Has c →
      Expr.affinity? t.columns (.column (t.place c)) = some (t.affinityOf c) := by
    intro c hc
    obtain ⟨d, hd, -⟩ := hc.column
    show t.columns[t.place c]?.map Column.affinity = _
    rw [Table.affinityOf, hd]
    rfl
  have hcompare : ∀ c op, t.Has c →
      (((Expr.compare op (.column c) (.parameter n)).map t.place).eval t.columns supplied r).truth =
        compareCells op (some (t.affinityOf c)) (t.cell r c) (supplied.getD n .null) := by
    intro c op hc
    show (Cell.ofTruth (compareCells op (Affinity.common
      (Expr.affinity? t.columns (.column (t.place c))) none) _ _)).truth = _
    rw [Cell.truth_ofTruth, haff c hc]
    rfl
  cases a with
  | compare c op =>
    show (((Expr.compare op (.column c) (.parameter n)).map t.place).eval _ _ _).truth = _ ↔ _
    rw [hcompare c op h, holds, decide_eq_true_eq]
  | notBefore c =>
    show (Cell.ofTruth (truthOr
      (((Expr.compare .ge (.column c) (.parameter n)).map t.place).eval t.columns supplied r).truth
      (Cell.ofTruth (some (t.cell r c).isNull)).truth)).truth = _ ↔ _
    rw [Cell.truth_ofTruth, Cell.truth_ofTruth, truthOr_eq_true, hcompare c .ge h, holds,
      Bool.or_eq_true, decide_eq_true_eq, Option.some.injEq]

theorem names_conj {as : List Atom} {e : Expr String} {n : Nat} :
    ∀ c ∈ (conj e n as).names, c ∈ e.names ∨ ∃ a ∈ as, c = a.column := by
  induction as generalizing e n with
  | nil => exact fun c hc => .inl hc
  | cons a as ih =>
    intro c hc
    obtain hleft | ⟨b, hb, hcb⟩ := ih c hc
    · obtain hleft | hright := List.mem_append.mp hleft
      · exact .inl hleft
      · exact .inr ⟨a, List.mem_cons_self, names_expr c hright⟩
    · exact .inr ⟨b, List.mem_cons_of_mem _ hb, hcb⟩

theorem drop_eq_getD_cons {n : Nat} (h : n < supplied.length) :
    supplied.drop n = supplied.getD n .null :: supplied.drop (n + 1) := by
  rw [List.drop_eq_getElem_cons h, List.getD_eq_getElem?_getD, List.getElem?_eq_getElem h]
  rfl

theorem truth_conj {as : List Atom} {e : Expr String} {n : Nat} (h : ∀ a ∈ as, t.Has a.column)
    (hlen : n + as.length ≤ supplied.length) :
    (((conj e n as).map t.place).eval t.columns supplied r).truth = some true ↔
      ((e.map t.place).eval t.columns supplied r).truth = some true ∧
        ∀ p ∈ as.zip (supplied.drop n), p.1.holds t r p.2 = true := by
  induction as generalizing e n with
  | nil => simp [conj]
  | cons a as ih =>
    rw [List.length_cons] at hlen
    have hdrop : supplied.drop n = _ := drop_eq_getD_cons (by omega)
    have hand : (((Expr.and e (a.expr n)).map t.place).eval t.columns supplied r).truth = some true ↔
        ((e.map t.place).eval t.columns supplied r).truth = some true ∧
          a.holds t r (supplied.getD n .null) = true := by
      show (Cell.ofTruth (truthAnd _ _)).truth = _ ↔ _
      rw [Cell.truth_ofTruth, truthAnd_eq_true, truth_expr (h a List.mem_cons_self)]
    rw [conj, ih (fun b hb => h b (List.mem_cons_of_mem _ hb)) (by omega), hand, hdrop,
      List.zip_cons_cons, List.forall_mem_cons, and_assoc]

end Atom

/-- A row that fits a conjunction fits its first part. -/
theorem Table.fits_left {e e' : Expr Nat} (h : t.fits supplied (some (.and e e')) r = true) :
    t.fits supplied (some e) r = true := by
  have htruth : (Cell.ofTruth (truthAnd (e.eval t.columns supplied r).truth
      (e'.eval t.columns supplied r).truth)).truth = some true := of_decide_eq_true h
  rw [Cell.truth_ofTruth, truthAnd_eq_true] at htruth
  exact decide_eq_true htruth.1

/-- **A row fits conditions if each holds of it**, for its own value. -/
theorem Table.fits_iff {a : Atom} {as : List Atom} {n : Nat} {e : Expr Name} {e' : Expr Nat}
    (he : e.plain = Atom.conj (a.expr n) (n + 1) as) (hresolve : e.resolve t = .ok e')
    (h : ∀ b ∈ a :: as, t.Has b.column) (hlen : n + (a :: as).length ≤ supplied.length) :
    t.fits supplied (some e') r = true ↔
      ∀ p ∈ (a :: as).zip (supplied.drop n), p.1.holds t r p.2 = true := by
  have ha := h a List.mem_cons_self
  have has := fun b hb => h b (List.mem_cons_of_mem a hb)
  rw [List.length_cons] at hlen
  have hnames : ∀ c ∈ e.plain.names, t.Has c := by
    intro c hc
    rw [he] at hc
    obtain hleft | ⟨b, hb, rfl⟩ := Atom.names_conj c hc
    · rw [Atom.names_expr c hleft]
      exact ha
    · exact has b hb
  rw [Expr.resolve_eq hnames, he] at hresolve
  cases hresolve
  have hdrop : supplied.drop n = _ := Atom.drop_eq_getD_cons (by omega)
  unfold fits
  rw [decide_eq_true_eq, Atom.truth_conj has (by omega), Atom.truth_expr ha, hdrop, List.zip_cons_cons,
    List.forall_mem_cons]

/-! ## 5. Assignments -/

/-- The assignments of a change by places, and their columns are there. -/
theorem assignmentPlaces_ok {t : Table} {sets : List (Name × Expr Name)}
    {sets' : List (Nat × Expr Nat)} {columns : List String} {n : Nat}
    (h : assignmentPlaces t sets = .ok sets')
    (hplain : sets.map Reader.plainAssignment = Reader.assignmentsFrom n columns) :
    (∀ c ∈ columns, t.Has c) ∧
      sets' = Reader.numbered (fun c k => (t.place c, .parameter k)) 1 n columns := by
  induction columns generalizing sets sets' n with
  | nil =>
    obtain rfl := List.map_eq_nil_iff.mp hplain
    cases h
    exact ⟨List.forall_mem_nil _, rfl⟩
  | cons c columns ih =>
    cases sets with
    | nil => cases hplain
    | cons a sets =>
      obtain ⟨hhead, htail⟩ := List.cons.inj hplain
      obtain ⟨name, value⟩ := a
      obtain ⟨e, he, hrest⟩ := ok_of_bind h
      have hname : name.text = c := congrArg Prod.fst hhead
      have hvalue : value.plain = .parameter n := congrArg Prod.snd hhead
      rw [Expr.resolve_eq (by rw [hvalue]; exact fun c hc => nomatch hc), hvalue] at he
      cases he
      cases hindex : t.index? name.text with
      | none =>
        simp only [hindex] at hrest
        cases hrest
      | some i =>
        simp only [hindex] at hrest
        obtain ⟨rest, hplaces, heq⟩ := ok_of_bind hrest
        cases heq
        obtain ⟨hhas, hplace⟩ := Table.has_of_index? hindex
        obtain ⟨hhas', rfl⟩ := ih hplaces htail
        rw [hname] at hhas hplace
        refine ⟨List.forall_mem_cons.mpr ⟨hhas, hhas'⟩, ?_⟩
        rw [← hplace]
        rfl

end RowHistory.Sql
