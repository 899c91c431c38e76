import RowHistory.Comparison
import RowHistory.Proofs.Sql.Tables
import Mathlib.Data.List.Induction

/-!
# Values of rows

What a row gives after a field was set, what a comparison reads of rows, and what comes back of a stored
row by the names of its columns.
-/

namespace RowHistory

namespace Assoc

variable {α : Type}

theorem find?_insert (name : String) (a : α) (entries : List (String × α)) (other : String) :
    find? other (insert name a entries) = if other = name then some a else find? other entries := by
  induction entries with
  | nil =>
    unfold insert find?
    by_cases h : other = name
    · rw [if_pos h.symm, if_pos h]
    · rw [if_neg (Ne.symm h), if_neg h]
      rfl
  | cons e entries ih =>
    obtain ⟨n, b⟩ := e
    unfold insert
    split
    · rename_i hn
      subst hn
      by_cases h : other = name
      · simp [find?, h]
      · simp [find?, h, Ne.symm h]
    · rename_i hn
      split
      · by_cases h : other = name
        · simp [find?, h]
        · simp [find?, h, Ne.symm h]
      · by_cases h : n = other
        · have hne : other ≠ name := fun heq => hn (h.trans heq).symm
          simp [find?, h, hne]
        · simp [find?, h, ih]

end Assoc

namespace Row

theorem value_set (r : Row) (name : String) (v : Value) (other : String) :
    (r.set name v).value other = if other = name then v else r.value other := by
  unfold value get? set
  rw [Assoc.find?_insert]
  split <;> rfl

/-- The value of a name among entries: the last one. -/
theorem value_ofList_concat (entries : List (String × Value)) (name : String) (v : Value)
    (other : String) : (ofList (entries ++ [(name, v)])).value other =
      if other = name then v else (ofList entries).value other := by
  unfold ofList
  rw [List.foldl_append]
  exact value_set _ _ _ _

/-- A row of entries gives one of them, or nothing. -/
theorem value_ofList (entries : List (String × Value)) (name : String) :
    (name, (ofList entries).value name) ∈ entries ∨ (ofList entries).value name = .null := by
  induction entries using List.reverseRecOn with
  | nil => exact .inr rfl
  | append_singleton entries e ih =>
    obtain ⟨n, v⟩ := e
    rw [value_ofList_concat]
    by_cases h : name = n
    · rw [if_pos h, h]
      exact .inl (List.mem_append_right _ List.mem_cons_self)
    · rw [if_neg h]
      exact ih.imp_left (List.mem_append_left _)

/-- A row of entries gives one of them for each of their names. -/
theorem value_ofList_of_mem {entries : List (String × Value)} {name : String}
    (h : name ∈ entries.map Prod.fst) : (name, (ofList entries).value name) ∈ entries := by
  induction entries using List.reverseRecOn with
  | nil => cases h
  | append_singleton entries e ih =>
    obtain ⟨n, v⟩ := e
    rw [value_ofList_concat]
    by_cases hn : name = n
    · rw [if_pos hn, hn]
      exact List.mem_append_right _ List.mem_cons_self
    · rw [if_neg hn]
      rw [List.map_append, List.map_singleton, List.mem_append, List.mem_singleton] at h
      exact List.mem_append_left _ (ih (h.resolve_right hn))

end Row

/-- A comparison of fields reads their values, and nothing else. -/
theorem anyFieldDiffers_congr {row row' stored stored' : Row} {fields : List Field}
    (h : ∀ f ∈ fields, row.value f.name = row'.value f.name ∧
      stored.value f.name = stored'.value f.name) :
    anyFieldDiffers row stored fields = anyFieldDiffers row' stored' fields := by
  induction fields with
  | nil => rfl
  | cons f fields ih =>
    obtain ⟨hf, hfields⟩ := List.forall_mem_cons.mp h
    simp only [anyFieldDiffers, Field.equal, hf.1, hf.2, ih hfields]

namespace Sql.Table

variable {t : Table} {r : List Cell}

theorem has_of_column {i : Nat} {c : Column} (hc : t.columns[i]? = some c) : t.Has c.name := by
  unfold Has index?
  rw [List.findIdx?_isSome, List.any_eq_true]
  exact ⟨c, List.mem_of_getElem? hc, sameName_refl c.name⟩

theorem value_of_entry (hd : t.Distinct) {name : String} {v : Value}
    (h : (name, v) ∈ ((t.columns.map Column.name).zip r).map fun e => (e.1, e.2.toValue)) :
    v = (t.cell r name).toValue := by
  obtain ⟨⟨n, x⟩, hmem, heq⟩ := List.mem_map.mp h
  obtain ⟨rfl, hvalue⟩ := Prod.mk.inj heq
  obtain ⟨i, hi⟩ := List.mem_iff_getElem?.mp hmem
  obtain ⟨hname, hx⟩ := List.getElem?_zip_eq_some.mp hi
  rw [List.getElem?_map] at hname
  obtain ⟨c, hc, hcn⟩ := Option.map_eq_some_iff.mp hname
  have hhas := has_of_column hc
  have hplace := (place_eq hd hc hhas).mpr (sameName_refl _)
  rw [hcn] at hplace
  have hcell : t.cell r n = x := by
    rw [cell, hplace, List.getD_eq_getElem?_getD, hx]
    rfl
  rw [hcell]
  exact hvalue.symm

/-- **What comes back of a stored row**: the cell of the column, or nothing if no column has just
this name. -/
theorem value_rowOfCells (hd : t.Distinct) (name : String) :
    (Store.rowOfCells ((t.columns.map Column.name).zip r)).value name = (t.cell r name).toValue ∨
      (Store.rowOfCells ((t.columns.map Column.name).zip r)).value name = .null :=
  (Row.value_ofList _ name).imp_left (value_of_entry hd)

/-- A column gives back its cell by just its name. -/
theorem value_rowOfCells_of_mem (hd : t.Distinct) (hr : t.IsRow r) {name : String}
    (h : name ∈ t.columns.map Column.name) :
    (Store.rowOfCells ((t.columns.map Column.name).zip r)).value name = (t.cell r name).toValue := by
  refine value_of_entry hd (Row.value_ofList_of_mem ?_)
  rw [List.map_map]
  show name ∈ ((t.columns.map Column.name).zip r).map Prod.fst
  rw [List.map_fst_zip (by rw [List.length_map, hr.length])]
  exact h

/-- A table has the columns whose names it has. -/
theorem has_of_name {name : String} (h : name ∈ t.columns.map Column.name) : t.Has name := by
  obtain ⟨c, hc, rfl⟩ := List.mem_map.mp h
  obtain ⟨i, hi⟩ := List.mem_iff_getElem?.mp hc
  exact has_of_column hi

end Sql.Table

end RowHistory
