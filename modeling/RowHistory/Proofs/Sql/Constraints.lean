import RowHistory.Proofs.Sql.Tables

/-!
# Tables that obey their constraints

A row enters a table only if it may stand beside the others, so a table that obeys its constraints
keeps doing so, whatever statements are performed. This file fixes

* that two rows repeat each other either way (`agree_comm`), and what a check says (`check_ok_iff`);
* tables without a null that must not be and without repeated values (`Table.Consistent`), which
  insertions and changes keep (`Consistent.concat`, `Consistent.updateRows`), and in which a cell may be
  set to a new value (`Consistent.check_set`);
* that every statement keeps a table consistent (`perform_consistent`), and so does every purge
  (`purged_consistent`).
-/

namespace RowHistory.Sql

open Binary

/-! ## 1. Rows that repeat each other -/

namespace Cell

theorem compare?_eq_none_comm {r s : Reading} : r.compare? s = none ↔ s.compare? r = none := by
  cases r <;> cases s <;> simp [Reading.compare?]

theorem compare?_eq_comm {r s : Reading} : r.compare? s = some .eq ↔ s.compare? r = some .eq := by
  rw [Reading.compare?_eq_iff, Reading.compare?_eq_iff]
  constructor
  · rintro ⟨hsome, heq⟩
    exact ⟨heq ▸ hsome, heq.symm⟩
  · rintro ⟨hsome, heq⟩
    exact ⟨heq ▸ hsome, heq.symm⟩

theorem getD_compare?_comm {r s : Reading} {o p : Ordering} (h : o = .eq ↔ p = .eq) :
    (r.compare? s).getD o = .eq ↔ (s.compare? r).getD p = .eq := by
  cases hrs : r.compare? s with
  | none =>
    rw [compare?_eq_none_comm.mp hrs]
    exact h
  | some a =>
    cases hsr : s.compare? r with
    | none =>
      rw [compare?_eq_none_comm.mp hsr] at hrs
      cases hrs
    | some b =>
      have hcomm := compare?_eq_comm (r := r) (s := s)
      rw [hrs, hsr, Option.some.injEq, Option.some.injEq] at hcomm
      exact hcomm

/-- Cells are equal for the database either way. -/
theorem order_eq_comm (c d : Cell) : c.order d = .eq ↔ d.order c = .eq := by
  have hcompare : ∀ a b : Nat, compare a b = .eq ↔ compare b a = .eq := fun a b => by
    rw [Nat.compare_eq_eq, Nat.compare_eq_eq, eq_comm]
  cases c with
  | integer n =>
    cases d with
    | integer m =>
      show compare n m = .eq ↔ compare m n = .eq
      rw [Int.compare_eq_eq, Int.compare_eq_eq, eq_comm]
    | real y => exact getD_compare?_comm (by simp)
    | null | text _ | blob _ => exact hcompare _ _
  | real x =>
    cases d with
    | integer m => exact getD_compare?_comm (by simp)
    | real y => exact getD_compare?_comm Iff.rfl
    | null | text _ | blob _ => exact hcompare _ _
  | text s =>
    cases d with
    | text u =>
      show compare s u = .eq ↔ compare u s = .eq
      rw [Std.LawfulEqOrd.compare_eq_iff_eq, Std.LawfulEqOrd.compare_eq_iff_eq, eq_comm]
    | null | integer _ | real _ | blob _ => exact hcompare _ _
  | blob b =>
    cases d with
    | blob b' =>
      show compare (b.map UInt8.toNat) (b'.map UInt8.toNat) = .eq ↔
        compare (b'.map UInt8.toNat) (b.map UInt8.toNat) = .eq
      rw [Std.LawfulEqOrd.compare_eq_iff_eq, Std.LawfulEqOrd.compare_eq_iff_eq, eq_comm]
    | null | integer _ | real _ | text _ => exact hcompare _ _
  | null => cases d <;> exact hcompare _ _

end Cell

namespace Table

variable {t : Table} {r r' : List Cell} {rows before after : List (List Cell)}

theorem agree_comm (columns : List Nat) (a b : List Cell) : agree columns a b = agree columns b a := by
  unfold agree
  refine congrArg columns.all (funext fun i => ?_)
  dsimp only
  rw [Bool.eq_iff_iff]
  simp only [Bool.and_eq_true, decide_eq_true_eq, Cell.order_eq_comm (a.getD i .null) (b.getD i .null)]
  exact and_congr_left fun _ => and_comm

/-- Two rows do not repeat each other in any group of columns whose values are unique. -/
def Apart (t : Table) (a b : List Cell) : Prop :=
  ∀ columns ∈ t.unique, agree columns a b = false

theorem Apart.symm {a b : List Cell} (h : t.Apart a b) : t.Apart b a :=
  fun columns hcolumns => (agree_comm columns b a).trans (h columns hcolumns)

/-- **What a check says**: no null that must not be, and no other row is repeated. -/
theorem check_ok_iff : t.check rows r = .ok () ↔
    t.nullColumn? r = none ∧ ∀ r' ∈ rows, t.Apart r r' := by
  have hrepeated : t.repeated? rows r = none ↔ ∀ r' ∈ rows, t.Apart r r' := by
    unfold repeated? Apart
    rw [Option.map_eq_none_iff, List.find?_eq_none]
    simp only [List.mem_reverse, List.any_eq_true, not_exists, not_and, Bool.not_eq_true]
    exact ⟨fun h r' hr' columns hcolumns => h columns hcolumns r' hr',
      fun h columns hcolumns r' hr' => h r' hr' columns hcolumns⟩
  rw [← hrepeated]
  unfold check
  cases t.nullColumn? r with
  | some c => simp
  | none => cases t.repeated? rows r <;> simp

/-! ## 2. Consistent tables -/

/-- The rows obey the constraints of a table. -/
structure Consistent (t : Table) (rows : List (List Cell)) : Prop where
  nulls : ∀ r ∈ rows, t.nullColumn? r = none
  apart : rows.Pairwise t.Apart

theorem consistent_nil (t : Table) : t.Consistent [] :=
  ⟨List.forall_mem_nil _, .nil⟩

/-- A row of consistent ones may stand beside the others. -/
theorem Consistent.check (h : t.Consistent (before ++ r :: after)) :
    t.check (before ++ after) r = .ok () := by
  obtain ⟨-, hafter, hbefore⟩ := List.pairwise_append.mp h.apart
  refine check_ok_iff.mpr ⟨h.nulls r (List.mem_append_right _ List.mem_cons_self), fun r' hr' => ?_⟩
  obtain hr' | hr' := List.mem_append.mp hr'
  · exact (hbefore r' hr' r List.mem_cons_self).symm
  · exact (List.pairwise_cons.mp hafter).1 r' hr'

/-- A row may take the place of another one. -/
theorem Consistent.set (h : t.Consistent (before ++ r :: after))
    (hcheck : t.check (before ++ after) r' = .ok ()) : t.Consistent (before ++ r' :: after) := by
  obtain ⟨hnull, hapart⟩ := check_ok_iff.mp hcheck
  obtain ⟨hbefore, hcons, hcross⟩ := List.pairwise_append.mp h.apart
  refine ⟨fun x hx => ?_, List.pairwise_append.mpr ⟨hbefore, List.pairwise_cons.mpr ⟨?_, ?_⟩, ?_⟩⟩
  · obtain hx | hx := List.mem_append.mp hx
    · exact h.nulls x (List.mem_append_left _ hx)
    · obtain rfl | hx := List.mem_cons.mp hx
      · exact hnull
      · exact h.nulls x (List.mem_append_right _ (List.mem_cons_of_mem _ hx))
  · exact fun x hx => hapart x (List.mem_append_right _ hx)
  · exact (List.pairwise_cons.mp hcons).2
  · intro x hx y hy
    obtain rfl | hy := List.mem_cons.mp hy
    · exact (hapart x (List.mem_append_left _ hx)).symm
    · exact hcross x hx y (List.mem_cons_of_mem _ hy)

/-- **A cell may be set to what no other row has there**, if it is not null. -/
theorem Consistent.check_set {i : Nat} {x : Cell} (h : t.Consistent (before ++ r :: after))
    (hnull : x ≠ .null) (hnew : ∀ r' ∈ before ++ after, x.order (r'.getD i .null) ≠ .eq) :
    t.check (before ++ after) (r.set i x) = .ok () := by
  obtain ⟨hnone, hapart⟩ := check_ok_iff.mp h.check
  by_cases hi : i < r.length
  · have hset : ∀ j, (r.set i x).getD j .null = if i = j then x else r.getD j .null := by
      intro j
      rw [List.getD_eq_getElem?_getD, List.getElem?_set, List.getD_eq_getElem?_getD]
      by_cases hij : i = j
      · rw [if_pos hij, if_pos (hij ▸ hi), if_pos hij]
        rfl
      · rw [if_neg hij, if_neg hij]
    refine check_ok_iff.mpr ⟨?_, fun r' hr' columns hcolumns => ?_⟩
    · unfold nullColumn? at hnone ⊢
      rw [Option.map_eq_none_iff, List.find?_eq_none] at hnone ⊢
      rintro ⟨c, y⟩ hmem
      obtain ⟨j, hj⟩ := List.mem_iff_getElem?.mp hmem
      obtain ⟨hc, hy⟩ := List.getElem?_zip_eq_some.mp hj
      rw [List.getElem?_set] at hy
      split at hy
      · obtain rfl : x = y := Option.some.inj hy
        simp [Cell.isNull, hnull]
      · exact hnone (c, y) (List.mem_of_getElem? (List.getElem?_zip_eq_some.mpr ⟨hc, hy⟩))
    · by_cases hmem : i ∈ columns
      · -- The row differs from the other one in the cell that is set.
        rw [← Bool.not_eq_true]
        intro hagree
        have hcell := List.all_eq_true.mp hagree i hmem
        simp only [hset, if_true, Bool.and_eq_true, decide_eq_true_eq] at hcell
        exact hnew r' hr' hcell.2
      · rw [← hapart r' hr' columns hcolumns]
        unfold agree
        rw [Bool.eq_iff_iff, List.all_eq_true, List.all_eq_true]
        refine forall₂_congr fun j hj => ?_
        have hne : i ≠ j := fun heq => hmem (heq ▸ hj)
        rw [hset, if_neg hne]
  · rw [List.set_eq_of_length_le (Nat.not_lt.mp hi)]
    exact h.check

/-- A row may be added. -/
theorem Consistent.concat (h : t.Consistent rows) (hcheck : t.check rows r = .ok ()) :
    t.Consistent (rows ++ [r]) := by
  obtain ⟨hnull, hapart⟩ := check_ok_iff.mp hcheck
  refine ⟨fun x hx => ?_, List.pairwise_append.mpr ⟨h.apart, List.pairwise_singleton _ _, ?_⟩⟩
  · obtain hx | hx := List.mem_append.mp hx
    · exact h.nulls x hx
    · exact List.mem_singleton.mp hx ▸ hnull
  · exact fun x hx y hy => List.mem_singleton.mp hy ▸ (hapart x hx).symm

/-- **A change keeps rows consistent**, since it checks each row that it changes. -/
theorem Consistent.updateRows {supplied : List Cell} {sets : List (Nat × Expr Nat)}
    {picked : List Cell → Bool} {done all : List (List Cell)} {count : Nat}
    (h : t.Consistent (done ++ rows))
    (hupdate : t.updateRows supplied sets picked done rows = .ok (all, count)) :
    t.Consistent all := by
  induction rows generalizing done count with
  | nil =>
    cases hupdate
    rwa [List.append_nil] at h
  | cons r rows ih =>
    have hshift : ∀ x : List Cell, done ++ x :: rows = done ++ [x] ++ rows := fun x => by
      rw [List.append_assoc, List.singleton_append]
    unfold Table.updateRows at hupdate
    split at hupdate
    · dsimp only at hupdate
      split at hupdate
      · cases hupdate
      · rename_i hcheck
        obtain ⟨⟨all', count'⟩, hrest, heq⟩ := ok_of_map hupdate
        cases heq
        exact ih (hshift _ ▸ h.set hcheck) hrest
    · exact ih (hshift r ▸ h) hupdate

theorem Consistent.insert {columns : List Nat} {values : List Cell} {t' : Table}
    (hinsert : t.insert columns values = .ok t') (h : t.Consistent t.rows) :
    t'.Consistent t'.rows := by
  obtain ⟨_, hcheck, hrest⟩ := ok_of_bind hinsert
  cases hrest
  have hrows := h.concat hcheck
  exact ⟨hrows.nulls, hrows.apart⟩

theorem Consistent.update {supplied : List Cell} {sets : List (Nat × Expr Nat)}
    {picked : List Cell → Bool} {t' : Table} {count : Nat}
    (hupdate : t.update supplied sets picked = .ok (t', count)) (h : t.Consistent t.rows) :
    t'.Consistent t'.rows := by
  obtain ⟨⟨rows, n⟩, hupdated, heq⟩ := ok_of_map hupdate
  cases heq
  have hall : t.Consistent ([] ++ t.rows) := h
  have hrows := hall.updateRows hupdated
  exact ⟨hrows.nulls, hrows.apart⟩

end Table

/-! ## 3. Statements -/

namespace Database

variable {db db' : Database} {name : String} {answer : Answer} {supplied : List Cell}

/-- The table of a name obeys its constraints, if there is one. -/
def ConsistentAt (db : Database) (name : String) : Prop :=
  ∀ t, db.find? name = some t → t.Consistent t.rows

/-- A consistent table may take the place of the one of its name. -/
theorem ConsistentAt.replace {t t' : Table} (h : db.ConsistentAt name)
    (hfind : db.find? t.name = some t) (hname : t'.name = t.name)
    (hrows : t.Consistent t.rows → t'.Consistent t'.rows) : (db.replace t').ConsistentAt name := by
  intro u hu
  rw [find?_replace] at hu
  obtain ⟨u', hu', rfl⟩ := Option.map_eq_some_iff.mp hu
  split
  · rename_i hsame
    have hfound : db.find? name = some t := by
      rw [← hfind, ← hname]
      exact find?_congr (sameName_iff.mpr ((sameName_iff.mp (find?_name hu').1).symm.trans
        (sameName_iff.mp hsame)))
    exact hrows (h t hfound)
  · exact h u' hu'

/-- What a plan does keeps a table consistent, if tables are created empty. -/
theorem ConsistentAt.run {plan : Plan} (h : db.ConsistentAt name)
    (hrun : plan.run supplied db = .ok (answer, db')) (hcreate : ∀ t, plan = .create t → t.rows = []) :
    db'.ConsistentAt name := by
  cases plan with
  | nothing | constant =>
    cases hrun
    exact h
  | select table condition order =>
    simp only [Plan.run] at hrun
    split at hrun
    · cases hrun
    · split at hrun <;>
      · cases hrun
        exact h
  | insert table columns values =>
    simp only [Plan.run] at hrun
    split at hrun
    · cases hrun
    · rename_i t hfind
      obtain ⟨t', hinsert, heq⟩ := ok_of_map hrun
      cases heq
      exact h.replace (find?_name hfind).2 (Table.insert_eq hinsert ▸ rfl) (Table.Consistent.insert hinsert)
  | update table assignments condition =>
    simp only [Plan.run] at hrun
    split at hrun
    · cases hrun
    · rename_i t hfind
      obtain ⟨⟨t', count⟩, hupdate, heq⟩ := ok_of_map hrun
      cases heq
      exact h.replace (find?_name hfind).2 (Table.update_eq hupdate ▸ rfl)
        (Table.Consistent.update hupdate)
  | create table =>
    cases hrun
    intro t ht
    unfold find? at ht
    rw [List.find?_append] at ht
    obtain ht | ⟨-, ht⟩ := Option.or_eq_some_iff.mp ht
    · exact h t ht
    · obtain rfl := List.mem_singleton.mp (List.mem_of_find?_eq_some ht)
      rw [hcreate t rfl]
      exact t.consistent_nil

theorem rows_of_plan {command : Command} {t : Table} (h : db.plan command = .ok (.create t)) :
    t.rows = [] := by
  cases command with
  | create ifNotExists path columns =>
    simp only [plan] at h
    split at h
    · split at h
      · cases h
      · split at h
        · split at h <;> cases h
        · split at h
          · cases h
          · cases h
            rfl
    · cases h
  | empty | pragma | selectConstant => cases h
  | attach file =>
    simp only [plan] at h
    split at h <;> cases h
  | select path condition order | insert path columns values | update path assignments condition =>
    obtain ⟨_, -, h⟩ := ok_of_bind h
    obtain ⟨_, -, h⟩ := ok_of_bind h
    obtain ⟨_, -, h⟩ := ok_of_bind h
    cases h

/-- **Every statement keeps a table consistent.** -/
theorem perform_consistent {sql : String} (h : db.ConsistentAt name)
    (hperform : db.perform sql supplied = .ok (answer, db')) : db'.ConsistentAt name := by
  cases hread : Command.read sql with
  | error e =>
    unfold perform at hperform
    rw [hread] at hperform
    cases hperform
  | ok r =>
    obtain ⟨plan, hplan, -, hrun⟩ := perform_ok hread hperform
    refine h.run hrun fun t ht => ?_
    rw [ht] at hplan
    exact rows_of_plan hplan

/-- A purge keeps a table consistent, whichever rows it picks. -/
theorem purged_consistent {l : Layout} {judge : Judge} {condition : Option String} {sql : String}
    (h : db.ConsistentAt name)
    (hpurged : l.purged judge condition sql supplied db = some (answer, db')) :
    db'.ConsistentAt name := by
  obtain ⟨-, hperform⟩ | ⟨picked, t, column, t', count, -, -, hfind, -, hupdate, -, rfl⟩ :=
    Layout.purged_cases hpurged
  · exact perform_consistent h hperform
  · exact h.replace (find?_name hfind).2 (Table.update_eq hupdate ▸ rfl)
      (Table.Consistent.update hupdate)

end Database

end RowHistory.Sql
