import RowHistory.Proofs.Connection.Transactional

/-!
# What commands do to a table

A command that succeeds found its table and all of its names there, and did one thing to that
table. This file fixes what a success means for each command: a selection gives a row and changes
nothing (`select_ok`), an insertion adds a row (`insert_ok`), a change replaces the table by the
changed one (`update_ok`), and a purge ends rows (`Layout.purged_cases`).
-/

namespace RowHistory.Sql

/-- What succeeds got what its first step gave. -/
theorem ok_of_bind {ε α β : Type} {x : Except ε α} {f : α → Except ε β} {b : β}
    (h : (x >>= f) = .ok b) : ∃ a, x = .ok a ∧ f a = .ok b := by
  cases x with
  | error e => cases h
  | ok a => exact ⟨a, rfl, h⟩

theorem toOption_eq_some {ε α : Type} {x : Except ε α} {a : α} : x.toOption = some a ↔ x = .ok a := by
  cases x with
  | error e => exact ⟨(nomatch ·), (nomatch ·)⟩
  | ok b => exact ⟨fun h => congrArg Except.ok (Option.some.inj h), fun h => congrArg some (Except.ok.inj h)⟩

theorem ok_of_map {ε α β : Type} {x : Except ε α} {f : α → β} {b : β}
    (h : x.map f = .ok b) : ∃ a, x = .ok a ∧ f a = b := by
  cases x with
  | error e => cases h
  | ok a => exact ⟨a, rfl, Except.ok.inj h⟩

/-! ## 1. Tables by name -/

theorem sameName_iff {a b : String} : sameName a b = true ↔ a.toLower = b.toLower :=
  decide_eq_true_iff

theorem sameName_refl (a : String) : sameName a a = true :=
  sameName_iff.mpr rfl

namespace Database

variable {db db' : Database} {t : Table} {p : Path}

/-- Names that are the same lead to one table. -/
theorem find?_congr {a b : String} (h : sameName a b = true) : db.find? a = db.find? b := by
  unfold find? sameName
  rw [sameName_iff.mp h]

/-- A table that is found by one name is found by its own. -/
theorem find?_name {name : String} (h : db.find? name = some t) :
    sameName t.name name = true ∧ db.find? t.name = some t := by
  have hsame : sameName t.name name = true := by
    have hfound := List.find?_some h
    exact hfound
  exact ⟨hsame, (find?_congr hsame).trans h⟩

/-- One database has a table in the place of another's, and all other tables are the same. -/
structure Sets (db db' : Database) (name : String) (t : Table) : Prop where
  table : db'.find? name = some t
  others : ∀ other, sameName other name = false → db'.find? other = db.find? other

theorem Sets.refl {name : String} (h : db.find? name = some t) : db.Sets db name t :=
  ⟨h, fun _ _ => rfl⟩

theorem Sets.trans {db'' : Database} {name : String} {t' : Table} (h : db.Sets db' name t)
    (h' : db'.Sets db'' name t') : db.Sets db'' name t' :=
  ⟨h'.table, fun other hother => (h'.others other hother).trans (h.others other hother)⟩

/-- A table that is put in the place of the one of its name is found by each of its names. -/
theorem find?_replace (db : Database) (t : Table) (name : String) :
    (db.replace t).find? name =
      (db.find? name).map fun u => if sameName u.name t.name then t else u := by
  have hcomp : ((fun u : Table => sameName u.name name) ∘
      fun u => if sameName u.name t.name then t else u) = fun u => sameName u.name name := by
    funext u
    show sameName (if sameName u.name t.name then t else u).name name = sameName u.name name
    split
    · rename_i hu
      unfold sameName
      rw [sameName_iff.mp hu]
    · rfl
  unfold find? replace
  rw [List.find?_map, hcomp]

theorem sets_replace {name : String} {t' : Table} (h : db.find? name = some t)
    (hname : t'.name = t.name) : db.Sets (db.replace t') name t' := by
  have hsame := (find?_name h).1
  refine ⟨?_, fun other hother => ?_⟩
  · rw [find?_replace, h, hname]
    exact congrArg some (if_pos (sameName_refl t.name))
  · rw [find?_replace]
    cases hfind : db.find? other with
    | none => rfl
    | some u =>
      have hu := (find?_name hfind).1
      have hne : ¬ sameName u.name t'.name = true := by
        intro heq
        rw [sameName_iff] at hsame hu heq
        rw [← Bool.not_eq_true, sameName_iff] at hother
        exact hother (by rw [← hu, heq, hname, hsame])
      exact congrArg some (if_neg hne)

theorem lookup_ok (h : db.lookup p = .ok t) :
    inMain p = true ∧ db.find? p.table.text = some t := by
  unfold lookup at h
  by_cases hmain : inMain p = true
  · rw [if_pos hmain] at h
    cases hfind : db.find? p.table.text with
    | none =>
      rw [hfind] at h
      cases h
    | some u =>
      rw [hfind] at h
      cases h
      exact ⟨hmain, rfl⟩
  · rw [if_neg hmain] at h
    cases h

/-! ## 2. Commands -/

/-- A statement that succeeds was planned, got as many values as it has placeholders, and ran. -/
theorem perform_ok {sql : String} {supplied : List Cell} {r : Command.Reading} {answer : Answer}
    (hread : Command.read sql = .ok r) (h : db.perform sql supplied = .ok (answer, db')) :
    ∃ plan, db.plan r.command = .ok plan ∧ supplied.length = r.parameters ∧
      plan.run supplied db = .ok (answer, db') := by
  unfold perform at h
  rw [hread] at h
  cases hplan : db.plan r.command with
  | error e =>
    simp only [hplan] at h
    cases h
  | ok plan =>
    simp only [hplan] at h
    by_cases hlen : supplied.length = r.parameters
    · rw [if_pos hlen] at h
      exact ⟨plan, rfl, hlen, h⟩
    · rw [if_neg hlen] at h
      cases h

variable {supplied : List Cell} {answer : Answer} {plan : Plan}

/-- **A selection that succeeds changes nothing** and gives the first row of its table, if there
is one. -/
theorem select_ok {e o : Expr Name} (hplan : db.plan (.select p (some e) (some o)) = .ok plan)
    (h : plan.run supplied db = .ok (answer, db')) :
    ∃ t e' o', inMain p = true ∧ db.find? p.table.text = some t ∧ e.resolve t = .ok e' ∧
      o.resolve t = .ok o' ∧ db' = db ∧
      answer = (match t.first? supplied (some e') (some o') with
        | some row => .row ((t.columns.map Column.name).zip row)
        | none => .done) := by
  obtain ⟨t, ht, hplan⟩ := ok_of_bind hplan
  obtain ⟨c, hc, hplan⟩ := ok_of_bind hplan
  obtain ⟨k, hk, hplan⟩ := ok_of_bind hplan
  obtain ⟨e', he, rfl⟩ := ok_of_map hc
  obtain ⟨o', ho, rfl⟩ := ok_of_map hk
  obtain ⟨hmain, hfind⟩ := lookup_ok ht
  cases hplan
  simp only [Plan.run, (find?_name hfind).2] at h
  cases hfirst : t.first? supplied (some e') (some o') with
  | none =>
    rw [hfirst] at h
    cases h
    exact ⟨t, e', o', hmain, hfind, he, ho, rfl, by rw [hfirst]⟩
  | some row =>
    rw [hfirst] at h
    cases h
    exact ⟨t, e', o', hmain, hfind, he, ho, rfl, by rw [hfirst]⟩

/-- **An insertion that succeeds adds a row to its table.** -/
theorem insert_ok {names : List Name} {values : List (Expr Name)}
    (hplan : db.plan (.insert p names values) = .ok plan)
    (h : plan.run supplied db = .ok (answer, db')) :
    ∃ t places es t', inMain p = true ∧ db.find? p.table.text = some t ∧
      insertPlaces t p names = .ok places ∧ values.mapM (fun e => e.resolve t) = .ok es ∧
      t.insert places (es.map (Expr.eval [] supplied [])) = .ok t' ∧ db' = db.replace t' := by
  obtain ⟨t, ht, hplan⟩ := ok_of_bind hplan
  obtain ⟨places, hplaces, hplan⟩ := ok_of_bind hplan
  obtain ⟨es, hes, hplan⟩ := ok_of_bind hplan
  obtain ⟨hmain, hfind⟩ := lookup_ok ht
  cases hplan
  simp only [Plan.run, (find?_name hfind).2] at h
  obtain ⟨t', ht', heq⟩ := ok_of_map h
  cases heq
  exact ⟨t, places, es, t', hmain, hfind, hplaces, hes, ht', rfl⟩

/-- **A change that succeeds puts the changed table in the place of the old one.** -/
theorem update_ok {sets : List (Name × Expr Name)} {e : Expr Name}
    (hplan : db.plan (.update p sets (some e)) = .ok plan)
    (h : plan.run supplied db = .ok (answer, db')) :
    ∃ t sets' e' t' count, inMain p = true ∧ db.find? p.table.text = some t ∧
      assignmentPlaces t sets = .ok sets' ∧ e.resolve t = .ok e' ∧
      t.update supplied sets' (t.fits supplied (some e')) = .ok (t', count) ∧ db' = db.replace t' ∧
      answer = .changed count := by
  obtain ⟨t, ht, hplan⟩ := ok_of_bind hplan
  obtain ⟨sets', hsets, hplan⟩ := ok_of_bind hplan
  obtain ⟨c, hc, hplan⟩ := ok_of_bind hplan
  obtain ⟨e', he, rfl⟩ := ok_of_map hc
  obtain ⟨hmain, hfind⟩ := lookup_ok ht
  cases hplan
  simp only [Plan.run, (find?_name hfind).2] at h
  obtain ⟨⟨t', count⟩, ht', heq⟩ := ok_of_map h
  cases heq
  exact ⟨t, sets', e', t', count, hmain, hfind, hsets, he, ht', rfl, rfl⟩

end Database

end RowHistory.Sql

namespace RowHistory

open Sql

/-! ## 3. Purges -/

/-- **A purge that succeeds is a statement of the layout, or it ended the rows that the database
picked.** -/
theorem Layout.purged_cases {l : Layout} {judge : Judge} {condition : Option String} {sql : String}
    {supplied : List Cell} {db db' : Database} {answer : Answer}
    (h : l.purged judge condition sql supplied db = some (answer, db')) :
    (Layout.trimmedCondition condition = none ∧ db.perform sql supplied = .ok (answer, db')) ∨
    ∃ picked t column t' count, Layout.trimmedCondition condition ≠ none ∧
      judge sql supplied db = some picked ∧ db.find? l.table = some t ∧
      t.index? l.names.validTo = some column ∧
      t.update supplied [(column, .parameter 0)] picked = .ok (t', count) ∧
      answer = .changed count ∧ db' = db.replace t' := by
  unfold Layout.purged at h
  cases htrimmed : Layout.trimmedCondition condition with
  | none =>
    rw [htrimmed] at h
    exact .inl ⟨rfl, toOption_eq_some.mp h⟩
  | some _ =>
    rw [htrimmed] at h
    obtain ⟨picked, hpicked, h⟩ := Option.bind_eq_some_iff.mp h
    obtain ⟨t, ht, h⟩ := Option.bind_eq_some_iff.mp h
    obtain ⟨column, hcolumn, h⟩ := Option.bind_eq_some_iff.mp h
    obtain ⟨⟨t', count⟩, hupdate, h⟩ := Option.bind_eq_some_iff.mp h
    cases h
    exact .inr ⟨picked, t, column, t', count, nofun, hpicked, ht, hcolumn,
      toOption_eq_some.mp hupdate, rfl, rfl⟩

end RowHistory
