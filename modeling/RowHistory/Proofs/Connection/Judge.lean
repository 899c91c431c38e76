import RowHistory.Proofs.Sql.Tables
import RowHistory.Proofs.Statement.Commands

/-!
# What a store makes of a purge

A store reads the condition of a purge like everything else. It picks the rows that fit what it read
(`Store.judge`), and ending these is all that the statement does (`Store.purged_eq`): whatever the
condition is, the text in front of it has the table and the one column that is set.
-/

namespace RowHistory

open Sql

/-- A store picks the rows that fit the condition of a change, if it can run the change. -/
def Store.judge : Judge := fun sql supplied db => do
  let reading ← (Command.read sql).toOption
  let _ ← (db.perform sql supplied).toOption
  match reading.command with
  | .update path _ (some e) => do
    let t ← (db.lookup path).toOption
    let e ← (e.resolve t).toOption
    return t.fits supplied (some e)
  | _ => none

/-- What a store picks fits the condition that it read. -/
theorem Store.judge_some {sql : String} {supplied : List Cell} {db : Database}
    {picked : List Cell → Bool} (h : Store.judge sql supplied db = some picked) :
    ∃ reading path sets e t e', Command.read sql = .ok reading ∧
      reading.command = .update path sets (some e) ∧ db.lookup path = .ok t ∧
      e.resolve t = .ok e' ∧ picked = t.fits supplied (some e') := by
  obtain ⟨reading, hread, h⟩ := Option.bind_eq_some_iff.mp h
  obtain ⟨_, -, h⟩ := Option.bind_eq_some_iff.mp h
  split at h
  · rename_i path sets e hcommand
    obtain ⟨t, ht, h⟩ := Option.bind_eq_some_iff.mp h
    obtain ⟨e', he, h⟩ := Option.bind_eq_some_iff.mp h
    exact ⟨reading, path, sets, e, t, e', toOption_eq_some.mp hread, hcommand,
      toOption_eq_some.mp ht, toOption_eq_some.mp he, (Option.some.inj h).symm⟩
  · cases h

/-- **A purge on a store does what its statement does**, whatever its condition. -/
theorem Store.purged_eq {l : Layout} {condition : Option String} {st : Statement}
    (hst : l.purge condition = .ok st) (supplied : List Cell) (db : Database) :
    l.purged Store.judge condition st.sql supplied db = (db.perform st.sql supplied).toOption := by
  unfold Layout.purged
  cases Layout.trimmedCondition condition with
  | none => rfl
  | some _ =>
    cases hread : Command.read st.sql with
    | error e => simp [Store.judge, Database.perform, hread, Except.toOption]
    | ok reading =>
      cases hperf : db.perform st.sql supplied with
      | error e => simp [Store.judge, hread, hperf, Except.toOption]
      | ok result =>
        obtain ⟨answer, db'⟩ := result
        obtain ⟨p, sets, e, hcommand, hp, hsets⟩ := read_purge_ok hst hread
        obtain ⟨plan, hplan, -, hrun⟩ := Database.perform_ok hread hperf
        rw [hcommand] at hplan
        obtain ⟨t, sets', e', t', count, hmain, hfind, hplaces, hresolve, hupdate, rfl, rfl⟩ :=
          Database.update_ok hplan hrun
        obtain ⟨hhas, rfl⟩ := assignmentPlaces_ok hplaces hsets
        have hlookup : db.lookup p = .ok t := by
          unfold Database.lookup
          rw [if_pos hmain, hfind]
        have hjudge : Store.judge st.sql supplied db = some (t.fits supplied (some e')) := by
          simp [Store.judge, hread, hperf, hcommand, hlookup, hresolve, Except.toOption]
        have hupdated : t.update supplied [(t.place l.names.validTo, .parameter 0)]
            (t.fits supplied (some e')) = .ok (t', count) := hupdate
        rw [hp.2] at hfind
        simp only [hjudge, hfind, (hhas _ List.mem_cons_self).index?, Option.bind_eq_bind,
          Option.bind_some, toOption_eq_some.mpr hupdated]
        rfl

end RowHistory
