import RowHistory.Proofs.Connection.Store
import RowHistory.Proofs.Storage.Parallel

/-!
# Statements that are run on a new connection

A store may have statements to run whenever a connection is opened. Between two openings they do not
matter: the store answers like one without them (`Store.parallel_plain`). Each of them is a
transaction of its own, so that a connection which was opened sees what is committed then
(`Store.connect_sees`).
-/

namespace RowHistory

open Sql (Access Command)

namespace Sql.Access

variable {a a' : Access} {sql : String}

/-- A statement by itself leaves nothing pending. -/
theorem alone_ok {p : Plan} (h : a.alone p = (.ok (), a')) : a'.view = a'.file.content := by
  unfold alone at h
  split at h
  · cases h
  · split at h
    · cases h
    · rename_i hcommit
      cases h
      obtain ⟨hcontent, hview⟩ := (commit_cases hcommit).2 rfl
      rw [hview, hcontent]

theorem batchWith_ok {fuel : Nat} (h : a.batchWith fuel sql = (.ok (), a'))
    (ha : a.view = a.file.content) : a'.view = a'.file.content := by
  induction fuel generalizing a sql with
  | zero =>
    cases h
    exact ha
  | succ fuel ih =>
    unfold batchWith at h
    split at h
    · cases h
    · split at h
      · cases h
      · split at h
        · cases h
        · rename_i halone
          split at h
          · cases h
            exact alone_ok halone
          · exact ih h (alone_ok halone)

end Sql.Access

namespace Store

variable {s s' : Store}

/-- The store with nothing to run on a new connection. -/
def plain (s : Store) : Store :=
  { s with initSql := none }

theorem withLink_plain {α : Type} (s : Store) (f : Access → Except StorageError α × Access) :
    s.plain.withLink f = ((s.withLink f).1, (s.withLink f).2.plain) := by
  have hlink : s.plain.link = s.link := rfl
  unfold withLink
  rw [hlink]
  cases s.link with
  | none => rfl
  | some link => rfl

theorem perform_plain {α : Type} {r : Request α} (hr : r.kind ≠ .connect) (s : Store) :
    Connection.perform r s.plain = ((Connection.perform r s).1, (Connection.perform r s).2.plain) := by
  cases r with
  | connect => exact absurd rfl hr
  | prepare st => exact withLink_plain s _
  | query st values => exact withLink_plain s _
  | execute st values => exact withLink_plain s _
  | commit => exact withLink_plain s _
  | rollback => exact withLink_plain s _
  | close => rfl

/-- **Between two openings a store answers like one that has nothing to run.** -/
theorem parallel_plain : Connection.Parallel fun c d : Store => d = c.plain where
  perform h hr := by
    subst h
    rw [perform_plain hr]
    exact ⟨rfl, rfl⟩
  isOpen h := by
    subst h
    rfl
  release h := by
    subst h
    rfl

theorem batch_ok {sql : String} (h : s.batch sql = (.ok (), s')) :
    s'.view = s'.file.content ∧ s'.transient = s.transient := by
  unfold batch at h
  split at h
  · cases h
  · split at h
    · cases h
    · rename_i hcommit
      split at h
      · cases h
      · rename_i hbatch
        cases h
        obtain ⟨hcontent, hview⟩ := (Access.commit_cases hcommit).2 rfl
        exact ⟨Access.batchWith_ok hbatch (hview.trans hcontent.symm), rfl⟩

/-- **A connection that was opened sees what is committed**, with the work of the statements that
were run on it. -/
theorem connect_sees (h : s.connect = (.ok (), s')) :
    s'.view = s'.file.content ∧ s'.transient = s.transient := by
  unfold connect link? at h
  by_cases hr : s.disconnected.reachable = true
  · simp only [hr, ↓reduceIte] at h
    split at h
    · cases h
      exact ⟨rfl, rfl⟩
    · split at h
      · cases h
      · rename_i hbatch
        cases h
        obtain ⟨hview, htransient⟩ := batch_ok hbatch
        exact ⟨hview, htransient⟩
  · simp only [hr, Bool.false_eq_true, ↓reduceIte] at h
    split at h
    · cases h
    · rename_i heq
      split at heq <;> cases heq

end Store

end RowHistory
