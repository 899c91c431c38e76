import RowHistory.Connection.Basic

/-!
# Journals of connections

A journal tells what was done with the statements of a database: which were prepared and which ran, and
between them where connections begin and end. A connection that keeps a journal answers as the one
inside of it. This file fixes

* what is written down (`Deed`), and the connection that does it (`Journaled`);
* what a journal says of the present connection: that there is one (`isLive`), what was done on it
  (`present`) and which statements it has prepared (`HasPrepared`);
* the journals in which every statement is prepared on its connection before it runs there, and none of
  a kind twice (`Orderly`);
* what a statement that is wanted adds to a journal (`Used`), and what several do (`UsedAll`).
-/

namespace RowHistory

/-- The statement of a purge has no kind. -/
theorem Layout.kind_purge {l : Layout} {condition : Option String} {st : Statement}
    (h : l.purge condition = .ok st) : st.kind = none := by
  unfold Layout.purge at h
  split at h
  · cases h
    rfl
  · cases h

/-- The statement of a kind says so. -/
theorem Layout.kind_statement {l : Layout} {kind : StatementKind} {st : Statement}
    (h : l.statement kind = .ok st) : st.kind = some kind := by
  cases kind with
  | touch =>
    simp only [Layout.statement] at h
    split at h
    · cases h
      rfl
    · cases h
  | _ =>
    cases h
    rfl

/-- Something that is done with the statements of a database. -/
inductive Deed where
  /-- A connection is made. -/
  | connected
  /-- The connection is let go. -/
  | released
  /-- A statement is to be prepared; `done` if it is. -/
  | prepared (st : Statement) (done : Bool)
  /-- A statement is run with values; `done` if it succeeds. -/
  | ran (st : Statement) (values : List Value) (done : Bool)
deriving DecidableEq

namespace Deed

/-- A connection begins or ends. -/
def isBoundary : Deed → Bool
  | .connected => true
  | .released => true
  | _ => false

/-- The kind of the statement, if it has one. -/
def kind? : Deed → Option StatementKind
  | .prepared st _ => st.kind
  | .ran st _ _ => st.kind
  | _ => none

end Deed

/-- What a request does with statements, if it is done or not. -/
def Request.deed? {α : Type} : Request α → Bool → Option Deed
  | .connect, true => some .connected
  | .prepare st, done => some (.prepared st done)
  | .query st values, done => some (.ran st values done)
  | .execute st values, done => some (.ran st values done)
  | _, _ => none

/-- Deeds, the last one first. -/
abbrev Journal := List Deed

/-- A connection with its journal. -/
structure Journaled (σ : Type) where
  inner : σ
  journal : Journal := []

instance {σ : Type} [Connection σ] : Connection (Journaled σ) where
  perform r c :=
    let (answer, inner) := Connection.perform r c.inner
    (answer, { inner, journal := (r.deed? answer.isOk).toList ++ c.journal })
  isOpen c := Connection.isOpen c.inner
  release c := { inner := Connection.release c.inner, journal := .released :: c.journal }
  describe c := Connection.describe c.inner

/-- What happens outside is not written down. -/
def Journaled.outside {σ : Type} (f : σ → σ) (c : Journaled σ) : Journaled σ :=
  { c with inner := f c.inner }

theorem Journaled.inner_outside {σ : Type} (f : σ → σ) (c : Journaled σ) :
    (outside f c).inner = f c.inner :=
  rfl

/-- A request is answered as without the journal, and written down. -/
theorem perform_journaled {σ α : Type} [Connection σ] (r : Request α) (c : Journaled σ) :
    Connection.perform r c = ((Connection.perform r c.inner).1,
      ⟨(Connection.perform r c.inner).2,
        (r.deed? (Connection.perform r c.inner).1.isOk).toList ++ c.journal⟩) :=
  rfl

namespace Journal

/-! ## 1. The present connection -/

/-- There is a connection. -/
def isLive : Journal → Bool
  | [] => false
  | .connected :: _ => true
  | .released :: _ => false
  | .prepared .. :: earlier => isLive earlier
  | .ran .. :: earlier => isLive earlier

/-- What was done on the present connection. -/
def present (j : Journal) : List Deed :=
  j.takeWhile fun d => !d.isBoundary

/-- The present connection has prepared a statement. -/
def HasPrepared (j : Journal) (st : Statement) : Prop :=
  .prepared st true ∈ j.present

instance (j : Journal) (st : Statement) : Decidable (j.HasPrepared st) :=
  inferInstanceAs (Decidable (_ ∈ _))

variable {j : Journal} {st st' : Statement} {values : List Value} {done : Bool}

/-- A new connection has prepared nothing. -/
theorem not_hasPrepared_connected : ¬ HasPrepared (.connected :: j) st :=
  List.not_mem_nil

/-- Without a connection nothing is prepared. -/
theorem not_hasPrepared_released : ¬ HasPrepared (.released :: j) st :=
  List.not_mem_nil

theorem hasPrepared_prepared :
    HasPrepared (.prepared st' done :: j) st ↔ (st = st' ∧ done = true) ∨ HasPrepared j st := by
  show Deed.prepared st true ∈ Deed.prepared st' done :: present j ↔ _
  rw [List.mem_cons, Deed.prepared.injEq, eq_comm (a := true)]
  rfl

theorem hasPrepared_ran : HasPrepared (.ran st' values done :: j) st ↔ HasPrepared j st := by
  show Deed.prepared st true ∈ Deed.ran st' values done :: present j ↔ _
  rw [List.mem_cons, or_iff_right nofun]
  rfl

/-! ## 2. Orderly journals -/

/-- A deed is in order after what was done before. A statement of a kind is the one of the layout, and is
to be prepared only if the connection has prepared none of its kind; a statement that runs was prepared
on the same connection. -/
def InOrder (l : Layout) (earlier : Journal) : Deed → Prop
  | .prepared st _ => earlier.isLive = true ∧ ∀ kind, st.kind = some kind →
      l.statement kind = .ok st ∧ ∀ st', st'.kind = some kind → ¬ earlier.HasPrepared st'
  | .ran st _ _ => earlier.isLive = true ∧ earlier.HasPrepared st ∧
      ∀ kind, st.kind = some kind → l.statement kind = .ok st
  | _ => True

/-- Every deed was in order when it was done. -/
def Orderly (l : Layout) : Journal → Prop
  | [] => True
  | d :: earlier => InOrder l earlier d ∧ Orderly l earlier

/-- What the present connection has prepared of a kind is the statement of the layout. -/
theorem Orderly.statement_eq {l : Layout} (h : Orderly l j) (hprepared : j.HasPrepared st)
    {kind : StatementKind} (hkind : st.kind = some kind) : l.statement kind = .ok st := by
  induction j with
  | nil => cases hprepared
  | cons d earlier ih =>
    cases d with
    | connected => exact absurd hprepared not_hasPrepared_connected
    | released => exact absurd hprepared not_hasPrepared_released
    | prepared st' done =>
      obtain ⟨rfl, -⟩ | hearlier := hasPrepared_prepared.mp hprepared
      · exact (h.1.2 kind hkind).1
      · exact ih h.2 hearlier
    | ran st' values done => exact ih h.2 (hasPrepared_ran.mp hprepared)

/-! ## 3. Statements that are wanted -/

/-- What is done when the statement of a kind is wanted, and whether it was run with success. -/
inductive Used (l : Layout) (j : Journal) (kind : StatementKind) (b : Binding) : List Deed → Bool → Prop
  /-- The layout has no such statement. -/
  | unbuilt {e : StorageError} : l.statement kind = .error e → Used l j kind b [] false
  /-- It is not prepared and cannot be. -/
  | refused {st : Statement} : l.statement kind = .ok st → ¬ j.HasPrepared st →
      Used l j kind b [.prepared st false] false
  /-- It is not prepared, so this is done first. -/
  | first {st : Statement} (done : Bool) : l.statement kind = .ok st → ¬ j.HasPrepared st →
      Used l j kind b [.ran st (st.bind b) done, .prepared st true] done
  /-- It is prepared and only runs. -/
  | again {st : Statement} (done : Bool) : l.statement kind = .ok st → j.HasPrepared st →
      Used l j kind b [.ran st (st.bind b) done] done

/-- What is done when statements are wanted one after the other, up to the first that does not succeed. -/
inductive UsedAll (l : Layout) : Journal → List (StatementKind × Binding) → List Deed → Bool → Prop
  | nil {j : Journal} : UsedAll l j [] [] true
  | stop {j : Journal} {kind : StatementKind} {b : Binding} {uses : List (StatementKind × Binding)}
      {deeds : List Deed} : Used l j kind b deeds false → UsedAll l j ((kind, b) :: uses) deeds false
  | cons {j : Journal} {kind : StatementKind} {b : Binding} {uses : List (StatementKind × Binding)}
      {deeds more : List Deed} {done : Bool} : Used l j kind b deeds true →
      UsedAll l (deeds ++ j) uses more done → UsedAll l j ((kind, b) :: uses) (more ++ deeds) done

/-- A single statement is wanted. -/
theorem Used.all {l : Layout} {kind : StatementKind} {b : Binding} {deeds : List Deed}
    (h : Used l j kind b deeds done) : UsedAll l j [(kind, b)] deeds done := by
  cases done with
  | false => exact .stop h
  | true => exact .cons h .nil

/-- What is used has a kind. -/
theorem Used.hasKind {l : Layout} {kind : StatementKind} {b : Binding} {deeds : List Deed}
    (h : Used l j kind b deeds done) : ∀ d ∈ deeds, d.kind?.isSome = true := by
  have hkind : ∀ {st : Statement}, l.statement kind = .ok st → st.kind.isSome = true := by
    intro st hst
    rw [Layout.kind_statement hst]
    rfl
  cases h with
  | unbuilt hst => nofun
  | refused hst hnew => simpa [Deed.kind?] using hkind hst
  | first done hst hnew => simpa [Deed.kind?] using hkind hst
  | again done hst hprepared => simpa [Deed.kind?] using hkind hst

theorem UsedAll.hasKind {l : Layout} {uses : List (StatementKind × Binding)} {deeds : List Deed}
    (h : UsedAll l j uses deeds done) : ∀ d ∈ deeds, d.kind?.isSome = true := by
  induction h with
  | nil => nofun
  | stop hused => exact hused.hasKind
  | cons hused _ ih => exact List.forall_mem_append.mpr ⟨ih, hused.hasKind⟩

end Journal

end RowHistory
