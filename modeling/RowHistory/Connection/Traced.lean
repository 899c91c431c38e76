import RowHistory.Connection.Basic

/-!
# Traced connections

A connection whose calls are recorded, and on which chosen calls fail. A failing call does
nothing, except that it may lose the connection. This file fixes

* which calls fail, and how (`Fault`, `Trigger`);
* what is recorded of a call (`Call`);
* the connection around another one (`Traced`).
-/

namespace RowHistory

/-- How a call fails. -/
inductive Fault where
  /-- With an error. -/
  | failing (e : StorageError)
  /-- The connection is lost. -/
  | disconnect
deriving DecidableEq, Repr

/-- The error of a fault. -/
def Fault.error : Fault → StorageError
  | .failing e => e
  | .disconnect => .connectionClosed

/-- A call that fails: the one of its kind with a number, counted from one. -/
structure Trigger where
  kind : RequestKind
  number : Nat
  fault : Fault
deriving DecidableEq, Repr

/-- What came of a call. -/
inductive CallResult where
  | done
  | row
  | noRow
  | count (n : Nat)
  | failed (code : StorageCode)
deriving DecidableEq, Repr

/-- A recorded call. -/
structure Call where
  kind : RequestKind
  /-- The label of the statement, if there is one. -/
  label : Option String
  /-- The values of the statement, if it ran. -/
  values : Option (List Value)
  result : CallResult
deriving DecidableEq

namespace Request

variable {α : Type}

/-- The label of the statement of a request. -/
def label? : Request α → Option String
  | .prepare s => some s.label
  | .query s _ => some s.label
  | .execute s _ => some s.label
  | _ => none

/-- The values of a request. -/
def values? : Request α → Option (List Value)
  | .query _ values => some values
  | .execute _ values => some values
  | _ => none

/-- What came of a request that was answered. -/
def resultOf : Request α → α → CallResult
  | .query .., some _ => .row
  | .query .., none => .noRow
  | .execute .., count => .count count
  | .connect, _ => .done
  | .prepare _, _ => .done
  | .commit, _ => .done
  | .rollback, _ => .done
  | .close, _ => .done

/-- The record of a request and its answer. -/
def call (r : Request α) (answer : Except StorageError α) : Call :=
  { kind := r.kind
    label := r.label?
    values := r.values?
    result := match answer with
      | .ok a => r.resultOf a
      | .error e => .failed e.code }

end Request

/-- A connection with its record. -/
structure Traced (σ : Type) where
  inner : σ
  triggers : List Trigger := []
  /-- The kinds of the calls that were made, the last one first. -/
  made : List RequestKind := []
  /-- The calls, the last one first. -/
  calls : List Call := []

namespace Traced

variable {σ : Type} {α : Type}

/-- The fault of the next call of a kind. -/
def fault? (t : Traced σ) (kind : RequestKind) : Option Fault :=
  (t.triggers.find? fun trigger =>
    trigger.kind = kind && trigger.number = t.made.count kind + 1).map Trigger.fault

/-- The answer to a request, without its record. -/
def answer [Connection σ] (t : Traced σ) (r : Request α) : Except StorageError α × σ :=
  match t.fault? r.kind with
  | some .disconnect => (.error .connectionClosed, Connection.release t.inner)
  | some (.failing e) => (.error e, t.inner)
  | none => Connection.perform r t.inner

instance [Connection σ] : Connection (Traced σ) where
  perform r t :=
    let (answer, inner) := t.answer r
    (answer, { t with inner, made := r.kind :: t.made, calls := r.call answer :: t.calls })
  isOpen t := Connection.isOpen t.inner
  release t := { t with inner := Connection.release t.inner }
  describe t := Connection.describe t.inner

end Traced

end RowHistory
